/-!
Scopes: the values and types that names stand for. A scope is a value, so a change in one scope is
not seen in another one that was taken from it before.
-/

namespace TableScript

/-- The values of type `α` that names stand for, and the types of type `τ`. -/
structure Scope (α τ : Type) where
  names : List (String × α) := []
  aliases : List (String × τ) := []
  deriving Inhabited, Repr

/-- Lets a name stand for something, in place of what it stood for. -/
def rebind {α : Type} (name : String) (a : α) : List (String × α) → List (String × α)
  | [] => [(name, a)]
  | (n, b) :: rest => if n = name then (name, a) :: rest else (n, b) :: rebind name a rest

section

variable {α : Type} (name : String) (a b : α)

theorem lookup_rebind (n : String) (l : List (String × α)) :
    (rebind name a l).lookup n = if n = name then some a else l.lookup n := by
  have hcons : ∀ (k : String) (b : α) (l : List (String × α)),
      ((k, b) :: l).lookup n = if n = k then some b else l.lookup n := by
    intro k b l
    by_cases h : n = k
    · rw [if_pos h, h, List.lookup_cons_self]
    · rw [if_neg h, List.lookup_cons, beq_eq_false_iff_ne.mpr h]
  -- The name is bound where it stands in the list, or at the end.
  induction l with
  | nil => exact hcons name a []
  | cons p l ih =>
    obtain ⟨k, b⟩ := p
    rw [rebind]
    by_cases hk : k = name
    · rw [if_pos hk, hcons, hcons, hk]
      by_cases h : n = name <;> simp [h]
    · rw [if_neg hk, hcons, hcons, ih]
      by_cases h : n = k
      · rw [if_pos h, if_pos h, if_neg (h ▸ hk)]
      · rw [if_neg h, if_neg h]

theorem rebind_rebind (l : List (String × α)) :
    rebind name b (rebind name a l) = rebind name b l := by
  induction l with
  | nil => simp [rebind]
  | cons e l ih =>
    rw [rebind, rebind]
    split
    · simp [rebind]
    · next hne => rw [rebind, if_neg hne, ih]

end

namespace Scope

variable {α τ : Type}

def add (s : Scope α τ) (name : String) (a : α) : Scope α τ :=
  { s with names := rebind name a s.names }

def addAlias (s : Scope α τ) (name : String) (t : τ) : Scope α τ :=
  { s with aliases := rebind name t s.aliases }

def get? (s : Scope α τ) (name : String) : Option α :=
  s.names.lookup name

def alias? (s : Scope α τ) (name : String) : Option τ :=
  s.aliases.lookup name

def unboundMessage (name : String) : String :=
  "Identifier '" ++ name ++ "' does not exist in this scope"

def unboundAliasMessage (name : String) : String :=
  "Alias '" ++ name ++ "' does not exist in this scope"

end Scope

end TableScript
