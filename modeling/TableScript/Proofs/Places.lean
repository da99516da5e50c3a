import Mathlib.Tactic
import TableScript.Parser

/-!
# Places in a program

What the rules of the grammar pass on may hold places of the program: tokens do, and so do the notes
of expressions. `Placed.relocate` moves them, and changes nothing else.
-/

namespace TableScript

section Renote

variable (place : Option Position → Option Position) (call : TypeRef → TypeRef)

/-- A note at another place. -/
def Note.renote (n : Note) : Note :=
  { n with position := place n.position }

mutual

/-- Changes the places in an expression and in all its parts, and the types in the notes of
calls. -/
def Expr.renote : Expr → Expr
  | .missing => .missing
  | .unknown n => .unknown (n.renote place)
  | .literal n v => .literal (n.renote place) v
  | .bind n names type bound rest =>
    .bind (n.renote place) names type bound.renote (renoteOption rest)
  | .typeAlias n name type rest => .typeAlias (n.renote place) name type rest.renote
  | .lambda n parameters result body =>
    .lambda (n.renote place) (parameters.map fun p => { p with position := place p.position })
      result body.renote
  | .apply n function arguments =>
    .apply { type := call n.type, position := place n.position } function.renote
      (renoteAll arguments)
  | .cases n subject alternatives =>
    .cases (n.renote place) subject.renote (renoteCases alternatives)
  | .prim n op left right => .prim (n.renote place) op left.renote right.renote
  | .ref n name => .ref (n.renote place) name
  | .branch n condition yes no =>
    .branch (n.renote place) condition.renote yes.renote (renoteOption no)
  | .loop n name iterable body rest =>
    .loop (n.renote place) name iterable.renote body.renote (renoteOption rest)
  | .list n elements => .list (n.renote place) (renoteAll elements)
  | .range n start stop => .range (n.renote place) start stop
  | .tuple n elements => .tuple (n.renote place) (renoteAll elements)
  | .dict n entries => .dict (n.renote place) (renoteEntries entries)
  | .schema n columns => .schema (n.renote place) columns

def renoteOption : Option Expr → Option Expr
  | none => none
  | some e => some e.renote

def renoteAll : List Expr → List Expr
  | [] => []
  | e :: es => e.renote :: renoteAll es

def renoteEntries : List (Expr × Expr) → List (Expr × Expr)
  | [] => []
  | (k, v) :: es => (k.renote, v.renote) :: renoteEntries es

def renotePattern : Pattern Expr → Pattern Expr
  | .type name type guard => .type name type (renoteOption guard)
  | .range n start stop => .range (n.renote place) start stop
  | .literal v => .literal v
  | .literals vs => .literals vs
  | .any => .any
  | .missing => .missing

def renoteCases : List (Pattern Expr × Expr) → List (Pattern Expr × Expr)
  | [] => []
  | (p, e) :: rest => (renotePattern p, e.renote) :: renoteCases rest

end

end Renote

/-- No change changes nothing, and two changes are one. -/
def Lawful {α : Type} (r : (Option Position → Option Position) → (TypeRef → TypeRef) →
    α → α) (a : α) : Prop :=
  r id id a = a ∧ ∀ p c p' c', r p c (r p' c' a) = r (p ∘ p') (c ∘ c') a

theorem Expr.lawful_renote (e : Expr) : Lawful Expr.renote e := by
  -- one motive for each type that expressions are nested through
  refine @Expr.rec (Lawful Expr.renote) (Lawful renoteOption) (Lawful renoteAll)
    (Lawful renoteCases) (Lawful renoteEntries)
    (fun q => Lawful renotePattern q.1 ∧ Lawful Expr.renote q.2)
    (fun q => Lawful Expr.renote q.1 ∧ Lawful Expr.renote q.2) (Lawful renotePattern)
    ?_ ?_ ?_ ?_ ?_ ?_ ?_ ?_ ?_ ?_ ?_ ?_ ?_ ?_ ?_ ?_ ?_ ?_ ?_ ?_ ?_ ?_ ?_ ?_ ?_ ?_ ?_ ?_ ?_ ?_ ?_ ?_
    ?_ e
  all_goals
    intros
    simp_all [Lawful, Expr.renote, renoteOption, renoteAll, renoteCases, renoteEntries,
      renotePattern, Note.renote, Function.comp_def]

theorem lawful_renoteOption (o : Option Expr) : Lawful renoteOption o := by
  cases o with
  | none => exact ⟨rfl, fun _ _ _ _ => rfl⟩
  | some e =>
    exact ⟨congrArg some e.lawful_renote.1, fun _ _ _ _ => congrArg some (e.lawful_renote.2 ..)⟩

theorem lawful_renoteAll (es : List Expr) : Lawful renoteAll es := by
  induction es with
  | nil => exact ⟨rfl, fun _ _ _ _ => rfl⟩
  | cons e es ih =>
    exact ⟨congrArg₂ List.cons e.lawful_renote.1 ih.1,
      fun _ _ _ _ => congrArg₂ List.cons (e.lawful_renote.2 ..) (ih.2 ..)⟩

theorem renoteEntries_id (es : List (Expr × Expr)) : renoteEntries id id es = es := by
  induction es with
  | nil => rfl
  | cons e es ih => rw [renoteEntries, e.1.lawful_renote.1, e.2.lawful_renote.1, ih]

theorem renotePattern_id (p : Pattern Expr) : renotePattern id id p = p := by
  cases p with
  | type name type guard => exact congrArg _ (lawful_renoteOption guard).1
  | _ => rfl

theorem renoteCases_id (es : List (Pattern Expr × Expr)) : renoteCases id id es = es := by
  induction es with
  | nil => rfl
  | cons e es ih => rw [renoteCases, renotePattern_id, e.2.lawful_renote.1, ih]

/-! ## What can be moved -/

/-- Values in which places can be moved. -/
class Placed (α : Type) where
  relocate : (Position → Position) → α → α
  relocate_id : ∀ a, relocate id a = a

namespace Placed

/-- Values without places. -/
@[reducible] def still (α : Type) : Placed α := ⟨fun _ a => a, fun _ => rfl⟩

/-- Values whose places are changed by a lawful function. -/
@[reducible] def ofLawful {α : Type}
    (r : (Option Position → Option Position) → (TypeRef → TypeRef) → α → α)
    (h : ∀ a, r id id a = a) : Placed α :=
  ⟨fun π => r (Option.map π) id, fun a => by rw [Option.map_id, h]⟩

variable {α β : Type} [Placed α] [Placed β]

instance : Placed (Option α) := ⟨fun π => Option.map (relocate π), fun o => by
  cases o with
  | none => rfl
  | some a => exact congrArg some (relocate_id a)⟩

instance : Placed (List α) := ⟨fun π => List.map (relocate π), fun as => by
  rw [funext (relocate_id (α := α))]
  exact List.map_id as⟩

instance : Placed (α × β) := ⟨fun π p => (relocate π p.1, relocate π p.2), fun p =>
  Prod.ext (relocate_id p.1) (relocate_id p.2)⟩

instance : Placed Position := ⟨fun π p => π p, fun _ => rfl⟩
instance : Placed Token := ⟨fun π t => { t with position := π t.position }, fun _ => rfl⟩

instance : Placed Parameter :=
  ⟨fun π p => { p with position := p.position.map π }, fun p => by rw [Option.map_id]; rfl⟩

instance : Placed Unit := still _
instance : Placed Bool := still _
instance : Placed Nat := still _
instance : Placed String := still _
instance : Placed TypeRef := still _
instance : Placed (Option String) := still _
instance : Placed (Option Literal) := still _
instance : Placed (Option TypeRef) := still _
instance : Placed (Option (String × TypeRef)) := still _
instance : Placed (Option (List (String × TypeRef))) := still _
instance : Placed (List TypeRef) := still _
instance : Placed (List (Option Literal)) := still _
instance : Placed (List (Option String × TypeRef)) := still _

instance : Placed Expr := ofLawful Expr.renote fun e => e.lawful_renote.1
instance : Placed (Option Expr) := ofLawful renoteOption fun o => (lawful_renoteOption o).1
instance : Placed (List Expr) := ofLawful renoteAll fun es => (lawful_renoteAll es).1
instance : Placed (List (Expr × Expr)) := ofLawful renoteEntries renoteEntries_id
instance : Placed (Pattern Expr) := ofLawful renotePattern renotePattern_id
instance : Placed (List (Pattern Expr × Expr)) := ofLawful renoteCases renoteCases_id

section

variable (π : Position → Position)

theorem isEmpty_relocate (more : List (Expr × TypeRef)) :
    (relocate π more).isEmpty = more.isEmpty := by
  cases more <;> rfl

theorem map_snd_relocate (more : List (Expr × TypeRef)) :
    (relocate π more).map (·.2) = more.map (·.2) := by
  induction more with
  | nil => rfl
  | cons e more ih => exact congrArg (List.cons _) ih

theorem map_fst_relocate (more : List (Expr × TypeRef)) :
    (relocate π more).map (·.1) = relocate π (more.map (·.1)) := by
  induction more with
  | nil => rfl
  | cons e more ih => exact congrArg (List.cons _) ih

theorem map_type_relocate (parameters : List Parameter) :
    (relocate π parameters).map (·.type) = parameters.map (·.type) := by
  induction parameters with
  | nil => rfl
  | cons p parameters ih => exact congrArg (List.cons _) ih

theorem relocate_calls (position : Option Position) (e : Expr) (calls : List (List Expr)) :
    relocate π (calls.foldl (fun e as => .apply { position } e as) e) =
      (relocate π calls).foldl (fun e as => .apply { position := relocate π position } e as)
        (relocate π e) := by
  induction calls generalizing e with
  | nil => rfl
  | cons as calls ih => exact ih _

theorem relocate_withType (t : TypeRef) (e : Expr) :
    relocate π (e.withType t) = (relocate π e).withType t := by
  cases e <;> rfl

end

end Placed

end TableScript
