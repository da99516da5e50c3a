import TableScript.Proofs.BlockScope

/-!
# Types and tuples of different lengths

The members of compound types are compared in pairs, up to the end of the shorter list, and the
names of a `let` take the elements of a tuple in the same way. So types with different numbers of
members go together if the members that both have do, and names or elements that are left over are
passed over without an error.
-/

namespace TableScript

namespace Shape

variable {ι : Type} [Inhabited ι]

theorem conform?_isSome {a b : Shape ι} :
    (a.conform? b).isSome = true ↔ (a.conform b).isKnown = true := by
  unfold conform?
  dsimp only
  split <;> simp_all

/-- Members go together in pairs, as far as both lists go. -/
def PairsConform (as bs : List (Shape ι)) : Prop :=
  ∀ p ∈ as.zip bs, (p.1.conform? p.2).isSome = true

theorem allKnown_conformAll {as bs : List (Shape ι)} :
    allKnown (conformAll as bs) = true ↔ PairsConform as bs := by
  induction as generalizing bs with
  | nil => simp [conformAll, allKnown, PairsConform]
  | cons a as ih =>
    cases bs with
    | nil => simp [conformAll, allKnown, PairsConform]
    | cons b bs =>
      rw [conformAll, allKnown, Bool.and_eq_true, ih, PairsConform, PairsConform,
        List.zip_cons_cons, List.forall_mem_cons, conform?_isSome]

/-- Two compound types of one kind, their members, and what has to hold besides for them to go
together. An empty tuple or schema type is a type of its own. -/
inductive Compounds : Shape ι → Shape ι → List (Shape ι) → List (Shape ι) → Prop →
    Prop
  | tuple (m n : ι) {as bs : List (Shape ι)} (ha : as ≠ []) (hb : bs ≠ []) :
    Compounds (.tuple m as) (.tuple n bs) as bs True
  | schema (m n : ι) {as bs : List (Shape ι)} (ha : as ≠ []) (hb : bs ≠ []) :
    Compounds (.schema m as) (.schema n bs) as bs True
  /-- Functions are compared by their results too. -/
  | func (as bs : List (Shape ι)) (a b : Shape ι) :
    Compounds (.func as a) (.func bs b) as bs ((a.conform? b).isSome = true)

theorem Compounds.conform?_isSome_iff {a b : Shape ι} {as bs : List (Shape ι)} {rest : Prop}
    (h : Compounds a b as bs rest) :
    (a.conform? b).isSome = true ↔ PairsConform as bs ∧ rest := by
  rw [conform?_isSome, ← allKnown_conformAll]
  cases h with
  | tuple m n ha hb | schema m n ha hb =>
    simp [conform, isKnown, List.isEmpty_eq_false_iff.mpr ha, List.isEmpty_eq_false_iff.mpr hb]
  | func a b => simp [conform, isKnown, conform?_isSome]

end Shape

namespace EvalM

/-- Names that take values in turn, as far as there are both. -/
def bindAll (scope : Scope Ref TypeRef) (names : List String) (refs : List Ref) :
    Scope Ref TypeRef :=
  (names.zip refs).foldl (fun s p => s.add p.1 p.2) scope

theorem get?_bindAll (scope : Scope Ref TypeRef) (names : List String) (refs : List Ref)
    (n : String) : (bindAll scope names refs).get? n =
      ((names.zip refs).reverse.lookup n).or (scope.get? n) := by
  unfold bindAll
  generalize names.zip refs = pairs
  induction pairs generalizing scope with
  | nil => rfl
  | cons p pairs ih =>
    obtain ⟨k, r⟩ := p
    rw [List.foldl_cons, ih, Scope.get?_add, List.reverse_cons, List.lookup_append, Option.or_assoc,
      List.lookup_cons]
    by_cases h : n = k
    · simp [h]
    · simp [h, beq_eq_false_iff_ne.mpr h]

theorem exec_bindNames {names : List String} (hnames : 2 ≤ names.length)
    (position : Option Position) (r : Ref) (m : Machine) :
    (∀ place, m.store.content r = .tuple place → (bindNames position names r).exec m =
      (.ok (), { m with scope := bindAll m.scope names (m.store.sequence place) })) ∧
    ((∀ place, m.store.content r ≠ .tuple place) → (bindNames position names r).exec m =
      (report "Cannot unpack, requires tuple value" position).exec m) := by
  have hforM : ∀ (pairs : List (String × Ref)) (m : Machine),
      (pairs.forM fun p => bindName p.1 p.2).exec m =
        (.ok (), { m with scope := pairs.foldl (fun s p => s.add p.1 p.2) m.scope }) := by
    intro pairs
    induction pairs with
    | nil => exact fun _ => rfl
    | cons p pairs ih => exact fun m => ih { m with scope := m.scope.add p.1 p.2 }
  unfold bindNames
  split
  · cases hnames with
    | step h => exact absurd h (by simp)
  · rw [exec_bind_content]
    constructor
    · intro place hr
      rw [hr, exec_bind_sequence]
      exact hforM _ m
    · intro hr
      split
      · exact absurd ‹_› (hr _)
      · rfl

/-- What follows a `let`. -/
def afterLet (levels : Nat) (rest : Option Expr) (expected : TypeRef) : EvalM Ref := do
  let r ← match rest with
    | some e => eval levels e expected
    | none => newNone
  ascend
  return r

theorem exec_eval_bind {levels : Nat} {note : Note} {names : List String} {type : TypeRef}
    {bound : Expr} {m m₁ : Machine} {r : Ref} (hm : m.depth < depthLimit)
    (hbound : (eval levels bound type).exec (deeper m) = (.ok r, m₁)) (rest : Option Expr)
    (expected : TypeRef) :
    (eval (levels + 1) (.bind note names type bound rest) expected).exec m =
      (bindNames note.position names r >>= fun _ => afterLet levels rest expected).exec m₁ := by
  rw [eval, exec_bind_of (exec_descend hm _), step]
  unfold evalBind
  rw [bind_assoc, exec_bind_of hbound, bind_assoc]
  cases rest <;> rfl

/-- Compound types go together iff the members that both have do, and the results of functions,
however many members only one of them has. A `let` with several names gives the elements of a tuple
to the names in turn and goes on, whatever their numbers: a name that is left over stands for what
it stood for. An error is reported only if the value is no tuple. -/
theorem conforming_lengths_iff {ι : Type} [Inhabited ι] :
    (∀ {a b : Shape ι} {as bs : List (Shape ι)} {rest : Prop},
      Shape.Compounds a b as bs rest →
      ((a.conform? b).isSome = true ↔ Shape.PairsConform as bs ∧ rest)) ∧
    ∀ (levels : Nat) (note : Note) (names : List String) (type : TypeRef) (bound : Expr)
      (m m₁ : Machine) (r : Ref), m.depth < depthLimit → 2 ≤ names.length →
      (eval levels bound type).exec (deeper m) = (.ok r, m₁) → ∀ rest expected,
      (∀ place, m₁.store.content r = .tuple place → ∃ scope,
        (eval (levels + 1) (.bind note names type bound rest) expected).exec m =
          (afterLet levels rest expected).exec { m₁ with scope } ∧
        ∀ n, scope.get? n =
          ((names.zip (m₁.store.sequence place)).reverse.lookup n).or (m₁.scope.get? n)) ∧
      ((∀ place, m₁.store.content r ≠ .tuple place) →
        (eval (levels + 1) (.bind note names type bound rest) expected).exec m =
          (report "Cannot unpack, requires tuple value" note.position : EvalM Ref).exec m₁) := by
  constructor
  · intro a b as bs rest h
    exact h.conform?_isSome_iff
  · intro levels note names type bound m m₁ r hm hnames hbound rest expected
    obtain ⟨htuple, hother⟩ := exec_bindNames hnames note.position r m₁
    rw [exec_eval_bind hm hbound]
    constructor
    · exact fun place hr => ⟨_, exec_bind_of (htuple place hr), get?_bindAll _ _ _⟩
    · intro hr
      rw [exec_bind, hother hr]
      cases note.position <;> rfl

/-- A pair of numbers. -/
def numberPair : Expr :=
  .tuple { type := .tuple 0 } [.literal { type := .int } (.int 1),
    .literal { type := .int } (.int 2)]

/-- A machine that knows the type of a pair of numbers. -/
def pairMachine : Machine where
  store := { types := { lists := #[[.int, .int]], cells := #[0] } }

/-- The machine after the pair has been evaluated. -/
def afterPair : Machine :=
  ((eval 2 numberPair (.tuple 0)).exec (deeper pairMachine)).2

/-- A tuple type with one member goes with one that has two. Of three names for two numbers, the
third one stands for nothing, and no error is reported. -/
theorem conforming_lengths_numberPair :
    ((Shape.tuple () [Shape.int]).conform? (.tuple () [.int, .int])).isSome = true ∧
      (eval 2 numberPair (.tuple 0)).exec (deeper pairMachine) = (.ok ⟨2⟩, afterPair) ∧
      ∃ scope, (eval (2 + 1) (.bind {} ["a", "b", "c"] (.tuple 0) numberPair none) .any).exec
          pairMachine = (afterLet 2 none .any).exec { afterPair with scope } ∧
        scope.get? "b" = some ⟨1⟩ ∧ scope.get? "c" = none := by
  obtain ⟨htypes, hlet⟩ := conforming_lengths_iff (ι := Unit)
  have hpairs : Shape.PairsConform [Shape.int] [Shape.int (ι := Unit), .int] := by
    simp [Shape.PairsConform, Shape.conform?, Shape.conform, Shape.isKnown]
  have hpair : (eval 2 numberPair (.tuple 0)).exec (deeper pairMachine) =
    (.ok ⟨2⟩, afterPair) := rfl
  obtain ⟨scope, hexec, hscope⟩ := (hlet 2 {} ["a", "b", "c"] (.tuple 0) numberPair pairMachine
    afterPair ⟨2⟩ (by decide) (by decide) hpair none .any).1 0 rfl
  exact ⟨(htypes (.tuple () () (by simp) (by simp))).mpr ⟨hpairs, trivial⟩,
    hpair, scope, hexec, hscope "b", hscope "c"⟩

/-- A tuple type with one member goes with one that has two, and of three names for two values the
first one stands for its value. -/
theorem lengths_differ :
    (Shape.tuple () [Shape.int]).conform? (.tuple () [.int, .int]) = some (.tuple () [.int]) ∧
      (executeDirect "let a, b, c = (1, 2); a" .initial).1.toOption = some { tail := "1" } :=
  ⟨rfl, by decide +kernel⟩

end EvalM

end TableScript
