import TableScript.Proofs.Conformance
import TableScript.Proofs.InternedTypes

/-!
# Values where a type is expected

An expression is evaluated where a type is expected, and each form of expression compares some type
with it on the way. The type that is compared is not always the one that the value takes, and some
forms end before the comparison.

* `unchecked` runs an expression as far as is needed to tell the type that its value takes without a
  check, if there is one;
* `Answers` says that it tells the truth about one evaluation: the value has the type that is told,
  or else conforms. There is a lemma for each form (`answers_step`), and the levels of evaluation
  follow by induction (`answers_eval`);
* `eval_conforms_iff`: a value conforms iff the type that it takes without a check does.

Nothing is asked of the machine. What is expected has to be a type (`TypeStore.Present`): where a
type is missing, a check may find no type, and the value is a none.
-/

namespace TableScript

open TypeStore

namespace TypeStore

variable {s s' : TypeStore} {found expected : TypeRef}

/-- There is a type behind a handle, and behind every member if it is a union. -/
def Present (s : TypeStore) (expected : TypeRef) : Prop :=
  (s.read expected).isPresent = true

/-- Does the type behind a handle end, and is it the one that is given? -/
def standsFor (s : TypeStore) (handle : TypeRef) (type : PlacedType) : Bool :=
  s.ends handle && (s.read handle).same type

theorem conform?_isSome_iff (a b : PlacedType) :
    (∃ t, a.conform? b = some t) ↔ (a.plain.conform b.plain).isKnown = true := by
  rw [← Shape.plain_conform, Shape.plain, Shape.isKnown_mapMarks, Shape.conform?]
  split <;> simp_all

theorem conforms_iff : s.Conforms found expected ↔ s.ends found = true ∧
    s.ends expected = true ∧
    ((s.read found).plain.conform (s.read expected).plain).isKnown = true := by
  rw [← conform?_isSome_iff, Conforms]
  simp only [conform?_eq_some]
  constructor
  · rintro ⟨t, hfound, hexpected, ht⟩
    exact ⟨hfound, hexpected, t, ht⟩
  · rintro ⟨hfound, hexpected, t, ht⟩
    exact ⟨t, hfound, hexpected, ht⟩

theorem conforms_of_standsFor {handle : TypeRef} {a t : PlacedType}
    (h : s.standsFor handle a = true) (hends : s.ends expected = true)
    (ht : a.conform? (s.read expected) = some t) : s.Conforms handle expected := by
  obtain ⟨hhandle, hsame⟩ := Bool.and_eq_true_iff.mp h
  rw [conforms_iff, (Shape.same_iff _ _).mp hsame]
  exact ⟨hhandle, hends, (conform?_isSome_iff a _).mp ⟨t, ht⟩⟩

theorem Extends.present (h : s.Extends s') (hends : s.ends expected = true) :
    s'.Present expected ↔ s.Present expected := by
  rw [Present, Present, h.read_eq hends]

theorem tells_of_conform? {t : PlacedType} (h : s.conform? found expected = some t) :
    s.Tells t := by
  obtain ⟨hfound, hends, hconform⟩ := conform?_eq_some.mp h
  rw [← Shape.eq_of_conform? hconform]
  exact tells_conform _ _ (tells_read hfound) (tells_read hends)

theorem conforms_intern {a t : PlacedType} (hends : s.ends expected = true) (ha : s.Tells a)
    (ht : a.conform? (s.read expected) = some t)
    (hagain : (a.plain.conform (s.read expected).plain).isKnown = true →
      ((a.plain.conform (s.read expected).plain).conform (s.read expected).plain).isKnown = true) :
    (s.intern t).2.Conforms (s.intern t).1 expected := by
  have hknown := (conform?_isSome_iff a _).mp ⟨t, ht⟩
  have heq := Shape.eq_of_conform? ht
  have hinterns := interns_intern t s (heq ▸ tells_conform a _ ha (tells_read hends))
  rw [conforms_iff]
  refine ⟨hinterns.ends, hinterns.extend.ends hends, ?_⟩
  rw [hinterns.plain, hinterns.extend.read_eq hends, ← heq, Shape.plain_conform]
  exact hagain hknown

theorem conforms_none_of_absent (h : s.conform? found expected = some .absent)
    (hpresent : s.Present expected) : s.Conforms .none expected := by
  obtain ⟨-, hends, hconform⟩ := conform?_eq_some.mp h
  have habsent : (s.read found).plain.conform (s.read expected).plain = .absent := by
    rw [← Shape.plain_conform, Shape.eq_of_conform? hconform]
    rfl
  have hpresent : (s.read expected).plain.isPresent = true := by rwa [Shape.isPresent_plain]
  rw [conforms_iff]
  refine ⟨rfl, hends, ?_⟩
  -- a type can be missing only where every type goes, and a none goes there
  by_cases hany : (s.read expected).plain = .any
  · rw [hany]
    rfl
  · by_cases hunknown : (s.read expected).plain = .unknown
    · rw [hunknown]
      rfl
    · exact absurd habsent (Shape.conform_ne_absent hpresent hany hunknown)

end TypeStore

namespace EvalM

open Primitive

/-! ## Types that are taken without a check -/

/-- The type `type`, unless it is compared with what was checked. -/
def typeUnless (checked : Bool) (type : TypeRef) : Option TypeRef :=
  if checked then none else some type

/-- A literal takes its own type; the type in its note is checked. -/
def uncheckedLiteral (note : Note) (l : Literal) : EvalM (Option TypeRef) := do
  let types := (← store).types
  return typeUnless (types.standsFor l.type (types.read note.type)) l.type

/-- A `let` that nothing follows is a none. -/
def uncheckedBind (eval : Evaluator) (unchecked : Expr → EvalM (Option TypeRef)) (note : Note)
    (names : List String) (type : TypeRef) (bound : Expr) (rest : Option Expr) :
    EvalM (Option TypeRef) := do
  bindNames note.position names (← eval bound type)
  match rest with
  | some e => unchecked e
  | none => return some .none

def uncheckedAlias (unchecked : Expr → EvalM (Option TypeRef)) (name : Option String)
    (type : TypeRef) (rest : Expr) : EvalM (Option TypeRef) := do
  modify fun m => { m with scope := m.scope.addAlias (name.getD "") type }
  unchecked rest

/-- A function is a none if its type or that of its result is not one. -/
def uncheckedLambda (note : Note) (body : Expr) (expected : TypeRef) :
    EvalM (Option TypeRef) := do
  match ← check note.position note.type expected with
  | some (.func _ .absent) => return some .none
  | some (.func _ result) =>
    let bodyNote ← noteOf body
    match ← checkWith (report · bodyNote.position) result (← readType bodyNote.type) with
    | none => return some .none
    | some _ => return none
  | _ => return some .none

/-- An element at an index that is no number is a none. -/
def uncheckedIndex (eval : Evaluator) (note : Note) (kind : String) (arguments : List Expr) :
    EvalM (Option TypeRef) := do
  match ← indexArgument eval note kind arguments with
  | .int _ => return none
  | _ => return some .none

def uncheckedApply (eval : Evaluator) (note : Note) (function : Expr) (arguments : List Expr) :
    EvalM (Option TypeRef) := do
  let r ← eval function .unknown
  let o ← object r
  match o.content with
  | .func _ =>
    match o.type with
    | .func _ _ => return none
    | _ => return some .none
  | .string _ => uncheckedIndex eval note "string" arguments
  | .list _ => uncheckedIndex eval note "list" arguments
  | .tuple _ => uncheckedIndex eval note "tuple" arguments
  | .dict _ =>
    match o.type with
    | .dict _ _ => return none
    | _ => return some .none
  | _ => return none

def uncheckedAlternatives (eval : Evaluator) (unchecked : Expr → EvalM (Option TypeRef))
    (r : Ref) :
    List (Pattern Expr × Expr) → EvalM (Option TypeRef)
  | [] => return none
  | (pattern, body) :: rest => do
    if ← matchPattern eval r body pattern then unchecked body
    else uncheckedAlternatives eval unchecked r rest

def uncheckedCases (eval : Evaluator) (unchecked : Expr → EvalM (Option TypeRef)) (subject : Expr)
    (alternatives : List (Pattern Expr × Expr)) : EvalM (Option TypeRef) := do
  uncheckedAlternatives eval unchecked (← eval subject .any) alternatives

/-- A branch on what is no truth value is a none. -/
def uncheckedBranch (eval : Evaluator) (unchecked : Expr → EvalM (Option TypeRef))
    (condition yes : Expr) (no : Option Expr) : EvalM (Option TypeRef) := do
  match ← content (← eval condition .bool) with
  | .bool true => unchecked yes
  | .bool false => unchecked (no.getD .missing)
  | _ => return some .none

/-- A loop over nothing is a none, and so is one that nothing follows. -/
def uncheckedLoop (eval : Evaluator) (unchecked : Expr → EvalM (Option TypeRef)) (note : Note)
    (name : Option String) (iterable body : Expr) (rest : Option Expr) :
    EvalM (Option TypeRef) := do
  let place ← elements "for" (← eval iterable .unknown) note.position
  if (← sequence place).isEmpty then return some .none
  else
    let _ ← visit place (runBody eval (name.getD "") body)
    match rest with
    | some e => unchecked e
    | none => return some .none

/-- What the check makes of the type of a collection is not checked again, which makes a difference
if the elements are expected to have no firm type. -/
def uncheckedParts (type expected : TypeRef) : EvalM (Option TypeRef) := do
  let found ← readType type
  let wanted ← readType expected
  match ← checkElements found wanted with
  | some t => return typeUnless wanted.hasFirmParts (← intern t)
  | none => return some .none

def uncheckedList (eval : Evaluator) (note : Note) (elements : List Expr) (expected : TypeRef) :
    EvalM (Option TypeRef) := do
  match note.type with
  | .list element =>
    let refs ← elements.mapM fun e => eval e element
    let type ← commonType note.position refs
    uncheckedParts (.list type) expected
  | _ => return some .none

def uncheckedDict (eval : Evaluator) (note : Note) (entries : List (Expr × Expr))
    (expected : TypeRef) : EvalM (Option TypeRef) := do
  match note.type with
  | .dict keyType valueType =>
    let keys ← entries.mapM fun e => eval e.1 keyType
    let values ← entries.mapM fun e => eval e.2 valueType
    uncheckedParts (← entryType keys values) expected
  | _ => return some .none

/-- A range without two numbers is a none. -/
def uncheckedRange : Option Literal → Option Literal → Option TypeRef
  | some (.int _), some (.int _) => none
  | _, _ => some .none

/-- A tuple takes the type in its note; the types of its elements are checked. -/
def uncheckedTuple (eval : Evaluator) (note : Note) (elements : List Expr) :
    EvalM (Option TypeRef) := do
  match note.type with
  | .tuple c =>
    let refs ← evalMembers eval ((← store).types.cell c) 0 elements
    let types ← refs.mapM fun r => do readType (← typeOf r)
    return typeUnless ((← store).types.standsFor note.type (.tuple none types)) note.type
  | _ => return some .none

/-- A schema takes the types of its columns; the type in its note is checked. -/
def uncheckedSchema (note : Note) (columns : List (Option String × TypeRef))
    (expected : TypeRef) : EvalM (Option TypeRef) := do
  if ← conforms note.position note.type expected then
    let members ← newMembers (columns.map (·.2))
    let types := (← store).types
    return typeUnless (types.standsFor (.schema members) (types.read note.type)) (.schema members)
  else return some .none

/-- The type that the value of an expression takes without a check against the expected one, `none`
if there is a check; `eval` and `unchecked` stand for the parts. -/
def uncheckedStep (eval : Evaluator) (unchecked : Expr → EvalM (Option TypeRef)) (e : Expr)
    (expected : TypeRef) : EvalM (Option TypeRef) :=
  match e with
  | .literal note l => uncheckedLiteral note l
  | .bind note names type bound rest => uncheckedBind eval unchecked note names type bound rest
  | .typeAlias _ name type rest => uncheckedAlias unchecked name type rest
  | .lambda note _ _ body => uncheckedLambda note body expected
  | .apply note function arguments => uncheckedApply eval note function arguments
  | .cases _ subject alternatives => uncheckedCases eval unchecked subject alternatives
  | .branch _ condition yes no => uncheckedBranch eval unchecked condition yes no
  | .loop note name iterable body rest => uncheckedLoop eval unchecked note name iterable body rest
  | .list note elements => uncheckedList eval note elements expected
  | .range _ start stop => return uncheckedRange start stop
  | .tuple note elements => uncheckedTuple eval note elements
  | .dict note entries => uncheckedDict eval note entries expected
  | .schema note columns => uncheckedSchema note columns expected
  -- the values of names and operators are compared; what is no expression has none
  | _ => return none

/-- The type that the value of an expression takes without a check, to a depth of evaluations within
evaluations. -/
def unchecked : Nat → Expr → TypeRef → EvalM (Option TypeRef)
  | 0, _, _ => fault .tooDeep
  | depth + 1, e, expected => do
    descend e
    uncheckedStep (eval depth) (unchecked depth · expected) e expected

/-! ## One expression after the other -/

/-- The value has the type that is given, or else one that conforms. -/
def Vouches (s : Store) (expected : TypeRef) (r : Ref) : Option TypeRef → Prop
  | some t => (s.object r).type = t
  | none => s.types.Conforms (s.object r).type expected

/-- If `x` gives a value, `y` tells its type or else it conforms. -/
def Answers (m : Machine) (expected : TypeRef) (x : EvalM Ref) (y : EvalM (Option TypeRef)) :
    Prop :=
  ∀ r m', x.exec m = (.ok r, m') → m'.store.types.Present expected →
    ∃ o m₁, y.exec m = (.ok o, m₁) ∧ Vouches m'.store expected r o

/-- The step only adds to the store, and its result has the type. -/
def Makes (type : TypeRef) (x : EvalM Ref) : Prop :=
  ∀ m r m', x.exec m = (.ok r, m') →
    m.store.Extends m'.store ∧ (m'.store.object r).type = type

namespace Makes

theorem new (type : TypeRef) (content : Content) : Makes type (new type content) := by
  intro m r m' h
  cases h
  exact ⟨m.store.extends_add _, congrArg Object.type (m.store.object_add _)⟩

theorem after {α : Type} {type : TypeRef} {x : EvalM α} {f : α → EvalM Ref}
    (hx : x.Moves Store.Extends) (hf : ∀ a, Makes type (f a)) : Makes type (x >>= f) := by
  intro m r m' h
  obtain ⟨a, m₁, hxm, h⟩ := exec_bind_ok h
  obtain ⟨hextends, htype⟩ := hf a m₁ r m' h
  exact ⟨(hx.of_exec hxm).trans hextends, htype⟩

theorem newList (type : TypeRef) (refs : List Ref) : Makes type (newList type refs) :=
  after (moves_make fun s => s.extends_addSequence refs) fun _ => new _ _

theorem newTuple (type : TypeRef) (refs : List Ref) : Makes type (newTuple type refs) :=
  after (moves_make fun s => s.extends_addSequence refs) fun _ => new _ _

theorem newSchema (members : Nat) (columns : List (String × TypeRef)) :
    Makes (.schema members) (newSchema members columns) :=
  after (moves_make fun s => s.extends_addColumns columns) fun _ => new _ _

theorem newLiteral (l : Literal) : Makes l.type (newLiteral l) := by
  cases l <;> exact new _ _

end Makes

namespace Answers

variable {α : Type} {m : Machine} {expected : TypeRef} {x : EvalM α} {f : α → EvalM Ref}

theorem bind {g : α → EvalM (Option TypeRef)}
    (h : ∀ a m', x.exec m = (.ok a, m') → Answers m' expected (f a) (g a)) :
    Answers m expected (x >>= f) (x >>= g) := by
  intro r m' hx hpresent
  obtain ⟨a, m₁, hxm, hf⟩ := exec_bind_ok hx
  rw [exec_bind_of hxm]
  exact h a m₁ hxm r m' hf hpresent

theorem skip {o : Option TypeRef}
    (h : ∀ a m', x.exec m = (.ok a, m') → Answers m' expected (f a) (pure o)) :
    Answers m expected (x >>= f) (pure o) := by
  intro r m' hx hpresent
  obtain ⟨a, m₁, hxm, hf⟩ := exec_bind_ok hx
  obtain ⟨_, _, ho, hvouches⟩ := h a m₁ hxm r m' hf hpresent
  cases ho
  exact ⟨o, m, rfl, hvouches⟩

theorem reading {x : EvalM Ref} {g : Store → EvalM (Option TypeRef)}
    (h : Answers m expected x (g m.store)) : Answers m expected x (store >>= g) := by
  intro r m' hx hpresent
  rw [exec_bind_store]
  exact h r m' hx hpresent

theorem andThen {x : EvalM Ref} {y : EvalM (Option TypeRef)} {k : Ref → EvalM Ref}
    (h : Answers m expected x y)
    (hk : ∀ r m₁ r' m₂, (k r).exec m₁ = (.ok r', m₂) → r' = r ∧
      m₂.store = m₁.store) :
    Answers m expected (x >>= k) y := by
  intro r m' hx hpresent
  obtain ⟨r₁, m₁, hxm, hkm⟩ := exec_bind_ok hx
  obtain ⟨rfl, hstore⟩ := hk _ _ _ _ hkm
  rw [hstore] at hpresent ⊢
  exact h _ _ hxm hpresent

theorem report {text : String} {position : Option Position} {y : EvalM (Option TypeRef)} :
    Answers m expected (report text position) y :=
  fun _ _ h => absurd h report_ne_ok

theorem fault {f : Fault} {y : EvalM (Option TypeRef)} : Answers m expected (fault f) y :=
  fun _ _ h => by cases h

theorem ite (c : Prop) [Decidable c] {x x' : EvalM Ref} {y y' : EvalM (Option TypeRef)}
    (hx : Answers m expected x y) (hx' : Answers m expected x' y') :
    Answers m expected (if c then x else x') (if c then y else y') := by
  split
  · exact hx
  · exact hx'

theorem made {type : TypeRef} {x : EvalM Ref} (checked : Bool) (hx : Makes type x)
    (h : checked = true → m.store.types.Conforms type expected) :
    Answers m expected x (pure (typeUnless checked type)) := by
  intro r m' hxm _
  obtain ⟨hextends, htype⟩ := hx m r m' hxm
  refine ⟨_, m, rfl, ?_⟩
  cases checked with
  | false => exact htype
  | true =>
    change m'.store.types.Conforms (m'.store.object r).type expected
    rw [htype]
    exact hextends.types.conforms (h rfl)

theorem newNone : Answers m expected newNone (pure (some .none)) :=
  made false (Makes.new _ _) nofun

theorem value {r : Ref} (h : m.store.types.Conforms (m.store.object r).type expected) :
    Answers m expected (pure r) (pure none) := by
  intro r' m' hr _
  cases hr
  exact ⟨none, m, rfl, h⟩

theorem newNone_of_absent {found : TypeRef}
    (h : m.store.types.conform? found expected = some .absent) :
    Answers m expected EvalM.newNone (pure none) := by
  intro r m' hnew hpresent
  obtain ⟨hextends, htype⟩ := Makes.new .none .none m r m' hnew
  have hends := (conform?_eq_some.mp h).2.1
  refine ⟨none, m, rfl, ?_⟩
  change m'.store.types.Conforms (m'.store.object r).type expected
  rw [htype]
  rw [hextends.types.present hends] at hpresent
  exact hextends.types.conforms (conforms_none_of_absent h hpresent)

theorem expecting (position : Option Position) (r : Ref) :
    Answers m expected (expecting position expected r) (pure none) := by
  refine skip fun t m₁ htype => skip fun b m₂ hconforms => ?_
  obtain ⟨-, rfl, rfl⟩ := exec_typeOf_ok htype
  obtain ⟨rfl, htrue, hfalse⟩ := exec_conforms_ok hconforms
  cases b with
  | true => exact value (htrue rfl).conforms
  | false => exact newNone_of_absent (hfalse rfl)

end Answers

section Forms

variable {m : Machine} {expected : TypeRef} {eval : Evaluator}
  {unchecked : Expr → EvalM (Option TypeRef)} (note : Note)

theorem answers_literal (l : Literal) :
    Answers m expected (evalLiteral note l expected) (uncheckedLiteral note l) := by
  refine .reading (.skip fun b m₁ hconforms => ?_)
  obtain ⟨rfl, htrue, -⟩ := exec_conforms_ok hconforms
  cases b with
  | true =>
    obtain ⟨t, ht, -⟩ := htrue rfl
    obtain ⟨-, hends, hconform⟩ := conform?_eq_some.mp ht
    exact .made _ (.newLiteral l) fun h => conforms_of_standsFor h hends hconform
  | false => exact .report

section

variable (h : ∀ m e, Answers m expected (eval e expected) (unchecked e))
include h

theorem answers_bind (note : Note)
    (names : List String) (type : TypeRef) (bound : Expr) (rest : Option Expr) :
    Answers m expected (evalBind eval note names type bound rest expected)
      (uncheckedBind eval unchecked note names type bound rest) := by
  refine .bind fun r m₁ _ => .bind fun _ m₂ _ => ?_
  cases rest with
  | some e => exact h m₂ e
  | none => exact .newNone

theorem answers_alias (name : Option String) (type : TypeRef) (rest : Expr) :
    Answers m expected (evalAlias eval name type rest expected)
      (uncheckedAlias unchecked name type rest) :=
  .bind fun _ m₁ _ => h m₁ rest

theorem answers_alternatives (note : Note) (r : Ref) (alternatives : List (Pattern Expr × Expr)) :
    Answers m expected (evalAlternatives eval note r expected alternatives)
      (uncheckedAlternatives eval unchecked r alternatives) := by
  -- the patterns before may have bound names, so the machine changes along the alternatives
  induction alternatives generalizing m with
  | nil => exact .report
  | cons alternative rest ih => exact .bind fun b m₁ _ => .ite _ (h m₁ alternative.2) ih

theorem answers_cases (note : Note) (subject : Expr) (alternatives : List (Pattern Expr × Expr)) :
    Answers m expected (evalCases eval note subject alternatives expected)
      (uncheckedCases eval unchecked subject alternatives) :=
  .bind fun r _ _ => answers_alternatives h note r alternatives

theorem answers_branch (condition yes : Expr) (no : Option Expr) :
    Answers m expected (evalBranch eval condition yes no expected)
      (uncheckedBranch eval unchecked condition yes no) := by
  refine .bind fun r m₁ _ => .bind fun c m₂ _ => ?_
  cases c with
  | bool b =>
    cases b with
    | true => exact h m₂ yes
    | false => exact h m₂ (no.getD .missing)
  | _ => exact .newNone

theorem answers_loop (note : Note)
    (name : Option String) (iterable body : Expr) (rest : Option Expr) :
    Answers m expected (evalLoop eval note name iterable body rest expected)
      (uncheckedLoop eval unchecked note name iterable body rest) := by
  refine .bind fun r _ _ => .bind fun place _ _ => .bind fun elements _ _ => .ite _ .newNone ?_
  refine .bind fun _ m₁ _ => ?_
  cases rest with
  | some e => exact h m₁ e
  | none => exact .newNone

end

/-! ### Functions and collections -/

theorem exec_noteOf_ok {e : Expr} {m m' : Machine} {n : Note}
    (h : (noteOf e).exec m = (.ok n, m')) : m' = m := by
  rw [noteOf] at h
  cases hnote : e.note? with
  | none =>
    rw [hnote] at h
    cases h
  | some n =>
    rw [hnote] at h
    cases h
    rfl

/-- A function whose type has been checked, and that of its result is checked now. -/
theorem answers_closure {note : Note} {body : Expr} {parameters : List (String × TypeRef)}
    {as : List PlacedType} {result : PlacedType}
    (h : m.store.types.conform? note.type expected = some (.func as result)) :
    Answers m expected
      (do
        let bodyNote ← noteOf body
        match ← checkWith (report · bodyNote.position) result (← readType bodyNote.type) with
        | none => newNone
        | some _ =>
          let type ← intern result
          let body ← make (·.copyExpr body)
          let scope := (← get).scope
          new note.type (.func { builtin := none, parameters, body := body.withType type, scope }))
      (do
        let bodyNote ← noteOf body
        match ← checkWith (report · bodyNote.position) result (← readType bodyNote.type) with
        | none => return some .none
        | some _ => return none) := by
  refine .bind fun bodyNote m₁ hnote => .bind fun bodyType m₂ htype =>
    .bind fun r m₃ hcheck => ?_
  obtain rfl := exec_noteOf_ok hnote
  obtain ⟨-, -, rfl⟩ := exec_readType_ok htype
  obtain ⟨rfl, -⟩ := exec_checkWith_ok (fun _ _ _ _ => report_ne_ok) hcheck
  cases r with
  | none => exact .newNone
  | some _ =>
    -- the type of the function has been compared; what is made for its body leaves it alone
    refine .skip fun type m₄ hintern => ?_
    have hextends : m₃.store.types.Extends m₄.store.types := by
      cases hintern
      exact (interns_intern result _ (tells_of_conform? h).2).extend
    refine .made true ?_ fun _ => hextends.conforms ⟨_, h⟩
    exact .after (moves_make fun s => s.extends_addRegion _) fun _ => .after .get fun _ => .new _ _

theorem answers_lambda (parameters : List Parameter) (body : Expr) :
    Answers m expected (evalLambda note parameters body expected)
      (uncheckedLambda note body expected) := by
  refine .bind fun found m₁ hcheck => ?_
  obtain ⟨rfl, t, ht, ⟨-, rfl⟩ | ⟨-, rfl⟩⟩ := exec_check_ok hcheck
  · exact .newNone
  · cases t with
    | func as result =>
      cases result with
      | absent => exact .newNone
      | _ => exact answers_closure ht
    | _ => exact .newNone

theorem answers_checkedCall {x : EvalM Ref} (place : Position) (position : Option Position) :
    Answers m expected
      (inCall place do
        let r ← x
        let _ ← conforms position (← typeOf r) expected
        return r)
      (pure none) := by
  refine .skip fun _ _ _ => .andThen (.skip fun r _ _ => .skip fun t m₁ htype =>
    .skip fun b m₂ hconforms => ?_) fun r m₁ r' m₂ h => ?_
  · obtain ⟨-, rfl, rfl⟩ := exec_typeOf_ok htype
    obtain ⟨rfl, htrue, hfalse⟩ := exec_conforms_ok hconforms
    cases b with
    | true => exact .value (htrue rfl).conforms
    | false => exact .value ⟨_, hfalse rfl⟩
  · cases h
    exact ⟨rfl, rfl⟩

section

variable (arguments : List Expr)

theorem answers_call (function : Ref) (type : TypeRef) (c : Closure) :
    Answers m expected (callFunction eval note function type c arguments expected)
      (match type with
        | .func _ _ => pure none
        | _ => pure (some .none)) := by
  unfold callFunction
  split
  · intro r m' h
    obtain ⟨types, m₁, -, h⟩ := exec_bind_ok h
    exact absurd h report_ne_ok
  · cases type with
    | func _ _ =>
      refine .skip fun here _ _ => .skip fun values _ _ => ?_
      dsimp only
      split
      · exact .fault
      · exact answers_checkedCall _ _
    | _ => exact .newNone

theorem answers_indexString (s : String) :
    Answers m expected (indexString eval note s arguments expected)
      (uncheckedIndex eval note "string" arguments) := by
  refine .bind fun c m₁ _ => ?_
  cases c with
  | int i =>
    dsimp only
    split
    · exact .skip fun r _ _ => .expecting _ r
    · exact .report
  | _ => exact .newNone

theorem answers_indexSequence (kind : String) (place : Nat) :
    Answers m expected (indexSequence eval note kind place arguments expected)
      (uncheckedIndex eval note kind arguments) := by
  refine .bind fun c m₁ _ => ?_
  cases c with
  | int i =>
    dsimp only
    split
    · exact .report
    · refine .skip fun found _ _ => ?_
      cases found with
      | some r => exact .expecting _ r
      | none => exact .report
  | _ => exact .newNone

theorem answers_indexDict (type : TypeRef) (entries : List (Ref × Ref)) :
    Answers m expected (indexDict eval note type entries arguments expected)
      (match type with
        | .dict _ _ => pure none
        | _ => pure (some .none)) := by
  rw [indexDict.eq_def]
  split
  · cases type with
    | dict keyType _ =>
      refine .skip fun key _ _ => .skip fun s _ _ => ?_
      dsimp only
      split
      · refine .skip fun t m₁ htype => .skip fun b m₂ hconforms => ?_
        obtain ⟨-, rfl, rfl⟩ := exec_typeOf_ok htype
        obtain ⟨rfl, htrue, -⟩ := exec_conforms_ok hconforms
        cases b with
        | true => exact .value (htrue rfl).conforms
        | false => exact .skip fun _ _ _ => .report
      · exact .skip fun _ _ _ => .report
    | _ => exact .newNone
  · exact .report

theorem answers_apply (function : Expr) :
    Answers m expected (evalApply eval note function arguments expected)
      (uncheckedApply eval note function arguments) := by
  refine .bind fun r _ _ => .bind fun o _ _ => ?_
  obtain ⟨type, content⟩ := o
  cases content with
  | func c => exact answers_call note arguments r type c
  | string s => exact answers_indexString note arguments s
  | list place => exact answers_indexSequence note arguments "list" place
  | tuple place => exact answers_indexSequence note arguments "tuple" place
  | dict entries => exact answers_indexDict note arguments type entries
  | _ => exact .skip fun _ _ _ => .report

end

/-- Lists and dictionaries alike, if their types go where they went before. -/
theorem answers_parts {type : TypeRef} (make : TypeRef → EvalM Ref)
    (hmake : ∀ t, Makes t (make t))
    (hagain : ∀ (s : TypeStore) {b : Ty}, b.hasFirmParts = true →
      ((s.read type).plain.conform b).isKnown = true →
        (((s.read type).plain.conform b).conform b).isKnown = true) : Answers m expected
      (do match ← checkElements (← readType type) (← readType expected) with
          | some t => make (← intern t)
          | none => newNone)
      (uncheckedParts type expected) := by
  refine .bind fun found m₁ hfound => .bind fun wanted m₂ hwanted => .bind fun r m₃ hr => ?_
  obtain ⟨hends, rfl, rfl⟩ := exec_readType_ok hfound
  obtain ⟨hexpected, rfl, rfl⟩ := exec_readType_ok hwanted
  obtain ⟨rfl, t, ht, ⟨-, rfl⟩ | ⟨-, rfl⟩⟩ :=
    exec_checkWith_ok (fun _ _ _ _ h => by cases h) hr
  · exact .newNone
  · -- the value takes what the check has made of the type, which would pass the check again
    refine .bind fun handle m₄ hintern => ?_
    cases hintern
    refine .made _ (hmake _) fun hfirm => ?_
    refine conforms_intern hexpected (tells_read hends) ht fun hknown => ?_
    exact hagain _ (by rwa [Shape.hasFirmParts_plain]) hknown

theorem entryType_isDict {keys values : List Ref} {m m' : Machine} {type : TypeRef}
    (h : (entryType keys values).exec m = (.ok type, m')) : ∃ k v, type = .dict k v := by
  unfold entryType at h
  split at h
  · obtain ⟨keyType, m₁, -, h⟩ := exec_bind_ok h
    obtain ⟨valueType, m₂, -, h⟩ := exec_bind_ok h
    obtain ⟨b, m₃, -, h⟩ := exec_bind_ok h
    cases b with
    | true =>
      obtain ⟨b, m₄, -, h⟩ := exec_bind_ok h
      cases b <;> cases h <;> exact ⟨_, _, rfl⟩
    | false =>
      cases h
      exact ⟨_, _, rfl⟩
  · cases h
    exact ⟨_, _, rfl⟩

theorem answers_list (elements : List Expr) :
    Answers m expected (evalList eval note elements expected)
      (uncheckedList eval note elements expected) := by
  obtain ⟨type, position⟩ := note
  cases type with
  | list element =>
    refine .bind fun refs _ _ => .bind fun type _ _ => ?_
    refine answers_parts (newList · refs) (fun t => .newList t refs) ?_
    intro s b hfirm hknown
    exact Shape.isKnown_conform_again_of_parts (.inl ⟨_, rfl⟩) hfirm hknown
  | _ => exact .newNone

theorem answers_dict (entries : List (Expr × Expr)) :
    Answers m expected (evalDict eval note entries expected)
      (uncheckedDict eval note entries expected) := by
  obtain ⟨type, position⟩ := note
  cases type with
  | dict keyType valueType =>
    refine .bind fun keys _ _ => .bind fun values _ _ => .bind fun type _ htype => ?_
    obtain ⟨k, v, rfl⟩ := entryType_isDict htype
    refine answers_parts (new · _) (fun t => .new t _) ?_
    intro s b hfirm hknown
    exact Shape.isKnown_conform_again_of_parts (.inr ⟨_, _, rfl⟩) hfirm hknown
  | _ => exact .newNone

theorem Moves.checkSize {R : Store → Store → Prop} [Std.Refl R] (size : Nat) :
    (checkSize size).Moves R := by
  rw [EvalM.checkSize]
  split
  · exact .fault _
  · split
    · exact .fault _
    · exact .pure _

theorem answers_ints (a b : Int) :
    Answers m expected (evalRange note (some (.int a)) (some (.int b)) expected) (pure none) := by
  rw [evalRange]
  split
  · exact .report
  · refine .skip fun b m₁ hconforms => ?_
    obtain ⟨rfl, htrue, hfalse⟩ := exec_conforms_ok hconforms
    cases b with
    | true =>
      refine .made true (.after ?_ fun _ => .after ?_ fun refs => .newList _ refs)
        fun _ => (htrue rfl).conforms
      · exact .checkSize _
      · exact .mapM fun n => moves_new _ _
    | false => exact .newNone_of_absent (hfalse rfl)

theorem answers_range (start stop : Option Literal) :
    Answers m expected (evalRange note start stop expected)
      (pure (uncheckedRange start stop)) := by
  match start, stop with
  | some (.int a), some (.int b) => exact answers_ints note a b
  | some (.int _), none | some (.int _), some (.bool _) | some (.int _), some (.char _)
  | some (.int _), some (.string _) | some (.int _), some .none | none, _ | some (.bool _), _
  | some (.char _), _ | some (.string _), _ | some .none, _ => exact .newNone

theorem answers_tuple (elements : List Expr) :
    Answers m expected (evalTuple eval note elements expected)
      (uncheckedTuple eval note elements) := by
  obtain ⟨type, position⟩ := note
  cases type with
  | tuple c =>
    refine .bind fun s _ _ => .bind fun refs _ _ => .bind fun types m₁ _ => ?_
    refine .reading (.skip fun wanted m₂ hwanted => .skip fun r m₃ hcheck => ?_)
    obtain ⟨hends, rfl, rfl⟩ := exec_readType_ok hwanted
    obtain ⟨rfl, t, ht, ⟨rfl, rfl⟩ | ⟨-, rfl⟩⟩ :=
      exec_checkWith_ok (fun _ _ _ _ => report_ne_ok) hcheck
    -- the types of the elements are compared, but the tuple takes the type in the note
    · exact absurd (Shape.eq_of_conform? ht) (Shape.tuple_conform_ne_absent _ _ _)
    · exact .made _ (.newTuple _ refs) fun h => conforms_of_standsFor h hends ht
  | _ => exact .newNone

theorem answers_schema (columns : List (Option String × TypeRef)) :
    Answers m expected (evalSchema note columns expected)
      (uncheckedSchema note columns expected) := by
  refine .bind fun b m₁ hconforms => ?_
  obtain ⟨rfl, htrue, -⟩ := exec_conforms_ok hconforms
  cases b with
  | true =>
    obtain ⟨t, ht, -⟩ := htrue rfl
    refine .bind fun members m₂ hmembers => ?_
    cases hmembers
    -- the type in the note is compared before the new list of types is there
    have hextends := extends_addList m₁.store.types (columns.map (·.2))
    obtain ⟨-, hends, hconform⟩ := conform?_eq_some.mp (hextends.conform? ht)
    refine .reading ?_
    exact .made _ (.newSchema _ _) fun h => conforms_of_standsFor h hends hconform
  | false => exact .newNone

/-- One step, if its parts answer. -/
theorem answers_step (h : ∀ m e, Answers m expected (eval e expected) (unchecked e)) (e : Expr) :
    Answers m expected (step eval e expected) (uncheckedStep eval unchecked e expected) := by
  cases e with
  | missing => exact .fault
  | unknown note => exact .report
  | literal note l => exact answers_literal note l
  | bind note names type bound rest => exact answers_bind h note names type bound rest
  | typeAlias _ name type rest => exact answers_alias h name type rest
  | lambda note parameters _ body => exact answers_lambda note parameters body
  | apply note function arguments => exact answers_apply note arguments function
  | cases note subject alternatives => exact answers_cases h note subject alternatives
  | prim note op left right =>
    exact .skip fun a _ _ => .skip fun b _ _ => .skip fun r _ _ => .expecting _ r
  | ref note name => exact .skip fun r _ _ => .expecting _ r
  | branch _ condition yes no => exact answers_branch h condition yes no
  | loop note name iterable body rest => exact answers_loop h note name iterable body rest
  | list note elements => exact answers_list note elements
  | range note start stop => exact answers_range note start stop
  | tuple note elements => exact answers_tuple note elements
  | dict note entries => exact answers_dict note entries
  | schema note columns => exact answers_schema note columns

end Forms

/-- A value has the type that is told without a check, or else conforms. -/
theorem answers_eval (depth : Nat) (m : Machine) (e : Expr) (expected : TypeRef) :
    Answers m expected (eval depth e expected) (unchecked depth e expected) := by
  induction depth generalizing m e with
  | zero => exact .fault
  | succ depth ih =>
    -- the level below answers for the parts; only the depth is counted down after them
    refine .bind fun _ m₁ _ => .andThen (answers_step ih e) fun r m₂ r' m₃ h => ?_
    cases h
    exact ⟨rfl, rfl⟩

/-! ## What the value of an expression may be -/

/-- A value conforms with the type that is expected if only the type does that it takes without a
check. -/
theorem eval_conforms_iff {depth : Nat} {e : Expr} {expected : TypeRef} {m m' : Machine} {r : Ref}
    (h : (eval depth e expected).exec m = (.ok r, m'))
    (hpresent : m'.store.types.Present expected) :
    ∃ taken, ((unchecked depth e expected).exec m).1 = .ok taken ∧
      (∀ t ∈ taken, (m'.store.object r).type = t) ∧
      (m'.store.types.Conforms (m'.store.object r).type expected ↔
        ∀ t ∈ taken, m'.store.types.Conforms t expected) := by
  obtain ⟨taken, m₁, hunchecked, hvouches⟩ := answers_eval depth m e expected r m' h hpresent
  refine ⟨taken, congrArg Prod.fst hunchecked, ?_⟩
  cases taken with
  | none => exact ⟨nofun, iff_of_true hvouches nofun⟩
  | some t =>
    have htype : (m'.store.object r).type = t := hvouches
    rw [htype]
    simp

/-- A number with a name, and the types of pairs, of which one knows its first part. -/
def pairing : Machine where
  store :=
    { objects := #[⟨.int, .int 1⟩]
      types := { lists := #[[.int, .int], [.unknown, .int]], cells := #[0, 1] } }
  scope := ({} : Scope Ref TypeRef).add "a" ⟨0⟩

/-- The pair of the named number and another one, with a type. -/
def pairExpr (type : TypeRef) : Expr :=
  .tuple { type } [.ref {} (.ident "a"), .literal { type := .int } (.int 2)]

/-- The machine when the pair has been made. -/
def paired (type : TypeRef) : Machine :=
  { pairing with
    store :=
      { pairing.store with
        objects := #[⟨.int, .int 1⟩, ⟨.int, .int 2⟩, ⟨type, .tuple 0⟩]
        sequences := #[#[⟨0⟩, ⟨1⟩]] } }

theorem pair_conforms :
    (eval 2 (pairExpr (.tuple 0)) (.tuple 0)).exec pairing = (.ok ⟨2⟩, paired (.tuple 0)) ∧
      (paired (.tuple 0)).store.types.Present (.tuple 0) ∧
      ∃ taken, ((unchecked 2 (pairExpr (.tuple 0)) (.tuple 0)).exec pairing).1 = .ok taken ∧
        (∀ t ∈ taken, ((paired (.tuple 0)).store.object ⟨2⟩).type = t) ∧
        ((paired (.tuple 0)).store.types.Conforms ((paired (.tuple 0)).store.object ⟨2⟩).type
            (.tuple 0) ↔ ∀ t ∈ taken, (paired (.tuple 0)).store.types.Conforms t
              (.tuple 0)) := by
  have hrun :
      (eval 2 (pairExpr (.tuple 0)) (.tuple 0)).exec pairing = (.ok ⟨2⟩, paired (.tuple 0)) :=
        rfl
  have hpresent : (paired (.tuple 0)).store.types.Present (.tuple 0) := rfl
  exact ⟨hrun, hpresent, eval_conforms_iff hrun hpresent⟩

/-- A `let` that nothing follows is no number where a number is expected, and the type of a pair is
left open where it should be known. -/
theorem unchecked_escapes :
    (∃ m',
      (eval 2 (.bind {} ["y"] .unknown (.literal { type := .int } (.int 5)) none) .int).exec {} =
        (.ok ⟨1⟩, m') ∧ ¬ m'.store.types.Conforms (m'.store.object ⟨1⟩).type .int) ∧
    (eval 2 (pairExpr (.tuple 1)) .unknown).exec pairing = (.ok ⟨2⟩, paired (.tuple 1)) ∧
      (paired (.tuple 1)).store.types.read (.tuple 1) = .tuple (some 1) [.unknown, .int] ∧
      ¬ (paired (.tuple 1)).store.types.Conforms ((paired (.tuple 1)).store.object ⟨2⟩).type
        .unknown := by
  refine ⟨⟨_, rfl, ?_⟩, rfl, rfl, ?_⟩
  · rintro ⟨t, ht⟩
    cases ht
  · rintro ⟨t, ht⟩
    cases ht

end EvalM

end TableScript
