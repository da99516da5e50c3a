import TableScript.Proofs.Application
import TableScript.Proofs.Copy

/-!
# Folds and step by step application

A fold runs the body of its function on copies of the elements, inside its own call: in the scope of
the call, which has the names of the parameters of the fold besides, and without a look at the types
of the arguments.

* `steps_agree_iff`: the steps of a fold come to the same as applications of the function, from the
  first one up to any, iff at each of them the body does the same in the scope of the call as in the
  scope of the function;
* `fold_agrees_iff`: a fold then does what step by step application does, whether that gives a value
  or halts. Its result takes the type of the function's result.
-/

namespace TableScript.EvalM

open Primitive

/-- Something holds at each step of a fold that is made by `f`, as long as the steps give values. -/
def AtEachStep (f : Ref → Ref → EvalM Ref) (P : Ref → Ref → Machine → Prop) :
    List Ref → Ref → Machine → Prop
  | [], _, _ => True
  | x :: xs, acc, m =>
    P acc x m ∧ ∀ r m', (f acc x).exec m = (.ok r, m') → AtEachStep f P xs r m'

variable {levels : Nat} {p : Position} {f i : Ref} {ts : List TypeRef} {result : TypeRef}
  {c : Closure} {m : Machine} {scope : Scope Ref TypeRef}

/-- A step of a fold by application. -/
def applyStep (levels : Nat) (p : Position) (f acc x : Ref) : EvalM Ref :=
  applied levels p f [acc, x]

/-- A step of a fold, in the scope of its call. -/
def foldStep (levels : Nat) (c : Closure) (scope : Scope Ref TypeRef) (result : TypeRef)
    (acc x : Ref) : EvalM Ref :=
  callWith (eval levels) c scope [acc, x] result

/-- The function may be applied at a step, and what its body gives has a type. -/
def StepChecked (levels : Nat) (p : Position) (f : Ref) (ts : List TypeRef) (result : TypeRef)
    (c : Closure) (acc x : Ref) (m : Machine) : Prop :=
  Callable m f ts result c [acc, x] ∧ ∀ r m',
    bodyIn levels p c result [acc, x] m c.scope = (.ok r, m') → m'.store.Accepts r .any

/-- At a step, the body does the same in a scope as in the scope of the function. -/
def SameBody (levels : Nat) (p : Position) (result : TypeRef) (c : Closure)
    (scope : Scope Ref TypeRef) (acc x : Ref) (m : Machine) : Prop :=
  bodyIn levels p c result [acc, x] m scope = bodyIn levels p c result [acc, x] m c.scope

/-! ## The steps -/

variable {r : Ref} {n : Int}

theorem outside_congr {α : Type} {m' : Machine} (h : m'.scope = m.scope)
    (o : Except Halt α × Machine) : outside m' o = outside m o := by
  rcases o with ⟨halt | a, n⟩ <;> simp [outside, h]

/-- The fold agrees with calls in turn iff the bodies do at each step. -/
theorem steps_agree_iff (hc : c.builtin = none) {xs : List Ref} {acc : Ref}
    (h : AtEachStep (applyStep (levels + 1) p f) (StepChecked (levels + 1) p f ts result c)
      xs acc m) :
    (∀ k, outside m (((xs.take k).foldlM (foldStep (levels + 1) c scope result) acc).exec
        (inside p scope m)) = ((xs.take k).foldlM (applyStep (levels + 1) p f) acc).exec m) ↔
      AtEachStep (applyStep (levels + 1) p f) (SameBody (levels + 1) p result c scope)
        xs acc m := by
  induction xs generalizing acc m with
  | nil => exact iff_of_true (fun k => by rw [List.take_nil]; rfl) trivial
  | cons x xs ih =>
    obtain ⟨⟨hcallable, hgiven⟩, hlater⟩ := h
    have happly : (applyStep (levels + 1) p f acc x).exec m =
        bodyIn (levels + 1) p c result [acc, x] m c.scope :=
      applied_eq_bodyIn hcallable hc (Nat.le_refl 2) hgiven
    have hfold : (foldStep (levels + 1) c scope result acc x).exec (inside p scope m) =
        enclosed p scope (bodyIn (levels + 1) p c result [acc, x] m scope) :=
      exec_callWith hcallable.arguments scope scope
    have hscope : ∀ {r m'}, (applyStep (levels + 1) p f acc x).exec m = (r, m') →
        m'.scope = m.scope := by
      intro r m' hr
      rw [← scope_bodyIn (levels + 1) p c result [acc, x] m c.scope, ← happly, hr]
    constructor
    · intro hall
      have hsame : SameBody (levels + 1) p result c scope acc x m := by
        have hone := hall 1
        simp only [List.take_succ_cons, List.take_zero, List.foldlM_cons, List.foldlM_nil,
          bind_pure] at hone
        rwa [hfold, happly, outside_enclosed (scope_bodyIn ..)] at hone
      refine ⟨hsame, fun r m' hr => (ih (hlater r m' hr)).mp fun k => ?_⟩
      rw [hsame, ← happly, hr] at hfold
      have hnext := hall (k + 1)
      rw [List.take_succ_cons, List.foldlM_cons, List.foldlM_cons, exec_bind_of hr,
        exec_bind_of hfold] at hnext
      rw [← hnext]
      exact outside_congr (hscope hr) _
    · rintro ⟨hsame, hrest⟩ k
      rw [hsame, ← happly] at hfold
      cases k with
      | zero => rfl
      | succ k =>
        rw [List.take_succ_cons, List.foldlM_cons, List.foldlM_cons]
        rcases hr : (applyStep (levels + 1) p f acc x).exec m with ⟨halt | r, m'⟩
        · rw [hr] at hfold
          rw [exec_bind_halt hr, exec_bind_halt hfold]
          exact outside_enclosed (o := (.error halt, m')) (hscope hr) p scope
        · rw [hr] at hfold
          rw [exec_bind_of hr, exec_bind_of hfold, ← (ih (hlater r m' hr)).mpr (hrest r m' hr) k]
          exact (outside_congr (hscope hr) _).symm

/-! ## Folds -/

/-- A fold is called on a list, a value to start from and a function whose types go together. -/
structure FoldCall (m : Machine) (p : Position) (scope : Scope Ref TypeRef) (place : Nat)
    (i f : Ref) (first second : TypeRef) (ts : List TypeRef) (result : TypeRef) (c : Closure) :
    Prop where
  list : ∃ l, scope.get? "iterable" = some l ∧ m.store.content l = .list place
  start : scope.get? "initial_value" = some i
  named : scope.get? "fold_function" = some f
  function : m.store.object f = ⟨.func (first :: second :: ts) result, .func c⟩
  conforms : (do foldConforms (some p) (← typeOf i) first second result : EvalM Bool).exec
    (inside p scope m) = (.ok true, inside p scope m)

/-- The copies of the elements of a list, in the order in which a fold takes them. -/
def foldOrder (reverse : Bool) (s : Store) (place : Nat) : List Ref :=
  let copies := (s.copyAll (s.sequence place)).1
  if reverse then copies.reverse else copies

/-- Gives a value the type of a function's result. -/
def retyped (result : TypeRef) (r : Ref) : EvalM Ref := do
  change (·.retype r result)
  return r

theorem exec_runFold {place : Nat} {first second : TypeRef}
    (h : FoldCall m p scope place i f first second ts result c) (reverse : Bool) :
    (runFold (eval levels) reverse (some p)).exec (inside p scope m) =
      ((foldOrder reverse m.store place).foldlM (foldStep levels c scope result) i >>=
        retyped result).exec
          (inside p scope { m with store := (m.store.copyAll (m.store.sequence place)).2 }) := by
  obtain ⟨l, hl, hlist⟩ := h.list
  obtain ⟨t, _, htype, hconforms⟩ := exec_bind_ok h.conforms
  obtain ⟨-, -, rfl⟩ := exec_typeOf_ok htype
  have hfunction : (object f).exec (inside p scope m) =
      (.ok ⟨.func (first :: second :: ts) result, .func c⟩, inside p scope m) := by
    rw [← h.function]
    rfl
  have hcontent : (content l).exec (inside p scope m) = (.ok (.list place), inside p scope m) := by
    rw [← hlist]
    rfl
  rw [runFold, argument, argument, argument,
    exec_bind_of (exec_lookup (m := inside p scope m) hl _ _),
    exec_bind_of (exec_lookup (m := inside p scope m) h.start _ _),
    exec_bind_of (exec_lookup (m := inside p scope m) h.named _ _), exec_bind_of hfunction,
    exec_bind_of hcontent]
  dsimp only
  rw [exec_bind_of htype, exec_bind_of hconforms, if_pos rfl, exec_bind_sequence,
    exec_bind_of (exec_make _ _), exec_bind_get]
  rfl

/-- A fold whose function is made in the program, and may be applied step by step. Its steps come
to the same as applications of the function to copies of the elements, from the first one up to any,
iff at each of them the body does the same in the scope of the call as in the scope of the function;
and then the fold does what application step by step does, but for the type that the result takes.
-/
theorem fold_agrees_iff (levels : Nat) (reverse : Bool) {place : Nat} {first second : TypeRef}
    (h : FoldCall m p scope place i f first second ts result c) (hc : c.builtin = none)
    (hsteps : AtEachStep (applyStep (levels + 1) p f)
      (StepChecked (levels + 1) p f (first :: second :: ts) result c)
      (foldOrder reverse m.store place) i
      { m with store := (m.store.copyAll (m.store.sequence place)).2 }) :
    let xs := foldOrder reverse m.store place
    let before : Machine := { m with store := (m.store.copyAll (m.store.sequence place)).2 }
    let same := AtEachStep (applyStep (levels + 1) p f)
      (SameBody (levels + 1) p result c scope) xs i before
    ((∀ k, (inCall p (inScope scope
          ((xs.take k).foldlM (foldStep (levels + 1) c scope result) i))).exec before =
        ((xs.take k).foldlM (applyStep (levels + 1) p f) i).exec before) ↔ same) ∧
    (same → (inCall p (inScope scope
        (run (eval (levels + 1)) (some p) (if reverse then .foldr else .foldl)))).exec m =
      (xs.foldlM (applyStep (levels + 1) p f) i >>= retyped result).exec before) := by
  intro xs before same
  have hiff : _ ↔ same := steps_agree_iff hc hsteps
  refine ⟨?_, fun hsame => ?_⟩
  · simp only [exec_call]
    exact hiff
  · have hall : outside before ((xs.foldlM (foldStep (levels + 1) c scope result) i).exec
        (inside p scope before)) = (xs.foldlM (applyStep (levels + 1) p f) i).exec before := by
      have htake := hiff.mpr hsame xs.length
      rwa [List.take_length] at htake
    have hrun : run (eval (levels + 1)) (some p) (if reverse then .foldr else .foldl) =
        runFold (eval (levels + 1)) reverse (some p) := by
      cases reverse <;> rfl
    rw [exec_call, hrun, exec_runFold h, exec_bind, exec_bind, ← hall]
    rcases (xs.foldlM (foldStep (levels + 1) c scope result) i).exec (inside p scope before) with
      ⟨halt | r, n⟩ <;> rfl

/-! ## A function that recalls a name -/

/-- A function that gives what a name stood for where it was made. -/
def recalling : Closure where
  builtin := none
  parameters := [("a", .int), ("b", .int)]
  body := nameAt {} "k"
  scope := ({} : Scope Ref TypeRef).add "k" ⟨0⟩

/-- The numbers 10 and 100, the function and a list with the first number. -/
def recallMachine : Machine where
  store :=
    { objects := #[⟨.int, .int 10⟩, ⟨.int, .int 100⟩,
        ⟨.func [.int, .int] .int, .func recalling⟩, ⟨.list .int, .list 0⟩]
      sequences := #[#[⟨0⟩]] }

/-- The machine with a copy of the element. -/
def recallCopied : Machine :=
  { recallMachine with store := (recallMachine.store.copyAll [⟨0⟩]).2 }

/-- The scope of a call of a fold, where the name stands for `k`. -/
def recallScope (k : Ref) : Scope Ref TypeRef :=
  (((({} : Scope Ref TypeRef).add "k" k).add "iterable" ⟨3⟩).add "initial_value" ⟨1⟩).add
    "fold_function" ⟨2⟩

/-- The copy of the element. -/
def recallElement : Ref :=
  (recallMachine.store.reach [Ref.cell ⟨0⟩]).ref ⟨0⟩

theorem accepts_int {s : Store} (h : s.object r = ⟨.int, .int n⟩) :
    s.Accepts r .int ∧ s.Accepts r .any := by
  unfold Store.Accepts Store.content
  rw [h]
  exact ⟨⟨rfl, .int, rfl, by decide⟩, ⟨rfl, .int, rfl, by decide⟩⟩

theorem extends_recallCopied : recallMachine.store.Extends recallCopied.store :=
  Store.extends_addRegion _ _

theorem object_recallCopied {o : Object} (h : recallMachine.store.object r = o)
    (ho : o.content ≠ .none) : recallCopied.store.object r = o :=
  (extends_recallCopied.object_eq (by rw [Store.content, h]; exact ho)).trans h

theorem function_recallCopied :
    recallCopied.store.object ⟨2⟩ = ⟨.func [.int, .int] .int, .func recalling⟩ :=
  object_recallCopied rfl (by simp)

theorem number_recallCopied (h : recallMachine.store.object r = ⟨.int, .int n⟩) :
    recallCopied.store.object r = ⟨.int, .int n⟩ :=
  object_recallCopied h (by simp)

theorem callable_recalling :
    Callable recallCopied ⟨2⟩ [.int, .int] .int recalling [⟨1⟩, recallElement] where
  deep := by decide
  function := function_recallCopied
  named := by
    rw [Store.Accepts, Store.content, function_recallCopied]
    exact ⟨rfl, _, rfl, by decide⟩
  arguments := by
    have hclosed : recallMachine.store.Closed := by decide
    have hsound : ∀ c ∈ [Ref.cell ⟨0⟩], recallMachine.store.Sound c :=
      List.forall_mem_singleton.mpr (hclosed.sound (by decide))
    obtain ⟨hcopies, hroots⟩ := Store.copies_reach hsound (.refl _)
    have hstart : recallCopied.store.object ⟨1⟩ = ⟨.int, .int 100⟩ :=
      number_recallCopied rfl
    have helement : recallCopied.store.object recallElement = ⟨.int, .int 10⟩ :=
      Store.object_of_getElem? (hcopies.object (hroots _ (List.mem_singleton_self _)))
    exact .cons (accepts_int hstart).1 (.cons (accepts_int helement).1 .nil)

theorem bodyIn_recalling {k : Ref}
    (hname : (recalling.bind scope [⟨1⟩, recallElement]).get? "k" = some k)
    (hk : recallMachine.store.object k = ⟨.int, .int n⟩) :
    bodyIn 3 {} recalling .int [⟨1⟩, recallElement] recallCopied scope =
      (.ok k, recallCopied) := by
  have hbody : (eval 3 recalling.body .int).exec
      (inside {} (recalling.bind scope [⟨1⟩, recallElement]) recallCopied) = (.ok k, _) :=
    exec_nameAt (show 0 < depthLimit by decide) hname (accepts_int (number_recallCopied hk)).1
  rw [bodyIn, hbody]
  rfl

theorem foldCall_recalling (k : Ref) :
    FoldCall recallMachine {} (recallScope k) 0 ⟨1⟩ ⟨2⟩ .int .int [] .int recalling where
  list := ⟨⟨3⟩, rfl, rfl⟩
  start := rfl
  named := rfl
  function := rfl
  conforms := rfl

/-- Where the name stands for what it did, the fold does what application does. -/
theorem fold_agrees_recalling :
    (inCall {} (inScope (recallScope ⟨0⟩) (run (eval 3) (some {}) .foldl))).exec recallMachine =
      (applied 3 {} ⟨2⟩ [⟨1⟩, recallElement] >>= retyped .int).exec recallCopied := by
  have hgiven : bodyIn 3 {} recalling .int [⟨1⟩, recallElement] recallCopied recalling.scope =
      (.ok ⟨0⟩, recallCopied) := bodyIn_recalling rfl rfl
  have hstep : StepChecked 3 {} ⟨2⟩ [.int, .int] .int recalling ⟨1⟩ recallElement
      recallCopied := by
    refine ⟨callable_recalling, fun r m' h => ?_⟩
    cases hgiven.symm.trans h
    exact (accepts_int (number_recallCopied rfl)).2
  have hsame : SameBody 3 {} .int recalling (recallScope ⟨0⟩) ⟨1⟩ recallElement
    recallCopied :=
    (bodyIn_recalling (k := ⟨0⟩) rfl rfl).trans hgiven.symm
  have hfold := (fold_agrees_iff 2 false (foldCall_recalling ⟨0⟩) rfl
    ⟨hstep, fun _ _ _ => trivial⟩).2 ⟨hsame, fun _ _ _ => trivial⟩
  refine hfold.trans ?_
  change ([recallElement].foldlM (applyStep 3 {} ⟨2⟩) ⟨1⟩ >>= retyped .int).exec
    recallCopied = _
  rw [List.foldlM_cons, bind_assoc]
  rfl

theorem content_retype (s : Store) (r q : Ref) (t : TypeRef) :
    (s.retype r t).content q = s.content q := by
  unfold Store.content Store.object Store.retype
  rw [Array.getD_eq_getD_getElem?, Array.getD_eq_getD_getElem?, Array.getElem?_modify]
  split <;> cases s.objects[q.index]? <;> rfl

/-- Where the name stands for something else at the fold, the fold gives that: 100, not 10. -/
theorem fold_in_scope_of_call :
    ∃ m', (inCall {} (inScope (recallScope ⟨1⟩) (run (eval 3) (some {}) .foldl))).exec
        recallMachine = (.ok ⟨1⟩, m') ∧ m'.store.content ⟨1⟩ = .int 100 ∧
      (applied 3 {} ⟨2⟩ [⟨1⟩, ⟨0⟩]).exec recallMachine =
        (.ok ⟨0⟩, recallMachine) ∧ recallMachine.store.content ⟨0⟩ = .int 10 := by
  have hstep : (foldStep 3 recalling (recallScope ⟨1⟩) .int ⟨1⟩ recallElement).exec
      (inside {} (recallScope ⟨1⟩) recallCopied) =
        (.ok ⟨1⟩, inside {} (recallScope ⟨1⟩) recallCopied) := by
    rw [foldStep, exec_callWith callable_recalling.arguments,
      bodyIn_recalling (k := ⟨1⟩) rfl rfl]
    rfl
  have hfold : ([recallElement].foldlM (foldStep 3 recalling (recallScope ⟨1⟩) .int) ⟨1⟩ >>=
      retyped .int).exec (inside {} (recallScope ⟨1⟩) recallCopied) =
        (.ok ⟨1⟩, inside {} (recallScope ⟨1⟩)
          { recallCopied with store := recallCopied.store.retype ⟨1⟩ .int }) := by
    rw [List.foldlM_cons, bind_assoc, exec_bind_of hstep]
    rfl
  refine ⟨_, (exec_call _ _ _ _).trans (congrArg (outside _)
    ((exec_runFold (foldCall_recalling ⟨1⟩) false).trans hfold)), ?_, rfl, rfl⟩
  exact (content_retype _ _ _ _).trans (congrArg Object.content
    (number_recallCopied (r := ⟨1⟩) (n := 100) rfl))

end TableScript.EvalM
