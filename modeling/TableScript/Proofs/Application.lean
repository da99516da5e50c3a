import TableScript.Proofs.Balance
import TableScript.Proofs.BlockScope
import TableScript.Proofs.Conformance

/-!
# Functions applied to values

A program applies a function by a call, which checks the arguments and runs the body where the
function was made (`applied`). The built-in functions that take a function run its body themselves
(`callWith`), in a scope of their choice and without a check.

* `applied_eq_bodyIn`: a call whose arguments are accepted runs the body in the scope of the
  function;
* `exec_callWith`: a built-in function that is called at the same place runs it in the scope that it
  chooses.
-/

namespace TableScript

/-- A value may stand where a type is expected. -/
def Store.Accepts (s : Store) (r : Ref) (expected : TypeRef) : Prop :=
  (s.content r).isEntry = false ∧ s.types.Fits (s.object r).type expected

/-- A scope in which the parameters of a function stand for values. -/
def Closure.bind (c : Closure) (scope : Scope Ref TypeRef) (values : List Ref) :
    Scope Ref TypeRef :=
  ((c.parameters.map (·.1)).zip values).foldl (fun s a => s.add a.1 a.2) scope

variable {r : Ref}

theorem Store.Accepts.exec_typeOf {expected : TypeRef} {m : Machine}
    (h : m.store.Accepts r expected) :
    (EvalM.typeOf r).exec m = (.ok (m.store.object r).type, m) := by
  rw [EvalM.exec_typeOf, if_neg (Bool.eq_false_iff.mp h.1)]

namespace EvalM

open Primitive

variable {α : Type} {levels : Nat} {p : Position} {m m' : Machine}

/-! ## Calls -/

/-- The machine inside a call. -/
def inside (p : Position) (scope : Scope Ref TypeRef) (m : Machine) : Machine :=
  { m with scope, trace := p :: m.trace }

/-- The outcome of a call, from what is done inside. -/
def outside (m : Machine) : Except Halt α × Machine → Except Halt α × Machine
  | (.ok a, m') => (.ok a, { m' with scope := m.scope, trace := m'.trace.tail })
  | (.error halt, m') => (.error halt, { m' with scope := m.scope })

theorem exec_call (p : Position) (scope : Scope Ref TypeRef) (x : EvalM α) (m : Machine) :
    (inCall p (inScope scope x)).exec m = outside m (x.exec (inside p scope m)) := by
  have hrun : (inScope scope x).exec { m with trace := p :: m.trace } =
      ((x.exec (inside p scope m)).1, { (x.exec (inside p scope m)).2 with scope := m.scope }) :=
    rfl
  rw [exec_inCall, hrun]
  rcases x.exec (inside p scope m) with ⟨halt | a, m'⟩ <;> rfl

theorem exec_inScope_congr {scope : Scope Ref TypeRef} {x y : EvalM α}
    (h : x.exec { m with scope } = y.exec { m with scope }) :
    (inScope scope x).exec m = (inScope scope y).exec m := by
  rw [exec_inScope, exec_inScope, h]

/-- The outcome of a call that goes on in a scope with what is done inside. -/
def goingOn {β : Type} (m : Machine) (scope : Scope Ref TypeRef) (k : α → EvalM β) :
    Except Halt α × Machine → Except Halt β × Machine
  | (.ok a, m') => outside m ((k a).exec { m' with scope })
  | (.error halt, m') => (.error halt, { m' with scope := m.scope })

theorem exec_inScope_call {β : Type} (p : Position) (scope scope' : Scope Ref TypeRef)
    (x : EvalM α) (k : α → EvalM β) (m : Machine) :
    (inScope scope (inCall p (inScope scope' x >>= k))).exec m =
      goingOn m scope k (x.exec (inside p scope' m)) := by
  have hrun : (inScope scope' x).exec { m with scope, trace := p :: m.trace } =
      ((x.exec (inside p scope' m)).1, { (x.exec (inside p scope' m)).2 with scope }) := rfl
  rw [exec_inScope, exec_inCall, exec_bind, hrun]
  rcases x.exec (inside p scope' m) with ⟨halt | a, m'⟩
  · rfl
  · dsimp only [goingOn]
    rcases (k a).exec { m' with scope } with ⟨halt | b, m''⟩ <;> rfl

/-- The outcome of a function's body on values in a scope, inside a call. -/
def bodyIn (levels : Nat) (p : Position) (c : Closure) (result : TypeRef) (values : List Ref)
    (m : Machine) (scope : Scope Ref TypeRef) : Except Halt Ref × Machine :=
  outside m ((eval levels c.body result).exec (inside p (c.bind scope values) m))

/-! ## Names for values -/

theorem exec_lookup {word : String} (h : m.scope.get? word = some r) (label : String)
    (position : Option Position) : (lookup word label position).exec m = (.ok r, m) := by
  rw [lookup, exec_bind_get, h]
  rfl

/-- A name that stands at a place. -/
def nameAt (p : Position) (name : String) : Expr :=
  .ref { position := some p } (.ident name)

variable {name : String}

theorem exec_nameAt {expected : TypeRef} (hm : m.depth < depthLimit)
    (hname : m.scope.get? name = some r) (hr : m.store.Accepts r expected) :
    (eval (levels + 1) (nameAt p name) expected).exec m = (.ok r, m) := by
  have hlookup : (lookup name name (some p)).exec (deeper m) = (.ok r, deeper m) :=
    exec_lookup (m := deeper m) hname _ _
  have htype : (typeOf r).exec (deeper m) = (.ok (m.store.object r).type, deeper m) :=
    Store.Accepts.exec_typeOf (m := deeper m) hr
  have hfits : (conforms (some p) (m.store.object r).type expected).exec (deeper m) =
      (.ok true, deeper m) := exec_conforms_of_fits hr.2
  have hstep : (step (eval levels) (nameAt p name) expected).exec (deeper m) =
      (.ok r, deeper m) := by
    rw [nameAt, step, evalRef]
    refine (exec_bind_of hlookup).trans ?_
    rw [expecting, exec_bind_of htype, exec_bind_of hfits]
    rfl
  rw [eval, exec_bind_of (exec_descend hm _), exec_bind_of hstep]
  rfl

theorem accepts_of_nameAt {v : Ref} {expected : TypeRef} (hname : m.scope.get? name = some r)
    (h : (eval (levels + 1) (nameAt p name) expected).exec m = (.ok v, m')) :
    m.depth < depthLimit ∧ (m.store.Accepts r expected ∨ m'.store.content v = .none) := by
  rcases exec_descend_cases (nameAt p name) m with ⟨hdescend, hm⟩ | ⟨halt, _, hdescend, -⟩
  · refine ⟨hm, ?_⟩
    rw [eval, exec_bind_of hdescend] at h
    obtain ⟨w, m₁, hstep, h⟩ := exec_bind_ok h
    cases h
    obtain ⟨_, _, hlookup, h⟩ := exec_bind_ok (x := lookup name name (some p)) hstep
    cases (exec_lookup (m := deeper m) hname name (some p)).symm.trans hlookup
    obtain ⟨_, _, htype, h⟩ := exec_bind_ok h
    obtain ⟨hentry, rfl, rfl⟩ := exec_typeOf_ok htype
    obtain ⟨b, _, hconforms, h⟩ := exec_bind_ok h
    obtain ⟨rfl, hfits, -⟩ := exec_conforms_ok hconforms
    cases b with
    | true => exact .inl ⟨hentry, hfits rfl⟩
    | false =>
      cases h
      exact .inr (Store.content_of_getElem? (o := ⟨.none, .none⟩) (by simp))
  · rw [eval, exec_bind_halt hdescend] at h
    cases h

/-! ## Application -/

/-- A scope with names for a function and for values. -/
def named (scope : Scope Ref TypeRef) (f : Ref) (values : List Ref) : Scope Ref TypeRef :=
  (["x", "y"].zip values).foldl (fun s a => s.add a.1 a.2) (scope.add "f" f)

/-- Applies a function to at most two values, by a call at a place that names it and them. -/
def applied (levels : Nat) (p : Position) (f : Ref) (values : List Ref) : EvalM Ref := do
  inScope (named (← get).scope f values)
    (step (eval levels) (.apply { position := some p } (nameAt p "f")
      ((["x", "y"].take values.length).map (nameAt p))) .any)

variable {values : List Ref}

theorem get?_named (scope : Scope Ref TypeRef) (f : Ref) (h : values.length ≤ 2) :
    (named scope f values).get? "f" = some f ∧
      List.Forall₂ (fun name v => (named scope f values).get? name = some v)
        (["x", "y"].take values.length) values := by
  match values, h with
  | [], _ | [x], _ | [x, y], _ => simp [named, Scope.get?_add]

theorem exec_names {names : List String} {parameters : List (String × TypeRef)}
    (hm : m.depth < depthLimit)
    (hnames : List.Forall₂ (fun name v => m.scope.get? name = some v) names values)
    (hvalues : List.Forall₂ (fun v q => m.store.Accepts v q.2) values parameters) :
    (((names.map (nameAt p)).zip parameters).mapM fun a => do
        return (a.2.1, ← eval (levels + 1) a.1 a.2.2) : EvalM _).exec m =
      (.ok ((parameters.map (·.1)).zip values), m) := by
  induction hnames generalizing parameters with
  | nil =>
    cases hvalues
    rfl
  | cons hname hnames ih =>
    cases hvalues with
    | cons hv hvalues =>
      simp only [List.map_cons, List.zip_cons_cons, List.mapM_cons, bind_assoc, pure_bind]
      rw [exec_bind_of (exec_nameAt hm hname hv), exec_bind_of (ih hvalues)]
      rfl

variable {f : Ref} {values : List Ref} {c : Closure} {ts : List TypeRef} {result : TypeRef}

/-- Looks at the type of what a call gives. -/
def lookAt (p : Position) (r : Ref) : EvalM Ref := do
  let _ ← conforms (some p) (← typeOf r) .any
  return r

theorem exec_lookAt (h : m.store.Accepts r .any) : (lookAt p r).exec m = (.ok r, m) := by
  rw [lookAt, exec_bind_of h.exec_typeOf, exec_bind_of (exec_conforms_of_fits h.2)]
  rfl

/-- What a call of a function on values takes for granted. -/
structure Callable (m : Machine) (f : Ref) (ts : List TypeRef) (result : TypeRef) (c : Closure)
    (values : List Ref) : Prop where
  deep : m.depth < depthLimit
  function : m.store.object f = ⟨.func ts result, .func c⟩
  named : m.store.Accepts f .unknown
  arguments : List.Forall₂ (fun v q => m.store.Accepts v q.2) values c.parameters

section

variable (h : Callable m f ts result c values) (hc : c.builtin = none)
  (hlength : values.length ≤ 2)

include h hc hlength

theorem exec_applied :
    (applied (levels + 1) p f values).exec m =
      goingOn m (named m.scope f values) (lookAt p)
        ((eval (levels + 1) c.body result).exec (inside p (c.bind c.scope values) m)) := by
  obtain ⟨hname, hnames⟩ := get?_named m.scope f hlength
  let n : Machine := { m with scope := named m.scope f values }
  have hargs : ((((["x", "y"].take values.length).map (nameAt p)).zip c.parameters).mapM fun a => do
      return (a.2.1, ← eval (levels + 1) a.1 a.2.2) : EvalM _).exec n = _ :=
    exec_names h.deep hnames h.arguments
  have hcount : ((["x", "y"].take values.length).map (nameAt p)).length = c.parameters.length := by
    rw [List.length_map, hnames.length_eq, h.arguments.length_eq]
  have henter : ∀ n : Machine, n.store = m.store →
      (enter (eval (levels + 1)) (some p) f c).exec n =
        (eval (levels + 1) c.body result).exec n := by
    intro n hn
    rw [enter, hc]
    dsimp only
    rw [exec_bind_object, hn, h.function]
  have hstep : (step (eval (levels + 1)) (.apply { position := some p } (nameAt p "f")
      ((["x", "y"].take values.length).map (nameAt p))) .any).exec n = (inCall p (do
        let r ← inScope (c.bind c.scope values) (eval (levels + 1) c.body result)
        lookAt p r)).exec n := by
    rw [step, evalApply, exec_bind_of (exec_nameAt (m := n) h.deep hname h.named),
      exec_bind_object, show n.store.object f = _ from h.function]
    dsimp only
    rw [callFunction, if_neg (not_not.mpr hcount)]
    dsimp only
    rw [exec_bind_get, exec_bind_of hargs, hc]
    -- the arguments of a call are evaluated before it, so the function is as it was
    rw [exec_inCall, exec_inCall, exec_bind, exec_bind, exec_inScope, exec_inScope, henter]
    · rfl
    · rfl
  rw [applied, exec_bind_get, exec_inScope_congr hstep]
  exact exec_inScope_call p _ _ _ _ m

theorem bodyIn_of_applied (happlied : (applied (levels + 1) p f values).exec m = (.ok r, m')) :
    bodyIn (levels + 1) p c result values m c.scope = (.ok r, m') := by
  rw [exec_applied h hc hlength] at happlied
  rw [bodyIn]
  generalize (eval (levels + 1) c.body result).exec _ = outcome at happlied ⊢
  rcases outcome with ⟨halt | v, m₁⟩
  · cases happlied
  · dsimp only [goingOn] at happlied
    rcases hlook : (lookAt p v).exec { m₁ with scope := named m.scope f values } with
      ⟨halt | w, m₂⟩
    · rw [hlook] at happlied
      cases happlied
    · rw [hlook] at happlied
      obtain ⟨t, _, htype, h⟩ := exec_bind_ok hlook
      obtain ⟨-, -, rfl⟩ := exec_typeOf_ok htype
      obtain ⟨b, _, hconforms, h⟩ := exec_bind_ok h
      obtain ⟨rfl, -, -⟩ := exec_conforms_ok hconforms
      cases h
      exact happlied

/-- A call in a program runs the body in the scope of the function. -/
theorem applied_eq_bodyIn (hgiven : ∀ r m',
      bodyIn (levels + 1) p c result values m c.scope = (.ok r, m') → m'.store.Accepts r .any) :
    (applied (levels + 1) p f values).exec m = bodyIn (levels + 1) p c result values m c.scope := by
  rw [exec_applied h hc hlength]
  unfold bodyIn at hgiven ⊢
  generalize (eval (levels + 1) c.body result).exec _ = outcome at hgiven ⊢
  rcases outcome with ⟨halt | v, m₁⟩
  · rfl
  · let n : Machine := { m₁ with scope := named m.scope f values }
    have hlook : (lookAt p v).exec n = (.ok v, n) :=
      exec_lookAt (hgiven v { m₁ with scope := m.scope, trace := m₁.trace.tail } rfl)
    dsimp only [goingOn]
    rw [hlook]
    rfl

end

/-! ## Functions run by built-in functions -/

theorem exec_bindParameters {parameters : List (String × TypeRef)} {n : Machine}
    (hvalues : List.Forall₂ (fun v q => n.store.Accepts v q.2) values parameters)
    (scope : Scope Ref TypeRef) :
    (bindParameters scope parameters values).exec n =
      (.ok (((parameters.map (·.1)).zip values).foldl (fun s a => s.add a.1 a.2) scope), n) := by
  induction hvalues generalizing scope with
  | nil => rfl
  | @cons v q values parameters hv hvalues ih =>
    rw [bindParameters, exec_bind_content]
    have hentry := hv.1
    split
    · next k w hcontent =>
      rw [hcontent] at hentry
      cases hentry
    · exact ih _

/-- The outcome of a step that is made in the scope of a call, from what it is outside. -/
def enclosed (p : Position) (scope : Scope Ref TypeRef) :
    Except Halt α × Machine → Except Halt α × Machine
  | (.ok a, m') => (.ok a, inside p scope m')
  | (.error halt, m') => (.error halt, { m' with scope })

theorem outside_enclosed {o : Except Halt α × Machine} (h : o.2.scope = m.scope)
    (p : Position) (scope : Scope Ref TypeRef) : outside m (enclosed p scope o) = o := by
  rcases o with ⟨halt | a, n⟩
  · exact congrArg (fun s => (Except.error halt, { n with scope := s })) h.symm
  · exact congrArg (fun s => (Except.ok a, { n with scope := s })) h.symm

theorem scope_bodyIn (levels : Nat) (p : Position) (c : Closure) (result : TypeRef)
    (values : List Ref) (m : Machine) (scope : Scope Ref TypeRef) :
    (bodyIn levels p c result values m scope).2.scope = m.scope := by
  rw [bodyIn]
  rcases (eval levels c.body result).exec _ with ⟨halt | r, m'⟩ <;> rfl

/-- A built-in call of a function runs its body. -/
theorem exec_callWith
    (hvalues : List.Forall₂ (fun v q => m.store.Accepts v q.2) values c.parameters)
    (scope outer : Scope Ref TypeRef) :
    (callWith (eval levels) c scope values result).exec (inside p outer m) =
      enclosed p outer (bodyIn levels p c result values m scope) := by
  have hbind : (bindParameters scope c.parameters values).exec (inside p outer m) =
      (.ok (c.bind scope values), inside p outer m) :=
    exec_bindParameters (n := inside p outer m) hvalues scope
  have hrun : (inScope (c.bind scope values) (eval levels c.body result)).exec (inside p outer m) =
      (((eval levels c.body result).exec (inside p (c.bind scope values) m)).1,
        { ((eval levels c.body result).exec (inside p (c.bind scope values) m)).2 with
          scope := outer }) := rfl
  rw [callWith, exec_bind_of hbind, hrun, bodyIn]
  rcases hbody : (eval levels c.body result).exec (inside p (c.bind scope values) m) with
    ⟨halt | r, m'⟩
  · rfl
  · -- an evaluation that gives a value has left the places of the calls as they were
    have htrace : m'.trace = p :: m.trace := (eval_balanced hbody).2
    simp [outside, enclosed, inside, htrace]

end EvalM

end TableScript
