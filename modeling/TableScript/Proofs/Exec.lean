import TableScript.Eval

/-!
# Steps of a run

`exec` gives the outcome of a step together with the machine after it.

* `exec_bind_of` and `exec_bind_halt` go through a sequence of steps forwards, and `exec_bind_ok`
  takes a sequence apart that gave a result.
* `Moves R x` says that the step `x` takes the store along the relation `R`, whatever the outcome.
  It is shown from the parts of a step, once for all relations that are reflexive and transitive:
  that nothing changes, that things are only added, that nothing is taken away.
-/

namespace TableScript

theorem Except.ok_of_bind {ε α β : Type} {x : Except ε α} {f : α → Except ε β} {b : β}
    (h : x >>= f = .ok b) : ∃ a, x = .ok a ∧ f a = .ok b := by
  cases x with
  | error e => cases h
  | ok a => exact ⟨a, rfl, h⟩

namespace EvalM

variable {α β : Type}

/-- The outcome of a step, and the machine after it. -/
def exec (x : EvalM α) (m : Machine) : Except Halt α × Machine :=
  x.run.run m

theorem exec_bind (x : EvalM α) (f : α → EvalM β) (m : Machine) :
    (x >>= f).exec m =
      match x.exec m with
      | (.ok a, m') => (f a).exec m'
      | (.error h, m') => (.error h, m') := by
  unfold exec
  rw [ExceptT.run_bind, StateT.run_bind]
  rcases StateT.run (ExceptT.run x) m with ⟨_ | a, m'⟩ <;> rfl

variable {f : α → EvalM β} {x : EvalM α} {m m' : Machine} {a : α}

theorem exec_bind_of (h : x.exec m = (.ok a, m')) :
    (x >>= f).exec m = (f a).exec m' := by
  rw [exec_bind, h]

theorem exec_bind_halt {halt : Halt} (h : x.exec m = (.error halt, m')) :
    (x >>= f).exec m = (.error halt, m') := by
  rw [exec_bind, h]

theorem exec_bind_ok {b : β} (h : (x >>= f).exec m = (.ok b, m')) :
    ∃ a m₁, x.exec m = (.ok a, m₁) ∧ (f a).exec m₁ = (.ok b, m') := by
  rcases hx : x.exec m with ⟨halt | a, m₁⟩
  · rw [exec_bind_halt hx] at h
    cases h
  · rw [exec_bind_of hx] at h
    exact ⟨a, m₁, rfl, h⟩

theorem exec_map_ok {f : α → β} {b : β} (h : (f <$> x).exec m = (.ok b, m')) :
    ∃ a, x.exec m = (.ok a, m') ∧ f a = b := by
  rw [← bind_pure_comp] at h
  obtain ⟨a, m₁, hx, h⟩ := exec_bind_ok h
  cases h
  exact ⟨a, hx, rfl⟩

theorem exec_map_of {f : α → β} (h : x.exec m = (.ok a, m')) :
    (f <$> x).exec m = (.ok (f a), m') := by
  rw [← bind_pure_comp, exec_bind_of h]
  rfl

theorem filterMapM_eq_map (f : α → EvalM (Option β)) (l : List α) :
    l.filterMapM f = (·.filterMap id) <$> l.mapM f := by
  induction l with
  | nil => rfl
  | cons a l ih =>
    rw [List.filterMapM_cons, List.mapM_cons, ih, map_bind]
    refine bind_congr fun b => ?_
    cases b <;> simp

theorem exec_tryCatch (x : EvalM α) (handle : Halt → EvalM α) (m : Machine) :
    (tryCatch x handle).exec m =
      match x.exec m with
      | (.ok a, m') => (.ok a, m')
      | (.error halt, m') => (handle halt).exec m' := by
  show StateT.run (ExceptT.tryCatch x handle).run m = _
  unfold ExceptT.tryCatch exec
  rw [ExceptT.run_mk, StateT.run_bind]
  change (bind (StateT.run x.run m) _ : Id _) = _
  rcases StateT.run (ExceptT.run x) m with ⟨_ | a, m'⟩ <;> rfl

theorem exec_inScope (scope : Scope Ref TypeRef) (x : EvalM α) (m : Machine) :
    (inScope scope x).exec m =
      ((x.exec { m with scope }).1, { (x.exec { m with scope }).2 with scope := m.scope }) := rfl

theorem exec_inCall (position : Position) (x : EvalM α) (m : Machine) :
    (inCall position x).exec m =
      match x.exec { m with trace := position :: m.trace } with
      | (.ok a, m') => (.ok a, { m' with trace := m'.trace.tail })
      | (.error halt, m') => (.error halt, m') := by
  have hpush : (modify fun m => { m with trace := position :: m.trace } : EvalM PUnit).exec m =
      (.ok ⟨⟩, { m with trace := position :: m.trace }) := rfl
  rw [inCall, exec_bind_of hpush, exec_bind]
  rcases x.exec { m with trace := position :: m.trace } with ⟨_ | a, m'⟩ <;> rfl

/-! ## Single steps -/

theorem exec_pure (a : α) (m : Machine) : (pure a : EvalM α).exec m = (.ok a, m) := rfl

theorem exec_store (m : Machine) : store.exec m = (.ok m.store, m) := rfl

theorem exec_bind_get {f : Machine → EvalM β} : (get >>= f).exec m = (f m).exec m := rfl

theorem exec_bind_store {f : Store → EvalM β} : (store >>= f).exec m = (f m.store).exec m := rfl

theorem exec_make (f : Store → α × Store) (m : Machine) :
    (make f).exec m = (.ok (f m.store).1, { m with store := (f m.store).2 }) := rfl

theorem exec_change (f : Store → Store) (m : Machine) :
    (change f).exec m = (.ok (), { m with store := f m.store }) := rfl

theorem exec_object (r : Ref) (m : Machine) : (object r).exec m = (.ok (m.store.object r), m) := rfl

theorem exec_content (r : Ref) (m : Machine) :
    (content r).exec m = (.ok (m.store.content r), m) := rfl

theorem exec_sequence (place : Nat) (m : Machine) :
    (sequence place).exec m = (.ok (m.store.sequence place), m) := rfl

section

variable {r : Ref} {place : Nat}

theorem exec_bind_object {f : Object → EvalM β} :
    (object r >>= f).exec m = (f (m.store.object r)).exec m := rfl

theorem exec_bind_content {f : Content → EvalM β} :
    (content r >>= f).exec m = (f (m.store.content r)).exec m := rfl

theorem exec_bind_sequence {f : List Ref → EvalM β} :
    (sequence place >>= f).exec m = (f (m.store.sequence place)).exec m := rfl

end

/-- The machine in which the parts of an expression are evaluated. -/
def deeper (m : Machine) : Machine :=
  { m with depth := m.depth + 1 }

theorem exec_descend (hm : m.depth < depthLimit) (e : Expr) :
    (descend e).exec m = (.ok (), deeper m) := by
  have hdeeper : (modify fun m => { m with depth := m.depth + 1 } : EvalM PUnit).exec m =
      (.ok ⟨⟩, deeper m) := rfl
  have hlimit : ¬depthLimit < (deeper m).depth := Nat.not_lt.mpr hm
  rw [descend, exec_bind_of hdeeper, exec_bind_get, if_neg hlimit]
  rfl

theorem exec_report (text : String) (position : Option Position) (m : Machine) :
    ∃ halt m', (report text position : EvalM α).exec m = (.error halt, m') ∧
      m'.store = m.store := by
  cases position with
  | none | some p => exact ⟨_, _, rfl, rfl⟩

theorem report_ne_ok {text : String} {position : Option Position} :
    (report text position : EvalM α).exec m ≠ (.ok a, m') := by
  intro h
  obtain ⟨halt, m₁, hreport, -⟩ := exec_report (α := α) text position m
  rw [hreport] at h
  cases h

/-! ## Relations that steps follow -/

/-- The step takes the store along a relation, whatever its outcome. -/
def Moves (R : Store → Store → Prop) (x : EvalM α) : Prop :=
  ∀ m, R m.store (x.exec m).2.store

instance : Std.Refl (α := Store) Eq := ⟨fun _ => rfl⟩

namespace Moves

variable {R : Store → Store → Prop}

theorem of_exec (h : x.Moves R) {r : Except Halt α} (hx : x.exec m = (r, m')) :
    R m.store m'.store := by
  have := h m
  rwa [hx] at this

theorem mono {S : Store → Store → Prop} (h : x.Moves R) (hRS : ∀ s t, R s t → S s t) :
    x.Moves S :=
  fun m => hRS _ _ (h m)

section

variable [Std.Refl R]

theorem pure (a : α) : (pure a : EvalM α).Moves R :=
  fun m => Std.Refl.refl m.store

theorem fault (f : Fault) : (fault f : EvalM α).Moves R :=
  fun m => Std.Refl.refl m.store

theorem report (text : String) (position : Option Position) :
    (report text position : EvalM α).Moves R := by
  intro m
  obtain ⟨halt, m', hreport, hstore⟩ := exec_report (α := α) text position m
  rw [hreport, hstore]
  exact Std.Refl.refl _

theorem store : EvalM.store.Moves R :=
  fun m => Std.Refl.refl m.store

theorem get : (get : EvalM Machine).Moves R :=
  fun m => Std.Refl.refl m.store

theorem object (r : Ref) : (object r).Moves R :=
  fun m => Std.Refl.refl m.store

theorem content (r : Ref) : (content r).Moves R :=
  fun m => Std.Refl.refl m.store

theorem sequence (place : Nat) : (sequence place).Moves R :=
  fun m => Std.Refl.refl m.store

theorem ofExcept (r : Except Fault α) : (ofExcept r).Moves R := by
  cases r with
  | error f => exact fault f
  | ok a => exact pure a

end

theorem bind [Trans R R R] (hx : x.Moves R) (hf : ∀ a, (f a).Moves R) :
    (x >>= f).Moves R := by
  intro m
  rcases h : x.exec m with ⟨halt | a, m₁⟩
  · rw [exec_bind_halt h]
    exact hx.of_exec h
  · rw [exec_bind_of h]
    exact Trans.trans (hx.of_exec h) (hf a m₁)

theorem after_bind [Std.Refl R] (x : EvalM α) (hf : ∀ a, (f a).Moves R) (m : Machine) :
    R (x.exec m).2.store ((x >>= f).exec m).2.store := by
  rcases h : x.exec m with ⟨halt | a, m₁⟩
  · rw [exec_bind_halt h]
    exact Std.Refl.refl _
  · rw [exec_bind_of h]
    exact hf a m₁

section

variable [Std.Refl R] [Trans R R R]

theorem map (hx : x.Moves R) (f : α → β) : (f <$> x).Moves R := by
  rw [← bind_pure_comp]
  exact hx.bind fun a => pure (f a)

theorem mapM {l : List α} (hf : ∀ a, (f a).Moves R) : (l.mapM f).Moves R := by
  induction l with
  | nil => exact pure []
  | cons a l ih =>
    rw [List.mapM_cons]
    exact (hf a).bind fun b => ih.bind fun bs => pure (b :: bs)

theorem filterMapM {l : List α} {f : α → EvalM (Option β)} (hf : ∀ a, (f a).Moves R) :
    (l.filterMapM f).Moves R := by
  rw [filterMapM_eq_map]
  exact (mapM hf).map _

end

end Moves

end EvalM

end TableScript
