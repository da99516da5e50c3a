import TableScript.Proofs.Coupling

/-!
# Evaluations in progress

The machine counts the evaluations in progress, and an evaluation that gives a value leaves the
count and the places of the calls as it found them. `watched` is evaluation that keeps a count of
its own: it raises an alarm as soon as the machine counts otherwise, or counts more evaluations than
the limit allows. The alarm is never raised (`evaluation_balanced`).

A run that halts is over, and nothing that has been counted is taken back. So the count is right up
to the halt, also where it comes from deep within evaluations. `watched` takes the count back as it
gives up one evaluation after the other, to compare the counts also then.
-/

namespace TableScript.EvalM

open Primitive

/-! ## Watching the count -/

/-- Raises the alarm unless the machine counts `calls` evaluations in progress, of which at most one
is beyond the limit. -/
def watch (alarm : EvalM Unit) (calls : Nat) : EvalM Unit := do
  let depth := (← get).depth
  if depth = calls ∧ depth ≤ depthLimit + 1 then return ()
  else alarm

/-- Counts an evaluation while it finds its value. -/
def counted (alarm : EvalM Unit) (calls : Nat) (e : Expr) (value : EvalM Ref) : EvalM Ref := do
  descend e
  watch alarm (calls + 1)
  let r ← value
  watch alarm (calls + 1)
  ascend
  return r

/-- Gives up an evaluation that has halted. -/
def giveUp (alarm : EvalM Unit) (calls : Nat) (halt : Halt) : EvalM Ref := do
  watch alarm (calls + 1)
  modify fun m => { m with depth := calls }
  throw halt

/-- Evaluation where `calls` evaluations are in progress. The counts are compared whenever an
evaluation begins, has been counted, has its value, is done, or halts. It is also a reason for the
alarm if the levels run out, which the limit on the depth should prevent. -/
def watched (alarm : EvalM Unit) : Nat → Nat → Evaluator
  | _, 0, _, _ => do
    alarm
    fault .tooDeep
  | calls, levels + 1, e, expected => do
    watch alarm calls
    let r ← tryCatch
      (counted alarm calls e (step (watched alarm (calls + 1) levels) e expected))
      (giveUp alarm calls)
    watch alarm calls
    return r

/-- The value of a program by a given evaluation. -/
def interpretBy (evaluate : Evaluator) (root : Expr) : StateM Machine (Except Fault Ref) := do
  match ← (evaluate root .any).run with
  | .ok r => return .ok r
  | .error halt => halted halt

theorem interpret_eq (root : Expr) :
    interpret root = interpretBy (eval (depthLimit + 1)) root := rfl

theorem run_interpretBy (evaluate : Evaluator) (root : Expr) (m : Machine) :
    (interpretBy evaluate root).run m =
      match (evaluate root .any).exec m with
      | (.ok r, m') => (.ok r, m')
      | (.error halt, m') => (halted halt).run m' := by
  unfold exec interpretBy
  rw [StateT.run_bind]
  rcases StateT.run (ExceptT.run (evaluate root .any)) m with ⟨_ | r, m'⟩ <;> rfl

theorem run_halted_depth (halt : Halt) (m : Machine) (depth : Nat) :
    (halted halt).run { m with depth } =
      (((halted halt).run m).1, { ((halted halt).run m).2 with depth }) := by
  cases halt with
  | reported => rfl
  | fault f =>
    rw [halted]
    split <;> rfl

/-- The alarm is not raised where `calls` evaluations are counted: it does nothing, or they are
within the limit. -/
def Quiet (alarm : EvalM Unit) (calls : Nat) : Prop :=
  alarm = pure () ∨ calls ≤ depthLimit + 1

section

variable {alarm : EvalM Unit} {calls levels : Nat} {e : Expr} {expected : TypeRef} {r : Ref}
  {halt : Halt} {m m' : Machine}

theorem exec_bind_watch {α : Type} {f : Unit → EvalM α} (h : Quiet alarm calls)
    (hdepth : m.depth = calls) : (watch alarm calls >>= f).exec m = (f ()).exec m := by
  refine exec_bind_of ?_
  rw [watch, exec_bind_get]
  dsimp only
  split
  · rfl
  · next hne =>
    rcases h with rfl | hle
    · rfl
    · exact absurd ⟨hdepth, hdepth ▸ hle⟩ hne

section

variable (h : Quiet alarm (calls + 1)) (hbefore : m.depth = calls)
  (hdescend : (descend e).exec m = (.ok (), { m with depth := m.depth + 1 }))

include h hbefore hdescend

theorem exec_counted_ok {value : EvalM Ref}
    (hvalue : value.exec { m with depth := m.depth + 1 } = (.ok r, m'))
    (hafter : m'.depth = calls + 1) :
    (counted alarm calls e value).exec m = (.ok r, { m' with depth := m'.depth - 1 }) := by
  subst hbefore
  rw [counted, exec_bind_of hdescend, exec_bind_watch h rfl, exec_bind_of hvalue,
    exec_bind_watch h hafter]
  rfl

theorem exec_counted_halt {value : EvalM Ref}
    (hvalue : value.exec { m with depth := m.depth + 1 } = (.error halt, m')) :
    (counted alarm calls e value).exec m = (.error halt, m') := by
  subst hbefore
  rw [counted, exec_bind_of hdescend, exec_bind_watch h rfl]
  exact exec_bind_halt hvalue

end

theorem exec_watched_ok (h : Quiet alarm calls) (hbefore : m.depth = calls)
    (hx : (counted alarm calls e (step (watched alarm (calls + 1) levels) e expected)).exec m =
      (.ok r, m')) (hafter : m'.depth = calls) :
    (watched alarm calls (levels + 1) e expected).exec m = (.ok r, m') := by
  rw [watched, exec_bind_watch h hbefore, exec_bind, exec_tryCatch, hx]
  exact exec_bind_watch h hafter

theorem exec_watched_halt (h : Quiet alarm calls) (h' : Quiet alarm (calls + 1))
    (hbefore : m.depth = calls)
    (hx : (counted alarm calls e (step (watched alarm (calls + 1) levels) e expected)).exec m =
      (.error halt, m')) (hafter : m'.depth = calls + 1) :
    (watched alarm calls (levels + 1) e expected).exec m =
      (.error halt, { m' with depth := calls }) := by
  have hgive : (giveUp alarm calls halt).exec m' = (.error halt, { m' with depth := calls }) := by
    rw [giveUp, exec_bind_watch h' hafter]
    rfl
  rw [watched, exec_bind_watch h hbefore, exec_bind, exec_tryCatch, hx]
  dsimp only
  rw [hgive]

end

theorem exec_descend_cases (e : Expr) (m : Machine) :
    (descend e).exec m = (.ok (), { m with depth := m.depth + 1 }) ∧ m.depth < depthLimit ∨
      ∃ halt m', (descend e).exec m = (.error halt, m') ∧ m'.depth = m.depth + 1 := by
  by_cases hm : m.depth < depthLimit
  · exact .inl ⟨exec_descend hm e, hm⟩
  · right
    have hcount : (modify fun m => { m with depth := m.depth + 1 } : EvalM PUnit).exec m =
        (.ok ⟨⟩, deeper m) := rfl
    have hlimit : depthLimit < (deeper m).depth := Nat.lt_succ_of_le (Nat.not_lt.mp hm)
    rw [descend, exec_bind_of hcount, exec_bind_get, if_pos hlimit, noteOf]
    cases e.note? with
    | none => exact ⟨_, _, rfl, rfl⟩
    | some note =>
      rw [exec_bind_of (exec_pure note _)]
      cases note.position with
      | none | some p => exact ⟨_, _, rfl, rfl⟩

/-! ## Side by side with the count -/

/-- A run at depth `d`, and a run that comes back to this depth when it halts. -/
def Coupling.counting (d : Nat) : Coupling where
  Sync depth _ disk disk' := depth = d ∧ disk' = disk
  Halted _ depth' disk disk' := depth' = d ∧ disk' = disk
  halted_of_sync h := h
  read_eq := by
    rintro depth confinement disk disk' name ⟨-, rfl⟩
    rfl
  sync_write := by
    rintro depth disk disk' ⟨rfl, rfl⟩
    exact ⟨rfl, fun _ => ⟨rfl, rfl⟩⟩

theorem together_watched (alarm : EvalM Unit) (calls levels : Nat)
    (h : alarm = pure () ∨ 0 < levels ∧ calls + levels = depthLimit + 1) (e : Expr)
    (expected : TypeRef) :
    (Coupling.counting calls).Together (eval levels e expected)
      (watched alarm calls levels e expected) := by
  induction levels generalizing calls e expected with
  | zero =>
    rcases h with rfl | ⟨hlevels, -⟩
    · exact Coupling.Together.fault _
    · exact absurd hlevels (lt_irrefl 0)
  | succ levels ih =>
    rintro m disk ⟨rfl, rfl⟩
    change (Coupling.counting m.depth).Coupled m.trace ((eval (levels + 1) e expected).exec m)
      ((watched alarm m.depth (levels + 1) e expected).exec m)
    have hquiet : Quiet alarm m.depth := h.imp_right fun h => by omega
    have hquiet' : Quiet alarm (m.depth + 1) := h.imp_right fun h => by omega
    rw [eval]
    rcases exec_descend_cases e m with ⟨hdescend, hlimit⟩ | ⟨halt, n, hdescend, hn⟩
    · rw [exec_bind_of hdescend]
      -- Below the limit there is a level left for the parts, one evaluation further in.
      have hstep := Coupling.together_step
        (ih (m.depth + 1) (h.imp_right fun h => by omega)) e expected
        { m with depth := m.depth + 1 } m.disk ⟨rfl, rfl⟩
      generalize hx : (step (eval levels) e expected).exec _ = outcome at hstep
      generalize hy : (step (watched alarm (m.depth + 1) levels) e expected).exec _ = outcome'
        at hstep
      cases hstep with
      | @ok r n disk sync traced =>
        obtain ⟨hn, rfl⟩ := sync
        have hdone : n.depth - 1 = m.depth := by omega
        have hcounted := exec_counted_ok hquiet' rfl hdescend hy hn
        rw [exec_bind_of hx, exec_watched_ok hquiet rfl hcounted hdone]
        exact .ok ⟨hdone, rfl⟩ traced
      | @halt halt n depth disk halted =>
        -- The parts have given up what they counted, so that one evaluation is left to give up.
        obtain ⟨rfl, rfl⟩ := halted
        have hcounted := exec_counted_halt hquiet' rfl hdescend hy
        rw [exec_bind_halt hx, exec_watched_halt hquiet hquiet' rfl hcounted rfl]
        exact .halt ⟨rfl, rfl⟩
    · -- One evaluation too many is counted before it is refused.
      have hcounted : (counted alarm m.depth e
          (step (watched alarm (m.depth + 1) levels) e expected)).exec m = (.error halt, n) :=
        exec_bind_halt hdescend
      rw [exec_bind_halt hdescend, exec_watched_halt hquiet hquiet' rfl hcounted hn]
      exact .halt ⟨rfl, rfl⟩

/-! ## Balance -/

theorem eval_balanced {levels : Nat} {e : Expr} {expected : TypeRef} {m m' : Machine} {r : Ref}
    (h : (eval levels e expected).exec m = (.ok r, m')) :
    m'.depth = m.depth ∧ m'.trace = m.trace := by
  have hboth := together_watched (pure ()) m.depth levels (.inl rfl) e expected m
    m.disk ⟨rfl, rfl⟩
  rw [h] at hboth
  generalize (watched _ _ _ _ _).exec _ = outcome at hboth
  cases hboth with
  | ok sync traced => exact ⟨sync.1, traced⟩

theorem interpretBy_watched (alarm : EvalM Unit) (root : Expr) {m : Machine} (hm : m.depth = 0) :
    (interpretBy (watched alarm 0 (depthLimit + 1)) root).run m =
      (((interpret root).run m).1, { ((interpret root).run m).2 with depth := 0 }) := by
  have hboth := together_watched alarm 0 (depthLimit + 1)
    (.inr ⟨Nat.succ_pos _, Nat.zero_add _⟩) root .any m m.disk ⟨hm, rfl⟩
  rw [interpret_eq, run_interpretBy, run_interpretBy]
  generalize (eval (depthLimit + 1) root .any).exec m = outcome at hboth ⊢
  change Coupling.Coupled _ _ _ ((watched alarm 0 (depthLimit + 1) root .any).exec m) at hboth
  generalize (watched alarm 0 (depthLimit + 1) root .any).exec m = outcome' at hboth ⊢
  cases hboth with
  | @ok r n disk sync traced =>
    obtain ⟨hn, rfl⟩ := sync
    cases n
    cases hn
    rfl
  | @halt halt n depth disk halted =>
    obtain ⟨rfl, rfl⟩ := halted
    exact run_halted_depth halt n 0

/-- Evaluation is balanced: an evaluation that gives a value leaves the count and the places of the
calls as they were. In a run, the count is always the number of evaluations in progress and at most
one above the limit, so that the alarm of a watched run is never raised. -/
theorem evaluation_balanced :
    (∀ (levels : Nat) (e : Expr) (expected : TypeRef) (m : Machine) (r : Ref) (m' : Machine),
      (eval levels e expected).exec m = (.ok r, m') →
        m'.depth = m.depth ∧ m'.trace = m.trace) ∧
    ∀ (alarm : EvalM Unit) (root : Expr) (m : Machine), m.depth = 0 →
      (interpretBy (watched alarm 0 (depthLimit + 1)) root).run m =
        (((interpret root).run m).1, { ((interpret root).run m).2 with depth := 0 }) :=
  ⟨fun _ _ _ _ _ _ h => eval_balanced h,
    fun alarm root _ hm => interpretBy_watched alarm root hm⟩

/-- The program `1 + 2`, evaluated within a call. -/
theorem sum_balanced :
    let sum : Expr := .prim {} .plus (.literal { type := .int } (.int 1))
      (.literal { type := .int } (.int 2))
    let m : Machine := { trace := [{}] }
    let m' := ((eval 2 sum .any).exec m).2
    (eval 2 sum .any).exec m = (.ok ⟨2⟩, m') ∧ (m'.depth = 0 ∧ m'.trace = [{}]) ∧
      (interpretBy (watched (print "alarm") 0 (depthLimit + 1)) sum).run {} =
        (((interpret sum).run {}).1, { ((interpret sum).run {}).2 with depth := 0 }) := by
  intro sum m m'
  have hvalue : (eval 2 sum .any).exec m = (.ok ⟨2⟩, m') := Prod.ext (by rfl) rfl
  exact ⟨hvalue, evaluation_balanced.1 2 sum .any m ⟨2⟩ m' hvalue,
    evaluation_balanced.2 (print "alarm") sum {} rfl⟩

end TableScript.EvalM
