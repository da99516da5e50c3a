import TableScript.Proofs.SteadySteps

/-!
# Two runs side by side

A coupling says how two runs of a program may differ: in the files on their disks, and once they
have halted also in the number of evaluations that they count. Everything else is the same in both.

* `Together C x y`: on machines that `C` couples, the steps `x` and `y` both give the same result on
  machines that are coupled again, with as many calls in progress as before, or both halt alike.
* `Coupling.congruence`: this is a congruence, so one level of evaluation keeps two runs side by
  side if the evaluations of the parts do (`Coupling.together_step`).
-/

namespace TableScript.EvalM

/-- How two machines may differ on which the same program runs. -/
structure Coupling where
  /-- Runs go on side by side at a depth and a confinement, on these disks. -/
  Sync : Nat → Option Path → Disk → Disk → Prop
  /-- Runs have halted at these depths, on these disks. -/
  Halted : Nat → Nat → Disk → Disk → Prop
  halted_of_sync {depth : Nat} {confinement : Option Path} {disk disk' : Disk} :
    Sync depth confinement disk disk' → Halted depth depth disk disk'
  /-- The files that a program can read are the same. -/
  read_eq {depth : Nat} {confinement : Option Path} {disk disk' : Disk} (name : String) :
    Sync depth confinement disk disk' →
      disk'.read (Primitive.csvPath confinement name) =
        disk.read (Primitive.csvPath confinement name)
  /-- Where a program can write files, the disks do not differ. -/
  sync_write {depth : Nat} {disk disk' : Disk} : Sync depth none disk disk' →
    disk' = disk ∧ ∀ disk, Sync depth none disk disk

namespace Coupling

variable {α : Type} (C : Coupling)

/-- The outcomes of two steps that are made where the places of the calls are `trace`. -/
inductive Coupled (trace : List Position) :
    Except Halt α × Machine → Except Halt α × Machine → Prop
  | ok {a : α} {m : Machine} {disk : Disk}
    (sync : C.Sync m.depth m.confinement m.disk disk) (traced : m.trace = trace) :
    Coupled trace (.ok a, m) (.ok a, { m with disk })
  | halt {h : Halt} {m : Machine} {depth : Nat} {disk : Disk}
    (halted : C.Halted m.depth depth m.disk disk) :
    Coupled trace (.error h, m) (.error h, { m with depth, disk })

/-- Two steps keep runs side by side. -/
def Together (x y : EvalM α) : Prop :=
  ∀ (m : Machine) (disk : Disk), C.Sync m.depth m.confinement m.disk disk →
    C.Coupled m.trace (x.exec m) (y.exec { m with disk })

variable {C}

theorem Coupled.bind {β : Type} {trace : List Position} {x y : EvalM α} {m m' : Machine}
    {f g : α → EvalM β} (h : C.Coupled trace (x.exec m) (y.exec m'))
    (hf : ∀ a, C.Together (f a) (g a)) :
    C.Coupled trace ((x >>= f).exec m) ((y >>= g).exec m') := by
  generalize hxm : x.exec m = outcome at h
  generalize hym : y.exec m' = outcome' at h
  cases h with
  | @ok a n disk sync traced =>
    rw [exec_bind_of hxm, exec_bind_of hym, ← traced]
    exact hf a n disk sync
  | halt halted =>
    rw [exec_bind_halt hxm, exec_bind_halt hym]
    exact .halt halted

namespace Together

variable {x y : EvalM α}

theorem get {f g : Machine → EvalM α} (hg : ∀ m disk, g { m with disk } = g m)
    (h : ∀ m, C.Together (f m) (g m)) : C.Together (get >>= f) (get >>= g) := by
  intro m disk hs
  rw [exec_bind_get, exec_bind_get, hg m disk]
  exact h m m disk hs

theorem inScope (scope : Scope Ref TypeRef) (h : C.Together x y) :
    C.Together (inScope scope x) (inScope scope y) := by
  intro m disk hs
  have h := h { m with scope } disk hs
  rw [exec_inScope, exec_inScope]
  generalize x.exec { m with scope } = outcome at h ⊢
  generalize y.exec { m with scope, disk } = outcome' at h ⊢
  cases h with
  | ok sync traced => exact .ok sync traced
  | halt halted => exact .halt halted

theorem inCall (position : Position) (h : C.Together x y) :
    C.Together (inCall position x) (inCall position y) := by
  intro m disk hs
  have h := h { m with trace := position :: m.trace } disk hs
  rw [exec_inCall, exec_inCall]
  generalize x.exec { m with trace := position :: m.trace } = outcome at h ⊢
  generalize y.exec { m with trace := position :: m.trace, disk } = outcome' at h ⊢
  cases h with
  | ok sync traced => exact .ok sync (congrArg List.tail traced)
  | halt halted => exact .halt halted

theorem aside {f : Machine → α × Machine}
    (hdisk : ∀ m disk, f { m with disk } = ((f m).1, { (f m).2 with disk }))
    (hf : ∀ m, ∃ console input random aliases,
      (f m).2 = { m with console, input, random, scope := { m.scope with aliases } }) :
    C.Together (modifyGet f) (modifyGet f) := by
  intro m disk hs
  obtain ⟨console, input, random, aliases, h⟩ := hf m
  change C.Coupled m.trace (.ok (f m).1, (f m).2) (.ok (f { m with disk }).1, (f { m with disk }).2)
  rw [hdisk m disk, h]
  exact .ok hs rfl

theorem fault (f : Fault) : C.Together (fault f : EvalM α) (fault f) :=
  fun m _ hs => .halt (m := m) (C.halted_of_sync hs)

theorem report (text : String) (position : Option Position) :
    C.Together (report text position : EvalM α) (report text position) := by
  cases position with
  | none => exact fault _
  | some p => exact fun _ _ hs => .halt (C.halted_of_sync hs)

theorem ofExcept (r : Except Fault α) : C.Together (ofExcept r) (ofExcept r) := by
  cases r with
  | error f => exact fault f
  | ok a => exact fun _ _ hs => .ok hs rfl

theorem checkWith {mismatch : String → EvalM Unit}
    (h : ∀ text, C.Together (mismatch text) (mismatch text)) (found expected : PlacedType) :
    C.Together (checkWith mismatch found expected) (checkWith mismatch found expected) := by
  unfold EvalM.checkWith
  split
  · exact fun _ _ hs => .ok hs rfl
  · exact fun _ _ hs => .ok hs rfl
  · exact fun m disk hs => (ofExcept _ m disk hs).bind fun text m disk hs =>
      (h text m disk hs).bind fun _ _ _ hs => .ok hs rfl

theorem readingFile {rest : String → EvalM Ref} (position : Position) (name : String)
    (h : ∀ file, C.Together (rest file) (rest file)) :
    C.Together (readingFile position name rest) (readingFile position name rest) := by
  intro m disk hs
  have hread := ((ofExcept (m.disk.read (Primitive.csvPath m.confinement name))) m disk hs).bind h
  rw [EvalM.readingFile, exec_bind_get, exec_bind_get, exec_tryCatch, exec_tryCatch, exec_bind_get,
    exec_bind_get, C.read_eq name hs]
  generalize (EvalM.ofExcept _ >>= rest).exec m = outcome at hread ⊢
  generalize (EvalM.ofExcept _ >>= rest).exec { m with disk } = outcome' at hread ⊢
  cases hread with
  | ok sync traced => exact .ok sync traced
  | @halt halt n depth disk halted =>
    dsimp only
    unfold Primitive.readFailure
    split <;> exact .halt halted

theorem writingFile (position : Option Position) (name : String) (lines : List (List Csv.Item)) :
    C.Together (writingFile position name lines) (writingFile position name lines) := by
  intro m disk hs
  rw [EvalM.writingFile, exec_bind_get, exec_bind_get]
  by_cases hconfined : m.confinement.isSome = true
  · rw [if_pos hconfined]
    exact report _ _ m disk hs
  · rw [if_neg hconfined]
    have hnone : m.confinement = none := by simpa using hconfined
    obtain ⟨rfl, hwrite⟩ := C.sync_write (hnone ▸ hs)
    generalize Csv.write _ = written
    cases written with
    | mk text outcome =>
      rw [exec_bind_get]
      cases m.disk.write (Primitive.csvPath none _) text with
      | error f => exact report _ _ m m.disk hs
      | ok disk =>
        have hsync : C.Sync m.depth m.confinement disk disk := hnone ▸ hwrite disk
        cases outcome with
        | ok => exact .ok hsync rfl
        | error f => exact report _ _ { m with disk } disk hsync

end Together

/-- Two runs are kept side by side by steps whose parts keep them side by side. -/
def congruence (C : Coupling) : Congruence where
  Holds := C.Together
  Binds _ := True
  Inside := True
  Edits := True
  Elements := True
  holds_pure _ := fun _ _ hs => .ok hs rfl
  holds_bind hx hf := fun m disk hs => (hx m disk hs).bind hf
  holds_fault _ := .fault _
  holds_report := .report
  holds_get := .get
  holds_make _ := fun _ _ hs => .ok hs rfl
  holds_aside := .aside
  holds_bindName _ _ := fun _ _ hs => .ok hs rfl
  holds_inScope scope h := .inScope scope (h trivial)
  holds_inCall := .inCall
  holds_check position := .checkWith fun text => .report text position
  holds_checkElements _ := .checkWith fun _ => .fault _
  holds_readingFile position name _ _ := .readingFile position name
  holds_writingFile position name lines _ _ := .writingFile position name lines

/-- Steps are coupled if the steps of their parts are. -/
theorem together_step {eval eval' : Primitive.Evaluator}
    (h : ∀ e t, C.Together (eval e t) (eval' e t)) (e : Expr) (expected : TypeRef) :
    C.Together (step eval e expected) (step eval' e expected) :=
  Congruence.together_step (K := C.congruence) expected trivial (fun _ => h) (fun d _ => h d)
    (fun _ _ => trivial) fun _ => trivial

end Coupling

end TableScript.EvalM
