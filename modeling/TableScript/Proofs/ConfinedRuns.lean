import TableScript.Proofs.Balance
import TableScript.Proofs.ServiceSteps

/-!
# Confined runs

A program of a session runs confined to the directory of the session. It reads no other files and
writes none: on disks that hold the same inside the directory, its runs cannot be told apart
(`interpret_confined`).

One thing outside of the directory shows. Where the directory cannot be entered, reading fails in
different ways, by what is in its place or on the way to it (`Disk.obstacle?`).
-/

namespace TableScript

namespace Disk

variable {d d' : Disk} {p : Path}

/-- Two disks hold the same inside of a directory: every way further in leads to the same file, to a
directory on both, or to nothing. -/
def AgreeInside (d d' : Disk) (p : Path) : Prop :=
  ∀ names, names ≠ [] → ".." ∉ names →
    d'.find? (p.join { parts := names }) = d.find? (p.join { parts := names })

/-- Why a directory cannot be entered. -/
def obstacle? (d : Disk) (p : Path) : Option PathProblem :=
  match d.enter p with
  | .ok _ => none
  | .error e => some e

variable {parent : Location} {name : String}

theorem follow_inside (hnodes : ∀ rest, d'.node? (parent ++ rest) = d.node? (parent ++ rest))
    (rest names : List String) (hup : ".." ∉ names) :
    d'.follow (parent ++ rest) names = d.follow (parent ++ rest) names ∧
      ∀ place, d.follow (parent ++ rest) names = .ok place →
        ∃ rest', place = parent ++ rest' := by
  induction names generalizing rest with
  | nil =>
    refine ⟨rfl, fun place hplace => ⟨rest, ?_⟩⟩
    cases hplace
    rfl
  | cons name names ih =>
    obtain ⟨hname, hnames⟩ := not_or.mp (mt List.mem_cons.mpr hup)
    obtain ⟨hsame, hinside⟩ := ih (rest ++ [name]) hnames
    rw [← List.append_assoc] at hsame hinside
    have hdown : ¬ (name == "..") = true := by simpa using Ne.symm hname
    rw [follow, follow, hnodes, if_neg hdown, if_neg hdown, hsame]
    refine ⟨rfl, fun place hplace => hinside place ?_⟩
    split at hplace
    · cases hplace
    · cases hplace
    · split at hplace
      · cases hplace
      · exact hplace

theorem agreeInside_of_enter (henter : d.enter p = .ok parent) (henter' : d'.enter p = .ok parent)
    (hnodes : ∀ rest, d'.node? (parent ++ rest) = d.node? (parent ++ rest)) :
    d.AgreeInside d' p := by
  intro names _ hup
  obtain ⟨hsame, hinside⟩ := follow_inside hnodes [] names hup
  rw [List.append_nil] at hsame hinside
  unfold find?
  rw [locate_join, locate_join, (enter_eq_ok_iff.mp henter).1, (enter_eq_ok_iff.mp henter').1]
  cases names.any fun name => name.toList.contains '\x00' with
  | true => rfl
  | false =>
    show (match d'.follow parent names with | .ok _ => _ | .error _ => _) =
      (match d.follow parent names with | .ok _ => _ | .error _ => _)
    rw [hsame]
    cases hfollow : d.follow parent names with
    | error e => rfl
    | ok place =>
      obtain ⟨rest, rfl⟩ := hinside place hfollow
      exact hnodes rest

theorem find?_join_of_enter_error {e : PathProblem} (h : d.enter p = .error e) {names : List String}
    (hnames : names ≠ []) : d.find? (p.join { parts := names }) = none := by
  obtain ⟨name, names, rfl⟩ := List.exists_cons_of_ne_nil hnames
  rw [find?, locate_join]
  split
  · next place hplace =>
    split at hplace
    · cases hplace
    · obtain ⟨parent, hlocate, hfollow⟩ := Except.ok_of_bind hplace
      rw [follow] at hfollow
      split at hfollow
      · cases hfollow
      · cases hfollow
      · next hdirectory =>
        rw [enter_eq_ok_iff.mpr ⟨hlocate, hdirectory⟩] at h
        cases h
  · rfl

theorem locate_child_error_iff (hnull : '\x00' ∉ name.toList) (hup : name ≠ "..")
    (e : PathProblem) :
    d.locate (p.child name) = .error e ↔
      d.obstacle? p = some e ∨
        d.obstacle? p = none ∧ nameLimit < name.utf8ByteSize ∧ e = .nameTooLong := by
  rw [locate_child hnull hup, obstacle?]
  cases d.enter p with
  | error e' =>
    show Except.error e' = Except.error e ↔ _
    simp
  | ok place =>
    show (if nameLimit < name.utf8ByteSize then _ else _) = _ ↔ _
    split <;> simp_all [eq_comm]

theorem read_congr (hfail : ∀ e, d'.locate p = .error e ↔ d.locate p = .error e)
    (hfind : d'.find? p = d.find? p) : d'.read p = d.read p := by
  unfold find? at hfind
  unfold read
  cases hlocate : d.locate p with
  | error e => rw [(hfail e).mpr hlocate]
  | ok place =>
    cases hlocate' : d'.locate p with
    | error e =>
      rw [(hfail e).mp hlocate'] at hlocate
      cases hlocate
    | ok place' =>
      rw [hlocate, hlocate'] at hfind
      dsimp only at hfind ⊢
      rw [hfind]

theorem AgreeInside.read_child (h : d.AgreeInside d' p)
    (hobstacle : d'.obstacle? p = d.obstacle? p) (hup : name ≠ "..") :
    d'.read (p.child name) = d.read (p.child name) := by
  refine read_congr (fun e => ?_) (h [name] (List.cons_ne_nil _ _) (by simpa using Ne.symm hup))
  by_cases hnull : '\x00' ∈ name.toList
  · rw [locate_child_null hnull, locate_child_null hnull]
  · rw [locate_child_error_iff hnull hup, locate_child_error_iff hnull hup, hobstacle]

end Disk

/-! ## Evaluation on two disks -/

/-- Two disks on which a run that is confined to a directory reads the same. -/
def SameFiles (directory : Path) (disk disk' : Disk) : Prop :=
  ∀ name, disk'.read (Primitive.csvPath (some directory) name) =
    disk.read (Primitive.csvPath (some directory) name)

variable {directory : Path}

theorem sameFiles_of_agreeInside {disk disk' : Disk} (h : disk.AgreeInside disk' directory)
    (hobstacle : disk'.obstacle? directory = disk.obstacle? directory) :
    SameFiles directory disk disk' := by
  intro name
  -- whatever the name is made of, its last part is the name of a file
  obtain ⟨names, last, hparts, hlast⟩ :=
    Path.parts_ofString_ending (Path.isCsvName_append name)
  have hname : (Path.ofString (name ++ Csv.ending)).name = last := by simp [Path.name, hparts]
  have hpath : Primitive.csvPath (some directory) name = directory.child last := by
    rw [← hname]
    rfl
  rw [hpath]
  exact h.read_child hobstacle hlast.ne.2.2

namespace EvalM

variable {directory : Path} {disk disk' : Disk}

/-- Runs that are confined to a directory, on two disks that both stay as they are. -/
def Coupling.confined (h : SameFiles directory disk disk') : Coupling where
  Sync _ confinement d d' := confinement = some directory ∧ d = disk ∧ d' = disk'
  Halted depth depth' d d' := depth' = depth ∧ d = disk ∧ d' = disk'
  halted_of_sync h := ⟨rfl, h.2⟩
  read_eq := by
    rintro depth confinement d d' name ⟨rfl, rfl, rfl⟩
    exact h name
  sync_write := by
    rintro depth d d' ⟨hconfinement, -⟩
    cases hconfinement

theorem Coupling.steady_eval (h : SameFiles directory disk disk') (levels : Nat) (e : Expr)
    (expected : TypeRef) : (Coupling.confined h).congruence.Steady (eval levels e expected) :=
  Congruence.steady_eval (K := (confined h).congruence) (P := fun _ => True) trivial trivial
    (fun _ _ hs => .ok hs rfl) (fun _ _ hs => .ok hs rfl) (fun _ _ _ _ => trivial)
    (fun _ _ _ _ => trivial) (fun _ _ => trivial) levels trivial expected

end EvalM

/-! ## Programs -/

/-- A run that is confined to a directory does not see which of two disks it is on, and leaves it as
it is. -/
def Unseen (directory : Path) (disk disk' : Disk) {α : Type} (run : Machine → α × Machine) :
    Prop :=
  ∀ m, m.confinement = some directory → m.disk = disk →
    (run m).2.disk = disk ∧
      run { m with disk := disk' } = ((run m).1, { (run m).2 with disk := disk' })

section

variable {directory : Path} {disk disk' : Disk}

theorem run_halted_disk (halt : Halt) (m : Machine) (disk : Disk) :
    ((EvalM.halted halt).run m).2.disk = m.disk ∧
      (EvalM.halted halt).run { m with disk } =
        (((EvalM.halted halt).run m).1, { ((EvalM.halted halt).run m).2 with disk }) := by
  cases halt with
  | reported => exact ⟨rfl, rfl⟩
  | fault f =>
    rw [EvalM.halted]
    split <;> exact ⟨rfl, rfl⟩

theorem unseen_interpret (h : SameFiles directory disk disk') (root : Expr) :
    Unseen directory disk disk' (EvalM.interpret root).run := by
  rintro m hconfinement rfl
  have hboth := EvalM.Coupling.steady_eval h (EvalM.depthLimit + 1) root .any m disk'
    ⟨hconfinement, rfl, rfl⟩
  rw [EvalM.interpret_eq, EvalM.run_interpretBy, EvalM.run_interpretBy]
  generalize (EvalM.eval (EvalM.depthLimit + 1) root .any).exec m = outcome at hboth ⊢
  generalize (EvalM.eval (EvalM.depthLimit + 1) root .any).exec _ = outcome' at hboth ⊢
  cases hboth with
  | ok sync traced =>
    obtain ⟨-, hdisk, rfl⟩ := sync
    exact ⟨hdisk, rfl⟩
  | @halt halt n depth d halted =>
    obtain ⟨rfl, hdisk, rfl⟩ := halted
    obtain ⟨hkept, hsame⟩ := run_halted_disk halt n d
    exact ⟨hkept.trans hdisk, hsame⟩

theorem loadBuiltins_disk (builtins : List Builtin) (m : Machine) (disk : Disk) :
    loadBuiltins builtins { m with disk } = { loadBuiltins builtins m with disk } ∧
      (loadBuiltins builtins m).disk = m.disk ∧
      (loadBuiltins builtins m).confinement = m.confinement := by
  induction builtins generalizing m with
  | nil => exact ⟨rfl, rfl, rfl⟩
  | cons b builtins ih => exact ih (loadBuiltins [b] m)

theorem unseen_runProgram (h : SameFiles directory disk disk') (debugging : Bool) (root : Expr)
    (builtins : List Builtin) :
    Unseen directory disk disk' (runProgram debugging root builtins) := by
  intro m hconfinement hdisk
  unfold runProgram
  dsimp only
  obtain ⟨hload, hloadDisk, hloadConfinement⟩ := loadBuiltins_disk builtins
    { m with console := m.console.restart debugging, depth := 0, trace := [] } disk'
  rw [hload]
  generalize loadBuiltins builtins _ = loaded at hloadDisk hloadConfinement ⊢
  obtain ⟨hkept, hsame⟩ := unseen_interpret h root loaded (hloadConfinement.trans hconfinement)
    (hloadDisk.trans hdisk)
  rw [hsame]
  generalize (EvalM.interpret root).run loaded = outcome at hkept ⊢
  rcases outcome with ⟨f | r, n⟩
  · exact ⟨hkept, rfl⟩
  · dsimp only at hkept ⊢
    cases n.store.text r <;> exact ⟨hkept, rfl⟩

theorem unseen_execute (h : SameFiles directory disk disk') (debugging : Bool) (text : String) :
    Unseen directory disk disk' (execute debugging text) := by
  intro m hconfinement hdisk
  unfold execute
  dsimp only
  rcases scan debugging text m.console with ⟨_ | tokens, console⟩
  · exact ⟨hdisk, rfl⟩
  · dsimp only
    split
    · exact ⟨hdisk, rfl⟩
    · rcases parse debugging tokens m.store.types console with ⟨f | root, s⟩
      · exact ⟨hdisk, rfl⟩
      · dsimp only
        split
        · exact ⟨hdisk, rfl⟩
        · exact unseen_runProgram h debugging root s.builtins _ hconfinement hdisk

theorem unseen_executeDirect (h : SameFiles directory disk disk') (text : String) :
    Unseen directory disk disk' (executeDirect text) := by
  intro m hconfinement hdisk
  obtain ⟨hkept, hsame⟩ := unseen_execute h false text { m with scope := {}, console := {} }
    hconfinement hdisk
  unfold executeDirect
  dsimp only at hsame ⊢
  rw [hsame]
  generalize execute false text { m with scope := {}, console := {} } = outcome at hkept ⊢
  rcases outcome with ⟨f | _ | r, n⟩
  · exact ⟨hkept, rfl⟩
  · exact ⟨hkept, rfl⟩
  · dsimp only at hkept ⊢
    cases n.store.content r with
    | none => exact ⟨hkept, rfl⟩
    | _ => cases n.store.text r <;> exact ⟨hkept, rfl⟩

end

/-! ## Requests -/

namespace Service

open ServiceM

variable {σ : Type} [SessionStore σ]

/-- A step that is made on another disk ends alike, and leaves the disk that it is on as it is. -/
structure StepUnseen (s : Service σ) (disk : Disk) {α : Type} (x : ServiceOn σ α) : Prop where
  directory : (x.exec s).2.directory = s.directory
  kept : (x.exec s).2.machine.disk = s.machine.disk
  same : x.exec (s.withDisk disk) = ((x.exec s).1, (x.exec s).2.withDisk disk)

section

variable {s : Service σ} {disk : Disk} {α β : Type}

theorem stepUnseen_of_exec {x : ServiceOn σ α} {r : Except Failure α} {s' : Service σ}
    (h : x.exec s = (r, s')) (h' : x.exec (s.withDisk disk) = (r, s'.withDisk disk))
    (hdirectory : s'.directory = s.directory) (hdisk : s'.machine.disk = s.machine.disk) :
    StepUnseen s disk x := by
  refine ⟨?_, ?_, ?_⟩
  · rw [h, hdirectory]
  · rw [h, hdisk]
  · rw [h, h']

theorem StepUnseen.bind {x : ServiceOn σ α} {f : α → ServiceOn σ β}
    (hx : StepUnseen s disk x)
    (hf : ∀ a s', x.exec s = (.ok a, s') → s'.directory = s.directory →
      s'.machine.disk = s.machine.disk → StepUnseen s' disk (f a)) :
    StepUnseen s disk (x >>= f) := by
  obtain ⟨hdirectory, hdisk, hsame⟩ := hx
  rcases h : x.exec s with ⟨e | a, s'⟩
  · rw [h] at hdirectory hdisk hsame
    exact stepUnseen_of_exec (exec_bind_fail h) (exec_bind_fail hsame) hdirectory hdisk
  · rw [h] at hdirectory hdisk hsame
    obtain ⟨hdirectory', hdisk', hsame'⟩ := hf a s' h hdirectory hdisk
    exact stepUnseen_of_exec (exec_bind_of h) ((exec_bind_of hsame).trans hsame')
      (hdirectory'.trans hdirectory) (hdisk'.trans hdisk)

theorem stepUnseen_verify (s : Service σ) (disk : Disk) (cookie : Option String) :
    StepUnseen s disk (verify cookie) := by
  by_cases hkey : cookie.getD "" = ""
  · exact stepUnseen_of_exec (exec_verify_rejected hkey s) (exec_verify_rejected hkey _) rfl rfl
  · exact stepUnseen_of_exec (exec_verify_ok hkey s) (exec_verify_ok hkey _) rfl rfl

theorem stepUnseen_changeSession (s : Service σ) (disk : Disk) (key : String)
    (c : Session.Change) :
    StepUnseen s disk (changeSession key c) := by
  cases h : s.sessions.change key c with
  | error f =>
    exact stepUnseen_of_exec (exec_changeSession_fault h)
      (exec_changeSession_fault (s := s.withDisk disk) h) rfl rfl
  | ok sessions =>
    exact stepUnseen_of_exec (exec_changeSession_ok h)
      (exec_changeSession_ok (s := s.withDisk disk) h) rfl rfl

theorem stepUnseen_directoryOf (s : Service σ) (disk : Disk) (key : String) :
    StepUnseen s disk (directoryOf key) :=
  stepUnseen_of_exec (exec_directoryOf key s) (exec_directoryOf key (s.withDisk disk)) rfl rfl

theorem exec_runIn (directory : Path) (text : String) (s : Service σ) :
    (runIn directory text).exec s =
      (ServiceM.ofExcept
        (executeDirect text { s.machine with confinement := some directory }).1).exec
        { s with
          machine := (executeDirect text { s.machine with confinement := some directory }).2 } := by
  rw [runIn, exec_bind_get]
  rfl

theorem stepUnseen_runIn (h : SameFiles directory s.machine.disk disk) (text : String) :
    StepUnseen s disk (runIn directory text) := by
  obtain ⟨hdisk, hsame⟩ := unseen_executeDirect h text
    { s.machine with confinement := some directory } rfl rfl
  have hrun := exec_runIn directory text s
  have hrun' := exec_runIn directory text (s.withDisk disk)
  change executeDirect text { (s.withDisk disk).machine with confinement := some directory } = _
    at hsame
  rw [hsame] at hrun'
  generalize executeDirect text { s.machine with confinement := some directory } = outcome
    at hdisk hrun hrun'
  rcases outcome with ⟨f | t, machine⟩ <;> exact stepUnseen_of_exec hrun hrun' rfl hdisk

theorem StepUnseen.tryCatch {x : ServiceOn σ α} {handle : Failure → ServiceOn σ α}
    (hx : StepUnseen s disk x) (hhandle : ∀ e s', StepUnseen s' disk (handle e)) :
    StepUnseen s disk (tryCatch x handle) := by
  obtain ⟨hdirectory, hdisk, hsame⟩ := hx
  rcases h : x.exec s with ⟨e | a, s'⟩
  · rw [h] at hdirectory hdisk hsame
    obtain ⟨hdirectory', hdisk', hsame'⟩ := hhandle e s'
    exact stepUnseen_of_exec (exec_tryCatch_error h) ((exec_tryCatch_error hsame).trans hsame')
      (hdirectory'.trans hdirectory) (hdisk'.trans hdisk)
  · rw [h] at hdirectory hdisk hsame
    exact stepUnseen_of_exec (exec_tryCatch_ok h) (exec_tryCatch_ok hsame) hdirectory hdisk

end

/-- Running a program of a session neither sees nor changes anything on the disk outside of the
directory of the session, apart from what keeps the directory from being entered: on two disks that
agree in this, the answer is the same, the service is the same afterwards but for its disk, and the
disk is as before. -/
theorem interpret_confined (s : Service σ) (disk : Disk) (cookie : Option String) (text : String)
    (hinside : s.machine.disk.AgreeInside disk (s.sessionDirectory (cookie.getD "")))
    (hobstacle : disk.obstacle? (s.sessionDirectory (cookie.getD "")) =
      s.machine.disk.obstacle? (s.sessionDirectory (cookie.getD ""))) :
    ((interpret cookie text).exec s).2.machine.disk = s.machine.disk ∧
      (interpret cookie text).exec (s.withDisk disk) =
        (((interpret cookie text).exec s).1, ((interpret cookie text).exec s).2.withDisk disk) := by
  have hfiles := sameFiles_of_agreeInside hinside hobstacle
  have hunseen : StepUnseen s disk (interpret cookie text) := by
    refine .bind (stepUnseen_verify s disk cookie) fun key s₁ hkey hdir₁ hdisk₁ => ?_
    refine .bind (stepUnseen_changeSession s₁ disk key _) fun _ s₂ _ hdir₂ hdisk₂ => ?_
    refine .bind (stepUnseen_directoryOf s₂ disk key)
      fun directory s₃ hdirectory _ hdisk₃ => ?_
    refine .tryCatch (stepUnseen_runIn ?_ text) fun e _ => ?_
    rotate_left
    · cases e with
      | rejected r => exact ⟨rfl, rfl, rfl⟩
      | fault f =>
        dsimp only
        split <;> exact ⟨rfl, rfl, rfl⟩
    -- none of these steps touches the disk or the place of the directories
    obtain rfl : key = cookie.getD "" := by
      unfold verify at hkey
      split at hkey
      · cases hkey
      · cases hkey
        rfl
    obtain rfl : directory = s.sessionDirectory (cookie.getD "") := by
      rw [sessionDirectory, ← hdir₁, ← hdir₂]
      cases hdirectory
      rfl
    rwa [hdisk₃, hdisk₂, hdisk₁]
  exact ⟨hunseen.kept, hunseen.same⟩

/-- A service with one session, and files elsewhere. -/
def sharedDisk (elsewhere : Node) : Service where
  directory := Path.ofString "/csvs"
  sessions := ⟨[("S", {})]⟩
  machine := { Machine.initial with
    disk := { nodes := [(["csvs"], .directory), (["csvs", "S"], .directory),
      (["csvs", "S", "x.csv"], .file "1\r\n"), (["csvs", "x.csv"], elsewhere)] } }

/-- A path that leads out of the directory reads a file in it. -/
theorem interpret_confined_readingUp :
    let s := sharedDisk (.file "2\r\n")
    let disk := (sharedDisk .directory).machine.disk
    let text := "readCsv(${a: int}, \"../x\", false)"
    s.machine.disk.AgreeInside disk (s.sessionDirectory "S") ∧
      disk.obstacle? (s.sessionDirectory "S") = s.machine.disk.obstacle?
        (s.sessionDirectory "S") ∧
      ((interpret (some "S") text).exec s).2.machine.disk = s.machine.disk ∧
      (interpret (some "S") text).exec (s.withDisk disk) =
        (((interpret (some "S") text).exec s).1,
          ((interpret (some "S") text).exec s).2.withDisk disk) := by
  intro s disk text
  have hinside : s.machine.disk.AgreeInside disk (s.sessionDirectory "S") := by
    have henter : s.machine.disk.enter (s.sessionDirectory "S") = .ok ["csvs", "S"] := by
      decide +kernel
    have henter' : disk.enter (s.sessionDirectory "S") = .ok ["csvs", "S"] := by decide +kernel
    refine Disk.agreeInside_of_enter henter henter' fun rest => ?_
    simp [s, disk, sharedDisk, Disk.node?, List.lookup_cons]
  have hobstacle : disk.obstacle? (s.sessionDirectory "S") =
      s.machine.disk.obstacle? (s.sessionDirectory "S") := by
    decide +kernel
  exact ⟨hinside, hobstacle, interpret_confined s disk (some "S") text hinside hobstacle⟩

/-- A service with one session, whose directory is not there. -/
def withoutDirectory (nodes : List (Location × Node)) : Service where
  directory := Path.ofString "/csvs"
  sessions := ⟨[("S", {})]⟩
  machine := { Machine.initial with disk := { nodes } }

set_option maxRecDepth 100000 in
/-- A file in the place of a directory on the way shows in the answer, although there is nothing
inside of the directory of the session either way. -/
theorem interpret_tells_obstacle :
    let s := withoutDirectory []
    let disk := (withoutDirectory [(["csvs"], .file "")]).machine.disk
    let text := "readCsv(${a: int}, \"x\", false)"
    s.machine.disk.AgreeInside disk (s.sessionDirectory "S") ∧
      ((interpret (some "S") text).exec (s.withDisk disk)).1 ≠
        ((interpret (some "S") text).exec s).1 := by
  intro s disk text
  refine ⟨fun names hnames _ => ?_, by decide +kernel⟩
  have hnothing : s.machine.disk.enter (s.sessionDirectory "S") = .error .notFound := by
    decide +kernel
  have hfile : disk.enter (s.sessionDirectory "S") = .error .notDirectory := by decide +kernel
  rw [Disk.find?_join_of_enter_error hnothing hnames, Disk.find?_join_of_enter_error hfile hnames]

end Service

end TableScript
