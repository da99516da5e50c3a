import TableScript.Proofs.Disk
import TableScript.Service

/-!
# Requests step by step

`ServiceOn.exec` gives the outcome of a request together with the service after it.

* `Creates` lists the ways in which a request to create a file ends, with what it leaves behind.
  Before the number of files counts, the directory is made, and a file that has the name with the
  ending after it is taken away (`Cleared`).
* `Deletes` does so for a request to delete a file.
-/

namespace TableScript

open Disk

variable {σ : Type} [SessionStore σ]

namespace Service

/-- The service with another disk. -/
def withDisk (s : Service σ) (disk : Disk) : Service σ :=
  { s with machine := { s.machine with disk } }

/-- The directory of a session. -/
def sessionDirectory (s : Service σ) (key : String) : Path :=
  Path.ofString (s.directory.text ++ "/" ++ key)

theorem isPlain_sessionDirectory (s : Service σ) (key : String) :
    (s.sessionDirectory key).IsPlain :=
  Path.isPlain_ofString _

end Service

/-- The outcome of a step, and the service after it. -/
def ServiceOn.exec {α : Type} (x : ServiceOn σ α) (s : Service σ) :
    Except Failure α × Service σ :=
  x.run.run s

namespace ServiceM

open Service

variable {α β : Type} {s s' : Service σ}

theorem exec_bind (x : ServiceOn σ α) (f : α → ServiceOn σ β) (s : Service σ) :
    (x >>= f).exec s =
      match x.exec s with
      | (.ok a, s') => (f a).exec s'
      | (.error e, s') => (.error e, s') := by
  unfold ServiceOn.exec
  rw [ExceptT.run_bind, StateT.run_bind]
  rcases StateT.run (ExceptT.run x) s with ⟨_ | a, s'⟩ <;> rfl

variable {x : ServiceOn σ α} {f : Fault} {a : α}

theorem exec_bind_of {f : α → ServiceOn σ β} (h : x.exec s = (.ok a, s')) :
    (x >>= f).exec s = (f a).exec s' := by
  rw [exec_bind, h]

theorem exec_bind_fail {f : α → ServiceOn σ β} {e : Failure} (h : x.exec s = (.error e, s')) :
    (x >>= f).exec s = (.error e, s') := by
  rw [exec_bind, h]

theorem exec_bind_get {f : Service σ → ServiceOn σ β} : (get >>= f).exec s = (f s).exec s :=
  rfl

theorem exec_bind_disk {f : Disk → ServiceOn σ β} :
    (disk >>= f).exec s = (f s.machine.disk).exec s := rfl

theorem exec_ofExcept_ok {r : Except Fault α} (h : r = .ok a) (s : Service σ) :
    (ofExcept r).exec s = (.ok a, s) := by
  subst h
  rfl

theorem exec_ofExcept_fault {r : Except Fault α} (h : r = .error f) (s : Service σ) :
    (ofExcept r).exec s = (.error (.fault f), s) := by
  subst h
  rfl

theorem exec_changeDisk_ok {f : Disk → Except Fault Disk} {d : Disk}
    (h : f s.machine.disk = .ok d) : (changeDisk f).exec s = (.ok (), s.withDisk d) := by
  rw [changeDisk, exec_bind_disk, exec_bind_of (exec_ofExcept_ok h s)]
  rfl

theorem exec_changeDisk_fault {f : Disk → Except Fault Disk} {e : Fault}
    (h : f s.machine.disk = .error e) : (changeDisk f).exec s = (.error (.fault e), s) := by
  rw [changeDisk, exec_bind_disk, exec_bind_fail (exec_ofExcept_fault h s)]

variable {key : String} {c : Session.Change} {r : Fault → Rejection}

theorem exec_changeSession_ok {sessions : Sessions σ}
    (h : s.sessions.change key c = .ok sessions) :
    (changeSession key c).exec s = (.ok (), { s with sessions }) := by
  rw [changeSession, exec_bind_get, exec_bind_of (exec_ofExcept_ok h s)]
  rfl

theorem exec_changeSession_fault (h : s.sessions.change key c = .error f) :
    (changeSession key c).exec s = (.error (.fault f), s) := by
  rw [changeSession, exec_bind_get, exec_bind_fail (exec_ofExcept_fault h s)]

section

variable {handle : Failure → ServiceOn σ α}

theorem exec_tryCatch (x : ServiceOn σ α) (s : Service σ) :
    (tryCatch x handle).exec s =
      match x.exec s with
      | (.ok a, s') => (.ok a, s')
      | (.error e, s') => (handle e).exec s' := by
  show StateT.run (ExceptT.tryCatch x _).run s = _
  unfold ExceptT.tryCatch ServiceOn.exec
  rw [ExceptT.run_mk, StateT.run_bind]
  change (bind (StateT.run x.run s) _ : Id _) = _
  rcases StateT.run (ExceptT.run x) s with ⟨e | a, s'⟩ <;> rfl

theorem exec_tryCatch_ok (h : x.exec s = (.ok a, s')) :
    (tryCatch x handle).exec s = (.ok a, s') := by
  rw [exec_tryCatch, h]

theorem exec_tryCatch_error {e : Failure} (h : x.exec s = (.error e, s')) :
    (tryCatch x handle).exec s = (handle e).exec s' := by
  rw [exec_tryCatch, h]

end

theorem exec_rejecting_ok (h : x.exec s = (.ok a, s')) : (rejecting r x).exec s = (.ok a, s') :=
  exec_tryCatch_ok h

theorem exec_rejecting_fault (h : x.exec s = (.error (.fault f), s')) :
    (rejecting r x).exec s = (.error (.rejected (r f)), s') :=
  exec_tryCatch_error h

end ServiceM

/-! ## Sessions -/

namespace Sessions

variable {ss : Sessions σ} {key : String}

theorem read_write (ss : Sessions σ) (key : String) (session : Session) :
    (ss.write key session).read key = .ok session := by
  rw [read, write, SessionStore.find?_put, if_pos rfl]

variable {session : Session}

section

variable (h : ss.read key = .ok session) (field : Session.Field)

include h

theorem change_add (item : String) :
    ss.change key (.add field item) =
      .ok (ss.write key (session.set (session.get field ++ [item]) field)) := by
  rw [change, h]
  rfl

variable {item : String}

theorem change_remove_ok (hmem : item ∈ session.get field) :
    ss.change key (.remove field item) =
      .ok (ss.write key (session.set ((session.get field).erase item) field)) := by
  rw [change, h]
  show (session.apply _ >>= _) = _
  rw [Session.apply, if_pos hmem]
  rfl

theorem change_remove_fault (hmem : item ∉ session.get field) :
    ss.change key (.remove field item) = .error .notListed := by
  rw [change, h]
  show (session.apply _ >>= _) = _
  rw [Session.apply, if_neg hmem]
  rfl

end

end Sessions

namespace Service

open ServiceM

/-! ## Creating a file -/

/-- The name of the file for a name, whose ending may be left out. -/
def csvName (name : String) : String :=
  if Csv.ending.toList.isSuffixOf name.toList then name else name ++ Csv.ending

theorem isCsvName_csvName (name : String) : Path.IsCsvName (csvName name) := by
  unfold csvName
  split
  · next h => exact List.isSuffixOf_iff_suffix.mp h
  · exact Path.isCsvName_append name

variable {name : String} {limits : Limits} {sheet : Sheet}

theorem slash_not_mem_of_check (h : checkSheet limits name sheet = none) : '/' ∉ name.toList := by
  intro hmem
  have hbad : name.toList.any isBadInName = true := List.any_eq_true.mpr ⟨_, hmem, rfl⟩
  cases sheet with
  | nil => cases h
  | cons first rows =>
    rw [checkSheet, if_pos hbad] at h
    split_ifs at h

theorem slash_not_mem_csvName (h : '/' ∉ name.toList) : '/' ∉ (csvName name).toList := by
  unfold csvName
  split
  · exact h
  · simpa [Csv.ending] using h

theorem filePath_of_slash (h : '/' ∉ name.toList) (directory : Path) :
    filePath directory name = directory.child (csvName name) := by
  show directory.join (Path.ofString (csvName name)) = _
  rw [Path.ofString_name (isCsvName_csvName name) (slash_not_mem_csvName h)]
  rfl

theorem filePath_of_check (h : checkSheet limits name sheet = none) (directory : Path) :
    filePath directory name = directory.child (csvName name) :=
  filePath_of_slash (slash_not_mem_of_check h) directory

theorem filePath_of_text {directory : Path} (hdirectory : directory.IsPlain) {other : String}
    (hcsv : Path.IsCsvName other) (hslash : '/' ∉ other.toList)
    (htext : (filePath directory name).text = (directory.child other).text) :
    filePath directory name = directory.child other := by
  refine Path.eq_of_text_eq (hdirectory.join (Path.isPlain_ofString _)) (hdirectory.join ?_) htext
  exact ⟨.inl rfl, by simpa using ⟨hcsv.ne.1, hcsv.ne.2.1, hslash⟩⟩

theorem filePath_eq_child (directory : Path) (name : String) :
    Path.IsCsvName (filePath directory name).name ∧
      ∃ before : Path, filePath directory name = before.child (filePath directory name).name := by
  obtain ⟨names, last, hparts, hlast⟩ := Path.parts_ofString_ending (isCsvName_csvName name)
  have hchild : ∃ before : Path, filePath directory name = before.child last := by
    show ∃ before : Path, directory.join (Path.ofString (csvName name)) = before.child last
    unfold Path.join
    split
    · refine ⟨{ Path.ofString (csvName name) with parts := names }, ?_⟩
      rw [Path.child_eq, ← hparts]
    · exact ⟨{ directory with parts := directory.parts ++ names }, by simp [Path.child_eq,
        hparts]⟩
  obtain ⟨before, hbefore⟩ := hchild
  have hname : (filePath directory name).name = last := by simp [hbefore, Path.name, Path.child_eq]
  exact hname ▸ ⟨hlast, before, hbefore⟩

/-- The path that a request looks at before it writes. It takes the ending for left out. -/
def twinPath (directory : Path) (name : String) : Path :=
  directory.child (name ++ Csv.ending)

/-- The text of a file that is sent, and whether all rows are in it. -/
def written (sheet : Sheet) (headers : Bool) : String × Except Fault Unit :=
  Csv.write (if headers then sheet else sheet.tail)

/-- A disk from which the file at a path has been taken away, if there was one. -/
inductive Cleared (d : Disk) (p : Path) : Disk → Prop
  | absent (probe : d.probe p = .ok false) : Cleared d p d
  | removed {place : Location} {text : String} (locate : d.locate p = .ok place)
    (file : d.node? place = some (.file text)) : Cleared d p (d.remove (· == place))

/-- Something is in the way before the file is looked at: the directory is not there and is not
made, the name is too long, or it is that of a directory. -/
def Blocked (d : Disk) (directory : Path) (name : String) : Prop :=
  d.isDirectory directory = false ∨ Disk.nameLimit < (name ++ Csv.ending).utf8ByteSize ∨
    d.find? (twinPath directory name) = some .directory

instance (d : Disk) (directory : Path) (name : String) : Decidable (Blocked d directory name) :=
  inferInstanceAs (Decidable (_ ∨ _ ∨ _))

/-- A request has been checked, its way has been cleared, and its session is known. -/
structure Ready (directory : Path) (key name : String) (sheet : Sheet) (s : Service σ) (d : Disk)
    (session : Session) : Prop where
  check : checkSheet s.limits name sheet = none
  cleared : Cleared (s.machine.disk.withDirectory directory) (twinPath directory name) d
  read : s.sessions.read key = .ok session

/-- A request comes to the point where the way is cleared. -/
structure Clears (directory : Path) (key name : String) (sheet : Sheet) (s : Service σ)
    (session : Session) : Prop where
  check : checkSheet s.limits name sheet = none
  clear : ¬ Blocked (s.machine.disk.withDirectory directory) directory name
  read : s.sessions.read key = .ok session

/-- A file is taken away and not written again: too many files have been counted after that, or the
request goes on with another path. -/
def Loses (directory : Path) (name : String) (s : Service σ) (session : Session) : Prop :=
  (s.machine.disk.withDirectory directory).holdsFile (twinPath directory name) = true ∧
    (s.limits.files ≤ session.files.length ∨
      filePath directory name ≠ twinPath directory name)

/-- How a request to create a file ends, and what it leaves. -/
inductive Creates (directory : Path) (key name : String) (sheet : Sheet) (headers : Bool)
    (s : Service σ) : Except Failure Unit × Service σ → Prop
  /-- The name or the rows are rejected. -/
  | refused {r : Rejection} (check : checkSheet s.limits name sheet = some r) :
    Creates directory key name sheet headers s (.error (.rejected r), s)
  /-- The request breaks down, and at most a directory has been made. -/
  | broke {f : Fault} {d : Disk}
    (made : d = s.machine.disk ∨ d = s.machine.disk.withDirectory directory)
    (blocked : Blocked (s.machine.disk.withDirectory directory) directory name) :
    Creates directory key name sheet headers s (.error (.fault f), s.withDisk d)
  /-- There is no session. -/
  | lost {f : Fault} {d : Disk} (read : s.sessions.read key = .error f)
    (cleared : Cleared (s.machine.disk.withDirectory directory) (twinPath directory name) d) :
    Creates directory key name sheet headers s (.error (.fault f), s.withDisk d)
  /-- The session has too many files. -/
  | full {d : Disk} {session : Session} (ready : Ready directory key name sheet s d session)
    (full : s.limits.files ≤ session.files.length) :
    Creates directory key name sheet headers s (.error (.rejected .tooManyFiles), s.withDisk d)
  /-- The file cannot be written. -/
  | unwritten {f : Fault} {d : Disk} {session : Session}
    (ready : Ready directory key name sheet s d session)
    (room : session.files.length < s.limits.files)
    (write : d.write (filePath directory name) (written sheet headers).1 = .error f) :
    Creates directory key name sheet headers s (.error (.rejected (.writing f)), s.withDisk d)
  /-- A part of the file has been written. -/
  | partly {f : Fault} {d d' : Disk} {session : Session}
    (ready : Ready directory key name sheet s d session)
    (room : session.files.length < s.limits.files)
    (write : d.write (filePath directory name) (written sheet headers).1 = .ok d')
    (outcome : (written sheet headers).2 = .error f) :
    Creates directory key name sheet headers s (.error (.rejected (.writing f)), s.withDisk d')
  /-- The file has been written, and is in the list of the session. -/
  | done {d d' : Disk} {session : Session} (ready : Ready directory key name sheet s d session)
    (room : session.files.length < s.limits.files)
    (write : d.write (filePath directory name) (written sheet headers).1 = .ok d')
    (outcome : (written sheet headers).2 = .ok ()) :
    Creates directory key name sheet headers s (.ok (), { s.withDisk d' with
      sessions := s.sessions.write key
        { session with files := session.files ++ [(filePath directory name).text] } })

section

variable {directory : Path} {key name : String} {sheet : Sheet} {d : Disk} {f : Fault}
  {place : Location}

theorem blocked_of_probe (h : d.probe (twinPath directory name) = .error f) :
    Blocked d directory name := by
  have hlong := locate_of_probe h
  have hup : name ++ Csv.ending ≠ ".." := (Path.isCsvName_append name).ne.2.2
  by_cases hnull : '\x00' ∈ (name ++ Csv.ending).toList
  · rw [twinPath, locate_child_null hnull] at hlong
    cases hlong
  · rw [twinPath, locate_child hnull hup] at hlong
    cases henter : d.enter directory with
    | error e => exact .inl (isDirectory_of_enter_error henter)
    | ok place =>
      rw [henter] at hlong
      change (if _ then _ else _) = _ at hlong
      split at hlong
      · exact .inr (.inl ‹_›)
      · cases hlong

theorem blocked_of_removeFile (hholds : d.holds (twinPath directory name) = true)
    (h : d.removeFile (twinPath directory name) = .error f) : Blocked d directory name := by
  refine .inr (.inr ?_)
  unfold removeFile at h
  unfold holds at hholds
  unfold find? at hholds ⊢
  cases hlocate : d.locate (twinPath directory name) with
  | error e => simp [hlocate] at hholds
  | ok place =>
    simp only [hlocate] at h hholds ⊢
    split at h
    · simp_all
    · assumption
    · cases h

theorem blocked_of_made
    (h : ¬ (d.probe directory = .ok true ∧ d.withDirectory directory = d ∨
      d.probe directory = .ok false ∧
        d.makeDirectory directory = .ok (d.withDirectory directory))) :
    Blocked (d.withDirectory directory) directory name := by
  cases henter : (d.withDirectory directory).enter directory with
  | error e => exact .inl (isDirectory_of_enter_error henter)
  | ok place => exact absurd (made_of_enter henter) h

namespace Cleared

variable {made : Disk} {p : Path}

theorem sameDirectories (h : Cleared made p d) : made.SameDirectories d := by
  cases h with
  | absent => exact ⟨rfl, fun _ => Iff.rfl⟩
  | removed _ hfile => exact sameDirectories_remove hfile

theorem file?_of_locate (h : Cleared made p d) (hplace : made.locate p = .ok place) :
    d.file? place = none := by
  cases h with
  | absent hprobe =>
    have hholds := holds_of_probe hprobe
    rw [holds_of_locate hplace, Option.isSome_eq_false_iff,
      Option.isNone_iff_eq_none] at hholds
    rw [file?, hholds]
  | removed hlocate hfile =>
    obtain rfl : _ = place := Except.ok.inj (hlocate.symm.trans hplace)
    rw [file?_remove (ne_nil_of_file hfile), if_pos rfl]

theorem node?_of_ne (h : Cleared made p d) (hplace : made.locate p ≠ .ok place) :
    d.node? place = made.node? place := by
  cases h with
  | absent => rfl
  | removed hlocate hfile =>
    rw [node?_remove (ne_nil_of_file hfile), if_neg]
    rintro rfl
    exact hplace hlocate

theorem not_blocked (h : Cleared made (twinPath directory name) d) {parent : Location}
    (henter : made.enter directory = .ok parent) (hnull : '\x00' ∉ name.toList) :
    ¬ Blocked made directory name := by
  have hup : name ++ Csv.ending ≠ ".." := (Path.isCsvName_append name).ne.2.2
  have hnull' : '\x00' ∉ (name ++ Csv.ending).toList := by simpa [Csv.ending] using hnull
  rintro (hdirectory | hlong | hfind)
  · rw [isDirectory_iff.mpr ⟨parent, henter⟩] at hdirectory
    cases hdirectory
  · have hlocate : made.locate (twinPath directory name) = .error .nameTooLong := by
      rw [twinPath, locate_child hnull' hup, henter]
      exact if_pos hlong
    cases h with
    | absent hprobe =>
      rw [probe, hlocate] at hprobe
      cases hprobe
    | removed hplace =>
      rw [hlocate] at hplace
      cases hplace
  · cases h with
    | absent hprobe =>
      have hholds := holds_of_probe hprobe
      rw [holds, hfind] at hholds
      cases hholds
    | removed hplace hfile =>
      rw [find?, hplace] at hfind
      dsimp only at hfind
      rw [hfile] at hfind
      cases hfind

end Cleared

variable {cookie : Option String} {s : Service σ}

theorem exec_session_ok {session : Session} (h : s.sessions.read key = .ok session) :
    (ServiceM.session key).exec s = (.ok session, s) := by
  rw [ServiceM.session, exec_bind_get, exec_ofExcept_ok h]

theorem exec_session_fault (h : s.sessions.read key = .error f) :
    (ServiceM.session key).exec s = (.error (.fault f), s) := by
  rw [ServiceM.session, exec_bind_get, exec_ofExcept_fault h]

/-- What getting ready for a file comes to: it ends the request, or leaves a cleared disk and a
session with room. -/
inductive Prepares (directory : Path) (key name : String) (sheet : Sheet) (s : Service σ) :
    Except Failure Unit × Service σ → Prop
  | stopped {e : Failure} {s' : Service σ}
    (h : ∀ headers, Creates directory key name sheet headers s (.error e, s')) :
    Prepares directory key name sheet s (.error e, s')
  | ready {d : Disk} {session : Session} (ready : Ready directory key name sheet s d session)
    (room : session.files.length < s.limits.files) :
    Prepares directory key name sheet s (.ok (), s.withDisk d)

/-- The end of getting ready: now the number of files counts. -/
def countFiles (key : String) : ServiceOn σ Unit := do
  if (← get).limits.files ≤ (← ServiceM.session key).files.length then reject .tooManyFiles

theorem prepares_counting (hcheck : checkSheet s.limits name sheet = none)
    (hcleared : Cleared (s.machine.disk.withDirectory directory) (twinPath directory name) d) :
    Prepares directory key name sheet s ((countFiles key).exec (s.withDisk d)) := by
  rw [countFiles, exec_bind_get]
  cases hread : s.sessions.read key with
  | error f =>
    rw [exec_bind_fail (exec_session_fault (s := s.withDisk d) hread)]
    exact .stopped fun _ => .lost hread hcleared
  | ok session =>
    rw [exec_bind_of (exec_session_ok (s := s.withDisk d) hread)]
    show Prepares _ _ _ _ _
      ((if s.limits.files ≤ session.files.length then _ else _ : ServiceOn σ Unit).exec _)
    by_cases hfull : s.limits.files ≤ session.files.length
    · rw [if_pos hfull]
      exact .stopped fun _ => .full ⟨hcheck, hcleared, hread⟩ hfull
    · rw [if_neg hfull]
      exact .ready ⟨hcheck, hcleared, hread⟩ (not_le.mp hfull)

/-- A file that has the name with the ending after it is taken away. -/
theorem prepares_clearing (hcheck : checkSheet s.limits name sheet = none)
    (hd : d = s.machine.disk.withDirectory directory) :
    Prepares directory key name sheet s ((do
      let before ← ServiceM.disk
      let there ← ofExcept (before.probe (twinPath directory name))
      if there = true then do
        let _ ← changeDisk (·.removeFile (twinPath directory name))
        countFiles key
      else countFiles key : ServiceOn σ Unit).exec (s.withDisk d)) := by
  subst hd
  set made := s.machine.disk.withDirectory directory
  rw [exec_bind_disk]
  show Prepares _ _ _ _ _ ((ofExcept (made.probe _) >>= _ : ServiceOn σ Unit).exec _)
  cases hprobe : made.probe (twinPath directory name) with
  | error f =>
    rw [exec_bind_fail (exec_ofExcept_fault rfl _)]
    exact .stopped fun _ => .broke (.inr rfl) (blocked_of_probe hprobe)
  | ok there =>
    have hholds := holds_of_probe hprobe
    rw [exec_bind_of (exec_ofExcept_ok rfl _)]
    cases there with
    | false =>
      rw [if_neg Bool.false_ne_true]
      exact prepares_counting hcheck (.absent hprobe)
    | true =>
      rw [if_pos rfl]
      cases hremove : made.removeFile (twinPath directory name) with
      | error f =>
        rw [exec_bind_fail (exec_changeDisk_fault (s := s.withDisk made) hremove)]
        exact .stopped fun _ => .broke (.inr rfl) (blocked_of_removeFile hholds hremove)
      | ok after =>
        rw [exec_bind_of (exec_changeDisk_ok (s := s.withDisk made) hremove)]
        obtain ⟨place, text, hlocate, hfile, rfl⟩ := removeFile_eq_ok_iff.mp hremove
        exact prepares_counting hcheck (.removed hlocate hfile)

theorem prepares_prepareFile (directory : Path) (key name : String) (sheet : Sheet)
    (s : Service σ) :
    Prepares directory key name sheet s ((prepareFile directory key name sheet).exec s) := by
  rw [prepareFile, exec_bind_get]
  dsimp only
  cases hcheck : checkSheet s.limits name sheet with
  | some r => exact .stopped fun _ => .refused hcheck
  | none =>
    dsimp only
    rw [exec_bind_disk]
    cases hprobe : s.machine.disk.probe directory with
    | error f =>
      rw [exec_bind_fail (exec_ofExcept_fault rfl s)]
      -- a name on the way is too long, so that the directory is not made either
      refine .stopped fun _ => .broke (d := s.machine.disk) (.inl rfl) (blocked_of_made ?_)
      rintro (⟨h, -⟩ | ⟨h, -⟩) <;> rw [h] at hprobe <;> cases hprobe
    | ok there =>
      have hholds := holds_of_probe hprobe
      rw [exec_bind_of (exec_ofExcept_ok rfl s)]
      cases there with
      | true =>
        rw [if_pos rfl]
        exact prepares_clearing hcheck (withDirectory_of_holds hholds).symm
      | false =>
        rw [if_neg Bool.false_ne_true]
        cases hmade : s.machine.disk.makeDirectory directory with
        | error f =>
          rw [exec_bind_fail (exec_changeDisk_fault hmade)]
          refine .stopped fun _ =>
            .broke (d := s.machine.disk) (.inl rfl) (blocked_of_made ?_)
          rintro (⟨h, -⟩ | ⟨-, h⟩)
          · rw [h] at hprobe
            cases hprobe
          · rw [h] at hmade
            cases hmade
        | ok made =>
          rw [exec_bind_of (exec_changeDisk_ok hmade)]
          exact prepares_clearing hcheck (withDirectory_of_made hholds hmade).symm

theorem writeFile_eq (path : Path) (key : String) (sheet : Sheet) (headers : Bool) :
    writeFile (σ := σ) path key sheet headers = rejecting .writing (do
      changeDisk (·.write path (written sheet headers).1)
      ofExcept (written sheet headers).2
      changeSession key (.add .files path.text)) :=
  rfl

theorem creates_createFile (directory : Path) (key name : String) (sheet : Sheet) (headers : Bool)
    (s : Service σ) :
    Creates directory key name sheet headers s
      ((createFile directory key name sheet headers).exec s) := by
  have hprepares := prepares_prepareFile directory key name sheet s
  rw [createFile]
  generalize hprepare : (prepareFile directory key name sheet).exec s = outcome at hprepares
  cases hprepares with
  | stopped h =>
    rw [exec_bind_fail hprepare]
    exact h headers
  | @ready d session ready room =>
    rw [exec_bind_of hprepare, writeFile_eq]
    cases hwrite : d.write (filePath directory name) (written sheet headers).1 with
    | error f =>
      have hchange := exec_changeDisk_fault (s := s.withDisk d)
        (f := (·.write (filePath directory name) (written sheet headers).1)) hwrite
      rw [exec_rejecting_fault (exec_bind_fail hchange)]
      exact .unwritten ready room hwrite
    | ok d' =>
      have hchange := exec_changeDisk_ok (s := s.withDisk d)
        (f := (·.write (filePath directory name) (written sheet headers).1)) hwrite
      cases houtcome : (written sheet headers).2 with
      | error f =>
        rw [exec_rejecting_fault ((exec_bind_of hchange).trans
          (exec_bind_fail (exec_ofExcept_fault rfl _)))]
        exact .partly ready room hwrite houtcome
      | ok =>
        have hsession := Sessions.change_add ready.read .files (filePath directory name).text
        rw [exec_rejecting_ok ((exec_bind_of hchange).trans
          ((exec_bind_of (exec_ofExcept_ok rfl _)).trans
            (exec_changeSession_ok (s := (s.withDisk d).withDisk d') hsession)))]
        exact .done ready room hwrite houtcome

namespace Ready

variable {s : Service σ} {session : Session}

section

variable (h : Ready directory key name sheet s d session)
include h

variable {P : Session → Prop} {text : String}

theorem exists_clears_iff :
    (∃ other, Clears directory key name sheet s other ∧ P other) ↔
      Clears directory key name sheet s session ∧ P session := by
  refine ⟨?_, fun hclears => ⟨session, hclears⟩⟩
  rintro ⟨other, hclears, hother⟩
  obtain rfl : other = session := Except.ok.inj (hclears.read.symm.trans h.read)
  exact ⟨hclears, hother⟩

theorem clears_of_holdsFile
    (hfile : (s.machine.disk.withDirectory directory).holdsFile (twinPath directory name) = true) :
    Clears directory key name sheet s session := by
  obtain ⟨place, text, hlocate, -⟩ := holdsFile_iff.mp hfile
  obtain ⟨hnull, -, parent, henter, -⟩ :=
    (locate_child_eq_ok_iff (Path.isCsvName_append name).ne.2.2).mp hlocate
  exact ⟨h.check, h.cleared.not_blocked henter (by simp_all), h.read⟩

theorem clears_of_locate (hlocate :
      (s.machine.disk.withDirectory directory).locate (filePath directory name) = .ok place) :
    Clears directory key name sheet s session := by
  rw [filePath_of_check h.check] at hlocate
  obtain ⟨hnull, -, parent, henter, -⟩ :=
    (locate_child_eq_ok_iff (isCsvName_csvName name).ne.2.2).mp hlocate
  have hname : '\x00' ∉ name.toList := by
    unfold csvName at hnull
    split at hnull
    · exact hnull
    · simp_all
  exact ⟨h.check, h.cleared.not_blocked henter hname, h.read⟩

theorem locate_of_write {d' : Disk} (hwrite : d.write (filePath directory name) text = .ok d') :
    ∃ place, (s.machine.disk.withDirectory directory).locate (filePath directory name) =
      .ok place ∧
      (s.machine.disk.withDirectory directory).node? place ≠ some .directory ∧ place ≠ [] ∧
      d' = d.set place (.file text) := by
  obtain ⟨place, hlocate, hnode, hd'⟩ := write_eq_ok_iff.mp hwrite
  have hsame := h.cleared.sameDirectories
  exact ⟨place, (locate_eq_ok_iff hsame).mp hlocate, mt (hsame.directory place).mpr hnode,
    ne_nil_of_node? hnode, hd'⟩

theorem not_writable_of_write (hwrite : d.write (filePath directory name) text = .error f) :
    ¬ (s.machine.disk.withDirectory directory).Writable (filePath directory name) := by
  rintro ⟨place, hlocate, hnode⟩
  have hsame := h.cleared.sameDirectories
  rw [write_eq_ok_iff.mpr
    ⟨place, hsame.locate hlocate, mt (hsame.directory place).mp hnode, rfl⟩] at hwrite
  cases hwrite

/-- Where a request ends without writing, the file that was in the way is lost. -/
theorem stopped_iff (hP : P session → session.files.length < s.limits.files ∧
      (s.machine.disk.withDirectory directory).Writable (filePath directory name))
    (hstop : s.limits.files ≤ session.files.length ∨
      ¬ (s.machine.disk.withDirectory directory).Writable (filePath directory name)) :
    (∃ other, Clears directory key name sheet s other ∧
      (Loses directory name s other ∨ P other)) ↔
      (s.machine.disk.withDirectory directory).holdsFile (twinPath directory name) = true := by
  rw [h.exists_clears_iff]
  refine ⟨?_, fun hfile => ⟨h.clears_of_holdsFile hfile, .inl ⟨hfile, ?_⟩⟩⟩
  · rintro ⟨-, ⟨hfile, -⟩ | hp⟩
    · exact hfile
    · obtain ⟨hroom, hwritable⟩ := hP hp
      exact (hstop.elim (not_le.mpr hroom) (absurd hwritable)).elim
  · -- a file could be written over
    refine hstop.imp_right fun hwritable hpath => hwritable ?_
    obtain ⟨place, text, hlocate, hnode⟩ := holdsFile_iff.mp hfile
    exact ⟨place, hpath ▸ hlocate, by simp [hnode]⟩

end

end Ready

/-! ## Deleting a file -/

/-- How a request to delete a file ends, and what it leaves. -/
inductive Deletes (directory : Path) (key name : String) (s : Service σ) :
    Except Failure Unit × Service σ → Prop
  /-- There is no file to delete. -/
  | absent {r : Except Failure Unit}
    (h : ∀ place text, s.machine.disk.locate (filePath directory name) = .ok place →
      s.machine.disk.node? place ≠ some (.file text)) :
    Deletes directory key name s (r, s)
  /-- The file is deleted and taken out of the list of the session. -/
  | done {place : Location} {text : String} {session : Session}
    (locate : s.machine.disk.locate (filePath directory name) = .ok place)
    (file : s.machine.disk.node? place = some (.file text))
    (read : s.sessions.read key = .ok session)
    (listed : (filePath directory name).text ∈ session.files) :
    Deletes directory key name s (.ok (), { s.withDisk (s.machine.disk.remove (· == place)) with
      sessions := s.sessions.write key
        { session with files := session.files.erase (filePath directory name).text } })
  /-- The file is deleted, but it is not in the list of the session. -/
  | unlisted {place : Location} {text : String} {session : Session}
    (locate : s.machine.disk.locate (filePath directory name) = .ok place)
    (file : s.machine.disk.node? place = some (.file text))
    (read : s.sessions.read key = .ok session)
    (unlisted : (filePath directory name).text ∉ session.files) :
    Deletes directory key name s (.error (.rejected (.deleting .notListed)),
      s.withDisk (s.machine.disk.remove (· == place)))
  /-- The file is deleted, but there is no session. -/
  | lost {f : Fault} {place : Location} {text : String} (read : s.sessions.read key = .error f)
    (locate : s.machine.disk.locate (filePath directory name) = .ok place)
    (file : s.machine.disk.node? place = some (.file text)) :
    Deletes directory key name s (.error (.rejected (.deleting f)),
      s.withDisk (s.machine.disk.remove (· == place)))

theorem deletes_deleteFile (directory : Path) (key name : String) (s : Service σ) :
    Deletes directory key name s ((deleteFile directory key name).exec s) := by
  rw [deleteFile, exec_bind_disk]
  by_cases hholds : s.machine.disk.holds (filePath directory name) = true
  · rw [if_pos hholds]
    cases hremove : s.machine.disk.removeFile (filePath directory name) with
    | error f =>
      have hchange :=
        exec_changeDisk_fault (f := (·.removeFile (filePath directory name))) hremove
      rw [exec_rejecting_fault (exec_bind_fail hchange)]
      refine .absent fun place text hlocate hfile => ?_
      rw [removeFile_eq_ok_iff.mpr ⟨place, text, hlocate, hfile, rfl⟩] at hremove
      cases hremove
    | ok d =>
      obtain ⟨place, text, hlocate, hfile, hd⟩ := removeFile_eq_ok_iff.mp hremove
      have hchange := exec_changeDisk_ok (f := (·.removeFile (filePath directory name))) hremove
      cases hread : s.sessions.read key with
      | error f =>
        have hsession : s.sessions.change key
            (.remove .files (filePath directory name).text) = .error f := by
          rw [Sessions.change, hread]
          rfl
        rw [exec_rejecting_fault ((exec_bind_of hchange).trans
          (exec_changeSession_fault (s := s.withDisk d) hsession))]
        subst hd
        exact .lost hread hlocate hfile
      | ok session =>
        by_cases hlisted : (filePath directory name).text ∈ session.files
        · have hsession := Sessions.change_remove_ok hread .files hlisted
          rw [exec_rejecting_ok ((exec_bind_of hchange).trans
            (exec_changeSession_ok (s := s.withDisk d) hsession))]
          subst hd
          exact .done hlocate hfile hread hlisted
        · have hsession := Sessions.change_remove_fault hread .files hlisted
          rw [exec_rejecting_fault ((exec_bind_of hchange).trans
            (exec_changeSession_fault (s := s.withDisk d) hsession))]
          subst hd
          exact .unlisted hlocate hfile hread hlisted
  · rw [if_neg hholds]
    refine .absent fun place text hlocate hfile => hholds ?_
    rw [holds_of_locate hlocate, hfile]
    rfl

/-! ## Requests -/

theorem exec_directoryOf (key : String) (s : Service σ) :
    (directoryOf key).exec s = (.ok (s.sessionDirectory key), s) := rfl

theorem exec_verify_ok (h : cookie.getD "" ≠ "") (s : Service σ) :
    (verify cookie).exec s = (.ok (cookie.getD ""), s) := by
  unfold verify
  split
  · exact absurd ‹_› h
  · rfl

theorem exec_verify_rejected (h : cookie.getD "" = "") (s : Service σ) :
    (verify cookie).exec s = (.error (.rejected .noCookie), s) := by
  unfold verify
  rw [h]
  rfl

theorem exec_listing (directory : Path) (s : Service σ) : ((listing directory).exec s).2 = s := by
  rw [listing, exec_bind_disk]
  cases h : s.machine.disk.list directory with
  | error f => rw [exec_bind_fail (exec_ofExcept_fault rfl s)]
  | ok names =>
    rw [exec_bind_of (exec_ofExcept_ok rfl s)]
    rfl

theorem exec_bind_listing (x : ServiceOn σ Unit) (directory : Path) (s : Service σ) :
    ((x >>= fun _ => listing directory).exec s).2 = (x.exec s).2 := by
  rw [exec_bind]
  rcases x.exec s with ⟨_ | _, s'⟩
  · rfl
  · exact exec_listing directory s'

theorem exec_listing_ok (h : s.machine.disk.enter directory = .ok place) :
    ∃ names, (listing directory).exec s = (.ok names, s) := by
  obtain ⟨hlocate, hnode⟩ := enter_eq_ok_iff.mp h
  have hlist : ∃ names, s.machine.disk.list directory = .ok names := by
    unfold list
    rw [hlocate]
    dsimp only
    rw [hnode]
    exact ⟨_, rfl⟩
  obtain ⟨names, hnames⟩ := hlist
  refine ⟨names.mergeSort fun a b => decide (a ≤ b), ?_⟩
  rw [listing, exec_bind_disk, exec_bind_of (exec_ofExcept_ok hnames s)]
  rfl

theorem exec_create (h : cookie.getD "" ≠ "") (name : String) (sheet : Sheet) (headers : Bool)
    (s : Service σ) :
    (create cookie name sheet headers).exec s =
      (createFile (s.sessionDirectory (cookie.getD "")) (cookie.getD "") name sheet headers >>=
        fun _ => listing (s.sessionDirectory (cookie.getD ""))).exec s := by
  rw [create, exec_bind_of (exec_verify_ok h s), exec_bind_of (exec_directoryOf _ s)]

end

end Service

end TableScript
