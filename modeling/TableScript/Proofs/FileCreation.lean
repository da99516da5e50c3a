import TableScript.Proofs.ServiceSteps

/-!
# What creating a file changes

A request to create a file should write that file and nothing else, or be rejected and change
nothing. `create_oneFileOrNothing_iff` says when it does. There are two ways in which it does not:

* The way is cleared before the files are counted, and for a path that has the ending twice if the
  name has it. A file that is there is lost when the request is then rejected or goes on with
  another path (`Loses`).
* Rows that cannot be written end the request after the rows before them have been written.
-/

namespace TableScript.Service

open ServiceM Disk

variable {σ : Type} [SessionStore σ]

/-- One file has been written with all of its rows, or the request was rejected and nothing has
changed. Nothing is asked of a request that breaks down. -/
def OneFileOrNothing (path : Path) (file : String × Except Fault Unit) (s : Service σ) :
    Except Failure (List String) × Service σ → Prop
  | (.ok _, s') => file.2 = .ok () ∧ ∃ place, s'.machine.disk.locate path = .ok place ∧
      s'.machine.disk.file? place = some file.1 ∧
      ∀ other, other ≠ place → s'.machine.disk.file? other = s.machine.disk.file? other
  | (.error (.rejected _), s') => s'.sessions = s.sessions ∧
      ∀ place, s'.machine.disk.file? place = s.machine.disk.file? place
  | (.error (.fault _), _) => True

/-- The rows of a file end before the last one, and what is written of them is new. -/
def CutsShort (directory : Path) (name : String) (sheet : Sheet) (headers : Bool) (s : Service σ)
    (session : Session) : Prop :=
  session.files.length < s.limits.files ∧
    (s.machine.disk.withDirectory directory).Writable (filePath directory name) ∧
    (∃ f, (written sheet headers).2 = .error f) ∧
    (s.machine.disk.withDirectory directory).find? (filePath directory name) ≠
      some (.file (written sheet headers).1)

/-- A request loses a file, or is rejected after it has written. -/
def Spoils (directory : Path) (key name : String) (sheet : Sheet) (headers : Bool)
    (s : Service σ) :
    Prop :=
  ∃ session, Clears directory key name sheet s session ∧
    (Loses directory name s session ∨ CutsShort directory name sheet headers s session)

section

variable {directory : Path} {key name : String} {sheet : Sheet} {headers : Bool} {s : Service σ}
  {d made : Disk} {session : Session}

theorem Cleared.file?_eq_iff {p : Path} (h : Cleared made p d) (place : Location) :
    d.file? place = made.file? place ↔
      (made.locate p = .ok place → made.file? place = none) := by
  by_cases hplace : made.locate p = .ok place
  · rw [h.file?_of_locate hplace]
    exact ⟨fun hnone _ => hnone.symm, fun hnone => (hnone hplace).symm⟩
  · rw [file?, h.node?_of_ne hplace]
    exact iff_of_true rfl fun h => absurd h hplace

theorem holdsFile_eq_false_iff {p : Path} :
    made.holdsFile p = false ↔ ∀ place, made.locate p = .ok place →
      made.file? place = none := by
  rw [← Bool.not_eq_true, holdsFile_iff]
  simp only [file?_eq_none_iff]
  exact ⟨fun h place hplace text hfile => h ⟨place, text, hplace, hfile⟩,
    fun h ⟨place, text, hplace, hfile⟩ => h place hplace text hfile⟩

variable {place : Location}

theorem cleared_elsewhere_iff (hcheck : checkSheet s.limits name sheet = none)
    (hplace : made.locate (filePath directory name) = .ok place) :
    (∀ other, other ≠ place → made.locate (twinPath directory name) = .ok other →
        made.file? other = none) ↔
      ¬ (made.holdsFile (twinPath directory name) = true ∧
        filePath directory name ≠ twinPath directory name) := by
  rw [filePath_of_check hcheck] at hplace ⊢
  obtain ⟨-, -, parent, henter, rfl⟩ :=
    (locate_child_eq_ok_iff (isCsvName_csvName name).ne.2.2).mp hplace
  by_cases hsame : directory.child (csvName name) = twinPath directory name
  · rw [← hsame]
    refine iff_of_true (fun other hother hlocate => ?_) fun h => h.2 rfl
    exact absurd (Except.ok.inj (hlocate.symm.trans hplace)) hother
  · have helsewhere : ∀ other, made.locate (twinPath directory name) = .ok other →
        other ≠ parent ++ [csvName name] := by
      intro other hlocate hother
      obtain ⟨-, -, _, henter', rfl⟩ :=
        (locate_child_eq_ok_iff (Path.isCsvName_append name).ne.2.2).mp hlocate
      obtain rfl := Except.ok.inj (henter.symm.trans henter')
      obtain hname : name ++ Csv.ending = csvName name := by simpa using hother
      exact hsame (by rw [twinPath, hname])
    rw [and_iff_left hsame, Bool.not_eq_true, holdsFile_eq_false_iff]
    exact ⟨fun h place hlocate => h place (helsewhere place hlocate) hlocate,
      fun h other _ hlocate => h other hlocate⟩

namespace Ready

section

variable (h : Ready directory key name sheet s d session)
include h

theorem file?_eq_iff (place : Location) :
    d.file? place = s.machine.disk.file? place ↔
      ((s.machine.disk.withDirectory directory).locate (twinPath directory name) = .ok place →
        (s.machine.disk.withDirectory directory).file? place = none) := by
  rw [← file?_withDirectory (d := s.machine.disk) (p := directory), h.cleared.file?_eq_iff]

theorem unchanged_iff :
    (∀ place, d.file? place = s.machine.disk.file? place) ↔
      ¬ (s.machine.disk.withDirectory directory).holdsFile (twinPath directory name) = true := by
  rw [Bool.not_eq_true, holdsFile_eq_false_iff]
  exact forall_congr' h.file?_eq_iff

/-- After a file is written, another one has changed exactly if it was in the way. -/
theorem unchanged_off_iff (hlocate :
      (s.machine.disk.withDirectory directory).locate (filePath directory name) = .ok place)
    (hplace : place ≠ []) (text : String) :
    (∀ other, other ≠ place →
        (d.set place (.file text)).file? other = s.machine.disk.file? other) ↔
      ¬ ((s.machine.disk.withDirectory directory).holdsFile (twinPath directory name) = true ∧
        filePath directory name ≠ twinPath directory name) := by
  rw [← cleared_elsewhere_iff h.check hlocate]
  refine forall_congr' fun other => forall_congr' fun hother => ?_
  rw [file?_set hplace, if_neg hother, h.file?_eq_iff]

theorem stopped_unchanged_iff (hstop : s.limits.files ≤ session.files.length ∨
      ¬ (s.machine.disk.withDirectory directory).Writable (filePath directory name)) :
    (∀ place, d.file? place = s.machine.disk.file? place) ↔
      ¬ Spoils directory key name sheet headers s := by
  rw [h.unchanged_iff, Spoils, h.stopped_iff (fun hcuts => ⟨hcuts.1, hcuts.2.1⟩) hstop]

variable {d' : Disk}

section

variable (hroom : session.files.length < s.limits.files)
include hroom

/-- With room for a file, the one in the way is lost if the request goes on with another path. -/
theorem spoils_iff_of_room (hlocate :
      (s.machine.disk.withDirectory directory).locate (filePath directory name) = .ok place)
    (hnode : (s.machine.disk.withDirectory directory).node? place ≠ some .directory) :
    Spoils directory key name sheet headers s ↔
      (s.machine.disk.withDirectory directory).holdsFile (twinPath directory name) = true ∧
          filePath directory name ≠ twinPath directory name ∨
        (∃ f, (written sheet headers).2 = .error f) ∧
          s.machine.disk.file? place ≠ some (written sheet headers).1 := by
  have hloses : Loses directory name s session ↔
      (s.machine.disk.withDirectory directory).holdsFile (twinPath directory name) = true ∧
        filePath directory name ≠ twinPath directory name :=
    and_congr_right' (or_iff_right (not_le.mpr hroom))
  have hfind : (s.machine.disk.withDirectory directory).find? (filePath directory name) =
        some (.file (written sheet headers).1) ↔
      s.machine.disk.file? place = some (written sheet headers).1 := by
    rw [find?, hlocate, ← file?_withDirectory (p := directory), file?_eq_some_iff]
  have hcuts : CutsShort directory name sheet headers s session ↔
      (∃ f, (written sheet headers).2 = .error f) ∧
        s.machine.disk.file? place ≠ some (written sheet headers).1 := by
    have hwritable : (s.machine.disk.withDirectory directory).Writable (filePath directory name) :=
      ⟨place, hlocate, hnode⟩
    rw [CutsShort, and_iff_right hroom, and_iff_right hwritable, Ne, hfind]
  rw [Spoils, h.exists_clears_iff, and_iff_right (h.clears_of_locate hlocate), hloses, hcuts]

theorem partly_iff {f : Fault}
    (hwrite : d.write (filePath directory name) (written sheet headers).1 = .ok d')
    (houtcome : (written sheet headers).2 = .error f) :
    (∀ place, d'.file? place = s.machine.disk.file? place) ↔
      ¬ Spoils directory key name sheet headers s := by
  -- the place that is written is the only one where the old text can still be there
  obtain ⟨place, hlocate, hnode, hplace, rfl⟩ := h.locate_of_write hwrite
  have hcut : ∃ f, (written sheet headers).2 = .error f := ⟨f, houtcome⟩
  rw [h.spoils_iff_of_room hroom hlocate hnode, not_or,
    ← h.unchanged_off_iff hlocate hplace (written sheet headers).1, and_iff_right hcut, not_not]
  have hwritten : (d.set place (.file (written sheet headers).1)).file? place =
      some (written sheet headers).1 := by
    rw [file?_set hplace, if_pos rfl]
  constructor
  · intro hall
    exact ⟨fun other _ => hall other, (hall place).symm.trans hwritten⟩
  · rintro ⟨hoff, hat⟩ other
    by_cases hother : other = place
    · rw [hother, hwritten, hat]
    · exact hoff other hother

theorem done_iff (hwrite : d.write (filePath directory name) (written sheet headers).1 = .ok d')
    (houtcome : (written sheet headers).2 = .ok ()) :
    (∃ place, d'.locate (filePath directory name) = .ok place ∧
        d'.file? place = some (written sheet headers).1 ∧
        ∀ other, other ≠ place → d'.file? other = s.machine.disk.file? other) ↔
      ¬ Spoils directory key name sheet headers s := by
  obtain ⟨place, hlocate, hnode, hplace, hd'⟩ := h.locate_of_write hwrite
  have hwhole : ¬ ∃ f, (written sheet headers).2 = .error f := by simp [houtcome]
  rw [h.spoils_iff_of_room hroom hlocate hnode, or_iff_left fun hcut => hwhole hcut.1,
    ← h.unchanged_off_iff hlocate hplace (written sheet headers).1, ← hd']
  have hlocate' : d'.locate (filePath directory name) = .ok place := by
    obtain ⟨other, hother, hnode', rfl⟩ := write_eq_ok_iff.mp hwrite
    obtain rfl := Except.ok.inj (hlocate.symm.trans
      ((locate_eq_ok_iff h.cleared.sameDirectories).mp hother))
    exact (sameDirectories_set hnode' _).locate hother
  constructor
  · rintro ⟨other, hother, -, hoff⟩
    obtain rfl := Except.ok.inj (hlocate'.symm.trans hother)
    exact hoff
  · intro hoff
    exact ⟨place, hlocate', by rw [hd', file?_set hplace, if_pos rfl], hoff⟩

end

theorem enter_of_write {text : String} (hwrite : d.write (filePath directory name) text = .ok d') :
    ∃ parent, d'.enter directory = .ok parent := by
  obtain ⟨place, hlocate, hnode, rfl⟩ := write_eq_ok_iff.mp hwrite
  rw [filePath_of_check h.check] at hlocate
  obtain ⟨-, -, parent, henter, -⟩ :=
    (locate_child_eq_ok_iff (isCsvName_csvName name).ne.2.2).mp hlocate
  exact ⟨parent, (sameDirectories_set hnode text).enter_iff.mpr henter⟩

end

end Ready

end

/-- A request to create a file writes this file and nothing else, or is rejected and changes
nothing, exactly if it does not spoil a file. -/
theorem create_oneFileOrNothing_iff (cookie : Option String) (name : String) (sheet : Sheet)
    (headers : Bool) (s : Service σ) :
    OneFileOrNothing (filePath (s.sessionDirectory (cookie.getD "")) name) (written sheet headers)
        s ((create cookie name sheet headers).exec s) ↔
      cookie.getD "" = "" ∨
        ¬ Spoils (s.sessionDirectory (cookie.getD "")) (cookie.getD "") name sheet headers s := by
  by_cases hkey : cookie.getD "" = ""
  · rw [create, exec_bind_fail (exec_verify_rejected hkey s)]
    exact iff_of_true ⟨rfl, fun _ => rfl⟩ (.inl hkey)
  · rw [exec_create hkey, or_iff_right hkey]
    generalize cookie.getD "" = key
    have hcreates := creates_createFile (s.sessionDirectory key) key name sheet headers s
    generalize s.sessionDirectory key = directory at hcreates ⊢
    generalize hcreate : (createFile directory key name sheet headers).exec s = outcome at hcreates
    cases hcreates with
    | refused hcheck =>
      rw [exec_bind_fail hcreate]
      refine iff_of_true ⟨rfl, fun _ => rfl⟩ ?_
      rintro ⟨_, hclears, -⟩
      rw [hclears.check] at hcheck
      cases hcheck
    | broke _ hblocked =>
      rw [exec_bind_fail hcreate]
      refine iff_of_true trivial ?_
      rintro ⟨_, hclears, -⟩
      exact hclears.clear hblocked
    | lost hread =>
      rw [exec_bind_fail hcreate]
      refine iff_of_true trivial ?_
      rintro ⟨_, hclears, -⟩
      rw [hclears.read] at hread
      cases hread
    | full hready hfull =>
      rw [exec_bind_fail hcreate, ← hready.stopped_unchanged_iff (.inl hfull)]
      exact and_iff_right rfl
    | unwritten hready _ hwrite =>
      rw [exec_bind_fail hcreate,
        ← hready.stopped_unchanged_iff (.inr (hready.not_writable_of_write hwrite))]
      exact and_iff_right rfl
    | partly hready hroom hwrite houtcome =>
      rw [exec_bind_fail hcreate, ← hready.partly_iff hroom hwrite houtcome]
      exact and_iff_right rfl
    | done hready hroom hwrite houtcome =>
      obtain ⟨parent, henter⟩ := hready.enter_of_write hwrite
      obtain ⟨names, hnames⟩ := exec_listing_ok
        (s := { withDisk s _ with sessions := (_ : Sessions σ) }) henter
      rw [exec_bind_of hcreate, hnames, ← hready.done_iff hroom hwrite houtcome]
      exact and_iff_right houtcome

/-- A session with one file, whose name has the ending twice. -/
def endingTwice : Service where
  directory := Path.ofString "/csvs"
  sessions := ⟨[("S", { files := ["/csvs/S/a.csv.csv"] })]⟩
  machine := { Machine.initial with
    disk := { nodes := [(["csvs"], .directory), (["csvs", "S"], .directory),
      (["csvs", "S", "a.csv.csv"], .file "x\r\n")] } }

/-- Creating the file with the ending once succeeds, and the other file is gone. -/
theorem not_oneFileOrNothing_endingTwice :
    ¬ OneFileOrNothing (filePath (endingTwice.sessionDirectory "S") "a.csv")
      (written [[.text "y"]] true) endingTwice
      ((create (some "S") "a.csv" [[.text "y"]] true).exec endingTwice) := by
  have hok : ((create (some "S") "a.csv" [[.text "y"]] true).exec endingTwice).1.isOk = true := by
    decide +kernel
  have hpath :
      ((create (some "S") "a.csv" [[.text "y"]] true).exec endingTwice).2.machine.disk.find?
        (filePath (endingTwice.sessionDirectory "S") "a.csv") = some (.file "y\r\n") := by
    decide +kernel
  have hgone :
      ((create (some "S") "a.csv" [[.text "y"]] true).exec endingTwice).2.machine.disk.file?
        ["csvs", "S", "a.csv.csv"] = none := by
    decide +kernel
  generalize (create (some "S") "a.csv" [[.text "y"]] true).exec endingTwice = outcome at *
  rcases outcome with ⟨_ | names, s'⟩
  · cases hok
  · rintro ⟨-, place, hlocate, -, hoff⟩
    have hthere : endingTwice.machine.disk.file? ["csvs", "S", "a.csv.csv"] = some "x\r\n" := by
      decide +kernel
    by_cases hplace : ["csvs", "S", "a.csv.csv"] = place
    · rw [find?, hlocate, ← hplace, ← file?_eq_some_iff, hgone] at hpath
      cases hpath
    · rw [hoff _ hplace, hthere] at hgone
      cases hgone

end TableScript.Service
