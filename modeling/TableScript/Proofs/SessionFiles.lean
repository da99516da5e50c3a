import TableScript.Proofs.ServiceSteps

/-!
# The list of a session and its directory

The list of files of a session should hold the path of every file in its directory, and each path
once (`ListsFiles`). For a session that starts with neither, `listsFiles_after_iff` tells for every
sequence of requests whether it stays so: it does as long as no request breaks it (`Breaks`).

* `TidyDirectory` holds along every run: there is nothing but files of comma-separated values in the
  directory. `Has` are their names.
* A request takes a name away from `Has`, adds one, or both. The list follows only in the end: a
  file that is cleared away, that is written over, or that is written in part does not change it as
  it should.
-/

namespace TableScript.Service

open ServiceM

variable {σ : Type} [SessionStore σ]

/-! ## Lists of names -/

/-- A list holds what `f` makes of the names that there are, and each once. -/
def Listed (f : String → String) (has : String → Prop) (files : List String) : Prop :=
  files.Nodup ∧ ∀ text, text ∈ files ↔ ∃ name, has name ∧ text = f name

namespace Listed

variable {f : String → String} {has has' : String → Prop} {files : List String}

section

variable (hf : f.Injective) (h : Listed f has files)

include hf h

theorem mem_iff (name : String) : f name ∈ files ↔ has name := by
  rw [h.2]
  constructor
  · rintro ⟨other, hother, heq⟩
    rwa [hf heq]
  · exact fun hname => ⟨name, hname, rfl⟩

theorem same_iff : Listed f has' files ↔ ∀ name, has' name ↔ has name := by
  constructor
  · intro h' name
    rw [← h.mem_iff hf, h'.mem_iff hf]
  · intro hsame
    simpa only [Listed, hsame] using h

theorem append_iff (new : String) :
    Listed f has' (files ++ [f new]) ↔ ¬ has new ∧ ∀ name, has' name ↔ has name ∨
      name = new := by
  constructor
  · intro h'
    have hnew : f new ∉ files := by
      intro hmem
      exact (List.disjoint_of_nodup_append h'.1) hmem List.mem_cons_self
    refine ⟨mt (h.mem_iff hf new).mpr hnew, fun name => ?_⟩
    rw [← h'.mem_iff hf, List.mem_append, List.mem_singleton, h.mem_iff hf, hf.eq_iff]
  · rintro ⟨hnew, hnames⟩
    refine ⟨?_, fun text => ?_⟩
    · rw [List.nodup_append]
      refine ⟨h.1, List.nodup_singleton _, fun a ha b hb => ?_⟩
      rw [List.mem_singleton.mp hb]
      rintro rfl
      exact hnew ((h.mem_iff hf new).mp ha)
    · rw [List.mem_append, List.mem_singleton, h.2]
      constructor
      · rintro (⟨name, hname, htext⟩ | htext)
        · exact ⟨name, (hnames name).mpr (.inl hname), htext⟩
        · exact ⟨new, (hnames new).mpr (.inr rfl), htext⟩
      · rintro ⟨name, hname, htext⟩
        rcases (hnames name).mp hname with hname | rfl
        · exact .inl ⟨name, hname, htext⟩
        · exact .inr htext

theorem erase_iff (old : String) :
    Listed f has' (files.erase (f old)) ↔ ∀ name, has' name ↔ has name ∧ name ≠ old := by
  constructor
  · intro h' name
    rw [← h'.mem_iff hf, h.1.mem_erase_iff, h.mem_iff hf, hf.ne_iff, and_comm]
  · intro hnames
    refine ⟨h.1.erase _, fun text => ?_⟩
    rw [h.1.mem_erase_iff, h.2]
    constructor
    · rintro ⟨hne, name, hname, rfl⟩
      exact ⟨name, (hnames name).mpr ⟨hname, fun hold => hne (hold ▸ rfl)⟩, rfl⟩
    · rintro ⟨name, hname, rfl⟩
      obtain ⟨hname, hne⟩ := (hnames name).mp hname
      exact ⟨hf.ne hne, name, hname, rfl⟩

end

end Listed

/-! ## The directory of a session -/

/-- The directory, which lies at `parent` once it is made, has something by that name. -/
def Has (directory : Path) (parent : Location) (d : Disk) (name : String) : Prop :=
  (d.withDirectory directory).node? (parent ++ [name]) ≠ none

/-- The directory can be made, and holds files of comma-separated values only. -/
structure TidyDirectory (directory : Path) (parent : Location) (d : Disk) : Prop where
  enter : (d.withDirectory directory).enter directory = .ok parent
  csv (name : String) : Has directory parent d name → Path.IsCsvName name ∧
    '/' ∉ name.toList ∧ (d.withDirectory directory).holdsFile (directory.child name) = true
  /-- A directory that is not made yet has nothing in it. -/
  made : d.withDirectory directory = d ∨ ∀ name, ¬ Has directory parent d name

namespace TidyDirectory

variable {directory : Path} {parent place : Location} {d d' : Disk} {name text : String}

section

variable (h : TidyDirectory directory parent d)
include h

theorem enter_of_locate (hname : Path.IsCsvName name)
    (hlocate : d.locate (directory.child name) = .ok place) :
    d.enter directory = .ok parent ∧ place = parent ++ [name] := by
  obtain ⟨-, -, parent', henter, rfl⟩ := (Disk.locate_child_eq_ok_iff hname.ne.2.2).mp hlocate
  have hparent := h.enter
  rw [Disk.withDirectory_of_enter henter, henter] at hparent
  cases hparent
  exact ⟨henter, rfl⟩

theorem has_iff (hname : Path.IsCsvName name) :
    Has directory parent d name ↔ d.holdsFile (directory.child name) = true := by
  constructor
  · intro hhas
    rcases h.made with hmade | hnone
    · exact hmade ▸ (h.csv name hhas).2.2
    · exact absurd hhas (hnone name)
  · intro hfile
    obtain ⟨place, text, hlocate, hnode⟩ := Disk.holdsFile_iff.mp hfile
    obtain ⟨henter, rfl⟩ := h.enter_of_locate hname hlocate
    rw [Has, Disk.withDirectory_of_enter henter, hnode]
    exact Option.some_ne_none _

theorem withDirectory :
    TidyDirectory directory parent (d.withDirectory directory) ∧
      ∀ name, Has directory parent (d.withDirectory directory) name ↔
        Has directory parent d name := by
  have hmade := Disk.withDirectory_of_enter h.enter
  have hhas : ∀ name, Has directory parent (d.withDirectory directory) name ↔
      Has directory parent d name := by
    intro name
    rw [Has, hmade, Has]
  refine ⟨⟨by rw [hmade]; exact h.enter, fun name hname => ?_, .inl hmade⟩, hhas⟩
  rw [hmade]
  exact h.csv name ((hhas name).mp hname)

theorem holdsFile_iff (hname : Path.IsCsvName name) :
    (d.withDirectory directory).holdsFile (directory.child name) = true ↔
      Has directory parent d name := by
  obtain ⟨hmade, hhas⟩ := h.withDirectory
  rw [← hmade.has_iff hname, hhas]

theorem remove (hfile : d.node? place = some (.file text)) :
    TidyDirectory directory parent (d.remove (· == place)) ∧
      ∀ name, Has directory parent (d.remove (· == place)) name ↔
        Has directory parent d name ∧ parent ++ [name] ≠ place := by
  have hmade := Disk.withDirectory_remove hfile h.enter
  have hroot : place ≠ [] := Disk.ne_nil_of_file hfile
  have hfile' : (d.withDirectory directory).node? place = some (.file text) := by
    rw [← Disk.file?_eq_some_iff, Disk.file?_withDirectory, Disk.file?_eq_some_iff, hfile]
  have hsame := Disk.sameDirectories_remove hfile'
  have hhas : ∀ name, Has directory parent (d.remove (· == place)) name ↔
      Has directory parent d name ∧ parent ++ [name] ≠ place := by
    intro name
    rw [Has, hmade, Disk.node?_remove hroot, Has]
    split <;> simp_all
  refine ⟨⟨?_, fun name hname => ?_, ?_⟩, hhas⟩
  · rw [hmade]
    exact hsame.enter_iff.mpr h.enter
  · obtain ⟨hname, hne⟩ := (hhas name).mp hname
    obtain ⟨hcsv, hslash, hholds⟩ := h.csv name hname
    refine ⟨hcsv, hslash, ?_⟩
    obtain ⟨other, text, hlocate, hnode⟩ := Disk.holdsFile_iff.mp hholds
    obtain ⟨-, rfl⟩ := h.withDirectory.1.enter_of_locate hcsv hlocate
    rw [hmade]
    exact Disk.holdsFile_iff.mpr ⟨_, text, hsame.locate hlocate, by
      rw [Disk.node?_remove hroot, if_neg hne, hnode]⟩
  · rcases h.made with hd | hnone
    · rw [hmade, hd]
      exact .inl rfl
    · exact .inr fun name hname => hnone name ((hhas name).mp hname).1

theorem write (hname : Path.IsCsvName name) (hslash : '/' ∉ name.toList)
    (hwrite : d.write (directory.child name) text = .ok d') :
    TidyDirectory directory parent d' ∧
      ∀ other, Has directory parent d' other ↔ Has directory parent d other ∨
        other = name := by
  obtain ⟨place, hlocate, hnode, rfl⟩ := Disk.write_eq_ok_iff.mp hwrite
  obtain ⟨henter, rfl⟩ := h.enter_of_locate hname hlocate
  have hmade := Disk.withDirectory_of_enter henter
  have hroot := Disk.ne_nil_of_node? hnode
  have hsame := Disk.sameDirectories_set hnode text
  have henter' := hsame.enter_iff.mpr henter
  have hmade' := Disk.withDirectory_of_enter henter'
  have hhas : ∀ other, Has directory parent (d.set (parent ++ [name]) (.file text)) other ↔
      Has directory parent d other ∨ other = name := by
    intro other
    rw [Has, hmade', Disk.node?_set hroot, Has, hmade]
    by_cases hother : other = name
    · simp [hother]
    · simp [hother]
  refine ⟨⟨by rw [hmade']; exact henter', fun other hother => ?_, .inl hmade'⟩, hhas⟩
  rw [hmade']
  by_cases hsame' : other = name
  · subst hsame'
    refine ⟨hname, hslash, Disk.holdsFile_iff.mpr ⟨_, text, hsame.locate hlocate, ?_⟩⟩
    rw [Disk.node?_set hroot, if_pos rfl]
  · obtain ⟨hcsv, hslash', hholds⟩ :=
      h.csv other (((hhas other).mp hother).resolve_right hsame')
    refine ⟨hcsv, hslash', ?_⟩
    rw [hmade] at hholds
    obtain ⟨_, text', hlocate', hnode'⟩ := Disk.holdsFile_iff.mp hholds
    obtain ⟨-, rfl⟩ := h.enter_of_locate hcsv hlocate'
    exact Disk.holdsFile_iff.mpr ⟨_, text', hsame.locate hlocate', by
      rw [Disk.node?_set hroot, if_neg (by simpa using hsame'), hnode']⟩

theorem cleared (hcleared : Cleared (d.withDirectory directory) (twinPath directory name) d') :
    TidyDirectory directory parent d' ∧
      ∀ other, Has directory parent d' other ↔
        Has directory parent d other ∧ other ≠ name ++ Csv.ending := by
  obtain ⟨hmade, hhas⟩ := h.withDirectory
  cases hcleared with
  | absent hprobe =>
    refine ⟨hmade, fun other => ?_⟩
    rw [hhas]
    refine ⟨fun hother => ⟨hother, ?_⟩, fun hother => hother.1⟩
    rintro rfl
    obtain ⟨place, text, hlocate, hnode⟩ := Disk.holdsFile_iff.mp (h.csv _ hother).2.2
    have hholds := Disk.holds_of_probe hprobe
    rw [twinPath, Disk.holds_of_locate hlocate, hnode] at hholds
    cases hholds
  | removed hlocate hfile =>
    obtain ⟨-, rfl⟩ := hmade.enter_of_locate (Path.isCsvName_append name) hlocate
    obtain ⟨htidy, hremoved⟩ := hmade.remove hfile
    refine ⟨htidy, fun other => ?_⟩
    rw [hremoved, hhas]
    simp

end

end TidyDirectory

/-! ## Requests -/

/-- The list of a session holds the paths of the files in its directory, and each once. -/
def ListsFiles (key : String) (s : Service σ) : Prop :=
  ∃ session, s.sessions.read key = .ok session ∧ session.files.Nodup ∧
    ∀ text, text ∈ session.files ↔ ∃ name, Path.IsCsvName name ∧
      s.machine.disk.holdsFile ((s.sessionDirectory key).child name) = true ∧
      text = ((s.sessionDirectory key).child name).text

/-- A request about the files of a session. -/
inductive FileRequest where
  | create (name : String) (sheet : Sheet) (headers : Bool)
  | delete (name : String)

/-- The answer to a request. -/
def FileRequest.answer (key : String) : FileRequest → ServiceOn σ (List String)
  | create name sheet headers => Service.create (some key) name sheet headers
  | delete name => Service.delete (some key) name

/-- What is done for a request, in a directory. -/
def FileRequest.act (directory : Path) (key : String) : FileRequest → ServiceOn σ Unit
  | create name sheet headers => createFile directory key name sheet headers
  | delete name => deleteFile directory key name

variable {key : String}

theorem FileRequest.exec_answer_snd (hkey : key ≠ "") (r : FileRequest) (s : Service σ) :
    ((r.answer key).exec s).2 = ((r.act (s.sessionDirectory key) key).exec s).2 := by
  have hcookie : (some key).getD "" ≠ "" := hkey
  cases r with
  | create =>
    rw [answer, exec_create hcookie, exec_bind_listing]
    rfl
  | delete =>
    rw [answer, Service.delete, exec_bind_of (exec_verify_ok hcookie s),
      exec_bind_of (exec_directoryOf _ s), exec_bind_listing]
    rfl

/-- The service after requests that come one after the other. -/
def after (key : String) (s : Service σ) (requests : List FileRequest) : Service σ :=
  requests.foldl (fun s r => ((r.answer key).exec s).2) s

/-- With room for a file, it is written over although it is listed, or written in part and not
listed. -/
def Muddles (directory : Path) (name : String) (sheet : Sheet) (headers : Bool) (s : Service σ)
    (session : Session) : Prop :=
  session.files.length < s.limits.files ∧
    (s.machine.disk.withDirectory directory).Writable (filePath directory name) ∧
    ((s.machine.disk.withDirectory directory).holdsFile (filePath directory name) = true ↔
      (written sheet headers).2 = .ok ())

/-- A request makes the list differ from the directory. A file is lost, written over, or written in
part; or it is deleted by a path that leads to the file of a name and is not the one in the list. -/
def Breaks (key : String) (s : Service σ) : FileRequest → Prop
  | .create name sheet headers =>
    ∃ session, Clears (s.sessionDirectory key) key name sheet s session ∧
      (Loses (s.sessionDirectory key) name s session ∨
        Muddles (s.sessionDirectory key) name sheet headers s session)
  | .delete name =>
    let path := filePath (s.sessionDirectory key) name
    s.machine.disk.holdsFile path = true ∧ path ≠ (s.sessionDirectory key).child path.name ∧
      s.machine.disk.locate path =
        s.machine.disk.locate ((s.sessionDirectory key).child path.name)

instance (directory : Path) (name : String) (s : Service σ) (session : Session) :
    Decidable (Loses directory name s session) :=
  inferInstanceAs (Decidable (_ ∧ _))

instance (directory : Path) (name : String) (sheet : Sheet) (headers : Bool) (s : Service σ)
    (session : Session) : Decidable (Muddles directory name sheet headers s session) :=
  inferInstanceAs (Decidable (_ ∧ _ ∧ _))

instance (key : String) (s : Service σ) (r : FileRequest) : Decidable (Breaks key s r) :=
  match r with
  | .create name sheet headers =>
    match hread : s.sessions.read key with
    | .error _ => isFalse fun ⟨_, hclears, _⟩ => by rw [hclears.read] at hread; cases hread
    | .ok session =>
      decidable_of_iff ((checkSheet s.limits name sheet = none ∧
          ¬ Blocked (s.machine.disk.withDirectory (s.sessionDirectory key))
            (s.sessionDirectory key) name) ∧
          (Loses (s.sessionDirectory key) name s session ∨
            Muddles (s.sessionDirectory key) name sheet headers s session))
        ⟨fun h => ⟨session, ⟨h.1.1, h.1.2, hread⟩, h.2⟩, fun ⟨other, hclears, h⟩ => by
          obtain rfl : other = session := Except.ok.inj (hclears.read.symm.trans hread)
          exact ⟨⟨hclears.check, hclears.clear⟩, h⟩⟩
  | .delete _ => inferInstanceAs (Decidable (_ ∧ _ ∧ _))

section

variable {key name : String} {sheet : Sheet} {headers : Bool} {s : Service σ} {parent : Location}
  {session : Session}

theorem listsFiles_iff (htidy : TidyDirectory (s.sessionDirectory key) parent s.machine.disk)
    (hread : s.sessions.read key = .ok session) :
    ListsFiles key s ↔
      Listed (fun name => ((s.sessionDirectory key).child name).text)
        (Has (s.sessionDirectory key) parent s.machine.disk) session.files := by
  have hnames : ∀ text, (∃ name, Path.IsCsvName name ∧
        s.machine.disk.holdsFile ((s.sessionDirectory key).child name) = true ∧
        text = ((s.sessionDirectory key).child name).text) ↔
      ∃ name, Has (s.sessionDirectory key) parent s.machine.disk name ∧
        text = ((s.sessionDirectory key).child name).text := by
    intro text
    refine exists_congr fun name => ⟨?_, ?_⟩
    · rintro ⟨hcsv, hfile, htext⟩
      exact ⟨(htidy.has_iff hcsv).mpr hfile, htext⟩
    · rintro ⟨hhas, htext⟩
      have hcsv := (htidy.csv name hhas).1
      exact ⟨hcsv, (htidy.has_iff hcsv).mp hhas, htext⟩
  unfold ListsFiles Listed
  simp only [hread, hnames, Except.ok.injEq, exists_eq_left']

/-- What a request leaves of a session whose list is right: the directory stays tidy, and the list
is right unless the request breaks it. -/
structure Leaves (key : String) (parent : Location) (s s' : Service σ) (broken : Prop) : Prop where
  directory : s'.directory = s.directory
  tidy : TidyDirectory (s.sessionDirectory key) parent s'.machine.disk
  lists : ListsFiles key s' ↔ ¬ broken

variable {d : Disk}

theorem Leaves.of_listed {sessions : Sessions σ} {broken : Prop}
    (htidy : TidyDirectory (s.sessionDirectory key) parent d)
    (hread : sessions.read key = .ok session)
    (h : Listed (fun name => ((s.sessionDirectory key).child name).text)
      (Has (s.sessionDirectory key) parent d) session.files ↔ ¬ broken) :
    Leaves key parent s { s.withDisk d with sessions } broken :=
  ⟨rfl, htidy, (listsFiles_iff (s := { s.withDisk d with sessions }) htidy hread).trans h⟩

theorem filePath_eq_twinPath_iff (hcheck : checkSheet s.limits name sheet = none)
    (directory : Path) :
    filePath directory name = twinPath directory name ↔ csvName name = name ++ Csv.ending := by
  rw [filePath_of_check hcheck, twinPath]
  exact ⟨fun h => directory.text_child_injective (congrArg Path.text h), fun h => h ▸ rfl⟩

section

variable (htidy : TidyDirectory (s.sessionDirectory key) parent s.machine.disk)
include htidy

section

variable (hready : Ready (s.sessionDirectory key) key name sheet s d session)

include hready

theorem leaves_cleared (hlists : ListsFiles key s)
    (hstop : s.limits.files ≤ session.files.length ∨
      ¬ (s.machine.disk.withDirectory (s.sessionDirectory key)).Writable
        (filePath (s.sessionDirectory key) name)) :
    Leaves key parent s (s.withDisk d) (Breaks key s (.create name sheet headers)) := by
  obtain ⟨htidy', hhas⟩ := htidy.cleared hready.cleared
  refine .of_listed htidy' hready.read ?_
  have hlisted := (listsFiles_iff htidy hready.read).mp hlists
  -- the list stays as it is, so that it is right exactly if no file has gone
  have hgone : (∀ other, Has (s.sessionDirectory key) parent d other ↔
        Has (s.sessionDirectory key) parent s.machine.disk other) ↔
      ¬ Has (s.sessionDirectory key) parent s.machine.disk (name ++ Csv.ending) := by
    constructor
    · intro hsame hname
      exact ((hhas _).mp ((hsame _).mpr hname)).2 rfl
    · intro hname other
      rw [hhas]
      exact ⟨fun h => h.1, fun h => ⟨h, by rintro rfl; exact hname h⟩⟩
  rw [hlisted.same_iff (s.sessionDirectory key).text_child_injective, hgone, Breaks,
    hready.stopped_iff (fun hmuddles => ⟨hmuddles.1, hmuddles.2.1⟩) hstop, twinPath,
    htidy.holdsFile_iff (Path.isCsvName_append name)]

variable {text : String}

theorem has_of_write {d' : Disk}
    (hwrite : d.write (filePath (s.sessionDirectory key) name) text = .ok d') :
    TidyDirectory (s.sessionDirectory key) parent d' ∧
      ∀ other, Has (s.sessionDirectory key) parent d' other ↔
        Has (s.sessionDirectory key) parent s.machine.disk other ∧
          other ≠ name ++ Csv.ending ∨ other = csvName name := by
  obtain ⟨htidy', hhas⟩ := htidy.cleared hready.cleared
  rw [filePath_of_check hready.check] at hwrite
  obtain ⟨htidy'', hhas'⟩ :=
    htidy'.write (isCsvName_csvName name)
      (slash_not_mem_csvName (slash_not_mem_of_check hready.check)) hwrite
  exact ⟨htidy'', fun other => by rw [hhas', hhas]⟩

/-- With room for a file that can be written, a request breaks the list if it clears another file
away, or if the file was there although it is now listed, or is there now and not listed. -/
theorem Ready.breaks_iff_of_write {d' : Disk} (hroom : session.files.length < s.limits.files)
    (hwrite : d.write (filePath (s.sessionDirectory key) name) text = .ok d') :
    Breaks key s (.create name sheet headers) ↔
      Has (s.sessionDirectory key) parent s.machine.disk (name ++ Csv.ending) ∧
          csvName name ≠ name ++ Csv.ending ∨
        (Has (s.sessionDirectory key) parent s.machine.disk (csvName name) ↔
          (written sheet headers).2 = .ok ()) := by
  obtain ⟨place, hlocate, hnode, -, -⟩ := hready.locate_of_write hwrite
  have hwritable : (s.machine.disk.withDirectory (s.sessionDirectory key)).Writable
      (filePath (s.sessionDirectory key) name) := ⟨place, hlocate, hnode⟩
  rw [Breaks, hready.exists_clears_iff, and_iff_right (hready.clears_of_locate hlocate), Loses,
    Muddles, and_iff_right hroom, and_iff_right hwritable, or_iff_right (not_le.mpr hroom), Ne,
    filePath_eq_twinPath_iff hready.check, twinPath, filePath_of_check hready.check,
    htidy.holdsFile_iff (Path.isCsvName_append name), htidy.holdsFile_iff (isCsvName_csvName name)]

end

section

variable {d d' : Disk} (hlists : ListsFiles key s)
  (hready : Ready (s.sessionDirectory key) key name sheet s d session)
  (hroom : session.files.length < s.limits.files)
  (hwrite : d.write (filePath (s.sessionDirectory key) name) (written sheet headers).1 = .ok d')

include hlists hready hroom hwrite

theorem leaves_partly {f : Fault} (houtcome : (written sheet headers).2 = .error f) :
    Leaves key parent s (s.withDisk d') (Breaks key s (.create name sheet headers)) := by
  obtain ⟨htidy', hhas⟩ := has_of_write htidy hready hwrite
  refine .of_listed htidy' hready.read ?_
  have hlisted := (listsFiles_iff htidy hready.read).mp hlists
  rw [hlisted.same_iff (s.sessionDirectory key).text_child_injective,
    hready.breaks_iff_of_write htidy hroom hwrite, houtcome]
  simp only [hhas]
  generalize Has (s.sessionDirectory key) parent s.machine.disk = has
  grind

theorem leaves_done (houtcome : (written sheet headers).2 = .ok ()) :
    Leaves key parent s { s.withDisk d' with
      sessions := s.sessions.write key { session with
        files := session.files ++ [(filePath (s.sessionDirectory key) name).text] } }
      (Breaks key s (.create name sheet headers)) := by
  obtain ⟨htidy', hhas⟩ := has_of_write htidy hready hwrite
  refine .of_listed htidy' (Sessions.read_write _ _ _) ?_
  have hlisted := (listsFiles_iff htidy hready.read).mp hlists
  rw [filePath_of_check hready.check,
    hlisted.append_iff (s.sessionDirectory key).text_child_injective (csvName name),
    hready.breaks_iff_of_write htidy hroom hwrite, houtcome]
  simp only [hhas]
  generalize Has (s.sessionDirectory key) parent s.machine.disk = has
  grind

end

theorem leaves_createFile (hlists : ListsFiles key s) (name : String) (sheet : Sheet)
    (headers : Bool) :
    Leaves key parent s ((createFile (s.sessionDirectory key) key name sheet headers).exec s).2
      (Breaks key s (.create name sheet headers)) := by
  have hcreates := creates_createFile (s.sessionDirectory key) key name sheet headers s
  generalize (createFile (s.sessionDirectory key) key name sheet headers).exec s = outcome
    at hcreates
  cases hcreates with
  | refused hcheck =>
    refine ⟨rfl, htidy, iff_of_true hlists ?_⟩
    rintro ⟨_, hclears, -⟩
    rw [hclears.check] at hcheck
    cases hcheck
  | @broke _ d hmade hblocked =>
    have hunbroken : ¬ Breaks key s (.create name sheet headers) := by
      rintro ⟨_, hclears, -⟩
      exact hclears.clear hblocked
    rcases hmade with rfl | rfl
    · exact ⟨rfl, htidy, iff_of_true hlists hunbroken⟩
    · obtain ⟨htidy', hhas⟩ := htidy.withDirectory
      generalize s.machine.disk.withDirectory (s.sessionDirectory key) = d at htidy' hhas
      obtain ⟨session, hread, -⟩ := id hlists
      have hlisted := (listsFiles_iff htidy hread).mp hlists
      refine .of_listed htidy' hread (iff_of_true ?_ hunbroken)
      exact (hlisted.same_iff (s.sessionDirectory key).text_child_injective).mpr hhas
  | lost hread =>
    obtain ⟨session, hsession, -⟩ := hlists
    rw [hsession] at hread
    cases hread
  | full hready hfull => exact leaves_cleared htidy hready hlists (.inl hfull)
  | unwritten hready _ hwrite =>
    exact leaves_cleared htidy hready hlists (.inr (hready.not_writable_of_write hwrite))
  | partly hready hroom hwrite houtcome =>
    exact leaves_partly htidy hlists hready hroom hwrite houtcome
  | done hready hroom hwrite houtcome =>
    exact leaves_done htidy hlists hready hroom hwrite houtcome

theorem breaks_delete_iff {place : Location}
    (hlocate : s.machine.disk.locate (filePath (s.sessionDirectory key) name) = .ok place)
    (hfile : s.machine.disk.node? place = some (.file text)) :
    Breaks key s (.delete name) ↔
      ∃ other, Has (s.sessionDirectory key) parent s.machine.disk other ∧
        parent ++ [other] = place ∧
        filePath (s.sessionDirectory key) name ≠ (s.sessionDirectory key).child other := by
  have hholds := Disk.holdsFile_iff.mpr ⟨place, text, hlocate, hfile⟩
  obtain ⟨hcsv, before, hbefore⟩ := filePath_eq_child (s.sessionDirectory key) name
  rw [Breaks, and_iff_right hholds]
  generalize (filePath (s.sessionDirectory key) name).name = last at hcsv hbefore ⊢
  constructor
  · rintro ⟨hne, hsame⟩
    rw [hlocate, eq_comm] at hsame
    refine ⟨last, (htidy.has_iff hcsv).mpr ?_, (htidy.enter_of_locate hcsv hsame).2.symm, hne⟩
    exact Disk.holdsFile_iff.mpr ⟨place, text, hsame, hfile⟩
  · rintro ⟨other, hhas, rfl, hne⟩
    -- the last name of a path is the last name on the way to its place
    obtain rfl : other = last := by
      rw [hbefore] at hlocate
      obtain ⟨-, -, _, -, hplace⟩ := (Disk.locate_child_eq_ok_iff hcsv.ne.2.2).mp hlocate
      simpa using congrArg List.getLast? hplace
    obtain ⟨place, _, hsame, -⟩ := Disk.holdsFile_iff.mp ((htidy.has_iff hcsv).mp hhas)
    obtain ⟨-, rfl⟩ := htidy.enter_of_locate hcsv hsame
    exact ⟨hne, hlocate.trans hsame.symm⟩

theorem leaves_deleteFile (hlists : ListsFiles key s) (name : String) :
    Leaves key parent s ((deleteFile (s.sessionDirectory key) key name).exec s).2
      (Breaks key s (.delete name)) := by
  have hdeletes := deletes_deleteFile (s.sessionDirectory key) key name s
  generalize (deleteFile (s.sessionDirectory key) key name).exec s = outcome at hdeletes
  have hinjective := (s.sessionDirectory key).text_child_injective
  cases hdeletes with
  | absent habsent =>
    refine ⟨rfl, htidy, iff_of_true hlists ?_⟩
    rintro ⟨hfile, -⟩
    obtain ⟨place, text, hlocate, hnode⟩ := Disk.holdsFile_iff.mp hfile
    exact habsent place text hlocate hnode
  | lost hread =>
    obtain ⟨session, hsession, -⟩ := hlists
    rw [hsession] at hread
    cases hread
  | @done place text session hlocate hfile hread hmem =>
    obtain ⟨htidy', hhas'⟩ := htidy.remove hfile
    generalize s.machine.disk.remove (· == place) = d at htidy' hhas' ⊢
    have hlisted := (listsFiles_iff htidy hread).mp hlists
    obtain ⟨old, hold, htext⟩ := (hlisted.2 _).mp hmem
    obtain ⟨hcsv, hslash, -⟩ := htidy.csv old hold
    have hpath := filePath_of_text (s.isPlain_sessionDirectory key) hcsv hslash htext
    obtain ⟨-, rfl⟩ := htidy.enter_of_locate hcsv (hpath ▸ hlocate)
    refine .of_listed htidy' (Sessions.read_write _ _ _) (iff_of_true ?_ ?_)
    · rw [hpath]
      refine (hlisted.erase_iff hinjective old).mpr fun other => (hhas' other).trans ?_
      simp
    · rw [breaks_delete_iff htidy hlocate hfile]
      rintro ⟨other, -, hother, hne⟩
      obtain rfl : other = old := by simpa using hother
      exact hne hpath
  | @unlisted place text session hlocate hfile hread hmem =>
    obtain ⟨htidy', hhas'⟩ := htidy.remove hfile
    generalize s.machine.disk.remove (· == place) = d at htidy' hhas' ⊢
    have hlisted := (listsFiles_iff htidy hread).mp hlists
    refine .of_listed htidy' hread ?_
    rw [hlisted.same_iff hinjective, breaks_delete_iff htidy hlocate hfile]
    simp only [hhas']
    constructor
    · rintro hsame ⟨other, hother, hplace, -⟩
      exact ((hsame other).mpr hother).2 hplace
    · intro hunbroken other
      refine ⟨fun h => h.1, fun hother => ⟨hother, fun hplace => ?_⟩⟩
      refine hunbroken ⟨other, hother, hplace, ?_⟩
      -- a file in the list would have been taken out of it
      intro hpath
      exact hmem ((hlisted.2 _).mpr ⟨other, hother, congrArg Path.text hpath⟩)

theorem leaves_answer (hkey : key ≠ "") (hlists : ListsFiles key s) (r : FileRequest) :
    Leaves key parent s ((r.answer key).exec s).2 (Breaks key s r) := by
  rw [FileRequest.exec_answer_snd hkey]
  cases r with
  | create name sheet headers => exact leaves_createFile htidy hlists name sheet headers
  | delete name => exact leaves_deleteFile htidy hlists name

end

theorem listsFiles_along_iff (hkey : key ≠ "") (requests : List FileRequest)
    (htidy : TidyDirectory (s.sessionDirectory key) parent s.machine.disk)
    (hlists : ListsFiles key s) :
    (∀ n ≤ requests.length, ListsFiles key (after key s (requests.take n))) ↔
      ∀ n (h : n < requests.length),
        ¬ Breaks key (after key s (requests.take n)) (requests.get ⟨n, h⟩) := by
  induction requests generalizing s with
  | nil =>
    refine iff_of_true (fun n _ => ?_) fun n h => absurd h (Nat.not_lt_zero n)
    rw [List.take_nil]
    exact hlists
  | cons r requests ih =>
    have hleaves := leaves_answer htidy hkey hlists r
    have hfirst : (∀ n ≤ (r :: requests).length,
          ListsFiles key (after key s ((r :: requests).take n))) ↔
        ∀ n ≤ requests.length,
          ListsFiles key (after key ((r.answer key).exec s).2 (requests.take n)) := by
      constructor
      · exact fun h n hn => h (n + 1) (Nat.succ_le_succ hn)
      · rintro h (_ | n) hn
        · exact hlists
        · exact h n (Nat.le_of_succ_le_succ hn)
    rw [hfirst]
    by_cases hbreaks : Breaks key s r
    -- the list is wrong after this request, whatever the ones after it do
    · refine iff_of_false (fun h => ?_) fun h => h 0 (Nat.succ_pos _) hbreaks
      exact hleaves.lists.mp (h 0 (Nat.zero_le _)) hbreaks
    · have htidy' : TidyDirectory (((r.answer key).exec s).2.sessionDirectory key) parent
          ((r.answer key).exec s).2.machine.disk := by
        rw [sessionDirectory, hleaves.directory]
        exact hleaves.tidy
      rw [ih htidy' (hleaves.lists.mpr hbreaks)]
      constructor
      · rintro h (_ | n) hn
        · exact hbreaks
        · exact h n (Nat.lt_of_succ_lt_succ hn)
      · exact fun h n hn => h (n + 1) (Nat.succ_lt_succ hn)

end

/-- A session without files, whose directory is empty or can be made. -/
structure Fresh (key : String) (s : Service σ) : Prop where
  named : key ≠ ""
  session : ∃ session, s.sessions.read key = .ok session ∧ session.files = []
  directory : (s.machine.disk.withDirectory (s.sessionDirectory key)).list
    (s.sessionDirectory key) = .ok []

variable {s : Service σ}

theorem Fresh.tidyDirectory (h : Fresh key s) :
    ∃ parent, TidyDirectory (s.sessionDirectory key) parent s.machine.disk ∧
      ∀ name, ¬ Has (s.sessionDirectory key) parent s.machine.disk name := by
  obtain ⟨parent, henter, hnone⟩ := Disk.list_eq_nil h.directory
  have hhas : ∀ name, ¬ Has (s.sessionDirectory key) parent s.machine.disk name :=
    fun name => not_not_intro (hnone name)
  exact ⟨parent, ⟨henter, fun name hname => absurd hname (hhas name), .inr hhas⟩, hhas⟩

theorem Fresh.listsFiles (h : Fresh key s) : ListsFiles key s := by
  obtain ⟨parent, htidy, hnone⟩ := h.tidyDirectory
  obtain ⟨session, hread, hfiles⟩ := h.session
  rw [listsFiles_iff htidy hread, hfiles]
  exact ⟨List.nodup_nil, fun text => by simp [hnone]⟩

/-- The list of a session that starts without files holds the paths of the files in its directory
after every request, exactly as long as no request breaks it. -/
theorem listsFiles_after_iff {key : String} {s : Service σ} (h : Fresh key s)
    (requests : List FileRequest) :
    (∀ n ≤ requests.length, ListsFiles key (after key s (requests.take n))) ↔
      ∀ n (h : n < requests.length),
        ¬ Breaks key (after key s (requests.take n)) (requests.get ⟨n, h⟩) := by
  obtain ⟨parent, htidy, -⟩ := h.tidyDirectory
  exact listsFiles_along_iff h.named requests htidy h.listsFiles

/-- A service with one session, that has just started. -/
def oneSession : Service where
  directory := Path.ofString "/csvs"
  sessions := ⟨[("S", {})]⟩

theorem fresh_oneSession : Fresh "S" oneSession where
  named := by decide
  session := ⟨{}, rfl, rfl⟩
  directory := by decide +kernel

/-- A file that is deleted can be created again. -/
theorem listsFiles_createdAgain :
    Fresh "S" oneSession ∧
      ∀ n ≤ 4, ListsFiles "S" (after "S" oneSession (List.take n
        [.create "a" [[.text "x"]] true, .create "b.csv" [[.text "x"], [.int 1]] false,
          .delete "a.csv", .create "a" [[.text "y"]] true])) :=
  ⟨fresh_oneSession, (listsFiles_after_iff fresh_oneSession
    [.create "a" [[.text "x"]] true, .create "b.csv" [[.text "x"], [.int 1]] false,
      .delete "a.csv", .create "a" [[.text "y"]] true]).mpr (by decide +kernel)⟩

/-- A file that is created twice is in the list twice. -/
theorem not_listsFiles_createdTwice :
    Fresh "S" oneSession ∧
      ¬ ListsFiles "S" (after "S" oneSession
        [.create "a" [[.text "x"]] true, .create "a" [[.text "y"]] true]) := by
  refine ⟨fresh_oneSession, ?_⟩
  have hread : (after "S" oneSession [.create "a" [[.text "x"]] true,
      .create "a" [[.text "y"]] true]).sessions.read "S" =
        .ok { files := ["/csvs/S/a.csv", "/csvs/S/a.csv"] } := by
    decide +kernel
  rintro ⟨session, hsession, hnodup, -⟩
  obtain rfl := Except.ok.inj (hread.symm.trans hsession)
  exact absurd hnodup (by decide)

end TableScript.Service
