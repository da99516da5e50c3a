import TableScript.Proofs.ConfinedRuns
import TableScript.Proofs.SessionFiles

/-!
# Sessions over many requests

What the requests of a session leave of it when they come one after the other, whether they succeed
or fail (`served`).

* A request that runs a program adds it to the history and does nothing else to the session or to
  the disk; requests about files leave the history alone. So the history is the list of the programs
  that were sent (`history_served`).
* Every file in the directory stays listed (`Accounted`), and a file is only written while there is
  room in the list. So the files are at most as many as the list is long, which is never longer than
  the limit (`csvFiles_served_le`). Only a file that is written in part gets around the list
  (`Request.CutOff`).
-/

namespace TableScript.Service

open ServiceM Sessions

variable {σ : Type} [SessionStore σ]

/-- A request of a session. -/
inductive Request where
  | file (r : FileRequest)
  | interpret (text : String)
  | history

namespace Request

/-- The service after a request. -/
def run (key : String) (s : Service σ) : Request → Service σ
  | file r => ((r.answer key).exec s).2
  | interpret text => ((Service.interpret (some key) text).exec s).2
  | history => ((Service.history (some key)).exec s).2

/-- The programs that a request runs. -/
def inputs : Request → List String
  | file _ | history => []
  | interpret text => [text]

/-- Is it about files? -/
def isFile : Request → Bool
  | file _ => true
  | interpret _ | history => false

end Request

/-- The service after requests that come one after the other. -/
def served (key : String) (s : Service σ) (requests : List Request) : Service σ :=
  requests.foldl (Request.run key) s

section

variable {key : String} {s : Service σ} {session : Session}

theorem served_append (key : String) (s : Service σ) (requests more : List Request) :
    served key s (requests ++ more) = served key (served key s requests) more :=
  List.foldl_append

theorem exec_verify_key (hkey : key ≠ "") (s : Service σ) :
    (verify (some key)).exec s = (.ok key, s) :=
  exec_verify_ok (show (some key).getD "" ≠ "" from hkey) s

/-! ## Running programs -/

theorem disk_executeDirect {directory : Path} {m : Machine} (h : m.confinement = some directory)
    (text : String) : (executeDirect text m).2.disk = m.disk := by
  have hsame : SameFiles directory m.disk m.disk := fun _ => rfl
  exact (unseen_executeDirect hsame text m h rfl).1

section

variable (hread : s.sessions.read key = .ok session)

include hread

theorem exec_interpret (hkey : key ≠ "") (text : String) :
    ((interpret (some key) text).exec s).2 =
      { s with
        sessions := s.sessions.write key { session with history := session.history ++ [text] }
        machine := (executeDirect text
          { s.machine with confinement := some (s.sessionDirectory key) }).2 } := by
  have hchange := exec_changeSession_ok (change_add hread .history text)
  rw [interpret, exec_bind_of (exec_verify_key hkey s), exec_bind_of hchange,
    exec_bind_of (exec_directoryOf _ _), exec_tryCatch, exec_runIn]
  generalize hrun : executeDirect text _ = outcome
  have hsame : executeDirect text
      { s.machine with confinement := some (s.sessionDirectory key) } = outcome := hrun
  rw [hsame]
  rcases outcome with ⟨f | t, machine⟩
  · rw [exec_ofExcept_fault rfl]
    dsimp only
    split <;> rfl
  · rfl

theorem exec_history (hkey : key ≠ "") :
    (history (some key)).exec s = (.ok session.history, s) := by
  rw [history, exec_bind_of (exec_verify_key hkey s), exec_bind_of (exec_session_ok hread)]
  rfl

/-! ## The history -/

theorem FileRequest.keeps_act (directory : Path) (r : FileRequest) :
    ∃ files, ((r.act directory key).exec s).2.sessions.read key = .ok { session with files } ∧
      ((r.act directory key).exec s).2.limits = s.limits ∧
      ((r.act directory key).exec s).2.directory = s.directory := by
  cases r with
  | create name sheet headers =>
    rw [act]
    have hcreates := creates_createFile directory key name sheet headers s
    generalize (createFile directory key name sheet headers).exec s = outcome at hcreates
    cases hcreates with
    | done hready =>
      obtain rfl := Except.ok.inj (hread.symm.trans hready.read)
      exact ⟨_, read_write _ _ _, rfl, rfl⟩
    | _ => exact ⟨session.files, hread, rfl, rfl⟩
  | delete name =>
    rw [act]
    have hdeletes := deletes_deleteFile directory key name s
    generalize (deleteFile directory key name).exec s = outcome at hdeletes
    cases hdeletes with
    | done _ _ hsession =>
      obtain rfl := Except.ok.inj (hread.symm.trans hsession)
      exact ⟨_, read_write _ _ _, rfl, rfl⟩
    | _ => exact ⟨session.files, hread, rfl, rfl⟩

theorem Request.keeps_run (hkey : key ≠ "") (r : Request) :
    (∃ after, (r.run key s).sessions.read key = .ok after ∧
      after.history = session.history ++ r.inputs ∧
      (r.isFile = false → after.files = session.files)) ∧
    (r.run key s).limits = s.limits ∧ (r.run key s).directory = s.directory := by
  cases r with
  | file r =>
    rw [run, FileRequest.exec_answer_snd hkey]
    obtain ⟨files, hfiles, hsettings⟩ := r.keeps_act hread (s.sessionDirectory key)
    exact ⟨⟨_, hfiles, (List.append_nil _).symm, nofun⟩, hsettings⟩
  | interpret text =>
    rw [run, exec_interpret hread hkey]
    exact ⟨⟨_, read_write _ _ _, rfl, fun _ => rfl⟩, rfl, rfl⟩
  | history =>
    rw [run, exec_history hread hkey]
    exact ⟨⟨session, hread, (List.append_nil _).symm, fun _ => rfl⟩, rfl, rfl⟩

theorem read_served (hkey : key ≠ "") (requests : List Request) :
    ∃ after, (served key s requests).sessions.read key = .ok after ∧
      after.history = session.history ++ requests.flatMap Request.inputs := by
  induction requests generalizing s session with
  | nil => exact ⟨session, hread, (List.append_nil _).symm⟩
  | cons r requests ih =>
    obtain ⟨next, hnext, hhistory, -⟩ := (r.keeps_run hread hkey).1
    obtain ⟨after, hafter, hrest⟩ := ih hnext
    exact ⟨after, hafter, by rw [hrest, hhistory, List.flatMap_cons, List.append_assoc]⟩

end

theorem read_of_start {s₀ : Service σ} {cookie : Option String}
    (h : (start cookie).exec s₀ = (.ok (some key), s)) :
    key ≠ "" ∧ s.sessions.read key = .ok {} := by
  unfold start at h
  split at h
  · cases h
    exact ⟨by decide, read_write _ _ _⟩
  · cases h

end

/-- In a session that has been started, whatever requests come and whether they succeed or fail, the
history that is told holds the programs that were sent to be run, in order and each as often as it
was sent. Requests about files do not change the history, and all others do not change the list of
files. -/
theorem history_served {s₀ s : Service σ} {cookie : Option String} {key : String}
    (h : (start cookie).exec s₀ = (.ok (some key), s)) (requests : List Request) :
    (history (some key)).exec (served key s requests) =
        (.ok (requests.flatMap Request.inputs), served key s requests) ∧
      ∀ r : Request, ∃ before after,
        (served key s requests).sessions.read key = .ok before ∧
        (served key s (requests ++ [r])).sessions.read key = .ok after ∧
        (r.isFile = true → after.history = before.history) ∧
        (r.isFile = false → after.files = before.files) := by
  obtain ⟨hkey, hread⟩ := read_of_start h
  obtain ⟨before, hbefore, hhistory⟩ := read_served hread hkey requests
  refine ⟨by rw [exec_history hbefore hkey, hhistory]; rfl, fun r => ?_⟩
  obtain ⟨after, hafter, hinputs, hfiles⟩ := (r.keeps_run hbefore hkey).1
  refine ⟨before, after, hbefore, ?_, fun hfile => ?_, hfiles⟩
  · rw [served_append]
    exact hafter
  · cases r with
    | file => rw [hinputs, Request.inputs, List.append_nil]
    | _ => cases hfile

/-- A program that is none is in the history like one that is. -/
theorem history_served_incomplete :
    let s₀ : Service := {}
    let s := ((start none).exec s₀).2
    let requests := [.interpret "1 +", .file (.create "a" [[.text "x"]] true), .interpret "2",
      .history, .file (.delete "../b"), .interpret "2"]
    (start none).exec s₀ = (.ok (some newCookie), s) ∧
      (history (some newCookie)).exec (served newCookie s requests) =
        (.ok ["1 +", "2", "2"], served newCookie s requests) :=
  have hstart : (start none).exec ({} : Service) = (.ok (some newCookie), _) := rfl
  ⟨hstart, (history_served hstart _).1⟩

/-! ## The number of files -/

/-- The names of the files of comma-separated values in a directory. -/
def csvFiles (d : Disk) (directory : Path) : Set String :=
  {name | Path.IsCsvName name ∧ d.holdsFile (directory.child name) = true}

/-- Every file in a directory is listed, the list holds only paths of files that could be there, and
it keeps to a limit. -/
structure Accounted (directory : Path) (parent : Location) (limit : Nat) (d : Disk)
    (files : List String) : Prop where
  tidy : TidyDirectory directory parent d
  listed (name : String) : Has directory parent d name → (directory.child name).text ∈ files
  named (text : String) : text ∈ files → ∃ name, Path.IsCsvName name ∧
    '/' ∉ name.toList ∧ text = (directory.child name).text
  room : files.length ≤ limit

namespace Accounted

variable {directory : Path} {parent : Location} {limit : Nat} {d d' : Disk} {files : List String}
  {name : String}

section

variable (h : Accounted directory parent limit d files)
include h

theorem encard_le :
    (csvFiles d directory).encard ≤ files.length := by
  -- the list may name a file more than once, but different files have different paths
  have himage : (fun name => (directory.child name).text) '' csvFiles d directory ⊆
      (files.toFinset : Set String) := by
    rintro _ ⟨name, ⟨hcsv, hfile⟩, rfl⟩
    exact List.mem_toFinset.mpr (h.listed name ((h.tidy.has_iff hcsv).mpr hfile))
  calc (csvFiles d directory).encard
      = ((fun name => (directory.child name).text) '' csvFiles d directory).encard :=
        (directory.text_child_injective.encard_image _).symm
    _ ≤ (files.toFinset : Set String).encard := Set.encard_le_encard himage
    _ = files.toFinset.card := Set.encard_coe_eq_coe_finsetCard _
    _ ≤ files.length := by exact_mod_cast files.toFinset_card_le

section

variable (htidy : TidyDirectory directory parent d')
include htidy

theorem shrink (hhas : ∀ name, Has directory parent d' name → Has directory parent d name) :
    Accounted directory parent limit d' files :=
  ⟨htidy, fun name hname => h.listed name (hhas name hname), h.named, h.room⟩

theorem add (hcsv : Path.IsCsvName name) (hslash : '/' ∉ name.toList)
    (hhas : ∀ other, Has directory parent d' other → Has directory parent d other ∨
      other = name)
    (hroom : files.length < limit) :
    Accounted directory parent limit d' (files ++ [(directory.child name).text]) := by
  refine ⟨htidy, fun other hother => ?_, fun text htext => ?_, ?_⟩
  · rw [List.mem_append, List.mem_singleton]
    rcases hhas other hother with hold | rfl
    · exact .inl (h.listed other hold)
    · exact .inr rfl
  · rcases List.mem_append.mp htext with hold | hnew
    · exact h.named text hold
    · exact ⟨name, hcsv, hslash, List.mem_singleton.mp hnew⟩
  · rw [List.length_append, List.length_singleton]
    omega

theorem erase
    (hhas : ∀ other, Has directory parent d' other → Has directory parent d other ∧
      other ≠ name) :
    Accounted directory parent limit d' (files.erase (directory.child name).text) := by
  refine ⟨htidy, fun other hother => ?_, fun text htext => ?_, ?_⟩
  · obtain ⟨hold, hne⟩ := hhas other hother
    exact (List.mem_erase_of_ne (directory.text_child_injective.ne hne)).mpr (h.listed other hold)
  · exact h.named text (List.mem_of_mem_erase htext)
  · exact (List.length_erase_le).trans h.room

end

end

end Accounted

/-- A request to create a file is rejected because of a row that cannot be written, after the rows
before it have been. -/
def Request.CutOff (key : String) (s : Service σ) : Request → Prop
  | file (.create name sheet headers) => ∃ f, (written sheet headers).2 = .error f ∧
      ((create (some key) name sheet headers).exec s).1 = .error (.rejected (.writing f))
  | file (.delete _) | interpret _ | history => False

/-- The files of a session are accounted for in its list. -/
def FilesAccounted (key : String) (parent : Location) (s : Service σ) : Prop :=
  ∃ session, s.sessions.read key = .ok session ∧
    Accounted (s.sessionDirectory key) parent s.limits.files s.machine.disk session.files

section

variable {key : String} {s : Service σ} {parent : Location}

section

variable (h : FilesAccounted key parent s)

include h

theorem FilesAccounted.shrink {d : Disk} (htidy : TidyDirectory (s.sessionDirectory key) parent d)
    (hhas : ∀ name, Has (s.sessionDirectory key) parent d name →
      Has (s.sessionDirectory key) parent s.machine.disk name) :
    FilesAccounted key parent (s.withDisk d) := by
  obtain ⟨session, hread, haccounted⟩ := h
  exact ⟨session, hread, haccounted.shrink htidy hhas⟩

theorem filesAccounted_createFile (name : String) (sheet : Sheet) (headers : Bool)
    (hwhole : ∀ f, (written sheet headers).2 = .error f →
      ((createFile (s.sessionDirectory key) key name sheet headers).exec s).1 ≠
        .error (.rejected (.writing f))) :
    FilesAccounted key parent
      ((createFile (s.sessionDirectory key) key name sheet headers).exec s).2 := by
  have hcreates := creates_createFile (s.sessionDirectory key) key name sheet headers s
  generalize (createFile (s.sessionDirectory key) key name sheet headers).exec s = outcome
    at hcreates hwhole
  obtain ⟨session, hread, haccounted⟩ := id h
  have htidy := haccounted.tidy
  -- up to the point where the file is written, at most one file has gone
  have hcleared : ∀ {d}, Cleared (s.machine.disk.withDirectory (s.sessionDirectory key))
      (twinPath (s.sessionDirectory key) name) d → FilesAccounted key parent (s.withDisk d) := by
    intro d hcleared
    obtain ⟨htidy', hhas⟩ := htidy.cleared hcleared
    exact h.shrink htidy' fun other hother => ((hhas other).mp hother).1
  cases hcreates with
  | refused => exact h
  | broke hmade =>
    rcases hmade with rfl | rfl
    · exact h
    · obtain ⟨htidy', hhas⟩ := htidy.withDirectory
      exact h.shrink htidy' fun other => (hhas other).mp
  | lost _ h => exact hcleared h
  | full hready | unwritten hready => exact hcleared hready.cleared
  | partly _ _ _ houtcome => exact absurd rfl (hwhole _ houtcome)
  | @done d d' session' hready hroom hwrite =>
    -- the room that was checked is that of the list as it still is
    obtain rfl := Except.ok.inj (hread.symm.trans hready.read)
    obtain ⟨htidy', hhas⟩ := has_of_write htidy hready hwrite
    refine ⟨_, read_write _ _ _, ?_⟩
    rw [filePath_of_check hready.check]
    refine haccounted.add htidy' (isCsvName_csvName name)
      (slash_not_mem_csvName (slash_not_mem_of_check hready.check)) (fun other hother => ?_) hroom
    exact ((hhas other).mp hother).imp_left And.left

theorem filesAccounted_deleteFile (name : String) :
    FilesAccounted key parent ((deleteFile (s.sessionDirectory key) key name).exec s).2 := by
  obtain ⟨session, hread, haccounted⟩ := id h
  have hdeletes := deletes_deleteFile (s.sessionDirectory key) key name s
  generalize (deleteFile (s.sessionDirectory key) key name).exec s = outcome at hdeletes
  have htidy := haccounted.tidy
  -- a file may go from the directory although it is not taken out of the list
  have hremoved : ∀ {place text}, s.machine.disk.node? place = some (.file text) →
      FilesAccounted key parent (s.withDisk (s.machine.disk.remove (· == place))) := by
    intro place text hfile
    obtain ⟨htidy', hhas⟩ := htidy.remove hfile
    exact h.shrink htidy' fun other hother => ((hhas other).mp hother).1
  cases hdeletes with
  | absent => exact h
  | unlisted _ hfile | lost _ _ hfile => exact hremoved hfile
  | @done place text session' hlocate hfile hsession hlisted =>
    obtain rfl := Except.ok.inj (hread.symm.trans hsession)
    -- the path is in the list, so it is that of a file in the directory
    obtain ⟨old, hcsv, hslash, htext⟩ := haccounted.named _ hlisted
    have hpath := filePath_of_text (s.isPlain_sessionDirectory key) hcsv hslash htext
    obtain ⟨-, rfl⟩ := htidy.enter_of_locate hcsv (hpath ▸ hlocate)
    obtain ⟨htidy', hhas⟩ := htidy.remove hfile
    refine ⟨_, read_write _ _ _, ?_⟩
    rw [hpath]
    refine haccounted.erase htidy' fun other hother => ?_
    simpa using (hhas other).mp hother

theorem Request.filesAccounted_run (hkey : key ≠ "") (r : Request) (hwhole : ¬ r.CutOff key s) :
    FilesAccounted key parent (r.run key s) := by
  cases r with
  | file r =>
    rw [Request.run, FileRequest.exec_answer_snd hkey]
    cases r with
    | create name sheet headers =>
      refine filesAccounted_createFile h name sheet headers fun f hf hrejected => ?_
      refine hwhole ⟨f, hf, ?_⟩
      rw [exec_create (show (some key).getD "" ≠ "" from hkey)]
      exact congrArg Prod.fst (exec_bind_fail (Prod.ext hrejected rfl))
    | delete name => exact filesAccounted_deleteFile h name
  | interpret text =>
    obtain ⟨session, hread, haccounted⟩ := h
    rw [Request.run, exec_interpret hread hkey]
    refine ⟨_, read_write _ _ _, ?_⟩
    -- the program is confined, so what is accounted for is the same disk
    have hdisk := disk_executeDirect
      (m := { s.machine with confinement := some (s.sessionDirectory key) }) rfl text
    show Accounted (s.sessionDirectory key) parent s.limits.files (executeDirect text _).2.disk _
    rw [hdisk]
    exact haccounted
  | history =>
    obtain ⟨session, hread, haccounted⟩ := h
    rw [Request.run, exec_history hread hkey]
    exact ⟨session, hread, haccounted⟩

theorem filesAccounted_served (hkey : key ≠ "") (requests : List Request)
    (hwhole : ∀ n (hn : n < requests.length),
      ¬ (requests.get ⟨n, hn⟩).CutOff key (served key s (requests.take n))) :
    FilesAccounted key parent (served key s requests) ∧
      (served key s requests).limits = s.limits ∧
      (served key s requests).directory = s.directory := by
  induction requests generalizing s with
  | nil => exact ⟨h, rfl, rfl⟩
  | cons r requests ih =>
    obtain ⟨session, hread, -⟩ := id h
    obtain ⟨hlimits, hdirectory⟩ := (r.keeps_run hread hkey).2
    have hnext := r.filesAccounted_run h hkey (hwhole 0 (Nat.succ_pos _))
    obtain ⟨hlast, hlimits', hdirectory'⟩ :=
      ih hnext fun n hn => hwhole (n + 1) (Nat.succ_lt_succ hn)
    exact ⟨hlast, hlimits'.trans hlimits, hdirectory'.trans hdirectory⟩

end

end

theorem Fresh.filesAccounted {key : String} {s : Service σ} (h : Fresh key s) :
    ∃ parent, FilesAccounted key parent s := by
  obtain ⟨parent, htidy, hnone⟩ := h.tidyDirectory
  obtain ⟨session, hread, hfiles⟩ := h.session
  refine ⟨parent, session, hread, htidy, fun name hname => absurd hname (hnone name), ?_, ?_⟩
  · simp [hfiles]
  · simp [hfiles]

/-- In a session that starts without files, whatever requests come and whether they succeed or fail,
there are never more files in the directory than entries in the list of the session, and never more
entries than the limit allows, as long as no file is cut off. -/
theorem csvFiles_served_le {key : String} {s : Service σ} (h : Fresh key s)
    (requests : List Request)
    (hwhole : ∀ n (hn : n < requests.length),
      ¬ (requests.get ⟨n, hn⟩).CutOff key (served key s (requests.take n))) :
    ∃ session, (served key s requests).sessions.read key = .ok session ∧
      (csvFiles (served key s requests).machine.disk (s.sessionDirectory key)).encard ≤
        session.files.length ∧
      session.files.length ≤ s.limits.files := by
  obtain ⟨parent, haccounted⟩ := h.filesAccounted
  obtain ⟨⟨session, hread, hlast⟩, hlimits, hdirectory⟩ :=
    filesAccounted_served haccounted h.named requests hwhole
  rw [hlimits, sessionDirectory, hdirectory] at hlast
  exact ⟨session, hread, hlast.encard_le, hlast.room⟩

theorem Request.not_cutOff {name : String} {sheet : Sheet} {headers : Bool}
    (h : (written sheet headers).2 = .ok ()) (key : String) (s : Service σ) :
    ¬ (Request.file (.create name sheet headers)).CutOff key s := by
  rintro ⟨f, hf, -⟩
  rw [h] at hf
  cases hf

/-- A file that is created twice counts twice, also after it has been deleted by another path. -/
theorem csvFiles_served_le_again :
    let requests := [.file (.create "a" [[.text "x"]] true), .interpret "1 + 1",
      .file (.create "a" [[.text "y"], [.int 1]] true), .file (.delete "../S/a"), .history,
      .file (.create "b.csv" [[.text "z"]] false), .file (.delete "b")]
    Fresh "S" oneSession ∧
      (∀ n (hn : n < requests.length), ¬ (requests.get ⟨n, hn⟩).CutOff "S"
        (served "S" oneSession (requests.take n))) ∧
      ∃ session, (served "S" oneSession requests).sessions.read "S" = .ok session ∧
        (csvFiles (served "S" oneSession requests).machine.disk
          (oneSession.sessionDirectory "S")).encard ≤ session.files.length ∧
        session.files.length ≤ oneSession.limits.files := by
  intro requests
  have hwhole : ∀ r ∈ requests, ∀ s : Service, ¬ r.CutOff "S" s := by
    intro r hr s
    simp only [requests, List.mem_cons, List.not_mem_nil, or_false] at hr
    rcases hr with rfl | rfl | rfl | rfl | rfl | rfl | rfl
    · exact Request.not_cutOff (by decide +kernel) "S" s
    · exact id
    · exact Request.not_cutOff (by decide +kernel) "S" s
    · exact id
    · exact id
    · exact Request.not_cutOff (by decide +kernel) "S" s
    · exact id
  have hall : ∀ n (hn : n < requests.length), ¬ (requests.get ⟨n, hn⟩).CutOff "S"
      (served "S" oneSession (requests.take n)) :=
    fun n hn => hwhole _ (List.get_mem requests ⟨n, hn⟩) _
  exact ⟨fresh_oneSession, hall, csvFiles_served_le fresh_oneSession requests hall⟩

end TableScript.Service
