import TableScript.Proofs.ConfinedRuns
import TableScript.Proofs.SessionFiles

/-!
# Files outside of a directory

A request about the files of a session should leave every file alone that does not lie in the
directory of the session (`KeepsOutside`). `keepsOutside_answer_iff` tells which requests do.

* Creating a file does: its name is checked, so that the file that is cleared away and the one that
  is written lie right below the directory.
* The name of a file that is deleted is not checked. It can lead up and out of the directory, or be
  an absolute path; the request then removes whatever file is there (`FileRequest.Strays`). A name
  without a slash never leads out.
-/

namespace TableScript

open Disk

namespace Disk

variable {d d' : Disk} {p : Path} {place : Location}

/-- A place lies in the directory that a path leads to, or further in. -/
def Inside (d : Disk) (p : Path) (place : Location) : Prop :=
  ∃ parent, d.enter p = .ok parent ∧ parent <+: place

instance (d : Disk) (p : Path) (place : Location) : Decidable (d.Inside p place) :=
  match h : d.enter p with
  | .error _ => isFalse fun ⟨_, henter, _⟩ => by rw [h] at henter; cases henter
  | .ok parent =>
    decidable_of_iff (parent <+: place)
      ⟨fun hplace => ⟨parent, h, hplace⟩, fun ⟨_, henter, hplace⟩ =>
        Except.ok.inj (h.symm.trans henter) ▸ hplace⟩

theorem inside_of_locate {name : String} (hup : name ≠ "..")
    (h : d.locate (p.child name) = .ok place) : d.Inside p place := by
  obtain ⟨-, -, parent, henter, rfl⟩ := (locate_child_eq_ok_iff hup).mp h
  exact ⟨parent, henter, List.prefix_append parent [name]⟩

theorem SameDirectories.inside_iff (h : d.SameDirectories d') :
    d'.Inside p place ↔ d.Inside p place :=
  exists_congr fun _ => and_congr_left' h.enter_iff

end Disk

namespace Service

open ServiceM

variable {σ : Type} [SessionStore σ]

/-- The files of one disk that do not lie in a directory are those of another. Where the directory
is, the later disk tells. -/
def KeepsOutside (directory : Path) (d d' : Disk) : Prop :=
  ∀ place, ¬ d'.Inside directory place → d'.file? place = d.file? place

section

variable {directory : Path} {key name : String} {d d' d'' : Disk} {place : Location} {text : String}

/-! ## Changes of the disk -/

theorem keepsOutside_withDirectory (directory : Path) (d : Disk) :
    KeepsOutside directory d (d.withDirectory directory) :=
  fun _ _ => file?_withDirectory _

theorem Cleared.keepsOutside (h : Cleared (d.withDirectory directory)
    (twinPath directory name) d') :
    KeepsOutside directory d d' := by
  intro other hother
  have hsame := h.sameDirectories
  rw [hsame.inside_iff] at hother
  have helsewhere : (d.withDirectory directory).locate (twinPath directory name) ≠ .ok other :=
    fun hlocate => hother (inside_of_locate (Path.isCsvName_append name).ne.2.2 hlocate)
  rw [file?, h.node?_of_ne helsewhere, ← file?, file?_withDirectory]

theorem KeepsOutside.write (h : KeepsOutside directory d d') (hup : name ≠ "..")
    (hwrite : d'.write (directory.child name) text = .ok d'') : KeepsOutside directory d d'' := by
  obtain ⟨place, hlocate, hnode, rfl⟩ := write_eq_ok_iff.mp hwrite
  intro other hother
  rw [(sameDirectories_set hnode text).inside_iff] at hother
  have helsewhere : other ≠ place := by
    rintro rfl
    exact hother (inside_of_locate hup hlocate)
  rw [file?_set (ne_nil_of_node? hnode), if_neg helsewhere, h other hother]

theorem keepsOutside_remove_iff (hfile : d.node? place = some (.file text)) :
    KeepsOutside directory d (d.remove (· == place)) ↔ d.Inside directory place := by
  have hroot := ne_nil_of_file hfile
  have hsame := sameDirectories_remove hfile
  constructor
  · intro hkeeps
    by_contra houtside
    have hgone := hkeeps place (mt hsame.inside_iff.mp houtside)
    rw [file?_remove hroot, if_pos rfl, file?_eq_some_iff.mpr hfile] at hgone
    cases hgone
  · intro hinside other hother
    rw [hsame.inside_iff] at hother
    rw [file?_remove hroot, if_neg]
    rintro rfl
    exact hother hinside

/-! ## Requests -/

/-- A request leads to a file that does not lie in the directory of the session. -/
def FileRequest.Strays (key : String) (s : Service σ) : FileRequest → Prop
  | .create .. => False
  | .delete name => key ≠ "" ∧ ∃ place text,
      s.machine.disk.locate (filePath (s.sessionDirectory key) name) = .ok place ∧
      s.machine.disk.node? place = some (.file text) ∧
      ¬ s.machine.disk.Inside (s.sessionDirectory key) place

theorem keepsOutside_createFile (directory : Path) (key name : String) (sheet : Sheet)
    (headers : Bool) (s : Service σ) :
    KeepsOutside directory s.machine.disk
      ((createFile directory key name sheet headers).exec s).2.machine.disk := by
  have hcreates := creates_createFile directory key name sheet headers s
  generalize (createFile directory key name sheet headers).exec s = outcome at hcreates
  have hup : csvName name ≠ ".." := (isCsvName_csvName name).ne.2.2
  cases hcreates with
  | refused => exact fun _ _ => rfl
  | broke hmade =>
    rcases hmade with rfl | rfl
    · exact fun _ _ => rfl
    · exact keepsOutside_withDirectory directory s.machine.disk
  | lost _ hcleared => exact hcleared.keepsOutside
  | full hready | unwritten hready => exact hready.cleared.keepsOutside
  | partly hready _ hwrite | done hready _ hwrite =>
    rw [filePath_of_check hready.check] at hwrite
    exact hready.cleared.keepsOutside.write hup hwrite

theorem keepsOutside_deleteFile_iff (directory : Path) (key name : String) (s : Service σ) :
    KeepsOutside directory s.machine.disk
        ((deleteFile directory key name).exec s).2.machine.disk ↔
      ∀ place text, s.machine.disk.locate (filePath directory name) = .ok place →
        s.machine.disk.node? place = some (.file text) →
          s.machine.disk.Inside directory place := by
  have hdeletes := deletes_deleteFile directory key name s
  generalize (deleteFile directory key name).exec s = outcome at hdeletes
  -- the path leads to one place, so that all is decided by the file that is found there
  have honly : ∀ {place text}, s.machine.disk.locate (filePath directory name) = .ok place →
      s.machine.disk.node? place = some (.file text) →
      (s.machine.disk.Inside directory place ↔
        ∀ other text, s.machine.disk.locate (filePath directory name) = .ok other →
          s.machine.disk.node? other = some (.file text) →
          s.machine.disk.Inside directory other) := by
    intro place text hlocate hfile
    refine ⟨fun hinside other _ hother _ => ?_, fun h => h place text hlocate hfile⟩
    rwa [← Except.ok.inj (hlocate.symm.trans hother)]
  cases hdeletes with
  | absent habsent =>
    refine iff_of_true (fun _ _ => rfl) fun place text hlocate hfile => ?_
    exact absurd hfile (habsent place text hlocate)
  | done hlocate hfile => exact (keepsOutside_remove_iff hfile).trans (honly hlocate hfile)
  | unlisted hlocate hfile => exact (keepsOutside_remove_iff hfile).trans (honly hlocate hfile)
  | lost _ hlocate hfile => exact (keepsOutside_remove_iff hfile).trans (honly hlocate hfile)

theorem FileRequest.Strays.slash_mem {s : Service σ} {r : FileRequest} (h : r.Strays key s) :
    ∃ name, r = .delete name ∧ '/' ∈ name.toList := by
  cases r with
  | create => cases h
  | delete name =>
    obtain ⟨-, place, text, hlocate, -, houtside⟩ := h
    refine ⟨name, rfl, ?_⟩
    by_contra hslash
    rw [filePath_of_slash hslash] at hlocate
    exact houtside (inside_of_locate (isCsvName_csvName name).ne.2.2 hlocate)

end

/-- A request about the files of a session leaves all files alone that do not lie in the directory
of the session, exactly if it does not stray; and only a name with a slash, in a request to delete a
file, strays. -/
theorem keepsOutside_answer_iff (key : String) (s : Service σ) (r : FileRequest) :
    (KeepsOutside (s.sessionDirectory key) s.machine.disk
        ((r.answer key).exec s).2.machine.disk ↔ ¬ r.Strays key s) ∧
      (r.Strays key s → ∃ name, r = .delete name ∧ '/' ∈ name.toList) := by
  refine ⟨?_, FileRequest.Strays.slash_mem⟩
  by_cases hkey : key = ""
  · -- without a cookie nothing is done
    have hcookie : (some key).getD "" = "" := hkey
    have hstill : ((r.answer key).exec s).2 = s := by
      cases r with
      | create name sheet headers =>
        rw [FileRequest.answer, create, exec_bind_fail (exec_verify_rejected hcookie s)]
      | delete name =>
        rw [FileRequest.answer, delete, exec_bind_fail (exec_verify_rejected hcookie s)]
    rw [hstill]
    refine iff_of_true (fun _ _ => rfl) fun hstrays => ?_
    cases r with
    | create => cases hstrays
    | delete => exact hstrays.1 hkey
  · rw [FileRequest.exec_answer_snd hkey]
    cases r with
    | create name sheet headers =>
      exact iff_of_true (keepsOutside_createFile _ key name sheet headers s) id
    | delete name =>
      refine (keepsOutside_deleteFile_iff _ key name s).trans ?_
      simp only [FileRequest.Strays, ne_eq, hkey, not_false_eq_true, true_and, not_exists,
        not_and, not_not]

/-- Deleting a file by a path that leads up removes a file next to the directory. -/
theorem not_keepsOutside_deletingUp :
    let s := sharedDisk (.file "2\r\n")
    ¬ KeepsOutside (s.sessionDirectory "S") s.machine.disk
      (((FileRequest.delete "../x").answer "S").exec s).2.machine.disk := by
  intro s hkeeps
  have houtside : ¬ (((FileRequest.delete "../x").answer "S").exec s).2.machine.disk.Inside
      (s.sessionDirectory "S") ["csvs", "x.csv"] := by
    decide +kernel
  have hthere : s.machine.disk.file? ["csvs", "x.csv"] = some "2\r\n" := by decide +kernel
  have hgone : (((FileRequest.delete "../x").answer "S").exec s).2.machine.disk.file?
      ["csvs", "x.csv"] = none := by
    decide +kernel
  have hsame := hkeeps _ houtside
  rw [hthere, hgone] at hsame
  cases hsame

end Service

end TableScript
