import Mathlib.Tactic
import TableScript.Csv
import TableScript.Proofs.Exec

/-!
# Paths and disks

* A path is told by its text (`Path.ofString_text`), and a text that ends like the name of a table's
  file is a path whose last name ends so (`Path.parts_ofString_ending`).
* `Disk.enter` is the place of a directory. A path goes on from there with one more name
  (`Disk.locate_child`), so that the files of a directory lie right below its place.
* Which places are directories decides where paths lead. Writing or removing a file keeps them
  (`Disk.SameDirectories`), and with them every path (`Disk.locate_eq_ok_iff`).
* `Disk.withDirectory` is the disk with a directory made where nothing is. This touches no file
  (`Disk.file?_withDirectory`).
-/

namespace TableScript

/-! ## Pieces between slashes -/

variable {current cs : List Char} {name : String}

theorem slashPieces_plain (h : '/' ∉ cs) :
    slashPieces current cs = [String.ofList (current.reverse ++ cs)] := by
  induction cs generalizing current with
  | nil => simp [slashPieces]
  | cons c cs ih =>
    obtain ⟨hc, hcs⟩ := not_or.mp (mt List.mem_cons.mpr h)
    rw [slashPieces, if_neg (by simpa using Ne.symm hc), ih hcs]
    simp

theorem slashPieces_slash (h : '/' ∉ cs) (rest : List Char) :
    slashPieces current (cs ++ '/' :: rest) =
      String.ofList (current.reverse ++ cs) :: slashPieces [] rest := by
  induction cs generalizing current with
  | nil => simp [slashPieces]
  | cons c cs ih =>
    obtain ⟨hc, hcs⟩ := not_or.mp (mt List.mem_cons.mpr h)
    rw [List.cons_append, slashPieces, if_neg (by simpa using Ne.symm hc), ih hcs]
    simp

theorem slashPieces_cons_slash (current rest : List Char) :
    slashPieces current ('/' :: rest) = String.ofList current.reverse :: slashPieces [] rest := by
  simpa using @slashPieces_slash current [] List.not_mem_nil rest

theorem slashPieces_append {tail : List Char} (h : '/' ∉ tail) (current cs : List Char) :
    ∃ pieces last, slashPieces current (cs ++ tail) = pieces ++
      [String.ofList (last ++ tail)] := by
  induction cs generalizing current with
  | nil => exact ⟨[], current.reverse, by rw [List.nil_append, slashPieces_plain h]; rfl⟩
  | cons c cs ih =>
    rw [List.cons_append, slashPieces]
    split
    · obtain ⟨pieces, last, hpieces⟩ := ih []
      exact ⟨_ :: pieces, last, by rw [hpieces]; rfl⟩
    · exact ih (c :: current)

theorem slash_not_mem_of_mem_slashPieces (h : '/' ∉ current) :
    ∀ piece ∈ slashPieces current cs, '/' ∉ piece.toList := by
  induction cs generalizing current with
  | nil => simpa [slashPieces] using h
  | cons c cs ih =>
    rw [slashPieces]
    split
    · intro piece hpiece
      rcases List.mem_cons.mp hpiece with rfl | hpiece
      · simpa using h
      · exact ih List.not_mem_nil piece hpiece
    · next hc => exact ih (by simpa [h] using Ne.symm (by simpa using hc))

/-! ## Paths and their texts -/

namespace Path

/-- A path as it is read from a text. -/
structure IsPlain (p : Path) : Prop where
  root : p.root = "" ∨ p.root = "/" ∨ p.root = "//"
  parts : ∀ name ∈ p.parts, name ≠ "" ∧ name ≠ "." ∧ '/' ∉ name.toList

theorem isPlain_ofString (s : String) : (ofString s).IsPlain where
  root := by
    show rootOf s.toList = "" ∨ rootOf s.toList = "/" ∨ rootOf s.toList = "//"
    unfold rootOf
    split <;> simp
  parts := by
    intro name hname
    obtain ⟨hpiece, hkept⟩ := List.mem_filter.mp hname
    obtain ⟨hempty, hdot⟩ : name ≠ "" ∧ name ≠ "." := by simpa using hkept
    exact ⟨hempty, hdot, slash_not_mem_of_mem_slashPieces List.not_mem_nil name hpiece⟩

variable {p : Path} {parts : List String}

theorem IsPlain.join {q : Path} (hp : p.IsPlain) (hq : q.IsPlain) : (p.join q).IsPlain := by
  unfold Path.join
  split
  · exact hq
  · refine ⟨hp.root, fun name hname => ?_⟩
    rcases List.mem_append.mp hname with h | h
    · exact hp.parts name h
    · exact hq.parts name h

section

variable (h : ∀ name ∈ parts, name ≠ "" ∧ name ≠ "." ∧ '/' ∉ name.toList)

include h

theorem filter_slashPieces_intercalate :
    (slashPieces [] ("/".intercalate parts).toList).filter (fun p => p != "" && p != ".") =
      parts := by
  induction parts with
  | nil => rfl
  | cons name parts ih =>
    obtain ⟨hempty, hdot, hslash⟩ := h name List.mem_cons_self
    have hkept : (name != "" && name != ".") = true := by simp [hempty, hdot]
    cases parts with
    | nil =>
      rw [String.intercalate_singleton, slashPieces_plain hslash]
      simp [hempty, hdot]
    | cons next parts =>
      have htext : ("/".intercalate (name :: next :: parts)).toList =
          name.toList ++ '/' :: ("/".intercalate (next :: parts)).toList := by
        simp [String.toList_intercalate]
      rw [htext, slashPieces_slash hslash, List.filter_cons]
      have hih := ih fun n hn => h n (List.mem_cons_of_mem _ hn)
      simp only [List.reverse_nil, List.nil_append, String.ofList_toList, hkept, if_true, hih]

theorem head?_intercalate_ne : ("/".intercalate parts).toList.head? ≠ some '/' := by
  cases parts with
  | nil => simp
  | cons name parts =>
    obtain ⟨hempty, -, hslash⟩ := h name List.mem_cons_self
    obtain ⟨c, cs, hname⟩ : ∃ c cs, name.toList = c :: cs :=
      List.exists_cons_of_ne_nil fun hnil => hempty (String.toList_eq_nil_iff.mp hnil)
    have hc : c ≠ '/' := fun hc => hslash (hname ▸ hc ▸ List.mem_cons_self)
    cases parts <;>
      simpa [String.toList_intercalate, List.intercalate_cons_cons, List.intercalate, hname]
        using hc

end

theorem rootOf_of_head? (h : cs.head? ≠ some '/') :
    rootOf cs = "" ∧ rootOf ('/' :: cs) = "/" ∧ rootOf ('/' :: '/' :: cs) = "//" := by
  cases cs with
  | nil => exact ⟨rfl, rfl, rfl⟩
  | cons c cs =>
    have hc : c ≠ '/' := fun hc => h (hc ▸ rfl)
    refine ⟨?_, ?_, ?_⟩ <;> unfold rootOf <;> split <;> grind

/-- A plain path is read back from its text. -/
theorem ofString_text (h : p.IsPlain) : ofString p.text = p := by
  obtain ⟨root, parts⟩ := p
  obtain ⟨hroot, hparts⟩ := h
  obtain ⟨hnone, hone, htwo⟩ := rootOf_of_head? (head?_intercalate_ne hparts)
  have hnames := filter_slashPieces_intercalate hparts
  dsimp only at hroot hparts
  unfold text
  split
  · -- the path without root and names is written as a single dot
    next hempty =>
    obtain ⟨rfl, rfl⟩ : root = "" ∧ parts = [] := by simpa using hempty
    rfl
  · rcases hroot with rfl | rfl | rfl
    · rw [String.empty_append, ofString, hnone, hnames]
    · have hlist : ("/" ++ "/".intercalate parts).toList = '/' :: ("/".intercalate parts).toList :=
        String.toList_append
      rw [ofString, hlist, hone, slashPieces_cons_slash, List.filter_cons_of_neg (by simp), hnames]
    · have hlist : ("//" ++ "/".intercalate parts).toList =
          '/' :: '/' :: ("/".intercalate parts).toList := String.toList_append
      rw [ofString, hlist, htwo, slashPieces_cons_slash, slashPieces_cons_slash,
        List.filter_cons_of_neg (by simp), List.filter_cons_of_neg (by simp), hnames]

theorem eq_of_text_eq {q : Path} (hp : p.IsPlain) (hq : q.IsPlain) (h : p.text = q.text) :
    p = q := by
  rw [← ofString_text hp, h, ofString_text hq]

/-- The path of a name in a directory. -/
def child (p : Path) (name : String) : Path :=
  p.join { parts := [name] }

theorem child_eq (p : Path) (name : String) :
    p.child name = { p with parts := p.parts ++ [name] } := rfl

theorem text_child_injective (p : Path) : Function.Injective fun name => (p.child name).text := by
  have htext : ∃ before, ∀ name, (p.child name).text = before ++ name := by
    refine ⟨p.root ++ if p.parts = [] then "" else "/".intercalate p.parts ++ "/",
      fun name => ?_⟩
    have hparts : (p.parts ++ [name]).isEmpty = false := by simp
    rw [child_eq, text, hparts, Bool.and_false, if_neg Bool.false_ne_true, String.append_assoc]
    congr 1
    apply String.toList_inj.mp
    generalize p.parts = parts
    induction parts with
    | nil => simp
    | cons n parts ih => cases parts <;> simp_all [String.toList_intercalate]
  obtain ⟨before, hbefore⟩ := htext
  intro m n hmn
  simpa [hbefore] using hmn

/-! ## Names of files -/

/-- Is it the name of a file of comma-separated values? -/
def IsCsvName (name : String) : Prop :=
  Csv.ending.toList <:+ name.toList

theorem isCsvName_append (stem : String) : IsCsvName (stem ++ Csv.ending) :=
  ⟨stem.toList, by rw [String.toList_append]⟩

theorem IsCsvName.ne (h : IsCsvName name) : name ≠ "" ∧ name ≠ "." ∧ name ≠ ".." := by
  have hlength := h.length_le
  refine ⟨?_, ?_, ?_⟩ <;> rintro rfl <;> exact absurd hlength (by decide)

theorem parts_ofString_ending {s : String} (h : IsCsvName s) :
    ∃ names name, (ofString s).parts = names ++ [name] ∧ IsCsvName name := by
  obtain ⟨cs, hcs⟩ := h
  have hslash : '/' ∉ Csv.ending.toList := by decide
  obtain ⟨pieces, last, hpieces⟩ := slashPieces_append hslash [] cs
  have hname : IsCsvName (String.ofList (last ++ Csv.ending.toList)) :=
    ⟨last, by rw [String.toList_ofList]⟩
  generalize String.ofList (last ++ Csv.ending.toList) = name at hpieces hname
  obtain ⟨hempty, hdot, -⟩ := hname.ne
  refine ⟨pieces.filter fun p => p != "" && p != ".", name, ?_, hname⟩
  show List.filter _ (slashPieces [] s.toList) = _
  rw [← hcs, hpieces, List.filter_append, List.filter_cons_of_pos (by simp [hempty, hdot]),
    List.filter_nil]

theorem ofString_name (h : IsCsvName name) (hslash : '/' ∉ name.toList) :
    ofString name = { parts := [name] } := by
  obtain ⟨hempty, hdot, -⟩ := h.ne
  have hroot : rootOf name.toList = "" :=
    (rootOf_of_head? fun hhead => hslash (List.mem_of_mem_head? hhead)).1
  rw [ofString, hroot, slashPieces_plain hslash]
  simp [hempty, hdot]

end Path

/-! ## Single places -/

namespace Disk

variable {d d' : Disk} {place : Location} {p : Path} {text : String}

theorem lookup_map_put (nodes : List (Location × Node)) (place other : Location) (n : Node) :
    (nodes.map fun e => if e.1 == place then (place, n) else e).lookup other =
      if other = place ∧ nodes.any (·.1 == place) then some n else nodes.lookup other := by
  induction nodes with
  | nil => simp
  | cons e nodes ih =>
    obtain ⟨key, node⟩ := e
    simp only [beq_iff_eq] at ih ⊢
    rw [List.map_cons, List.any_cons]
    by_cases hkey : key = place
    · subst hkey
      by_cases hother : other = key
      · simp [hother]
      · simp [hother, List.lookup_cons, beq_eq_false_iff_ne.mpr hother, ih]
    · by_cases hother : other = key
      · subst hother
        simp [hkey]
      · have hskip : ((key, node).1 == place) = false := beq_eq_false_iff_ne.mpr hkey
        rw [hskip, Bool.false_or, if_neg hkey, List.lookup_cons, List.lookup_cons, ih]
        simp [beq_eq_false_iff_ne.mpr hother]

theorem lookup_filter (nodes : List (Location × Node)) (gone : Location → Bool)
    (place : Location) :
    (nodes.filter fun e => !gone e.1).lookup place =
      if gone place then none else nodes.lookup place := by
  induction nodes with
  | nil => simp
  | cons e nodes ih =>
    obtain ⟨key, node⟩ := e
    by_cases hplace : place = key
    · subst hplace
      by_cases hgone : gone place <;> simp [hgone, ih]
    · rw [List.lookup_cons, beq_eq_false_iff_ne.mpr hplace, ← ih, List.filter_cons]
      split
      · rw [List.lookup_cons, beq_eq_false_iff_ne.mpr hplace]
      · rfl

theorem set_of_node? (h : d.node? place = none) (n : Node) :
    d.set place n = { d with nodes := d.nodes ++ [(place, n)] } := by
  have hroot : place ≠ [] := by
    rintro rfl
    cases h
  have hlookup : d.nodes.lookup place = none := by simpa [node?, hroot] using h
  have hany : d.nodes.any (·.1 == place) = false := by
    rw [List.any_eq_false]
    intro e he hsame
    exact bne_iff_ne.mp (List.lookup_eq_none_iff.mp hlookup e he) (beq_iff_eq.mp hsame).symm
  rw [set, hany, if_neg Bool.false_ne_true]

theorem node?_set (hplace : place ≠ []) (n : Node) (other : Location) :
    (d.set place n).node? other = if other = place then some n else d.node? other := by
  unfold node? set
  by_cases hany : d.nodes.any (·.1 == place)
  · rw [if_pos hany, lookup_map_put, hany]
    by_cases hother : other = place <;> simp [hother, hplace]
  · rw [if_neg hany]
    have hlookup : d.nodes.lookup place = none := by
      refine List.lookup_eq_none_iff.mpr fun e he => ?_
      exact bne_iff_ne.mpr fun hsame =>
        hany (List.any_eq_true.mpr ⟨e, he, beq_iff_eq.mpr hsame.symm⟩)
    by_cases hother : other = place
    · simp [hother, hplace, hlookup, List.lookup_append]
    · simp [hother, List.lookup_append, List.lookup_cons, beq_eq_false_iff_ne.mpr hother]

theorem node?_remove (hplace : place ≠ []) (other : Location) :
    (d.remove (· == place)).node? other = if other = place then none else d.node? other := by
  unfold node? remove
  dsimp only
  rw [lookup_filter d.nodes (· == place)]
  by_cases hother : other = place
  · simp [hother, hplace]
  · simp [hother]

theorem home_set (place : Location) (n : Node) : (d.set place n).home = d.home := by
  unfold set
  split <;> rfl

theorem ne_nil_of_node? (h : d.node? place ≠ some .directory) : place ≠ [] := by
  rintro rfl
  exact h rfl

theorem ne_nil_of_file (h : d.node? place = some (.file text)) : place ≠ [] :=
  ne_nil_of_node? (d := d) (by simp [h])

/-- The text of the file at a place. -/
def file? (d : Disk) (place : Location) : Option String :=
  match d.node? place with
  | some (.file text) => some text
  | _ => none

theorem file?_eq_some_iff : d.file? place = some text ↔ d.node? place = some (.file text) := by
  unfold file?
  split
  · next h => simp [h]
  · next h => simpa using h text

theorem file?_eq_none_iff : d.file? place = none ↔
    ∀ text, d.node? place ≠ some (.file text) := by
  rw [Option.eq_none_iff_forall_ne_some]
  exact forall_congr' fun text => not_congr file?_eq_some_iff

theorem file?_set (hplace : place ≠ []) (text : String) (other : Location) :
    (d.set place (.file text)).file? other =
      if other = place then some text else d.file? other := by
  unfold file?
  rw [node?_set hplace]
  by_cases hother : other = place
  · rw [if_pos hother, if_pos hother]
  · rw [if_neg hother, if_neg hother]

theorem file?_remove (hplace : place ≠ []) (other : Location) :
    (d.remove (· == place)).file? other = if other = place then none else d.file? other := by
  unfold file?
  rw [node?_remove hplace]
  by_cases hother : other = place
  · rw [if_pos hother, if_pos hother]
  · rw [if_neg hother, if_neg hother]

/-! ## Where paths lead -/

theorem follow_append (start : Location) (names rest : List String) :
    d.follow start (names ++ rest) = d.follow start names >>= fun place => d.follow place rest := by
  induction names generalizing start with
  | nil => rfl
  | cons name names ih =>
    rw [List.cons_append, follow, follow]
    split
    · rfl
    · rfl
    · split_ifs
      · rfl
      · exact ih _
      · exact ih _

/-- The place of the directory that a path leads to. -/
def enter (d : Disk) (p : Path) : Except PathProblem Location := do
  let place ← d.locate p
  match d.node? place with
  | none => .error .notFound
  | some (.file _) => .error .notDirectory
  | some .directory => .ok place

theorem enter_eq_ok_iff :
    d.enter p = .ok place ↔ d.locate p = .ok place ∧ d.node? place = some .directory := by
  unfold enter
  cases d.locate p with
  | error e => exact ⟨nofun, fun h => nomatch h.1⟩
  | ok other =>
    show (match d.node? other with
      | none => _ | some (.file _) => _ | some .directory => _) = _ ↔ _
    constructor
    · intro h
      split at h
      · cases h
      · cases h
      · next hnode =>
        cases h
        exact ⟨rfl, hnode⟩
    · rintro ⟨⟨⟩, hnode⟩
      rw [hnode]

/-- Does a path lead to a file? -/
def holdsFile (d : Disk) (p : Path) : Bool :=
  match d.find? p with
  | some (.file _) => true
  | _ => false

theorem holdsFile_iff :
    d.holdsFile p = true ↔
      ∃ place text, d.locate p = .ok place ∧ d.node? place = some (.file text) := by
  unfold holdsFile find?
  cases d.locate p with
  | error e => simp
  | ok place => rcases h : d.node? place with _ | _ | _ <;> simp [h]

theorem isDirectory_iff : d.isDirectory p = true ↔ ∃ place, d.enter p = .ok place := by
  simp only [enter_eq_ok_iff, isDirectory, beq_iff_eq]
  unfold find?
  cases d.locate p <;> simp

theorem isDirectory_of_enter_error {e : PathProblem} (h : d.enter p = .error e) :
    d.isDirectory p = false := by
  refine Bool.eq_false_iff.mpr fun hdirectory => ?_
  obtain ⟨place, hplace⟩ := isDirectory_iff.mp hdirectory
  rw [h] at hplace
  cases hplace

theorem locate_join (names : List String) :
    d.locate (p.join { parts := names }) =
      if names.any fun name => name.toList.contains '\x00' then .error .nullCharacter
      else d.locate p >>= fun place => d.follow place names := by
  unfold locate start
  change ((if (p.parts ++ names).any _ then _ else _) >>= fun first =>
    d.follow first (p.parts ++ names)) = _
  rw [List.any_append]
  cases p.parts.any fun name => name.toList.contains '\x00' with
  | true => exact (ite_self _).symm
  | false =>
    rw [Bool.false_or]
    split
    · rfl
    · exact follow_append _ _ _

theorem locate_child (hnull : '\x00' ∉ name.toList) (hup : name ≠ "..") :
    d.locate (p.child name) = d.enter p >>= fun place =>
      if nameLimit < name.utf8ByteSize then .error .nameTooLong else .ok (place ++ [name]) := by
  have hname : ([name].any fun name => name.toList.contains '\x00') = false := by simpa using hnull
  rw [Path.child, locate_join, hname, if_neg Bool.false_ne_true, enter]
  cases d.locate p with
  | error e => rfl
  | ok place =>
    show d.follow place [name] = (match d.node? place with
      | none => _ | some (.file _) => _ | some .directory => _) >>= _
    rw [follow, if_neg (c := (name == "..") = true) (by simpa using hup)]
    rcases d.node? place with _ | _ | _ <;> rfl

theorem locate_child_null (h : '\x00' ∈ name.toList) :
    d.locate (p.child name) = .error .nullCharacter := by
  have hname : ([name].any fun name => name.toList.contains '\x00') = true := by simpa using h
  rw [Path.child, locate_join, if_pos hname]

theorem locate_child_eq_ok_iff (hup : name ≠ "..") :
    d.locate (p.child name) = .ok place ↔
      '\x00' ∉ name.toList ∧ name.utf8ByteSize ≤ nameLimit ∧
        ∃ parent, d.enter p = .ok parent ∧ place = parent ++ [name] := by
  by_cases hnull : '\x00' ∈ name.toList
  · simp [locate_child_null hnull, hnull]
  · rw [locate_child hnull hup]
    cases d.enter p with
    | error e =>
      constructor
      · intro h
        cases h
      · rintro ⟨-, -, _, h, -⟩
        cases h
    | ok parent =>
      show (if nameLimit < name.utf8ByteSize then _ else _) = _ ↔ _
      split
      · simp; omega
      · next hshort => simp [hnull, not_lt.mp hshort, eq_comm]

/-- Two disks with the same directories. -/
structure SameDirectories (d d' : Disk) : Prop where
  home : d'.home = d.home
  directory (place : Location) : d'.node? place = some .directory ↔
    d.node? place = some .directory

variable {target : Location}

namespace SameDirectories

theorem symm (h : d.SameDirectories d') : d'.SameDirectories d :=
  ⟨h.home.symm, fun place => (h.directory place).symm⟩

theorem follow (h : d.SameDirectories d') {start : Location} {names : List String}
    (hfollow : d.follow start names = .ok target) : d'.follow start names = .ok target := by
  induction names generalizing start with
  | nil => exact hfollow
  | cons name names ih =>
    rw [Disk.follow] at hfollow ⊢
    have hstart : d.node? start = some .directory := by
      split at hfollow
      · cases hfollow
      · cases hfollow
      · assumption
    rw [(h.directory start).mpr hstart]
    rw [hstart] at hfollow
    dsimp only at hfollow ⊢
    split_ifs at hfollow ⊢
    · exact ih hfollow
    · exact ih hfollow

theorem locate (h : d.SameDirectories d') (hlocate : d.locate p = .ok place) :
    d'.locate p = .ok place := by
  obtain ⟨first, hfirst, hfollow⟩ := Except.ok_of_bind hlocate
  have hfirst' : d'.start p = .ok first := by rw [← hfirst, start, start, h.home]
  rw [Disk.locate, hfirst']
  exact h.follow hfollow

end SameDirectories

/-- Where a path leads depends on the directories alone. -/
theorem locate_eq_ok_iff (h : d.SameDirectories d') :
    d'.locate p = .ok place ↔ d.locate p = .ok place :=
  ⟨h.symm.locate, h.locate⟩

theorem SameDirectories.enter_iff (h : d.SameDirectories d') :
    d'.enter p = .ok place ↔ d.enter p = .ok place := by
  rw [enter_eq_ok_iff, enter_eq_ok_iff, locate_eq_ok_iff h, h.directory]

theorem sameDirectories_set (h : d.node? place ≠ some .directory) (text : String) :
    d.SameDirectories (d.set place (.file text)) := by
  refine ⟨home_set _ _, fun other => ?_⟩
  rw [node?_set (ne_nil_of_node? h)]
  split
  · next hsame => simpa [hsame] using h
  · rfl

theorem sameDirectories_remove (h : d.node? place = some (.file text)) :
    d.SameDirectories (d.remove (· == place)) := by
  refine ⟨rfl, fun other => ?_⟩
  rw [node?_remove (ne_nil_of_file h)]
  split
  · next hsame => simp [hsame, h]
  · rfl

theorem list_eq_nil (h : d.list p = .ok []) :
    ∃ parent, d.enter p = .ok parent ∧ ∀ name, d.node? (parent ++ [name]) = none := by
  unfold list at h
  cases hlocate : d.locate p with
  | error e =>
    rw [hlocate] at h
    cases h
  | ok parent =>
    rw [hlocate] at h
    dsimp only at h
    split at h
    · cases h
    · cases h
    · next hnode =>
      refine ⟨parent, enter_eq_ok_iff.mpr ⟨hlocate, hnode⟩, fun name => ?_⟩
      rw [node?, if_neg (by simp), List.lookup_eq_none_iff]
      intro e he
      have hskipped := List.filterMap_eq_nil_iff.mp (Except.ok.inj h) e he
      refine bne_iff_ne.mpr fun hsame => ?_
      rw [← hsame, if_pos (by simp)] at hskipped
      simp at hskipped

/-! ## Writing and removing -/

/-- Can a file be written there? -/
def Writable (d : Disk) (p : Path) : Prop :=
  ∃ place, d.locate p = .ok place ∧ d.node? place ≠ some .directory

instance (d : Disk) (p : Path) : Decidable (d.Writable p) :=
  match h : d.locate p with
  | .error _ => isFalse fun ⟨_, hplace, _⟩ => by rw [h] at hplace; cases hplace
  | .ok place =>
    decidable_of_iff (d.node? place ≠ some .directory)
      ⟨fun hnode => ⟨place, h, hnode⟩, fun ⟨_, hplace, hnode⟩ =>
        Except.ok.inj (h.symm.trans hplace) ▸ hnode⟩

theorem write_eq_ok_iff :
    d.write p text = .ok d' ↔
      ∃ place, d.locate p = .ok place ∧ d.node? place ≠ some .directory ∧
        d' = d.set place (.file text) := by
  rw [write]
  cases d.locate p with
  | error e => simp
  | ok place =>
    dsimp only
    split
    · next h => simp [h]
    · next h =>
      refine ⟨fun hd => ⟨place, rfl, h, (Except.ok.inj hd).symm⟩, ?_⟩
      rintro ⟨_, ⟨⟩, -, rfl⟩
      rfl

theorem read_of_write (h : d.write p text = .ok d') : d'.read p = .ok text := by
  obtain ⟨place, hlocate, hplace, rfl⟩ := write_eq_ok_iff.mp h
  have hlocate' := (sameDirectories_set hplace text).locate hlocate
  rw [read, hlocate']
  dsimp only
  rw [node?_set (ne_nil_of_node? hplace), if_pos rfl]

theorem removeFile_eq_ok_iff :
    d.removeFile p = .ok d' ↔
      ∃ place text, d.locate p = .ok place ∧ d.node? place = some (.file text) ∧
        d' = d.remove (· == place) := by
  rw [removeFile]
  cases d.locate p with
  | error e => simp
  | ok place =>
    dsimp only
    cases hnode : d.node? place with
    | none => simp [hnode]
    | some n =>
      cases n with
      | directory => simp [hnode]
      | file text => simp [hnode, eq_comm]

/-! ## Making directories -/

variable {names : List String} {start : Location}

theorem makeAlong_keeps (h : d.makeAlong start names = .ok d') :
    d'.home = d.home ∧ (∀ place n, d.node? place = some n → d'.node? place = some n) ∧
      ∀ place, d'.file? place = d.file? place := by
  induction names generalizing d start with
  | nil =>
    cases h
    exact ⟨rfl, fun _ _ h => h, fun _ => rfl⟩
  | cons name names ih =>
    rw [makeAlong] at h
    split at h
    · cases h
    · dsimp only at h
      generalize (if name == ".." then start.dropLast else start ++ [name]) = next at h
      split at h
      · exact ih h
      · cases h
      · next hnone =>
        have hne : next ≠ [] := by
          rintro rfl
          cases hnone
        obtain ⟨hhome, hkeeps, hfile⟩ := ih h
        refine ⟨hhome.trans (home_set _ _), fun place n hn => ?_, fun place => ?_⟩
        · apply hkeeps
          rw [node?_set hne, if_neg (by rintro rfl; simp [hnone] at hn)]
          exact hn
        · rw [hfile, file?, file?, node?_set hne]
          by_cases hsame : place = next
          · rw [if_pos hsame, hsame, hnone]
          · rw [if_neg hsame]

theorem length_le_of_makeAlong (h : d.makeAlong start names = .ok d') :
    ∀ name ∈ names, name.utf8ByteSize ≤ nameLimit := by
  induction names generalizing d start with
  | nil => simp
  | cons name names ih =>
    rw [makeAlong] at h
    split at h
    · cases h
    · next hshort =>
      dsimp only at h
      refine List.forall_mem_cons.mpr ⟨not_lt.mp hshort, ?_⟩
      split at h
      · exact ih h
      · cases h
      · exact ih h

theorem exists_long_of_follow (h : d.follow start names = .error .nameTooLong) :
    ∃ name ∈ names, nameLimit < name.utf8ByteSize := by
  induction names generalizing start with
  | nil => cases h
  | cons name names ih =>
    rw [follow] at h
    split at h
    · cases h
    · cases h
    · split_ifs at h with hlong hup
      · exact ⟨name, List.mem_cons_self, hlong⟩
      · obtain ⟨other, hmem, hother⟩ := ih h
        exact ⟨other, List.mem_cons_of_mem _ hmem, hother⟩
      · obtain ⟨other, hmem, hother⟩ := ih h
        exact ⟨other, List.mem_cons_of_mem _ hmem, hother⟩

theorem makeAlong_remove (hfile : d.node? place = some (.file text))
    (h : d.makeAlong start names = .ok d') :
    (d.remove (· == place)).makeAlong start names = .ok (d'.remove (· == place)) := by
  have hroot : place ≠ [] := ne_nil_of_file hfile
  induction names generalizing d start with
  | nil =>
    cases h
    rfl
  | cons name names ih =>
    rw [makeAlong] at h ⊢
    split at h
    · cases h
    · next hshort =>
      rw [if_neg hshort]
      dsimp only at h ⊢
      generalize (if name == ".." then start.dropLast else start ++ [name]) = next at h ⊢
      split at h
      · next hnode =>
        have hne : next ≠ place := by
          rintro rfl
          simp [hfile] at hnode
        rw [node?_remove hroot, if_neg hne, hnode]
        exact ih hfile h
      · cases h
      · next hnone =>
        have hne : next ≠ place := by
          rintro rfl
          simp [hfile] at hnone
        have hnext : next ≠ [] := by
          rintro rfl
          cases hnone
        have hnone' : (d.remove (· == place)).node? next = none := by
          rw [node?_remove hroot, if_neg hne, hnone]
        -- a new directory goes after all other entries, with or without the file among them
        have hcomm : (d.remove (· == place)).set next .directory =
            (d.set next .directory).remove (· == place) := by
          rw [set_of_node? hnone, set_of_node? hnone']
          simp [remove, hne]
        rw [hnone']
        dsimp only
        rw [hcomm]
        exact ih (by rw [node?_set hnext, if_neg (Ne.symm hne), hfile]) h

/-- The disk with a directory made at a path where nothing is. -/
def withDirectory (d : Disk) (p : Path) : Disk :=
  if d.holds p then d else (d.makeDirectory p).toOption.getD d

theorem makeDirectory_eq_ok_iff :
    d.makeDirectory p = .ok d' ↔
      ∃ first, d.start p = .ok first ∧ d.makeAlong first p.parts = .ok d' := by
  unfold makeDirectory
  cases d.start p with
  | error e => simp
  | ok first =>
    simp only [Except.ok.injEq, exists_eq_left']
    cases d.makeAlong first p.parts with
    | error e => exact iff_of_false (fun h => by cases h) fun h => by cases h
    | ok made => exact ⟨fun h => by cases h; rfl, fun h => by cases h; rfl⟩

theorem withDirectory_of_holds (h : d.holds p = true) : d.withDirectory p = d := if_pos h

theorem withDirectory_of_made (h : d.holds p = false) (hmade : d.makeDirectory p = .ok d') :
    d.withDirectory p = d' := by
  rw [withDirectory, h, hmade]
  rfl

theorem file?_withDirectory (place : Location) :
    (d.withDirectory p).file? place = d.file? place := by
  unfold withDirectory
  split
  · rfl
  · cases h : d.makeDirectory p with
    | error f => rfl
    | ok d' =>
      obtain ⟨first, -, hmade⟩ := makeDirectory_eq_ok_iff.mp h
      exact (makeAlong_keeps hmade).2.2 place

theorem holds_of_locate (h : d.locate p = .ok place) : d.holds p = (d.node? place).isSome := by
  rw [holds, find?, h]

theorem holds_of_probe {there : Bool} (h : d.probe p = .ok there) : d.holds p = there := by
  unfold probe at h
  cases hlocate : d.locate p with
  | error e =>
    rw [hlocate] at h
    rw [holds, find?, hlocate]
    cases e <;> cases h <;> rfl
  | ok place =>
    rw [hlocate] at h
    rw [holds_of_locate hlocate]
    exact Except.ok.inj h

theorem locate_of_probe {f : Fault} (h : d.probe p = .error f) :
    d.locate p = .error .nameTooLong := by
  unfold probe at h
  split at h
  · cases h
  · assumption
  · cases h

theorem holds_of_enter (h : d.enter p = .ok place) : d.holds p = true := by
  obtain ⟨hlocate, hnode⟩ := enter_eq_ok_iff.mp h
  rw [holds_of_locate hlocate, hnode]
  rfl

theorem made_of_enter (h : (d.withDirectory p).enter p = .ok place) :
    d.probe p = .ok true ∧ d.withDirectory p = d ∨
      d.probe p = .ok false ∧ d.makeDirectory p = .ok (d.withDirectory p) := by
  cases hholds : d.holds p with
  | true =>
    left
    refine ⟨?_, withDirectory_of_holds hholds⟩
    cases hprobe : d.probe p with
    | error f =>
      rw [holds, find?, locate_of_probe hprobe] at hholds
      cases hholds
    | ok there => rw [← holds_of_probe hprobe, hholds]
  | false =>
    right
    cases hmade : d.makeDirectory p with
    | error f =>
      have hsame : d.withDirectory p = d := by rw [withDirectory, hholds, hmade]; rfl
      rw [hsame] at h
      rw [holds_of_enter h] at hholds
      cases hholds
    | ok d' =>
      rw [withDirectory_of_made hholds hmade]
      refine ⟨?_, rfl⟩
      obtain ⟨first, hfirst, hmade⟩ := makeDirectory_eq_ok_iff.mp hmade
      -- names beyond the limit are not made, so none of them is in the way of an answer
      have hshort : d.locate p ≠ .error .nameTooLong := by
        intro hlong
        rw [locate, hfirst] at hlong
        obtain ⟨name, hmem, hname⟩ := exists_long_of_follow hlong
        have := length_le_of_makeAlong hmade name hmem
        omega
      cases hprobe : d.probe p with
      | error f => exact absurd (locate_of_probe hprobe) hshort
      | ok there => rw [← holds_of_probe hprobe, hholds]

theorem withDirectory_of_enter (h : d.enter p = .ok place) : d.withDirectory p = d :=
  withDirectory_of_holds (holds_of_enter h)

theorem withDirectory_remove (hfile : d.node? place = some (.file text))
    (h : (d.withDirectory p).enter p = .ok target) :
    (d.remove (· == place)).withDirectory p = (d.withDirectory p).remove (· == place) := by
  have hsame := sameDirectories_remove hfile
  have hroot : place ≠ [] := ne_nil_of_file hfile
  cases hholds : d.holds p with
  | true =>
    rw [withDirectory_of_holds hholds] at h ⊢
    exact withDirectory_of_enter (hsame.enter_iff.mpr h)
  | false =>
    have hholds' : (d.remove (· == place)).holds p = false := by
      cases hlocate : (d.remove (· == place)).locate p with
      | error e => rw [holds, find?, hlocate]; rfl
      | ok other =>
        rw [holds_of_locate ((locate_eq_ok_iff hsame).mp hlocate)] at hholds
        rw [holds_of_locate hlocate, node?_remove hroot]
        split
        · rfl
        · exact hholds
    rcases made_of_enter h with ⟨-, hsame⟩ | ⟨-, hmade⟩
    · rw [hsame] at h
      rw [holds_of_enter h] at hholds
      cases hholds
    · obtain ⟨first, hfirst, halong⟩ := makeDirectory_eq_ok_iff.mp hmade
      exact withDirectory_of_made hholds'
        (makeDirectory_eq_ok_iff.mpr ⟨first, hfirst, makeAlong_remove hfile halong⟩)

end Disk

end TableScript
