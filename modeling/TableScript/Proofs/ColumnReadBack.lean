import Mathlib.Data.List.TakeWhile
import TableScript.Proofs.ElementWise
import TableScript.Proofs.RectangularEdits

/-!
# Reading a column back

A column that is added to a table is read by its name. Its cells go to the ends of the rows, and
rows may share their cells: of the values for such rows, the first one is read in all of them.
`with_read_back_iff` says when the values are read that were added, and that other columns are read
as before.
-/

namespace TableScript.Primitive

open EvalM

/-! ## Columns of a name -/

section

variable {columns : List (String × TypeRef)} {name : String} {type : TypeRef}

theorem lastColumn?_append_self : lastColumn? name (columns ++ [(name, type)]) =
    some (columns.length, type) := by
  simp [lastColumn?, List.zipIdx_append]

theorem lastColumn?_append_of_ne {other : String} (h : other ≠ name) :
    lastColumn? other (columns ++ [(name, type)]) = lastColumn? other columns := by
  simp [lastColumn?, List.zipIdx_append, h.symm]

end

/-! ## Reading -/

/-- The column of a table whose name is the text at a reference is read as a list of a type, with
some cells. -/
def GivesColumn (position : Option Position) (m : Machine) (r q : Ref) (type : TypeRef)
    (cells : List Ref) : Prop :=
  ∃ l m' place, (runGetColumn position).exec
      { m with scope := { names := [("table", r), ("name", q)] } } = (.ok l, m') ∧
    m'.store.object l = ⟨.list type, .list place⟩ ∧ m'.store.sequence place = cells

/-- The cell of a row at an index. -/
def cellAt? (s : Store) (index : Nat) (row : Ref) : Option Ref :=
  (s.cells? row).bind (·[index]?)

variable {index : Nat} {rows : List Ref}

section

variable {position : Option Position} {m : Machine} {r q : Ref} {t : TableView} {name : String}
  {f : Nat → Ref → Ref}

theorem exec_cellsAt {f : Ref → Ref} (h : ∀ row ∈ rows, cellAt? m.store index row =
    some (f row)) :
    (rows.filterMapM (cellAt index)).exec m = (.ok (rows.map f), m) := by
  refine exec_filterMapM_same (List.forall₂_map_right_iff.mpr (List.forall₂_same.mpr ?_))
  intro row hrow
  obtain ⟨cells, hcells, hcell⟩ := Option.bind_eq_some_iff.mp (h row hrow)
  rw [cellAt, exec_bind_cells?, hcells]
  dsimp only
  rw [hcell]
  rfl

section

variable (ht : m.store.table? r = some t)
  (hwide : ∀ index < (m.store.columnsOf t.schema).length, ∀ row ∈ m.store.sequence t.rows,
    cellAt? m.store index row = some (f index row))

include ht hwide

/-- A call to read a column ends with a list of its cells if its name is found with a type, and else
with an error. -/
theorem exec_runGetColumn (position : Option Position) (htable : m.scope.get? "table" = some r)
    (hname : Argument m "name" (.string name)) :
    (∃ index type, lastColumn? name (m.store.columnsOf t.schema) = some (index, type) ∧
      type ≠ .unknown ∧ (runGetColumn position).exec m =
        (newList (.list type) ((m.store.sequence t.rows).map (f index))).exec m) ∨
    (∀ index type, lastColumn? name (m.store.columnsOf t.schema) = some (index, type) →
      type = .unknown) ∧ ∃ halt m', (runGetColumn position).exec m = (.error halt, m') := by
  obtain ⟨q, hq, hcontent⟩ := hname
  rw [runGetColumn, exec_bind_argument htable, exec_bind_table?, exec_bind_argumentContent hq, ht,
    hcontent]
  dsimp only
  rw [exec_bind_columnsOf]
  split
  · next hlast =>
    obtain ⟨halt, m', hreport, -⟩ := exec_report (noColumn name) position m
    exact .inr ⟨fun _ _ h => absurd (hlast.symm.trans h) (by simp), halt, m', hreport⟩
  · next hlast =>
    obtain ⟨halt, m', hreport, -⟩ := exec_report (noColumn name) position m
    refine .inr ⟨fun index type h => ?_, halt, m', hreport⟩
    cases hlast.symm.trans h
    rfl
  · next index type hknown hlast =>
    refine .inl ⟨index, type, hlast, hknown, ?_⟩
    rw [exec_bind_sequence, exec_bind_of (exec_cellsAt (hwide index (lastColumn?_lt hlast)))]

theorem givesColumn_iff (hq : m.store.content q = .string name) {type : TypeRef}
    {cells : List Ref} :
    GivesColumn position m r q type cells ↔
      ∃ index, lastColumn? name (m.store.columnsOf t.schema) = some (index, type) ∧
        type ≠ .unknown ∧ cells = (m.store.sequence t.rows).map (f index) := by
  let k : Machine := { m with scope := { names := [("table", r), ("name", q)] } }
  rcases exec_runGetColumn (m := k) ht hwide position rfl ⟨q, rfl, hq⟩ with
    ⟨index, type', hlast, hknown, hexec⟩ | ⟨hnone, halt, m', hexec⟩
  · obtain ⟨l, m', place, hnew, hobject, hplace⟩ := exec_newList (.list type')
      ((m.store.sequence t.rows).map (f index)) k
    unfold GivesColumn
    rw [hexec, hnew]
    constructor
    · rintro ⟨l', k', place', heq, hobject', hplace'⟩
      cases heq
      cases hobject.symm.trans hobject'
      exact ⟨index, hlast, hknown, hplace'.symm.trans hplace⟩
    · rintro ⟨index', hlast', -, rfl⟩
      cases hlast.symm.trans hlast'
      exact ⟨l, m', place, rfl, hobject, hplace⟩
  · refine iff_of_false ?_ ?_
    · rintro ⟨_, _, _, heq, -⟩
      cases hexec.symm.trans heq
    · rintro ⟨index, hlast, hknown, -⟩
      exact hknown (hnone index type hlast)

end

end

/-! ## Adding -/

/-- A table has a type and a schema of its kind, and its rows are as wide as the schema. None of
them has its cells where the rows are. -/
structure WellMade (s : Store) (t : TableView) : Prop where
  type : ∃ members, t.type = .table members
  schema : ∃ place, s.content t.schema = .schema place
  rows : ∀ row ∈ s.sequence t.rows, ∃ place, s.rowCells? row = some place ∧
    place ≠ t.rows ∧ (s.sequence place).length = (s.columnsOf t.schema).length

/-- Rows that share their cells get values that look the same. -/
def SameForShared {α : Type} (s : Store) (pairs : List (Ref × Ref)) (view : Ref → α) : Prop :=
  ∀ p ∈ pairs, ∀ p' ∈ pairs, s.rowCells? p.2 = s.rowCells? p'.2 → view p.1 = view p'.1

section

variable {s : Store} {t : TableView} (name : String) (first : Ref) (rest : List Ref)

theorem columnsOf_withColumn (hs : s.Closed) (hschema : s.Has t.schema.cell) (h : WellMade s t) :
    (withColumn s t name first rest).columnsOf t.schema =
      s.columnsOf t.schema ++ [(name, (s.object first).type)] := by
  obtain ⟨members, ht⟩ := h.type
  obtain ⟨place, hplace⟩ := h.schema
  have hget := Array.getElem?_eq_getElem (hs.columns hschema hplace)
  have hafter := columns_withColumn ht name first rest (s := s) place
  rw [columnPlace?, hplace, if_pos rfl, hget] at hafter
  rw [Store.columnsOf, Store.content_eq_of_objects (objects_withColumn s t name first rest),
    Store.columnsOf, hplace]
  exact (Store.columnList_of_getElem? hafter).trans
    (congrArg (· ++ _) (Store.columnList_of_getElem? hget).symm)

theorem sequence_withColumn (h : WellMade s t) {place : Nat} (hplace : place < s.sequences.size) :
    (withColumn s t name first rest).sequence place = s.sequence place ++
      s.received ((first :: rest).zip (s.sequence t.rows)) place := by
  have hobjects := objects_extendSchema s t name (s.object first).type
  have hrows : s.editable ((first :: rest).zip (s.sequence t.rows)) =
      (first :: rest).zip (s.sequence t.rows) := by
    refine List.takeWhile_eq_self_iff.mpr fun p hp => ?_
    obtain ⟨place, hplace, -⟩ := h.rows p.2 (List.of_mem_zip hp).2
    rw [Store.rowCells?_eq_some.mp hplace]
    rfl
  have hget := Array.getElem?_eq_getElem hplace
  have hafter := Store.sequences_extendRows (s.extendSchema t name (s.object first).type)
    (s.object first).type ((first :: rest).zip (s.sequence t.rows)) place
  rw [sequences_extendSchema, hget] at hafter
  rw [withColumn, hrows, Store.sequence_of_getElem? hafter, Store.sequence_of_getElem? hget,
    Store.received, Store.received]
  simp [Store.rowCells?_eq_of_objects hobjects]

theorem rows_withColumn (h : WellMade s t) (hrows : t.rows < s.sequences.size) :
    (withColumn s t name first rest).sequence t.rows = s.sequence t.rows := by
  have hnone : s.received ((first :: rest).zip (s.sequence t.rows)) t.rows = [] := by
    refine List.map_eq_nil_iff.mpr (List.filter_eq_nil_iff.mpr fun p hp => ?_)
    obtain ⟨place, hplace, hne, -⟩ := h.rows p.2 (List.of_mem_zip hp).2
    simpa [hplace] using hne
  rw [sequence_withColumn name first rest h hrows, hnone, List.append_nil]

section

variable (hs : s.Closed) (h : WellMade s t) {row : Ref} (hrow : row ∈ s.sequence t.rows)
include hs h hrow

theorem cells?_withColumn : ∃ place, s.rowCells? row = some place ∧
    (s.sequence place).length = (s.columnsOf t.schema).length ∧
    (withColumn s t name first rest).cells? row = some (s.sequence place ++
      s.received ((first :: rest).zip (s.sequence t.rows)) place) := by
  obtain ⟨place, hplace, -, hlength⟩ := h.rows row hrow
  refine ⟨place, hplace, hlength, ?_⟩
  rw [Store.cells?, Store.rowCells?_eq_of_objects (objects_withColumn s t name first rest), hplace,
    Option.map_some, sequence_withColumn name first rest h (has_of_rowCells? hs hplace)]

omit hs in
theorem isSome_cellAt? (hindex : index < (s.columnsOf t.schema).length) :
    (cellAt? s index row).isSome := by
  obtain ⟨place, hplace, -, hlength⟩ := h.rows row hrow
  simp [cellAt?, Store.cells?, hplace, hlength, hindex]

theorem cellAt?_withColumn_of_lt (hindex : index < (s.columnsOf t.schema).length) :
    cellAt? (withColumn s t name first rest) index row = cellAt? s index row := by
  obtain ⟨place, hplace, hlength, hcells⟩ := cells?_withColumn name first rest hs h hrow
  rw [cellAt?, hcells, cellAt?, Store.cells?, hplace]
  exact List.getElem?_append_left (hlength ▸ hindex)

theorem cellAt?_withColumn_length :
    cellAt? (withColumn s t name first rest) (s.columnsOf t.schema).length row =
      (((first :: rest).zip (s.sequence t.rows)).find?
        fun p => s.rowCells? p.2 = s.rowCells? row).map Prod.fst := by
  obtain ⟨place, hplace, hlength, hcells⟩ := cells?_withColumn name first rest hs h hrow
  rw [cellAt?, hcells, Option.bind_some, ← hlength, List.getElem?_append_right (Nat.le_refl _),
    Nat.sub_self, Store.received, hplace, List.getElem?_map, ← List.head?_eq_getElem?,
    List.head?_filter]

end

theorem read_values_iff {α : Type} {f : Ref → Ref} {values : List Ref}
    (hlength : values.length = rows.length) (view : Ref → α)
    (hf : ∀ row ∈ rows, ((values.zip rows).find?
      fun p => s.rowCells? p.2 = s.rowCells? row).map Prod.fst = some (f row)) :
    (rows.map f).map view = values.map view ↔ SameForShared s (values.zip rows) view := by
  have hsource : ∀ p ∈ values.zip rows, ∃ p' ∈ values.zip rows,
      s.rowCells? p'.2 = s.rowCells? p.2 ∧ p'.1 = f p.2 := by
    intro p hp
    obtain ⟨p', hfind, hp'⟩ := Option.map_eq_some_iff.mp (hf p.2 (List.of_mem_zip hp).2)
    exact ⟨p', List.mem_of_find?_eq_some hfind, by simpa using List.find?_some hfind, hp'⟩
  have hshared : ∀ p ∈ values.zip rows, ∀ p' ∈ values.zip rows,
      s.rowCells? p.2 = s.rowCells? p'.2 → f p.2 = f p'.2 := by
    intro p hp p' hp' hsame
    have hp := hf p.2 (List.of_mem_zip hp).2
    rw [hsame, hf p'.2 (List.of_mem_zip hp').2] at hp
    exact (Option.some.inj hp).symm
  have hpairs : (rows.map f).map view = values.map view ↔
      ∀ p ∈ values.zip rows, view (f p.2) = view p.1 := by
    have hread : (rows.map f).map view = (values.zip rows).map fun p => view (f p.2) := by
      conv_lhs => rw [← List.map_snd_zip (Nat.le_of_eq hlength.symm)]
      simp [Function.comp_def]
    have hadded : values.map view = (values.zip rows).map fun p => view p.1 := by
      conv_lhs => rw [← List.map_fst_zip (Nat.le_of_eq hlength)]
      simp [Function.comp_def]
    rw [hread, hadded, List.map_inj_left]
  rw [hpairs]
  constructor
  · intro hall p hp p' hp' hsame
    rw [← hall p hp, ← hall p' hp', hshared p hp p' hp' hsame]
  · intro hall p hp
    obtain ⟨p', hp', hsame, hvalue⟩ := hsource p hp
    rw [← hvalue]
    exact hall p' hp' p hp hsame

end

/-- A column that has been added is read back, as far as its values can be told apart, iff its type
is known and rows that share their cells get the same value. Other columns are read as before. -/
theorem with_read_back_iff {m m' : Machine} {r r' : Ref} {t : TableView} {name : String}
    {first : Ref} {rest : List Ref} {position : Option Position} (hm : m.store.Closed)
    (hcall : WithCall m r t name first rest) (ht : WellMade m.store t)
    (hwith : (runWith position).exec m = (.ok r', m')) :
    r' = r ∧
    (∀ q, m.store.content q = .string name →
      ((∃ type cells, GivesColumn position m' r q type cells ∧
          cells.map m'.store.value = (first :: rest).map m'.store.value) ↔
        (m.store.object first).type ≠ .unknown ∧
          SameForShared m.store ((first :: rest).zip (m.store.sequence t.rows)) m'.store.value)) ∧
    ∀ q other, m.store.content q = .string other → other ≠ name → ∀ type cells,
      (GivesColumn position m' r q type cells ↔
        GivesColumn position { m' with store := m.store } r q type cells) := by
  obtain ⟨rfl, hstore⟩ := exec_runWith_ok hcall hwith
  have hrows := rows_withColumn name first rest ht (hm.rows hcall.view)
  have hcolumns := columnsOf_withColumn name first rest hm (hm.schema hcall.view) ht
  rw [← hstore] at hrows hcolumns
  have hview : m'.store.table? r' = some t := by
    rw [hstore, table?_eq_of_objects (objects_withColumn _ _ _ _ _), hcall.view]
  have hcontent : ∀ q, m'.store.content q = m.store.content q := fun q => by
    rw [hstore, Store.content_eq_of_objects (objects_withColumn _ _ _ _ _)]
  let f := fun index row => (cellAt? m'.store index row).getD row
  have hold : ∀ index < (m.store.columnsOf t.schema).length, ∀ row ∈ m.store.sequence t.rows,
      cellAt? m.store index row = some (f index row) := by
    intro index hindex row hrow
    obtain ⟨cell, hcell⟩ := Option.isSome_iff_exists.mp (isSome_cellAt? ht hrow hindex)
    simp only [f, hstore, cellAt?_withColumn_of_lt name first rest hm ht hrow hindex, hcell,
      Option.getD_some]
  have hnew : ∀ row ∈ m.store.sequence t.rows,
      (((first :: rest).zip (m.store.sequence t.rows)).find?
        fun p => m.store.rowCells? p.2 = m.store.rowCells? row).map Prod.fst =
      some (f (m.store.columnsOf t.schema).length row) := by
    intro row hrow
    have hfound := hrow
    rw [← List.map_snd_zip (Nat.le_of_eq hcall.length.symm), List.mem_map] at hfound
    obtain ⟨p, hp, rfl⟩ := hfound
    have hsome : (((first :: rest).zip (m.store.sequence t.rows)).find?
        fun p' => m.store.rowCells? p'.2 = m.store.rowCells? p.2).isSome :=
      List.find?_isSome.mpr ⟨p, hp, by simp⟩
    obtain ⟨p', hp'⟩ := Option.isSome_iff_exists.mp hsome
    simp only [f, hstore, cellAt?_withColumn_length name first rest hm ht hrow, hp']
    rfl
  have hwide : ∀ index < (m'.store.columnsOf t.schema).length,
      ∀ row ∈ m'.store.sequence t.rows, cellAt? m'.store index row = some (f index row) := by
    intro index hindex row hrow
    rw [hcolumns, List.length_append, List.length_singleton] at hindex
    rw [hrows] at hrow
    rcases Nat.lt_succ_iff_lt_or_eq.mp hindex with hindex | rfl
    · rw [← hold index hindex row hrow, hstore,
        cellAt?_withColumn_of_lt name first rest hm ht hrow hindex]
    · rw [← hnew row hrow, hstore, cellAt?_withColumn_length name first rest hm ht hrow]
  refine ⟨rfl, fun q hq => ?_, fun q other hq hne type cells => ?_⟩
  · rw [← hcontent q] at hq
    simp only [givesColumn_iff hview hwide hq, hcolumns, lastColumn?_append_self, hrows]
    rw [← read_values_iff hcall.length m'.store.value hnew]
    constructor
    · rintro ⟨_, _, ⟨_, hlast, hknown, rfl⟩, hvalues⟩
      cases hlast
      exact ⟨hknown, hvalues⟩
    · rintro ⟨hknown, hvalues⟩
      exact ⟨_, _, ⟨_, rfl, hknown, rfl⟩, hvalues⟩
  · have hq' := (hcontent q).trans hq
    rw [givesColumn_iff hview hwide hq',
      givesColumn_iff (m := { m' with store := m.store }) hcall.view hold hq, hcolumns,
      lastColumn?_append_of_ne hne, hrows]

/-- A call to add the column `b` of the values 3 and 4 to a table of one column and two rows, for
which there are the tuples `(1)` at 1 and `(2)` at 3. -/
def addToTwo (rows : Array Ref) : Machine where
  store := {
    types := { lists := #[[.int], [.int], [.int]], cells := #[1, 2] }
    objects := #[⟨.int, .int 1⟩, ⟨.tuple 0, .tuple 0⟩, ⟨.int, .int 2⟩,
      ⟨.tuple 1, .tuple 1⟩, ⟨.schema 0, .schema 0⟩, ⟨.table 0, .table ⟨4⟩ 2⟩,
        ⟨.int, .int 3⟩, ⟨.int, .int 4⟩,
      ⟨.list .int, .list 3⟩, ⟨.string, .string "b"⟩]
    sequences := #[#[⟨0⟩], #[⟨2⟩], rows, #[⟨6⟩, ⟨7⟩]]
    columns := #[[("a", .int)]] }
  scope := { names := [("table", ⟨5⟩), ("name", ⟨9⟩), ("values", ⟨8⟩)] }

theorem addToTwo_call (rows : Array Ref) (h : rows.size = 2) :
    WithCall (addToTwo rows) ⟨5⟩ ⟨.table 0, ⟨4⟩, 2⟩ "b" ⟨6⟩ [⟨7⟩] :=
  ⟨rfl, rfl, ⟨⟨9⟩, rfl, rfl⟩, ⟨3, ⟨⟨8⟩, rfl, rfl⟩, rfl⟩, h.symm, rfl⟩

/-- The values are read back from rows of their own. -/
theorem with_read_back_two :
    ∃ m', (runWith (some {})).exec (addToTwo #[⟨1⟩, ⟨3⟩]) = (.ok ⟨5⟩, m') ∧
      ∃ type cells, GivesColumn (some {}) m' ⟨5⟩ ⟨9⟩ type cells ∧
        cells.map m'.store.value = [⟨6⟩, ⟨7⟩].map m'.store.value := by
  have hcall := addToTwo_call #[⟨1⟩, ⟨3⟩] rfl
  have hwith := exec_runWith hcall (some {})
  have ht : WellMade (addToTwo #[⟨1⟩, ⟨3⟩]).store ⟨.table 0, ⟨4⟩, 2⟩ :=
    ⟨⟨0, rfl⟩, ⟨0, rfl⟩, List.forall_mem_cons.mpr ⟨⟨0, rfl, by decide, rfl⟩,
      List.forall_mem_singleton.mpr ⟨1, rfl, by decide, rfl⟩⟩⟩
  rw [if_pos (by decide)] at hwith
  refine ⟨_, hwith, ((with_read_back_iff (by decide +kernel) hcall ht hwith).2.1 ⟨9⟩ rfl).mpr
    ⟨?_, ?_⟩⟩
  · intro h
    cases h
  · intro p hp p' hp' hsame
    rcases List.mem_pair.mp hp with rfl | rfl <;> rcases List.mem_pair.mp hp' with rfl | rfl <;>
      first | rfl | cases hsame

/-- If both rows are one and the same tuple, the first value is read twice. -/
theorem with_read_back_shared :
    ∃ m', (runWith (some {})).exec (addToTwo #[⟨1⟩, ⟨1⟩]) = (.ok ⟨5⟩, m') ∧
      GivesColumn (some {}) m' ⟨5⟩ ⟨9⟩ .int [⟨6⟩, ⟨6⟩] ∧
      m'.store.value ⟨6⟩ ≠ m'.store.value ⟨7⟩ := by
  have hwith := exec_runWith (addToTwo_call #[⟨1⟩, ⟨1⟩] rfl) (some {})
  rw [if_pos (by decide)] at hwith
  refine ⟨_, hwith, ⟨_, _, _, rfl, rfl, rfl⟩, fun h => ?_⟩
  cases h

end TableScript.Primitive
