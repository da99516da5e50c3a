import TableScript.Proofs.Rectangular
import TableScript.Proofs.TableAppend
import TableScript.Proofs.TableDrop

/-!
# Edits of rectangular tables

Lists of types, cells and rows can be shared, so an edit of one table can be seen in others. The
lemmas say which edits leave all of a list of tables rectangular:

* a column that is added, iff each table gets as many types and as many cells in each row as it gets
  columns, and the cells go into the columns (`isRectangular_withColumn_iff`);
* rows that are appended, iff the tables that share the rows have as many columns as the table that
  is named, no row has its cells where the rows are, and the cells go into the columns
  (`isRectangular_appendedRows_iff`);
* a column that is dropped, never: the table itself is left with more columns than types
  (`not_isRectangular_drop`).
-/

namespace TableScript.Primitive

open EvalM

variable {m m' : Machine} {r : Ref}

theorem Idle.table? {x : EvalM Ref} (h : Idle x m) (hx : x.exec m = (.ok r, m')) :
    m'.store.table? r = none := by
  rw [Store.table?, (h _ _ hx).2 r rfl]

section

variable {s : Store} {t v : TableView}

/-! ## Adding a column -/

/-- The place of the columns of a schema. -/
def columnPlace? (s : Store) (schema : Ref) : Option Nat :=
  match s.content schema with
  | .schema place => some place
  | _ => none

/-- The number of columns that a schema gets if a column is added to a table. -/
def gainedColumns (s : Store) (t : TableView) (schema : Ref) : Nat :=
  if (columnPlace? s schema).isSome ∧ columnPlace? s t.schema = columnPlace? s schema then 1
  else 0

/-- The number of types that the list at a place gets. -/
def gainedTypes (s : Store) (t : TableView) (values : List Ref) (i : Nat) : Nat :=
  (if Store.tableMembers? t.type = some i then 1 else 0) +
    (editedRows s t values).countP fun p => s.rowMembers? p.2 = some i

/-- The number of cells that the sequence at a place gets. -/
def gainedCells (s : Store) (t : TableView) (values : List Ref) (i : Nat) : Nat :=
  (editedRows s t values).countP fun p => s.rowCells? p.2 = some i

variable {members place : Nat}

section

variable (ht : t.type = .table members) (name : String) (first : Ref) (rest : List Ref)

include ht

theorem columns_withColumn (i : Nat) :
    (withColumn s t name first rest).columns[i]? =
      if columnPlace? s t.schema = some i then
        (s.columns[i]?).map (· ++ [(name, (s.object first).type)])
      else s.columns[i]? := by
  rw [withColumn, Store.columns_extendRows, Store.extendSchema, ht]
  dsimp only
  have hcontent : (s.mapTypes (·.appendMember members (s.object first).type)).content t.schema =
      s.content t.schema := rfl
  rw [Store.extendColumns, hcontent, columnPlace?]
  cases s.content t.schema with
  | schema place =>
    show (s.columns.modify place _)[i]? = _
    rw [Array.getElem?_modify]
    simp
  | _ => simp [Store.mapTypes]

theorem length_columnsOf_withColumn (hs : s.Closed) {schema : Ref} (hschema : s.Has schema.cell) :
    ((withColumn s t name first rest).columnsOf schema).length =
      (s.columnsOf schema).length + gainedColumns s t schema := by
  rw [Store.columnsOf, Store.content_eq_of_objects (objects_withColumn s t name first rest),
    Store.columnsOf, gainedColumns]
  split
  · next place hplace =>
    have hat : columnPlace? s schema = some place := by rw [columnPlace?, hplace]
    have hget := Array.getElem?_eq_getElem (hs.columns hschema hplace)
    have hafter := columns_withColumn ht name first rest (s := s) place
    rw [hget] at hafter
    rw [hat, Store.columnList_of_getElem? hget]
    split at hafter
    · next hsame =>
      rw [Store.columnList_of_getElem? hafter, if_pos ⟨rfl, hsame⟩, List.length_append,
        List.length_singleton]
    · next hother =>
      rw [Store.columnList_of_getElem? hafter, if_neg fun h => hother h.2, Nat.add_zero]
  · next hne =>
    have hat : columnPlace? s schema = none := by
      rw [columnPlace?]
      split
      · next place hplace => exact absurd hplace (hne place)
      · rfl
    rw [hat]
    simp

theorem length_list_withColumn {i : Nat} (hi : s.Has (.members i)) :
    ((withColumn s t name first rest).types.list i).length =
      (s.types.list i).length + gainedTypes s t (first :: rest) i := by
  have hget := Array.getElem?_eq_getElem hi
  obtain ⟨l, hl, hlength⟩ := length_withColumn ht hget name first rest
  rw [TypeStore.list_of_getElem? hl, TypeStore.list_of_getElem? hget, hlength, gainedTypes, ht,
    Nat.add_assoc, Store.tableMembers?]
  simp

end

theorem length_sequence_withColumn (hplace : s.Has (.sequence place)) (name : String)
    (first : Ref) (rest : List Ref) :
    ((withColumn s t name first rest).sequence place).length =
      (s.sequence place).length + gainedCells s t (first :: rest) place := by
  have hget := Array.getElem?_eq_getElem hplace
  obtain ⟨a, ha, hsize⟩ := size_withColumn (t := t) hget name first rest
  rw [Store.sequence_of_getElem? ha, Store.sequence_of_getElem? hget]
  exact hsize

theorem has_of_rowCells? (hs : s.Closed) {row : Ref} (h : s.rowCells? row = some place) :
    s.Has (.sequence place) := by
  have hcontent : s.content row ≠ .none := by
    rw [Store.rowCells?_eq_some.mp h]
    exact nofun
  exact hs.rowCells (Array.getElem?_eq_some_iff.mp (Store.getElem?_of_content hcontent)).1 h

variable {position : Option Position}

theorem exec_runWith_ok {r' : Ref} {name : String} {first : Ref} {rest : List Ref}
    (hcall : WithCall m r t name first rest) (h : (runWith position).exec m = (.ok r', m')) :
    r' = r ∧ m'.store = withColumn m.store t name first rest := by
  rw [exec_runWith hcall] at h
  split at h
  · cases h
    exact ⟨rfl, rfl⟩
  · cases h

/-- A table gets as many types as it gets columns, its rows then have as many cells as it has
columns, and the cells go into the columns. -/
structure ColumnFits (s : Store) (t : TableView) (name : String) (first : Ref) (rest : List Ref)
    (v : TableView) : Prop where
  types : ∀ i, v.type = .table i →
    gainedTypes s t (first :: rest) i = gainedColumns s t v.schema
  rows : ∀ row ∈ (withColumn s t name first rest).sequence v.rows, ∃ place,
    s.rowCells? row = some place ∧
    (s.sequence place).length + gainedCells s t (first :: rest) place =
      (s.columnsOf v.schema).length + gainedColumns s t v.schema
  cells : (withColumn s t name first rest).CellsConform v

/-- When a table is rectangular after a column was added to some table. -/
theorem isRectangular_withColumn_iff (hs : s.Closed) (ht : t.type = .table members) {u : Ref}
    (hv : s.table? u = some v) (hrect : s.Rectangular v) (name : String) (first : Ref)
    (rest : List Ref) :
    (withColumn s t name first rest).IsRectangular u ↔ ColumnFits s t name first rest v := by
  obtain ⟨i, hi, hlength⟩ := hrect.types
  have hobjects := objects_withColumn s t name first rest
  have hcolumns := length_columnsOf_withColumn ht name first rest hs (hs.schema hv)
  have htypes := length_list_withColumn ht name first rest (hs.members hv hi)
  rw [Store.isRectangular_iff ((table?_eq_of_objects hobjects u).trans hv), Store.rectangular_iff,
    hcolumns]
  constructor
  · rintro ⟨⟨j, hj, hsame⟩, hwide, hcells⟩
    rw [hi] at hj
    cases hj
    refine ⟨fun j hj => ?_, fun row hrow => ?_, hcells⟩
    · rw [hi] at hj
      cases hj
      omega
    · obtain ⟨place, hplace, hwidth⟩ := hwide row hrow
      rw [Store.rowCells?_eq_of_objects hobjects] at hplace
      rw [length_sequence_withColumn (has_of_rowCells? hs hplace)] at hwidth
      exact ⟨place, hplace, hwidth⟩
  · rintro ⟨hsame, hrows, hcells⟩
    refine ⟨⟨i, hi, ?_⟩, fun row hrow => ?_, hcells⟩
    · rw [htypes, hlength, hsame i hi]
    · obtain ⟨place, hplace, hwidth⟩ := hrows row hrow
      refine ⟨place, (Store.rowCells?_eq_of_objects hobjects row).trans hplace, ?_⟩
      rw [length_sequence_withColumn (has_of_rowCells? hs hplace), hwidth]

/-! ## Appending rows -/

theorem exec_runAppend_ok {r' : Ref} {source : Nat} (hm : m.store.Closed)
    (hcall : AppendCall m r t source) (hrect : m.store.Rectangular t)
    (h : (runAppend position).exec m = (.ok r', m')) (htable : m'.store.table? r' ≠ none) :
    r' = r ∧
      m'.store = appendedRows m.store t (tupleRows m.store (m.store.sequence source)) ∧
      FitInTurn m.store t (tupleRows m.store (m.store.sequence source)) := by
  rw [exec_runAppend hcall] at h
  obtain ⟨appended, m₁, hloop, h⟩ := exec_bind_ok h
  cases appended with
  | false => exact absurd (newNone_table? h) htable
  | true =>
    cases h
    refine ⟨rfl, ?_⟩
    by_cases hself : t.rows = source
    · subst hself
      cases hrows : m.store.sequence t.rows with
      | nil =>
        rw [exec_appendRows_end (by rw [hrows]; rfl)] at hloop
        cases hloop
        exact ⟨rfl, trivial⟩
      | cons row rows =>
        -- each row that is appended to the table itself has its turn again
        refine absurd hloop (exec_appendRows_self (hm.rows hcall.view) (fun row hrow => ?_) ?_)
        · obtain ⟨place, hplace, -⟩ := (Store.rectangular_iff.mp hrect).2.1 row hrow
          rw [hplace]
          rfl
        · rw [hrows]
          exact Nat.succ_pos _
    · have hall := exec_appendRows_ok hself hloop
      rwa [List.drop_zero] at hall

/-- Tables that share their rows with a table have as many columns, none of the rows has its cells
where the rows of the table are, and the cells go into the columns. -/
structure RowsFit (s : Store) (t : TableView) (added : List Ref) (tables : List Ref) : Prop where
  columns : ∀ u ∈ tables, ∀ v, s.table? u = some v → v.rows = t.rows →
    (s.columnsOf v.schema).length = (s.columnsOf t.schema).length
  apart : ∀ u ∈ tables, ∀ v, s.table? u = some v →
    ∀ row ∈ s.sequence v.rows ++ added, s.rowCells? row ≠ some t.rows
  cells : ∀ u ∈ tables, ∀ v, s.table? u = some v → (appendedRows s t added).CellsConform v

variable {added tables : List Ref}

/-- When tables are rectangular after rows were appended to one. -/
theorem isRectangular_appendedRows_iff (hs : s.Closed) (hr : r ∈ tables)
    (ht : s.table? r = some t) (hrect : ∀ u ∈ tables, s.IsRectangular u)
    (hfit : FitInTurn s t added) (hadded : added ≠ []) :
    (∀ u ∈ tables, (appendedRows s t added).IsRectangular u) ↔ RowsFit s t added tables := by
  have hsize := hs.rows ht
  have hwidth := hfit.width hsize
  have hrows := sequence_appendedRows (s := s) added hsize
  have hcells := rowCells?_appendedRows (s := s) (t := t) added
  have hafter {u v} (hv : s.table? u = some v) :
      (appendedRows s t added).IsRectangular u ↔ (appendedRows s t added).Rectangular v :=
    Store.isRectangular_iff ((table?_eq_of_objects (objects_appendedRows added) u).trans hv)
  simp only [Store.rectangular_iff, columnsOf_appendedRows] at hafter
  constructor
  · intro hall
    have hwide {u v} (hu : u ∈ tables) (hv : s.table? u = some v) {row}
        (hrow : row ∈ (appendedRows s t added).sequence v.rows) {place}
        (hplace : s.rowCells? row = some place) :
        ((appendedRows s t added).sequence place).length = (s.columnsOf v.schema).length := by
      obtain ⟨place', hplace', hlength⟩ := ((hafter hv).mp (hall u hu)).2.1 row hrow
      rw [hcells, hplace] at hplace'
      cases hplace'
      exact hlength
    have hnew {row} (hrow : row ∈ added) : row ∈ (appendedRows s t added).sequence t.rows := by
      rw [hrows]
      exact List.mem_append_right _ hrow
    refine ⟨fun u hu v hv hshared => ?_, fun u hu v hv row hrow hplace => ?_,
      fun u hu v hv => ((hafter hv).mp (hall u hu)).2.2⟩
    · -- A new row is a row of both tables, and so as wide as either.
      obtain ⟨row, hrow⟩ := List.exists_mem_of_ne_nil _ hadded
      obtain ⟨place, hplace, -⟩ := hwidth row hrow
      rw [← hwide hu hv (hshared ▸ hnew hrow) hplace, ← hwide hr ht (hnew hrow) hplace]
    · rcases List.mem_append.mp hrow with hrow | hrow
      · -- The row would have got longer.
        have hbefore : s.IsWide row (s.columnsOf v.schema).length :=
          (Store.rectangular_iff.mp ((Store.isRectangular_iff hv).mp (hrect u hu))).2.1 row hrow
        obtain ⟨place, hplace', hlength⟩ := hbefore
        rw [hplace] at hplace'
        cases hplace'
        have hkept := isPrefix_sequence_of_grows (grows_appendedRows (s := s) (t := t) added) v.rows
        have hlonger := hwide hu hv (hkept.subset hrow) hplace
        rw [hrows, List.length_append, hlength] at hlonger
        have := List.length_pos_of_ne_nil hadded
        omega
      · obtain ⟨place, hplace', -, hlonger⟩ := hwidth row hrow
        rw [hplace] at hplace'
        cases hplace'
        have := hlonger rfl
        have := hwide hr ht (hnew hrow) hplace
        omega
  · rintro ⟨hcolumns, hapart, hconform⟩ u hu
    obtain ⟨v, hv, hrectv⟩ := hrect u hu
    obtain ⟨htypes, hwide, -⟩ := Store.rectangular_iff.mp hrectv
    refine (hafter hv).mpr ⟨?_, fun row hrow => ?_, hconform u hu v hv⟩
    · simpa only [TypeStore.list, lists_appendedRows] using htypes
    · have hmem : row ∈ s.sequence v.rows ∨ v.rows = t.rows ∧ row ∈ added := by
        by_cases hshared : t.rows = v.rows
        · rw [← hshared, hrows] at hrow
          exact (List.mem_append.mp hrow).imp (hshared ▸ ·) fun h => ⟨hshared.symm, h⟩
        · rw [sequence_appendedRows_of_ne _ hshared] at hrow
          exact .inl hrow
      have hwidth : s.IsWide row (s.columnsOf v.schema).length := by
        rcases hmem with hrow | ⟨hshared, hrow⟩
        · exact hwide row hrow
        · obtain ⟨place, hplace, hlength, -⟩ := hwidth row hrow
          refine ⟨place, hplace, ?_⟩
          rw [hcolumns u hu v hv hshared]
          refine hlength fun hrows => ?_
          exact hapart u hu v hv row (List.mem_append_right _ hrow) (hrows ▸ hplace)
      obtain ⟨place, hplace, hlength⟩ := hwidth
      -- the cells lie apart from the rows that have got longer
      have hne : t.rows ≠ place := by
        rintro rfl
        refine hapart u hu v hv row (List.mem_append.mpr ?_) hplace
        exact hmem.imp_right And.right
      refine ⟨place, (hcells row).trans hplace, ?_⟩
      rw [sequence_appendedRows_of_ne _ hne, hlength]

end

/-! ## Dropping a column -/

section

variable {m m' : Machine} {position : Option Position} {r r' : Ref} {t : TableView} {index : Nat}

section

variable (hm : m.store.Closed) (hcall : DropCall m r t index) (hrect : m.store.Rectangular t)
  (h : (runDrop position).exec m = (.ok r', m'))

include hm hcall hrect h

theorem DropCall.fullDrop : ∃ members, FullDrop m r t index members := by
  obtain ⟨members, htype, hlength⟩ := hrect.types
  obtain ⟨place, hcontent⟩ := hcall.schema
  obtain ⟨out, m₁, hexec, -, -, herror⟩ :=
    exec_dropFromSchema (hm.sound (hm.schema hcall.view)) hcontent index
  refine ⟨members, hcall, Classical.byContradiction fun hshort => ?_, htype,
    hlength ▸ hcall.index_lt⟩
  obtain ⟨halt, rfl⟩ := herror hshort
  rw [exec_runDrop hcall position, dropColumn, exec_bind_halt hexec] at h
  cases h

/-- A table that a column was dropped from is not rectangular. -/
theorem not_isRectangular_drop : ¬ m'.store.IsRectangular r := by
  obtain ⟨members, hdrop⟩ := hcall.fullDrop hm hrect h
  obtain ⟨htable, hcolumns, htypes⟩ := hdrop.store_after hm position
  rw [h] at htable hcolumns htypes
  rw [Store.isRectangular_iff htable]
  rintro ⟨⟨members', htype', hafter⟩, -⟩
  obtain ⟨members'', htype'', hbefore⟩ := hrect.types
  rw [hdrop.type] at htype' htype''
  cases htype'
  cases htype''
  have hlt := hdrop.index_lt
  rw [hcolumns, htypes, List.length_eraseIdx_of_lt hlt] at hafter
  omega

end

end

end TableScript.Primitive
