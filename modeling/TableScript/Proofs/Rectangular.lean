import TableScript.Proofs.TableViews

/-!
# Tables with full rows

A table is `Rectangular` if its type has as many types as its schema has columns, and each of its
rows is a tuple with one cell for every column, the type of which conforms to the column's.
Additions to the store keep a table so (`Store.Extends.isRectangular`), and whether a new table is
so depends on its parts alone (`isRectangular_newTable`).
-/

namespace TableScript

namespace Store

open Primitive

variable {s s' : Store}

/-- The types of a table and the cells of its rows go with its columns. -/
structure Rectangular (s : Store) (t : TableView) : Prop where
  types : ∃ members, t.type = .table members ∧
    (s.types.list members).length = (s.columnsOf t.schema).length
  rows : ∀ row ∈ s.sequence t.rows, RowFits s t row

/-- There is a rectangular table at a reference. -/
def IsRectangular (s : Store) (r : Ref) : Prop :=
  ∃ t, s.table? r = some t ∧ s.Rectangular t

variable {columns : List (String × TypeRef)} {t : TableView} {cells : List Ref} {r : Ref}

theorem isRectangular_iff (h : s.table? r = some t) : s.IsRectangular r ↔ s.Rectangular t := by
  rw [IsRectangular, h]
  simp

/-- A row is a tuple of so many cells. -/
def IsWide (s : Store) (row : Ref) (width : Nat) : Prop :=
  ∃ place, s.rowCells? row = some place ∧ (s.sequence place).length = width

/-- The cells of the rows of a table go into its columns, up to the end of either. -/
def CellsConform (s : Store) (t : TableView) : Prop :=
  ∀ row ∈ s.sequence t.rows, ∀ cells, s.cells? row = some cells →
    CellsFit s cells (s.columnsOf t.schema)

theorem rectangular_iff : s.Rectangular t ↔
    (∃ members, t.type = .table members ∧
      (s.types.list members).length = (s.columnsOf t.schema).length) ∧
    (∀ row ∈ s.sequence t.rows, s.IsWide row (s.columnsOf t.schema).length) ∧
    s.CellsConform t := by
  constructor
  · rintro ⟨htypes, hrows⟩
    refine ⟨htypes, fun row hrow => ?_, fun row hrow cells hcells => ?_⟩
    · obtain ⟨cells, hcells, hlength, -⟩ := hrows row hrow
      obtain ⟨place, hplace, rfl⟩ := Option.map_eq_some_iff.mp hcells
      exact ⟨place, hplace, hlength⟩
    · obtain ⟨cells', hcells', -, hfit⟩ := hrows row hrow
      rw [hcells] at hcells'
      cases hcells'
      exact hfit
  · rintro ⟨htypes, hwide, hconform⟩
    refine ⟨htypes, fun row hrow => ?_⟩
    obtain ⟨place, hplace, hlength⟩ := hwide row hrow
    have hcells : s.cells? row = some (s.sequence place) := by
      rw [cells?, hplace]
      rfl
    exact ⟨_, hcells, hlength, hconform row hrow _ hcells⟩

/-! ## Deciding -/

instance (s : Store) (cell : Ref) (type : TypeRef) : Decidable (CellFits s cell type) :=
  inferInstanceAs (Decidable (_ ∧ _))

instance (s : Store) (cells : List Ref) (columns : List (String × TypeRef)) :
    Decidable (CellsFit s cells columns) :=
  inferInstanceAs (Decidable (∀ p ∈ cells.zip columns, CellFits s p.1 p.2.2))

instance (s : Store) (t : TableView) (row : Ref) : Decidable (RowFits s t row) :=
  inferInstanceAs (Decidable (∃ cells ∈ s.cells? row,
    cells.length = (s.columnsOf t.schema).length ∧ CellsFit s cells (s.columnsOf t.schema)))

/-- The place of the list of types of the type of a table. -/
def tableMembers? : TypeRef → Option Nat
  | .table members => some members
  | _ => none

theorem tableMembers?_eq_some {type : TypeRef} {members : Nat} :
    tableMembers? type = some members ↔ type = .table members := by
  cases type <;> simp [tableMembers?]

instance (s : Store) (t : TableView) : Decidable (s.Rectangular t) :=
  decidable_of_iff ((∃ members ∈ tableMembers? t.type,
      (s.types.list members).length = (s.columnsOf t.schema).length) ∧
      ∀ row ∈ s.sequence t.rows, RowFits s t row) <| by
    simp only [Option.mem_def, tableMembers?_eq_some]
    exact ⟨fun h => ⟨h.1, h.2⟩, fun h => ⟨h.types, h.rows⟩⟩

instance (s : Store) (r : Ref) : Decidable (s.IsRectangular r) :=
  inferInstanceAs (Decidable (∃ t ∈ s.table? r, s.Rectangular t))

/-! ## Additions -/

section

variable (h : s.Extends s')
include h

variable {row : Ref}

theorem Extends.fits_iff (hs : s.Closed) {found expected : TypeRef}
    (hfound : ∀ c ∈ found.cells, s.Has c) (hexpected : ∀ c ∈ expected.cells, s.Has c) :
    s'.types.Fits found expected ↔ s.types.Fits found expected := by
  refine ⟨?_, h.types.fits⟩
  rintro ⟨t, ht, habsent⟩
  rw [TypeStore.conform?_eq_some, h.ends_iff hs hfound, h.ends_iff hs hexpected] at ht
  obtain ⟨hendsFound, hendsExpected, ht⟩ := ht
  rw [h.types.read_eq hendsFound, h.types.read_eq hendsExpected] at ht
  exact ⟨t, TypeStore.conform?_eq_some.mpr ⟨hendsFound, hendsExpected, ht⟩, habsent⟩

theorem Extends.cellFits_iff (hs : s.Closed) {cell : Ref} {type : TypeRef} (hcell : s.Has cell.cell)
    (htype : ∀ c ∈ type.cells, s.Has c) :
    CellFits s' cell type ↔ CellFits s cell type := by
  rw [CellFits, CellFits, content, content, h.object_eq_of_has hcell,
    h.fits_iff hs (hs.type hcell) htype]

theorem Extends.table?_eq (ht : s.table? r = some t) : s'.table? r = some t := by
  rw [table?_eq_some, h.object_eq_of_has (has_of_table? ht)]
  exact table?_eq_some.mp ht

theorem Extends.rowCells?_eq (hrow : s.Has row.cell) :
    s'.rowCells? row = s.rowCells? row := by
  rw [rowCells?, rowCells?, content, content, h.object_eq_of_has hrow]

theorem Extends.cells?_eq (hs : s.Closed) (hrow : s.Has row.cell) :
    s'.cells? row = s.cells? row := by
  rw [cells?, cells?, h.rowCells?_eq hrow]
  cases hplace : s.rowCells? row with
  | none => rfl
  | some place => rw [Option.map_some, Option.map_some, h.sequence_eq (hs.rowCells hrow hplace)]

theorem Extends.cellsFit (hcells : ∀ cell ∈ cells, s.Has cell.cell)
    (hfit : CellsFit s cells columns) : CellsFit s' cells columns := by
  intro p hp
  obtain ⟨hentry, hfits⟩ := hfit p hp
  rw [CellFits, content, h.object_eq_of_has (hcells _ (List.of_mem_zip hp).1)]
  exact ⟨hentry, h.types.fits hfits⟩

theorem Extends.has_object (hr : s.Has r.cell) : s'.Has r.cell :=
  (Array.getElem?_eq_some_iff.mp (h.objects (Array.getElem?_eq_getElem hr))).1

theorem Extends.cellsFit_iff (hs : s.Closed) (hcells : ∀ cell ∈ cells, s.Has cell.cell)
    (hcolumns : ∀ column ∈ columns, ∀ c ∈ column.2.cells, s.Has c) :
    CellsFit s' cells columns ↔ CellsFit s cells columns := by
  refine forall₂_congr fun p hp => ?_
  obtain ⟨hcell, hcolumn⟩ := List.of_mem_zip hp
  exact h.cellFits_iff hs (hcells _ hcell) (hcolumns _ hcolumn)

theorem Extends.rowFits_iff (hs : s.Closed) (hschema : s.Has t.schema.cell)
    (hrow : s.Has row.cell) : RowFits s' t row ↔ RowFits s t row := by
  rw [RowFits, RowFits, h.cells?_eq hs hrow, h.columnsOf_eq hs hschema]
  refine exists_congr fun cells => and_congr_right fun hcells => and_congr_right fun _ => ?_
  exact h.cellsFit_iff hs (hs.mem_cells hrow hcells) (hs.mem_columnsOf hschema)

theorem Extends.rectangular_iff (hs : s.Closed) (htype : ∀ c ∈ t.type.cells, s.Has c)
    (hschema : s.Has t.schema.cell) (hrows : s.Has (.sequence t.rows)) :
    s'.Rectangular t ↔ s.Rectangular t := by
  have htypes : ∀ members, t.type = .table members →
      ((s'.types.list members).length = (s'.columnsOf t.schema).length ↔
        (s.types.list members).length = (s.columnsOf t.schema).length) := by
    intro members ht
    rw [ht] at htype
    rw [h.types.list_eq (htype _ (List.mem_singleton_self _)), h.columnsOf_eq hs hschema]
  constructor
  · rintro ⟨⟨members, ht, hlength⟩, hfit⟩
    refine ⟨⟨members, ht, (htypes members ht).mp hlength⟩, fun row hrow => ?_⟩
    refine (h.rowFits_iff hs hschema (hs.cell hrows hrow)).mp (hfit row ?_)
    rwa [h.sequence_eq hrows]
  · rintro ⟨⟨members, ht, hlength⟩, hfit⟩
    refine ⟨⟨members, ht, (htypes members ht).mpr hlength⟩, fun row hrow => ?_⟩
    rw [h.sequence_eq hrows] at hrow
    exact (h.rowFits_iff hs hschema (hs.cell hrows hrow)).mpr (hfit row hrow)

/-- Additions leave tables rectangular. -/
theorem Extends.isRectangular (hs : s.Closed) (hr : s.IsRectangular r) :
    s'.IsRectangular r := by
  obtain ⟨t, ht, hrect⟩ := hr
  have htype := hs.type (has_of_table? ht)
  rw [table?_eq_some.mp ht] at htype
  exact ⟨t, h.table?_eq ht, (h.rectangular_iff hs htype (hs.schema ht) (hs.rows ht)).mpr hrect⟩

end

/-! ## Parts of tables -/

/-- A tuple of these cells is at a reference. -/
def TupleAt (s : Store) (r : Ref) (cells : List Ref) : Prop :=
  ∃ type place, s.objects[r.index]? = some ⟨type, .tuple place⟩ ∧
    s.sequences[place]? = some cells.toArray

variable {schema : Ref}

theorem Extends.tupleAt (h : s.Extends s') (hr : s.TupleAt r cells) : s'.TupleAt r cells := by
  obtain ⟨type, place, hobject, hsequence⟩ := hr
  exact ⟨type, place, h.objects hobject, h.sequences hsequence⟩

theorem TupleAt.cells? (h : s.TupleAt r cells) : s.cells? r = some cells := by
  obtain ⟨type, place, hobject, hsequence⟩ := h
  rw [Store.cells?, rowCells?_eq_some.mpr (content_of_getElem? hobject), Option.map_some,
    sequence_of_getElem? hsequence]

/-- A schema of these columns is at a reference. -/
def ColumnsAt (s : Store) (schema : Ref) (columns : List (String × TypeRef)) : Prop :=
  ∃ type place, s.objects[schema.index]? = some ⟨type, .schema place⟩ ∧
    s.columns[place]? = some columns

theorem Extends.columnsAt (h : s.Extends s') (hschema : s.ColumnsAt schema columns) :
    s'.ColumnsAt schema columns := by
  obtain ⟨type, place, hobject, hcolumns⟩ := hschema
  exact ⟨type, place, h.objects hobject, h.columns hcolumns⟩

theorem ColumnsAt.columnsOf (h : s.ColumnsAt schema columns) :
    s.columnsOf schema = columns := by
  obtain ⟨type, place, hobject, hcolumns⟩ := h
  rw [Store.columnsOf, content_of_getElem? hobject]
  exact columnList_of_getElem? hcolumns

theorem Closed.columnsAt (hs : s.Closed) {place : Nat} (h : s.content schema = .schema place) :
    s.ColumnsAt schema (s.columnsOf schema) := by
  have hobject : s.objects[schema.index]? = some (s.object schema) :=
    getElem?_of_content (by rw [h]; exact nofun)
  have hhas : s.Has schema.cell := (Array.getElem?_eq_some_iff.mp hobject).1
  have hcolumns := Array.getElem?_eq_getElem (hs.columns hhas h)
  refine ⟨(s.object schema).type, place, ?_, ?_⟩
  · rw [hobject, ← h]
    rfl
  · rw [hcolumns, columnsOf, h]
    exact congrArg some (columnList_of_getElem? hcolumns).symm

end Store

namespace Primitive

open EvalM

variable {m m' : Machine}

theorem exec_newTuple_ok {type : TypeRef} {cells : List Ref} {r : Ref}
    (h : (newTuple type cells).exec m = (.ok r, m')) :
    m.store.Extends m'.store ∧ m'.store.TupleAt r cells := by
  refine ⟨(moves_newTuple type cells).of_exec h, ?_⟩
  cases h
  exact ⟨type, _, Array.getElem?_push_size, Array.getElem?_push_size⟩

variable {members : Nat} {r : Ref}

theorem exec_newSchema_ok {columns : List (String × TypeRef)}
    (h : (newSchema members columns).exec m = (.ok r, m')) :
    m.store.Extends m'.store ∧ m'.store.ColumnsAt r columns := by
  refine ⟨(moves_newSchema members columns).of_exec h, ?_⟩
  cases h
  exact ⟨_, _, Array.getElem?_push_size, Array.getElem?_push_size⟩

theorem exec_newMembers_ok {types : List TypeRef}
    (h : (newMembers types).exec m = (.ok members, m')) :
    m.store.Extends m'.store ∧ m'.store.types.lists[members]? = some types := by
  refine ⟨(moves_newMembers types).of_exec h, ?_⟩
  cases h
  exact Array.getElem?_push_size

theorem exec_newTable_ok {schema : Ref} {rows : List Ref}
    (h : (newTable members schema rows).exec m = (.ok r, m')) :
    m.store.Extends m'.store ∧ ∃ place,
      m'.store.table? r = some ⟨.table members, schema, place⟩ ∧
      m'.store.sequence place = rows := by
  refine ⟨(moves_newTable members schema rows).of_exec h, ?_⟩
  cases h
  refine ⟨m.store.sequences.size, ?_, ?_⟩
  · exact Store.table?_eq_some.mpr (Store.object_of_getElem? Array.getElem?_push_size)
  · exact Store.sequence_of_getElem? Array.getElem?_push_size

theorem newNone_table? (h : newNone.exec m = (.ok r, m')) : m'.store.table? r = none := by
  cases h
  rw [Store.table?, Store.content_of_getElem? Array.getElem?_push_size]

theorem isRectangular_newTable {schema : Ref} {rows : List Ref} {types : List TypeRef}
    {columns : List (String × TypeRef)} (h : (newTable members schema rows).exec m = (.ok r, m'))
    (htypes : m.store.types.lists[members]? = some types)
    (hcolumns : m.store.ColumnsAt schema columns) :
    m'.store.IsRectangular r ↔ types.length = columns.length ∧ ∀ row ∈ rows, ∃ cells,
      m'.store.cells? row = some cells ∧ cells.length = columns.length ∧
        CellsFit m'.store cells columns := by
  obtain ⟨hextends, place, htable, hrows⟩ := exec_newTable_ok h
  have hcolumns' := (hextends.columnsAt hcolumns).columnsOf
  have htypes' := TypeStore.list_of_getElem? (hextends.types.lists htypes)
  constructor
  · rintro ⟨t, ht, ⟨members', htype, hlength⟩, hfit⟩
    rw [htable] at ht
    cases ht
    cases htype
    rw [htypes', hcolumns'] at hlength
    refine ⟨hlength, fun row hrow => ?_⟩
    have hrow := hfit row (hrows ▸ hrow)
    rwa [RowFits, hcolumns'] at hrow
  · rintro ⟨hlength, hfit⟩
    refine ⟨_, htable, ⟨members, rfl, ?_⟩, fun row hrow => ?_⟩
    · rw [htypes', hcolumns', hlength]
    · rw [hrows] at hrow
      rw [RowFits, hcolumns']
      exact hfit row hrow

/-! ## Lists of results -/

section

variable {α β : Type} {P : α → β → Store → Prop} {f : α → EvalM (Option β)}
  {bs : List β} {l : List α}

theorem exec_mapM_same {f : α → EvalM β}
    (h : List.Forall₂ (fun a b => (f a).exec m = (.ok b, m)) l bs) :
    (l.mapM f).exec m = (.ok bs, m) := by
  induction h with
  | nil => rfl
  | cons ha _ ih =>
    rw [List.mapM_cons, exec_bind_of ha, exec_bind_of ih]
    rfl

theorem exec_filterMapM_same
    (h : List.Forall₂ (fun a b => (f a).exec m = (.ok (some b), m)) l bs) :
    (l.filterMapM f).exec m = (.ok bs, m) := by
  rw [filterMapM_eq_map, exec_map_of (exec_mapM_same (List.forall₂_map_right_iff.mpr h))]
  simp [List.filterMap_map]

theorem exec_mapM_ok {f : α → EvalM β} (hmoves : ∀ a, (f a).Moves Store.Extends)
    (hP : ∀ {a b s s'}, Store.Extends s s' → P a b s → P a b s')
    (hf : ∀ a ∈ l, ∀ {m₁ b m₂}, m.store.Extends m₁.store →
      (f a).exec m₁ = (.ok b, m₂) → P a b m₂.store) (h : (l.mapM f).exec m = (.ok bs, m')) :
    ∃ results : List (α × β), l = results.map Prod.fst ∧ bs = results.map Prod.snd ∧
      ∀ p ∈ results, P p.1 p.2 m'.store := by
  induction l generalizing m bs with
  | nil =>
    cases h
    exact ⟨[], rfl, rfl, nofun⟩
  | cons a l ih =>
    rw [List.mapM_cons] at h
    obtain ⟨b, m₁, ha, h⟩ := exec_bind_ok h
    obtain ⟨cs, m₂, hl, h⟩ := exec_bind_ok h
    cases h
    have hadds := (hmoves a).of_exec ha
    obtain ⟨results, rfl, rfl, hresults⟩ := ih (fun a ha _ _ _ hm =>
      hf a (List.mem_cons_of_mem _ ha) (hadds.trans hm)) hl
    have hfirst := hP ((Moves.mapM hmoves).of_exec hl) (hf a List.mem_cons_self (.refl _) ha)
    exact ⟨(a, b) :: results, rfl, rfl, List.forall_mem_cons.mpr ⟨hfirst, hresults⟩⟩

theorem exec_filterMapM_ok (hmoves : ∀ a, (f a).Moves Store.Extends)
    {P : α → Option β → Store → Prop}
    (hP : ∀ {a b s s'}, Store.Extends s s' → P a b s → P a b s')
    (hf : ∀ a ∈ l, ∀ {m₁ b m₂}, m.store.Extends m₁.store →
      (f a).exec m₁ = (.ok b, m₂) →
      P a b m₂.store) (h : (l.filterMapM f).exec m = (.ok bs, m')) :
    ∃ results : List (α × Option β), l = results.map Prod.fst ∧
      bs = results.filterMap Prod.snd ∧ ∀ p ∈ results, P p.1 p.2 m'.store := by
  rw [filterMapM_eq_map] at h
  obtain ⟨all, hall, rfl⟩ := exec_map_ok h
  obtain ⟨results, hl, rfl, hresults⟩ := exec_mapM_ok (P := P) hmoves hP hf hall
  exact ⟨results, hl, List.filterMap_map, hresults⟩

variable (hmoves : ∀ a, (f a).Moves Store.Extends)
  (hP : ∀ {a b s s'}, Store.Extends s s' → P a b s → P a b s')

include hmoves hP

theorem exec_filterMapM_mem
    (hf : ∀ a ∈ l, ∀ {m₁ b m₂}, m.store.Extends m₁.store →
      (f a).exec m₁ = (.ok (some b), m₂) →
      P a b m₂.store) (h : (l.filterMapM f).exec m = (.ok bs, m')) :
    ∀ b ∈ bs, ∃ a ∈ l, P a b m'.store := by
  obtain ⟨results, rfl, rfl, hresults⟩ := exec_filterMapM_ok
    (P := fun a b s => ∀ b', b = some b' → P a b' s) hmoves
    (fun hext hall b' hb => hP hext (hall b' hb))
    (fun a ha _ _ _ hext hexec b' hb => hf a ha hext (hb ▸ hexec)) h
  intro b hb
  obtain ⟨p, hp, hsome⟩ := List.mem_filterMap.mp hb
  exact ⟨p.1, List.mem_map_of_mem hp, hresults p hp b hsome⟩

theorem exec_filterMapM_all
    (hf : ∀ a ∈ l, ∀ {m₁ b m₂}, m.store.Extends m₁.store →
      (f a).exec m₁ = (.ok b, m₂) →
      ∃ b', b = some b' ∧ P a b' m₂.store) (h : (l.filterMapM f).exec m = (.ok bs, m')) :
    (∀ a ∈ l, ∃ b ∈ bs, P a b m'.store) ∧ ∀ b ∈ bs, ∃ a ∈ l, P a b m'.store := by
  constructor
  · obtain ⟨results, rfl, rfl, hresults⟩ := exec_filterMapM_ok
      (P := fun a b s => ∃ b', b = some b' ∧ P a b' s) hmoves
      (fun hext => Exists.imp fun _ hb => ⟨hb.1, hP hext hb.2⟩) hf h
    intro a ha
    obtain ⟨p, hp, rfl⟩ := List.mem_map.mp ha
    obtain ⟨b, hb, hPb⟩ := hresults p hp
    exact ⟨b, List.mem_filterMap.mpr ⟨p, hp, hb⟩, hPb⟩
  · refine exec_filterMapM_mem hmoves hP (fun a ha _ _ _ hext hexec => ?_) h
    obtain ⟨b, hb, hPb⟩ := hf a ha hext hexec
    cases hb
    exact hPb

end

end Primitive

end TableScript
