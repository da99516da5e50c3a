import TableScript.Proofs.Rectangular

/-!
# Tables that are made of tables

When a table that is made of rectangular tables is rectangular.

* A selection is, and so is a join: cells and columns are kept by the same names
  (`isRectangular_selectTable`, `isRectangular_joinTable`).
* A table of the columns that are named is iff no column is named twice, or there are no rows: a
  column is taken as often as it is named, but a cell only once (`isRectangular_pickTable_iff`).
-/

namespace TableScript

namespace Primitive

open EvalM

variable {m m' : Machine} {position : Option Position} {r : Ref}

/-! ## Cells by columns -/

theorem filterMap_zipIdx {α β : Type} (cells : List α) (columns : List β) (keep : Nat → Bool)
    (kept : β → Bool) (n : Nat) (h : ∀ i, keep (n + i) = (columns[i]?).any kept) :
    ((cells.zipIdx n).filterMap fun p => if keep p.2 then some p.1 else none) =
      ((cells.zip columns).filter fun p => kept p.2).map Prod.fst := by
  induction cells generalizing columns n with
  | nil => rfl
  | cons cell cells ih =>
    have hrest := ih columns.tail (n + 1) fun i => by
      rw [List.getElem?_tail, ← h (i + 1), Nat.add_assoc, Nat.add_comm 1 i]
    have hfirst := h 0
    rw [List.zipIdx_cons, List.filterMap_cons, hrest]
    cases columns with
    | nil => simp [show keep n = false from hfirst]
    | cons column columns =>
      rw [List.zip_cons_cons, List.filter_cons, show keep n = kept column from hfirst]
      cases kept column <;> rfl

/-- Is the column named? -/
def isNamed (tableName : String) (names : List (Option String)) (column : String × TypeRef) :
    Bool :=
  names.contains (some (qualified tableName column.1))

variable {tableName : String} {names : List (Option String)} {columns : List (String × TypeRef)}

theorem selectColumns_eq :
    selectColumns tableName names columns =
      (columns.zipIdx.filter fun p => isNamed tableName names p.1).map fun p =>
        ⟨p.2, qualified tableName p.1.1, p.1.2⟩ := by
  unfold selectColumns
  induction columns.zipIdx with
  | nil => rfl
  | cons p ps ih =>
    rw [List.filterMap_cons, ih, List.filter_cons]
    cases hnamed : isNamed tableName names p.1 <;> rw [isNamed] at hnamed <;>
      simp only [hnamed] <;>
      rfl

theorem map_selectColumns :
    (selectColumns tableName names columns).map (fun c => (c.name, c.type)) =
      (columns.filter (isNamed tableName names)).map fun c => (qualified tableName c.1, c.2) := by
  rw [selectColumns_eq, List.map_map]
  conv => rhs; rw [← List.zipIdx_map_fst 0 columns]
  rw [List.filter_map, List.map_map]
  rfl

theorem any_selectColumns (i : Nat) :
    (selectColumns tableName names columns).any (fun c => c.index == i) =
      (columns[i]?).any (isNamed tableName names) := by
  rw [selectColumns_eq, List.any_map, List.any_filter, Bool.eq_iff_iff, List.any_eq_true]
  constructor
  · rintro ⟨⟨column, j⟩, hmem, hcolumn⟩
    simp only [Function.comp_apply, Bool.and_eq_true, beq_iff_eq] at hcolumn
    obtain ⟨hnamed, rfl⟩ := hcolumn
    rw [List.mem_zipIdx_iff_getElem?] at hmem
    simpa [hmem] using hnamed
  · intro hnamed
    obtain ⟨column, hcolumn, hnamed⟩ := (Option.any_eq_true _ _).mp hnamed
    exact ⟨(column, i), List.mem_zipIdx_iff_getElem?.mpr hcolumn, by simp [hnamed]⟩

theorem filter_eq_map_zip {α β : Type} {cells : List α} {columns : List β}
    (hlength : cells.length = columns.length) (kept : β → Bool) :
    columns.filter kept = ((cells.zip columns).filter fun p => kept p.2).map Prod.snd := by
  conv => lhs; rw [← List.map_snd_zip (Nat.le_of_eq hlength.symm), List.filter_map]
  rfl

theorem selectCells_selectColumns (cells : List Ref) :
    selectCells (selectColumns tableName names columns) cells =
      ((cells.zip columns).filter fun p => isNamed tableName names p.2).map Prod.fst := by
  refine filterMap_zipIdx cells columns (fun i => List.any _ fun c : Selected => c.index == i)
    (isNamed tableName names) 0 fun i => ?_
  rw [Nat.zero_add, any_selectColumns]

theorem plainNames_eq_map :
    plainNames (selectColumns tableName names columns) =
      (columns.filter (isNamed tableName names)).map fun c =>
        (Text.erase "right." (Text.erase "left." (qualified tableName c.1)), c.2) := by
  have hselected : plainNames (selectColumns tableName names columns) =
      ((selectColumns tableName names columns).map fun c => (c.name, c.type)).map fun c =>
        (Text.erase "right." (Text.erase "left." c.1), c.2) := by
    rw [plainNames, List.map_map]
    rfl
  rw [hselected, map_selectColumns, List.map_map]
  rfl

variable {query : String} {t : TableView} {cells : List Ref} {s before : Store} {a b : Ref}
  {members : Nat}

theorem plainNames_selectColumns (hlength : cells.length = columns.length) :
    plainNames (selectColumns tableName names columns) =
      ((cells.zip columns).filter fun p => isNamed tableName names p.2).map fun p =>
        (Text.erase "right." (Text.erase "left." (qualified tableName p.2.1)), p.2.2) := by
  rw [plainNames_eq_map, filter_eq_map_zip hlength, List.map_map]
  rfl

theorem cellsFit_map {pairs : List (Ref × (String × TypeRef))}
    (h : ∀ p ∈ pairs, CellFits s p.1 p.2.2) (name : Ref × (String × TypeRef) → String) :
    CellsFit s (pairs.map Prod.fst) (pairs.map fun p => (name p, p.2.2)) := by
  intro q hq
  rw [List.zip_map', List.mem_map] at hq
  obtain ⟨p, hp, rfl⟩ := hq
  exact h p hp

theorem cellsFit_select (hlength : cells.length = columns.length) (h : CellsFit s cells columns) :
    (selectCells (selectColumns tableName names columns) cells).length =
        (plainNames (selectColumns tableName names columns)).length ∧
      CellsFit s (selectCells (selectColumns tableName names columns) cells)
        (plainNames (selectColumns tableName names columns)) := by
  rw [selectCells_selectColumns, plainNames_selectColumns hlength]
  refine ⟨by rw [List.length_map, List.length_map], cellsFit_map (fun p hp => ?_) _⟩
  exact h p (List.mem_filter.mp hp).1

/-! ## Rows of rows -/

variable {rows : List Ref} {row : Ref} {place : Nat} {left right : List Selected} {u : TableView}

/-- The rows that are made of the rows of a table: tuples of what `f` gives on their cells. -/
theorem exec_rows_ok (hs : before.Closed) (ht : before.table? a = some t)
    (hadds : before.Extends m.store) {x : Ref → EvalM (Option Ref)}
    (hmoves : ∀ row, (x row).Moves Store.Extends) {f : List Ref → List Ref}
    (hx : ∀ {row m₁ b m₂}, (x row).exec m₁ = (.ok (some b), m₂) →
      ∃ cells, m₁.store.cells? row = some cells ∧ m₂.store.TupleAt b (f cells))
    (h : ((before.sequence t.rows).filterMapM x).exec m = (.ok rows, m')) :
    ∀ b ∈ rows, ∃ row ∈ before.sequence t.rows, ∃ cells,
      before.cells? row = some cells ∧ m'.store.TupleAt b (f cells) := by
  refine exec_filterMapM_mem
    (P := fun row b s => ∃ cells, before.cells? row = some cells ∧ s.TupleAt b (f cells)) hmoves
    (fun hext => Exists.imp fun _ hcells => ⟨hcells.1, hext.tupleAt hcells.2⟩) ?_ h
  intro row hrow m₁ b m₂ hext hexec
  rw [← (hadds.trans hext).cells?_eq hs (hs.cell (hs.rows ht) hrow)]
  exact hx hexec

theorem cellsFit_of_row (hs : before.Closed) (ht : before.table? a = some t)
    (hrect : before.Rectangular t) (hadds : before.Extends s)
    (hrow : row ∈ before.sequence t.rows) (hcells : before.cells? row = some cells) :
    cells.length = (before.columnsOf t.schema).length ∧
      CellsFit s cells (before.columnsOf t.schema) := by
  have hhas := hs.cell (hs.rows ht) hrow
  obtain ⟨cells', hcells', hlength, hfit⟩ :=
    (hadds.rowFits_iff hs (hs.schema ht) hhas).mpr (hrect.rows row hrow)
  rw [hadds.cells?_eq hs hhas, hcells] at hcells'
  cases hcells'
  rw [hadds.columnsOf_eq hs (hs.schema ht)] at hlength hfit
  exact ⟨hlength, hfit⟩

/-! ## Selecting -/

theorem exec_runSelect_ok (h : (runSelect position).exec m = (.ok r, m')) :
    ∃ a t place query, m.scope.get? "table" = some a ∧ m.store.table? a = some t ∧
      (selectTable position t place query).exec m = (.ok r, m') := by
  obtain ⟨a, hget, h⟩ := exec_argument_bind h
  rw [exec_bind_table?] at h
  obtain ⟨given, -, h⟩ := exec_argumentContent_bind h
  obtain ⟨condition, -, h⟩ := exec_argumentContent_bind h
  split at h
  · next t place query ht _ => exact ⟨a, t, place, query, hget, ht, h⟩
  · cases h

theorem exec_bind_namedCells {α : Type} {side : String} {f : List (String × Ref) → EvalM α} :
    (namedCells side columns row >>= f).exec m = (f ((columns.zip
      ((m.store.cells? row).getD [])).map fun p => (qualified side p.1.1, p.2))).exec m := by
  refine exec_bind_of ?_
  rw [namedCells, exec_bind_cells?]
  cases m.store.cells? row with
  | none => simp [exec_pure]
  | some cells => rfl

theorem exec_selectRow_ok {selected : List Selected}
    (h : (selectRow position query columns selected members row).exec m = (.ok (some b), m')) :
    ∃ cells, m.store.cells? row = some cells ∧
      m'.store.TupleAt b (selectCells selected cells) := by
  rw [selectRow, exec_bind_namedCells] at h
  obtain ⟨holds, m₂, hholds, h⟩ := exec_bind_ok h
  have hstore := Moves.of_exec (R := Eq) (moves_holds _ _ _) hholds
  cases holds with
  | false => cases h
  | true =>
    rw [if_pos rfl, exec_bind_cells?, ← hstore] at h
    split at h
    · next cells hcells =>
      obtain ⟨type, m₃, htype, h⟩ := exec_bind_ok h
      obtain ⟨b', htuple, hb⟩ := exec_map_ok h
      cases hb
      exact ⟨cells, hcells, (exec_newTuple_ok htuple).2⟩
    · cases h

/-- A selection of a rectangular table is rectangular. -/
theorem isRectangular_selectTable (hm : m.store.Closed) (ht : m.store.table? a = some t)
    (hrect : m.store.Rectangular t)
    (h : (selectTable position t place query).exec m = (.ok r, m')) : m'.store.IsRectangular r := by
  rw [selectTable, exec_bind_columnsOf] at h
  obtain ⟨names, m₁, hnames, h⟩ := exec_bind_ok h
  have hstore := Moves.of_exec (R := Eq) (moves_columnNames place) hnames
  obtain ⟨members, m₂, hmembers, h⟩ := exec_bind_ok h
  obtain ⟨hadds, htypes⟩ := exec_newMembers_ok hmembers
  rw [← hstore] at hadds
  -- the table that is selected from is as it was, so its rows can be looked at before all steps
  rw [exec_bind_sequence, hadds.sequence_eq (hm.rows ht)] at h
  obtain ⟨rows, m₃, hrows, h⟩ := exec_bind_ok h
  obtain ⟨schema, m₄, hschema, h⟩ := exec_bind_ok h
  have hadds₃ := (Moves.filterMapM (steady_selectRow (K := adding) _ _ _ _ _)).of_exec hrows
  obtain ⟨hadds₄, hcolumns⟩ := exec_newSchema_ok hschema
  have hadds₅ := (exec_newTable_ok h).1
  refine (isRectangular_newTable h (hadds₄.types.lists (hadds₃.types.lists htypes))
    hcolumns).mpr ⟨by rw [plainNames, List.length_map, List.length_map], fun b hb => ?_⟩
  obtain ⟨row, hrow, cells, hcells, htuple⟩ :=
    exec_rows_ok hm ht hadds (steady_selectRow (K := adding) _ _ _ _ _) exec_selectRow_ok hrows b hb
  obtain ⟨hlength, hfit⟩ := cellsFit_of_row hm ht hrect
    (hadds.trans (hadds₃.trans (hadds₄.trans hadds₅))) hrow hcells
  exact ⟨_, (hadds₅.tupleAt (hadds₄.tupleAt htuple)).cells?, cellsFit_select hlength hfit⟩

/-! ## Joining -/

theorem exec_runJoin_ok (h : (runJoin position).exec m = (.ok r, m'))
    (htable : m'.store.table? r ≠ none) :
    ∃ a b t u place query, m.scope.get? "left_table" = some a ∧ m.store.table? a = some t ∧
      m.scope.get? "right_table" = some b ∧ m.store.table? b = some u ∧
      (joinTable position t u place query).exec m = (.ok r, m') := by
  obtain ⟨a, hleft, h⟩ := exec_argument_bind h
  rw [exec_bind_table?] at h
  obtain ⟨b, hright, h⟩ := exec_argument_bind h
  rw [exec_bind_table?] at h
  obtain ⟨given, -, h⟩ := exec_argumentContent_bind h
  obtain ⟨condition, -, h⟩ := exec_argumentContent_bind h
  split at h
  · next t u place query ht hu _ => exact ⟨a, b, t, u, place, query, hleft, ht, hright, hu, h⟩
  · exact absurd (newNone_table? h) htable

theorem exec_joinRows_ok {leftColumns rightColumns : List (String × TypeRef)}
    {leftRow rightRow : Ref}
    (h : (joinRows position query members left right leftColumns rightColumns leftRow rightRow).exec
      m = (.ok (some b), m')) :
    ∃ as bs, m.store.cells? leftRow = some as ∧ m.store.cells? rightRow = some bs ∧
      m'.store.TupleAt b (selectCells left as ++ selectCells right bs) := by
  rw [joinRows, exec_bind_namedCells, exec_bind_namedCells] at h
  obtain ⟨holds, m₃, hholds, h⟩ := exec_bind_ok h
  have hstore := Moves.of_exec (R := Eq) (moves_holds _ _ _) hholds
  cases holds with
  | false => cases h
  | true =>
    rw [if_pos rfl, exec_bind_cells?, exec_bind_cells?, ← hstore] at h
    split at h
    · next as bs has hbs =>
      obtain ⟨type, m₄, htype, h⟩ := exec_bind_ok h
      obtain ⟨b', htuple, hb⟩ := exec_map_ok h
      cases hb
      exact ⟨as, bs, has, hbs, (exec_newTuple_ok htuple).2⟩
    · cases h

theorem CellsFit.append {as bs : List Ref} {cs ds : List (String × TypeRef)}
    (hlength : as.length = cs.length) (h : CellsFit s as cs) (h' : CellsFit s bs ds) :
    CellsFit s (as ++ bs) (cs ++ ds) := by
  intro p hp
  rw [List.zip_append hlength] at hp
  exact (List.mem_append.mp hp).elim (h p) (h' p)

/-- The rows that are joined, from the rows of two tables. -/
theorem exec_joined_ok (hs : before.Closed) (ht : before.table? a = some t)
    (hu : before.table? b = some u) (hadds : before.Extends m.store)
    {leftColumns rightColumns : List (String × TypeRef)} {rows : List (List Ref)}
    (h : ((before.sequence t.rows).mapM fun leftRow => (before.sequence u.rows).filterMapM
      (joinRows position query members left right leftColumns rightColumns leftRow)).exec m =
        (.ok rows, m')) :
    ∀ row ∈ rows.flatten, ∃ leftRow ∈ before.sequence t.rows,
      ∃ rightRow ∈ before.sequence u.rows,
      ∃ as bs, before.cells? leftRow = some as ∧ before.cells? rightRow = some bs ∧
        m'.store.TupleAt row (selectCells left as ++ selectCells right bs) := by
  -- for each row on the left the rows that are made of it, and for each of these one on the right
  obtain ⟨results, hsource, rfl, hresults⟩ := exec_mapM_ok
    (P := fun leftRow rows s => ∀ row ∈ rows, ∃ rightRow ∈ before.sequence u.rows,
      ∃ as bs, before.cells? leftRow = some as ∧ before.cells? rightRow = some bs ∧
        s.TupleAt row (selectCells left as ++ selectCells right bs))
    (fun leftRow => .filterMapM (steady_joinRows (K := adding) _ _ _ _ _ _ _ _))
    (fun hext hall row hrow => by
      obtain ⟨rightRow, hright, as, bs, has, hbs, htuple⟩ := hall row hrow
      exact ⟨rightRow, hright, as, bs, has, hbs, hext.tupleAt htuple⟩)
    (fun leftRow hleft m₁ rows m₂ hext hexec => by
      refine exec_filterMapM_mem
        (P := fun rightRow row s => ∃ as bs, before.cells? leftRow = some as ∧
          before.cells? rightRow = some bs ∧
            s.TupleAt row (selectCells left as ++ selectCells right bs))
        (steady_joinRows (K := adding) _ _ _ _ _ _ _ _) ?_ ?_ hexec
      · rintro _ _ _ _ hext ⟨as, bs, has, hbs, htuple⟩
        exact ⟨as, bs, has, hbs, hext.tupleAt htuple⟩
      · intro rightRow hright m₁ b m₂ hext' hexec
        have hall := hadds.trans (hext.trans hext')
        rw [← hall.cells?_eq hs (hs.cell (hs.rows ht) hleft),
          ← hall.cells?_eq hs (hs.cell (hs.rows hu) hright)]
        exact exec_joinRows_ok hexec) h
  intro row hrow
  obtain ⟨rows, hrows, hrow⟩ := List.mem_flatten.mp hrow
  obtain ⟨p, hp, rfl⟩ := List.mem_map.mp hrows
  refine ⟨p.1, ?_, hresults p hp row hrow⟩
  rw [hsource]
  exact List.mem_map_of_mem hp

/-- A join of rectangular tables is rectangular. -/
theorem isRectangular_joinTable (hm : m.store.Closed) (ht : m.store.table? a = some t)
    (hrect : m.store.Rectangular t) (hu : m.store.table? b = some u)
    (hrect' : m.store.Rectangular u)
    (h : (joinTable position t u place query).exec m = (.ok r, m')) : m'.store.IsRectangular r := by
  obtain ⟨names, m₁, hnames, h⟩ := exec_bind_ok h
  have hstore := Moves.of_exec (R := Eq) (moves_columnNames place) hnames
  rw [exec_bind_columnsOf, exec_bind_columnsOf, ← hstore] at h
  obtain ⟨members, m₂, hmembers, h⟩ := exec_bind_ok h
  obtain ⟨hadds, htypes⟩ := exec_newMembers_ok hmembers
  rw [← hstore] at hadds
  rw [exec_bind_sequence, exec_bind_sequence,
    hadds.sequence_eq (hm.rows ht), hadds.sequence_eq (hm.rows hu)] at h
  obtain ⟨rows, m₃, hrows, h⟩ := exec_bind_ok h
  dsimp only at h
  split at h
  · exact absurd h report_ne_ok
  · obtain ⟨schema, m₄, hschema, h⟩ := exec_bind_ok h
    have hadds₃ :=
      (Moves.mapM fun leftRow =>
        .filterMapM (steady_joinRows (K := adding) _ _ _ _ _ _ _ _)).of_exec hrows
    obtain ⟨hadds₄, hcolumns⟩ := exec_newSchema_ok hschema
    have hadds₅ := (exec_newTable_ok h).1
    have hall := hadds.trans (hadds₃.trans (hadds₄.trans hadds₅))
    refine (isRectangular_newTable h (hadds₄.types.lists (hadds₃.types.lists htypes))
      hcolumns).mpr ⟨by simp [plainNames], fun row hrow => ?_⟩
    obtain ⟨leftRow, hleft, rightRow, hright, as, bs, has, hbs, htuple⟩ :=
      exec_joined_ok hm ht hu hadds hrows row hrow
    obtain ⟨hlength, hfit⟩ := cellsFit_of_row hm ht hrect hall hleft has
    obtain ⟨hlength', hfit'⟩ := cellsFit_of_row hm hu hrect' hall hright hbs
    obtain ⟨hlengths, hfits⟩ := cellsFit_select hlength hfit
    obtain ⟨hlengths', hfits'⟩ := cellsFit_select hlength' hfit'
    refine ⟨_, (hadds₅.tupleAt (hadds₄.tupleAt htuple)).cells?, ?_,
      hfits.append hlengths hfits'⟩
    rw [List.length_append, List.length_append, hlengths, hlengths']

/-! ## Columns by name -/

section

variable {all : List (String × TypeRef)} {given : List String}

theorem exec_runGetColumns_ok (h : (runGetColumns position).exec m = (.ok r, m'))
    (htable : m'.store.table? r ≠ none) :
    ∃ a t place, m.scope.get? "table" = some a ∧ m.store.table? a = some t ∧
      Argument m "names" (.list place) ∧
      (∀ n ∈ givenNames m.store place, n ∈ (m.store.columnsOf t.schema).map Prod.fst) ∧
      (pickTable t (m.store.columnsOf t.schema) (givenNames m.store place)).exec m =
        (.ok r, m') := by
  obtain ⟨a, hget, h⟩ := exec_argument_bind h
  rw [exec_bind_table?] at h
  obtain ⟨names, hnames, h⟩ := exec_argumentContent_bind h
  split at h
  · next t place ht =>
    rw [exec_bind_columnsOf, exec_bind_store] at h
    dsimp only at h
    split at h
    · exact absurd h report_ne_ok
    · next hfind =>
      refine ⟨a, t, place, hget, ht, hnames, fun n hn => ?_, h⟩
      simpa using List.find?_eq_none.mp hfind n hn
  · exact absurd (newNone_table? h) htable

theorem namedColumns_eq : namedColumns all given =
    all.flatMap fun c => List.replicate (given.count c.1) c := by
  refine congrArg (all.flatMap ·) (funext fun c => ?_)
  rw [List.filter_beq, List.map_replicate]

theorem length_filter_le_namedColumns (all : List (String × TypeRef)) (given : List String) :
    (all.filter fun c => given.contains c.1).length ≤ (namedColumns all given).length := by
  rw [namedColumns_eq]
  induction all with
  | nil => exact Nat.le_refl 0
  | cons c all ih =>
    rw [List.filter_cons, List.flatMap_cons, List.length_append, List.length_replicate]
    split
    · next hgiven =>
      have hcount := List.count_pos_iff.mpr (List.contains_iff_mem.mp hgiven)
      rw [List.length_cons]
      omega
    · omega

theorem length_namedColumns_eq_iff :
    (all.filter fun c => given.contains c.1).length = (namedColumns all given).length ↔
      ∀ c ∈ all, given.count c.1 ≤ 1 := by
  induction all with
  | nil => simp [namedColumns]
  | cons c all ih =>
    have hle := length_filter_le_namedColumns all given
    rw [namedColumns_eq] at ih hle ⊢
    rw [List.forall_mem_cons, ← ih, List.filter_cons, List.flatMap_cons, List.length_append,
      List.length_replicate]
    split
    · next hgiven =>
      have hcount := List.count_pos_iff.mpr (List.contains_iff_mem.mp hgiven)
      rw [List.length_cons]
      omega
    · next hgiven =>
      have hcount : given.count c.1 = 0 :=
        List.count_eq_zero.mpr fun hmem => hgiven (List.contains_iff_mem.mpr hmem)
      omega

theorem namedColumns_of_nodup (h : given.Nodup) :
    namedColumns all given = all.filter fun c => given.contains c.1 := by
  rw [namedColumns_eq]
  induction all with
  | nil => rfl
  | cons c all ih =>
    rw [List.flatMap_cons, ih, List.filter_cons, h.count]
    by_cases hgiven : c.1 ∈ given <;> simp [hgiven]

theorem nodup_iff_count_le (hall : ∀ n ∈ given, n ∈ all.map Prod.fst) :
    given.Nodup ↔ ∀ c ∈ all, given.count c.1 ≤ 1 := by
  rw [List.nodup_iff_count]
  refine ⟨fun h c _ => h c.1, fun h n => ?_⟩
  by_cases hn : n ∈ given
  · obtain ⟨c, hc, rfl⟩ := List.mem_map.mp (hall n hn)
    exact h c hc
  · rw [List.count_eq_zero.mpr hn]
    exact Nat.zero_le 1

theorem keptCells_eq (cells : List Ref) :
    keptCells all given cells =
      ((cells.zip all).filter fun p => given.contains p.2.1).map Prod.fst := by
  refine filterMap_zipIdx cells all (fun i => (all[i]?).any fun c => given.contains c.1)
    (fun c => given.contains c.1) 0 fun i => ?_
  rw [Nat.zero_add]

variable {cells : List Ref}

theorem length_keptCells (hlength : cells.length = all.length) :
    (keptCells all given cells).length = (all.filter fun c => given.contains c.1).length := by
  rw [keptCells_eq, filter_eq_map_zip hlength, List.length_map, List.length_map]

theorem cellsFit_kept (hlength : cells.length = all.length) (h : CellsFit s cells all)
    (hgiven : given.Nodup) : CellsFit s (keptCells all given cells) (namedColumns all given) := by
  rw [keptCells_eq, namedColumns_of_nodup hgiven, filter_eq_map_zip hlength]
  exact cellsFit_map (fun p hp => h p (List.mem_filter.mp hp).1) fun p => p.2.1

theorem exec_pickRow_ok {b : Option Ref}
    (h : (pickRow all given members row).exec m = (.ok b, m'))
    (hcells : m.store.cells? row = some cells) :
    ∃ b', b = some b' ∧ m'.store.TupleAt b' (keptCells all given cells) := by
  rw [pickRow, exec_bind_cells?, hcells] at h
  obtain ⟨type, m₁, htype, h⟩ := exec_bind_ok h
  obtain ⟨b', htuple, rfl⟩ := exec_map_ok h
  exact ⟨b', rfl, (exec_newTuple_ok htuple).2⟩

/-- The rows of the columns that are named, one for each row of a rectangular table. -/
theorem exec_pickRows_ok (hs : before.Closed) (ht : before.table? a = some t)
    (hrect : before.Rectangular t) (hadds : before.Extends m.store)
    (h : ((before.sequence t.rows).filterMapM (pickRow all given members)).exec m =
      (.ok rows, m')) :
    (∀ row ∈ before.sequence t.rows, ∃ b ∈ rows, ∃ cells,
      before.cells? row = some cells ∧
        m'.store.TupleAt b (keptCells all given cells)) ∧
      ∀ b ∈ rows, ∃ row ∈ before.sequence t.rows, ∃ cells,
        before.cells? row = some cells ∧ m'.store.TupleAt b (keptCells all given cells) := by
  refine exec_filterMapM_all
    (P := fun row b s => ∃ cells, before.cells? row = some cells ∧
      s.TupleAt b (keptCells all given cells))
    (steady_pickRow (K := adding) _ _ members)
    (fun hext => Exists.imp fun _ hcells => ⟨hcells.1, hext.tupleAt hcells.2⟩)
    ?_ h
  intro row hrow m₁ b m₂ hext hexec
  obtain ⟨cells, hcells, -⟩ := hrect.rows row hrow
  have hcells' := (hadds.trans hext).cells?_eq hs (hs.cell (hs.rows ht) hrow)
  obtain ⟨b', hb, htuple⟩ := exec_pickRow_ok hexec (hcells'.trans hcells)
  exact ⟨b', hb, cells, hcells, htuple⟩

/-- Picked columns are rectangular iff none is picked twice. -/
theorem isRectangular_pickTable_iff (hm : m.store.Closed) (ht : m.store.table? a = some t)
    (hrect : m.store.Rectangular t)
    (hall : ∀ n ∈ given, n ∈ (m.store.columnsOf t.schema).map Prod.fst)
    (h : (pickTable t (m.store.columnsOf t.schema) given).exec m = (.ok r, m')) :
    m'.store.IsRectangular r ↔ m.store.sequence t.rows = [] ∨ given.Nodup := by
  obtain ⟨members, m₁, hmembers, h⟩ := exec_bind_ok h
  obtain ⟨hadds₁, htypes⟩ := exec_newMembers_ok hmembers
  obtain ⟨schema, m₂, hschema, h⟩ := exec_bind_ok h
  obtain ⟨hadds₂, hcolumns⟩ := exec_newSchema_ok hschema
  have hadds := hadds₁.trans hadds₂
  rw [exec_bind_sequence, hadds.sequence_eq (hm.rows ht)] at h
  obtain ⟨rows, m₃, hrows, h⟩ := exec_bind_ok h
  have hadds₃ := (Moves.filterMapM (steady_pickRow (K := adding) _ _ members)).of_exec hrows
  have hadds₄ := (exec_newTable_ok h).1
  obtain ⟨hcovered, hmade⟩ := exec_pickRows_ok hm ht hrect hadds hrows
  rw [isRectangular_newTable h (hadds₃.types.lists (hadds₂.types.lists htypes))
    (hadds₃.columnsAt hcolumns), List.length_map, and_iff_right rfl]
  constructor
  · intro hfit
    cases hsource : m.store.sequence t.rows with
    | nil => exact .inl rfl
    | cons row rest =>
      -- one row is enough to compare the number of its cells with that of the columns
      have hrow : row ∈ m.store.sequence t.rows := by
        rw [hsource]
        exact List.mem_cons_self
      obtain ⟨b, hb, cells, hcells, htuple⟩ := hcovered row hrow
      obtain ⟨cells', hcells', hlength, -⟩ := hfit b hb
      rw [(hadds₄.tupleAt htuple).cells?] at hcells'
      cases hcells'
      have hwidth := (cellsFit_of_row hm ht hrect (.refl _) hrow hcells).1
      rw [length_keptCells hwidth, length_namedColumns_eq_iff] at hlength
      exact .inr ((nodup_iff_count_le hall).mpr hlength)
  · intro hcases b hb
    obtain ⟨row, hrow, cells, hcells, htuple⟩ := hmade b hb
    obtain ⟨hwidth, hfit⟩ := cellsFit_of_row hm ht hrect
      (hadds.trans (hadds₃.trans hadds₄)) hrow hcells
    rcases hcases with hnil | hnodup
    · rw [hnil] at hrow
      cases hrow
    · refine ⟨_, (hadds₄.tupleAt htuple).cells?, ?_, cellsFit_kept hwidth hfit hnodup⟩
      rw [length_keptCells hwidth, length_namedColumns_eq_iff]
      exact (nodup_iff_count_le hall).mp hnodup

end

end Primitive

end TableScript
