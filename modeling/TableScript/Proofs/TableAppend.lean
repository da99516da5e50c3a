import TableScript.Proofs.TableEdits

/-!
# Appending rows

`append` takes the rows of a list in turn and appends each row that fits to the rows of a table, up
to the first one that does not fit. The lemmas on one turn of the loop are followed by what the
whole loop does.
-/

namespace TableScript.Primitive

open EvalM

/-! ## Calls and turns -/

/-- A call to append the rows of the list at a place to a table. -/
structure AppendCall (m : Machine) (r : Ref) (t : TableView) (source : Nat) : Prop where
  table : m.scope.get? "table" = some r
  view : m.store.table? r = some t
  rows : Argument m "rows" (.list source)

variable {t : TableView} {m : Machine} (position : Option Position) {source : Nat} {row : Ref}

theorem AppendCall.unique {r r' : Ref} {t' : TableView} {source' : Nat}
    (h : AppendCall m r t source) (h' : AppendCall m r' t' source') :
    t = t' ∧ source = source' := by
  cases h.table.symm.trans h'.table
  cases h.view.symm.trans h'.view
  cases h.rows.unique h'.rows
  exact ⟨rfl, rfl⟩

theorem runAppend_cases (m : Machine) :
    (∃ r t source, AppendCall m r t source) ∨ Idle (runAppend position) m := by
  refine or_iff_not_imp_left.mpr fun hcall => ?_
  refine .argument fun r hr => .argumentContent fun rows hrows => .of_exec (exec_table? r m) ?_
  split
  · next t source hview => exact absurd ⟨r, t, source, hr, hview, hrows⟩ hcall
  · exact .newNone _

theorem exec_runAppend {r : Ref} (h : AppendCall m r t source) (position : Option Position) :
    (runAppend position).exec m =
      (appendRows position t source (2 * (m.store.sequence source).length + 1) 0 >>= fun appended =>
        if appended then return r else newNone).exec m := by
  obtain ⟨n, hn, hrows⟩ := h.rows
  rw [runAppend, exec_bind_argument h.table,
    exec_bind_argumentContent hn, exec_bind_table?, h.view, hrows]
  dsimp only
  rw [exec_bind_sequence]

theorem exec_bind_element? {α : Type} {place index : Nat} {f : Option Ref → EvalM α} :
    (element? place index >>= f).exec m = (f (m.store.sequence place)[index]?).exec m := by
  show (f (m.store.element? place index)).exec m = _
  rw [Store.element?, Store.sequence, Array.getElem?_toList]

/-- Gives the type of a row the types of a table. -/
def adopt (s : Store) (t : TableView) (row : Ref) : Store :=
  match (s.object row).type, t.type with
  | .tuple c, .table members => s.mapTypes (·.retarget c members)
  | _, _ => s

theorem exec_adoptRow (t : TableView) (row : Ref) (m : Machine) :
    (adoptRow t row).exec m = (.ok (), { m with store := adopt m.store t row }) := by
  rw [adoptRow, exec_bind_object, adopt]
  cases (m.store.object row).type <;> first | rfl | (cases t.type <;> rfl)

/-- The store after a row has been appended. -/
def withRow (s : Store) (t : TableView) (row : Ref) : Store :=
  (adopt s t row).appendElement t.rows row

section

variable (s : Store) (t : TableView) (row : Ref)

theorem objects_withRow : (withRow s t row).objects = s.objects := by
  unfold withRow adopt
  split <;> rfl

theorem columns_withRow : (withRow s t row).columns = s.columns := by
  unfold withRow adopt
  split <;> rfl

theorem lists_withRow : (withRow s t row).types.lists = s.types.lists := by
  unfold withRow adopt
  split <;> rfl

theorem sequences_withRow :
    (withRow s t row).sequences = s.sequences.modify t.rows (·.push row) := by
  unfold withRow adopt
  split <;> rfl

theorem size_withRow : (withRow s t row).sequences.size = s.sequences.size := by
  rw [sequences_withRow, Array.size_modify]

theorem grows_withRow : s.Grows (withRow s t row) := by
  refine Store.Grows.trans ?_ (Store.grows_appendElement _ _ _)
  unfold adopt
  split
  · exact ⟨id, (Store.Grows.refl s).sequences, (Store.Grows.refl s).lists⟩
  · exact .refl s

end

theorem isPrefix_sequence_of_grows {s s' : Store} (h : s.Grows s') (i : Nat) :
    s.sequence i <+: s'.sequence i := by
  cases hget : s.sequences[i]? with
  | none => simp [Store.sequence, Array.getD_eq_getD_getElem?, hget]
  | some a =>
    obtain ⟨b, hb⟩ := h.sequences hget
    rw [Store.sequence_of_getElem? hget, Store.sequence_of_getElem? hb, Array.toList_append]
    exact List.prefix_append _ _

/-- What is checked of the cells of a row. -/
def checkRow (position : Option Position) (columns : List (String × TypeRef)) (cells : List Ref) :
    EvalM Bool :=
  if cells.length ≠ columns.length then
    report "Appended row must have same number of columns as table" position
  else cellsConform position cells columns

theorem moves_checkRow (columns : List (String × TypeRef)) (cells : List Ref) :
    (checkRow position columns cells).Moves Eq := by
  rw [checkRow]
  split
  · exact .report _ _
  · exact moves_cellsConform _ _ _

/-! One turn of the loop over the rows: at the end of the rows, at what is no row, at a row that
fits, and at one that does not. -/

section

variable {position : Option Position} {t : TableView} {source turns index : Nat} {m : Machine}

theorem exec_appendRows_end (h : (m.store.sequence source)[index]? = none) :
    (appendRows position t source (turns + 1) index).exec m = (.ok true, m) := by
  rw [appendRows, exec_bind_element?, h]
  rfl

variable (h : (m.store.sequence source)[index]? = some row)

include h

theorem exec_appendRows_skip (hrow : m.store.cells? row = none) :
    (appendRows position t source (turns + 1) index).exec m =
      (appendRows position t source turns (index + 1)).exec m := by
  rw [appendRows, exec_bind_element?, h]
  dsimp only
  rw [exec_bind_cells?, hrow]

theorem exec_appendRows_fits (hrow : RowFits m.store t row) :
    (appendRows position t source (turns + 1) index).exec m =
      (appendRows position t source turns (index + 1)).exec
        { m with store := withRow m.store t row } := by
  obtain ⟨cells, hcells, hlength, hfit⟩ := hrow
  rw [appendRows, exec_bind_element?, h]
  dsimp only
  rw [exec_bind_cells?, hcells]
  dsimp only
  rw [exec_bind_columnsOf, if_neg (fun hne => hne hlength),
    exec_bind_of (exec_cellsConform_of hfit position rfl), if_pos rfl,
    exec_bind_of (exec_adoptRow t row m), exec_bind_of (exec_change _ _)]
  rfl

variable {cells : List Ref}

theorem exec_appendRows_unfit (hcells : m.store.cells? row = some cells)
    (hrow : ¬ RowFits m.store t row) (turns : Nat) :
    (appendRows position t source (turns + 1) index).exec m =
      (checkRow position (m.store.columnsOf t.schema) cells).exec m := by
  rw [appendRows, exec_bind_element?, h]
  dsimp only
  rw [exec_bind_cells?, hcells]
  dsimp only
  rw [exec_bind_columnsOf, checkRow]
  split
  · rfl
  · next hlength =>
    rcases hconform : (cellsConform position cells (m.store.columnsOf t.schema)).exec m
      with ⟨halt | fits, m₁⟩
    · rw [exec_bind_halt hconform]
    · obtain ⟨rfl, hfit, -⟩ := exec_cellsConform_ok hconform
      rw [exec_bind_of hconform]
      cases fits with
      | true => exact absurd ⟨cells, hcells, Decidable.not_not.mp hlength, hfit rfl⟩ hrow
      | false => rfl

theorem exec_appendRows_misfit (hcells : m.store.cells? row = some cells)
    (hrow : ¬ RowFits m.store t row) {out : Except Halt Bool} {m' : Machine}
    (hexec : (appendRows position t source (turns + 1) index).exec m = (out, m')) :
    m'.store = m.store ∧ out ≠ .ok true := by
  rw [exec_appendRows_unfit h hcells hrow] at hexec
  refine ⟨(Moves.of_exec (R := Eq) (moves_checkRow _ _ _) hexec).symm, ?_⟩
  rintro rfl
  rw [checkRow] at hexec
  split at hexec
  · exact report_ne_ok hexec
  · next hlength =>
    have hfit := (exec_cellsConform_ok hexec).2.1 rfl
    exact hrow ⟨cells, hcells, Decidable.not_not.mp hlength, hfit⟩

end

/-! ## The loop -/

/-- A call of `append` on a table and a list, the first row of which fits. -/
def AddsRow (m : Machine) : Prop :=
  ∃ r t source row, AppendCall m r t source ∧
    (m.store.sequence source).find? (fun x => (m.store.cells? x).isSome) = some row ∧
    RowFits m.store t row

/-- What holds of a store and itself, and of the stores before and after if it holds once a row of
the source has been appended, holds of the stores before and after the loop. -/
theorem appendRows_induction {P : Store → Store → Prop} (hrefl : ∀ s, P s s)
    (hstep : ∀ s s' row, row ∈ s.sequence source → P (withRow s t row) s' → P s s')
    (turns index : Nat) (m : Machine) :
    P m.store ((appendRows position t source turns index).exec m).2.store := by
  induction turns generalizing index m with
  | zero => exact hrefl _
  | succ turns ih =>
    cases hget : (m.store.sequence source)[index]? with
    | none =>
      rw [exec_appendRows_end hget]
      exact hrefl _
    | some row =>
      cases hcells : m.store.cells? row with
      | none =>
        rw [exec_appendRows_skip hget hcells]
        exact ih (index + 1) m
      | some cells =>
        by_cases hfits : RowFits m.store t row
        · rw [exec_appendRows_fits hget hfits]
          exact hstep _ _ row (List.mem_of_getElem? hget)
            (ih (index + 1) { m with store := withRow m.store t row })
        · rcases hexec : (appendRows position t source (turns + 1) index).exec m with ⟨out, m'⟩
          rw [(exec_appendRows_misfit hget hcells hfits hexec).1]
          exact hrefl _

theorem grows_appendRows (t : TableView) (source turns index : Nat) (m : Machine) :
    m.store.Grows ((appendRows position t source turns index).exec m).2.store :=
  appendRows_induction position (P := Store.Grows) .refl
    (fun s _ row _ h => (grows_withRow s t row).trans h) turns index m

theorem drop_of_getElem? {α : Type} {l : List α} {i : Nat} {x : α} (h : l[i]? = some x) :
    l.drop i = x :: l.drop (i + 1) := by
  rw [List.drop_eq_getElem?_toList_append, h]
  rfl

theorem appendRows_grows (turns index : Nat) {a : Array Ref}
    (hfind : ((m.store.sequence source).drop index).find?
      (fun x => (m.store.cells? x).isSome) = some row) (hfits : RowFits m.store t row)
    (hturns : ((m.store.sequence source).drop index).length ≤ turns)
    (ha : m.store.sequences[t.rows]? = some a) :
    ∃ b, ((appendRows position t source turns index).exec m).2.store.sequences[t.rows]? =
      some b ∧ a.size < b.size := by
  induction turns generalizing index with
  | zero =>
    rw [List.eq_nil_of_length_eq_zero (Nat.le_zero.mp hturns)] at hfind
    cases hfind
  | succ turns ih =>
    cases hget : (m.store.sequence source)[index]? with
    | none =>
      rw [List.drop_eq_nil_of_le (List.getElem?_eq_none_iff.mp hget)] at hfind
      cases hfind
    | some x =>
      rw [drop_of_getElem? hget] at hfind hturns
      cases hcells : m.store.cells? x with
      | none =>
        rw [exec_appendRows_skip hget hcells]
        rw [List.find?_cons_of_neg (by simp [hcells])] at hfind
        exact ih (index + 1) hfind (Nat.le_of_succ_le_succ hturns)
      | some cells =>
        rw [List.find?_cons_of_pos (by simp [hcells])] at hfind
        cases hfind
        rw [exec_appendRows_fits hget hfits]
        have hpush : (withRow m.store t row).sequences[t.rows]? = some (a.push row) := by
          rw [sequences_withRow, Array.getElem?_modify, if_pos rfl, ha]
          rfl
        obtain ⟨b, hb⟩ := (grows_appendRows position t source turns (index + 1)
          { m with store := withRow m.store t row }).sequences hpush
        exact ⟨_, hb, by simp; omega⟩

theorem appendRows_store_eq {position : Option Position} {turns index : Nat}
    (hfind : ∀ row, ((m.store.sequence source).drop index).find?
      (fun x => (m.store.cells? x).isSome) = some row → ¬ RowFits m.store t row) :
    ((appendRows position t source turns index).exec m).2.store = m.store := by
  induction turns generalizing index with
  | zero => rfl
  | succ turns ih =>
    cases hget : (m.store.sequence source)[index]? with
    | none => rw [exec_appendRows_end hget]
    | some x =>
      rw [drop_of_getElem? hget] at hfind
      cases hcells : m.store.cells? x with
      | none =>
        rw [exec_appendRows_skip hget hcells]
        rw [List.find?_cons_of_neg (by simp [hcells])] at hfind
        exact ih hfind
      | some cells =>
        rw [List.find?_cons_of_pos (by simp [hcells])] at hfind
        rcases hexec : (appendRows position t source (turns + 1) index).exec m with ⟨out, m'⟩
        exact (exec_appendRows_misfit hget hcells (hfind x rfl) hexec).1

/-! ## All rows -/

/-- The store after rows have been appended. -/
def appendedRows (s : Store) (t : TableView) (rows : List Ref) : Store :=
  rows.foldl (fun s row => withRow s t row) s

section

variable {s : Store} {t : TableView} (rows : List Ref)

theorem appendedRows_keeps {α : Type} (f : Store → α)
    (h : ∀ s row, f (withRow s t row) = f s) :
    f (appendedRows s t rows) = f s := by
  induction rows generalizing s with
  | nil => rfl
  | cons row rows ih => exact ih.trans (h s row)

theorem objects_appendedRows : (appendedRows s t rows).objects = s.objects :=
  appendedRows_keeps rows (·.objects) fun s row => objects_withRow s t row

theorem columns_appendedRows : (appendedRows s t rows).columns = s.columns :=
  appendedRows_keeps rows (·.columns) fun s row => columns_withRow s t row

theorem lists_appendedRows : (appendedRows s t rows).types.lists = s.types.lists :=
  appendedRows_keeps rows (·.types.lists) fun s row => lists_withRow s t row

theorem size_appendedRows : (appendedRows s t rows).sequences.size = s.sequences.size :=
  appendedRows_keeps rows (·.sequences.size) fun s row => size_withRow s t row

theorem grows_appendedRows : s.Grows (appendedRows s t rows) := by
  induction rows generalizing s with
  | nil => exact .refl s
  | cons row rows ih => exact (grows_withRow s t row).trans ih

theorem sequences_appendedRows (i : Nat) :
    (appendedRows s t rows).sequences[i]? =
      if t.rows = i then (s.sequences[i]?).map (· ++ rows.toArray) else s.sequences[i]? := by
  induction rows generalizing s with
  | nil => simp [appendedRows]
  | cons row rows ih =>
    refine (ih (s := withRow s t row)).trans ?_
    rw [sequences_withRow, Array.getElem?_modify]
    split
    · cases s.sequences[i]? <;> simp
    · rfl

theorem sequence_appendedRows_of_ne {i : Nat} (hi : t.rows ≠ i) :
    (appendedRows s t rows).sequence i = s.sequence i := by
  rw [Store.sequence, Store.sequence, Array.getD_eq_getD_getElem?, Array.getD_eq_getD_getElem?,
    sequences_appendedRows, if_neg hi]

theorem sequence_appendedRows (hrows : t.rows < s.sequences.size) :
    (appendedRows s t rows).sequence t.rows = s.sequence t.rows ++ rows := by
  have hget := Array.getElem?_eq_getElem hrows
  have hafter := sequences_appendedRows (s := s) (t := t) rows t.rows
  rw [if_pos rfl, hget] at hafter
  rw [Store.sequence_of_getElem? hafter, Store.sequence_of_getElem? hget]
  simp

theorem columnsOf_appendedRows (schema : Ref) :
    (appendedRows s t rows).columnsOf schema = s.columnsOf schema := by
  rw [Store.columnsOf, Store.columnsOf, Store.content_eq_of_objects (objects_appendedRows rows)]
  simp only [Store.columnList, columns_appendedRows]

theorem rowCells?_appendedRows (row : Ref) :
    (appendedRows s t rows).rowCells? row = s.rowCells? row :=
  Store.rowCells?_eq_of_objects (objects_appendedRows rows) row

/-- Each of the rows fits when its turn comes. -/
def FitInTurn (s : Store) (t : TableView) : List Ref → Prop
  | [] => True
  | row :: rows => RowFits s t row ∧ FitInTurn (withRow s t row) t rows

theorem FitInTurn.width {rows : List Ref} (h : FitInTurn s t rows)
    (hrows : t.rows < s.sequences.size) : ∀ row ∈ rows, ∃ place,
      s.rowCells? row = some place ∧
      (t.rows ≠ place → (s.sequence place).length = (s.columnsOf t.schema).length) ∧
      (t.rows = place →
        (s.columnsOf t.schema).length < ((appendedRows s t rows).sequence place).length) := by
  induction rows generalizing s with
  | nil => exact nofun
  | cons row rows ih =>
    obtain ⟨⟨cells, hcells, hlength, -⟩, hrest⟩ := h
    rw [Store.cells?, Option.map_eq_some_iff] at hcells
    obtain ⟨place, hplace, rfl⟩ := hcells
    have hsize := hrows.trans_eq (size_withRow s t row).symm
    have hone : withRow s t row = appendedRows s t [row] := rfl
    refine List.forall_mem_cons.mpr ⟨⟨place, hplace, fun _ => hlength, ?_⟩, ?_⟩
    · rintro rfl
      rw [sequence_appendedRows _ hrows, List.length_append, List.length_cons, hlength]
      omega
    · intro row' hrow'
      obtain ⟨place', hplace', hapart, hshared⟩ := ih hrest hsize row' hrow'
      rw [hone, rowCells?_appendedRows] at hplace'
      rw [hone, columnsOf_appendedRows] at hapart hshared
      refine ⟨place', hplace', fun hne => ?_, hshared⟩
      rw [← hapart hne, sequence_appendedRows_of_ne _ hne]

end

/-- The rows among values that are tuples. -/
def tupleRows (s : Store) (rows : List Ref) : List Ref :=
  rows.filter fun row => (s.rowCells? row).isSome

section

variable {position : Option Position} {t : TableView} {source turns index : Nat} {m m' : Machine}

theorem exec_appendRows_ok (hne : t.rows ≠ source)
    (h : (appendRows position t source turns index).exec m = (.ok true, m')) :
    m'.store = appendedRows m.store t (tupleRows m.store ((m.store.sequence source).drop index)) ∧
      FitInTurn m.store t (tupleRows m.store ((m.store.sequence source).drop index)) := by
  induction turns generalizing index m with
  | zero => cases h
  | succ turns ih =>
    cases hget : (m.store.sequence source)[index]? with
    | none =>
      rw [exec_appendRows_end hget] at h
      cases h
      rw [List.drop_eq_nil_of_le (List.getElem?_eq_none_iff.mp hget)]
      exact ⟨rfl, trivial⟩
    | some row =>
      rw [drop_of_getElem? hget]
      cases hcells : m.store.cells? row with
      | none =>
        rw [exec_appendRows_skip hget hcells] at h
        rw [tupleRows, List.filter_cons_of_neg (by simp [← Store.isSome_cells?, hcells])]
        exact ih h
      | some cells =>
        by_cases hfits : RowFits m.store t row
        · rw [exec_appendRows_fits hget hfits] at h
          obtain ⟨hstore, hturns⟩ := ih h
          have hone : withRow m.store t row = appendedRows m.store t [row] := rfl
          have hsame : tupleRows (withRow m.store t row)
              (((withRow m.store t row).sequence source).drop (index + 1)) =
              tupleRows m.store ((m.store.sequence source).drop (index + 1)) := by
            rw [hone, sequence_appendedRows_of_ne _ hne]
            simp only [tupleRows, rowCells?_appendedRows]
          simp only [hsame] at hstore hturns
          rw [tupleRows, List.filter_cons_of_pos (by simp [← Store.isSome_cells?, hcells])]
          exact ⟨hstore, hfits, hturns⟩
        · exact absurd rfl (exec_appendRows_misfit hget hcells hfits h).2

theorem exec_appendRows_self (hrows : t.rows < m.store.sequences.size)
    (htuples : ∀ row ∈ m.store.sequence t.rows, (m.store.rowCells? row).isSome)
    (hindex : index < (m.store.sequence t.rows).length) :
    (appendRows position t t.rows turns index).exec m ≠ (.ok true, m') := by
  intro h
  induction turns generalizing index m with
  | zero => cases h
  | succ turns ih =>
    have hget := List.getElem?_eq_getElem hindex
    have htuple := htuples _ (List.getElem_mem hindex)
    obtain ⟨cells, hcells⟩ := Option.isSome_iff_exists.mp
      ((m.store.isSome_cells? _).trans htuple)
    by_cases hfits : RowFits m.store t (m.store.sequence t.rows)[index]
    · rw [exec_appendRows_fits hget hfits] at h
      have hafter := sequence_appendedRows [(m.store.sequence t.rows)[index]] hrows
      refine ih ?_ (fun row hrow => ?_) ?_ h
      · exact hrows.trans_eq (size_withRow m.store t _).symm
      · show ((appendedRows m.store t [_]).rowCells? row).isSome
        rw [rowCells?_appendedRows]
        rcases List.mem_append.mp (hafter ▸ hrow) with hrow | hrow
        · exact htuples row hrow
        · rw [List.mem_singleton.mp hrow]
          exact htuple
      · show index + 1 < ((appendedRows m.store t [_]).sequence t.rows).length
        rw [hafter, List.length_append, List.length_singleton]
        omega
    · exact (exec_appendRows_misfit hget hcells hfits h).2 rfl

end

end TableScript.Primitive
