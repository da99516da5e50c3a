import TableScript.Proofs.TableAppend

/-!
# Appending all rows or none

The rows of a list are checked one by one as they are appended. So a row that does not fit stops
after the rows before it have gone in, and rows that are appended to themselves never come to an
end. `append_all_or_nothing_iff` says which calls append all the rows or none, and which calls end.
-/

namespace TableScript.Primitive

open EvalM

/-! ## A row that does not fit -/

/-- The check of a row ends in an error that is reported. -/
def Refused (position : Option Position) (m : Machine) (t : TableView) (row : Ref) : Prop :=
  ∃ cells, m.store.cells? row = some cells ∧
    ((checkRow position (m.store.columnsOf t.schema) cells).exec m).1 = .error .reported

section

variable {position : Option Position} {t : TableView} {m : Machine} {row : Ref} {cells : List Ref}

theorem exec_checkRow_of (hcells : m.store.cells? row = some cells) (hrow : RowFits m.store t row) :
    (checkRow position (m.store.columnsOf t.schema) cells).exec m = (.ok true, m) := by
  obtain ⟨cells', hcells', hlength, hfit⟩ := hrow
  cases hcells.symm.trans hcells'
  rw [checkRow, if_neg (fun hne => hne hlength), exec_cellsConform_of hfit position rfl]

theorem Refused.not_fits (h : Refused position m t row) : ¬ RowFits m.store t row := by
  obtain ⟨cells, hcells, hreport⟩ := h
  intro hrow
  rw [exec_checkRow_of hcells hrow] at hreport
  cases hreport

end

/-! ## Rows that fit -/

section

variable {position : Option Position} {t : TableView} {source index turns : Nat} {m : Machine}
  {row : Ref} {rest : List Ref}

theorem getElem?_of_isPrefix (h : row :: rest <+: (m.store.sequence source).drop index) :
    (m.store.sequence source)[index]? = some row := by
  obtain ⟨more, hmore⟩ := h
  rw [← Nat.add_zero index, ← List.getElem?_drop, ← hmore]
  rfl

theorem prefix_withRow (h : row :: rest <+: (m.store.sequence source).drop index) (x : Ref) :
    rest <+: ((withRow m.store t x).sequence source).drop (index + 1) := by
  refine .trans ?_ ((isPrefix_sequence_of_grows (grows_withRow m.store t x) source).drop _)
  obtain ⟨more, hmore⟩ := h
  rw [← List.tail_drop, ← hmore]
  exact List.prefix_append _ _

theorem exec_appendRows_through (position : Option Position) (turns : Nat)
    (hrest : rest <+: (m.store.sequence source).drop index) (hfit : FitInTurn m.store t rest) :
    (appendRows position t source (turns + rest.length) index).exec m =
      (appendRows position t source turns (index + rest.length)).exec
        { m with store := appendedRows m.store t rest } := by
  induction rest generalizing index m with
  | nil => rfl
  | cons row rest ih =>
    have hindex : index + (row :: rest).length = index + 1 + rest.length := by
      rw [List.length_cons, Nat.add_right_comm]
      rfl
    rw [hindex]
    exact (exec_appendRows_fits (getElem?_of_isPrefix hrest) hfit.1).trans
      (ih (prefix_withRow hrest row) hfit.2)

theorem exec_appendRows_stopped (hrest : rest <+: (m.store.sequence source).drop index)
    (htuples : ∀ row ∈ rest, (m.store.rowCells? row).isSome)
    (hfit : ¬ FitInTurn m.store t rest) :
    (appendRows position t source (turns + rest.length) index).exec m =
      (appendRows position t source rest.length index).exec m := by
  induction rest generalizing index m with
  | nil => exact absurd trivial hfit
  | cons row rest ih =>
    have hget := getElem?_of_isPrefix hrest
    rw [List.length_cons, ← Nat.add_assoc]
    by_cases hrow : RowFits m.store t row
    · rw [exec_appendRows_fits hget hrow, exec_appendRows_fits hget hrow]
      refine ih (prefix_withRow hrest row) (fun x hx => ?_) fun hrest => hfit ⟨hrow, hrest⟩
      show ((appendedRows m.store t [row]).rowCells? x).isSome
      rw [rowCells?_appendedRows]
      exact htuples x (List.mem_cons_of_mem _ hx)
    · obtain ⟨cells, hcells⟩ := Option.isSome_iff_exists.mp
        ((m.store.isSome_cells? row).trans (htuples row List.mem_cons_self))
      rw [exec_appendRows_unfit hget hcells hrow, exec_appendRows_unfit hget hcells hrow]

end

theorem fitInTurn_append {s : Store} {t : TableView} {rows rows' : List Ref} :
    FitInTurn s t (rows ++ rows') ↔
      FitInTurn s t rows ∧ FitInTurn (appendedRows s t rows) t rows' := by
  induction rows generalizing s with
  | nil => exact (and_iff_right trivial).symm
  | cons row rows ih => exact (and_congr_right fun _ => ih).trans and_assoc.symm

/-! ## Rows that are taken for ever -/

/-- A row has the types of a table, unless one of them has none to share. -/
def Adopted (s : Store) (t : TableView) (row : Ref) : Prop :=
  ∀ c members, (s.object row).type = .tuple c → t.type = .table members →
    ∀ place, s.types.cells[c]? = some place → place = members

section

variable {s : Store} {t : TableView} {row : Ref}

theorem Adopted.adopt_eq (h : Adopted s t row) : adopt s t row = s := by
  unfold adopt
  split
  · next c members hc ht =>
    have hcells : (s.types.cells.modify c fun _ => members) = s.types.cells := by
      refine Array.ext_getElem? fun i => ?_
      rw [Array.getElem?_modify]
      split
      · next hi =>
        cases hget : s.types.cells[i]? with
        | none => rfl
        | some place => exact congrArg some (h c members hc ht place (hi ▸ hget)).symm
      · rfl
    simp only [Store.mapTypes, TypeStore.retarget, hcells]
  · rfl

theorem adopted_withRow {x : Ref} (h : row = x ∨ Adopted s t row) :
    Adopted (withRow s t x) t row := by
  intro c members hc ht place hplace
  rw [Store.object, objects_withRow, ← Store.object] at hc
  unfold withRow adopt at hplace
  rcases h with rfl | h
  · rw [hc, ht] at hplace
    simp only [Store.appendElement, Store.mapTypes, TypeStore.retarget, Array.getElem?_modify,
      if_pos, Option.map_eq_some_iff] at hplace
    obtain ⟨_, -, rfl⟩ := hplace
    rfl
  · split at hplace
    · next c' members' _ ht' =>
      cases ht.symm.trans ht'
      simp only [Store.appendElement, Store.mapTypes, TypeStore.retarget,
        Array.getElem?_modify] at hplace
      split at hplace
      · obtain ⟨_, -, rfl⟩ := Option.map_eq_some_iff.mp hplace
        rfl
      · exact h c members hc ht place hplace
    · exact h c members hc ht place hplace

theorem adopted_appendedRows {rows : List Ref} (h : row ∈ rows ∨ Adopted s t row) :
    Adopted (appendedRows s t rows) t row := by
  induction rows generalizing s with
  | nil => exact h.resolve_left List.not_mem_nil
  | cons x rows ih =>
    rcases h with h | h
    · rcases List.mem_cons.mp h with h | h
      · exact ih (.inr (adopted_withRow (.inl h)))
      · exact ih (.inl h)
    · exact ih (.inr (adopted_withRow (.inr h)))

end

/-- A row that fits a table and has the types of the table already, with its cells apart from the
rows of the table. -/
structure Steady (s : Store) (t : TableView) (row : Ref) : Prop where
  fits : RowFits s t row
  apart : s.rowCells? row ≠ some t.rows
  adopted : Adopted s t row

section

variable {s : Store} {t : TableView} {row x : Ref}

theorem rowFits_withRow (hx : Adopted s t x) (hrow : s.rowCells? row ≠ some t.rows) :
    RowFits (withRow s t x) t row ↔ RowFits s t row := by
  have hcells : (s.appendElement t.rows x).cells? row = s.cells? row := by
    rw [Store.cells?, Store.cells?, show (s.appendElement t.rows x).rowCells? row = s.rowCells? row
      from rfl]
    cases hplace : s.rowCells? row with
    | none => rfl
    | some place =>
      have hne : t.rows ≠ place := fun h => hrow (h ▸ hplace)
      simp [Store.sequence, Store.appendElement, Array.getD_eq_getD_getElem?,
        Array.getElem?_modify, hne]
  rw [withRow, hx.adopt_eq, RowFits, RowFits, hcells]
  rfl

theorem Steady.withRow (hx : Steady s t x) (hrow : Steady s t row) :
    Steady (withRow s t x) t row where
  fits := (rowFits_withRow hx.adopted hrow.apart).mpr hrow.fits
  apart := by
    rw [Store.rowCells?_eq_of_objects (objects_withRow s t x)]
    exact hrow.apart
  adopted := adopted_withRow (.inr hrow.adopted)

theorem FitInTurn.steady {rows : List Ref} (h : FitInTurn s t rows)
    (hadopted : ∀ row ∈ rows, Adopted s t row)
    (hlong : ∀ row ∈ rows, s.rowCells? row = some t.rows →
      (s.columnsOf t.schema).length < (s.sequence t.rows).length) :
    ∀ row ∈ rows, Steady s t row := by
  induction rows generalizing s with
  | nil => exact fun _ hrow => absurd hrow List.not_mem_nil
  | cons x rows ih =>
    obtain ⟨hfits, hrest⟩ := h
    have hadoptedx := hadopted x List.mem_cons_self
    have hone : withRow s t x = appendedRows s t [x] := rfl
    refine List.forall_mem_cons.mpr ⟨⟨hfits, fun hplace => ?_, hadoptedx⟩,
      fun row hrow => ?_⟩
    · obtain ⟨cells, hcells, hlength, -⟩ := hfits
      rw [Store.cells?, hplace] at hcells
      cases hcells
      exact absurd hlength (Nat.ne_of_gt (hlong x List.mem_cons_self hplace))
    · have hmem := List.mem_cons_of_mem x hrow
      have hcells := rowCells?_appendedRows (s := s) (t := t) [x]
      have hafter : Steady (withRow s t x) t row := by
        refine ih hrest (fun y hy => ?_) (fun y hy hplace => ?_) row hrow
        · exact adopted_withRow (.inr (hadopted y (List.mem_cons_of_mem x hy)))
        · rw [hone, columnsOf_appendedRows]
          exact Nat.lt_of_lt_of_le
            (hlong y (List.mem_cons_of_mem x hy) ((hcells y).symm.trans hplace))
            (isPrefix_sequence_of_grows (grows_withRow s t x) t.rows).length_le
      have hapart : s.rowCells? row ≠ some t.rows := fun hplace =>
        hafter.apart ((hcells row).trans hplace)
      exact ⟨(rowFits_withRow hadoptedx hapart).mp hafter.fits, hapart, hadopted row hmem⟩

end

section

variable {position : Option Position} {t : TableView} {source index : Nat} {m : Machine}

theorem length_appendRows_steady (hrows : t.rows < m.store.sequences.size)
    (hsteady : ∀ row ∈ m.store.sequence t.rows, Steady m.store t row)
    (hindex : index < (m.store.sequence t.rows).length) (turns : Nat) :
    (((appendRows position t t.rows turns index).exec m).2.store.sequence t.rows).length =
      (m.store.sequence t.rows).length + turns := by
  induction turns generalizing index m with
  | zero => rfl
  | succ turns ih =>
    let row := (m.store.sequence t.rows)[index]
    have hrow := hsteady row (List.getElem_mem hindex)
    have hafter : (withRow m.store t row).sequence t.rows = m.store.sequence t.rows ++ [row] :=
      sequence_appendedRows [row] hrows
    rw [exec_appendRows_fits (List.getElem?_eq_getElem hindex) hrow.fits, ih]
    · simp only [row, hafter, List.length_append, List.length_singleton]
      omega
    · exact hrows.trans_eq (size_withRow m.store t row).symm
    · intro x hx
      refine hrow.withRow (hsteady x ?_)
      rcases List.mem_append.mp (hafter ▸ hx) with hx | hx
      · exact hx
      · exact List.mem_singleton.mp hx ▸ List.getElem_mem hindex
    · simp only [row, hafter, List.length_append, List.length_singleton]
      omega

/-- More turns than some number make no difference to a call. -/
def Ends (position : Option Position) (t : TableView) (source : Nat) (m : Machine) : Prop :=
  ∃ turns, ∀ more, (appendRows position t source (more + turns) 0).exec m =
    (appendRows position t source turns 0).exec m

theorem not_ends_self (hrows : t.rows < m.store.sequences.size)
    (hne : m.store.sequence t.rows ≠ [])
    (hfit : FitInTurn m.store t (m.store.sequence t.rows ++ m.store.sequence t.rows)) :
    ¬ Ends position t t.rows m := by
  obtain ⟨hfirst, hsecond⟩ := fitInTurn_append.mp hfit
  have hlength : ∀ turns, (((appendRows position t t.rows
      (turns + (m.store.sequence t.rows).length) 0).exec m).2.store.sequence t.rows).length =
      (m.store.sequence t.rows ++ m.store.sequence t.rows).length + turns := by
    intro turns
    have hafter := sequence_appendedRows (t := t) (m.store.sequence t.rows) hrows
    -- after the first round the rows have the types of the table
    have hsteady := hsecond.steady (fun row hrow => adopted_appendedRows (.inl hrow))
      fun row hrow hplace => by
        obtain ⟨place, hplace', -, hlong⟩ := hfirst.width hrows row hrow
        rw [rowCells?_appendedRows, hplace'] at hplace
        obtain rfl : place = t.rows := Option.some.inj hplace
        rw [columnsOf_appendedRows]
        exact hlong rfl
    rw [exec_appendRows_through _ _ (by simp) hfirst, length_appendRows_steady]
    · rw [hafter]
    · exact hrows.trans_eq (size_appendedRows _).symm
    · intro row hrow
      rw [hafter, List.mem_append, or_self] at hrow
      exact hsteady row hrow
    · have := List.length_pos_of_ne_nil hne
      simp only [hafter, List.length_append]
      omega
  rintro ⟨turns, hturns⟩
  have hone := hturns (m.store.sequence t.rows).length
  have htwo := hturns (1 + (m.store.sequence t.rows).length)
  rw [Nat.add_comm] at hone
  rw [Nat.add_right_comm] at htwo
  have hlengthOne := hlength turns
  have hlengthTwo := hlength (1 + turns)
  rw [hone] at hlengthOne
  rw [htwo] at hlengthTwo
  omega

theorem ends_iff (hrows : t.rows < m.store.sequences.size)
    (htuples : ∀ row ∈ m.store.sequence source, (m.store.rowCells? row).isSome) :
    Ends position t source m ↔ ¬ (source = t.rows ∧ m.store.sequence source ≠ [] ∧
      FitInTurn m.store t (m.store.sequence source ++ m.store.sequence source)) := by
  constructor
  · rintro hends ⟨rfl, hne, hfit⟩
    exact not_ends_self hrows hne hfit hends
  · intro hnot
    by_cases hfirst : FitInTurn m.store t (m.store.sequence source)
    · have hwhole : m.store.sequence source <+: (m.store.sequence source).drop 0 := by simp
      have hthrough : ∀ turns, _ :=
        fun turns => exec_appendRows_through position turns hwhole hfirst
      by_cases hself : source = t.rows
      · subst hself
        by_cases hne : m.store.sequence t.rows = []
        · exact ⟨1, fun more => by rw [exec_appendRows_end, exec_appendRows_end] <;>
            simp [hne]⟩
        · refine ⟨2 * (m.store.sequence t.rows).length, fun more => ?_⟩
          rw [Nat.two_mul, ← Nat.add_assoc, hthrough, hthrough, exec_appendRows_stopped]
          · rw [sequence_appendedRows _ hrows]
            simp
          · simp only [rowCells?_appendedRows]
            exact htuples
          · exact fun hsecond => hnot ⟨rfl, hne, fitInTurn_append.mpr ⟨hfirst, hsecond⟩⟩
      · refine ⟨1 + (m.store.sequence source).length, fun more => ?_⟩
        rw [← Nat.add_assoc, hthrough, hthrough, exec_appendRows_end, exec_appendRows_end] <;>
        simp [sequence_appendedRows_of_ne _ (Ne.symm hself)]
    · exact ⟨_, fun more => exec_appendRows_stopped (by simp) htuples hfirst⟩

end

/-! ## The outcome of a call -/

/-- All rows fit and are appended, or none is and an error is reported. -/
def AllOrNothing (position : Option Position) (m : Machine) (r : Ref) (t : TableView)
    (rows : List Ref) : Prop :=
  ∃ m', ((∀ row ∈ rows, RowFits m.store t row) ∧
      (runAppend position).exec m = (.ok r, m') ∧
      m'.store.sequence t.rows = m.store.sequence t.rows ++ rows) ∨
    ((¬ ∀ row ∈ rows, RowFits m.store t row) ∧
      (runAppend position).exec m = (.error .reported, m') ∧ m'.store = m.store)

section

variable {m m' : Machine} {r : Ref} {t : TableView} {source : Nat} {position : Option Position}

section

variable (h : AppendCall m r t source)
include h

theorem exec_appendRows_of_given (hexec : (runAppend position).exec m = (.ok r, m')) :
    (appendRows position t source (2 * (m.store.sequence source).length + 1) 0).exec m =
      (.ok true, m') := by
  rw [exec_runAppend h] at hexec
  obtain ⟨appended, m₁, hloop, hexec⟩ := exec_bind_ok hexec
  cases appended with
  | true =>
    cases hexec
    exact hloop
  | false =>
    -- a new none is not where the table is
    have hgrows := grows_appendRows position t source
      (2 * (m.store.sequence source).length + 1) 0 m
    rw [hloop] at hgrows
    have hcontent : m.store.content r ≠ .none := by
      rw [Store.content, Store.table?_eq_some.mp h.view]
      exact Content.noConfusion
    have hthere := hgrows.objects (Store.getElem?_of_content hcontent)
    cases hexec
    simp at hthere

theorem exec_runAppend_of_fit (hself : m.store.sequence source = [] ∨ source ≠ t.rows)
    (hfit : FitInTurn m.store t (m.store.sequence source)) :
    (runAppend position).exec m =
      (.ok r, { m with store := appendedRows m.store t (m.store.sequence source) }) := by
  have hsame : (appendedRows m.store t (m.store.sequence source)).sequence source =
      m.store.sequence source := by
    rcases hself with hnil | hself
    · rw [hnil]
      exact hnil
    · exact sequence_appendedRows_of_ne _ hself.symm
  have hturns : 2 * (m.store.sequence source).length + 1 =
      (m.store.sequence source).length + 1 + (m.store.sequence source).length := by omega
  have hloop : (appendRows position t source (2 * (m.store.sequence source).length + 1) 0).exec m =
      (.ok true, { m with store := appendedRows m.store t (m.store.sequence source) }) := by
    rw [hturns, exec_appendRows_through _ _ (by simp) hfit, exec_appendRows_end (by simp [hsame])]
  rw [exec_runAppend h, exec_bind_of hloop]
  rfl

theorem fit_of_exec_runAppend (hrows : t.rows < m.store.sequences.size)
    (htuples : ∀ row ∈ m.store.sequence source, (m.store.rowCells? row).isSome)
    (hexec : (runAppend position).exec m = (.ok r, m')) :
    (m.store.sequence source = [] ∨ source ≠ t.rows) ∧
      FitInTurn m.store t (m.store.sequence source) := by
  have hloop := exec_appendRows_of_given h hexec
  by_cases hnil : m.store.sequence source = []
  · rw [hnil]
    exact ⟨.inl rfl, trivial⟩
  · have hself : source ≠ t.rows := by
      rintro rfl
      exact exec_appendRows_self hrows htuples (List.length_pos_of_ne_nil hnil) hloop
    have hfit := (exec_appendRows_ok hself.symm hloop).2
    rw [List.drop_zero, tupleRows, List.filter_eq_self.mpr htuples] at hfit
    exact ⟨.inr hself, hfit⟩

theorem exec_runAppend_error_iff {halt : Halt} :
    (runAppend position).exec m = (.error halt, m') ↔
      (appendRows position t source (2 * (m.store.sequence source).length + 1) 0).exec m =
        (.error halt, m') := by
  rw [exec_runAppend h]
  rcases hloop : (appendRows position t source (2 * (m.store.sequence source).length + 1) 0).exec m
    with ⟨halt' | appended, m₁⟩
  · rw [exec_bind_halt hloop]
    constructor <;> rintro ⟨⟩ <;> rfl
  · rw [exec_bind_of hloop]
    cases appended <;> exact iff_of_false (fun h => by cases h) fun h => by cases h

theorem exec_runAppend_reported_iff (hrows : t.rows < m.store.sequences.size)
    (htuples : ∀ row ∈ m.store.sequence source, (m.store.rowCells? row).isSome) :
    (∃ m', (runAppend position).exec m = (.error .reported, m') ∧ m'.store = m.store) ↔
      ∃ row, (m.store.sequence source).head? = some row ∧ Refused position m t row := by
  cases hsource : m.store.sequence source with
  | nil =>
    have hexec : (runAppend position).exec m = _ :=
      exec_runAppend_of_fit h (.inl hsource) (by rw [hsource]; trivial)
    simp [hexec]
  | cons row rest =>
    have hget : (m.store.sequence source)[0]? = some row := by simp [hsource]
    obtain ⟨cells, hcells⟩ := Option.isSome_iff_exists.mp
      ((m.store.isSome_cells? row).trans (htuples row (by rw [hsource]; exact List.mem_cons_self)))
    by_cases hfits : RowFits m.store t row
    · refine iff_of_false ?_ ?_
      · rintro ⟨m', hexec, hstore⟩
        have hfind : ((m.store.sequence source).drop 0).find?
            (fun x => (m.store.cells? x).isSome) = some row := by simp [hsource, hcells]
        obtain ⟨b, hb, hlt⟩ := appendRows_grows position
          (2 * (m.store.sequence source).length + 1) 0 hfind hfits (by simp; omega)
          (Array.getElem?_eq_getElem hrows)
        rw [(exec_runAppend_error_iff h).mp hexec, hstore, Array.getElem?_eq_getElem hrows] at hb
        cases hb
        exact Nat.lt_irrefl _ hlt
      · rintro ⟨row', hrow', hrefused⟩
        cases hrow'
        exact hrefused.not_fits hfits
    · have hloop : (appendRows position t source _ 0).exec m = _ :=
        exec_appendRows_unfit hget hcells hfits (2 * (m.store.sequence source).length)
      constructor
      · rintro ⟨m', hexec, -⟩
        rw [exec_runAppend_error_iff h, hloop] at hexec
        exact ⟨row, rfl, _, hcells, by rw [hexec]⟩
      · rintro ⟨row', hrow', cells', hcells', hreport⟩
        cases hrow'
        cases hcells.symm.trans hcells'
        rcases hcheck : (checkRow position (m.store.columnsOf t.schema) cells).exec m with
          ⟨out, m'⟩
        rw [hcheck] at hreport hloop
        cases hreport
        exact ⟨m', (exec_runAppend_error_iff h).mpr hloop,
          (exec_appendRows_misfit hget hcells hfits hloop).1⟩

end

end

section

variable {m : Machine} {r : Ref} {t : TableView} {source : Nat}

/-- A call appends all rows or none iff its first row is refused, or the rows fit both at the start
and in turn and are not those of the table itself. It ends unless they are, and go through twice. -/
theorem append_all_or_nothing_iff (position : Position) (h : AppendCall m r t source)
    (hrows : t.rows < m.store.sequences.size)
    (htuples : ∀ row ∈ m.store.sequence source, (m.store.rowCells? row).isSome) :
    let rows := m.store.sequence source
    (AllOrNothing (some position) m r t rows ↔
      (∃ row, rows.head? = some row ∧ Refused (some position) m t row) ∨
        (rows = [] ∨ source ≠ t.rows) ∧ (∀ row ∈ rows, RowFits m.store t row) ∧
          FitInTurn m.store t rows) ∧
      (Ends (some position) t source m ↔
        ¬ (source = t.rows ∧ rows ≠ [] ∧ FitInTurn m.store t (rows ++ rows))) := by
  intro rows
  refine ⟨⟨?_, ?_⟩, ends_iff hrows htuples⟩
  · rintro ⟨m', ⟨hall, hexec, -⟩ | ⟨-, hexec, hstore⟩⟩
    · obtain ⟨hself, hfit⟩ := fit_of_exec_runAppend h hrows htuples hexec
      exact .inr ⟨hself, hall, hfit⟩
    · exact .inl ((exec_runAppend_reported_iff h hrows htuples).mp ⟨m', hexec, hstore⟩)
  · rintro (⟨row, hrow, hrefused⟩ | ⟨hself, hall, hfit⟩)
    · obtain ⟨m', hexec, hstore⟩ :=
        (exec_runAppend_reported_iff h hrows htuples).mpr ⟨row, hrow, hrefused⟩
      refine ⟨m', .inr ⟨fun hall => ?_, hexec, hstore⟩⟩
      exact hrefused.not_fits (hall row (List.mem_of_mem_head? hrow))
    · exact ⟨_, .inl ⟨hall, exec_runAppend_of_fit h hself hfit,
        sequence_appendedRows _ hrows⟩⟩

end

/-- A table of one column with the row `(1)`, and a list of rows, for which there are `(1)` at 1,
`(1, 1)` at 2 and `(2)` at 7. -/
def oneRow (rows : Array Ref) : Machine where
  store := {
    types := { lists := #[[.int], [.int, .int]], cells := #[0, 1] }
    objects := #[⟨.int, .int 1⟩, ⟨.tuple 0, .tuple 0⟩, ⟨.tuple 1, .tuple 1⟩,
      ⟨.schema 0, .schema 0⟩, ⟨.table 0, .table ⟨3⟩ 2⟩, ⟨.list (.tuple 0), .list 3⟩,
        ⟨.int, .int 2⟩, ⟨.tuple 0, .tuple 4⟩]
    sequences := #[#[⟨0⟩], #[⟨0⟩, ⟨0⟩], #[⟨1⟩], rows, #[⟨6⟩]]
    columns := #[[("a", .int)]] }
  scope := { names := [("table", ⟨4⟩), ("rows", ⟨5⟩)] }

theorem fits_number {s : Store} {row cell : Ref} {n : Int} (hcells : s.cells? row = some [cell])
    (hcolumns : s.columnsOf ⟨3⟩ = [("a", .int)]) (hcell : s.object cell = ⟨.int, .int n⟩) :
    RowFits s ⟨.table 0, ⟨3⟩, 2⟩ row := by
  refine ⟨[cell], hcells, by rw [hcolumns]; rfl, fun p hp => ?_⟩
  rw [hcolumns] at hp
  cases List.mem_singleton.mp hp
  rw [CellFits, Store.content, hcell]
  exact ⟨rfl, .int, rfl, fun h => by cases h⟩

/-- Rows that fit are appended to the table, the one that it has and another one. -/
theorem append_all_two :
    AllOrNothing (some {}) (oneRow #[⟨1⟩, ⟨7⟩]) ⟨4⟩ ⟨.table 0, ⟨3⟩, 2⟩
      [⟨1⟩, ⟨7⟩] := by
  have hcall : AppendCall (oneRow #[⟨1⟩, ⟨7⟩]) ⟨4⟩ ⟨.table 0, ⟨3⟩, 2⟩ 3 :=
    ⟨rfl, rfl, ⟨5⟩, rfl, rfl⟩
  refine (append_all_or_nothing_iff {} hcall (by decide) (by decide)).1.mpr
    (.inr ⟨.inr (by decide), ?_, fits_number rfl rfl rfl, fits_number rfl rfl rfl, trivial⟩)
  intro row hrow
  rcases List.mem_pair.mp hrow with rfl | rfl
  · exact fits_number rfl rfl rfl
  · exact fits_number rfl rfl rfl

/-- A row that fits stays in the table though the next one is refused. -/
theorem append_part :
    ¬ AllOrNothing (some {}) (oneRow #[⟨1⟩, ⟨2⟩]) ⟨4⟩ ⟨.table 0, ⟨3⟩, 2⟩
      [⟨1⟩, ⟨2⟩] := by
  rintro ⟨m', ⟨-, hexec, -⟩ | ⟨-, hexec, hstore⟩⟩
  · cases hexec
  · cases hexec
    have hrows := congrArg (fun s => (s.sequence 2).length) hstore
    revert hrows
    decide

end TableScript.Primitive
