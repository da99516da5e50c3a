import TableScript.Proofs.Conformance
import TableScript.Proofs.TableSteps
import TableScript.Proofs.View

/-!
# What steps find in tables

The built-in functions on tables look up tables, rows and cells, and check cells against columns.
`Store.table?`, `Store.rowCells?`, `Store.cells?` are what a step finds at a reference, and
`CellsFit` is what a check of cells finds out. In a closed store all of it is there.
-/

namespace TableScript

variable {cells : List Ref}

namespace Store

/-- The table at a reference. -/
def table? (s : Store) (r : Ref) : Option Primitive.TableView :=
  match s.content r with
  | .table schema rows => some ⟨(s.object r).type, schema, rows⟩
  | _ => none

/-- The place of the cells of the row at a reference. -/
def rowCells? (s : Store) (row : Ref) : Option Nat :=
  match s.content row with
  | .tuple place => some place
  | _ => none

/-- The place of the list of types of the row at a reference. -/
def rowMembers? (s : Store) (row : Ref) : Option Nat :=
  match (s.object row).type with
  | .tuple c => some (s.types.cell c)
  | _ => none

variable {s : Store} {row : Ref} {place : Nat}

theorem rowCells?_eq_some : s.rowCells? row = some place ↔ s.content row = .tuple place := by
  rw [rowCells?]
  cases s.content row <;> simp

theorem rowMembers?_eq_some :
    s.rowMembers? row = some place ↔
      ∃ c, (s.object row).type = .tuple c ∧ s.types.cell c = place := by
  rw [rowMembers?]
  cases (s.object row).type <;> simp

/-- The cells of the row at a reference. -/
def cells? (s : Store) (row : Ref) : Option (List Ref) :=
  (s.rowCells? row).map s.sequence

theorem isSome_cells? (s : Store) (row : Ref) : (s.cells? row).isSome = (s.rowCells? row).isSome :=
  Option.isSome_map

theorem table?_eq_some {r : Ref} {t : Primitive.TableView} :
    s.table? r = some t ↔ s.object r = ⟨t.type, .table t.schema t.rows⟩ := by
  obtain ⟨type, schema, rows⟩ := t
  rw [table?, content]
  rcases s.object r with ⟨type', content⟩
  cases content <;> simp

/-! ## In a closed store -/

section

variable {s : Store}

open Primitive

variable {t : TableView} {r : Ref}

section

variable (h : s.table? r = some t)

include h

theorem has_of_table? : s.Has r.cell := by
  have hcontent : s.content r ≠ .none := by
    rw [Store.content, table?_eq_some.mp h]
    intro hnone
    cases hnone
  exact (Array.getElem?_eq_some_iff.mp (getElem?_of_content hcontent)).1

theorem Closed.schema (hs : s.Closed) : s.Has t.schema.cell := by
  refine hs.content (has_of_table? h) _ ?_
  rw [Store.content, table?_eq_some.mp h]
  simp [Content.cells]

theorem Closed.rows (hs : s.Closed) : s.Has (.sequence t.rows) := by
  refine hs.content (has_of_table? h) _ ?_
  rw [Store.content, table?_eq_some.mp h]
  simp [Content.cells]

theorem Closed.members (hs : s.Closed) {members : Nat} (ht : t.type = .table members) :
    s.Has (.members members) := by
  refine hs.type (has_of_table? h) _ ?_
  rw [table?_eq_some.mp h, ht]
  exact List.mem_singleton_self _

end

theorem Closed.cell (hs : s.Closed) (h : s.Has (.sequence place)) (hr : r ∈ s.sequence place) :
    s.Has r.cell :=
  hs _ h _ (List.mem_map_of_mem hr)

theorem Closed.rowCells (hs : s.Closed) (hrow : s.Has row.cell) (h : s.rowCells? row = some place) :
    s.Has (.sequence place) :=
  hs.content hrow _ (by simp [rowCells?_eq_some.mp h, Content.cells])

theorem Closed.mem_cells (hs : s.Closed) (hrow : s.Has row.cell) (h : s.cells? row = some cells) :
    ∀ cell ∈ cells, s.Has cell.cell := by
  rw [cells?, Option.map_eq_some_iff] at h
  obtain ⟨place, hplace, rfl⟩ := h
  exact fun cell hcell => hs.cell (hs.rowCells hrow hplace) hcell

end

end Store

namespace Primitive

open EvalM

/-! ## Looking things up -/

variable {position : Option Position} {name : String} {m : Machine} {r : Ref} {m' : Machine}

theorem mem_names_of_get? (h : m.scope.get? name = some r) :
    (name, r) ∈ m.scope.names := by
  obtain ⟨l₁, l₂, hnames, -⟩ := List.lookup_eq_some_iff.mp h
  rw [hnames]
  simp

/-- The argument of a parameter is this. -/
def Argument (m : Machine) (name : String) (c : Content) : Prop :=
  ∃ r, m.scope.get? name = some r ∧ m.store.content r = c

variable {c : Content}

theorem Argument.unique {c' : Content} (h : Argument m name c) (h' : Argument m name c') :
    c = c' := by
  obtain ⟨r, hr, rfl⟩ := h
  obtain ⟨r', hr', rfl⟩ := h'
  rw [hr] at hr'
  cases hr'
  rfl

theorem exec_argument_of (h : m.scope.get? name = some r) (position : Option Position) :
    (argument name position).exec m = (.ok r, m) := by
  rw [argument, lookup, exec_bind_get, h]
  rfl

theorem exec_bind_argument {α : Type} {f : Ref → EvalM α} (h : m.scope.get? name = some r) :
    (argument name position >>= f).exec m = (f r).exec m :=
  exec_bind_of (exec_argument_of h position)

theorem exec_argument_ok (h : (argument name position).exec m = (.ok r, m')) :
    m.scope.get? name = some r ∧ m' = m := by
  cases hr : m.scope.get? name with
  | some r' =>
    rw [exec_argument_of hr] at h
    cases h
    exact ⟨rfl, rfl⟩
  | none =>
    rw [argument, lookup, exec_bind_get, hr] at h
    exact absurd h report_ne_ok

theorem exec_argumentContent_of (h : m.scope.get? name = some r) (position : Option Position) :
    (argumentContent name position).exec m = (.ok (m.store.content r), m) := by
  rw [argumentContent, exec_bind_argument h]
  rfl

theorem exec_bind_argumentContent {α : Type} {f : Content → EvalM α}
    (h : m.scope.get? name = some r) :
    (argumentContent name position >>= f).exec m = (f (m.store.content r)).exec m :=
  exec_bind_of (exec_argumentContent_of h position)

theorem exec_argumentContent_ok (h : (argumentContent name position).exec m = (.ok c, m')) :
    Argument m name c ∧ m' = m := by
  obtain ⟨r, m₁, harg, hcontent⟩ := exec_bind_ok h
  obtain ⟨hr, rfl⟩ := exec_argument_ok harg
  cases hcontent
  exact ⟨⟨r, hr, rfl⟩, rfl⟩

theorem exec_argument_bind {α : Type} {f : Ref → EvalM α} {a : α}
    (h : (argument name position >>= f).exec m = (.ok a, m')) :
    ∃ r, m.scope.get? name = some r ∧ (f r).exec m = (.ok a, m') := by
  obtain ⟨r, m₁, harg, hf⟩ := exec_bind_ok h
  obtain ⟨hr, rfl⟩ := exec_argument_ok harg
  exact ⟨r, hr, hf⟩

theorem exec_argumentContent_bind {α : Type} {f : Content → EvalM α} {a : α}
    (h : (argumentContent name position >>= f).exec m = (.ok a, m')) :
    ∃ c, Argument m name c ∧ (f c).exec m = (.ok a, m') := by
  obtain ⟨c, m₁, harg, hf⟩ := exec_bind_ok h
  obtain ⟨hc, rfl⟩ := exec_argumentContent_ok harg
  exact ⟨c, hc, hf⟩

theorem exec_table? (r : Ref) (m : Machine) : (table? r).exec m = (.ok (m.store.table? r), m) := by
  rw [table?, exec_bind_object, Store.table?, Store.content]
  cases (m.store.object r).content <;> rfl

theorem exec_bind_table? {α : Type} {f : Option TableView → EvalM α} :
    (table? r >>= f).exec m = (f (m.store.table? r)).exec m :=
  exec_bind_of (exec_table? r m)

theorem exec_bind_columnsOf {α : Type} {f : List (String × TypeRef) → EvalM α}
    {t : TableView} :
    (columnsOf t >>= f).exec m = (f (m.store.columnsOf t.schema)).exec m := rfl

theorem exec_cells? (row : Ref) (m : Machine) :
    (cells? row).exec m = (.ok (m.store.cells? row), m) := by
  rw [cells?, exec_bind_content, Store.cells?, Store.rowCells?]
  cases m.store.content row <;> rfl

theorem exec_bind_cells? {α : Type} {f : Option (List Ref) → EvalM α} {row : Ref} :
    (cells? row >>= f).exec m = (f (m.store.cells? row)).exec m :=
  exec_bind_of (exec_cells? row m)

/-! ## Cells in columns -/

/-- A cell goes into a column of a type. -/
def CellFits (s : Store) (cell : Ref) (type : TypeRef) : Prop :=
  (s.content cell).isEntry = false ∧ s.types.Fits (s.object cell).type type

/-- The cells of a row go into the columns, up to the end of either. -/
def CellsFit (s : Store) (cells : List Ref) (columns : List (String × TypeRef)) : Prop :=
  ∀ p ∈ cells.zip columns, CellFits s p.1 p.2.2

/-- The cells of a row go into the columns of a table, and there are as many. -/
def RowFits (s : Store) (t : TableView) (row : Ref) : Prop :=
  ∃ cells, s.cells? row = some cells ∧ cells.length = (s.columnsOf t.schema).length ∧
    CellsFit s cells (s.columnsOf t.schema)

theorem exec_cellsConform_of {s : Store} {columns : List (String × TypeRef)}
    (h : CellsFit s cells columns) (position : Option Position) (hm : m.store = s) :
    (cellsConform position cells columns).exec m = (.ok true, m) := by
  subst hm
  induction cells generalizing columns with
  | nil => rfl
  | cons cell cells ih =>
    cases columns with
    | nil => rfl
    | cons column columns =>
      obtain ⟨hentry, hfits⟩ := h (cell, column) List.mem_cons_self
      have htype : (typeOf cell).exec m = (.ok (m.store.object cell).type, m) := by
        rw [exec_typeOf, hentry]
        rfl
      rw [cellsConform, exec_bind_of htype, exec_bind_of (exec_conforms_of_fits hfits)]
      exact ih fun p hp => h p (List.mem_cons_of_mem _ hp)

theorem exec_cellsConform_ok {columns : List (String × TypeRef)} {b : Bool}
    (h : (cellsConform position cells columns).exec m = (.ok b, m')) :
    m' = m ∧ (b = true → CellsFit m.store cells columns) ∧
      (b = false → ∃ cell ∈ cells, ∃ column ∈ columns,
        m.store.types.conform? (m.store.object cell).type column.2 = some .absent) := by
  induction cells generalizing columns with
  | nil =>
    cases h
    exact ⟨rfl, fun _ p hp => absurd hp (by simp), fun hb => absurd hb (by simp)⟩
  | cons cell cells ih =>
    cases columns with
    | nil =>
      cases h
      exact ⟨rfl, fun _ p hp => absurd hp (by simp), fun hb => absurd hb (by simp)⟩
    | cons column columns =>
      obtain ⟨type, m₁, htype, h⟩ := exec_bind_ok h
      obtain ⟨hentry, rfl, rfl⟩ := exec_typeOf_ok htype
      obtain ⟨fits, m₂, hconforms, h⟩ := exec_bind_ok h
      obtain ⟨rfl, hfits, habsent⟩ := exec_conforms_ok hconforms
      cases fits with
      | false =>
        cases h
        exact ⟨rfl, fun hb => absurd hb (by simp),
          fun _ => ⟨cell, List.mem_cons_self, column, List.mem_cons_self, habsent rfl⟩⟩
      | true =>
        obtain ⟨hm, hall, hsome⟩ := ih h
        refine ⟨hm, fun hb p hp => ?_, fun hb => ?_⟩
        · rcases List.mem_cons.mp hp with rfl | hp
          · exact ⟨hentry, hfits rfl⟩
          · exact hall hb p hp
        · obtain ⟨cell', hcell', column', hcolumn', htype⟩ := hsome hb
          exact ⟨cell', List.mem_cons_of_mem _ hcell', column',
            List.mem_cons_of_mem _ hcolumn', htype⟩

end Primitive

end TableScript
