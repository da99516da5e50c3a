import TableScript.Primitive.Run
import TableScript.Proofs.RectangularEdits
import TableScript.Proofs.TableMaking
import TableScript.Proofs.TableSources
import TableScript.Script

/-!
# Rectangular tables along runs

A run is a sequence of calls of the built-in functions that make tables, with other steps in between
that only add to the store. All the tables that have been made stay in view, since a later call can
change them. The tables are rectangular all along iff each call `Fits`, which is a condition on the
machine before the call.
-/

namespace TableScript

open Primitive EvalM

/-- A machine, and the tables that have been made on it. -/
structure Moment where
  machine : Machine
  closed : machine.Closed
  tables : List Ref

/-- All the tables that have been made are rectangular. -/
def Moment.Rectangular (x : Moment) : Prop :=
  ∀ u ∈ x.tables, x.machine.store.IsRectangular u

namespace Primitive

/-- The built-in functions whose results are tables. -/
def tableMakers : List Builtin :=
  [.createTable, .column, .readCsv, .join, .with, .append, .select, .drop, .getColumns]

/-- The parameters of a built-in function that stand for tables. -/
def tableParameters : Builtin → List String
  | .join => ["left_table", "right_table"]
  | .with | .append | .select | .drop | .getColumns => ["table"]
  | _ => []

/-- When a call leaves tables rectangular and gives a rectangular table.

* The schema of a new table has to have as many types as columns, and each row or line as many
  cells.
* A list of values has to conform to the type of its first value.
* Columns have to be named once each, unless there are no rows.
* A column or rows that are added have to fit all the tables.
* No column may be dropped. -/
def Fits (b : Builtin) (m : Machine) (tables : List Ref) : Prop :=
  match b with
  | .createTable => ∃ t, CreateCall m t ∧ SchemaFits m.store t.schema ∧
      ∀ row ∈ m.store.sequence t.rows, m.store.IsWide row (m.store.columnsOf t.schema).length
  | .column => ∃ name first rest, ColumnCall m name first rest ∧
      ∀ v ∈ first :: rest, CellFits m.store v (m.store.object first).type
  | .readCsv => ∃ schema lines, ReadCall m schema lines ∧ SchemaFits m.store schema ∧
      ∀ line ∈ lines, line.length = (m.store.columnsOf schema).length
  | .getColumns => ∃ r t place, m.scope.get? "table" = some r ∧ m.store.table? r = some t ∧
      Argument m "names" (.list place) ∧
      (m.store.sequence t.rows = [] ∨ (givenNames m.store place).Nodup)
  | .with => ∃ r t name first rest, WithCall m r t name first rest ∧
      ∀ u ∈ tables, ∀ v, m.store.table? u = some v → ColumnFits m.store t name first rest v
  | .append => ∃ r t source, AppendCall m r t source ∧
      (tupleRows m.store (m.store.sequence source) = [] ∨
        RowsFit m.store t (tupleRows m.store (m.store.sequence source)) tables)
  | .drop => False
  | _ => True

section

variable {m m' : Machine} {position : Option Position} {r : Ref} {tables : List Ref}

/-! ## Calls that make a table -/

theorem rectangular_cons_iff (hm : m.store.Closed)
    (hall : ∀ u ∈ tables, m.store.IsRectangular u) (hadds : m.store.Extends m'.store) :
    (∀ u ∈ r :: tables, m'.store.IsRectangular u) ↔ m'.store.IsRectangular r := by
  rw [List.forall_mem_cons]
  exact and_iff_left fun u hu => hadds.isRectangular hm (hall u hu)

section

variable (htable : m'.store.table? r ≠ none)

include htable

theorem rectangular_createTable_iff (hm : m.Closed)
    (h : (runCreateTable position).exec m = (.ok r, m')) :
    m'.store.IsRectangular r ↔ Fits .createTable m tables := by
  obtain ⟨t, hcall, hadds, ht⟩ := exec_runCreateTable_ok h htable
  rw [isRectangular_createTable_iff hm hcall hadds ht]
  refine ⟨fun hfit => ⟨t, hcall, hfit⟩, ?_⟩
  rintro ⟨t', hcall', hfit⟩
  cases hcall.unique hcall'
  exact hfit

theorem rectangular_column_iff (hm : m.Closed) (h : (runColumn position).exec m = (.ok r, m')) :
    m'.store.IsRectangular r ↔ Fits .column m tables := by
  obtain ⟨name, first, rest, hcall, h⟩ := exec_runColumn_ok h htable
  obtain ⟨place, ⟨list, hget, hlist⟩, hvalues⟩ := hcall.values
  have hsequence : m.store.Has (.sequence place) := by
    refine hm.store.content (hm.scope.has (mem_names_of_get? hget)) _ ?_
    rw [hlist]
    exact List.mem_singleton_self _
  have hhas : ∀ v ∈ first :: rest, m.store.Has v.cell :=
    fun v hv => hm.store.cell hsequence (hvalues ▸ hv)
  rw [isRectangular_columnTable_iff hm.store (hm.store.type (hhas first List.mem_cons_self)) hhas h]
  refine ⟨fun hfit => ⟨name, first, rest, hcall, hfit⟩, ?_⟩
  rintro ⟨name', first', rest', hcall', hfit⟩
  cases hcall.unique hcall'
  exact hfit

theorem rectangular_readCsv_iff (hm : m.Closed) (h : (runReadCsv position).exec m = (.ok r, m')) :
    m'.store.IsRectangular r ↔ Fits .readCsv m tables := by
  obtain ⟨schema, lines, members, hcall, htype, h⟩ := exec_runReadCsv_ok h htable
  obtain ⟨members', place, hobject⟩ := hcall.type
  have hcontent : m.store.content schema = .schema place := by rw [Store.content, hobject]
  have hmembers : m.store.Has (.members members) := by
    refine hm.store.type (hm.scope.has (mem_names_of_get? hcall.given)) _ ?_
    rw [htype]
    exact List.mem_singleton_self _
  have hcolumns := hm.store.columnsAt hcontent
  have hlist := Array.getElem?_eq_getElem hmembers
  have hfits : SchemaFits m.store schema ↔
      (m.store.types.list members).length = (m.store.columnsOf schema).length := by
    rw [SchemaFits, htype]
    simp
  rw [isRectangular_linesTable_iff hlist hcolumns h, ← TypeStore.list_of_getElem? hlist,
    ← hfits]
  refine ⟨fun hfit => ⟨schema, lines, hcall, hfit⟩, ?_⟩
  rintro ⟨schema', lines', hcall', hfit⟩
  obtain ⟨rfl, rfl⟩ := hcall.unique hcall'
  exact hfit

theorem extends_runReadCsv (h : (runReadCsv position).exec m = (.ok r, m')) :
    m.store.Extends m'.store := by
  obtain ⟨schema, lines, members, -, -, h⟩ := exec_runReadCsv_ok h htable
  exact (moves_linesTable _ _ _ _).of_exec h

end

/-! ## Calls on tables -/

variable {a : Ref} {t : TableView}

theorem isRectangular_select (hm : m.Closed) (h : (runSelect position).exec m = (.ok r, m'))
    (harguments : ∀ u, m.scope.get? "table" = some u → m.store.IsRectangular u) :
    m'.store.IsRectangular r := by
  obtain ⟨a, t, place, query, hget, ht, h⟩ := exec_runSelect_ok h
  have hrect := (Store.isRectangular_iff ht).mp (harguments a hget)
  exact isRectangular_selectTable hm.store ht hrect h

theorem isRectangular_join (hm : m.Closed) (h : (runJoin position).exec m = (.ok r, m'))
    (htable : m'.store.table? r ≠ none)
    (hleft : ∀ u, m.scope.get? "left_table" = some u → m.store.IsRectangular u)
    (hright : ∀ u, m.scope.get? "right_table" = some u → m.store.IsRectangular u) :
    m'.store.IsRectangular r := by
  obtain ⟨a, b, t, u, place, query, hgetLeft, ht, hgetRight, hu, h⟩ := exec_runJoin_ok h htable
  exact isRectangular_joinTable hm.store ht ((Store.isRectangular_iff ht).mp (hleft a hgetLeft))
    hu ((Store.isRectangular_iff hu).mp (hright b hgetRight)) h

theorem rectangular_getColumns_iff (hm : m.Closed)
    (h : (runGetColumns position).exec m = (.ok r, m')) (htable : m'.store.table? r ≠ none)
    (harguments : ∀ u, m.scope.get? "table" = some u → m.store.IsRectangular u) :
    m'.store.IsRectangular r ↔ Fits .getColumns m tables := by
  obtain ⟨a, t, place, hget, ht, hplace, hall, h⟩ := exec_runGetColumns_ok h htable
  have hrect := (Store.isRectangular_iff ht).mp (harguments a hget)
  rw [isRectangular_pickTable_iff hm.store ht hrect hall h]
  refine ⟨fun hfit => ⟨a, t, place, hget, ht, hplace, hfit⟩, ?_⟩
  rintro ⟨a', t', place', hget', ht', hplace', hfit⟩
  cases hget.symm.trans hget'
  cases ht.symm.trans ht'
  cases hplace.unique hplace'
  exact hfit

/-! ## Calls that edit a table -/

theorem rectangular_cons_of_mem (hr : r ∈ tables) :
    (∀ u ∈ r :: tables, m'.store.IsRectangular u) ↔
    ∀ u ∈ tables, m'.store.IsRectangular u := by
  rw [List.forall_mem_cons]
  exact and_iff_right_of_imp fun hall => hall r hr

section

variable (hm : m.Closed) (htable : m'.store.table? r ≠ none)
  (hall : ∀ u ∈ tables, m.store.IsRectangular u)
  (harguments : ∀ u, m.scope.get? "table" = some u → u ∈ tables)

include hm htable hall harguments

theorem rectangular_with_iff (h : (runWith position).exec m = (.ok r, m')) :
    (∀ u ∈ r :: tables, m'.store.IsRectangular u) ↔ Fits .with m tables := by
  rcases runWith_cases position m with ⟨a, t, name, first, rest, hcall⟩ | hidle
  · obtain ⟨rfl, hstore⟩ := exec_runWith_ok hcall h
    have hmem := harguments r hcall.table
    -- Other tables can share the schema, the rows or the types that the column goes into, so each
    -- of them is looked at.
    obtain ⟨members, htype, -⟩ := ((Store.isRectangular_iff hcall.view).mp (hall r hmem)).types
    have hfits : (∀ u ∈ tables, m'.store.IsRectangular u) ↔ ∀ u ∈ tables, ∀ v,
        m.store.table? u = some v → ColumnFits m.store t name first rest v := by
      refine forall₂_congr fun u hu => ?_
      obtain ⟨v, hv, hrect⟩ := hall u hu
      rw [hstore, isRectangular_withColumn_iff hm.store htype hv hrect, hv]
      simp
    rw [rectangular_cons_of_mem hmem, hfits]
    refine ⟨fun hfit => ⟨r, t, name, first, rest, hcall, hfit⟩, ?_⟩
    rintro ⟨r', t', name', first', rest', hcall', hfit⟩
    obtain ⟨rfl, rfl, rfl, rfl⟩ := hcall.unique hcall'
    exact hfit
  · exact absurd (hidle.table? h) htable

theorem rectangular_append_iff (h : (runAppend position).exec m = (.ok r, m')) :
    (∀ u ∈ r :: tables, m'.store.IsRectangular u) ↔ Fits .append m tables := by
  rcases runAppend_cases position m with ⟨a, t, source, hcall⟩ | hidle
  · have hmem := harguments a hcall.table
    have hrect := (Store.isRectangular_iff hcall.view).mp (hall a hmem)
    obtain ⟨rfl, hstore, hfit⟩ := exec_runAppend_ok hm.store hcall hrect h htable
    have hfits : (∀ u ∈ tables, m'.store.IsRectangular u) ↔
        tupleRows m.store (m.store.sequence source) = [] ∨
          RowsFit m.store t (tupleRows m.store (m.store.sequence source)) tables := by
      by_cases hadded : tupleRows m.store (m.store.sequence source) = []
      · rw [hstore, hadded]
        exact iff_of_true hall (.inl rfl)
      · rw [hstore, isRectangular_appendedRows_iff hm.store hmem hcall.view hall hfit hadded]
        exact (or_iff_right hadded).symm
    rw [rectangular_cons_of_mem hmem, hfits]
    refine ⟨fun hfit => ⟨r, t, source, hcall, hfit⟩, ?_⟩
    rintro ⟨r', t', source', hcall', hfit⟩
    obtain ⟨rfl, rfl⟩ := hcall.unique hcall'
    exact hfit
  · exact absurd (hidle.table? h) htable

theorem not_rectangular_drop (h : (runDrop position).exec m = (.ok r, m')) :
    ¬ ∀ u ∈ r :: tables, m'.store.IsRectangular u := by
  rcases runDrop_cases position m with ⟨a, t, index, hcall⟩ | hidle
  · have hmem := harguments a hcall.table
    have hrect := (Store.isRectangular_iff hcall.view).mp (hall a hmem)
    exact fun hafter =>
      not_isRectangular_drop hm.store hcall hrect h (hafter a (List.mem_cons_of_mem _ hmem))
  · exact absurd (hidle.table? h) htable

end

end

end Primitive

/-! ## Runs -/

/-- A call between two moments. -/
structure Call where
  builtin : Builtin
  before : Moment
  after : Moment

namespace Call

/-- The call is one of a built-in function that makes tables. It takes tables that have been made,
and its result is a table. -/
structure Made (c : Call) : Prop where
  maker : c.builtin ∈ tableMakers
  arguments : ∀ name ∈ tableParameters c.builtin, ∀ u,
    c.before.machine.scope.get? name = some u → u ∈ c.before.tables
  result : ∃ eval position r,
    (run eval position c.builtin).exec c.before.machine = (.ok r, c.after.machine) ∧
    c.after.machine.store.table? r ≠ none ∧ c.after.tables = r :: c.before.tables

/-- The call fits the machine that it is made on. -/
def Fits (c : Call) : Prop :=
  Primitive.Fits c.builtin c.before.machine c.before.tables

theorem Made.rectangular_iff {c : Call} (h : c.Made) (hbefore : c.before.Rectangular) :
    c.after.Rectangular ↔ c.Fits := by
  obtain ⟨b, ⟨m, hm, tables⟩, ⟨m', hm', tables'⟩⟩ := c
  obtain ⟨eval, position, r, hrun, htable, htables⟩ := h.result
  have harguments := h.arguments
  have hmaker := h.maker
  dsimp only at hrun htable htables harguments hmaker
  subst htables
  have hall : ∀ u ∈ tables, m.store.IsRectangular u := hbefore
  show (∀ u ∈ r :: tables, m'.store.IsRectangular u) ↔ Primitive.Fits b m tables
  have hgiven {name} (hname : name ∈ tableParameters b) (u) (hu : m.scope.get? name = some u) :
      m.store.IsRectangular u := hall u (harguments name hname u hu)
  -- A call that only adds to the store has one table to account for, its result. `with`, `append`
  -- and `drop` edit the table that they are given and have to account for all.
  have hnew (hadds : m.store.Extends m'.store) :=
    rectangular_cons_iff (r := r) hm.store hall hadds
  cases b with
  | createTable =>
    rw [hnew ((steady_runCreateTable (K := adding) position).of_exec hrun)]
    exact rectangular_createTable_iff htable hm hrun
  | column =>
    rw [hnew ((steady_runColumn (K := adding) position).of_exec hrun)]
    exact rectangular_column_iff htable hm hrun
  | readCsv =>
    rw [hnew (extends_runReadCsv htable hrun)]
    exact rectangular_readCsv_iff htable hm hrun
  | join =>
    rw [hnew ((steady_runJoin (K := adding) position).of_exec hrun)]
    exact iff_of_true
      (isRectangular_join hm hrun htable (hgiven (by decide)) (hgiven (by decide)))
      trivial
  | «with» => exact rectangular_with_iff hm htable hall (harguments _ (by decide)) hrun
  | append => exact rectangular_append_iff hm htable hall (harguments _ (by decide)) hrun
  | select =>
    rw [hnew ((steady_runSelect (K := adding) position).of_exec hrun)]
    exact iff_of_true (isRectangular_select hm hrun (hgiven (by decide))) trivial
  | drop =>
    exact iff_of_false (not_rectangular_drop hm htable hall (harguments _ (by decide)) hrun) id
  | getColumns =>
    rw [hnew ((steady_runGetColumns (K := adding) position).of_exec hrun)]
    exact rectangular_getColumns_iff hm hrun htable (hgiven (by decide))
  | _ => exact absurd hmaker (by decide)

end Call

/-- A run with its calls. Other steps only add to the store. -/
inductive Run : Moment → List Call → Moment → Prop
  | done (x : Moment) : Run x [] x
  | other {x y z : Moment} {calls : List Call}
      (hadds : x.machine.store.Extends y.machine.store) (htables : y.tables = x.tables)
      (rest : Run y calls z) : Run x calls z
  | call {c : Call} {z : Moment} {calls : List Call} (hmade : c.Made) (rest : Run c.after calls z) :
      Run c.before (c :: calls) z

variable {x z : Moment} {calls : List Call}

theorem Moment.Rectangular.other {y : Moment} (h : x.Rectangular)
    (hadds : x.machine.store.Extends y.machine.store) (htables : y.tables = x.tables) :
    y.Rectangular := by
  intro u hu
  exact hadds.isRectangular x.closed.store (h u (htables ▸ hu))

/-- On a run from rectangular tables, all tables are rectangular after each call and at the end iff
each call fits. -/
theorem rectangular_run_iff {x z : Moment} {calls : List Call} (h : Run x calls z)
    (hx : x.Rectangular) :
    ((∀ c ∈ calls, c.after.Rectangular) ∧ z.Rectangular) ↔ ∀ c ∈ calls, c.Fits := by
  induction h with
  | done x => simpa using hx
  | other hadds htables rest ih => exact ih (hx.other hadds htables)
  | @call c z calls hmade rest ih =>
    -- The rest of the run starts from rectangular tables only if this call fits; if it does not,
    -- both sides fail here.
    rw [List.forall_mem_cons, List.forall_mem_cons, hmade.rectangular_iff hx, and_assoc]
    exact and_congr_right fun hfits => ih ((hmade.rectangular_iff hx).mpr hfits)

/-! ## A run -/

/-- A machine with a schema, two rows and the values of a column, by the names of the parameters
that they are for. -/
def namedParts : Machine :=
  let parts : EvalM Unit := do
    let members ← newMembers [.int, .int]
    bindName "schema" (← newSchema members [("a", .int), ("b", .int)])
    let rows ← [(1, 2), (3, 4)].mapM fun p => do
      newTuple (← newRowType (← newMembers [.int, .int])) [← newInt p.1, ← newInt p.2]
    bindName "rows" (← newList (.list (← newRowType members)) rows)
    bindName "name" (← newString "c")
    bindName "values" (← newList (.list .bool) [← newBool true, ← newBool false])
    bindName "names" (← newList (.list .string) [← newString "b", ← newString "b"])
  (parts.exec {}).2

/-- The machine after a call. -/
def calledOn (b : Builtin) (m : Machine) : Machine :=
  ((run (eval 1) none b).exec m).2

/-- A call at a moment, with its result. -/
def Moment.call (x : Moment) (b : Builtin) (r : Ref) (h : (calledOn b x.machine).Closed) : Call :=
  ⟨b, x, ⟨calledOn b x.machine, h, r :: x.tables⟩⟩

variable {b : Builtin} {r : Ref}

theorem Moment.call_made {h : (calledOn b x.machine).Closed} (hmaker : b ∈ tableMakers)
    (harguments : ∀ name ∈ tableParameters b, ∀ u ∈ x.machine.scope.get? name,
      u ∈ x.tables)
    (hresult : ((run (eval 1) none b).exec x.machine).1 = .ok r)
    (htable : ((calledOn b x.machine).store.table? r).isSome) : (x.call b r h).Made where
  maker := hmaker
  arguments := harguments
  result := ⟨eval 1, none, r, Prod.ext hresult rfl, Option.isSome_iff_ne_none.mp htable, rfl⟩

/-- The moment when a name has been bound. -/
def Moment.bind (x : Moment) (name : String) (r : Ref)
    (h : Machine.Closed { x.machine with scope := x.machine.scope.add name r }) : Moment :=
  ⟨_, h, x.tables⟩

theorem Run.of_bind {name : String} {h} (rest : Run (x.bind name r h) calls z) : Run x calls z := by
  refine .other ?_ ?_ rest
  · exact .refl x.machine.store
  · rfl

theorem Run.of_call {h} (hmade : (x.call b r h).Made) (rest : Run (x.call b r h).after calls z) :
    Run x (x.call b r h :: calls) z :=
  .call hmade rest

/-- The moment before any table is made. -/
def partsMoment : Moment := ⟨namedParts, by decide +kernel, []⟩

/-- The table of the schema and the rows. -/
def creation : Call :=
  partsMoment.call .createTable ⟨15⟩ (by decide +kernel)

/-- The moment after the creation, where the table is an argument. -/
def tableMoment : Moment :=
  creation.after.bind "table" ⟨15⟩ (by decide +kernel)

/-- The table with a third column. -/
def widening : Call :=
  tableMoment.call .with ⟨15⟩ (by decide +kernel)

/-- The table with its second column twice. -/
def doubling : Call :=
  tableMoment.call .getColumns ⟨19⟩ (by decide +kernel)

theorem creation_made : creation.Made :=
  Moment.call_made (by decide) (by decide +kernel) (by decide +kernel) (by decide +kernel)

/-- A column of full length fits, and the table stays rectangular. -/
theorem rectangular_run_widening :
    Run partsMoment [creation, widening] widening.after ∧ partsMoment.Rectangular ∧
      (∀ c ∈ [creation, widening], c.after.Rectangular) ∧
      ∀ c ∈ [creation, widening], c.Fits := by
  have hmade : widening.Made :=
    Moment.call_made (by decide) (by decide +kernel) (by decide +kernel) (by decide +kernel)
  have hrun : Run partsMoment [creation, widening] widening.after :=
    .of_call creation_made (.of_bind (.of_call hmade (.done _)))
  have hstart : partsMoment.Rectangular := nofun
  have hall : ∀ c ∈ [creation, widening], c.after.Rectangular := by
    unfold Moment.Rectangular
    decide +kernel
  exact ⟨hrun, hstart, hall, (rectangular_run_iff hrun hstart).mp ⟨hall, hall _ (by simp)⟩⟩

/-- A column that is named twice is there once in each row. -/
theorem not_rectangular_run_doubling :
    Run partsMoment [creation, doubling] doubling.after ∧ partsMoment.Rectangular ∧
      ¬ doubling.after.Rectangular := by
  have hmade : doubling.Made :=
    Moment.call_made (by decide) (by decide +kernel) (by decide +kernel) (by decide +kernel)
  refine ⟨.of_call creation_made (.of_bind (.of_call hmade (.done _))), nofun, ?_⟩
  unfold Moment.Rectangular
  decide +kernel

end TableScript
