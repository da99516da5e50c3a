import TableScript.Primitive.File
import TableScript.Proofs.Rectangular

/-!
# Tables of rows, of lists and of files

When a table that is made of other values than tables is rectangular.

* A table of a schema and a list of rows: if the type of the schema goes with its columns, and each
  row has as many cells as there are columns. That the cells go into the columns is checked, but
  only up to the end of the shorter one.
* A table of one column: if the type of each value conforms to that of the first one.
* A table of a file: if each line has as many fields as there are columns.
-/

namespace TableScript

variable {cell row schema : Ref} {lines : List (List String)} {members : Nat}

namespace Primitive

open EvalM

variable {m m' : Machine} {position : Option Position} {r : Ref}

/-- The type of a schema has as many types as there are columns. -/
def SchemaFits (s : Store) (schema : Ref) : Prop :=
  ∃ members, (s.object schema).type = .schema members ∧
    (s.types.list members).length = (s.columnsOf schema).length

/-! ## Rows -/

variable {columns : List (String × TypeRef)} {type : TypeRef}

theorem exec_rowsConform_ok {rows : List Ref} {b : Bool}
    (h : (rowsConform position columns rows).exec m = (.ok b, m')) :
    m' = m ∧ (b = true → ∀ row ∈ rows, ∀ cells, m.store.cells? row = some cells →
      CellsFit m.store cells columns) := by
  induction rows with
  | nil =>
    cases h
    exact ⟨rfl, fun _ => nofun⟩
  | cons row rows ih =>
    rw [rowsConform, exec_bind_cells?] at h
    cases hcells : m.store.cells? row with
    | none =>
      rw [hcells] at h
      obtain ⟨hm, hall⟩ := ih h
      refine ⟨hm, fun hb => List.forall_mem_cons.mpr ⟨fun cells hc => ?_, hall hb⟩⟩
      rw [hcells] at hc
      cases hc
    | some cells =>
      rw [hcells] at h
      obtain ⟨fits, m₁, hconform, h⟩ := exec_bind_ok h
      obtain ⟨rfl, hfit, -⟩ := exec_cellsConform_ok hconform
      cases fits with
      | false =>
        cases h
        exact ⟨rfl, fun hb => absurd hb (by simp)⟩
      | true =>
        obtain ⟨hm, hall⟩ := ih h
        refine ⟨hm, fun hb => List.forall_mem_cons.mpr ⟨fun cells' hc => ?_, hall hb⟩⟩
        rw [hcells] at hc
        cases hc
        exact hfit rfl

/-- A table of a schema and a list of rows. -/
structure CreateCall (m : Machine) (t : TableView) : Prop where
  schema : m.scope.get? "schema" = some t.schema
  rows : Argument m "rows" (.list t.rows)
  type : ∃ members place, m.store.object t.schema = ⟨.schema members, .schema place⟩ ∧
    t.type = .table members
  cells : m.store.CellsConform t

variable {t : TableView} {name : String} {header : Bool}

theorem CreateCall.unique {t' : TableView} (h : CreateCall m t) (h' : CreateCall m t') :
    t = t' := by
  obtain ⟨type, schema, rows⟩ := t
  obtain ⟨type', schema', rows'⟩ := t'
  obtain ⟨members, place, hobject, rfl⟩ := h.type
  obtain ⟨members', place', hobject', rfl⟩ := h'.type
  have hschema : schema = schema' := Option.some.inj (h.schema.symm.trans h'.schema)
  subst hschema
  cases hobject.symm.trans hobject'
  cases h.rows.unique h'.rows
  rfl

theorem exec_runCreateTable_ok (h : (runCreateTable position).exec m = (.ok r, m'))
    (htable : m'.store.table? r ≠ none) :
    ∃ t, CreateCall m t ∧ m.store.Extends m'.store ∧ m'.store.table? r = some t := by
  have hadds := (steady_runCreateTable (K := adding) position).of_exec h
  obtain ⟨schema, hschema, h⟩ := exec_argument_bind h
  obtain ⟨rows, hrows, h⟩ := exec_argument_bind h
  rw [exec_bind_object, exec_bind_content] at h
  split at h
  · next place source hplace hcontent =>
    rw [exec_bind_store, exec_bind_sequence] at h
    obtain ⟨b, m₁, hconform, h⟩ := exec_bind_ok h
    obtain ⟨rfl, hfit⟩ := exec_rowsConform_ok hconform
    split at h
    · next hb =>
      split at h
      · next members htype =>
        cases h
        refine ⟨⟨.table members, schema, source⟩, ⟨hschema, ⟨rows, hrows, hcontent⟩,
          ⟨members, place, by rw [← htype, ← hplace], rfl⟩, ?_⟩, hadds, ?_⟩
        · show ∀ row ∈ _, ∀ cells, _ → CellsFit _ cells (Store.columnsOf _ schema)
          rw [Store.columnsOf, Store.content, hplace]
          exact hfit hb
        · exact Store.table?_eq_some.mpr (Store.object_of_getElem? Array.getElem?_push_size)
      · exact absurd (newNone_table? h) htable
    · exact absurd (newNone_table? h) htable
  · exact absurd (newNone_table? h) htable

theorem isRectangular_createTable_iff (hm : m.Closed) (hcall : CreateCall m t)
    (hadds : m.store.Extends m'.store) (ht : m'.store.table? r = some t) :
    m'.store.IsRectangular r ↔ SchemaFits m.store t.schema ∧
      ∀ row ∈ m.store.sequence t.rows,
        m.store.IsWide row (m.store.columnsOf t.schema).length := by
  obtain ⟨members, place, hobject, htype⟩ := hcall.type
  obtain ⟨rows, hget, hrows⟩ := hcall.rows
  have hschema := hm.scope.has (mem_names_of_get? hcall.schema)
  have hmembers : ∀ c ∈ t.type.cells, m.store.Has c := by
    have := hm.store.type hschema
    rw [hobject] at this
    rwa [htype]
  have hhas : m.store.Has (.sequence t.rows) := by
    refine hm.store.content (hm.scope.has (mem_names_of_get? hget)) _ ?_
    rw [hrows]
    exact List.mem_singleton_self _
  rw [Store.isRectangular_iff ht, hadds.rectangular_iff hm.store hmembers hschema hhas,
    Store.rectangular_iff]
  constructor
  · rintro ⟨⟨members', htype', hlength⟩, hwide, -⟩
    rw [htype] at htype'
    cases htype'
    exact ⟨⟨members, by rw [hobject], hlength⟩, hwide⟩
  · rintro ⟨⟨members', htype', hlength⟩, hwide⟩
    rw [hobject] at htype'
    cases htype'
    exact ⟨⟨members, htype, hlength⟩, hwide, hcall.cells⟩

/-! ## Lists -/

/-- A list of values that is not empty, and a name. -/
structure ColumnCall (m : Machine) (name : String) (first : Ref) (rest : List Ref) : Prop where
  name : Argument m "name" (.string name)
  values : ∃ place, Argument m "list" (.list place) ∧ m.store.sequence place = first :: rest
  first : (m.store.content first).isEntry = false

theorem ColumnCall.unique {name' : String} {first first' : Ref} {rest rest' : List Ref}
    (h : ColumnCall m name first rest) (h' : ColumnCall m name' first' rest') :
    first :: rest = first' :: rest' := by
  obtain ⟨place, hlist, hvalues⟩ := h.values
  obtain ⟨place', hlist', hvalues'⟩ := h'.values
  cases hlist.unique hlist'
  rw [← hvalues, hvalues']

/-- A row of one cell, with a type of its own. -/
def singleRow (type : TypeRef) (cell : Ref) : EvalM Ref := do
  newTuple (← newRowType (← newMembers [type])) [cell]

/-- A table of one column. -/
def columnTable (name : String) (type : TypeRef) (values : List Ref) : EvalM Ref := do
  let members ← newMembers [type]
  let schema ← newSchema members [(name, type)]
  let rows ← values.mapM (singleRow type)
  newTable members schema rows

theorem exec_runColumn_ok (h : (runColumn position).exec m = (.ok r, m'))
    (htable : m'.store.table? r ≠ none) :
    ∃ name first rest, ColumnCall m name first rest ∧
      (columnTable name (m.store.object first).type (first :: rest)).exec m = (.ok r, m') := by
  obtain ⟨list, hlist, h⟩ := exec_argumentContent_bind h
  obtain ⟨name, hname, h⟩ := exec_argumentContent_bind h
  split at h
  · next place name _ =>
    rw [exec_bind_sequence] at h
    split at h
    · exact absurd h report_ne_ok
    · next first rest hvalues =>
      obtain ⟨type, m₁, htype, h⟩ := exec_bind_ok h
      obtain ⟨hfirst, rfl, rfl⟩ := exec_typeOf_ok htype
      exact ⟨name, first, rest, ⟨hname, ⟨place, hlist, hvalues⟩, hfirst⟩, h⟩
  · exact absurd (newNone_table? h) htable

theorem moves_singleRow (type : TypeRef) (cell : Ref) :
    (singleRow type cell).Moves Store.Extends :=
  .bind (moves_newMembers _) fun _ => .bind (moves_newRowType _) fun _ => moves_newTuple _ _

theorem exec_singleRow_ok (h : (singleRow type cell).exec m = (.ok row, m')) :
    m'.store.TupleAt row [cell] := by
  obtain ⟨members, m₁, -, h⟩ := exec_bind_ok h
  obtain ⟨rowType, m₂, -, h⟩ := exec_bind_ok h
  exact (exec_newTuple_ok h).2

theorem cellsFit_singleton {s : Store} {column : String × TypeRef} :
    CellsFit s [cell] [column] ↔ CellFits s cell column.2 := by
  refine ⟨fun h => h (cell, column) (List.mem_singleton_self _), fun h p hp => ?_⟩
  rw [List.mem_singleton.mp hp]
  exact h

theorem isRectangular_columnTable_iff {values : List Ref} (hm : m.store.Closed)
    (htype : ∀ c ∈ type.cells, m.store.Has c) (hvalues : ∀ v ∈ values, m.store.Has v.cell)
    (h : (columnTable name type values).exec m = (.ok r, m')) :
    m'.store.IsRectangular r ↔ ∀ v ∈ values, CellFits m.store v type := by
  obtain ⟨members, m₁, hmembers, h⟩ := exec_bind_ok h
  obtain ⟨hadds₁, htypes⟩ := exec_newMembers_ok hmembers
  obtain ⟨schema, m₂, hschema, h⟩ := exec_bind_ok h
  obtain ⟨hadds₂, hcolumns⟩ := exec_newSchema_ok hschema
  obtain ⟨rows, m₃, hrows, h⟩ := exec_bind_ok h
  have hadds₃ := (Moves.mapM (moves_singleRow type)).of_exec hrows
  have hadds₄ := (exec_newTable_ok h).1
  have hadds := hadds₁.trans (hadds₂.trans (hadds₃.trans hadds₄))
  obtain ⟨results, rfl, rfl, hresults⟩ := exec_mapM_ok (P := fun v row s => s.TupleAt row [v])
    (moves_singleRow type) (fun hext htuple => hext.tupleAt htuple)
    (fun v _ _ _ _ _ hexec => exec_singleRow_ok hexec) hrows
  rw [isRectangular_newTable h (hadds₃.types.lists (hadds₂.types.lists htypes))
    (hadds₃.columnsAt hcolumns), List.length_singleton, List.length_singleton, and_iff_right rfl]
  simp only [List.forall_mem_map]
  refine forall₂_congr fun p hp => ?_
  -- Whether the value conforms is the same before and after: its type is in the store already.
  rw [(hadds₄.tupleAt (hresults p hp)).cells?,
    ← hadds.cellFits_iff hm (hvalues _ (List.mem_map_of_mem hp)) htype]
  simp [cellsFit_singleton]

/-! ## Files -/

/-- The lines of a file that hold rows. -/
def FileLines (m : Machine) (path : Path) (header : Bool) (lines : List (List String)) : Prop :=
  ∃ file all, m.disk.read path = .ok file ∧ Csv.parse (Text.unifyNewlines file) = .ok all ∧
    lines = if header then all.tail else all

/-- A schema, and a file with these lines. -/
structure ReadCall (m : Machine) (schema : Ref) (lines : List (List String)) : Prop where
  given : m.scope.get? "schema" = some schema
  type : ∃ members place, m.store.object schema = ⟨.schema members, .schema place⟩
  lines : ∃ name header, Argument m "path" (.string name) ∧
    Argument m "header" (.bool header) ∧ FileLines m (csvPath m.confinement name) header lines

theorem ReadCall.unique {schema' : Ref} {lines' : List (List String)}
    (h : ReadCall m schema lines) (h' : ReadCall m schema' lines') :
    schema = schema' ∧ lines = lines' := by
  refine ⟨Option.some.inj (h.given.symm.trans h'.given), ?_⟩
  obtain ⟨name, header, hname, hheader, file, all, hfile, hall, rfl⟩ := h.lines
  obtain ⟨name', header', hname', hheader', file', all', hfile', hall', rfl⟩ := h'.lines
  cases hname.unique hname'
  cases hheader.unique hheader'
  cases hfile.symm.trans hfile'
  cases hall.symm.trans hall'
  rfl

/-- A table of the rows in lines. -/
def linesTable (position : Option Position) (schema : Ref) (columns : List (String × TypeRef))
    (members : Nat) (lines : List (List String)) : EvalM Ref := do
  let row ← newRowType members
  let rows ← lines.filterMapM (readRow position row columns)
  newTable members schema rows

theorem table?_linesTable
    (h : (linesTable position schema columns members lines).exec m = (.ok r, m')) :
    m'.store.table? r ≠ none := by
  obtain ⟨type, m₁, -, h⟩ := exec_bind_ok h
  obtain ⟨rows, m₂, -, h⟩ := exec_bind_ok h
  obtain ⟨-, place, htable, -⟩ := exec_newTable_ok h
  simp [htable]

theorem exec_readTable_iff {path : Path} :
    (readTable position schema path header).exec m = (.ok r, m') ∧ m'.store.table? r ≠ none ↔
      ∃ file first rest members, m.disk.read path = .ok file ∧
        Csv.parse (Text.unifyNewlines file) = .ok (first :: rest) ∧
        (m.store.object schema).type = .schema members ∧
        (header → headerMatches first (m.store.columnsOf schema)) ∧
        (linesTable position schema (m.store.columnsOf schema) members
          (if header then rest else first :: rest)).exec m = (.ok r, m') := by
  have hofExcept {α : Type} (a : α) : (ofExcept (.ok a)).exec m = (.ok a, m) := rfl
  rw [readTable, exec_bind_get]
  cases m.disk.read path with
  | error f => exact iff_of_false (fun h => by cases h.1) (by simp)
  | ok file =>
    rw [exec_bind_of (hofExcept file)]
    cases hparse : Csv.parse (Text.unifyNewlines file) with
    | error f => exact iff_of_false (fun h => by cases h.1) (by simp [hparse])
    | ok all =>
      rw [exec_bind_of (hofExcept all), exec_bind_store]
      dsimp only
      rw [exec_bind_object]
      split
      · next members first rest htype =>
        split
        · exact iff_of_false (fun h => report_ne_ok h.1) (by simp_all)
        · next hmatch =>
          constructor
          · rintro ⟨h, -⟩
            exact ⟨file, first, rest, members, rfl, hparse, htype, by simpa using hmatch, h⟩
          · rintro ⟨_, _, _, _, ⟨⟩, hall, hmembers, -, h⟩
            cases hparse.symm.trans hall
            cases htype.symm.trans hmembers
            exact ⟨h, table?_linesTable h⟩
      · next hother =>
        refine iff_of_false (fun h => h.2 (newNone_table? h.1)) ?_
        rintro ⟨_, first, rest, members, ⟨⟩, hall, hmembers, -⟩
        cases hparse.symm.trans hall
        exact hother _ _ _ hmembers rfl

theorem exec_runReadCsv_iff {place : Nat} (hschema : m.scope.get? "schema" = some schema)
    (hcontent : m.store.content schema = .schema place) (hname : Argument m "path" (.string name))
    (hheader : Argument m "header" (.bool header)) :
    (runReadCsv position).exec m = (.ok r, m') ↔
      (readTable position schema (csvPath m.confinement name) header).exec m = (.ok r, m') := by
  obtain ⟨nameRef, hnameRef, hnameContent⟩ := hname
  obtain ⟨headerRef, hheaderRef, hheaderContent⟩ := hheader
  rw [runReadCsv, exec_bind_argument hschema, exec_bind_argumentContent hnameRef,
    exec_bind_argumentContent hheaderRef, exec_bind_content, hnameContent, hheaderContent, hcontent]
  dsimp only
  rw [exec_bind_get, exec_tryCatch]
  rcases (readTable position schema (csvPath m.confinement name) header).exec m with
    ⟨halt | a, m₁⟩
  · refine iff_of_false ?_ fun h => by cases h
    unfold readFailure
    dsimp only
    split <;> exact report_ne_ok
  · rfl

theorem exec_runReadCsv_ok (h : (runReadCsv position).exec m = (.ok r, m'))
    (htable : m'.store.table? r ≠ none) :
    ∃ schema lines members, ReadCall m schema lines ∧
      (m.store.object schema).type = .schema members ∧
      (linesTable position schema (m.store.columnsOf schema) members lines).exec m =
        (.ok r, m') := by
  have hexec := h
  obtain ⟨schema, hschema, h⟩ := exec_argument_bind h
  obtain ⟨name, hname, h⟩ := exec_argumentContent_bind h
  obtain ⟨header, hheader, h⟩ := exec_argumentContent_bind h
  rw [exec_bind_content] at h
  split at h
  · next place name header hcontent _ =>
    obtain ⟨file, first, rest, members, hfile, hall, htype, -, hlines⟩ := exec_readTable_iff.mp
      ⟨(exec_runReadCsv_iff hschema hcontent hname hheader).mp hexec, htable⟩
    refine ⟨schema, _, members, ⟨hschema, ⟨members, place, ?_⟩, name, header, hname,
      hheader, file, _, hfile, hall, rfl⟩, htype, hlines⟩
    rw [← htype, ← hcontent]
    rfl
  · exact absurd (newNone_table? h) htable

theorem moves_linesTable (schema : Ref) (columns : List (String × TypeRef)) (members : Nat)
    (lines : List (List String)) :
    (linesTable position schema columns members lines).Moves Store.Extends :=
  .bind (moves_newRowType members) fun type =>
    .bind (.filterMapM (steady_readRow (K := adding) _ type columns)) fun _ => moves_newTable _ _ _

/-- The types of the values that fields stand for. -/
def IsFieldType : TypeRef → Prop
  | .none | .int | .bool | .string => True
  | _ => False

end Primitive

/-- The value that a field stands for. -/
def fieldObject? (field : String) : Option Object :=
  if field.isEmpty then some ⟨.none, .none⟩
  else if Text.isNumericWord field then
    match Text.readNumeral field with
    | .ok n => some ⟨.int, .int n⟩
    | .error _ => none
  else if field == "true" then some ⟨.bool, .bool true⟩
  else if field == "false" then some ⟨.bool, .bool false⟩
  else some ⟨.string, .string field⟩

namespace Store

variable {s s' : Store} {cells : List Ref} {objects : List Object}

/-- Cells with these values. -/
def CellsAt (s : Store) (cells : List Ref) (objects : List Object) : Prop :=
  cells.map (s.objects[·.index]?) = objects.map some

theorem CellsAt.object (h : s.CellsAt cells objects) (hcell : cell ∈ cells) :
    ∃ o ∈ objects, s.objects[cell.index]? = some o := by
  obtain ⟨o, ho, hobject⟩ := List.mem_map.mp (h ▸ List.mem_map_of_mem hcell)
  exact ⟨o, ho, hobject.symm⟩

theorem Extends.cellsAt (h : s.Extends s') (hcells : s.CellsAt cells objects) :
    s'.CellsAt cells objects := by
  rw [CellsAt, ← hcells]
  refine List.map_congr_left fun cell hcell => ?_
  obtain ⟨o, -, ho⟩ := hcells.object hcell
  rw [ho, h.objects ho]

/-- A row of the values that fields stand for. -/
def LineAt (s : Store) (fields : List String) (row : Ref) : Prop :=
  ∃ cells objects, s.TupleAt row cells ∧ fields.map fieldObject? = objects.map some ∧
    s.CellsAt cells objects

theorem Extends.lineAt (h : s.Extends s') {fields : List String} (hrow : s.LineAt fields row) :
    s'.LineAt fields row := by
  obtain ⟨cells, objects, htuple, hfields, hcells⟩ := hrow
  exact ⟨cells, objects, h.tupleAt htuple, hfields, h.cellsAt hcells⟩

end Store

namespace Primitive

open EvalM

variable {m m' : Machine} {position : Option Position} {r : Ref}
  {columns : List (String × TypeRef)} {type : TypeRef} {field : String} {fields : List String}

theorem exec_fieldValue_object (h : (fieldValue field).exec m = (.ok cell, m')) :
    ∃ o, fieldObject? field = some o ∧ m'.store.objects[cell.index]? = some o := by
  unfold fieldValue at h
  unfold fieldObject?
  cases hn : Text.readNumeral field <;> rw [hn] at h <;> split_ifs at h ⊢ <;> cases h <;>
    exact ⟨_, rfl, Array.getElem?_push_size⟩

theorem isFieldType_of_fieldObject? {o : Object} (h : fieldObject? field = some o) :
    IsFieldType o.type ∧ o.content.isEntry = false := by
  unfold fieldObject? at h
  cases hn : Text.readNumeral field <;> rw [hn] at h <;> split_ifs at h <;> cases h <;>
    exact ⟨trivial, rfl⟩

theorem conform_ne_absent {a : PlacedType}
    (h : a = .none ∨ a = .int ∨ a = .bool ∨ a = .string) (b : PlacedType) :
    a.conform b ≠ .absent := by
  intro hab
  rcases h with rfl | rfl | rfl | rfl <;> cases b with
  | union mark members =>
    change (if _ then _ else _) = _ at hab
    split at hab <;> cases hab
  | _ => cases hab

theorem conform?_ne_absent {s : TypeStore} {expected : TypeRef} (h : IsFieldType type) :
    s.conform? type expected ≠ some .absent := by
  intro hconform
  obtain ⟨-, -, hconform⟩ := TypeStore.conform?_eq_some.mp hconform
  have hread : s.read type = .none ∨ s.read type = .int ∨ s.read type = .bool ∨
      s.read type = .string := by
    cases type <;> first
      | exact h.elim
      | simp [TypeStore.read, TypeStore.readTo, TypeStore.readWith]
  rw [Shape.conform?] at hconform
  split at hconform
  · exact conform_ne_absent hread _ (Option.some.inj hconform)
  · cases hconform

/-- A row of these fields, the cells of which go into the columns. -/
def RowOf (columns : List (String × TypeRef)) (fields : List String) (row : Ref) (s : Store) :
    Prop :=
  ∃ cells, s.TupleAt row cells ∧ cells.length = fields.length ∧ CellsFit s cells columns ∧
    ∀ cell ∈ cells, s.Has cell.cell

theorem RowOf.extends {s s' : Store} (hadds : s.Extends s') (h : RowOf columns fields row s) :
    RowOf columns fields row s' := by
  obtain ⟨cells, htuple, hlength, hfit, hhas⟩ := h
  exact ⟨cells, hadds.tupleAt htuple, hlength, hadds.cellsFit hhas hfit,
    fun cell hcell => hadds.has_object (hhas cell hcell)⟩

theorem exec_mapM_fieldValue_ok {cells : List Ref}
    (h : (fields.mapM fieldValue).exec m = (.ok cells, m')) :
    ∃ objects, fields.map fieldObject? = objects.map some ∧ m'.store.CellsAt cells objects := by
  obtain ⟨results, rfl, rfl, hresults⟩ := exec_mapM_ok
    (P := fun field cell s => ∃ o, fieldObject? field = some o ∧
      s.objects[cell.index]? = some o)
    (steady_fieldValue (K := adding))
    (fun hext => Exists.imp fun _ ho => ⟨ho.1, hext.objects ho.2⟩)
    (fun _ _ _ _ _ _ hexec => exec_fieldValue_object hexec) h
  clear h
  induction results with
  | nil => exact ⟨[], rfl, rfl⟩
  | cons p results ih =>
    obtain ⟨⟨o, hfield, hcell⟩, hrest⟩ := List.forall_mem_cons.mp hresults
    obtain ⟨objects, hfields, hcells⟩ := ih hrest
    refine ⟨o :: objects, ?_, ?_⟩
    · rw [List.map_cons, List.map_cons, List.map_cons, hfield, hfields]
    · rw [Store.CellsAt, List.map_cons, List.map_cons, List.map_cons, hcell, hcells]

theorem isFieldType_of_mem {objects : List Object}
    (h : fields.map fieldObject? = objects.map some) :
    ∀ o ∈ objects, IsFieldType o.type ∧ o.content.isEntry = false := by
  intro o ho
  obtain ⟨field, -, hfield⟩ := List.mem_map.mp (h ▸ List.mem_map_of_mem (f := some) ho)
  exact isFieldType_of_fieldObject? hfield

theorem exec_readRow_ok {b : Option Ref}
    (h : (readRow position type columns fields).exec m = (.ok b, m')) :
    ∃ row, b = some row ∧ m'.store.LineAt fields row ∧ RowOf columns fields row m'.store := by
  obtain ⟨cells, m₁, hcells, h⟩ := exec_bind_ok h
  obtain ⟨objects, hobjects, hcells⟩ := exec_mapM_fieldValue_ok hcells
  obtain ⟨fits, m₂, hconform, h⟩ := exec_bind_ok h
  obtain ⟨rfl, hfit, habsent⟩ := exec_cellsConform_ok hconform
  cases fits with
  | false =>
    -- A row is left out only if the check of a cell finds no type, and no field has such a cell:
    -- a field that does not conform is an error, and the run has halted there.
    obtain ⟨cell, hcell, column, -, hconform⟩ := habsent rfl
    obtain ⟨o, ho, hobject⟩ := hcells.object hcell
    rw [Store.object_of_getElem? hobject] at hconform
    exact absurd hconform (conform?_ne_absent (isFieldType_of_mem hobjects o ho).1)
  | true =>
    obtain ⟨row, htuple, rfl⟩ := exec_map_ok h
    obtain ⟨hadds, htuple⟩ := exec_newTuple_ok htuple
    have hhas : ∀ cell ∈ cells, m₂.store.Has cell.cell := by
      intro cell hcell
      obtain ⟨o, -, hobject⟩ := hcells.object hcell
      exact (Array.getElem?_eq_some_iff.mp hobject).1
    have hlength : cells.length = fields.length := by
      simpa using (congrArg List.length hcells).trans (congrArg List.length hobjects).symm
    exact ⟨row, rfl, ⟨cells, objects, htuple, hobjects, hadds.cellsAt hcells⟩, cells, htuple,
      hlength, hadds.cellsFit hhas (hfit rfl),
        fun cell hcell => hadds.has_object (hhas cell hcell)⟩

theorem isRectangular_linesTable_iff {types : List TypeRef}
    (htypes : m.store.types.lists[members]? = some types)
    (hcolumns : m.store.ColumnsAt schema columns)
    (h : (linesTable position schema columns members lines).exec m = (.ok r, m')) :
    m'.store.IsRectangular r ↔
      types.length = columns.length ∧ ∀ line ∈ lines, line.length = columns.length := by
  obtain ⟨type, m₁, htype, h⟩ := exec_bind_ok h
  obtain ⟨rows, m₂, hrows, h⟩ := exec_bind_ok h
  have hadds := ((moves_newRowType members).of_exec htype).trans
    ((Moves.filterMapM (steady_readRow (K := adding) _ type columns)).of_exec hrows)
  have hadds' := (exec_newTable_ok h).1
  obtain ⟨hcovered, hmade⟩ := exec_filterMapM_all (P := RowOf columns)
    (steady_readRow (K := adding) _ type columns) RowOf.extends
    (fun _ _ _ _ _ _ hexec => (exec_readRow_ok hexec).imp fun _ hrow => ⟨hrow.1, hrow.2.2⟩)
      hrows
  rw [isRectangular_newTable h (hadds.types.lists htypes) (hadds.columnsAt hcolumns)]
  -- The cells of a line were checked when it was read, as far as there are columns for them. What
  -- is left is whether there are as many.
  refine and_congr_right fun _ => ⟨fun hfit line hline => ?_, fun hwide row hrow => ?_⟩
  · obtain ⟨row, hrow, cells, htuple, hlength, -⟩ := hcovered line hline
    obtain ⟨cells', hcells', hwidth, -⟩ := hfit row hrow
    rw [(hadds'.tupleAt htuple).cells?] at hcells'
    cases hcells'
    rw [← hlength, hwidth]
  · obtain ⟨line, hline, hrow⟩ := hmade row hrow
    obtain ⟨cells, htuple, hlength, hfit, -⟩ := hrow.extends hadds'
    exact ⟨cells, htuple.cells?, hlength.trans (hwide line hline), hfit⟩

end Primitive

end TableScript
