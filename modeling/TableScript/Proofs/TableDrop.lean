import TableScript.Proofs.Copy
import TableScript.Proofs.TableEdits

/-!
# Dropping a column

`drop` copies the schema of a table and takes the column out of the copy. It takes the type of the
column out of the list that the table's own type has, and the cells out of the rows of the table, so
that the table itself is left with a column that it has neither a type nor cells for.
-/

namespace TableScript.Primitive

open EvalM

/-- A call to drop a column that the table has. -/
structure DropCall (m : Machine) (r : Ref) (t : TableView) (index : Nat) : Prop where
  table : m.scope.get? "table" = some r
  view : m.store.table? r = some t
  column : ∃ name type, Argument m "column" (.string name) ∧
    lastColumn? name (m.store.columnsOf t.schema) = some (index, type)

theorem runDrop_cases (position : Option Position) (m : Machine) :
    (∃ r t index, DropCall m r t index) ∨ Idle (runDrop position) m := by
  refine or_iff_not_imp_left.mpr fun hcall => ?_
  refine .argument fun r hr => .of_exec (exec_table? r m)
    (.argumentContent fun column hcolumn => ?_)
  split
  · next t name hview =>
    refine .of_exec (x := columnsOf t) rfl ?_
    split
    · exact .report _ _ _
    · next index type hlast =>
      exact absurd ⟨r, t, index, hr, hview, name, type, hcolumn, hlast⟩ hcall
  · exact .newNone _

/-- Takes a cell out of the rows of a table, and makes a table of them. -/
def dropRows (t : TableView) (members index : Nat) (schema : Ref) : EvalM Ref := do
  let row ← newRowType members
  let rows ← (← sequence t.rows).filterMapM (dropFromRow row index)
  newTable members schema rows

/-- What dropping a column comes to once the column is found. -/
def dropColumn (t : TableView) (index : Nat) : EvalM Ref := do
  let schema ← dropFromSchema t.schema index
  match t.type with
  | .table members =>
    dropMember members index
    dropRows t members index schema
  | _ => newNone

variable {m : Machine} {t : TableView} {index place : Nat} {r : Ref} {s s' : Store} {members : Nat}

theorem exec_runDrop (h : DropCall m r t index) (position : Option Position) :
    (runDrop position).exec m = (dropColumn t index).exec m := by
  obtain ⟨name, type, ⟨n, hn, hname⟩, hlast⟩ := h.column
  rw [runDrop, exec_bind_argument h.table, exec_bind_table?,
    exec_bind_argumentContent hn, h.view, hname]
  dsimp only
  rw [exec_bind_columnsOf, hlast]
  rfl

theorem exec_dropMember (members index : Nat) (m : Machine) :
    (dropMember members index).exec m =
      if index < (m.store.types.list members).length then
        (.ok (), { m with store := m.store.mapTypes (·.eraseMember members index) })
      else (.error (.fault .outOfRange), m) := by
  rw [dropMember, exec_bind_store]
  split <;> rfl

theorem lastColumn?_lt {name : String} {columns : List (String × TypeRef)} {type : TypeRef}
    (h : lastColumn? name columns = some (index, type)) : index < columns.length := by
  rw [lastColumn?, Option.map_eq_some_iff] at h
  obtain ⟨⟨c, i⟩, hlast, hpair⟩ := h
  cases hpair
  have hmem := (List.mem_filter.mp (List.mem_of_getLast? hlast)).1
  have := List.snd_lt_of_mem_zipIdx hmem
  omega

theorem DropCall.index_lt (h : DropCall m r t index) :
    index < (m.store.columnsOf t.schema).length := by
  obtain ⟨name, type, -, hlast⟩ := h.column
  exact lastColumn?_lt hlast

theorem DropCall.schema (h : DropCall m r t index) :
    ∃ place, m.store.content t.schema = .schema place := by
  have hindex := h.index_lt
  unfold Store.columnsOf at hindex
  split at hindex
  · next place hplace => exact ⟨place, hplace⟩
  · exact absurd hindex (by simp)

/-- The list of types of a schema, if it has one, has a type at the index. -/
def SchemaTypeHas (s : Store) (schema : Ref) (index : Nat) : Prop :=
  ∀ members, (s.object schema).type = .schema members → index < (s.types.list members).length

theorem getElem?_modify_of_lt {α : Type} {xs : Array α} {i j : Nat} {f : α → α}
    (h : j < i) : (xs.modify i f)[j]? = xs[j]? := by
  rw [Array.getElem?_modify, if_neg (Nat.ne_of_gt h)]

theorem extends_eraseColumn (h : s.Extends s') (hplace : s.columns.size ≤ place) (index : Nat) :
    s.Extends (s'.eraseColumn place index) := by
  refine ⟨h.objects, h.sequences, fun {i l} hi => ?_, h.types⟩
  have hlt : i < place := Nat.lt_of_lt_of_le (Array.getElem?_eq_some_iff.mp hi).1 hplace
  show (s'.columns.modify place _)[i]? = _
  rw [getElem?_modify_of_lt hlt, h.columns hi]

theorem extends_eraseMember (h : s.Extends s') (hplace : s.types.lists.size ≤ place)
    (index : Nat) :
    s.Extends (s'.mapTypes (·.eraseMember place index)) := by
  refine ⟨h.objects, h.sequences, h.columns, fun {i l} hi => ?_, h.types.cells⟩
  have hlt : i < place := Nat.lt_of_lt_of_le (Array.getElem?_eq_some_iff.mp hi).1 hplace
  show (s'.types.lists.modify place _)[i]? = _
  rw [getElem?_modify_of_lt hlt, h.types.lists hi]

/-- Takes the type at an index out of the list of a schema type. -/
def dropSchemaMember (type : TypeRef) (index : Nat) : EvalM Unit :=
  match type with
  | .schema members => dropMember members index
  | _ => pure ()

theorem exec_dropFromSchema_copy {schema : Ref} {type : TypeRef}
    (hcopy : (m.store.copy schema).2.objects[(m.store.copy schema).1.index]? =
      some ⟨type, .schema place⟩) (index : Nat) :
    (dropFromSchema schema index).exec m =
      (dropSchemaMember type index >>= fun _ => pure (m.store.copy schema).1).exec
        { m with store := (m.store.copy schema).2.eraseColumn place index } := by
  have hcontent : (m.store.copy schema).2.content (m.store.copy schema).1 = .schema place :=
    Store.content_of_getElem? hcopy
  have hobject : ((m.store.copy schema).2.eraseColumn place index).object (m.store.copy schema).1 =
      ⟨type, .schema place⟩ := Store.object_of_getElem? hcopy
  rw [dropFromSchema, exec_bind_of (exec_make _ m), exec_bind_content, hcontent]
  dsimp only
  rw [exec_bind_of (exec_change _ _), exec_bind_object]
  show (match (((m.store.copy schema).2.eraseColumn place index).object
    (m.store.copy schema).1).type with
    | .schema members => _
    | _ => _ : EvalM Ref).exec _ = _
  rw [hobject]
  cases type <;> rfl

theorem exec_dropFromSchema {schema : Ref} (hs : m.store.Sound schema.cell)
    (hschema : m.store.content schema = .schema place) (index : Nat) :
    ∃ out m', (dropFromSchema schema index).exec m = (out, m') ∧ m.store.Extends m'.store ∧
      (SchemaTypeHas m.store schema index → ∃ copy, out = .ok copy) ∧
      (¬ SchemaTypeHas m.store schema index → ∃ halt, out = .error halt) := by
  obtain ⟨type, place', hcopy, hfresh, htyped, huntyped⟩ := Store.copy_schema hs hschema
  have hexec := exec_dropFromSchema_copy hcopy index
  have hextends := extends_eraseColumn (m.store.extends_copy schema) hfresh index
  by_cases htype : ∃ members, (m.store.object schema).type = .schema members
  · obtain ⟨members, htype⟩ := htype
    obtain ⟨members', types, rfl, hfresh', hlists, htypes⟩ := htyped members htype
    have hhas : SchemaTypeHas m.store schema index ↔ index < types.length := by
      rw [htypes, SchemaTypeHas, htype]
      simp
    have hdrop := exec_dropMember members' index
      { m with store := (m.store.copy schema).2.eraseColumn place' index }
    have hlist : ((m.store.copy schema).2.eraseColumn place' index).types.list members' = types :=
      TypeStore.list_of_getElem? hlists
    rw [hlist] at hdrop
    by_cases hlt : index < types.length
    · rw [if_pos hlt] at hdrop
      exact ⟨_, _, hexec.trans (exec_bind_of hdrop), extends_eraseMember hextends hfresh' index,
        fun _ => ⟨_, rfl⟩, fun hnot => absurd (hhas.mpr hlt) hnot⟩
    · rw [if_neg hlt] at hdrop
      exact ⟨_, _, hexec.trans (exec_bind_halt hdrop), hextends,
        fun h => absurd (hhas.mp h) hlt, fun _ => ⟨_, rfl⟩⟩
  · have hne : ∀ members, (m.store.object schema).type ≠ .schema members :=
      fun members h => htype ⟨members, h⟩
    have hpure : dropSchemaMember type index = pure () := by
      cases type with
      | schema members => exact absurd rfl (huntyped hne members)
      | _ => rfl
    rw [hpure] at hexec
    exact ⟨_, _, hexec, hextends, fun _ => ⟨_, rfl⟩,
      fun hnot => absurd (fun members h => absurd h (hne members)) hnot⟩

theorem exec_dropColumn_table {m' : Machine} {schema : Ref}
    (hschema : (dropFromSchema t.schema index).exec m = (.ok schema, m'))
    (ht : t.type = .table members) :
    (dropColumn t index).exec m =
      (dropMember members index >>= fun _ => dropRows t members index schema).exec m' := by
  rw [dropColumn, exec_bind_of hschema, ht]

/-! ## What is left of the table -/

/-- Objects, columns and lists of types stay. -/
structure KeepsTypes (s s' : Store) : Prop where
  objects : ∀ {i : Nat} {o}, s.objects[i]? = some o → s'.objects[i]? = some o
  columns : ∀ {i : Nat} {l}, s.columns[i]? = some l → s'.columns[i]? = some l
  lists : ∀ {i : Nat} {l}, s.types.lists[i]? = some l → s'.types.lists[i]? = some l

instance : Std.Refl KeepsTypes := ⟨fun _ => ⟨id, id, id⟩⟩

instance : Trans KeepsTypes KeepsTypes KeepsTypes :=
  ⟨fun h h' => ⟨fun hi => h'.objects (h.objects hi), fun hi => h'.columns (h.columns hi),
    fun hi => h'.lists (h.lists hi)⟩⟩

theorem KeepsTypes.of_extends (h : s.Extends s') : KeepsTypes s s' :=
  ⟨h.objects, h.columns, h.types.lists⟩

theorem moves_dropFromRow (type : TypeRef) (index : Nat) (row : Ref) :
    (dropFromRow type index row).Moves KeepsTypes := by
  refine .bind (.content row) fun c => ?_
  split
  · refine .bind ((moves_new _ _).mono fun _ _ => .of_extends) fun dropped => ?_
    refine .bind (.sequence _) fun cells => ?_
    split
    · exact .bind (moves_make fun s => ⟨id, id, id⟩) fun _ => .pure _
    · exact .fault _
  · exact .pure _

theorem moves_dropRows (t : TableView) (members index : Nat) (schema : Ref) :
    (dropRows t members index schema).Moves KeepsTypes := by
  refine .bind ((moves_newRowType members).mono fun _ _ => .of_extends) fun row => ?_
  refine .bind (.sequence t.rows) fun rows => .bind (.filterMapM (moves_dropFromRow row index)) ?_
  exact fun rows => (moves_newTable _ _ _).mono fun _ _ => .of_extends

/-- A call to drop a column that finds it, on a table whose types can do without it. -/
structure FullDrop (m : Machine) (r : Ref) (t : TableView) (index members : Nat) : Prop where
  call : DropCall m r t index
  schemaType : SchemaTypeHas m.store t.schema index
  type : t.type = .table members
  index_lt : index < (m.store.types.list members).length

/-- Does a call drop a column? -/
def DropsColumn (m : Machine) : Prop :=
  ∃ r t index members, FullDrop m r t index members

theorem FullDrop.store_after (h : FullDrop m r t index members) (hs : m.store.Closed)
    (position : Option Position) :
    ((runDrop position).exec m).2.store.table? r = some t ∧
      ((runDrop position).exec m).2.store.columnsOf t.schema = m.store.columnsOf t.schema ∧
      ((runDrop position).exec m).2.store.types.list members =
        (m.store.types.list members).eraseIdx index := by
  have hlist := hs.members h.call.view h.type
  obtain ⟨place, hcontent⟩ := h.call.schema
  obtain ⟨out, m', hexec, hextends, hok, -⟩ :=
    exec_dropFromSchema (hs.sound (hs.schema h.call.view)) hcontent index
  obtain ⟨schema, rfl⟩ := hok h.schemaType
  have hdrop := exec_dropMember members index m'
  rw [hextends.types.list_eq hlist, if_pos h.index_lt] at hdrop
  rw [exec_runDrop h.call position, exec_dropColumn_table hexec h.type, exec_bind_of hdrop]
  have hkeeps := moves_dropRows t members index schema
    { m' with store := m'.store.mapTypes (·.eraseMember members index) }
  have hobjects {i o} (hi : m.store.objects[i]? = some o) := hkeeps.objects (hextends.objects hi)
  refine ⟨?_, ?_, ?_⟩
  · have hget := Array.getElem?_eq_getElem (Store.has_of_table? h.call.view)
    rw [Store.table?_eq_some, Store.object_of_getElem? (hobjects hget),
      ← Store.object_of_getElem? hget]
    exact Store.table?_eq_some.mp h.call.view
  · exact hs.columnsOf_eq (hs.schema h.call.view) hobjects
      fun hi => hkeeps.columns (hextends.columns hi)
  · refine TypeStore.list_of_getElem? (hkeeps.lists ?_)
    show (m'.store.types.lists.modify members (·.eraseIdx index))[members]? = _
    have hget := Array.getElem?_eq_getElem hlist
    rw [Array.getElem?_modify, if_pos rfl, hextends.types.lists hget,
      TypeStore.list_of_getElem? hget]
    rfl

end TableScript.Primitive
