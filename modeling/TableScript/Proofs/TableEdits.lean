import TableScript.Proofs.TableViews

/-!
# Edits of tables

The edits that the built-in functions on tables make. `Store.extendSchema` and `Store.extendRow` are
the edits of adding a column, and `Store.Grows` is what such edits do: sequences and lists of types
get longer, and nothing else happens to them.
-/

namespace TableScript

/-! ## Edits -/

variable {s' : Store} {i : Nat} {a : Array Ref}

namespace Store

/-- Adds a type to the type of a row. -/
def extendRowType (s : Store) (type : TypeRef) (row : Ref) : Store :=
  match s.rowMembers? row with
  | some place => s.mapTypes (·.appendMember place type)
  | none => s

/-- Adds a cell to a row. -/
def extendCells (s : Store) (value row : Ref) : Store :=
  match s.rowCells? row with
  | some place => s.appendElement place value
  | none => s

/-- Adds a cell to a row, and its type to the type of the row. -/
def extendRow (s : Store) (type : TypeRef) (value row : Ref) : Store :=
  (s.extendRowType type row).extendCells value row

/-- Adds a column to a schema. -/
def extendColumns (s : Store) (schema : Ref) (column : String × TypeRef) : Store :=
  match s.content schema with
  | .schema place => s.appendColumn place column
  | _ => s

/-- Adds a column to the type of a table and to its schema. -/
def extendSchema (s : Store) (t : Primitive.TableView) (name : String) (type : TypeRef) : Store :=
  match t.type with
  | .table members =>
    (s.mapTypes (·.appendMember members type)).extendColumns t.schema (name, type)
  | _ => s

/-- Sequences and lists of types get longer, and nothing else happens to them. -/
structure Grows (s s' : Store) : Prop where
  objects : ∀ {i : Nat} {o}, s.objects[i]? = some o → s'.objects[i]? = some o
  sequences : ∀ {i : Nat} {a}, s.sequences[i]? = some a →
    ∃ b, s'.sequences[i]? = some (a ++ b)
  lists : ∀ {i : Nat} {l}, s.types.lists[i]? = some l →
    ∃ l', s'.types.lists[i]? = some (l ++ l')

variable (s : Store)

theorem Grows.refl : s.Grows s :=
  ⟨id, fun h => ⟨#[], by rw [h, Array.append_empty]⟩,
    fun h => ⟨[], by rw [h, List.append_nil]⟩⟩

theorem Grows.trans {s s'' : Store} (h : s.Grows s') (h' : s'.Grows s'') : s.Grows s'' := by
  refine ⟨fun hi => h'.objects (h.objects hi), fun hi => ?_, fun hi => ?_⟩
  · obtain ⟨b, hb⟩ := h.sequences hi
    obtain ⟨c, hc⟩ := h'.sequences hb
    exact ⟨b ++ c, by rw [hc, Array.append_assoc]⟩
  · obtain ⟨l, hl⟩ := h.lists hi
    obtain ⟨l', hl'⟩ := h'.lists hl
    exact ⟨l ++ l', by rw [hl', List.append_assoc]⟩

theorem grows_appendMember (place : Nat) (t : TypeRef) :
    s.Grows (s.mapTypes (·.appendMember place t)) := by
  refine ⟨id, (Grows.refl s).sequences, fun {i l} hi => ?_⟩
  show ∃ l', (s.types.lists.modify place (· ++ [t]))[i]? = some (l ++ l')
  rw [Array.getElem?_modify, hi]
  split
  · exact ⟨[t], rfl⟩
  · exact ⟨[], by rw [List.append_nil]⟩

theorem grows_appendElement (place : Nat) (r : Ref) : s.Grows (s.appendElement place r) := by
  refine ⟨id, fun {i a} hi => ?_, (Grows.refl s).lists⟩
  show ∃ b, (s.sequences.modify place (·.push r))[i]? = some (a ++ b)
  rw [Array.getElem?_modify, hi]
  split
  · exact ⟨#[r], rfl⟩
  · exact ⟨#[], by rw [Array.append_empty]⟩

section

variable (type : TypeRef) (value row : Ref)

theorem grows_extendRow : s.Grows (s.extendRow type value row) := by
  have htype : s.Grows (s.extendRowType type row) := by
    unfold extendRowType
    split
    · exact grows_appendMember s _ type
    · exact .refl s
  refine htype.trans ?_
  unfold extendRow extendCells
  split
  · exact grows_appendElement _ _ _
  · exact .refl _

/-! ## Rows in turn -/

theorem objects_extendRow : (s.extendRow type value row).objects = s.objects := by
  unfold extendRow extendCells extendRowType
  split <;> split <;> rfl

theorem typeCells_extendRow : (s.extendRow type value row).types.cells = s.types.cells := by
  unfold extendRow extendCells extendRowType
  split <;> split <;> rfl

theorem columns_extendRow : (s.extendRow type value row).columns = s.columns := by
  unfold extendRow extendCells extendRowType
  split <;> split <;> rfl

end

theorem content_eq_of_objects {s : Store} (h : s'.objects = s.objects) (r : Ref) :
    s'.content r = s.content r := by
  rw [content, content, object, object, h]

theorem rowCells?_eq_of_objects {s : Store} (h : s'.objects = s.objects) (row : Ref) :
    s'.rowCells? row = s.rowCells? row := by
  rw [rowCells?, rowCells?, content_eq_of_objects h]

theorem rowMembers?_eq_of_objects {s : Store} (h : s'.objects = s.objects)
    (hcells : s'.types.cells = s.types.cells) (row : Ref) :
    s'.rowMembers? row = s.rowMembers? row := by
  rw [rowMembers?, rowMembers?, object, object, h]
  simp only [TypeStore.cell, hcells]

theorem sequences_extendRow (type : TypeRef) (value row : Ref) (i : Nat) :
    (s.extendRow type value row).sequences[i]? =
      if s.rowCells? row = some i then (s.sequences[i]?).map (·.push value)
      else s.sequences[i]? := by
  have hobjects : (s.extendRowType type row).objects = s.objects := by
    unfold extendRowType
    split <;> rfl
  have hsequences : (s.extendRowType type row).sequences = s.sequences := by
    unfold extendRowType
    split <;> rfl
  unfold extendRow extendCells
  rw [rowCells?_eq_of_objects hobjects]
  cases s.rowCells? row with
  | none => simp [hsequences]
  | some place =>
    show ((s.extendRowType type row).sequences.modify place (·.push value))[i]? = _
    rw [hsequences, Array.getElem?_modify]
    simp

theorem lists_extendRow (type : TypeRef) (value row : Ref) (i : Nat) :
    (s.extendRow type value row).types.lists[i]? =
      if s.rowMembers? row = some i then (s.types.lists[i]?).map (· ++ [type])
      else s.types.lists[i]? := by
  have hlists : (s.extendRow type value row).types.lists =
      (s.extendRowType type row).types.lists := by
    unfold extendRow extendCells
    split <;> rfl
  rw [hlists, extendRowType]
  cases s.rowMembers? row with
  | none => simp
  | some place =>
    show (s.types.lists.modify place (· ++ [type]))[i]? = _
    rw [Array.getElem?_modify]
    simp

/-- Adds cells to rows in turn. -/
def extendRows (s : Store) (type : TypeRef) (pairs : List (Ref × Ref)) : Store :=
  pairs.foldl (fun s p => s.extendRow type p.1 p.2) s

section

variable (type : TypeRef) (pairs : List (Ref × Ref))

theorem extendRows_cons (p : Ref × Ref) :
    s.extendRows type (p :: pairs) = (s.extendRow type p.1 p.2).extendRows type pairs := rfl

theorem objects_extendRows : (s.extendRows type pairs).objects = s.objects := by
  induction pairs generalizing s with
  | nil => rfl
  | cons p pairs ih => rw [extendRows_cons, ih, objects_extendRow]

theorem typeCells_extendRows : (s.extendRows type pairs).types.cells = s.types.cells := by
  induction pairs generalizing s with
  | nil => rfl
  | cons p pairs ih => rw [extendRows_cons, ih, typeCells_extendRow]

theorem columns_extendRows : (s.extendRows type pairs).columns = s.columns := by
  induction pairs generalizing s with
  | nil => rfl
  | cons p pairs ih => rw [extendRows_cons, ih, columns_extendRow]

theorem grows_extendRows : s.Grows (s.extendRows type pairs) := by
  induction pairs generalizing s with
  | nil => exact .refl s
  | cons p pairs ih => exact (s.grows_extendRow type p.1 p.2).trans (ih _)

end

/-- The rows before the first one that is an entry. -/
def editable (s : Store) (pairs : List (Ref × Ref)) : List (Ref × Ref) :=
  pairs.takeWhile fun p => !(s.content p.2).isEntry

/-- The values for the rows that have their cells at a place. -/
def received (s : Store) (pairs : List (Ref × Ref)) (i : Nat) : List Ref :=
  (pairs.filter fun p => s.rowCells? p.2 = some i).map Prod.fst

section

variable (type : TypeRef) (pairs : List (Ref × Ref))

theorem sequences_extendRows (i : Nat) :
    (s.extendRows type pairs).sequences[i]? =
      (s.sequences[i]?).map (· ++ (s.received pairs i).toArray) := by
  induction pairs generalizing s with
  | nil => simp [extendRows, received]
  | cons p pairs ih =>
    have hcells := rowCells?_eq_of_objects (s.objects_extendRow type p.1 p.2)
    rw [extendRows_cons, ih, sequences_extendRow]
    simp only [received, hcells]
    by_cases hp : s.rowCells? p.2 = some i <;> cases s.sequences[i]? <;> simp [hp]

theorem size_extendRows {s : Store} (h : s.sequences[i]? = some a) :
    ∃ a', (s.extendRows type pairs).sequences[i]? = some a' ∧
      a'.size = a.size + pairs.countP (fun p => s.rowCells? p.2 = some i) := by
  rw [sequences_extendRows, h]
  refine ⟨_, rfl, ?_⟩
  simp [received, List.countP_eq_length_filter]

theorem length_extendRows {s : Store} {l : List TypeRef} (h : s.types.lists[i]? = some l) :
    ∃ l', (s.extendRows type pairs).types.lists[i]? = some l' ∧
      l'.length = l.length + pairs.countP (fun p => s.rowMembers? p.2 = some i) := by
  induction pairs generalizing s l with
  | nil => exact ⟨l, h, by simp⟩
  | cons p pairs ih =>
    have hmembers := rowMembers?_eq_of_objects (s.objects_extendRow type p.1 p.2)
      (s.typeCells_extendRow type p.1 p.2)
    have hstep := lists_extendRow s type p.1 p.2 i
    rw [extendRows_cons]
    by_cases hp : s.rowMembers? p.2 = some i
    · rw [if_pos hp, h] at hstep
      obtain ⟨l', hl', hlength⟩ := ih hstep
      refine ⟨l', hl', ?_⟩
      simp only [hmembers, List.length_append, List.length_singleton] at hlength
      rw [List.countP_cons_of_pos (by simpa using hp)]
      omega
    · rw [if_neg hp, h] at hstep
      obtain ⟨l', hl', hlength⟩ := ih hstep
      refine ⟨l', hl', ?_⟩
      simp only [hmembers] at hlength
      rw [List.countP_cons_of_neg (by simpa using hp)]
      exact hlength

end

end Store

namespace Primitive

open EvalM

theorem exec_extendCells (value row : Ref) (m : Machine) :
    (do
      match ← content row with
      | .tuple place => change (·.appendElement place value)
      | _ => pure () : EvalM Unit).exec m =
      (.ok (), { m with store := m.store.extendCells value row }) := by
  rw [exec_bind_content, Store.extendCells, Store.rowCells?]
  cases m.store.content row <;> rfl

theorem exec_extendRow (type : TypeRef) (value row : Ref) (m : Machine) :
    (extendRow type value row).exec m =
      if (m.store.content row).isEntry = true then (.error (.fault (.entry .type)), m)
      else (.ok (), { m with store := m.store.extendRow type value row }) := by
  unfold extendRow Store.extendRow
  split
  · next hentry =>
    have htype : (typeOf row).exec m = (.error (.fault (.entry .type)), m) := by
      rw [exec_typeOf, if_pos hentry]
    rw [exec_bind_halt htype]
  · next hentry =>
    have htype : (typeOf row).exec m = (.ok (m.store.object row).type, m) := by
      rw [exec_typeOf, if_neg hentry]
    rw [exec_bind_of htype, Store.extendRowType, Store.rowMembers?]
    cases (m.store.object row).type with
    | tuple c => exact (exec_bind_of (exec_change _ m)).trans (exec_extendCells value row _)
    | _ => exact exec_extendCells value row m

theorem exec_extendRows (type : TypeRef) (pairs : List (Ref × Ref)) (m : Machine) :
    (pairs.forM fun p => extendRow type p.1 p.2).exec m =
      (if pairs.all fun p => !(m.store.content p.2).isEntry then .ok ()
        else .error (.fault (.entry .type)),
        { m with store := m.store.extendRows type (m.store.editable pairs) }) := by
  induction pairs generalizing m with
  | nil => rfl
  | cons p pairs ih =>
    have hrow := exec_extendRow type p.1 p.2 m
    have hcontent := Store.content_eq_of_objects (m.store.objects_extendRow type p.1 p.2)
    show (extendRow type p.1 p.2 >>= fun _ => pairs.forM _).exec m = _
    cases hentry : (m.store.content p.2).isEntry with
    | true =>
      rw [hentry, if_pos rfl] at hrow
      rw [exec_bind_halt hrow]
      simp [hentry, Store.extendRows, Store.editable]
    | false =>
      rw [hentry, if_neg (by simp)] at hrow
      rw [exec_bind_of hrow, ih]
      simp only [Store.editable, hcontent, List.all_cons, List.takeWhile_cons, hentry,
        Bool.not_false, Bool.true_and, if_true, Store.extendRows_cons]

theorem exec_extendSchema (t : TableView) (name : String) (type : TypeRef) (m : Machine) :
    (extendSchema t name type).exec m =
      (.ok (), { m with store := m.store.extendSchema t name type }) := by
  unfold extendSchema Store.extendSchema
  cases t.type with
  | table members =>
    dsimp only
    rw [exec_bind_of (exec_change _ m), exec_bind_content, Store.extendColumns]
    cases (m.store.mapTypes (·.appendMember members type)).content t.schema <;> rfl
  | _ => rfl

/-! ## Calls that pass their checks -/

/-- The step only adds to the store, and its result, if there is one, is a none. -/
def Idle (x : EvalM Ref) (m : Machine) : Prop :=
  ∀ out m', x.exec m = (out, m') →
    m.store.Extends m'.store ∧ ∀ r, out = .ok r → m'.store.content r = .none

theorem Idle.report (text : String) (position : Option Position) (m : Machine) :
    Idle (report text position) m := by
  intro out m' h
  refine ⟨Moves.of_exec (.report text position) h, ?_⟩
  rintro r rfl
  exact absurd h report_ne_ok

theorem Idle.newNone (m : Machine) : Idle newNone m := by
  intro out m' h
  cases h
  refine ⟨m.store.extends_add _, ?_⟩
  rintro r ⟨⟩
  rw [Store.content_of_getElem? (o := ⟨.none, .none⟩)]
  show (m.store.objects.push _)[m.store.objects.size]? = _
  rw [Array.getElem?_push, if_pos rfl]

variable {m : Machine}

theorem Idle.bind {α : Type} {x : EvalM α} {f : α → EvalM Ref} (hx : x.Moves Store.Extends)
    (hf : ∀ a m', x.exec m = (.ok a, m') → m' = m ∧ Idle (f a) m) : Idle (x >>= f) m := by
  intro out m' h
  rcases hexec : x.exec m with ⟨halt | a, m₁⟩
  · rw [exec_bind_halt hexec] at h
    cases h
    exact ⟨hx.of_exec hexec, fun r hr => by cases hr⟩
  · obtain ⟨rfl, hidle⟩ := hf a m₁ hexec
    rw [exec_bind_of hexec] at h
    exact hidle out m' h

section

variable {α : Type} {x : EvalM α} {name : String} {position : Option Position} {m : Machine}

theorem Idle.of_exec {f : α → EvalM Ref} {a : α} (hx : x.exec m = (.ok a, m))
    (hf : Idle (f a) m) : Idle (x >>= f) m :=
  fun out m' h => hf out m' ((exec_bind_of hx).symm.trans h)

theorem Idle.argument {f : Ref → EvalM Ref}
    (hf : ∀ r, m.scope.get? name = some r → Idle (f r) m) :
    Idle (argument name position >>= f) m := by
  refine .bind (.lookup name name position) fun r m' h => ?_
  obtain ⟨hr, rfl⟩ := exec_argument_ok h
  exact ⟨rfl, hf r hr⟩

theorem Idle.argumentContent {f : Content → EvalM Ref}
    (hf : ∀ c, Argument m name c → Idle (f c) m) :
    Idle (argumentContent name position >>= f) m := by
  refine .bind (.bind (.lookup name name position) fun r => .content r) fun c m' h => ?_
  obtain ⟨hc, rfl⟩ := exec_argumentContent_ok h
  exact ⟨rfl, hf c hc⟩

end

/-- A call to add a column that has as many values as the table has rows. -/
structure WithCall (m : Machine) (r : Ref) (t : TableView) (name : String) (first : Ref)
    (rest : List Ref) : Prop where
  table : m.scope.get? "table" = some r
  view : m.store.table? r = some t
  name : Argument m "name" (.string name)
  values : ∃ place, Argument m "values" (.list place) ∧ m.store.sequence place = first :: rest
  length : (first :: rest).length = (m.store.sequence t.rows).length
  first : (m.store.content first).isEntry = false

variable {t : TableView} {name : String} {first : Ref} {rest : List Ref}

theorem WithCall.unique {r r' : Ref} {t' : TableView} {name' : String} {first' : Ref}
    {rest' : List Ref} (h : WithCall m r t name first rest)
    (h' : WithCall m r' t' name' first' rest') :
    t = t' ∧ name = name' ∧ first = first' ∧ rest = rest' := by
  cases h.table.symm.trans h'.table
  cases h.view.symm.trans h'.view
  cases h.name.unique h'.name
  obtain ⟨place, hplace, hvalues⟩ := h.values
  obtain ⟨place', hplace', hvalues'⟩ := h'.values
  cases hplace.unique hplace'
  cases hvalues.symm.trans hvalues'
  exact ⟨rfl, rfl, rfl, rfl⟩

theorem runWith_cases (position : Option Position) (m : Machine) :
    (∃ r t name first rest, WithCall m r t name first rest) ∨ Idle (runWith position) m := by
  refine or_iff_not_imp_left.mpr fun hcall => ?_
  refine .argument fun r hr => .argumentContent fun nameContent hname =>
    .argumentContent fun values hvalues => .of_exec (exec_table? r m) ?_
  split
  · next t name place hview =>
    refine .of_exec (exec_sequence t.rows m) (.of_exec (exec_sequence place m) ?_)
    split
    · exact .report _ _ _
    · next first rest hrefs =>
      split
      · exact .report _ _ _
      · next hlength =>
        refine .bind (.typeOf first) fun type m' htype => ?_
        obtain ⟨hfirst, -, -⟩ := exec_typeOf_ok htype
        exact absurd ⟨r, t, name, first, rest, hr, hview, hname, ⟨place, hvalues, hrefs⟩,
          Decidable.not_not.mp hlength, hfirst⟩ hcall
  · exact .newNone _

/-- The store after a column has been added. -/
def withColumn (s : Store) (t : TableView) (name : String) (first : Ref) (rest : List Ref) :
    Store :=
  let type := (s.object first).type
  (s.extendSchema t name type).extendRows type
    (s.editable ((first :: rest).zip (s.sequence t.rows)))

theorem objects_extendSchema (s : Store) (t : TableView) (name : String) (type : TypeRef) :
    (s.extendSchema t name type).objects = s.objects := by
  unfold Store.extendSchema Store.extendColumns
  split
  · split <;> rfl
  · rfl

theorem exec_runWith {r : Ref} (h : WithCall m r t name first rest) (position : Option Position) :
    (runWith position).exec m =
      (if ((first :: rest).zip (m.store.sequence t.rows)).all
          fun p => !(m.store.content p.2).isEntry then .ok r
        else .error (.fault (.entry .type)),
        { m with store := withColumn m.store t name first rest }) := by
  obtain ⟨n, hn, hname⟩ := h.name
  obtain ⟨place, ⟨v, hv, hvalues⟩, hrefs⟩ := h.values
  have hcontent := Store.content_eq_of_objects
    (objects_extendSchema m.store t name (m.store.object first).type)
  have htype : (typeOf first).exec m = (.ok (m.store.object first).type, m) := by
    rw [exec_typeOf, h.first]
    rfl
  rw [runWith, exec_bind_argument h.table, exec_bind_argumentContent hn,
    exec_bind_argumentContent hv, exec_bind_table?, h.view, hname, hvalues]
  dsimp only
  rw [exec_bind_sequence, exec_bind_sequence, hrefs]
  dsimp only
  rw [if_neg (fun hne => hne h.length), exec_bind_of htype,
    exec_bind_of (exec_extendSchema _ _ _ m)]
  rw [exec_bind, exec_extendRows]
  simp only [Store.editable, hcontent]
  cases ((first :: rest).zip (m.store.sequence t.rows)).all
    fun p => !(m.store.content p.2).isEntry <;> rfl

theorem table?_eq_of_objects {s : Store} (h : s'.objects = s.objects) (r : Ref) :
    s'.table? r = s.table? r := by
  rw [Store.table?, Store.table?, Store.content_eq_of_objects h, Store.object, Store.object, h]

theorem objects_withColumn (s : Store) (t : TableView) (name : String) (first : Ref)
    (rest : List Ref) : (withColumn s t name first rest).objects = s.objects := by
  rw [withColumn, Store.objects_extendRows, objects_extendSchema]

/-! ## How much is added -/

section

variable {s : Store} {t : TableView} {members : Nat}

theorem lists_extendSchema (ht : t.type = .table members) (name : String) (type : TypeRef) :
    (s.extendSchema t name type).types.lists = s.types.lists.modify members (· ++ [type]) := by
  unfold Store.extendSchema Store.extendColumns
  rw [ht]
  dsimp only
  split <;> rfl

theorem typeCells_extendSchema (name : String) (type : TypeRef) :
    (s.extendSchema t name type).types.cells = s.types.cells := by
  unfold Store.extendSchema Store.extendColumns
  split
  · split <;> rfl
  · rfl

theorem sequences_extendSchema (name : String) (type : TypeRef) :
    (s.extendSchema t name type).sequences = s.sequences := by
  unfold Store.extendSchema Store.extendColumns
  split
  · split <;> rfl
  · rfl

/-- The rows that a column is added to, with the cells for them. -/
def editedRows (s : Store) (t : TableView) (values : List Ref) : List (Ref × Ref) :=
  s.editable (values.zip (s.sequence t.rows))

theorem length_withColumn (ht : t.type = .table members) {l : List TypeRef}
    (hl : s.types.lists[i]? = some l) (name : String) (first : Ref) (rest : List Ref) :
    ∃ l', (withColumn s t name first rest).types.lists[i]? = some l' ∧
      l'.length = l.length + (if members = i then 1 else 0) +
        (editedRows s t (first :: rest)).countP fun p => s.rowMembers? p.2 = some i := by
  have hmembers := Store.rowMembers?_eq_of_objects
    (objects_extendSchema s t name (s.object first).type)
    (typeCells_extendSchema name (s.object first).type)
  have hschema : ∃ l', (s.extendSchema t name (s.object first).type).types.lists[i]? = some l' ∧
      l'.length = l.length + if members = i then 1 else 0 := by
    rw [lists_extendSchema ht, Array.getElem?_modify, hl]
    split
    · exact ⟨_, rfl, List.length_append⟩
    · exact ⟨l, rfl, rfl⟩
  obtain ⟨l₁, hl₁, hlength₁⟩ := hschema
  obtain ⟨l₂, hl₂, hlength₂⟩ := Store.length_extendRows (s.object first).type
    (editedRows s t (first :: rest)) hl₁
  refine ⟨l₂, hl₂, ?_⟩
  simp only [hmembers] at hlength₂
  rw [hlength₂, hlength₁]

theorem size_withColumn (ha : s.sequences[i]? = some a) (name : String) (first : Ref)
    (rest : List Ref) :
    ∃ a', (withColumn s t name first rest).sequences[i]? = some a' ∧
      a'.size = a.size +
        (editedRows s t (first :: rest)).countP fun p => s.rowCells? p.2 = some i := by
  have hcells := Store.rowCells?_eq_of_objects
    (objects_extendSchema s t name (s.object first).type)
  have ha' : (s.extendSchema t name (s.object first).type).sequences[i]? = some a := by
    rw [sequences_extendSchema, ha]
  obtain ⟨a', ha', hsize⟩ := Store.size_extendRows (s.object first).type
    (editedRows s t (first :: rest)) ha'
  simp only [hcells] at hsize
  exact ⟨a', ha', hsize⟩

end

end Primitive

end TableScript
