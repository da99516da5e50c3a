import TableScript.Proofs.TableAppend
import TableScript.Proofs.TableDrop
import TableScript.Script

/-!
# Which calls leave values as they are

Values are shared, so a built-in function on tables that edits its argument edits every value that
shares a part of it. `sameView_iff_not_edits` says which calls of these functions leave every value
that has a name as it is, whether the call gives a result or halts: all calls of the functions that
make, select, read and count, and those calls of `with`, `append` and `drop` that fail a check
before their first edit (`Edits`).

* Calls without an edit only add to the store, and additions are not seen.
* The first edit of a call is seen in the table that is its argument, and no later one undoes it.
-/

namespace TableScript

open TypeStore

/-! ## What a table shows -/

namespace Shape

variable {ι κ : Type}

/-- The number of members of a type that has a list of them. -/
def memberCount : Shape ι → Nat
  | union _ as | tuple _ as | schema _ as | table _ as => as.length
  | _ => 0

theorem length_mapMarksAll (f : ι → κ) (as : List (Shape ι)) :
    (mapMarksAll f as).length = as.length := by
  induction as with
  | nil => simp [mapMarksAll]
  | cons a as ih => simp [mapMarksAll, ih]

theorem memberCount_mapMarks (f : ι → κ) (a : Shape ι) :
    (a.mapMarks f).memberCount = a.memberCount := by
  cases a <;> simp [mapMarks, memberCount, length_mapMarksAll]

end Shape

theorem TypeStore.length_readAllWith (s : TypeStore) (members : Nat → List PlacedType)
    (ts : List TypeRef) : (s.readAllWith members ts).length = ts.length := by
  induction ts with
  | nil => simp [readAllWith]
  | cons t ts ih => simp [readAllWith, ih]

variable {r : Ref}

namespace Store

variable {s s' : Store}

theorem memberCount_plainTypeTo_table (s : Store) (k members : Nat) :
    (s.plainTypeTo (k + 1) (.table members)).memberCount = (s.types.list members).length := by
  rw [plainTypeTo, Shape.plain, Shape.memberCount_mapMarks]
  simp only [readTo, readWith, Shape.memberCount, membersTo,
    length_readAllWith]

theorem memberCount_plainTypeTo_tuple (s : Store) (k cell : Nat) :
    (s.plainTypeTo (k + 1) (.tuple cell)).memberCount =
      (s.types.list (s.types.cell cell)).length := by
  rw [plainTypeTo, Shape.plain, Shape.memberCount_mapMarks]
  simp only [readTo, readWith, Shape.memberCount, membersTo,
    length_readAllWith]

theorem SameView.table {t : Primitive.TableView} (h : s.SameView s' r) (ht : s.table? r = some t)
    (ht' : s'.table? r = some t) (k d : Nat) :
    s'.plainTypeTo k t.type = s.plainTypeTo k t.type ∧
      (s'.sequence t.rows).map (s'.valueTo k d) = (s.sequence t.rows).map (s.valueTo k d) := by
  have hview := h k (d + 1)
  rw [valueTo, valueTo, table?_eq_some.mp ht, table?_eq_some.mp ht'] at hview
  simp only [valueWith, Value.table.injEq] at hview
  exact ⟨hview.1, hview.2.2.2⟩

theorem type?_valueTo (h : (s.content r).isEntry = false) (k d : Nat) :
    (s.valueTo k (d + 1) r).type? = some (s.plainTypeTo k (s.object r).type) := by
  rw [valueTo, valueWith]
  rw [content] at h
  cases hc : (s.object r).content with
  | entry key value =>
    rw [hc] at h
    cases h
  | _ => rfl

theorem valueTo_tuple {place : Nat} (h : s.rowCells? r = some place) (k d : Nat) :
    s.valueTo k (d + 1) r =
      .tuple (s.plainTypeTo k (s.object r).type) ((s.sequence place).map (s.valueTo k d)) := by
  rw [valueTo, valueWith]
  rw [rowCells?, content] at h
  cases hc : (s.object r).content <;> rw [hc] at h <;> cases h
  rfl

end Store

namespace Primitive

open EvalM

/-! ## Adding a column -/

/-- A call of `with` that passes its checks, on a table that has the type of a table or a row that
is a tuple. -/
def AddsColumn (m : Machine) : Prop :=
  ∃ r t name first rest, WithCall m r t name first rest ∧
    ((∃ members, t.type = .table members) ∨
      ∃ p ∈ m.store.editable ((first :: rest).zip (m.store.sequence t.rows)),
        m.store.rowMembers? p.2 ≠ none ∨ m.store.rowCells? p.2 ≠ none)

variable {t : TableView} {pairs : List (Ref × Ref)} {b : Builtin}

theorem withColumn_of_type (s : Store) (ht : ∀ members, t.type ≠ .table members) (name : String)
    (first : Ref) (rest : List Ref) :
    withColumn s t name first rest =
      s.extendRows (s.object first).type
        (s.editable ((first :: rest).zip (s.sequence t.rows))) := by
  rw [withColumn, Store.extendSchema]
  split
  · next members hmembers => exact absurd hmembers (ht members)
  · rfl

theorem extendRows_seen {s : Store} (hs : s.Closed) (ht : s.table? r = some t) {type : TypeRef}
    {p : Ref × Ref} (hp : p ∈ s.editable pairs) (hrow : p.2 ∈ s.sequence t.rows)
    (hedit : s.rowMembers? p.2 ≠ none ∨ s.rowCells? p.2 ≠ none) :
    ¬ s.SameView (s.extendRows type (s.editable pairs)) r := by
  intro hview
  have hobjects := s.objects_extendRows type (s.editable pairs)
  have hrows := hs.rows ht
  have hrowHas := hs.cell hrows hrow
  -- The table shows the same rows, so the row is seen as before.
  have hsame : (s.extendRows type (s.editable pairs)).valueTo 1 1 p.2 = s.valueTo 1 1 p.2 := by
    have hmaps := (hview.table ht ((table?_eq_of_objects hobjects r).trans ht) 1 1).2
    have hget := Array.getElem?_eq_getElem hrows
    obtain ⟨b, hb⟩ := (s.grows_extendRows type (s.editable pairs)).sequences hget
    rw [Store.sequence_of_getElem? hb, Array.toList_append, ← Store.sequence_of_getElem? hget,
      List.map_append] at hmaps
    have hprefix := List.append_inj (hmaps.trans (List.append_nil _).symm)
      (by rw [List.length_map, List.length_map])
    exact List.map_inj_left.mp hprefix.1 p.2 hrow
  have hentry : (s.content p.2).isEntry = false := by
    simpa using List.all_eq_true.mp List.all_takeWhile p hp
  have hentry' : ((s.extendRows type (s.editable pairs)).content p.2).isEntry = false := by
    rw [Store.content_eq_of_objects hobjects, hentry]
  rcases hedit with hmembers | hcells
  · obtain ⟨i, hi⟩ := Option.ne_none_iff_exists'.mp hmembers
    obtain ⟨c, hc, rfl⟩ := Store.rowMembers?_eq_some.mp hi
    have hcell : s.Has (.tuple c) := hs.type hrowHas _ (by simp [hc, TypeRef.cells])
    have hlist : s.Has (.members (s.types.cell c)) := hs _ hcell _ (List.mem_singleton_self _)
    have hget := Array.getElem?_eq_getElem hlist
    obtain ⟨l, hl, hlength⟩ := Store.length_extendRows type (s.editable pairs) hget
    have hcount : 0 < (s.editable pairs).countP fun p =>
        s.rowMembers? p.2 = some (s.types.cell c) :=
      List.countP_pos_iff.mpr ⟨p, hp, by simpa using hi⟩
    have htypes := congrArg Value.type? hsame
    rw [Store.type?_valueTo hentry, Store.type?_valueTo hentry', Store.object, Store.object,
      hobjects, ← Store.object, hc, Option.some.injEq] at htypes
    have hcounts := congrArg Shape.memberCount htypes
    rw [Store.memberCount_plainTypeTo_tuple, Store.memberCount_plainTypeTo_tuple, cell,
      s.typeCells_extendRows, ← cell, list_of_getElem? hl,
      list_of_getElem? hget] at hcounts
    omega
  · obtain ⟨place, hplace⟩ := Option.ne_none_iff_exists'.mp hcells
    have hplaceHas : s.Has (.sequence place) :=
      hs.content hrowHas _ (by simp [Store.rowCells?_eq_some.mp hplace, Content.cells])
    have hget := Array.getElem?_eq_getElem hplaceHas
    obtain ⟨a, ha, hsize⟩ := Store.size_extendRows type (s.editable pairs) hget
    have hcount : 0 < (s.editable pairs).countP fun p => s.rowCells? p.2 = some place :=
      List.countP_pos_iff.mpr ⟨p, hp, by simpa using hplace⟩
    rw [Store.valueTo_tuple hplace, Store.valueTo_tuple (s := s.extendRows type (s.editable pairs))
      ((Store.rowCells?_eq_of_objects hobjects p.2).trans hplace)] at hsame
    have hlengths := congrArg List.length (Value.tuple.inj hsame).2
    rw [List.length_map, List.length_map, Store.sequence_of_getElem? ha,
      Store.sequence_of_getElem? hget] at hlengths
    simp only [Array.length_toList] at hlengths
    omega

variable {m : Machine}

theorem runWith_seen (hm : m.Closed) (h : AddsColumn m) (position : Option Position) :
    ∃ n ∈ m.scope.names, ¬ m.store.SameView ((runWith position).exec m).2.store n.2 := by
  obtain ⟨r, t, name, first, rest, hcall, hedit⟩ := h
  have hmem := mem_names_of_get? hcall.table
  refine ⟨("table", r), hmem, ?_⟩
  rw [exec_runWith hcall position]
  by_cases ht : ∃ members, t.type = .table members
  · obtain ⟨members, ht⟩ := ht
    intro hview
    have hobjects := objects_withColumn m.store t name first rest
    have htype :=
      (hview.table hcall.view ((table?_eq_of_objects hobjects r).trans hcall.view) 1 0).1
    have hget := Array.getElem?_eq_getElem (hm.store.members hcall.view ht)
    obtain ⟨l, hl, hlength⟩ := length_withColumn ht hget name first rest
    rw [if_pos rfl] at hlength
    have hcounts := congrArg Shape.memberCount htype
    rw [ht, Store.memberCount_plainTypeTo_table, Store.memberCount_plainTypeTo_table,
      list_of_getElem? hl, list_of_getElem? hget] at hcounts
    omega
  · have hne : ∀ members, t.type ≠ .table members := fun members h => ht ⟨members, h⟩
    obtain ⟨p, hp, hrow⟩ := hedit.resolve_left ht
    rw [withColumn_of_type _ hne]
    have hzip := (List.takeWhile_sublist _).subset hp
    exact extendRows_seen hm.store hcall.view hp (List.of_mem_zip hzip).2 hrow

theorem extendRows_eq_self {s : Store}
    (h : ∀ p ∈ pairs, s.rowMembers? p.2 = none ∧ s.rowCells? p.2 = none) (type : TypeRef) :
    s.extendRows type pairs = s := by
  induction pairs with
  | nil => rfl
  | cons p pairs ih =>
    obtain ⟨hmembers, hcells⟩ := h p List.mem_cons_self
    have hrow : s.extendRow type p.1 p.2 = s := by
      simp only [Store.extendRow, Store.extendRowType, hmembers, Store.extendCells, hcells]
    rw [Store.extendRows_cons, hrow]
    exact ih fun q hq => h q (List.mem_cons_of_mem _ hq)

section

variable (position : Option Position)

theorem runWith_extends (h : ¬ AddsColumn m) :
    m.store.Extends ((runWith position).exec m).2.store := by
  rcases runWith_cases position m with ⟨r, t, name, first, rest, hcall⟩ | hidle
  · have hnot := not_or.mp fun hedit => h ⟨r, t, name, first, rest, hcall, hedit⟩
    have hne : ∀ members, t.type ≠ .table members := fun members h => hnot.1 ⟨members, h⟩
    rw [exec_runWith hcall position, withColumn_of_type _ hne, extendRows_eq_self]
    · exact .refl _
    · intro p hp
      have hrow := not_or.mp fun hedit => hnot.2 ⟨p, hp, hedit⟩
      exact ⟨Decidable.not_not.mp hrow.1, Decidable.not_not.mp hrow.2⟩
  · exact (hidle _ _ rfl).1

/-! ## Appending rows -/

theorem extends_runAppend_loop {source : Nat} (h : AppendCall m r t source) :
    ((appendRows position t source (2 * (m.store.sequence source).length + 1) 0).exec
      m).2.store.Extends ((runAppend position).exec m).2.store := by
  rw [exec_runAppend h position]
  refine Moves.after_bind _ (fun appended => ?_) m
  cases appended with
  | true => exact .pure r
  | false => exact moves_new _ _

theorem runAppend_seen (hm : m.Closed) (h : AddsRow m) :
    ∃ n ∈ m.scope.names, ¬ m.store.SameView ((runAppend position).exec m).2.store n.2 := by
  obtain ⟨r, t, source, row, hcall, hfind, hfits⟩ := h
  have hmem := mem_names_of_get? hcall.table
  have hr := hm.scope.has hmem
  have hget := Array.getElem?_eq_getElem (hm.store.rows hcall.view)
  refine ⟨("table", r), hmem, fun hview => ?_⟩
  obtain ⟨b, hb, hlt⟩ := appendRows_grows position (2 * (m.store.sequence source).length + 1) 0
    hfind hfits (by rw [List.drop_zero]; omega) hget
  have hgrows := grows_appendRows position t source (2 * (m.store.sequence source).length + 1) 0 m
  have hafter := extends_runAppend_loop position hcall
  have hobject := hafter.objects (hgrows.objects (Array.getElem?_eq_getElem hr))
  have hview' : ((runAppend position).exec m).2.store.table? r = some t := by
    rw [Store.table?_eq_some, Store.object_of_getElem? hobject,
      ← Store.table?_eq_some.mp hcall.view,
        Store.object_of_getElem? (Array.getElem?_eq_getElem hr)]
  have hlengths := congrArg List.length (hview.table hcall.view hview' 0 0).2
  rw [List.length_map, List.length_map, Store.sequence_of_getElem? (hafter.sequences hb),
    Store.sequence_of_getElem? hget] at hlengths
  simp only [Array.length_toList] at hlengths
  omega

theorem runAppend_extends (h : ¬ AddsRow m) :
    m.store.Extends ((runAppend position).exec m).2.store := by
  rcases runAppend_cases position m with ⟨r, t, source, hcall⟩ | hidle
  · have hstore : ((appendRows position t source
        (2 * (m.store.sequence source).length + 1) 0).exec m).2.store = m.store :=
      appendRows_store_eq fun row hfind hfits => h ⟨r, t, source, row, hcall, hfind, hfits⟩
    have hafter := extends_runAppend_loop position hcall
    rwa [hstore] at hafter
  · exact (hidle _ _ rfl).1

/-! ## Dropping a column -/

theorem runDrop_extends (hm : m.Closed) (h : ¬ DropsColumn m) :
    m.store.Extends ((runDrop position).exec m).2.store := by
  rcases runDrop_cases position m with ⟨r, t, index, hcall⟩ | hidle
  · obtain ⟨place, hcontent⟩ := hcall.schema
    obtain ⟨out, m', hexec, hextends, hok, herror⟩ :=
      exec_dropFromSchema (hm.store.sound (hm.store.schema hcall.view)) hcontent index
    rw [exec_runDrop hcall position]
    by_cases hhas : SchemaTypeHas m.store t.schema index
    · obtain ⟨schema, rfl⟩ := hok hhas
      by_cases ht : ∃ members, t.type = .table members
      · obtain ⟨members, ht⟩ := ht
        have hlist := hm.store.members hcall.view ht
        have hshort : ¬ index < (m'.store.types.list members).length := by
          rw [hextends.types.list_eq hlist]
          exact fun hlt => h ⟨r, t, index, members, hcall, hhas, ht, hlt⟩
        have hdrop := exec_dropMember members index m'
        rw [if_neg hshort] at hdrop
        rw [exec_dropColumn_table hexec ht, exec_bind_halt hdrop]
        exact hextends
      · rw [dropColumn, exec_bind_of hexec]
        split
        · next members hmembers => exact absurd ⟨members, hmembers⟩ ht
        · exact hextends.trans (moves_new _ _ m')
    · obtain ⟨halt, rfl⟩ := herror hhas
      rw [dropColumn, exec_bind_halt hexec]
      exact hextends
  · exact (hidle _ _ rfl).1

theorem runDrop_seen (hm : m.Closed) (h : DropsColumn m) :
    ∃ n ∈ m.scope.names, ¬ m.store.SameView ((runDrop position).exec m).2.store n.2 := by
  obtain ⟨r, t, index, members, hdrop⟩ := h
  obtain ⟨htable, -, hlist⟩ := hdrop.store_after hm.store position
  refine ⟨("table", r), mem_names_of_get? hdrop.call.table, fun hview => ?_⟩
  have hcounts := congrArg Shape.memberCount (hview.table hdrop.call.view htable 1 0).1
  rw [hdrop.type, Store.memberCount_plainTypeTo_table, Store.memberCount_plainTypeTo_table, hlist,
    List.length_eraseIdx_of_lt hdrop.index_lt] at hcounts
  have := hdrop.index_lt
  omega

end

/-! ## All calls -/

/-- The built-in functions on tables. -/
def tableBuiltins : List Builtin :=
  [.createTable, .column, .join, .with, .append, .select, .drop, .getColumns, .getColumn, .collect,
    .count]

/-- Does the call of a built-in function edit its arguments? -/
def Edits (b : Builtin) (m : Machine) : Prop :=
  match b with
  | .with => AddsColumn m
  | .append => AddsRow m
  | .drop => DropsColumn m
  | _ => False

theorem run_extends (hm : m.Closed) (hb : b ∈ tableBuiltins) (h : ¬ Edits b m) (eval : Evaluator)
    (position : Option Position) : m.store.Extends ((run eval position b).exec m).2.store := by
  simp only [tableBuiltins, List.mem_cons, List.not_mem_nil, or_false] at hb
  rcases hb with rfl | rfl | rfl | rfl | rfl | rfl | rfl | rfl | rfl | rfl | rfl
  · exact steady_runCreateTable (K := adding) position m
  · exact steady_runColumn (K := adding) position m
  · exact steady_runJoin (K := adding) position m
  · exact runWith_extends position h
  · exact runAppend_extends position h
  · exact steady_runSelect (K := adding) position m
  · exact runDrop_extends position hm h
  · exact steady_runGetColumns (K := adding) position m
  · exact steady_runGetColumn (K := adding) position m
  · exact steady_runCollect (K := adding) position m
  · exact steady_runCount (K := adding) position m

theorem run_seen (hm : m.Closed) (h : Edits b m) (eval : Evaluator) (position : Option Position) :
    ∃ n ∈ m.scope.names, ¬ m.store.SameView ((run eval position b).exec m).2.store n.2 := by
  cases b with
  | «with» => exact runWith_seen hm h position
  | append => exact runAppend_seen position hm h
  | drop => exact runDrop_seen position hm h
  | _ => exact h.elim

/-- A call of a built-in function on tables leaves every value that has a name, in the call or in a
scope outside of it, as it is iff it makes no edit. -/
theorem sameView_iff_not_edits {m : Machine} (hm : m.Closed) {outer : Scope Ref TypeRef}
    (houter : m.store.Holds outer) {b : Builtin} (hb : b ∈ tableBuiltins) (eval : Evaluator)
    (position : Option Position) :
    (∀ n ∈ m.scope.names ++ outer.names,
        m.store.SameView ((run eval position b).exec m).2.store n.2) ↔
      ¬ Edits b m := by
  constructor
  · intro hsame hedits
    obtain ⟨n, hn, hseen⟩ := run_seen hm hedits eval position
    exact hseen (hsame n (List.mem_append_left _ hn))
  · intro hedits n hn
    have hhas : m.store.Has n.2.cell :=
      (List.mem_append.mp hn).elim hm.scope.has houter.has
    exact (run_extends hm hb hedits eval position).sameView hm.store hhas

/-- A machine after a program, with the values that the program binds as arguments of `select`. -/
def selectCall : Machine :=
  let m := (execute false "let t = createTable(${a: int, b: int}, [(1, 2), (3, 4)]);
let c = [\"b\"];
let q = \"a > 1\";
t" .initial).2
  let arguments := [("table", "t"), ("columns", "c"), ("where", "q")].filterMap fun p =>
    (m.scope.get? p.2).map (p.1, ·)
  { m with scope := { m.scope with names := arguments ++ m.scope.names } }

/-- Selecting rows gives a result, and leaves the table, the names of columns and the query as they
are. -/
theorem sameView_select :
    selectCall.Closed ∧ selectCall.store.Holds selectCall.scope ∧ .select ∈ tableBuiltins ∧
      ((run (eval 1) none .select).exec selectCall).1.toOption = some ⟨15⟩ ∧
      ∀ n ∈ selectCall.scope.names ++ selectCall.scope.names, selectCall.store.SameView
        ((run (eval 1) none .select).exec selectCall).2.store n.2 := by
  have hclosed : selectCall.Closed := by decide +kernel
  exact ⟨hclosed, hclosed.scope, by decide, by decide +kernel,
    (sameView_iff_not_edits hclosed hclosed.scope (by decide) _ _).mpr id⟩

/-- The type of the result of a program. -/
def resultType (program : String) : Option String :=
  match execute false program .initial with
  | (.ok (some r), m) => (m.store.value r).type?.bind fun t => t.text.toOption
  | _ => none

/-- A column that is added to a table is seen through the name of the table. -/
theorem resultType_with :
    resultType "let t = createTable(${a: int, b: int}, [(1, 2)]);\nt" =
        some "table[schema[int, int]]" ∧
      resultType
        "let t = createTable(${a: int, b: int}, [(1, 2)]);\nlet u = with(t, \"c\", [3]);\nt" =
        some "table[schema[int, int, int]]" := by
  decide +kernel

end Primitive

end TableScript
