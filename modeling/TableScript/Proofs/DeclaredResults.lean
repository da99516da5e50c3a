import TableScript.Builtin.Signature
import TableScript.Primitive.Run
import TableScript.Proofs.ExpectedTypes
import TableScript.Proofs.TableAppend

/-!
# What built-in functions declare and what they give

The signature of a built-in function declares a type for its result, and where the function is
called the parser expects a value of that type. Nothing compares the two when the function runs.

* `Honours` says that whatever a built-in function gives goes with the type that it declares, when
  it is called on arguments that go with its parameters (`isReady`);
* `honours_iff`: this holds of all of them but those that are `misdeclared`. Those declare another
  type than they give (`isEmpty` and `sort`), give none for want of elements (such as `sum` and
  `zip`), or take the type of their result from a table (`getColumn` and `collect`).

For the others it is enough to know the `Kind` of the result, and `Yields` follows it through their
steps. A result whose own type lies within itself or is unknown in some part goes nowhere, so it is
left out. So is an argument whose content is not of the kind of its type (`Object.isMatched`): a
fold of no characters into a text gives its start the type of texts, though it is still a character,
and of that `toUpper` makes none.
-/

namespace TableScript

open Machine TypeStore

/-! ## Kinds of types and of contents -/

/-- The kinds of types that contents have. -/
inductive Kind where
  | int | bool | char | string | none | list | tuple | dict | schema | table | func
  deriving DecidableEq

/-- The kind of a type, if all its values are of one kind. -/
def Shape.kind? {ι : Type} : Shape ι → Option Kind
  | int => some .int
  | bool => some .bool
  | char => some .char
  | string => some .string
  | none => some .none
  | list _ => some .list
  | tuple _ _ => some .tuple
  | dict _ _ => some .dict
  | schema _ _ => some .schema
  | table _ _ => some .table
  | func _ _ => some .func
  | _ => Option.none

/-- The kind of the type behind a handle, which does not depend on the lists of members. -/
def TypeRef.kind? (t : TypeRef) : Option Kind :=
  (TypeStore.read {} t).kind?

/-- The kind of a content. -/
def Content.kind? : Content → Option Kind
  | int _ => some .int
  | bool _ => some .bool
  | char _ => some .char
  | string _ => some .string
  | none => some .none
  | list _ => some .list
  | tuple _ => some .tuple
  | dict _ => some .dict
  | schema _ => some .schema
  | table _ _ => some .table
  | func _ => some .func
  | entry _ _ => Option.none

theorem TypeStore.kind?_read (s : TypeStore) (t : TypeRef) :
    (s.read t).plain.kind? = t.kind? := by
  cases t <;> rfl

variable {a : Ty} {k : Kind} {b : Builtin}

theorem Shape.kind?_eq_of_conform {b : Ty} {j : Kind} (ha : a.kind? = some j)
    (hb : b.kind? = some k) (h : (a.conform b).isKnown = true) : j = k := by
  cases a <;> cases ha <;> cases b <;> cases hb <;> first | rfl | cases h

/-- The widest of the types that are declared of a kind. -/
def Kind.widest : Kind → Ty
  | int => .int
  | bool => .bool
  | string => .string
  | none => .none
  | list => .list .any
  | table => .table () []
  | _ => .any

theorem Shape.isKnown_conform_widest (hk : a.kind? = some k) (h : (a.conform .any).isKnown = true) :
    (a.conform k.widest).isKnown = true := by
  have hknown : a.isKnown = true := by
    rwa [conform_any] at h
    rintro rfl
    cases hk
  cases a <;> cases hk <;> try exact h
  case list a =>
    have hne : a ≠ unknown := by
      rintro rfl
      cases hknown
    show (conform a any).isKnown = true
    rwa [conform_any hne]
  case table => exact hknown

/-! ## Calls -/

/-- Does the type of a value go with a declared type? -/
def Store.obeys (s : Store) (r : Ref) (declared : Ty) : Bool :=
  s.types.ends (s.object r).type &&
    ((s.types.read (s.object r).type).plain.conform declared).isKnown

/-- Are the type and the content of an object of one kind? -/
def Object.isMatched (o : Object) : Bool :=
  o.type.kind?.isSome && o.type.kind? == o.content.kind?

/-- Is there a type behind a handle, and is it more than the name of any type? -/
def TypeStore.isSettled (s : TypeStore) : TypeRef → Bool
  | .any | .unknown | .absent => false
  | .union place => (s.list place).all fun t => !(t matches .absent)
  | _ => true

/-- Has a parameter an argument that goes with its type? -/
def Machine.supplies (m : Machine) (p : String × Ty) : Bool :=
  (m.scope.get? p.1).any fun r => m.store.obeys r p.2 && (m.store.object r).isMatched

/-- Have all parameters of a built-in function arguments that go with their types, and all columns
their types? -/
def Machine.isReady (m : Machine) (b : Builtin) : Bool :=
  b.parameters.all m.supplies &&
    m.store.columns.all fun columns => columns.all fun c => m.store.types.isSettled c.2

theorem TypeStore.isSettled_congr {s s' : TypeStore} (h : s'.lists = s.lists) (t : TypeRef) :
    s'.isSettled t = s.isSettled t := by
  cases t <;> simp only [isSettled, list, h]

theorem TypeStore.conform?_ne_absent_of_isSettled {s : TypeStore} {found expected : TypeRef}
    (h : s.isSettled expected = true) : s.conform? found expected ≠ some .absent := by
  intro hconform
  obtain ⟨-, hends, hconform⟩ := conform?_eq_some.mp hconform
  have habsent : (s.read found).plain.conform (s.read expected).plain = .absent := by
    rw [← Shape.plain_conform, Shape.eq_of_conform? hconform]
    rfl
  refine Shape.conform_ne_absent ?_ ?_ ?_ habsent
  · cases expected with
    | union place =>
      rw [Shape.isPresent_plain, read_union hends, Shape.isPresent, Bool.not_eq_true',
        List.any_eq_false]
      rintro t ht
      obtain ⟨handle, hhandle, rfl⟩ := List.mem_map.mp ht
      have hmember := List.all_eq_true.mp h handle hhandle
      intro hsame
      cases handle with
      | absent => cases hmember
      | _ => cases hsame
    | any | unknown | absent => cases h
    | _ => rfl
  all_goals
    intro hread
    cases expected with
    | any | unknown | absent => cases h
    | _ => cases hread

variable {m : Machine}

theorem Machine.isSettled_of_isReady (h : m.isReady b = true) {schema : Ref}
    {c : String × TypeRef} (hc : c ∈ m.store.columnsOf schema) :
    m.store.types.isSettled c.2 = true := by
  have hcolumns := (Bool.and_eq_true_iff.mp h).2
  rw [Store.columnsOf] at hc
  split at hc
  · next place _ =>
    rw [Store.columnList, Array.getD_eq_getD_getElem?] at hc
    cases hget : m.store.columns[place]? with
    | none =>
      rw [hget] at hc
      cases hc
    | some columns =>
      rw [hget] at hc
      have hall := Array.all_eq_true'.mp hcolumns columns (Array.mem_of_getElem? hget)
      exact List.all_eq_true.mp hall c hc
  · cases hc

theorem Machine.supplies_of_isReady (h : m.isReady b = true) (i : Nat) {p : String × Ty}
    (hp : b.parameters[i]? = some p) : m.supplies p = true :=
  List.all_eq_true.mp (Bool.and_eq_true_iff.mp h).1 p (List.mem_of_getElem? hp)

variable {name : String}

theorem Machine.exists_of_supplies {declared : Ty} (h : m.supplies (name, declared) = true)
    (hk : declared.kind? = some k) :
    ∃ r, m.scope.get? name = some r ∧ (m.store.object r).type.kind? = some k ∧
      (m.store.object r).content.kind? = some k := by
  obtain ⟨r, hr, hgiven⟩ := (Option.any_eq_true _ _).mp h
  simp only [Store.obeys, Object.isMatched, Bool.and_eq_true, beq_iff_eq,
    Option.isSome_iff_exists] at hgiven
  obtain ⟨⟨-, hknown⟩, ⟨j, hj⟩, hmatched⟩ := hgiven
  have hjk : j = k :=
    Shape.kind?_eq_of_conform ((m.store.types.kind?_read _).trans hj) hk hknown
  subst hjk
  exact ⟨r, hr, hj, hmatched ▸ hj⟩

theorem Machine.list_of_supplies {element : Ty} (h : m.supplies (name, .list element) = true) :
    ∃ r t place, m.scope.get? name = some r ∧
      m.store.object r = ⟨.list t, .list place⟩ := by
  obtain ⟨r, hr, htype, hcontent⟩ := exists_of_supplies h rfl
  rcases ho : m.store.object r with ⟨type, content⟩
  rw [ho] at htype hcontent
  cases type <;> cases htype
  cases content <;> cases hcontent
  exact ⟨r, _, _, hr, ho⟩

theorem Machine.table_of_supplies (h : m.supplies (name, Builtin.anyTable) = true) :
    ∃ r members schema rows, m.scope.get? name = some r ∧
      m.store.table? r = some ⟨.table members, schema, rows⟩ := by
  obtain ⟨r, hr, htype, hcontent⟩ := exists_of_supplies h rfl
  rcases ho : m.store.object r with ⟨type, content⟩
  rw [ho] at htype hcontent
  cases type <;> cases htype
  cases content <;> cases hcontent
  exact ⟨r, _, _, _, hr, Store.table?_eq_some.mpr ho⟩

namespace EvalM

open Primitive

/-! ## Kinds of results -/

/-- The step gives a value whose type is of a kind, if it gives any. -/
def Yields (k : Kind) (m : Machine) (x : EvalM Ref) : Prop :=
  ∀ r m', x.exec m = (.ok r, m') → (m'.store.object r).type.kind? = some k

namespace Yields

variable {k j : Kind} {m : Machine} {α : Type} {f : α → EvalM Ref}

theorem bind_ok {x : EvalM α} (h : ∀ a n, x.exec m = (.ok a, n) → Yields k n (f a)) :
    Yields k m (x >>= f) := by
  intro r m' hexec
  obtain ⟨a, n, hx, hf⟩ := exec_bind_ok hexec
  exact h a n hx r m' hf

theorem bind {x : EvalM α} (h : ∀ a n, Yields k n (f a)) : Yields k m (x >>= f) :=
  bind_ok fun a n _ => h a n

theorem bind_of {x : EvalM α} {n : Machine} {a : α} (hx : x.exec m = (.ok a, n))
    (h : Yields k n (f a)) : Yields k m (x >>= f) :=
  bind_ok fun b n' hb => by
    cases hx.symm.trans hb
    exact h

theorem pure {r : Ref} (h : (m.store.object r).type.kind? = some k) :
    Yields k m (Pure.pure r) := by
  intro r' m' hexec
  cases hexec
  exact h

theorem fault (f : Fault) : Yields k m (EvalM.fault f) := by
  intro r m' hexec
  cases hexec

theorem report (text : String) (position : Option Position) :
    Yields k m (EvalM.report text position) :=
  fun _ _ hexec => absurd hexec report_ne_ok

theorem new {type : TypeRef} (content : Content) (h : type.kind? = some k) :
    Yields k m (EvalM.new type content) := by
  intro r m' hexec
  cases hexec
  rw [Store.object_of_getElem? Array.getElem?_push_size]
  exact h

theorem newList {type : TypeRef} (elements : List Ref) (h : type.kind? = some k) :
    Yields k m (EvalM.newList type elements) :=
  bind fun place _ => new (.list place) h

theorem newTable (members : Nat) (schema : Ref) (rows : List Ref) :
    Yields .table m (Primitive.newTable members schema rows) :=
  bind fun place _ => new (.table schema place) rfl

section

variable {name : String} {declared element : Ty} {position : Option Position}

theorem argument {f : Ref → EvalM Ref} (hf : ∀ r, Yields k m (f r)) :
    Yields k m (Primitive.argument name position >>= f) := by
  intro r m' hexec
  obtain ⟨a, -, hexec⟩ := exec_argument_bind hexec
  exact hf a r m' hexec

theorem content {f : Content → EvalM Ref} (h : m.supplies (name, declared) = true)
    (hk : declared.kind? = some j) (hf : ∀ c, c.kind? = some j → Yields k m (f c)) :
    Yields k m (argumentContent name position >>= f) := by
  obtain ⟨r, hr, -, hcontent⟩ := exists_of_supplies h hk
  exact bind_of (exec_argumentContent_of hr position) (hf _ hcontent)

variable {f : Content → EvalM Ref}

theorem int (h : m.supplies (name, .int) = true) (hf : ∀ n, Yields k m (f (.int n))) :
    Yields k m (argumentContent name position >>= f) :=
  content h rfl fun c hc => by cases c <;> cases hc; exact hf _

theorem bool (h : m.supplies (name, .bool) = true) (hf : ∀ b, Yields k m (f (.bool b))) :
    Yields k m (argumentContent name position >>= f) :=
  content h rfl fun c hc => by cases c <;> cases hc; exact hf _

theorem string (h : m.supplies (name, .string) = true) (hf : ∀ t, Yields k m (f (.string t))) :
    Yields k m (argumentContent name position >>= f) :=
  content h rfl fun c hc => by cases c <;> cases hc; exact hf _

theorem list (h : m.supplies (name, .list element) = true)
    (hf : ∀ place, Yields k m (f (.list place))) :
    Yields k m (argumentContent name position >>= f) :=
  content h rfl fun c hc => by cases c <;> cases hc; exact hf _

theorem listArgument {f : Option (TypeRef × Nat) → EvalM Ref}
    (h : m.supplies (name, .list element) = true)
    (hf : ∀ t place, Yields k m (f (some (.list t, place)))) :
    Yields k m (listArgument? name position >>= f) := by
  obtain ⟨r, t, place, hr, ho⟩ := list_of_supplies h
  have hlist : (listArgument? name position).exec m = (.ok (some (.list t, place)), m) := by
    rw [listArgument?, exec_bind_argument hr, exec_bind_object, ho]
    rfl
  exact bind_of hlist (hf t place)

theorem tableArgument {f : Option TableView → EvalM Ref}
    (h : m.supplies (name, Builtin.anyTable) = true)
    (hf : ∀ members schema rows, Yields k m (f (some ⟨.table members, schema, rows⟩))) :
    Yields k m (Primitive.argument name position >>= fun r => table? r >>= f) := by
  obtain ⟨r, members, schema, rows, hr, hview⟩ := table_of_supplies h
  exact bind_of (exec_argument_of hr position)
    (bind_of (by rw [exec_table?, hview]) (hf members schema rows))

end

/-! ## Built-in functions -/

section

variable {position : Option Position}

theorem editList (t : TypeRef) (place : Nat) (f : List Ref → EvalM (List Ref)) :
    Yields .list m (Primitive.editList (.list t) place f) :=
  bind fun _ _ => bind fun _ _ => bind fun elements _ => newList elements rfl

theorem twoLists {f : TypeRef → List Ref → List Ref → EvalM Ref} {b : Ty}
    (h₁ : m.supplies ("list1", .list a) = true) (h₂ : m.supplies ("list2", .list b) = true)
    (hf : ∀ t as bs n, Yields .list n (f (.list t) as bs)) :
    Yields .list m (Primitive.twoLists position f) := by
  obtain ⟨q, t, p₁, hq, hqo⟩ := list_of_supplies h₁
  obtain ⟨r, u, p₂, hr, hro⟩ := list_of_supplies h₂
  refine bind_of (exec_argument_of hq position) (bind_of (exec_object q m) ?_)
  refine bind_of (exec_argument_of hr position) (bind_of (exec_object r m) ?_)
  rw [hqo, hro]
  refine bind_ok fun fits n hconforms => ?_
  cases fits with
  | true => exact bind fun as _ => bind fun bs n => hf t as bs n
  | false =>
    have habsent := (exec_conforms_ok hconforms).2.2 rfl
    exact absurd habsent (conform?_ne_absent_of_isSettled rfl)

variable {m' : Machine}

theorem cellsConform_ne_false {columns : List (String × TypeRef)} {cells : List Ref}
    (hcolumns : ∀ c ∈ columns, m.store.types.isSettled c.2 = true) :
    (cellsConform position cells columns).exec m ≠ (.ok false, m') := by
  intro h
  obtain ⟨cell, -, column, hcolumn, habsent⟩ := (exec_cellsConform_ok h).2.2 rfl
  exact conform?_ne_absent_of_isSettled (hcolumns column hcolumn) habsent

theorem rowsConform_ne_false {columns : List (String × TypeRef)} {rows : List Ref}
    (hcolumns : ∀ c ∈ columns, m.store.types.isSettled c.2 = true) :
    (rowsConform position columns rows).exec m ≠ (.ok false, m') := by
  induction rows with
  | nil =>
    intro h
    cases h
  | cons row rows ih =>
    rw [rowsConform, exec_bind_cells?]
    cases m.store.cells? row with
    | none => exact ih
    | some cells =>
      intro h
      obtain ⟨fits, n, hcells, hrest⟩ := exec_bind_ok h
      cases fits with
      | true =>
        obtain ⟨rfl, -⟩ := exec_cellsConform_ok hcells
        exact ih hrest
      | false => exact cellsConform_ne_false hcolumns hcells

theorem runCreateTable (h : m.isReady .createTable = true) :
    Yields .table m (Primitive.runCreateTable position) := by
  obtain ⟨q, hq, htype, hcontent⟩ := exists_of_supplies (m.supplies_of_isReady h 0 rfl) rfl
  obtain ⟨r, t, place, hr, hro⟩ := list_of_supplies (m.supplies_of_isReady h 1 rfl)
  refine bind_of (exec_argument_of hq position) (bind_of (exec_argument_of hr position) ?_)
  refine bind_of (exec_object q m) (bind_of (exec_content r m) ?_)
  have hcolumns : ∀ c ∈ m.store.columnsOf q, m.store.types.isSettled c.2 = true :=
    fun _ hc => m.isSettled_of_isReady h hc
  rw [Store.content, hro]
  rw [Store.columnsOf, Store.content] at hcolumns
  rcases ho : m.store.object q with ⟨type, content⟩
  rw [ho] at htype hcontent hcolumns
  cases type <;> cases htype
  cases content <;> cases hcontent
  refine bind_of (exec_store m) (bind_of (exec_sequence place m) (bind_ok fun fits n hrows => ?_))
  cases fits with
  | true => exact new _ rfl
  | false => exact absurd hrows (rowsConform_ne_false hcolumns)

theorem runWith (h : m.isReady .with = true) : Yields .table m (Primitive.runWith position) := by
  obtain ⟨r, members, schema, rows, hr, hview⟩ :=
    table_of_supplies (m.supplies_of_isReady h 0 rfl)
  refine bind_of (exec_argument_of hr position) <|
    string (m.supplies_of_isReady h 1 rfl) fun name =>
    list (m.supplies_of_isReady h 2 rfl) fun place => bind_of (exec_table? r m) ?_
  rw [hview]
  refine bind_of (exec_sequence rows m) (bind_of (exec_sequence place m) ?_)
  dsimp only
  split
  · exact report _ _
  · split
    · exact report _ _
    · refine bind_ok fun type n htype => ?_
      obtain ⟨-, -, rfl⟩ := exec_typeOf_ok htype
      refine bind_of (exec_extendSchema _ _ _ n) (bind_ok fun _ n' hrows => ?_)
      rw [exec_extendRows] at hrows
      cases (Prod.mk.inj hrows).2
      -- the types of the rows and of the table have changed, but not where the table finds them
      refine pure ?_
      rw [Store.object, Store.objects_extendRows, objects_extendSchema, ← Store.object,
        Store.table?_eq_some.mp hview]
      rfl

theorem exec_appendRows_settled {t : TableView} {source turns index : Nat} {b : Bool}
    (hcolumns : ∀ c ∈ m.store.columnsOf t.schema, m.store.types.isSettled c.2 = true)
    (h : (appendRows position t source turns index).exec m = (.ok b, m')) :
    b = true ∧ m'.store.objects = m.store.objects := by
  induction turns generalizing index m with
  | zero => cases h
  | succ turns ih =>
    cases hget : (m.store.sequence source)[index]? with
    | none =>
      rw [exec_appendRows_end hget] at h
      cases h
      exact ⟨rfl, rfl⟩
    | some row =>
      cases hcells : m.store.cells? row with
      | none =>
        rw [exec_appendRows_skip hget hcells] at h
        exact ih hcolumns h
      | some cells =>
        by_cases hfits : RowFits m.store t row
        · rw [exec_appendRows_fits hget hfits] at h
          have hsettled : ∀ c ∈ (withRow m.store t row).columnsOf t.schema,
              (withRow m.store t row).types.isSettled c.2 = true := by
            intro c hc
            rw [isSettled_congr (lists_withRow m.store t row)]
            exact hcolumns c (columnsOf_appendedRows [row] t.schema ▸ hc)
          obtain ⟨hb, hobjects⟩ := ih (m := { m with store := _ }) hsettled h
          exact ⟨hb, hobjects.trans (objects_withRow m.store t row)⟩
        · rw [exec_appendRows_unfit hget hcells hfits, checkRow] at h
          split at h
          · exact absurd h report_ne_ok
          · cases b with
            | true => exact ⟨rfl, (exec_cellsConform_ok h).1 ▸ rfl⟩
            | false => exact absurd h (cellsConform_ne_false hcolumns)

theorem runAppend (h : m.isReady .append = true) :
    Yields .table m (Primitive.runAppend position) := by
  obtain ⟨r, members, schema, rows, hr, hview⟩ :=
    table_of_supplies (m.supplies_of_isReady h 0 rfl)
  refine bind_of (exec_argument_of hr position) <|
    list (m.supplies_of_isReady h 1 rfl) fun place => bind_of (exec_table? r m) ?_
  rw [hview]
  refine bind_of (exec_sequence place m) (bind_ok fun appended n happended => ?_)
  obtain ⟨rfl, hobjects⟩ :=
    exec_appendRows_settled (fun c hc => m.isSettled_of_isReady h hc) happended
  refine pure ?_
  rw [Store.object, hobjects, ← Store.object, Store.table?_eq_some.mp hview]
  rfl

theorem runWriteCsv (h : m.isReady .writeCsv = true) :
    Yields .bool m (Primitive.runWriteCsv position) := by
  refine tableArgument (m.supplies_of_isReady h 0 rfl) fun _ _ _ =>
    string (m.supplies_of_isReady h 1 rfl) fun _ => bool (m.supplies_of_isReady h 2 rfl) fun _ => ?_
  refine bind fun _ _ => bind fun _ _ => bind fun _ _ => bind fun _ _ => ?_
  split
  · exact report _ _
  · refine bind fun _ _ => ?_
    split
    · refine bind fun _ _ => ?_
      split
      · exact new _ rfl
      · exact report _ _
    · exact report _ _

end

end Yields

end EvalM

namespace Builtin

open EvalM Primitive

/-- The built-in functions that give values of other types than they declare. -/
def misdeclared : List Builtin :=
  [isEmpty, sort, map, filter, zip, sum, product, max, min, slice, readCsv, getColumn, collect]

open Yields in
theorem yields_run (eval : Evaluator) (position : Option Position) (h : m.isReady b = true)
    (hb : b ∉ misdeclared) (hk : b.result.kind? = some k) : Yields k m (run eval position b) := by
  have arg (i : Nat) {p : String × Ty} (hp : b.parameters[i]? = some p) :=
    m.supplies_of_isReady h i hp
  cases b <;> cases hk <;> try exact absurd (by decide) hb
  all_goals rw [run]
  case readln => exact bind fun _ _ => new _ rfl
  case print | println =>
    refine bind fun _ _ => bind fun _ _ => ?_
    split
    · exact fault _
    · exact bind fun _ _ => bind fun _ _ => new _ rfl
  case len => exact bind fun _ _ => bind fun _ _ => bind fun _ _ => new _ rfl
  case insert =>
    exact listArgument (arg 0 rfl) fun t p => argument fun _ => int (arg 2 rfl) fun _ =>
      editList t p _
  case remove => exact listArgument (arg 0 rfl) fun t p => int (arg 1 rfl) fun _ => editList t p _
  case replace =>
    exact listArgument (arg 0 rfl) fun t p => int (arg 1 rfl) fun _ => argument fun _ =>
      editList t p _
  case contains =>
    refine bind fun _ _ => bind fun _ _ => ?_
    split
    · exact bind fun _ _ => new _ rfl
    · exact new _ rfl
  case find =>
    refine bind fun _ _ => bind fun _ _ => ?_
    split
    · refine bind fun _ _ => ?_
      split <;> exact new _ rfl
    · exact new _ rfl
  case fill =>
    refine int (arg 0 rfl) fun n => argument fun _ => ?_
    show Yields _ _ (if n ≤ 0 then _ else _)
    split
    · exact report _ _
    · exact bind fun _ _ => bind fun _ _ => newList _ rfl
  case reverse => exact listArgument (arg 0 rfl) fun t p => editList t p _
  case set =>
    exact twoLists (arg 0 rfl) (arg 1 rfl) fun _ _ _ _ =>
      bind fun _ _ => bind fun _ _ => newList _ rfl
  case intersect =>
    exact twoLists (arg 0 rfl) (arg 1 rfl) fun _ _ _ _ =>
      bind fun _ _ => bind fun _ _ => bind fun _ _ => newList _ rfl
  case substr =>
    refine string (arg 0 rfl) fun _ => int (arg 1 rfl) fun _ => int (arg 2 rfl) fun _ => ?_
    dsimp only
    split
    · exact report _ _
    · exact new _ rfl
  case toStr => exact bind fun _ _ => bind fun _ _ => new _ rfl
  case joinStr =>
    refine bind fun _ _ => bind fun _ _ => ?_
    split
    · exact bind fun _ _ => bind fun _ _ => new _ rfl
    · exact fault _
  case toUpper | toLower => exact string (arg 0 rfl) fun _ => new _ rfl
  case startsWith | endsWith =>
    refine bind fun _ _ => bind fun _ _ => ?_
    split <;> exact new _ rfl
  case toInt =>
    refine string (arg 0 rfl) fun _ => ?_
    dsimp only
    split
    · exact new _ rfl
    · exact fault _
  case createTable => exact runCreateTable h
  case column =>
    refine list (arg 0 rfl) fun _ => string (arg 1 rfl) fun _ => bind fun _ _ => ?_
    split
    · exact report _ _
    · exact bind fun _ _ => bind fun _ _ => bind fun _ _ => bind fun _ _ => newTable _ _ _
  case writeCsv => exact runWriteCsv h
  case join =>
    refine tableArgument (arg 0 rfl) fun _ _ _ => tableArgument (arg 1 rfl) fun _ _ _ =>
      list (arg 2 rfl) fun _ => string (arg 3 rfl) fun _ => ?_
    refine bind fun _ _ => bind fun _ _ => bind fun _ _ => bind fun _ _ => bind fun _ _ =>
      bind fun _ _ => bind fun _ _ => ?_
    dsimp only
    split
    · exact report _ _
    · exact bind fun _ _ => newTable _ _ _
  case «with» => exact runWith h
  case select =>
    refine bind fun _ _ => bind fun _ _ => bind fun _ _ => bind fun _ _ => ?_
    split
    · exact bind fun _ _ => bind fun _ _ => bind fun _ _ => bind fun _ _ => bind fun _ _ =>
        bind fun _ _ => newTable _ _ _
    · exact fault _
  case drop =>
    refine tableArgument (arg 0 rfl) fun _ _ _ => string (arg 1 rfl) fun _ => bind fun _ _ => ?_
    dsimp only
    split
    · exact report _ _
    · exact bind fun _ _ => bind fun _ _ => bind fun _ _ => bind fun _ _ => bind fun _ _ =>
        newTable _ _ _
  case getColumns =>
    refine tableArgument (arg 0 rfl) fun _ _ _ => list (arg 1 rfl) fun _ =>
      bind fun _ _ => bind fun _ _ => ?_
    dsimp only
    split
    · exact report _ _
    · exact bind fun _ _ => bind fun _ _ => bind fun _ _ => bind fun _ _ => newTable _ _ _
  case count => exact tableArgument (arg 0 rfl) fun _ _ _ => bind fun _ _ => new _ rfl
  case append => exact runAppend h
  case type => exact bind fun _ _ => bind fun _ _ => bind fun _ _ => new _ rfl
  case rand =>
    refine int (arg 0 rfl) fun _ => int (arg 1 rfl) fun _ => ?_
    dsimp only
    split
    · exact fault _
    · exact bind fun _ _ => new _ rfl

theorem result_eq_widest (hb : b ∉ misdeclared) :
    b.result = .any ∨ ∃ k, b.result.kind? = some k ∧ b.result = k.widest := by
  cases b <;> first
    | exact absurd (by decide) hb
    | exact .inl rfl
    | exact .inr ⟨_, rfl, rfl⟩

/-- Whenever the function is called on arguments that go with its parameters and gives a value, the
value goes with the type that is declared, if it goes anywhere at all. -/
def Honours (b : Builtin) : Prop :=
  ∀ (eval : Evaluator) (position : Option Position) (m m' : Machine) (r : Ref),
    m.isReady b = true → (run eval position b).exec m = (.ok r, m') →
      m'.store.obeys r .any = true → m'.store.obeys r b.result = true

/-- A call with an empty list, an empty text and a table without rows. -/
def bare (columns : List (String × TypeRef)) : Machine where
  store := {
    types := { lists := #[columns.map (·.2)] }
    objects := #[⟨.list .int, .list 0⟩, ⟨.string, .string ""⟩, ⟨.int, .int 0⟩,
      ⟨.bool, .bool true⟩, ⟨.func [.int] .bool, .func default⟩, ⟨.schema 0, .schema 0⟩,
        ⟨.table 0, .table ⟨5⟩ 0⟩]
    sequences := #[#[]]
    columns := #[columns] }
  scope :=
    { names := [("list", ⟨0⟩), ("iterable", ⟨0⟩), ("iterable1", ⟨0⟩),
      ("iterable2", ⟨0⟩), ("string_value", ⟨1⟩), ("name", ⟨1⟩), ("path", ⟨1⟩),
        ("start", ⟨2⟩), ("end", ⟨2⟩), ("header", ⟨3⟩), ("function_value", ⟨4⟩),
          ("schema", ⟨5⟩), ("table", ⟨6⟩)] }
  disk := { nodes := [([".csv"], .file "")] }

/-- Does the function give a value that goes somewhere, but not with its declared type? -/
def breaks (b : Builtin) (m : Machine) : Bool :=
  m.isReady b &&
    match (run (fun _ _ => newNone) (some {}) b).exec m with
    | (.ok r, m') => m'.store.obeys r .any && !m'.store.obeys r b.result
    | _ => false

theorem not_honours_of_breaks (h : breaks b m = true) : ¬ Honours b := by
  intro hb
  rw [breaks, Bool.and_eq_true] at h
  rcases hexec : (run (fun _ _ => newNone) (some {}) b).exec m with ⟨halt | r, m'⟩
  · rw [hexec] at h
    cases h.2
  · rw [hexec] at h
    obtain ⟨hany, hresult⟩ := Bool.and_eq_true_iff.mp h.2
    rw [hb _ _ m m' r h.1 hexec hany] at hresult
    cases hresult

theorem breaks_bare : ∀ b ∈ misdeclared,
    breaks b (bare []) = true ∨ breaks b (bare [("", .int)]) = true := by
  decide +kernel

/-- All built-in functions but thirteen honour what they declare. -/
theorem honours_iff (b : Builtin) : Honours b ↔ b ∉ misdeclared := by
  constructor
  · intro h hb
    rcases breaks_bare b hb with hbreaks | hbreaks <;> exact not_honours_of_breaks hbreaks h
  · intro hb eval position m m' r hready hexec hany
    rcases result_eq_widest hb with hresult | ⟨k, hk, hresult⟩
    · rwa [hresult]
    · have hkind := yields_run eval position hready hb hk r m' hexec
      rw [Store.obeys, Bool.and_eq_true] at hany ⊢
      rw [← m'.store.types.kind?_read] at hkind
      exact ⟨hany.1, hresult ▸ Shape.isKnown_conform_widest hkind hany.2⟩

/-- A call with the list `[2, 1]`. -/
def twoNumbers : Machine where
  store := {
    objects := #[⟨.int, .int 2⟩, ⟨.int, .int 1⟩, ⟨.list .int, .list 0⟩]
    sequences := #[#[⟨0⟩, ⟨1⟩]] }
  scope := { names := [("list", ⟨2⟩)] }

/-- A list of numbers is sorted to a list, where a number is declared. -/
theorem sort_not_honours : ¬ Honours .sort :=
  not_honours_of_breaks (m := twoNumbers) (by decide +kernel)

end Builtin

end TableScript
