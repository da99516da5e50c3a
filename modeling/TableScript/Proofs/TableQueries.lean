import TableScript.Proofs.TableMaking
import TableScript.Script

/-!
# Joins and selections as operations on frames

A `Frame` is what a table holds: its columns, and the cells of its rows. The built-in functions that
put a query to the rows of tables are operations on frames.

* `Makes` is about steps that make things, one after the other, while the store only grows.
* `Store.FrameAt` says which frame a new table has; the table, its schema and its rows then share
  one list of types.
* `join_filters_product`: a join is the product of two frames, filtered by the query and cut down to
  the columns that are named. Two columns of one name are an error.
* `select_eq_getColumns`: a selection by a query that always holds is a choice of columns.
-/

namespace TableScript

/-! ## Names of columns -/

namespace Text

theorem eraseFrom_skip (word skipped rest : List Char) :
    eraseFrom word skipped.length (skipped ++ rest) = eraseFrom word 0 rest := by
  induction skipped with
  | nil => rfl
  | cons c skipped ih => exact ih

variable {word cs : List Char}

theorem eraseFrom_of_absent (h : ¬ word <:+: cs) : eraseFrom word 0 cs = cs := by
  induction cs with
  | nil => rfl
  | cons c cs ih =>
    rw [List.infix_cons_iff, not_or] at h
    rw [eraseFrom, if_neg (by simpa using h.1), ih h.2]

variable {s : String}

theorem erase_of_absent {word : String} (h : ¬ word.toList <:+: s.toList) : erase word s = s := by
  rw [erase, eraseFrom_of_absent h, String.ofList_toList]

theorem eraseFrom_append (hword : word ≠ []) (h : ¬ word <:+: cs) :
    eraseFrom word 0 (word ++ cs) = cs := by
  cases word with
  | nil => exact absurd rfl hword
  | cons c word =>
    have hstarts : (c :: word).isPrefixOf (c :: (word ++ cs)) = true := by simp
    rw [List.cons_append, eraseFrom, if_pos hstarts]
    exact (eraseFrom_skip _ word cs).trans (eraseFrom_of_absent h)

theorem erase_append {word : String} (hword : word.toList ≠ [])
    (h : ¬ word.toList <:+: s.toList) :
    erase word (word ++ s) = s := by
  rw [erase, String.toList_append, eraseFrom_append hword h, String.ofList_toList]

end Text

namespace Primitive

open EvalM

/-- The name has neither of the words in it that stand for one of two tables. -/
def IsPlainName (name : String) : Prop :=
  ∀ word ∈ ["left.", "right."], ¬ word.toList <:+: name.toList

instance (name : String) : Decidable (IsPlainName name) :=
  inferInstanceAs (Decidable (∀ word ∈ ["left.", "right."], ¬ word.toList <:+: name.toList))

theorem qualified_left (name : String) : qualified "left" name = "left." ++ name := rfl

theorem qualified_right (name : String) : qualified "right" name = "right." ++ name := rfl

variable {side : String}

theorem erase_qualified {name : String} (hside : side ∈ ["left", "right", ""])
    (h : IsPlainName name) :
    Text.erase "right." (Text.erase "left." (qualified side name)) = name := by
  have hleft := h "left." (by simp)
  have hright := h "right." (by simp)
  obtain rfl | rfl | rfl : side = "left" ∨ side = "right" ∨ side = "" := by simpa using hside
  · rw [qualified_left, Text.erase_append (by decide) hleft, Text.erase_of_absent hright]
  · have hno : ¬ "left.".toList <:+: ("right." ++ name).toList := by
      simpa [List.infix_cons_iff, List.cons_prefix_cons] using hleft
    rw [qualified_right, Text.erase_of_absent hno, Text.erase_append (by decide) hright]
  · rw [show qualified "" name = name from rfl, Text.erase_of_absent hleft,
      Text.erase_of_absent hright]

theorem plainNames_eq_filter (hside : side ∈ ["left", "right", ""]) {names : List (Option String)}
    {columns : List (String × TypeRef)} (h : ∀ c ∈ columns, IsPlainName c.1) :
    plainNames (selectColumns side names columns) = columns.filter (isNamed side names) := by
  rw [plainNames_eq_map]
  refine (List.map_congr_left fun c hc => ?_).trans (List.map_id _)
  rw [erase_qualified hside (h c (List.mem_filter.mp hc).1), id]

/-! ## Steps that make things -/

/-- Once the store has grown, the step gives something that stands for `b`, and only adds. -/
def Makes {α β : Type} (R : Store → α → β → Prop) (before : Store) (x : EvalM α)
    (b : β) : Prop :=
  ∀ m : Machine, before.Extends m.store →
    ∃ a m', x.exec m = (.ok a, m') ∧ m.store.Extends m'.store ∧ R m'.store a b

section

variable {α β γ : Type} {R : Store → α → β → Prop} {before : Store}

theorem Makes.mapM (hR : ∀ {s s' a b}, Store.Extends s s' → R s a b → R s' a b)
    {x : γ → EvalM α} {f : γ → β} {l : List γ}
    (h : ∀ c ∈ l, Makes R before (x c) (f c)) :
    Makes (fun s => List.Forall₂ (R s)) before (l.mapM x) (l.map f) := by
  induction l with
  | nil => exact fun m _ => ⟨[], m, rfl, .refl _, .nil⟩
  | cons c l ih =>
    intro m hm
    obtain ⟨a, m₁, hfirst, hadds, ha⟩ := h c List.mem_cons_self m hm
    obtain ⟨as, m₂, hrest, hadds', has⟩ :=
      ih (fun c hc => h c (List.mem_cons_of_mem _ hc)) m₁ (hm.trans hadds)
    refine ⟨a :: as, m₂, ?_, hadds.trans hadds', .cons (hR hadds' ha) has⟩
    rw [List.mapM_cons, exec_bind_of hfirst, exec_bind_of hrest, exec_pure]

theorem Makes.filterMapM (hR : ∀ {s s' a b}, Store.Extends s s' → R s a b → R s' a b)
    {x : γ → EvalM (Option α)} {f : γ → Option β} {l : List γ}
    (h : ∀ c ∈ l, Makes (fun s => Option.Rel (R s)) before (x c) (f c)) :
    Makes (fun s => List.Forall₂ (R s)) before (l.filterMapM x) (l.filterMap f) := by
  have hRel {s s' : Store} {a b} (hs : s.Extends s') (hab : Option.Rel (R s) a b) :
      Option.Rel (R s') a b := by
    cases hab with
    | none => exact .none
    | some hab => exact .some (hR hs hab)
  intro m hm
  obtain ⟨as, m', hexec, hadds, has⟩ :=
    Makes.mapM (R := fun s => Option.Rel (R s)) hRel h m hm
  rw [filterMapM_eq_map]
  refine ⟨_, m', exec_map_of hexec, hadds, ?_⟩
  have hkept := List.rel_filterMap (P := R m'.store) (a := id) (b := id) (fun _ _ hab => hab) has
  rwa [List.filterMap_map] at hkept

end

end Primitive

/-! ## Frames -/

/-- What a table holds: its columns, and the cells of its rows. -/
structure Frame where
  columns : List (String × TypeRef)
  rows : List (List Ref)

variable {cells : List Ref} {members place : Nat} {schema : Ref} {g : Frame}

namespace Frame

/-- The cells in the columns that are kept. -/
def project (columns : List (String × TypeRef)) (kept : String × TypeRef → Bool)
    (cells : List Ref) : List Ref :=
  ((cells.zip columns).filter fun p => kept p.2).map Prod.fst

/-- The columns that are kept, with their cells. -/
def choose (g : Frame) (kept : String × TypeRef → Bool) : Frame where
  columns := g.columns.filter kept
  rows := g.rows.map (project g.columns kept)

/-- The columns of two frames that are kept, with their cells in the pairs of rows that are
accepted. -/
def join (left right : Frame) (keptLeft keptRight : String × TypeRef → Bool)
    (accepts : List Ref → List Ref → Bool) : Frame where
  columns := left.columns.filter keptLeft ++ right.columns.filter keptRight
  rows := left.rows.flatMap fun as => (right.rows.filter (accepts as)).map fun bs =>
    project left.columns keptLeft as ++ project right.columns keptRight bs

theorem length_project {columns : List (String × TypeRef)} {kept : String × TypeRef → Bool}
    (h : cells.length = columns.length) :
    (project columns kept cells).length = (columns.filter kept).length := by
  rw [project, Primitive.filter_eq_map_zip h, List.length_map, List.length_map]

theorem length_of_mem_join {left right : Frame} {keptLeft keptRight : String × TypeRef → Bool}
    {accepts : List Ref → List Ref → Bool}
    (hleft : ∀ cells ∈ left.rows, cells.length = left.columns.length)
    (hright : ∀ cells ∈ right.rows, cells.length = right.columns.length) :
    ∀ cells ∈ (left.join right keptLeft keptRight accepts).rows,
      cells.length = (left.join right keptLeft keptRight accepts).columns.length := by
  intro cells hcells
  obtain ⟨as, has, hcells⟩ := List.mem_flatMap.mp hcells
  obtain ⟨bs, hbs, rfl⟩ := List.mem_map.mp hcells
  rw [List.length_append, length_project (hleft as has),
    length_project (hright bs (List.mem_filter.mp hbs).1), join, List.length_append]

end Frame

namespace Store

open Primitive

variable {s s' : Store}

/-- The frame of a table. A row that is no tuple has no cells. -/
def frame (s : Store) (t : TableView) : Frame where
  columns := s.columnsOf t.schema
  rows := (s.sequence t.rows).filterMap s.cells?

/-- The text at a reference. -/
def text? (s : Store) (r : Ref) : Option String :=
  match s.content r with
  | .string text => some text
  | _ => none

/-- The texts in the list at a reference. -/
def texts? (s : Store) (r : Ref) : Option (List (Option String)) :=
  match s.content r with
  | .list place => some ((s.sequence place).map s.text?)
  | _ => none

variable {r : Ref}

theorem text?_eq_some {text : String} :
    s.text? r = some text ↔ s.content r = .string text := by
  rw [text?]
  cases s.content r <;> simp

theorem texts?_eq_some {texts : List (Option String)} :
    s.texts? r = some texts ↔
      ∃ place, s.content r = .list place ∧ (s.sequence place).map s.text? = texts := by
  rw [texts?]
  cases s.content r <;> simp

/-- A row of these cells is at a reference; the types of its type are the list at `members`. -/
def RowAt (s : Store) (members : Nat) (r : Ref) (cells : List Ref) : Prop :=
  ∃ c place, s.objects[r.index]? = some ⟨.tuple c, .tuple place⟩ ∧
    s.types.cells[c]? = some members ∧ s.sequences[place]? = some cells.toArray

theorem exec_columnsOf_frame (t : TableView) (m : Machine) :
    (Primitive.columnsOf t).exec m = (.ok (m.store.frame t).columns, m) := rfl

/-- A schema of these columns is at a reference; the types of its type are the list at
`members`. -/
def SchemaAt (s : Store) (members : Nat) (schema : Ref) (columns : List (String × TypeRef)) :
    Prop :=
  ∃ place, s.objects[schema.index]? = some ⟨.schema members, .schema place⟩ ∧
    s.columns[place]? = some columns

/-- A table that has a frame is at a reference. The table, its schema and its rows share the types
of the columns. -/
def FrameAt (s : Store) (r : Ref) (g : Frame) : Prop :=
  ∃ members schema place rows, s.objects[r.index]? =
    some ⟨.table members, .table schema place⟩ ∧
    s.types.lists[members]? = some (g.columns.map Prod.snd) ∧
      s.SchemaAt members schema g.columns ∧
    s.sequences[place]? = some rows.toArray ∧ List.Forall₂ (s.RowAt members) rows g.rows

theorem Extends.rowAt (h : s.Extends s') (hr : s.RowAt members r cells) :
    s'.RowAt members r cells := by
  obtain ⟨c, place, hobject, hcell, hsequence⟩ := hr
  exact ⟨c, place, h.objects hobject, h.types.cells hcell, h.sequences hsequence⟩

theorem Extends.schemaAt (h : s.Extends s') {columns : List (String × TypeRef)}
    (hschema : s.SchemaAt members schema columns) : s'.SchemaAt members schema columns := by
  obtain ⟨place, hobject, hcolumns⟩ := hschema
  exact ⟨place, h.objects hobject, h.columns hcolumns⟩

end Store

namespace Primitive

open EvalM

variable {m m' : Machine} {before : Store} {position : Option Position}

theorem makes_row (before : Store) (members : Nat) (cells : List Ref) :
    Makes (fun s => Option.Rel (s.RowAt members)) before
      (do some <$> newTuple (← newRowType members) cells) (some cells) := by
  intro m _
  refine ⟨some _, _, rfl, ?_, .some ⟨_, _, Array.getElem?_push_size, Array.getElem?_push_size,
    Array.getElem?_push_size⟩⟩
  exact ((moves_newRowType members).bind fun type => .map (moves_newTuple type cells) some) m

theorem makes_newMembers (before : Store) (types : List TypeRef) :
    Makes (fun s members types => s.types.lists[members]? = some types) before (newMembers types)
      types :=
  fun m _ => ⟨_, _, rfl, moves_newMembers types m, Array.getElem?_push_size⟩

theorem makes_newSchema (before : Store) (members : Nat) (columns : List (String × TypeRef)) :
    Makes (fun s => s.SchemaAt members) before (newSchema members columns) columns := by
  intro m _
  exact ⟨_, _, rfl, moves_newSchema members columns m,
    _, Array.getElem?_push_size, Array.getElem?_push_size⟩

theorem exec_newTable_of {rows : List Ref}
    (htypes : m.store.types.lists[members]? = some (g.columns.map Prod.snd))
    (hschema : m.store.SchemaAt members schema g.columns)
    (hrows : List.Forall₂ (m.store.RowAt members) rows g.rows) :
    ∃ r m', (newTable members schema rows).exec m = (.ok r, m') ∧ m.store.Extends m'.store ∧
      m'.store.FrameAt r g := by
  have hadds := moves_newTable members schema rows m
  refine ⟨_, _, rfl, hadds, members, schema, _, rows, Array.getElem?_push_size,
    hadds.types.lists htypes, hadds.schemaAt hschema, Array.getElem?_push_size,
    hrows.imp fun _ _ => hadds.rowAt⟩

/-! ## Queries -/

/-- The query is true of the cells. -/
def isTrue (query : String) (cells : List (String × Value)) : Bool :=
  match Query.ask query cells with
  | .ok (.holds (some true)) => true
  | _ => false

variable {cells : List (String × Ref)} {query : String} {s s' : Store} {t : TableView}

theorem isTrue_iff {cells : List (String × Value)} :
    isTrue query cells = true ↔ Query.ask query cells = .ok (.holds (some true)) := by
  unfold isTrue
  split <;> simp_all

/-- Has the query a truth value, or none, for the cells? -/
def isAnswered (query : String) (cells : List (String × Value)) : Bool :=
  match Query.ask query cells with
  | .ok (.holds _) => true
  | _ => false

theorem isAnswered_iff {cells : List (String × Value)} :
    isAnswered query cells = true ↔ ∃ b, Query.ask query cells = .ok (.holds b) := by
  unfold isAnswered
  split <;> simp_all

/-- The cells of a row under the names of their columns, as a query sees them. -/
def bound (s : Store) (side : String) (columns : List (String × TypeRef)) (cells : List Ref) :
    List (String × Value) :=
  (columns.zip cells).map fun p => (qualified side p.1.1, s.value p.2)

theorem bound_eq_map (s : Store) (side : String) (columns : List (String × TypeRef))
    (cells : List Ref) :
    bound s side columns cells =
      ((columns.zip cells).map fun p => (qualified side p.1.1, p.2)).map
        fun c => (c.1, s.value c.2) := by
  rw [bound, List.map_map]
  rfl

/-- The cells of a row of either of two tables, as a query sees them. -/
def pair (s : Store) (l r : TableView) (as bs : List Ref) : List (String × Value) :=
  bound s "left" (s.frame l).columns as ++ bound s "right" (s.frame r).columns bs

theorem toQuery_value (h : s.Extends s') {r : Ref} {v : Query.Value}
    (hv : (s.value r).toQuery = .ok v) : (s'.value r).toQuery = .ok v := by
  have hobject (hr : s.content r ≠ .none) : s'.object r = s.object r := h.object_eq hr
  rw [Store.value, Store.valueTo, Store.valueWith] at hv ⊢
  cases hc : (s.object r).content with
  | int _ | bool _ | char _ | string _ =>
    rw [hobject (by rw [Store.content, hc]; intro hnone; cases hnone), hc]
    rw [hc] at hv
    exact hv
  | entry _ _ =>
    rw [hc] at hv
    cases hv
  | _ =>
    rw [hc] at hv
    obtain ⟨text, -, hthrow⟩ := Except.ok_of_bind hv
    cases hthrow

theorem mapM_toQuery (h : s.Extends s') {bindings : Query.Bindings}
    (hs : (cells.map fun c => (c.1, s.value c.2)).mapM
      (fun c => do return (c.1, ← c.2.toQuery) : _ → Except Fault _) = .ok bindings) :
    (cells.map fun c => (c.1, s'.value c.2)).mapM
      (fun c => do return (c.1, ← c.2.toQuery) : _ → Except Fault _) = .ok bindings := by
  induction cells generalizing bindings with
  | nil => exact hs
  | cons c cells ih =>
    rw [List.map_cons, List.mapM_cons] at hs ⊢
    obtain ⟨b, hb, hs⟩ := Except.ok_of_bind hs
    obtain ⟨bs, hbs, hs⟩ := Except.ok_of_bind hs
    obtain ⟨v, hv, hb⟩ := Except.ok_of_bind hb
    rw [toQuery_value h hv, ih hbs]
    cases hb
    exact hs

theorem ask_of_extends (h : s.Extends s') {a : Query.Answer}
    (hask : Query.ask query (cells.map fun c => (c.1, s.value c.2)) = .ok a) :
    Query.ask query (cells.map fun c => (c.1, s'.value c.2)) = .ok a := by
  obtain ⟨e, he, hask⟩ := Except.ok_of_bind hask
  obtain ⟨bindings, hbindings, ha⟩ := Except.ok_of_bind hask
  rw [Query.ask, he, mapM_toQuery h hbindings]
  exact ha

variable {b : Option Bool}

theorem exec_holds_of (h : before.Extends m.store)
    (hask : Query.ask query (cells.map fun c => (c.1, before.value c.2)) = .ok (.holds b)) :
    (holds query position cells).exec m =
      (.ok (isTrue query (cells.map fun c => (c.1, before.value c.2))), m) := by
  rw [holds, exec_bind_store, ask_of_extends h hask, isTrue, hask]
  cases b with
  | none => rfl
  | some b => cases b <;> rfl

/-! ## Joining -/

variable {names : List String}

theorem exec_columnNames_of (h : (m.store.sequence place).map m.store.text? = names.map some) :
    (columnNames place).exec m = (.ok (names.map some), m) := by
  rw [columnNames, exec_bind_sequence]
  rw [← List.forall₂_eq_eq_eq, List.forall₂_map_left_iff, List.forall₂_map_right_iff] at h
  refine exec_mapM_same (List.forall₂_map_right_iff.mpr (h.imp fun r name hname => ?_))
  rw [textContent?, exec_bind_content, Store.text?_eq_some.mp hname]
  rfl

/-- The row of two rows for which a query is true. -/
theorem makes_joinRows (hs : before.Closed) {l r : TableView} {left right : List Selected}
    {leftRow rightRow : Ref} (hleft : before.Has leftRow.cell) (hright : before.Has rightRow.cell)
    {as bs : List Ref} (has : before.cells? leftRow = some as)
    (hbs : before.cells? rightRow = some bs)
    (hask : Query.ask query (pair before l r as bs) = .ok (.holds b)) :
    Makes (fun s => Option.Rel (s.RowAt members)) before
      (joinRows position query members left right (before.frame l).columns
        (before.frame r).columns leftRow rightRow)
      (if isTrue query (pair before l r as bs)
        then some (selectCells left as ++ selectCells right bs) else none) := by
  intro m hm
  have has' := (hm.cells?_eq hs hleft).trans has
  have hbs' := (hm.cells?_eq hs hright).trans hbs
  rw [pair, bound_eq_map, bound_eq_map, ← List.map_append] at hask ⊢
  rw [joinRows, exec_bind_namedCells, has', exec_bind_namedCells, hbs', Option.getD_some,
    Option.getD_some, exec_bind_of (exec_holds_of hm hask)]
  split
  · rw [exec_bind_cells?, has', exec_bind_cells?, hbs']
    exact makes_row before members _ m hm
  · exact ⟨none, m, rfl, .refl _, .none⟩

theorem repeated?_eq_none : repeated? names = none ↔ names.Nodup := by
  rw [repeated?, List.find?_eq_none, List.nodup_iff_count]
  refine ⟨fun h n => ?_, fun h n _ => by simpa using h n⟩
  by_cases hn : n ∈ names
  · simpa using h n hn
  · simp [List.count_eq_zero.mpr hn]

/-- A join is called with two tables, the names of columns and a query. -/
structure JoinCall (m : Machine) (l r : TableView) (names : List String) (query : String) :
    Prop where
  left : (m.scope.get? "left_table").bind m.store.table? = some l
  right : (m.scope.get? "right_table").bind m.store.table? = some r
  columns : (m.scope.get? "columns").bind m.store.texts? = some (names.map some)
  condition : (m.scope.get? "where").bind m.store.text? = some query

/-- Each row of a table is as wide as its schema. -/
def IsEven (s : Store) (t : TableView) : Prop :=
  ∀ row ∈ s.sequence t.rows, (s.cells? row).map List.length = some (s.columnsOf t.schema).length

instance (s : Store) (t : TableView) : Decidable (IsEven s t) :=
  inferInstanceAs (Decidable (∀ row ∈ s.sequence t.rows, _ = _))

/-- Two tables, and a query that has an answer for every pair of their rows. -/
structure Joinable (s : Store) (l r : TableView) (query : String) : Prop where
  left : IsEven s l
  right : IsEven s r
  names : ∀ c ∈ (s.frame l).columns ++ (s.frame r).columns, IsPlainName c.1
  answers : ∀ as ∈ (s.frame l).rows, ∀ bs ∈ (s.frame r).rows, ∃ b,
    Query.ask query (pair s l r as bs) = .ok (.holds b)

/-- The pairs of rows for which the query is true, cut down to the columns that are named. -/
def joined (s : Store) (l r : TableView) (names : List String) (query : String) : Frame :=
  (s.frame l).join (s.frame r) (fun c => names.contains ("left." ++ c.1))
    (fun c => names.contains ("right." ++ c.1)) fun as bs => isTrue query (pair s l r as bs)

theorem cells_of_isEven (h : IsEven s t) {row : Ref} (hrow : row ∈ s.sequence t.rows) :
    s.cells? row = some ((s.cells? row).getD []) ∧
      ((s.cells? row).getD []).length = (s.columnsOf t.schema).length := by
  obtain ⟨cells, hcells, hlength⟩ := Option.map_eq_some_iff.mp (h row hrow)
  rw [hcells]
  exact ⟨rfl, hlength⟩

theorem rows_of_isEven (h : IsEven s t) :
    (s.frame t).rows = (s.sequence t.rows).map fun row => (s.cells? row).getD [] := by
  rw [Store.frame, ← List.filterMap_eq_map]
  exact List.filterMap_congr fun row hrow => (cells_of_isEven h hrow).1

theorem mem_rows_of_isEven (h : IsEven s t) :
    ∀ cells ∈ (s.frame t).rows, cells.length = (s.frame t).columns.length := by
  intro cells hcells
  rw [rows_of_isEven h] at hcells
  obtain ⟨row, hrow, rfl⟩ := List.mem_map.mp hcells
  exact (cells_of_isEven h hrow).2

theorem isNamed_map_some (side : String) (names : List String) :
    isNamed side (names.map some) = fun c => names.contains (qualified side c.1) := by
  funext c
  simp [isNamed, List.contains_eq_mem]

section

variable {l r : TableView} {a b : Ref} {query : String}

/-- The rows of a join, left row by left row. -/
theorem makes_joinedRows (hs : before.Closed) (hl : before.table? a = some l)
    (hr : before.table? b = some r) (h : Joinable before l r query) (names : List String)
    (position : Option Position) (members : Nat) :
    ∃ rows : List (List (List Ref)), rows.flatten = (joined before l r names query).rows ∧
      Makes (fun s => List.Forall₂ (List.Forall₂ (s.RowAt members))) before
        ((before.sequence l.rows).mapM fun leftRow => (before.sequence r.rows).filterMapM
          (joinRows position query members
            (selectColumns "left" (names.map some) (before.frame l).columns)
            (selectColumns "right" (names.map some) (before.frame r).columns)
            (before.frame l).columns (before.frame r).columns leftRow)) rows := by
  let cells := fun row => (before.cells? row).getD []
  let row := fun as bs =>
    selectCells (selectColumns "left" (names.map some) (before.frame l).columns) as ++
      selectCells (selectColumns "right" (names.map some) (before.frame r).columns) bs
  refine ⟨(before.sequence l.rows).map fun leftRow => (before.sequence r.rows).filterMap
    fun rightRow => if isTrue query (pair before l r (cells leftRow) (cells rightRow))
      then some (row (cells leftRow) (cells rightRow)) else none, ?_, ?_⟩
  · rw [joined, Frame.join, rows_of_isEven h.left, rows_of_isEven h.right, List.flatMap_map,
      ← List.flatMap_def]
    refine congrArg (List.flatMap · _) (funext fun leftRow => ?_)
    rw [← List.filterMap_eq_map, List.filterMap_filter, List.filterMap_map]
    refine congrArg (List.filterMap · _) (funext fun rightRow => ?_)
    simp only [row, cells, Function.comp_apply, selectCells_selectColumns, isNamed_map_some,
      qualified_left, qualified_right, Frame.project]
  · refine Makes.mapM (fun hadds hrows => hrows.imp fun _ _ => hadds.rowAt)
      fun leftRow hleftRow => ?_
    refine Makes.filterMapM (R := fun s => s.RowAt members) (fun hadds => hadds.rowAt)
      fun rightRow hrightRow => ?_
    have hmem {t : TableView} (ht : IsEven before t) {row : Ref}
        (hrow : row ∈ before.sequence t.rows) : cells row ∈ (before.frame t).rows := by
      rw [rows_of_isEven ht]
      exact List.mem_map_of_mem hrow
    obtain ⟨b, hask⟩ := h.answers _ (hmem h.left hleftRow) _ (hmem h.right hrightRow)
    exact makes_joinRows hs (hs.cell (hs.rows hl) hleftRow) (hs.cell (hs.rows hr) hrightRow)
      (cells_of_isEven h.left hleftRow).1 (cells_of_isEven h.right hrightRow).1 hask

/-- The message about two columns of one name. -/
def repeatedColumn (name : String) : String :=
  "Join column '" ++ name ++ "' must be unique across both tables"

theorem columns_joined (h : Joinable s l r query) (names : List String) :
    plainNames (selectColumns "left" (names.map some) (s.frame l).columns) ++
      plainNames (selectColumns "right" (names.map some) (s.frame r).columns) =
      (joined s l r names query).columns := by
  obtain ⟨hleft, hright⟩ := List.forall_mem_append.mp h.names
  rw [plainNames_eq_filter (by simp) hleft, plainNames_eq_filter (by simp) hright,
    isNamed_map_some, isNamed_map_some]
  rfl

theorem exec_joinTable_of (hm : m.store.Closed) (hl : m.store.table? a = some l)
    (hr : m.store.table? b = some r)
    (hnames : (m.store.sequence place).map m.store.text? = names.map some)
    (h : Joinable m.store l r query) (position : Option Position)
    (hg : joined m.store l r names query = g) :
    ∃ members rows m₁, m.store.Extends m₁.store ∧
      m₁.store.types.lists[members]? = some (g.columns.map Prod.snd) ∧
      List.Forall₂ (m₁.store.RowAt members) rows g.rows ∧
      (∀ name, repeated? (g.columns.map Prod.fst) = some name →
        (joinTable position l r place query).exec m =
          (report (repeatedColumn name) position).exec m₁) ∧
      (repeated? (g.columns.map Prod.fst) = none →
        (joinTable position l r place query).exec m =
          (newSchema members g.columns >>= fun schema => newTable members schema rows).exec
            m₁) := by
  have hcolumns := columns_joined h names
  rw [hg] at hcolumns
  have htypes : (selectColumns "left" (names.map some) (m.store.frame l).columns ++
      selectColumns "right" (names.map some) (m.store.frame r).columns).map (·.type) =
      g.columns.map Prod.snd := by
    rw [← hcolumns, List.map_append, List.map_append, plainNames, plainNames, List.map_map,
      List.map_map]
    rfl
  obtain ⟨members, m₁, hmembers, hadds, hlist⟩ := makes_newMembers m.store
    (g.columns.map Prod.snd) m (.refl _)
  obtain ⟨cells, hcells, hmakes⟩ := makes_joinedRows hm hl hr h names position members
  rw [hg] at hcells
  obtain ⟨rows, m₂, hrows, hadds', hat⟩ := hmakes m₁ hadds
  refine ⟨members, rows.flatten, m₂, hadds.trans hadds', hadds'.types.lists hlist,
    hcells ▸ List.rel_flatten hat, fun name hname => ?_, fun hnone => ?_⟩
  all_goals
    rw [joinTable, exec_bind_of (exec_columnNames_of hnames),
      exec_bind_of (Store.exec_columnsOf_frame l m), exec_bind_of (Store.exec_columnsOf_frame r m)]
    dsimp only
    rw [htypes, exec_bind_of hmembers, exec_bind_sequence, exec_bind_sequence,
      hadds.sequence_eq (hm.rows hl), hadds.sequence_eq (hm.rows hr), exec_bind_of hrows]
    rw [hcolumns]
  · rw [hname]
    rfl
  · rw [hnone]

end

/-- A join of tables whose names of columns are plain, by a query that has an answer for each pair
of rows, gives the filtered product, cut down to the columns that are named, if no two of these have
the same name. Otherwise it reports a name that two of them have. -/
theorem join_filters_product {m : Machine} {l r : TableView} {names : List String} {query : String}
    (hm : m.store.Closed) (hcall : JoinCall m l r names query) (h : Joinable m.store l r query)
    (eval : Evaluator) (position : Position) :
    (((joined m.store l r names query).columns.map Prod.fst).Nodup →
      ∃ t m', (run eval (some position) .join).exec m = (.ok t, m') ∧
        m.store.Extends m'.store ∧ m'.store.FrameAt t (joined m.store l r names query) ∧
        ∀ cells ∈ (joined m.store l r names query).rows,
          cells.length = (joined m.store l r names query).columns.length) ∧
    (¬ ((joined m.store l r names query).columns.map Prod.fst).Nodup →
      ∃ name m', 1 < ((joined m.store l r names query).columns.map Prod.fst).count name ∧
        (run eval (some position) .join).exec m =
          (report (repeatedColumn name) (some position)).exec m') := by
  obtain ⟨a, ha, hl⟩ := Option.bind_eq_some_iff.mp hcall.left
  obtain ⟨b, hb, hr⟩ := Option.bind_eq_some_iff.mp hcall.right
  obtain ⟨c, hc, hcolumns⟩ := Option.bind_eq_some_iff.mp hcall.columns
  obtain ⟨place, hlist, hnames⟩ := Store.texts?_eq_some.mp hcolumns
  obtain ⟨q, hq, hquery⟩ := Option.bind_eq_some_iff.mp hcall.condition
  have hrun : (run eval (some position) .join).exec m =
      (joinTable (some position) l r place query).exec m := by
    show (runJoin (some position)).exec m = _
    rw [runJoin, exec_bind_argument ha, exec_bind_table?, exec_bind_argument hb, exec_bind_table?,
      exec_bind_argumentContent hc, exec_bind_argumentContent hq, hl, hr, hlist,
      Store.text?_eq_some.mp hquery]
  rw [hrun]
  obtain ⟨members, rows, m₁, hadds, htypes, hrows, hsome, hnone⟩ :=
    exec_joinTable_of hm hl hr hnames h (some position) rfl
  refine ⟨fun hnodup => ?_, fun hnodup => ?_⟩
  · obtain ⟨schema, m₂, hschema, hadds₂, hat⟩ := makes_newSchema m₁.store members
      (joined m.store l r names query).columns m₁ (.refl _)
    obtain ⟨t, m₃, htable, hadds₃, hframe⟩ :=
      exec_newTable_of (hadds₂.types.lists htypes) hat (hrows.imp fun _ _ => hadds₂.rowAt)
    refine ⟨t, m₃, ?_, hadds.trans (hadds₂.trans hadds₃), hframe, ?_⟩
    · rw [hnone (repeated?_eq_none.mpr hnodup), exec_bind_of hschema, htable]
    · exact Frame.length_of_mem_join (mem_rows_of_isEven h.left) (mem_rows_of_isEven h.right)
  · rw [← repeated?_eq_none] at hnodup
    obtain ⟨name, hname⟩ := Option.ne_none_iff_exists'.mp hnodup
    exact ⟨name, m₁, by simpa using List.find?_some hname, hsome name hname⟩

/-- A store of two tables: `(a, b)` with the rows `(1, "x")` and `(2, "y")`, and `(a, c)` with the
row `(2, true)`; of two lists of names, and of two queries. -/
def twoTables : Store where
  types := { lists := #[[.int, .string], [.int, .bool]], cells := #[0, 0, 1] }
  objects := #[⟨.table 0, .table ⟨1⟩ 0⟩, ⟨.schema 0, .schema 0⟩,
    ⟨.tuple 0, .tuple 1⟩, ⟨.int, .int 1⟩, ⟨.string, .string "x"⟩,
    ⟨.tuple 1, .tuple 2⟩, ⟨.int, .int 2⟩, ⟨.string, .string "y"⟩,
    ⟨.table 1, .table ⟨9⟩ 3⟩, ⟨.schema 1, .schema 1⟩,
    ⟨.tuple 2, .tuple 4⟩, ⟨.int, .int 2⟩, ⟨.bool, .bool true⟩,
    ⟨.list .string, .list 5⟩, ⟨.string, .string "right.c"⟩, ⟨.string, .string "left.b"⟩,
    ⟨.string, .string "left.a == right.a"⟩,
    ⟨.list .string, .list 6⟩, ⟨.string, .string "b"⟩, ⟨.string, .string "a > 0"⟩]
  sequences := #[#[⟨2⟩, ⟨5⟩], #[⟨3⟩, ⟨4⟩], #[⟨6⟩, ⟨7⟩], #[⟨10⟩],
    #[⟨11⟩, ⟨12⟩], #[⟨14⟩, ⟨15⟩], #[⟨18⟩]]
  columns := #[[("a", .int), ("b", .string)], [("a", .int), ("c", .bool)]]

/-- A call on the two tables. -/
def callOnTables (arguments : List (String × Ref)) : Machine :=
  { Machine.initial with store := twoTables, scope := { names := arguments } }

/-- A call that joins the tables by the column that both have. -/
def joinByKey : Machine :=
  callOnTables [("left_table", ⟨0⟩), ("right_table", ⟨8⟩), ("columns", ⟨13⟩),
    ("where", ⟨16⟩)]

/-- The one pair of rows with the same key is joined, and a column of either table is kept. -/
theorem join_filters_product_by_key :
    JoinCall joinByKey ⟨.table 0, ⟨1⟩, 0⟩ ⟨.table 1, ⟨9⟩, 3⟩ ["right.c", "left.b"]
        "left.a == right.a" ∧
      ∃ t m' g, (run (eval 1) (some {}) .join).exec joinByKey = (.ok t, m') ∧
        m'.store.FrameAt t g ∧ g.columns.map Prod.fst = ["b", "c"] ∧
          g.rows = [[⟨7⟩, ⟨12⟩]] := by
  have hcall : JoinCall joinByKey ⟨.table 0, ⟨1⟩, 0⟩ ⟨.table 1, ⟨9⟩, 3⟩
      ["right.c", "left.b"] "left.a == right.a" := ⟨rfl, rfl, rfl, rfl⟩
  have hanswered : ∀ as ∈ [[⟨3⟩, ⟨4⟩], [⟨6⟩, ⟨7⟩]],
      ∀ bs ∈ [[⟨11⟩, ⟨12⟩]], isAnswered "left.a == right.a"
        (pair twoTables ⟨.table 0, ⟨1⟩, 0⟩ ⟨.table 1, ⟨9⟩, 3⟩ as bs) = true := by
    decide +kernel
  have hjoinable : Joinable twoTables ⟨.table 0, ⟨1⟩, 0⟩ ⟨.table 1, ⟨9⟩, 3⟩
    "left.a == right.a" :=
    ⟨by decide +kernel, by decide +kernel, by decide +kernel,
      fun as has bs hbs => isAnswered_iff.mp (hanswered as has bs hbs)⟩
  obtain ⟨t, m', hexec, -, hframe, -⟩ :=
    (join_filters_product (by decide +kernel) hcall hjoinable (eval 1) {}).1 (by decide +kernel)
  exact ⟨hcall, t, m', _, hexec, hframe, by decide +kernel, by decide +kernel⟩

end Primitive

/-! ## The value of a new table -/

namespace Store

variable {s s' : Store}

/-- The types behind handles in a list, to a depth of lists within lists that counts this one. -/
def typesTo (s : Store) : Nat → List TypeRef → List Ty
  | 0, _ => []
  | k + 1, types => Shape.mapMarksAll (fun _ => ())
    (s.types.readAllWith (s.types.membersTo k) types)

theorem Extends.membersTo_of_lists (h : s.Extends s') (hs : s.Closed) {types : List TypeRef}
    (hlist : s'.types.lists[members]? = some types)
    (htypes : ∀ t ∈ types, ∀ c ∈ t.cells, s.Has c) (k : Nat) :
    Shape.mapMarksAll (fun _ => ()) (s'.types.membersTo k members) = s.typesTo k types := by
  cases k with
  | zero => rfl
  | succ k =>
    have hcells : ∀ {types : List TypeRef}, (∀ t ∈ types, ∀ c ∈ t.cells, s.Has c) →
        ∀ c ∈ TypeRef.allCells types, s.Has c := by
      intro types htypes
      induction types with
      | nil => exact fun c hc => absurd hc (List.not_mem_nil)
      | cons t types ih =>
        obtain ⟨ht, hrest⟩ := List.forall_mem_cons.mp htypes
        exact List.forall_mem_append.mpr ⟨ht, ih hrest⟩
    have hread := TypeStore.plain_readAllWith types fun c hc =>
      h.mirrors.plainMembers k (hs.sound (hcells htypes c hc))
    rw [← Region.map_type, Region.type_empty, List.map_id'] at hread
    rw [TypeStore.membersTo, TypeStore.list_of_getElem? hlist, typesTo, hread]

/-- The value of a new row, if these are the types of its cells. -/
def rowTo (s : Store) (types : List TypeRef) (k : Nat) : Nat → List Ref → Value
  | 0, _ => .none .absent
  | d + 1, cells => .tuple (.tuple () (s.typesTo k types)) (cells.map (s.valueTo k d))

theorem Extends.valueTo_rowAt (h : s.Extends s') (hs : s.Closed) {types : List TypeRef}
    {row : Ref} (hlist : s'.types.lists[members]? = some types)
    (htypes : ∀ t ∈ types, ∀ c ∈ t.cells, s.Has c)
    (hcells : ∀ cell ∈ cells, s.Has cell.cell) (hrow : s'.RowAt members row cells) (k d : Nat) :
    s'.valueTo k d row = s.rowTo types k d cells := by
  cases d with
  | zero => rfl
  | succ d =>
    obtain ⟨c, place, hobject, hcell, hsequence⟩ := hrow
    rw [valueTo, object_of_getElem? hobject]
    show Value.tuple (.tuple () (Shape.mapMarksAll (fun _ => ())
      (s'.types.membersTo k (s'.types.cell c)))) ((s'.sequence place).map (s'.valueTo k d)) = _
    rw [TypeStore.cell_of_getElem? hcell, h.membersTo_of_lists hs hlist htypes,
      sequence_of_getElem? hsequence]
    exact congrArg (Value.tuple _) (List.map_congr_left fun cell hcell =>
      h.sameView hs (hcells cell hcell) k d)

/-- The value of a new table is made of what its frame holds. -/
theorem Extends.valueTo_frameAt (h : s.Extends s') (hs : s.Closed) {r : Ref} (hr : s'.FrameAt r g)
    (hcolumns : ∀ c ∈ g.columns, ∀ d ∈ c.2.cells, s.Has d)
    (hcells : ∀ cells ∈ g.rows, ∀ cell ∈ cells, s.Has cell.cell) (k d : Nat) :
    s'.valueTo k (d + 1) r =
      .table (.table () (s.typesTo k (g.columns.map Prod.snd)))
        (.schema () (s.typesTo k (g.columns.map Prod.snd)))
        (g.columns.map fun c => (c.1, s.plainTypeTo k c.2))
        (g.rows.map (s.rowTo (g.columns.map Prod.snd) k d)) := by
  obtain ⟨members, schema, place, rows, hobject, hlist, ⟨i, hschema, hi⟩, hplace, hrows⟩ :=
    hr
  have htypes : ∀ t ∈ g.columns.map Prod.snd, ∀ c ∈ t.cells, s.Has c := by
    intro t ht
    obtain ⟨c, hc, rfl⟩ := List.mem_map.mp ht
    exact hcolumns c hc
  have hvalues : rows.map (s'.valueTo k d) = g.rows.map (s.rowTo (g.columns.map Prod.snd) k d) := by
    clear hplace
    generalize g.rows = cellss at hrows hcells
    induction hrows with
    | nil => rfl
    | cons hrow _ ih =>
      obtain ⟨hfirst, hrest⟩ := List.forall_mem_cons.mp hcells
      rw [List.map_cons, List.map_cons, ih hrest, h.valueTo_rowAt hs hlist htypes hfirst hrow]
  have hmembers := h.membersTo_of_lists hs hlist htypes k
  rw [valueTo, object_of_getElem? hobject]
  show Value.table (.table () (Shape.mapMarksAll (fun _ => ()) (s'.types.membersTo k members)))
    (s'.plainTypeTo k (s'.object schema).type)
    ((s'.columnsOf schema).map fun c => (c.1, s'.plainTypeTo k c.2))
    ((s'.sequence place).map (s'.valueTo k d)) = _
  rw [sequence_of_getElem? hplace, hvalues, hmembers, object_of_getElem? hschema, columnsOf,
    content_of_getElem? hschema]
  show Value.table _ (.schema () (Shape.mapMarksAll (fun _ => ()) (s'.types.membersTo k members)))
    ((s'.columnList i).map fun c => (c.1, s'.plainTypeTo k c.2)) _ = _
  rw [hmembers, columnList_of_getElem? hi]
  exact congrArg (Value.table _ _ · _) (List.map_congr_left fun c hc => by
    rw [h.plainTypeTo_eq hs k (hcolumns c hc)])

end Store

/-! ## Choosing columns -/

namespace Primitive

open EvalM

variable {m m' : Machine} {before : Store} {position : Option Position}
  {t : TableView} {a row : Ref} {names : List String} {query : String}

theorem givenNames_of {s : Store} (h : (s.sequence place).map s.text? = names.map some) :
    givenNames s place = names := by
  have hnames := congrArg (List.filterMap id) h
  rwa [List.filterMap_map, List.filterMap_map, Function.id_comp, Function.id_comp,
    List.filterMap_some] at hnames

/-- A selection is called with a table, the names of columns and a query. -/
structure SelectCall (m : Machine) (t : TableView) (names : List String) (query : String) :
    Prop where
  table : (m.scope.get? "table").bind m.store.table? = some t
  columns : (m.scope.get? "columns").bind m.store.texts? = some (names.map some)
  condition : (m.scope.get? "where").bind m.store.text? = some query

/-- A choice of columns is called with a table and the names of the columns. -/
structure PickCall (m : Machine) (t : TableView) (names : List String) : Prop where
  table : (m.scope.get? "table").bind m.store.table? = some t
  columns : (m.scope.get? "names").bind m.store.texts? = some (names.map some)

/-- The columns that are named, with their cells. -/
def chosen (s : Store) (t : TableView) (names : List String) : Frame :=
  (s.frame t).choose fun c => names.contains c.1

/-- A row for which the query is true is selected. -/
theorem makes_selectRow (hs : before.Closed) (hrow : before.Has row.cell)
    {columns : List (String × TypeRef)} (selected : List Selected) (position : Option Position)
    (hask : Query.ask query (bound before "" columns ((before.cells? row).getD [])) =
      .ok (.holds (some true))) :
    Makes (fun s => Option.Rel (s.RowAt members)) before
      (selectRow position query columns selected members row)
      ((before.cells? row).map (selectCells selected)) := by
  intro m hm
  have hcells := hm.cells?_eq hs hrow
  rw [bound_eq_map] at hask
  rw [selectRow, exec_bind_namedCells, hcells, exec_bind_of (exec_holds_of hm hask), isTrue, hask,
    if_pos rfl, exec_bind_cells?, hcells]
  cases before.cells? row with
  | none => exact ⟨none, m, rfl, .refl _, .none⟩
  | some cells => exact makes_row before members _ m hm

theorem makes_pickRow (hs : before.Closed) (hrow : before.Has row.cell)
    {all : List (String × TypeRef)} :
    Makes (fun s => Option.Rel (s.RowAt members)) before (pickRow all names members row)
      ((before.cells? row).map (keptCells all names)) := by
  intro m hm
  rw [pickRow, exec_bind_cells?, hm.cells?_eq hs hrow]
  cases before.cells? row with
  | none => exact ⟨none, m, rfl, .refl _, .none⟩
  | some cells => exact makes_row before members _ m hm

/-- Rows that are made of the cells of rows, by a step that is taken for each row in turn. -/
theorem makes_chosenRows (hs : before.Closed) (ht : before.table? a = some t) (names : List String)
    (members : Nat) {x : Ref → EvalM (Option Ref)} {f : List Ref → List Ref}
    (hf : ∀ cells, f cells = Frame.project (before.frame t).columns
      (fun c => names.contains c.1) cells)
    (hx : ∀ row ∈ before.sequence t.rows, before.Has row.cell →
      Makes (fun s => Option.Rel (s.RowAt members)) before (x row) ((before.cells? row).map f)) :
    Makes (fun s => List.Forall₂ (s.RowAt members)) before
      ((before.sequence t.rows).filterMapM x) (chosen before t names).rows := by
  have hrows : (chosen before t names).rows =
      (before.sequence t.rows).filterMap fun row => (before.cells? row).map f := by
    rw [funext hf, chosen, Frame.choose, Store.frame, List.map_filterMap]
  rw [hrows]
  exact Makes.filterMapM (R := fun s => s.RowAt members) (fun h => h.rowAt) fun row hrow =>
    hx row hrow (hs.cell (hs.rows ht) hrow)

theorem exec_selectTable_of (hm : m.store.Closed) (ht : m.store.table? a = some t)
    (hnames : (m.store.sequence place).map m.store.text? = names.map some)
    (hplain : ∀ c ∈ (m.store.frame t).columns, IsPlainName c.1)
    (htrue : ∀ row ∈ m.store.sequence t.rows, Query.ask query
      (bound m.store "" (m.store.frame t).columns ((m.store.cells? row).getD [])) =
        .ok (.holds (some true))) (position : Option Position) :
    ∃ r m', (selectTable position t place query).exec m = (.ok r, m') ∧
      m.store.Extends m'.store ∧ m'.store.FrameAt r (chosen m.store t names) := by
  have hnamed := isNamed_map_some "" names
  have hcolumns : plainNames (selectColumns "" (names.map some) (m.store.frame t).columns) =
      (chosen m.store t names).columns := by
    rw [plainNames_eq_filter (by simp) hplain, hnamed]
    rfl
  obtain ⟨members, m₁, hmembers, hadds, hlist⟩ := makes_newMembers m.store
    ((chosen m.store t names).columns.map Prod.snd) m (.refl _)
  have hmakes := makes_chosenRows hm ht names members
    (fun cells => by rw [selectCells_selectColumns, hnamed]; rfl)
    fun row hrow hhas => makes_selectRow hm hhas
      (selectColumns "" (names.map some) (m.store.frame t).columns) position (htrue row hrow)
  obtain ⟨rows, m₂, hrows, hadds₂, hat⟩ := hmakes m₁ hadds
  obtain ⟨schema, m₃, hschema, hadds₃, hschemaAt⟩ := makes_newSchema m₂.store members
    (chosen m.store t names).columns m₂ (.refl _)
  obtain ⟨r, m₄, htable, hadds₄, hframe⟩ := exec_newTable_of
    (hadds₃.types.lists (hadds₂.types.lists hlist)) hschemaAt
      (hat.imp fun _ _ => hadds₃.rowAt)
  refine ⟨r, m₄, ?_, hadds.trans (hadds₂.trans (hadds₃.trans hadds₄)), hframe⟩
  rw [selectTable, exec_bind_of (Store.exec_columnsOf_frame t m),
    exec_bind_of (exec_columnNames_of hnames)]
  dsimp only
  have htypes : (selectColumns "" (names.map some) (m.store.frame t).columns).map (·.type) =
      (chosen m.store t names).columns.map Prod.snd := by
    rw [← hcolumns, plainNames, List.map_map]
    rfl
  rw [htypes, hcolumns, exec_bind_of hmembers, exec_bind_sequence,
    hadds.sequence_eq (hm.rows ht), exec_bind_of hrows, exec_bind_of hschema, htable]

theorem exec_pickTable_of (hm : m.store.Closed) (ht : m.store.table? a = some t)
    (hnodup : names.Nodup) :
    ∃ r m', (pickTable t (m.store.frame t).columns names).exec m = (.ok r, m') ∧
      m.store.Extends m'.store ∧ m'.store.FrameAt r (chosen m.store t names) := by
  have hcolumns : namedColumns (m.store.frame t).columns names =
      (chosen m.store t names).columns := namedColumns_of_nodup hnodup
  obtain ⟨members, m₁, hmembers, hadds, hlist⟩ := makes_newMembers m.store
    ((chosen m.store t names).columns.map Prod.snd) m (.refl _)
  obtain ⟨schema, m₂, hschema, hadds₂, hschemaAt⟩ := makes_newSchema m₁.store members
    (chosen m.store t names).columns m₁ (.refl _)
  have hmakes := makes_chosenRows hm ht names members keptCells_eq
    fun row _ hhas => makes_pickRow hm hhas
  obtain ⟨rows, m₃, hrows, hadds₃, hat⟩ := hmakes m₂ (hadds.trans hadds₂)
  obtain ⟨r, m₄, htable, hadds₄, hframe⟩ := exec_newTable_of
    (hadds₃.types.lists (hadds₂.types.lists hlist)) (hadds₃.schemaAt hschemaAt) hat
  refine ⟨r, m₄, ?_, hadds.trans (hadds₂.trans (hadds₃.trans hadds₄)), hframe⟩
  rw [pickTable, hcolumns, exec_bind_of hmembers, exec_bind_of hschema, exec_bind_sequence,
    (hadds.trans hadds₂).sequence_eq (hm.rows ht), exec_bind_of hrows, htable]

theorem has_chosen {s : Store} (hs : s.Closed) (ht : s.table? a = some t) (names : List String) :
    (∀ c ∈ (chosen s t names).columns, ∀ d ∈ c.2.cells, s.Has d) ∧
      ∀ cells ∈ (chosen s t names).rows, ∀ cell ∈ cells, s.Has cell.cell := by
  refine ⟨fun c hc => hs.mem_columnsOf (hs.schema ht) c (List.mem_filter.mp hc).1, ?_⟩
  intro cells hcells cell hcell
  obtain ⟨all, hall, rfl⟩ := List.mem_map.mp hcells
  obtain ⟨row, hrow, hcells⟩ := List.mem_filterMap.mp hall
  obtain ⟨p, hp, rfl⟩ := List.mem_map.mp hcell
  exact hs.mem_cells (hs.cell (hs.rows ht) hrow) hcells _
    (List.of_mem_zip (List.mem_filter.mp hp).1).1

/-- A selection by a query that is true of every row gives the same as a choice of the columns: the
columns that are named, in the order of the table, with all rows. -/
theorem select_eq_getColumns {m m' : Machine} {t : TableView} {names : List String}
    {query : String} (hm : m.store.Closed) (hstore : m'.store = m.store)
    (hselect : SelectCall m t names query) (hpick : PickCall m' t names)
    (hplain : ∀ c ∈ (m.store.frame t).columns, IsPlainName c.1) (hnodup : names.Nodup)
    (hall : ∀ name ∈ names, name ∈ (m.store.frame t).columns.map Prod.fst)
    (htrue : ∀ row ∈ m.store.sequence t.rows, Query.ask query
      (bound m.store "" (m.store.frame t).columns ((m.store.cells? row).getD [])) =
        .ok (.holds (some true)))
    (eval : Evaluator) (position : Option Position) :
    ∃ r n r' n', (run eval position .select).exec m = (.ok r, n) ∧
      (run eval position .getColumns).exec m' = (.ok r', n') ∧
      n.store.FrameAt r (chosen m.store t names) ∧
        n'.store.FrameAt r' (chosen m.store t names) ∧
      ∀ typeDepth depth, n.store.valueTo typeDepth depth r = n'.store.valueTo typeDepth
        depth r' := by
  obtain ⟨a, ha, ht⟩ := Option.bind_eq_some_iff.mp hselect.table
  obtain ⟨c, hc, hcolumns⟩ := Option.bind_eq_some_iff.mp hselect.columns
  obtain ⟨place, hlist, hnames⟩ := Store.texts?_eq_some.mp hcolumns
  obtain ⟨q, hq, hquery⟩ := Option.bind_eq_some_iff.mp hselect.condition
  obtain ⟨a', ha', ht'⟩ := Option.bind_eq_some_iff.mp hpick.table
  obtain ⟨c', hc', hcolumns'⟩ := Option.bind_eq_some_iff.mp hpick.columns
  obtain ⟨place', hlist', hnames'⟩ := Store.texts?_eq_some.mp hcolumns'
  have hm' : m'.store.Closed := hstore ▸ hm
  obtain ⟨r, n, hselected, hadds, hframe⟩ :=
    exec_selectTable_of hm ht hnames hplain htrue position
  obtain ⟨r', n', hpicked, hadds', hframe'⟩ := exec_pickTable_of hm' ht' hnodup
  refine ⟨r, n, r', n', ?_, ?_, hframe, hstore ▸ hframe', fun k d => ?_⟩
  · show (runSelect position).exec m = _
    rw [← hselected, runSelect, exec_bind_argument ha,
      exec_bind_table?, exec_bind_argumentContent hc,
      exec_bind_argumentContent hq, ht, hlist, Store.text?_eq_some.mp hquery]
  · have hfind : names.find? (fun n => !((m'.store.columnsOf t.schema).map (·.1)).contains n) =
        none := by
      rw [List.find?_eq_none, hstore]
      intro name hname
      simpa [Store.frame] using hall name hname
    show (runGetColumns position).exec m' = _
    rw [← hpicked, runGetColumns, exec_bind_argument ha',
      exec_bind_table?, exec_bind_argumentContent hc', ht', hlist']
    show (columnsOf t >>= _).exec m' = _
    rw [exec_bind_columnsOf, exec_bind_store, givenNames_of hnames']
    dsimp only
    rw [hfind]
    rfl
  · obtain ⟨hcolumns, hcells⟩ := has_chosen hm ht names
    rw [hstore] at hadds' hframe'
    cases d with
    | zero => rfl
    | succ d =>
      rw [hadds.valueTo_frameAt hm hframe hcolumns hcells,
        hadds'.valueTo_frameAt hm hframe' hcolumns hcells]

/-- A call that chooses a column, by a query that is true of both rows. -/
def selectColumn : Machine :=
  callOnTables [("table", ⟨0⟩), ("columns", ⟨17⟩), ("where", ⟨19⟩)]

/-- A call that chooses a column by its name. -/
def getColumn : Machine :=
  callOnTables [("table", ⟨0⟩), ("names", ⟨17⟩)]

theorem select_eq_getColumns_one :
    SelectCall selectColumn ⟨.table 0, ⟨1⟩, 0⟩ ["b"] "a > 0" ∧
      PickCall getColumn ⟨.table 0, ⟨1⟩, 0⟩ ["b"] ∧
      ∃ r n r' n' g, (run (eval 1) none .select).exec selectColumn = (.ok r, n) ∧
        (run (eval 1) none .getColumns).exec getColumn = (.ok r', n') ∧
        n.store.FrameAt r g ∧ g.columns.map Prod.fst = ["b"] ∧
          g.rows = [[⟨4⟩], [⟨7⟩]] ∧
        ∀ typeDepth depth,
          n.store.valueTo typeDepth depth r = n'.store.valueTo typeDepth depth r' := by
  have hselect : SelectCall selectColumn ⟨.table 0, ⟨1⟩, 0⟩ ["b"] "a > 0" :=
    ⟨rfl, rfl, rfl⟩
  have hpick : PickCall getColumn ⟨.table 0, ⟨1⟩, 0⟩ ["b"] := ⟨rfl, rfl⟩
  have hstore : getColumn.store = selectColumn.store := rfl
  have htrue : ∀ row ∈ [⟨2⟩, ⟨5⟩], isTrue "a > 0" (bound twoTables ""
      [("a", .int), ("b", .string)] ((twoTables.cells? row).getD [])) = true := by
    decide +kernel
  obtain ⟨r, n, r', n', hselected, hpicked, hframe, -, hvalues⟩ := select_eq_getColumns
    (by decide +kernel) hstore hselect hpick (by decide +kernel) (by decide +kernel)
    (by decide +kernel) (fun row hrow => isTrue_iff.mp (htrue row hrow)) (eval 1) none
  exact ⟨hselect, hpick, r, n, r', n', _, hselected, hpicked, hframe, by decide +kernel,
    by decide +kernel, hvalues⟩

end Primitive

end TableScript
