import TableScript.Proofs.CsvText
import TableScript.Proofs.Disk
import TableScript.Proofs.TableSources
import TableScript.Proofs.Text

/-!
# Tables that are written to a file and read back

The main result is `Filing.readsBack_iff_returns`: a table of whole numbers, truth values and texts
that is written to a file and read with the same columns comes back with the same rows iff

* no cell is a truth value or a number below zero: both are read back as texts;
* no cell and no name of a column is beyond a limit on its length, and no name holds a carriage
  return;
* there is a first line to read: a row, or the names of the columns;
* the file can be written.

On the way the file holds the fields of the items in the cells (`exec_runWriteCsv_iff`), and what is
read is a row of the objects that the fields of each line stand for (`exec_linesTable_ok`).
-/

namespace TableScript

open Text

/-! ## Cells and fields -/

variable {s : String} {fields : List String} {i : Csv.Item}

namespace Csv

/-- The value in a cell. -/
def Item.object : Item → Object
  | .nothing => ⟨.none, .none⟩
  | .int n => ⟨.int, .int n⟩
  | .bool b => ⟨.bool, .bool b⟩
  | .text s => ⟨.string, .string s⟩

/-- What is written, whatever its length. -/
def Item.shown : Item → String
  | .nothing => ""
  | .int n => toString n
  | .bool b => if b then "True" else "False"
  | .text s => s

/-- Does a cell with this value belong into a column? A text is not mistaken for another value. -/
def Item.Suits (column : String × TypeRef) : Item → Prop
  | .nothing => False
  | .int _ => column.2 = .int
  | .bool _ => column.2 = .bool
  | .text s => column.2 = .string ∧ s ≠ "" ∧ Text.isNumericWord s = false ∧ s ≠ "true" ∧
      s ≠ "false" ∧ '\r' ∉ s.toList

/-- Does a value come back from a file? -/
def Item.Returns : Item → Prop
  | .nothing => True
  | .int n => 0 ≤ n ∧ n < 10 ^ Text.digitLimit
  | .bool _ => False
  | .text s => s.length ≤ Reader.limit

instance : DecidablePred Item.Returns
  | .nothing => inferInstanceAs (Decidable True)
  | .int n => inferInstanceAs (Decidable (0 ≤ n ∧ n < 10 ^ Text.digitLimit))
  | .bool _ => inferInstanceAs (Decidable False)
  | .text s => inferInstanceAs (Decidable (s.length ≤ Reader.limit))

/-- Does an item have a field? -/
def Item.IsWritten (i : Item) : Prop :=
  i.field = .ok i.shown

theorem Item.field_ok {i : Item} (h : i.field = .ok s) : s = i.shown := by
  cases i with
  | int n =>
    rw [Item.field, numeralOf?] at h
    split_ifs at h
    cases h
    rfl
  | _ =>
    cases h
    rfl

variable {row : List Item} {rows : List (List Item)}

theorem mapM_field_ok (h : row.mapM Item.field = .ok fields) : ∀ i ∈ row, i.IsWritten := by
  induction row generalizing fields with
  | nil => exact nofun
  | cons i row ih =>
    rw [List.mapM_cons] at h
    obtain ⟨s, hs, h⟩ := Except.ok_of_bind h
    obtain ⟨rest, hrest, -⟩ := Except.ok_of_bind h
    refine List.forall_mem_cons.mpr ⟨?_, ih hrest⟩
    rw [Item.IsWritten, ← Item.field_ok hs, hs]

theorem mapM_field_of (h : ∀ i ∈ row, i.IsWritten) :
    row.mapM Item.field = .ok (row.map Item.shown) := by
  induction row with
  | nil => rfl
  | cons i row ih =>
    obtain ⟨hi, hrow⟩ := List.forall_mem_cons.mp h
    rw [List.mapM_cons, hi, ih hrow]
    rfl

theorem fieldRows_of (h : ∀ row ∈ rows, ∀ i ∈ row, i.IsWritten) :
    fieldRows rows = (rows.map (List.map Item.shown), .ok ()) := by
  induction rows with
  | nil => rfl
  | cons row rows ih =>
    obtain ⟨hrow, hrows⟩ := List.forall_mem_cons.mp h
    rw [fieldRows, mapM_field_of hrow, ih hrows]
    rfl

theorem isWritten_of_fieldRows (h : (fieldRows rows).2 = .ok ()) :
    ∀ row ∈ rows, ∀ i ∈ row, i.IsWritten := by
  induction rows with
  | nil => exact nofun
  | cons row rows ih =>
    rw [fieldRows] at h
    cases hrow : row.mapM Item.field with
    | error f =>
      rw [hrow] at h
      cases h
    | ok fields =>
      rw [hrow] at h
      exact List.forall_mem_cons.mpr ⟨mapM_field_ok hrow, ih h⟩

end Csv

theorem fieldObject?_text (hempty : s ≠ "") (hnumeric : isNumericWord s = false)
    (htrue : s ≠ "true") (hfalse : s ≠ "false") :
    fieldObject? s = some ⟨.string, .string s⟩ := by
  rw [fieldObject?, hnumeric, if_neg (by simpa using hempty), if_neg Bool.false_ne_true,
    if_neg (by simpa using htrue), if_neg (by simpa using hfalse)]

theorem isNumericWord_toString (n : Nat) : isNumericWord (toString n) = true := by
  have hne : (toString n).isEmpty = false := by simp
  rw [isNumericWord, hne, Bool.not_false, Bool.true_and, List.all_eq_true]
  exact fun c hc => isNumeric_of_isDigit (isDigit_of_mem_toString hc)

theorem int_isWritten_iff {n : Int} :
    (Csv.Item.int n).IsWritten ↔ n.natAbs < 10 ^ digitLimit := by
  rw [← length_toString_le_iff, String.length_toList, Csv.Item.IsWritten, Csv.Item.field,
    numeralOf?]
  split_ifs with h
  · exact iff_of_false nofun (by omega)
  · exact iff_of_true rfl (by omega)

theorem fieldObject?_ofNat {k : Nat} (h : k < 10 ^ digitLimit) :
    fieldObject? (toString k) = some ⟨.int, .int k⟩ := by
  have hne : (toString k).isEmpty = false := by simp
  rw [fieldObject?, hne, if_neg Bool.false_ne_true, if_pos (isNumericWord_toString k),
    readNumeral_toString, if_pos h]

theorem fieldObject?_negSucc (k : Nat) :
    fieldObject? (toString (Int.negSucc k)) =
      some ⟨.string, .string (toString (Int.negSucc k))⟩ := by
  have htext : (toString (Int.negSucc k)).toList = '-' :: (toString (k + 1)).toList := by
    change ("-" ++ toString (k + 1)).toList = _
    rw [String.toList_append]
    rfl
  have hnumeric : isNumericWord (toString (Int.negSucc k)) = false := by
    rw [isNumericWord, htext, List.all_cons, show isNumeric '-' = false from rfl]
    simp
  have hne : ∀ s : String, s.toList.head? ≠ some '-' → toString (Int.negSucc k) ≠ s := by
    rintro s hs rfl
    rw [htext] at hs
    exact hs rfl
  exact fieldObject?_text (hne "" (by decide)) hnumeric (hne "true" (by decide))
    (hne "false" (by decide))

theorem returns_iff {column : String × TypeRef} (h : i.Suits column) :
    i.IsWritten ∧ i.shown.length ≤ Csv.Reader.limit ∧ fieldObject? i.shown = some i.object ↔
      i.Returns := by
  cases i with
  | nothing => exact h.elim
  | int n =>
    rw [int_isWritten_iff]
    cases n with
    | ofNat k =>
      change k < _ ∧ (toString k).length ≤ _ ∧ fieldObject? (toString k) = _ ↔
        (0 : Int) ≤ k ∧ (k : Int) < 10 ^ digitLimit
      have hcast : (k : Int) < 10 ^ digitLimit ↔ k < 10 ^ digitLimit := by
        exact_mod_cast Iff.rfl
      rw [hcast]
      refine ⟨fun hk => ⟨Int.natCast_nonneg k, hk.1⟩, fun hk => ?_⟩
      refine ⟨hk.2, ?_, fieldObject?_ofNat hk.2⟩
      have hlength := (length_toString_le_iff k).mpr hk.2
      rw [String.length_toList] at hlength
      exact hlength.trans (by decide)
    | negSucc k =>
      -- A sign is no digit, so what is read is a string.
      refine iff_of_false (fun hk => ?_) fun hk => absurd hk.1 (by simp)
      have := hk.2.2
      rw [Csv.Item.shown, fieldObject?_negSucc] at this
      cases this
  | bool b =>
    -- `True` and `False` are written with a capital letter and read as strings.
    refine iff_of_false (fun hb => ?_) id
    have hstring : fieldObject? (Csv.Item.bool b).shown =
        some ⟨.string, .string (Csv.Item.bool b).shown⟩ := by
      cases b <;> exact fieldObject?_text (by decide) (by decide) (by decide) (by decide)
    rw [hstring] at hb
    cases hb.2.2
  | text s =>
    obtain ⟨-, hempty, hnumeric, htrue, hfalse, -⟩ := h
    exact ⟨fun hs => hs.2.1, fun hs =>
      ⟨rfl, hs, fieldObject?_text hempty hnumeric htrue hfalse⟩⟩

/-! ## Reading lines -/

namespace Store

/-- The values in the cells of a row. -/
def rowObjects? (s : Store) (row : Ref) : Option (List Object) :=
  (s.cells? row).map fun cells => cells.map s.object

/-- The rows at a place have these values in their cells. -/
def Shows (s : Store) (place : Nat) (grid : List (List Csv.Item)) : Prop :=
  (s.sequence place).map s.rowObjects? = grid.map fun line => some (line.map Csv.Item.object)

variable {s : Store}

theorem LineAt.rowObjects? {row : Ref} (h : s.LineAt fields row) :
    ∃ objects, s.rowObjects? row = some objects ∧
      fields.map fieldObject? = objects.map some := by
  obtain ⟨cells, objects, htuple, hfields, hcells⟩ := h
  refine ⟨objects, ?_, hfields⟩
  have hobject : s.object = fun cell => s.objects[cell.index]?.getD ⟨.absent, .none⟩ :=
    funext fun cell => Array.getD_eq_getD_getElem?
  have hobjects := congrArg (List.map fun o => Option.getD o ⟨.absent, .none⟩) hcells
  rw [List.map_map, List.map_map] at hobjects
  rw [Store.rowObjects?, htuple.cells?, Option.map_some, hobject]
  exact congrArg some (hobjects.trans (List.map_id objects))

end Store

namespace Primitive

open EvalM

variable {m m' : Machine} {position : Option Position} {r : Ref}
  {columns : List (String × TypeRef)}
  {grid : List (List Csv.Item)} {lines : List (List String)} {fields : List String} {field : String}
  {header : Bool} {cells : List Ref}

theorem exec_fieldValue_of {o : Object} (h : fieldObject? field = some o) :
    (fieldValue field).exec m = (new o.type o.content).exec m := by
  unfold fieldObject? at h
  unfold fieldValue
  cases hn : readNumeral field <;> rw [hn] at h <;> split_ifs at h ⊢ <;> cases h <;> rfl

section

variable {α β : Type}

theorem exec_mapM_of {f : α → EvalM β} {l : List α}
    (hf : ∀ a ∈ l, ∀ m, ∃ b m', (f a).exec m = (.ok b, m')) (m : Machine) :
    ∃ bs m', (l.mapM f).exec m = (.ok bs, m') := by
  induction l generalizing m with
  | nil => exact ⟨[], m, rfl⟩
  | cons a l ih =>
    obtain ⟨ha, hl⟩ := List.forall_mem_cons.mp hf
    obtain ⟨b, m₁, hb⟩ := ha m
    obtain ⟨bs, m₂, hbs⟩ := ih hl m₁
    rw [List.mapM_cons, exec_bind_of hb, exec_bind_of hbs]
    exact ⟨_, _, rfl⟩

theorem exec_filterMapM_of {f : α → EvalM (Option β)} {l : List α}
    (hf : ∀ a ∈ l, ∀ m, ∃ b m', (f a).exec m = (.ok b, m')) (m : Machine) :
    ∃ bs m', (l.filterMapM f).exec m = (.ok bs, m') := by
  obtain ⟨bs, m', h⟩ := exec_mapM_of hf m
  rw [filterMapM_eq_map]
  exact ⟨_, m', exec_map_of h⟩

end

variable {schema : Ref} {members : Nat}

theorem fits_self {s : TypeStore} {type : TypeRef} (h : IsFieldType type) : s.Fits type type := by
  cases type <;> first | exact h.elim | exact ⟨_, rfl, nofun⟩

variable {objects : List Object} {line : List Csv.Item} {name : String}

theorem cellsFit_of_cellsAt {s : Store} (hcells : s.CellsAt cells objects)
    (h : ∀ p ∈ objects.zip columns, p.1.content.isEntry = false ∧
      s.types.Fits p.1.type p.2.2) :
    CellsFit s cells columns := by
  induction cells generalizing objects columns with
  | nil => exact fun p hp => absurd hp (by simp)
  | cons cell cells ih =>
    cases objects with
    | nil => cases hcells
    | cons o objects =>
      cases columns with
      | nil => exact fun p hp => absurd hp (by simp)
      | cons column columns =>
        obtain ⟨hcell, hcells⟩ := List.cons.inj hcells
        obtain ⟨hfirst, hrest⟩ := List.forall_mem_cons.mp h
        refine List.forall_mem_cons.mpr ⟨?_, ih hcells hrest⟩
        rw [CellFits, Store.content, Store.object_of_getElem? hcell]
        exact hfirst

theorem exec_readRow_of (h : fields.map fieldObject? = objects.map some)
    (htypes : ∀ p ∈ objects.zip columns, p.1.type = p.2.2) (position : Option Position)
    (type : TypeRef) (m : Machine) :
    ∃ b m', (readRow position type columns fields).exec m = (.ok b, m') := by
  have hvalues : ∀ field ∈ fields, ∀ m, ∃ cell m', (fieldValue field).exec m =
      (.ok cell, m') := by
    intro field hfield m
    have hmem : fieldObject? field ∈ objects.map some := h ▸ List.mem_map_of_mem hfield
    obtain ⟨o, -, ho⟩ := List.mem_map.mp hmem
    exact ⟨_, _, exec_fieldValue_of ho.symm⟩
  obtain ⟨cells, m₁, hcells⟩ := exec_mapM_of hvalues m
  obtain ⟨objects', hfields, hobjects⟩ := exec_mapM_fieldValue_ok hcells
  have hsame : objects' = objects :=
    List.map_injective_iff.mpr (Option.some_injective _) (hfields.symm.trans h)
  subst hsame
  have hfit : CellsFit m₁.store cells columns := by
    refine cellsFit_of_cellsAt hobjects fun p hp => ?_
    obtain ⟨htype, hentry⟩ := isFieldType_of_mem h p.1 (List.of_mem_zip hp).1
    exact ⟨hentry, htypes p hp ▸ fits_self htype⟩
  rw [readRow, exec_bind_of hcells, exec_bind_of (exec_cellsConform_of hfit position rfl)]
  exact ⟨_, _, rfl⟩

theorem exists_rowObjects? {s : Store} {results : List (List String × Option Ref)}
    (h : ∀ p ∈ results, ∃ row, p.2 = some row ∧ s.LineAt p.1 row) :
    ∃ objects : List (List Object),
      (results.filterMap Prod.snd).map s.rowObjects? = objects.map some ∧
      (results.map Prod.fst).map (List.map fieldObject?) = objects.map (List.map some) := by
  induction results with
  | nil => exact ⟨[], rfl, rfl⟩
  | cons p results ih =>
    obtain ⟨⟨row, hrow, hline⟩, hrest⟩ := List.forall_mem_cons.mp h
    obtain ⟨objects, hobjects, hlines⟩ := ih hrest
    obtain ⟨line, hcells, hfields⟩ := hline.rowObjects?
    refine ⟨line :: objects, ?_, ?_⟩
    · rw [List.filterMap_cons_some hrow, List.map_cons, List.map_cons, hcells, hobjects]
    · rw [List.map_cons, List.map_cons, List.map_cons, hfields, hlines]

/-- The cells are the fields of the lines. -/
theorem exec_linesTable_ok (h : (linesTable position schema columns members lines).exec m =
    (.ok r, m')) :
    m.store.Extends m'.store ∧ ∃ (place : Nat) (objects : List (List Object)),
      m'.store.table? r = some ⟨.table members, schema, place⟩ ∧
      (m'.store.sequence place).map m'.store.rowObjects? = objects.map some ∧
      lines.map (List.map fieldObject?) = objects.map (List.map some) := by
  refine ⟨(moves_linesTable schema columns members lines).of_exec h, ?_⟩
  obtain ⟨type, m₁, htype, h⟩ := exec_bind_ok h
  obtain ⟨rows, m₂, hrows, h⟩ := exec_bind_ok h
  obtain ⟨hadds, place, htable, hplace⟩ := exec_newTable_ok h
  obtain ⟨results, rfl, rfl, hresults⟩ := exec_filterMapM_ok
    (P := fun fields b s => ∃ row, b = some row ∧ s.LineAt fields row)
    (steady_readRow (K := adding) _ type columns)
    (fun hext => Exists.imp fun _ hrow => ⟨hrow.1, hext.lineAt hrow.2⟩)
    (fun _ _ _ _ _ _ hexec => (exec_readRow_ok hexec).imp fun _ hrow => ⟨hrow.1, hrow.2.1⟩)
      hrows
  obtain ⟨objects, hobjects, hlines⟩ := exists_rowObjects? fun p hp =>
    (hresults p hp).imp fun row hrow => ⟨hrow.1, hadds.lineAt hrow.2⟩
  exact ⟨place, objects, htable, hplace ▸ hobjects, hlines⟩

variable {objects : List (List Object)}

theorem exec_linesTable_of (h : lines.map (List.map fieldObject?) = objects.map (List.map some))
    (htypes : ∀ line ∈ objects, ∀ p ∈ line.zip columns, p.1.type = p.2.2)
    (position : Option Position) (schema : Ref) (members : Nat) (m : Machine) :
    ∃ r m', (linesTable position schema columns members lines).exec m = (.ok r, m') := by
  have hrows : ∀ type, ∀ line ∈ lines, ∀ m,
      ∃ b m', (readRow position type columns line).exec m = (.ok b, m') := by
    intro type line hline m
    have hmem : line.map fieldObject? ∈ objects.map (List.map some) :=
      h ▸ List.mem_map_of_mem hline
    obtain ⟨values, hvalues, hfields⟩ := List.mem_map.mp hmem
    exact exec_readRow_of hfields.symm (htypes values hvalues) position type m
  obtain ⟨type, m₁, htype⟩ : ∃ type m₁, (newRowType members).exec m = (.ok type, m₁) :=
    ⟨_, _, rfl⟩
  obtain ⟨rows, m₂, hexec⟩ := exec_filterMapM_of (hrows type) m₁
  rw [linesTable, exec_bind_of htype, exec_bind_of hexec]
  exact ⟨_, _, rfl⟩

/-! ## Writing rows -/

theorem exec_cellItem {cell : Ref} (h : m.store.object cell = i.object) :
    (cellItem cell).exec m = (.ok i, m) := by
  have hcontent : m.store.content cell = i.object.content := by
    rw [Store.content, h]
  rw [cellItem, exec_bind_content, hcontent]
  cases i <;> rfl

theorem exec_mapM_cellItem (h : cells.map m.store.object = line.map Csv.Item.object) :
    (cells.mapM cellItem).exec m = (.ok line, m) := by
  rw [← List.forall₂_eq_eq_eq, List.forall₂_map_left_iff, List.forall₂_map_right_iff] at h
  exact exec_mapM_same (h.imp fun _ _ => exec_cellItem)

/-- The items in the rows of a table. -/
def rowItems (rows : List Ref) : EvalM (List (List Csv.Item)) :=
  rows.filterMapM fun row => do
    match ← cells? row with
    | some cells => some <$> cells.mapM cellItem
    | none => return none

theorem exec_rowItems {rows : List Ref}
    (h : rows.map m.store.rowObjects? = grid.map fun line => some (line.map Csv.Item.object)) :
    (rowItems rows).exec m = (.ok grid, m) := by
  rw [← List.forall₂_eq_eq_eq, List.forall₂_map_left_iff, List.forall₂_map_right_iff] at h
  refine exec_filterMapM_same (h.imp fun row line hrow => ?_)
  obtain ⟨cells, hcells, hobjects⟩ := Option.map_eq_some_iff.mp hrow
  rw [exec_bind_cells?, hcells]
  exact exec_map_of (exec_mapM_cellItem hobjects)

/-- The lines that a table is written in: its rows, after the names of the columns if these are
asked for and there are any. -/
def tableLines (header : Bool) (columns : List (String × TypeRef)) (grid : List (List Csv.Item)) :
    List (List Csv.Item) :=
  if header ∧ columns ≠ [] then (columns.map fun c => .text c.1) :: grid else grid

theorem isWritten_tableLines (header : Bool) (columns : List (String × TypeRef))
    (grid : List (List Csv.Item)) :
    (∀ line ∈ tableLines header columns grid, ∀ i ∈ line, i.IsWritten) ↔
      ∀ line ∈ grid, ∀ i ∈ line, i.IsWritten := by
  unfold tableLines
  split
  · refine List.forall_mem_cons.trans (and_iff_right ?_)
    intro i hi
    obtain ⟨c, -, rfl⟩ := List.mem_map.mp hi
    rfl
  · rfl

/-- A call to write a table. -/
theorem exec_runWriteCsv_iff {table w : Ref} {t : TableView}
    (htable : m.scope.get? "table" = some table) (ht : m.store.table? table = some t)
    (hname : Argument m "path" (.string name)) (hheader : Argument m "header" (.bool header))
    (hgrid : m.store.Shows t.rows grid) :
    (runWriteCsv position).exec m = (.ok w, m') ↔
      m.confinement = none ∧ (∀ line ∈ grid, ∀ i ∈ line, i.IsWritten) ∧
      ∃ disk, m.disk.write (csvPath none name) (Csv.render
          ((tableLines header (m.store.columnsOf t.schema) grid).map (List.map Csv.Item.shown))) =
            .ok disk ∧
        (newBool true).exec { m with disk } = (.ok w, m') := by
  obtain ⟨nameRef, hnameRef, hnameContent⟩ := hname
  obtain ⟨headerRef, hheaderRef, hheaderContent⟩ := hheader
  rw [runWriteCsv, exec_bind_argument htable, exec_bind_table?, exec_bind_argumentContent hnameRef,
    exec_bind_argumentContent hheaderRef, ht, hnameContent, hheaderContent]
  dsimp only
  rw [exec_bind_columnsOf, exec_bind_sequence]
  change (rowItems (m.store.sequence t.rows) >>= _).exec m = _ ↔ _
  rw [exec_bind_of (exec_rowItems hgrid), exec_bind_get]
  have hlines : ∀ names : List Csv.Item,
      names = (if header then (m.store.columnsOf t.schema).map fun c => .text c.1 else []) →
      (if names.isEmpty then grid else names :: grid) =
        tableLines header (m.store.columnsOf t.schema) grid := by
    rintro names rfl
    unfold tableLines
    cases header <;> simp
  rw [hlines _ rfl]
  cases hconfinement : m.confinement with
  | some directory =>
    exact iff_of_false report_ne_ok (by simp)
  | none =>
    simp only [Option.isSome_none, Bool.false_eq_true, if_false, true_and]
    rw [exec_bind_get]
    by_cases hall : ∀ line ∈ grid, ∀ i ∈ line, i.IsWritten
    · rw [Csv.write, Csv.fieldRows_of ((isWritten_tableLines _ _ _).mpr hall), and_iff_right hall]
      dsimp only
      cases m.disk.write (csvPath none name) _ with
      | error f => exact iff_of_false report_ne_ok (by simp)
      | ok disk =>
        simp only [Except.ok.injEq, exists_eq_left']
        rw [← hconfinement]
        rfl
    · refine iff_of_false (fun h => hall ?_) fun h => hall h.1
      -- A field that is missing is reported, whether the file could be written or not.
      refine (isWritten_tableLines header (m.store.columnsOf t.schema) grid).mp
        (Csv.isWritten_of_fieldRows ?_)
      cases houtcome :
          (Csv.fieldRows (tableLines header (m.store.columnsOf t.schema) grid)).2 with
      | ok u => rfl
      | error f =>
        rw [Csv.write] at h
        dsimp only at h
        rw [houtcome] at h
        split at h
        · obtain ⟨u, m₁, -, h⟩ := exec_bind_ok h
          exact absurd h report_ne_ok
        · exact absurd h report_ne_ok

/-! ## There and back -/

theorem unifyNewlines_eq_self_iff : unifyNewlines s = s ↔ '\r' ∉ s.toList := by
  rw [← String.toList_inj, unifyNewlines, String.toList_ofList]
  exact ⟨fun h => h ▸ Csv.not_mem_unifyNewlinesFrom s.toList, Csv.unifyNewlinesFrom_eq_self⟩

theorem unifyNewlines_shown {column : String × TypeRef} (h : i.Suits column) :
    unifyNewlines i.shown = i.shown := by
  refine unifyNewlines_eq_self_iff.mpr ?_
  cases i with
  | nothing => exact h.elim
  | int n =>
    have hdigits : ∀ k : Nat, '\r' ∉ (toString k).toList := fun k hr =>
      absurd (isDigit_of_mem_toString hr) (by decide)
    cases n with
    | ofNat k => exact hdigits k
    | negSucc k =>
      change '\r' ∉ ("-" ++ toString (k + 1)).toList
      rw [String.toList_append, List.mem_append, not_or]
      exact ⟨by decide, hdigits _⟩
  | bool b => cases b <;> decide
  | text s => exact h.2.2.2.2.2

/-- Does the name of a column come back? -/
def NameReturns (name : String) : Prop :=
  '\r' ∉ name.toList ∧ name.length ≤ Csv.Reader.limit

instance : DecidablePred NameReturns := fun name =>
  inferInstanceAs (Decidable ('\r' ∉ name.toList ∧ name.length ≤ Csv.Reader.limit))

/-- Is there a first line to read, and does it come back if it is the names of the columns? -/
def FirstReturns (header : Bool) (columns : List (String × TypeRef))
    (grid : List (List Csv.Item)) :
    Prop :=
  if header then columns ≠ [] ∧ ∀ c ∈ columns, NameReturns c.1 else grid ≠ []

/-- The lines of a text, without the names of the columns, stand for these values. -/
def LinesReturn (header : Bool) (columns : List (String × TypeRef)) (grid : List (List Csv.Item))
    (text : String) : Prop :=
  ∃ first rest, Csv.parse (Text.unifyNewlines text) = .ok (first :: rest) ∧
    (header → headerMatches first columns) ∧
    (if header then rest else first :: rest).map (List.map fieldObject?) =
      grid.map (List.map fun i => some i.object)

theorem linesReturn_render :
    LinesReturn header columns grid (Csv.render lines) ↔
      (∀ line ∈ lines, ∀ s ∈ line, (unifyNewlines s).length ≤ Csv.Reader.limit) ∧
      ∃ first rest, lines.map (List.map unifyNewlines) = first :: rest ∧
        (header → headerMatches first columns) ∧
        (if header then rest else first :: rest).map (List.map fieldObject?) =
          grid.map (List.map fun i => some i.object) := by
  unfold LinesReturn
  rw [Csv.parse_render]
  by_cases hshort : ∀ line ∈ lines, ∀ s ∈ line,
      (unifyNewlines s).length ≤ Csv.Reader.limit
  · simp only [if_pos hshort, Except.ok.injEq, and_iff_right hshort]
  · rw [if_neg hshort]
    exact iff_of_false (by simp) fun h => hshort h.1

theorem headerMatches_unifyNewlines :
    headerMatches (columns.map fun c => unifyNewlines c.1) columns ↔
      ∀ c ∈ columns, unifyNewlines c.1 = c.1 := by
  induction columns with
  | nil => simp [headerMatches]
  | cons c columns ih =>
    rw [List.forall_mem_cons, ← ih]
    simp [headerMatches]

/-- Do the fields of the rows stand for what is in the cells? -/
def FieldsReturn (grid : List (List Csv.Item)) : Prop :=
  (∀ line ∈ grid, ∀ i ∈ line, (Text.unifyNewlines i.shown).length ≤ Csv.Reader.limit) ∧
    (grid.map (List.map Csv.Item.shown)).map (List.map fieldObject?) =
      grid.map (List.map fun i => some i.object)

section

variable {columns : List (String × TypeRef)} {grid : List (List Csv.Item)}

theorem exists_suits (h : List.Forall₂ Csv.Item.Suits columns line) :
    ∀ i ∈ line, ∃ column, i.Suits column := by
  induction h with
  | nil => exact nofun
  | @cons column i _ _ hfirst _ ih => exact List.forall_mem_cons.mpr ⟨⟨column, hfirst⟩, ih⟩

variable (hsuits : ∀ line ∈ grid, List.Forall₂ Csv.Item.Suits columns line)

include hsuits

theorem map_unifyNewlines_shown :
    (grid.map (List.map Csv.Item.shown)).map (List.map unifyNewlines) =
      grid.map (List.map Csv.Item.shown) := by
  rw [List.map_map]
  refine List.map_congr_left fun line hline => ?_
  rw [Function.comp_apply, List.map_map]
  refine List.map_congr_left fun i hi => ?_
  obtain ⟨column, hi⟩ := exists_suits (hsuits line hline) i hi
  exact unifyNewlines_shown hi

theorem returns_grid_iff :
    (∀ line ∈ grid, ∀ i ∈ line, i.IsWritten) ∧ FieldsReturn grid ↔
      ∀ line ∈ grid, ∀ i ∈ line, i.Returns := by
  simp only [FieldsReturn, List.map_map, List.map_inj_left, Function.comp_apply, ← forall₂_and]
  refine forall₂_congr fun line hline => forall₂_congr fun i hi => ?_
  obtain ⟨column, hi⟩ := exists_suits (hsuits line hline) i hi
  rw [unifyNewlines_shown hi]
  exact returns_iff hi

theorem linesReturn_rows :
    LinesReturn false columns grid
        (Csv.render ((tableLines false columns grid).map (List.map Csv.Item.shown))) ↔
      FieldsReturn grid ∧ grid ≠ [] := by
  have hlines : tableLines false columns grid = grid := if_neg (by simp)
  rw [hlines, linesReturn_render, map_unifyNewlines_shown hsuits, FieldsReturn, and_assoc]
  simp only [List.forall_mem_map]
  refine and_congr_right fun _ => ⟨?_, ?_⟩
  · rintro ⟨first, rest, heq, -, hfields⟩
    refine ⟨heq ▸ hfields, ?_⟩
    rintro rfl
    cases heq
  · rintro ⟨hfields, hne⟩
    obtain ⟨line, grid, rfl⟩ := List.exists_cons_of_ne_nil hne
    exact ⟨_, _, rfl, nofun, hfields⟩

theorem linesReturn_header :
    LinesReturn true columns grid
        (Csv.render ((tableLines true columns grid).map (List.map Csv.Item.shown))) ↔
      FieldsReturn grid ∧ columns ≠ [] ∧ ∀ c ∈ columns, NameReturns c.1 := by
  by_cases hcolumns : columns = []
  · -- The first row is taken for the names, and there is one row less.
    refine iff_of_false (fun h => ?_) fun h => h.2.1 hcolumns
    have hlines : tableLines true columns grid = grid := if_neg (by simp [hcolumns])
    rw [hlines, linesReturn_render] at h
    obtain ⟨-, first, rest, heq, -, hfields⟩ := h
    have hlength := congrArg List.length heq
    have hlength' := congrArg List.length hfields
    simp only [List.length_map, List.length_cons, if_true] at hlength hlength'
    omega
  · have hlines : tableLines true columns grid = (columns.map fun c => .text c.1) :: grid :=
      if_pos ⟨rfl, hcolumns⟩
    have hnames :
        (columns.map fun c => Csv.Item.text c.1).map Csv.Item.shown = columns.map (·.1) := by
      rw [List.map_map]
      rfl
    have hname : ∀ c : String × TypeRef, NameReturns c.1 ↔ unifyNewlines c.1 = c.1 ∧
        (unifyNewlines c.1).length ≤ Csv.Reader.limit := by
      intro c
      rw [NameReturns, ← unifyNewlines_eq_self_iff]
      exact and_congr_right fun h => by rw [h]
    rw [hlines, linesReturn_render, List.map_cons, List.map_cons, hnames,
      map_unifyNewlines_shown hsuits, List.map_map, FieldsReturn]
    simp only [hname, forall₂_and, List.forall_mem_cons, List.forall_mem_map]
    constructor
    · rintro ⟨⟨hnames, hcells⟩, first, rest, heq, hmatch, hfields⟩
      cases heq
      exact ⟨⟨hcells, hfields⟩, hcolumns, headerMatches_unifyNewlines.mp (hmatch trivial),
        hnames⟩
    · rintro ⟨⟨hcells, hfields⟩, -, hmatch, hnames⟩
      exact ⟨⟨hnames, hcells⟩, _, _, rfl, fun _ => headerMatches_unifyNewlines.mpr hmatch,
        hfields⟩

theorem linesReturn_iff (header : Bool) :
    (∀ line ∈ grid, ∀ i ∈ line, i.IsWritten) ∧
      LinesReturn header columns grid
        (Csv.render ((tableLines header columns grid).map (List.map Csv.Item.shown))) ↔
      (∀ line ∈ grid, ∀ i ∈ line, i.Returns) ∧ FirstReturns header columns grid := by
  rw [← returns_grid_iff hsuits, and_assoc]
  refine and_congr_right fun _ => ?_
  cases header with
  | false => exact linesReturn_rows hsuits
  | true => exact linesReturn_header hsuits

end

/-- Writes a table to a file, and reads the file. -/
def writeThenRead (eval : Evaluator) (position : Option Position)
    (writing reading : Scope Ref TypeRef) : EvalM Ref := do
  let _ ← inScope writing (run eval position .writeCsv)
  inScope reading (run eval position .readCsv)

theorem exec_inScope_ok {α : Type} {scope : Scope Ref TypeRef} {x : EvalM α} {a : α} :
    (inScope scope x).exec m = (.ok a, m') ↔
      ∃ m₁, x.exec { m with scope } = (.ok a, m₁) ∧
        m' = { m₁ with scope := m.scope } := by
  rw [exec_inScope, Prod.mk.injEq]
  constructor
  · rintro ⟨hresult, rfl⟩
    exact ⟨_, Prod.ext hresult rfl, rfl⟩
  · rintro ⟨m₁, hx, rfl⟩
    rw [hx]
    exact ⟨rfl, rfl⟩

theorem Argument.extends {m₁ : Machine} {c : Content} (h : Argument m name c) (hc : c ≠ .none)
    (hscope : m₁.scope = m.scope) (hstore : m.store.Extends m₁.store) :
    Argument m₁ name c := by
  obtain ⟨r, hr, rfl⟩ := h
  exact ⟨r, hscope ▸ hr, hstore.content_eq hc⟩

theorem type_of_suits (h : List.Forall₂ Csv.Item.Suits columns line) :
    ∀ p ∈ (line.map Csv.Item.object).zip columns, p.1.type = p.2.2 := by
  induction h with
  | nil => exact fun p hp => absurd hp (by simp)
  | @cons column i _ _ hfirst _ ih =>
    refine List.forall_mem_cons.mpr ⟨?_, ih⟩
    cases i with
    | nothing => exact hfirst.elim
    | int n | bool b => exact hfirst.symm
    | text s => exact hfirst.1.symm

/-- A table of whole numbers, truth values and texts, and arguments to write it to a file and to
read the file with the same columns. -/
structure Filing (m : Machine) (writing reading : Scope Ref TypeRef) where
  name : String
  header : Bool
  columns : List (String × TypeRef)
  grid : List (List Csv.Item)
  path : Argument { m with scope := writing } "path" (.string name) ∧
    Argument { m with scope := reading } "path" (.string name)
  withHeader : Argument { m with scope := writing } "header" (.bool header) ∧
    Argument { m with scope := reading } "header" (.bool header)
  table : ∃ r t, writing.get? "table" = some r ∧ m.store.table? r = some t ∧
    m.store.columnsOf t.schema = columns ∧ m.store.Shows t.rows grid
  schema : ∃ r members place, reading.get? "schema" = some r ∧
    m.store.objects[r.index]? = some ⟨.schema members, .schema place⟩ ∧
    m.store.types.lists[members]? = some (columns.map (·.2)) ∧
    m.store.columns[place]? = some columns
  suits : ∀ line ∈ grid, List.Forall₂ Csv.Item.Suits columns line

namespace Filing

variable {writing reading : Scope Ref TypeRef}

/-- The machine that the file is read on. -/
def between (_ : Filing m writing reading) (disk : Disk) : Machine :=
  { m with scope := reading, disk, store := (m.store.add ⟨.bool, .bool true⟩).2 }

/-- The text of the file. -/
def text (f : Filing m writing reading) : String :=
  Csv.render ((tableLines f.header f.columns f.grid).map (List.map Csv.Item.shown))

theorem exec_writeThenRead_iff (f : Filing m writing reading) (eval : Evaluator) :
    (writeThenRead eval position writing reading).exec m = (.ok r, m') ↔
      m.confinement = none ∧ (∀ line ∈ f.grid, ∀ i ∈ line, i.IsWritten) ∧
      ∃ disk m₁, m.disk.write (csvPath none f.name) f.text = .ok disk ∧
        (runReadCsv position).exec (f.between disk) = (.ok r, m₁) ∧
        m' = { m₁ with scope := m.scope } := by
  obtain ⟨table, t, htable, ht, hcolumns, hgrid⟩ := f.table
  have hwrite (w m₁) :
      (runWriteCsv position).exec { m with scope := writing } = (.ok w, m₁) ↔ _ :=
    exec_runWriteCsv_iff htable ht f.path.1 f.withHeader.1 hgrid
  rw [hcolumns] at hwrite
  constructor
  · intro h
    obtain ⟨w, m₁, hw, h⟩ := exec_bind_ok h
    obtain ⟨m₂, hrun, rfl⟩ := exec_inScope_ok.mp hw
    obtain ⟨m₃, hr, rfl⟩ := exec_inScope_ok.mp h
    obtain ⟨hconfinement, hwritten, disk, hdisk, hnew⟩ := (hwrite w m₂).mp hrun
    cases hnew
    exact ⟨hconfinement, hwritten, disk, m₃, hdisk, hr, rfl⟩
  · rintro ⟨hconfinement, hwritten, disk, m₁, hdisk, hr, rfl⟩
    have hw : (inScope writing (run eval position .writeCsv)).exec m = _ :=
      exec_inScope_ok.mpr
        ⟨_, (hwrite _ _).mpr ⟨hconfinement, hwritten, disk, hdisk, rfl⟩, rfl⟩
    rw [writeThenRead, exec_bind_of hw]
    exact exec_inScope_ok.mpr ⟨m₁, hr, rfl⟩

theorem shows_iff_of_lines {s : Store} {place : Nat}
    (hrows : (s.sequence place).map s.rowObjects? = objects.map some)
    (hfields : lines.map (List.map fieldObject?) = objects.map (List.map some)) :
    s.Shows place grid ↔
      lines.map (List.map fieldObject?) = grid.map (List.map fun i => some i.object) := by
  have hsome : Function.Injective (some : Object → Option Object) := Option.some_injective _
  have hgrid : (grid.map (List.map fun i => some i.object)) =
      (grid.map (List.map Csv.Item.object)).map (List.map some) := by
    rw [List.map_map]
    simp [Function.comp_def]
  have hgrid' : (grid.map fun line => some (line.map Csv.Item.object)) =
      (grid.map (List.map Csv.Item.object)).map some := by
    rw [List.map_map]
    rfl
  rw [Store.Shows, hrows, hfields, hgrid, hgrid',
    (List.map_injective_iff.mpr (Option.some_injective _)).eq_iff,
    (List.map_injective_iff.mpr (List.map_injective_iff.mpr hsome)).eq_iff]

/-- The table that is read has the columns and the rows of the one that has been written. -/
def ReadsBack (f : Filing m writing reading) (eval : Evaluator) (position : Option Position) :
    Prop :=
  ∃ r m' t members, (writeThenRead eval position writing reading).exec m = (.ok r, m') ∧
    m'.store.table? r = some t ∧ t.type = .table members ∧
    m'.store.types.list members = f.columns.map (·.2) ∧
      m'.store.columnsOf t.schema = f.columns ∧
    m'.store.Shows t.rows f.grid

/-- The read call finds the columns and the lines of the file. -/
theorem exec_runReadCsv_between (f : Filing m writing reading) {disk : Disk}
    (position : Option Position) (hconfinement : m.confinement = none)
    (hdisk : m.disk.write (csvPath none f.name) f.text = .ok disk) :
    ∃ schema members, (f.between disk).store.ColumnsAt schema f.columns ∧
      (f.between disk).store.types.lists[members]? = some (f.columns.map (·.2)) ∧
      ∀ r m', (runReadCsv position).exec (f.between disk) = (.ok r, m') ∧
        m'.store.table? r ≠ none ↔
        ∃ first rest, Csv.parse (unifyNewlines f.text) = .ok (first :: rest) ∧
          (f.header → headerMatches first f.columns) ∧
          (linesTable position schema f.columns members
            (if f.header then rest else first :: rest)).exec (f.between disk) = (.ok r, m') := by
  obtain ⟨schema, members, place, hschema, hobject, hmembers, hcolumns⟩ := f.schema
  have hadds : m.store.Extends (f.between disk).store := Store.extends_add _ _
  have hobject' := hadds.objects hobject
  have hcolumnsAt : (f.between disk).store.ColumnsAt schema f.columns :=
    ⟨_, place, hobject', hadds.columns hcolumns⟩
  refine ⟨schema, members, hcolumnsAt, hadds.types.lists hmembers, fun r m' => ?_⟩
  have hpath : Argument (f.between disk) "path" (.string f.name) := f.path.2.extends nofun rfl hadds
  have hheader : Argument (f.between disk) "header" (.bool f.header) :=
    f.withHeader.2.extends nofun rfl hadds
  have hfile : (f.between disk).disk.read (csvPath (f.between disk).confinement f.name) =
      .ok f.text := by
    rw [show (f.between disk).confinement = none from hconfinement]
    exact Disk.read_of_write hdisk
  rw [exec_runReadCsv_iff hschema (Store.content_of_getElem? hobject') hpath hheader,
    exec_readTable_iff, hfile, Store.object_of_getElem? hobject', hcolumnsAt.columnsOf]
  simp

theorem linesReturn_of_readsBack (f : Filing m writing reading) {eval : Evaluator}
    (h : f.ReadsBack eval position) :
    ((∀ line ∈ f.grid, ∀ i ∈ line, i.IsWritten) ∧
      LinesReturn f.header f.columns f.grid f.text) ∧
      m.confinement = none ∧ m.disk.Writable (csvPath none f.name) := by
  obtain ⟨r, m', t, members, hexec, htable, -, -, -, hshows⟩ := h
  obtain ⟨hconfinement, hwritten, disk, m₁, hdisk, hread, rfl⟩ :=
    (f.exec_writeThenRead_iff eval).mp hexec
  have htable : m₁.store.table? r = some t := htable
  obtain ⟨schema, members', -, -, hiff⟩ :=
    f.exec_runReadCsv_between position hconfinement hdisk
  obtain ⟨first, rest, hparse, hmatch, hlines⟩ := (hiff r m₁).mp ⟨hread, by simp [htable]⟩
  obtain ⟨-, place, objects, htable', hrows, hfields⟩ := exec_linesTable_ok hlines
  cases htable'.symm.trans htable
  obtain ⟨place', hlocate, hnode, -⟩ := Disk.write_eq_ok_iff.mp hdisk
  exact ⟨⟨hwritten, first, rest, hparse, hmatch,
    (shows_iff_of_lines hrows hfields).mp hshows⟩, hconfinement, place', hlocate, hnode⟩

theorem readsBack_of_linesReturn (f : Filing m writing reading) (eval : Evaluator)
    (hwritten : ∀ line ∈ f.grid, ∀ i ∈ line, i.IsWritten)
    (hlines : LinesReturn f.header f.columns f.grid f.text) (hconfinement : m.confinement = none)
    (hwritable : m.disk.Writable (csvPath none f.name)) : f.ReadsBack eval position := by
  obtain ⟨first, rest, hparse, hmatch, hfields⟩ := hlines
  obtain ⟨place, hlocate, hnode⟩ := hwritable
  have hdisk : m.disk.write (csvPath none f.name) f.text = .ok _ :=
    Disk.write_eq_ok_iff.mpr ⟨place, hlocate, hnode, rfl⟩
  obtain ⟨schema, members, hcolumns, hmembers, hiff⟩ :=
    f.exec_runReadCsv_between position hconfinement hdisk
  have hobjects : (if f.header then rest else first :: rest).map (List.map fieldObject?) =
      (f.grid.map (List.map Csv.Item.object)).map (List.map some) := by
    rw [hfields, List.map_map]
    simp [Function.comp_def]
  have htypes : ∀ line ∈ f.grid.map (List.map Csv.Item.object), ∀ p ∈ line.zip f.columns,
      p.1.type = p.2.2 := by
    intro line hline
    obtain ⟨items, hitems, rfl⟩ := List.mem_map.mp hline
    exact type_of_suits (f.suits items hitems)
  obtain ⟨r, m₁, hlines⟩ := exec_linesTable_of hobjects htypes position schema members _
  obtain ⟨hadds, rows, objects, htable, hrows, hfields'⟩ := exec_linesTable_ok hlines
  obtain ⟨hread, -⟩ := (hiff r m₁).mpr ⟨first, rest, hparse, hmatch, hlines⟩
  have hexec := (f.exec_writeThenRead_iff eval).mpr
    ⟨hconfinement, hwritten, _, m₁, hdisk, hread, rfl⟩
  refine ⟨r, _, _, members, hexec, htable, rfl, ?_, ?_, ?_⟩
  · exact TypeStore.list_of_getElem? (hadds.types.lists hmembers)
  · exact (hadds.columnsAt hcolumns).columnsOf
  · exact (shows_iff_of_lines hrows hfields').mpr hfields

/-- A table comes back from its file iff every value in it does, there is a first line that does,
and the file can be written. -/
theorem readsBack_iff_returns (f : Filing m writing reading) (eval : Evaluator)
    (position : Option Position) :
    f.ReadsBack eval position ↔
      (∀ line ∈ f.grid, ∀ i ∈ line, i.Returns) ∧
        FirstReturns f.header f.columns f.grid ∧
      m.confinement = none ∧ m.disk.Writable (csvPath none f.name) := by
  rw [← and_assoc, ← linesReturn_iff f.suits]
  constructor
  · exact f.linesReturn_of_readsBack
  · rintro ⟨⟨hwritten, hlines⟩, hconfinement, hwritable⟩
    exact f.readsBack_of_linesReturn eval hwritten hlines hconfinement hwritable

/-- A machine with a table of one row, and the arguments to write it to a file and to read that. -/
def pairMachine (c d : String × TypeRef) (i j : Csv.Item) (header : Bool) : Machine where
  store :=
    { types := { lists := #[[c.2, d.2]], cells := #[0] }
      objects := #[⟨.schema 0, .schema 0⟩, i.object, j.object, ⟨.tuple 0, .tuple 0⟩,
        ⟨.table 0, .table ⟨0⟩ 1⟩, ⟨.string, .string "pairs"⟩, ⟨.bool, .bool header⟩]
      sequences := #[#[⟨1⟩, ⟨2⟩], #[⟨3⟩]]
      columns := #[[c, d]] }
  scope :=
    { names := [("schema", ⟨0⟩), ("table", ⟨4⟩), ("path", ⟨5⟩), ("header", ⟨6⟩)] }

def pair {c d : String × TypeRef} {i j : Csv.Item} (hi : i.Suits c) (hj : j.Suits d)
    (header : Bool) :
    Filing (pairMachine c d i j header) (pairMachine c d i j header).scope
      (pairMachine c d i j header).scope where
  name := "pairs"
  header
  columns := [c, d]
  grid := [[i, j]]
  path := ⟨⟨⟨5⟩, rfl, rfl⟩, ⟨5⟩, rfl, rfl⟩
  withHeader := ⟨⟨⟨6⟩, rfl, rfl⟩, ⟨6⟩, rfl, rfl⟩
  table := ⟨⟨4⟩, _, rfl, rfl, rfl, rfl⟩
  schema := ⟨⟨0⟩, 0, 0, rfl, rfl, rfl, rfl⟩
  suits := by
    intro line hline
    rw [List.mem_singleton.mp hline]
    exact .cons hi (.cons hj .nil)

/-- A number, and a text with everything that has to be quoted. -/
def numberAndText :=
  pair (c := ("n", .int)) (d := ("s", .string)) (i := .int 42) (j := .text "x, \"y\"\n") rfl
    ⟨rfl, by decide, by decide, by decide, by decide, by decide⟩ true

/-- A number, and a truth value. -/
def numberAndTruth :=
  pair (c := ("n", .int)) (d := ("b", .bool)) (i := .int 42) (j := .bool true) rfl rfl true

theorem readsBack_numberAndText : numberAndText.ReadsBack (eval 1) none := by
  refine (readsBack_iff_returns _ _ _).mpr
    ⟨?_, ⟨by decide, by decide⟩, rfl, ["pairs.csv"], rfl, by decide⟩
  have hreturns : ∀ i ∈ [Csv.Item.int 42, .text "x, \"y\"\n"], i.Returns := by decide +kernel
  exact List.forall_mem_singleton.mpr hreturns

theorem not_readsBack_numberAndTruth : ¬ numberAndTruth.ReadsBack (eval 1) none := by
  intro h
  obtain ⟨hlines, -⟩ := linesReturn_of_readsBack _ h
  obtain ⟨hreturns, -⟩ := (linesReturn_iff numberAndTruth.suits true).mp hlines
  exact hreturns [.int 42, .bool true] (by decide) (.bool true) (by decide)

end Filing

end Primitive

end TableScript
