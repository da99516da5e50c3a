import TableScript.Primitive.Basic
import TableScript.Text.Edit
import TableScript.Value.Query

/-!
Built-in functions on tables. A table has a schema and rows; the schema, the rows and the lists of
types can be shared between tables, so a column that is added or dropped in one table shows in
every table that shares its rows.
-/

namespace TableScript.Primitive

open EvalM

/-- A table: its type, its schema, and the place of its rows. -/
structure TableView where
  type : TypeRef
  schema : Ref
  rows : Nat

def table? (r : Ref) : EvalM (Option TableView) := do
  let o ← object r
  match o.content with
  | .table schema rows => return some ⟨o.type, schema, rows⟩
  | _ => return none

def columnsOf (t : TableView) : EvalM (List (String × TypeRef)) := do
  return (← store).columnsOf t.schema

/-- The cells of a row; what is no tuple has none. -/
def cells? (row : Ref) : EvalM (Option (List Ref)) := do
  match ← content row with
  | .tuple place => return some (← sequence place)
  | _ => return none

def newMembers (types : List TypeRef) : EvalM Nat :=
  makeType (·.addList types)

/-- A new tuple type whose members are the list at a place. -/
def newRowType (members : Nat) : EvalM TypeRef :=
  makeType (·.addCell members)

def newSchema (members : Nat) (columns : List (String × TypeRef)) : EvalM Ref := do
  let place ← make (·.addColumns columns)
  new (.schema members) (.schema place)

def newTable (members : Nat) (schema : Ref) (rows : List Ref) : EvalM Ref := do
  let place ← make (·.addSequence rows)
  new (.table members) (.table schema place)

/-! ## Making tables -/

def cellsConform (position : Option Position) : List Ref → List (String × TypeRef) → EvalM Bool
  | cell :: cells, column :: columns => do
    if ← conforms position (← typeOf cell) column.2 then cellsConform position cells columns
    else return false
  | _, _ => return true

/-- Do the cells of all rows go into the columns? -/
def rowsConform (position : Option Position) (columns : List (String × TypeRef)) :
    List Ref → EvalM Bool
  | [] => return true
  | row :: rows => do
    match ← cells? row with
    | some cells =>
      if ← cellsConform position cells columns then rowsConform position columns rows
      else return false
    | none => rowsConform position columns rows

/-- A table of a schema and a list of rows. It shares both. -/
def runCreateTable (position : Option Position) : EvalM Ref := do
  let schema ← argument "schema" position
  let rows ← argument "rows" position
  let o ← object schema
  match o.content, ← content rows with
  | .schema columns, .list place =>
    if ← rowsConform position ((← store).columnList columns) (← sequence place) then
      match o.type with
      | .schema members => new (.table members) (.table schema place)
      | _ => newNone
    else newNone
  | _, _ => newNone

def runColumn (position : Option Position) : EvalM Ref := do
  let list ← argumentContent "list" position
  let name ← argumentContent "name" position
  match list, name with
  | .list place, .string s =>
    match ← sequence place with
    | [] => report "Cannot create table from empty list" position
    | first :: rest =>
      let type ← typeOf first
      let members ← newMembers [type]
      let schema ← newSchema members [(s, type)]
      let rows ← (first :: rest).mapM fun r => do
        newTuple (← newRowType (← newMembers [type])) [r]
      newTable members schema rows
  | _, _ => newNone

/-! ## Selecting -/

/-- A column that is selected: its position, its name with the name of its table, its type. -/
structure Selected where
  index : Nat
  name : String
  type : TypeRef

/-- A column's name with the name of its table, if there is one. -/
def qualified (tableName : String) (column : String) : String :=
  if tableName.isEmpty then column else tableName ++ "." ++ column

def selectColumns (tableName : String) (names : List (Option String))
    (columns : List (String × TypeRef)) : List Selected :=
  columns.zipIdx.filterMap fun (column, index) =>
    let name := qualified tableName column.1
    if names.contains (some name) then some ⟨index, name, column.2⟩ else none

def selectCells (selected : List Selected) (cells : List Ref) : List Ref :=
  cells.zipIdx.filterMap fun (cell, index) =>
    if selected.any (·.index == index) then some cell else none

/-- The columns that are selected, without the names of their tables. -/
def plainNames (selected : List Selected) : List (String × TypeRef) :=
  selected.map fun c => (Text.erase "right." (Text.erase "left." c.name), c.type)

/-- The cells of a row by the names of their columns. -/
def namedCells (tableName : String) (columns : List (String × TypeRef)) (row : Ref) :
    EvalM (List (String × Ref)) := do
  match ← cells? row with
  | some cells => return (columns.zip cells).map fun (c, r) => (qualified tableName c.1, r)
  | none => return []

/-- Does a query hold for cells? A query that fails is an error. -/
def holds (query : String) (position : Option Position) (cells : List (String × Ref)) :
    EvalM Bool := do
  let s ← store
  match ← ofExcept (Query.ask query (cells.map fun c => (c.1, s.value c.2))) with
  | .holds b => return b.getD false
  | .fails e => report e.report position

def columnNames (place : Nat) : EvalM (List (Option String)) := do
  (← sequence place).mapM textContent?

/-- The row of the cells that are selected, if a query holds for the row. -/
def selectRow (position : Option Position) (query : String) (columns : List (String × TypeRef))
    (selected : List Selected) (members : Nat) (row : Ref) : EvalM (Option Ref) := do
  if ← holds query position (← namedCells "" columns row) then
    match ← cells? row with
    | some cells => some <$> newTuple (← newRowType members) (selectCells selected cells)
    | none => return none
  else return none

def selectTable (position : Option Position) (t : TableView) (place : Nat) (query : String) :
    EvalM Ref := do
  let all ← columnsOf t
  let selected := selectColumns "" (← columnNames place) all
  let members ← newMembers (selected.map (·.type))
  let rows ← (← sequence t.rows).filterMapM (selectRow position query all selected members)
  let schema ← newSchema members (plainNames selected)
  newTable members schema rows

/-- The columns of a table that are named, in the rows for which a query holds. -/
def runSelect (position : Option Position) : EvalM Ref := do
  let table ← table? (← argument "table" position)
  let columns ← argumentContent "columns" position
  let condition ← argumentContent "where" position
  match table, columns, condition with
  | some t, .list place, .string query => selectTable position t place query
  | _, _, _ => fault (.missing .type)

/-- The rows of two tables for which a query holds, joined. -/
def joinRows (position : Option Position) (query : String) (members : Nat)
    (left right : List Selected) (leftColumns rightColumns : List (String × TypeRef))
    (leftRow rightRow : Ref) : EvalM (Option Ref) := do
  let leftCells ← namedCells "left" leftColumns leftRow
  let rightCells ← namedCells "right" rightColumns rightRow
  if ← holds query position (leftCells ++ rightCells) then
    match ← cells? leftRow, ← cells? rightRow with
    | some as, some bs =>
      some <$> newTuple (← newRowType members) (selectCells left as ++ selectCells right bs)
    | _, _ => return none
  else return none

/-- The first of the names that another one equals. -/
def repeated? (names : List String) : Option String :=
  names.find? fun n => 1 < names.count n

def joinTable (position : Option Position) (l r : TableView) (place : Nat) (query : String) :
    EvalM Ref := do
  let names ← columnNames place
  let leftColumns ← columnsOf l
  let rightColumns ← columnsOf r
  let leftSelected := selectColumns "left" names leftColumns
  let rightSelected := selectColumns "right" names rightColumns
  let members ← newMembers ((leftSelected ++ rightSelected).map (·.type))
  let rightRows ← sequence r.rows
  let rows ← (← sequence l.rows).mapM fun leftRow =>
    rightRows.filterMapM
      (joinRows position query members leftSelected rightSelected leftColumns rightColumns leftRow)
  let joined := plainNames leftSelected ++ plainNames rightSelected
  match repeated? (joined.map (·.1)) with
  | some name =>
    report ("Join column '" ++ name ++ "' must be unique across both tables") position
  | none => newTable members (← newSchema members joined) rows.flatten

/-- The named columns of two tables, in the pairs of rows for which a query holds. -/
def runJoin (position : Option Position) : EvalM Ref := do
  let left ← table? (← argument "left_table" position)
  let right ← table? (← argument "right_table" position)
  let columns ← argumentContent "columns" position
  let condition ← argumentContent "where" position
  match left, right, columns, condition with
  | some l, some r, .list place, .string query => joinTable position l r place query
  | _, _, _, _ => newNone

def noColumn (name : String) : String :=
  "Column '" ++ name ++ "' does not exist in this table"

/-- The names among values that are texts. -/
def givenNames (s : Store) (place : Nat) : List String :=
  (s.sequence place).filterMap fun r =>
    match s.content r with
    | .string name => some name
    | _ => none

/-- The columns that are named, each as often as its name is given. -/
def namedColumns (all : List (String × TypeRef)) (given : List String) :
    List (String × TypeRef) :=
  all.flatMap fun c => (given.filter (· == c.1)).map fun n => (n, c.2)

def keptCells (all : List (String × TypeRef)) (given : List String) (cells : List Ref) :
    List Ref :=
  cells.zipIdx.filterMap fun (cell, index) =>
    if (all[index]?).any fun c => given.contains c.1 then some cell else none

def pickRow (all : List (String × TypeRef)) (given : List String) (members : Nat) (row : Ref) :
    EvalM (Option Ref) := do
  match ← cells? row with
  | some cells => some <$> newTuple (← newRowType members) (keptCells all given cells)
  | none => return none

def pickTable (t : TableView) (all : List (String × TypeRef)) (given : List String) :
    EvalM Ref := do
  let members ← newMembers ((namedColumns all given).map (·.2))
  let schema ← newSchema members (namedColumns all given)
  let rows ← (← sequence t.rows).filterMapM (pickRow all given members)
  newTable members schema rows

/-- The columns of a table that are named; a name given twice counts twice for the schema. -/
def runGetColumns (position : Option Position) : EvalM Ref := do
  let table ← table? (← argument "table" position)
  let given ← argumentContent "names" position
  match table, given with
  | some t, .list place =>
    let all ← columnsOf t
    let names := givenNames (← store) place
    match names.find? fun n => !(all.map (·.1)).contains n with
    | some name => report (noColumn name) position
    | none => pickTable t all names
  | _, _ => newNone

/-- The last column of a name. -/
def lastColumn? (name : String) (columns : List (String × TypeRef)) : Option (Nat × TypeRef) :=
  (columns.zipIdx.filter fun (c, _) => c.1 == name).getLast?.map fun (c, index) => (index, c.2)

/-- The cell of a row at an index; what is no row has none. -/
def cellAt (index : Nat) (row : Ref) : EvalM (Option Ref) := do
  match ← cells? row with
  | some cells =>
    match cells[index]? with
    | some cell => return some cell
    | none => fault .outOfRange
  | none => return none

def runGetColumn (position : Option Position) : EvalM Ref := do
  let table ← table? (← argument "table" position)
  let name ← argumentContent "name" position
  match table, name with
  | some t, .string name =>
    match lastColumn? name (← columnsOf t) with
    | none | some (_, .unknown) => report (noColumn name) position
    | some (index, type) =>
      newList (.list type) (← (← sequence t.rows).filterMapM (cellAt index))
  | _, _ => newNone

/-- The rows of a table as a list, which shares them. -/
def runCollect (position : Option Position) : EvalM Ref := do
  match ← table? (← argument "table" position) with
  | some t =>
    match (← object t.schema).type with
    | .schema members =>
      let row ← newRowType members
      new (.list row) (.list t.rows)
    | _ => newNone
  | none => newNone

def runCount (position : Option Position) : EvalM Ref := do
  match ← table? (← argument "table" position) with
  | some t => newInt (← sequence t.rows).length
  | none => newNone

/-! ## Changing tables -/

/-- Adds a cell to a row, and its type to the type of the row. -/
def extendRow (type : TypeRef) (value row : Ref) : EvalM Unit := do
  match ← typeOf row with
  | .tuple c => change fun s => s.mapTypes fun types => types.appendMember (types.cell c) type
  | _ => pure ()
  match ← content row with
  | .tuple place => change (·.appendElement place value)
  | _ => pure ()

/-- Adds a column to a schema and to the type of its table. -/
def extendSchema (t : TableView) (name : String) (type : TypeRef) : EvalM Unit := do
  match t.type with
  | .table members =>
    change fun s => s.mapTypes (·.appendMember members type)
    match ← content t.schema with
    | .schema place => change (·.appendColumn place (name, type))
    | _ => pure ()
  | _ => pure ()

def runWith (position : Option Position) : EvalM Ref := do
  let r ← argument "table" position
  let name ← argumentContent "name" position
  let values ← argumentContent "values" position
  match ← table? r, name, values with
  | some t, .string name, .list place =>
    let rows ← sequence t.rows
    match ← sequence place with
    | [] =>
      report ("New column '" ++ name ++ "' must contain values to be added to table") position
    | first :: rest =>
      if (first :: rest).length ≠ rows.length then
        report ("New column '" ++ name ++ "' must contain same number of rows (" ++
          toString rows.length ++ ") to be added to table") position
      else
        let type ← typeOf first
        extendSchema t name type
        ((first :: rest).zip rows).forM fun (value, row) => extendRow type value row
        return r
  | _, _, _ => newNone

/-- Gives the type of a row the types of its table. -/
def adoptRow (t : TableView) (row : Ref) : EvalM Unit := do
  match (← object row).type, t.type with
  | .tuple c, .table members => change fun s => s.mapTypes (·.retarget c members)
  | _, _ => pure ()

/-- Appends the rows of the sequence at a place to a table, from an index on, up to a row whose
cells do not go into the columns; `turns` is how many rows are taken before the rows count as
endless. -/
def appendRows (position : Option Position) (t : TableView) (source : Nat) :
    Nat → Nat → EvalM Bool
  | 0, _ => fault .endless
  | turns + 1, index => do
    match ← element? source index with
    | none => return true
    | some row =>
      match ← cells? row with
      | none => appendRows position t source turns (index + 1)
      | some cells =>
        let columns ← columnsOf t
        if cells.length ≠ columns.length then
          report "Appended row must have same number of columns as table" position
        else if ← cellsConform position cells columns then
          adoptRow t row
          change (·.appendElement t.rows row)
          appendRows position t source turns (index + 1)
        else return false

/-- A table with rows appended to it. Rows that are appended to themselves grow as they are taken.
The first time round they get the types of the table; from then on nothing changes but their number,
so rows that are taken twice are taken for ever. -/
def runAppend (position : Option Position) : EvalM Ref := do
  let r ← argument "table" position
  let rows ← argumentContent "rows" position
  match ← table? r, rows with
  | some t, .list place =>
    let turns := 2 * (← sequence place).length + 1
    if ← appendRows position t place turns 0 then return r else newNone
  | _, _ => newNone

/-- Takes the type at an index out of the list at a place. -/
def dropMember (members index : Nat) : EvalM Unit := do
  if index < ((← store).types.list members).length then
    change fun s => s.mapTypes (·.eraseMember members index)
  else fault .outOfRange

/-- A copy of a schema without the column at an index. -/
def dropFromSchema (schema : Ref) (index : Nat) : EvalM Ref := do
  let copy ← make (·.copy schema)
  match ← content copy with
  | .schema place => change (·.eraseColumn place index)
  | _ => pure ()
  match (← object copy).type with
  | .schema members => dropMember members index
  | _ => pure ()
  return copy

/-- Takes the cell at an index out of a row. The new row shares its cells with the old one. -/
def dropFromRow (type : TypeRef) (index : Nat) (row : Ref) : EvalM (Option Ref) := do
  match ← content row with
  | .tuple place =>
    let dropped ← new type (.tuple place)
    if index < (← sequence place).length then
      change (·.eraseElement place index)
      return some dropped
    else fault .outOfRange
  | _ => return none

def runDrop (position : Option Position) : EvalM Ref := do
  let table ← table? (← argument "table" position)
  let column ← argumentContent "column" position
  match table, column with
  | some t, .string name =>
    match lastColumn? name (← columnsOf t) with
    | none => report (noColumn name) position
    | some (index, _) =>
      let schema ← dropFromSchema t.schema index
      match t.type with
      | .table members =>
        dropMember members index
        let row ← newRowType members
        let rows ← (← sequence t.rows).filterMapM (dropFromRow row index)
        newTable members schema rows
      | _ => newNone
  | _, _ => newNone

end TableScript.Primitive
