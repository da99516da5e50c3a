import TableScript.Csv
import TableScript.Primitive.Table
import TableScript.Text.Numeral

/-!
Tables in files of comma-separated values.
-/

namespace TableScript.Primitive

open EvalM

/-- The file that a name stands for. In a confined run only the last part of the name counts. -/
def csvPath (confinement : Option Path) (name : String) : Path :=
  let path := Path.ofString (name ++ Csv.ending)
  match confinement with
  | some directory => directory.join { parts := [path.name] }
  | none => path

/-! ## Reading -/

def fieldValue (field : String) : EvalM Ref := do
  if field.isEmpty then newNone
  else if Text.isNumericWord field then
    match Text.readNumeral field with
    | .ok n => newInt n
    | .error problem => fault (.notNumeral field problem)
  else if field == "true" then newBool true
  else if field == "false" then newBool false
  else newString field

/-- Do the names in the first row agree with the columns? -/
def headerMatches (header : List String) (columns : List (String × TypeRef)) : Bool :=
  (header.zip columns).all fun (h, c) => h == c.1

/-- A row of values whose types go into the columns. -/
def readRow (position : Option Position) (type : TypeRef) (columns : List (String × TypeRef))
    (fields : List String) : EvalM (Option Ref) := do
  let cells ← fields.mapM fieldValue
  if ← cellsConform position cells columns then some <$> newTuple type cells else return none

def readTable (position : Option Position) (schema : Ref) (path : Path) (header : Bool) :
    EvalM Ref := do
  let file ← ofExcept ((← get).disk.read path)
  let lines ← ofExcept (Csv.parse (Text.unifyNewlines file))
  let columns := (← store).columnsOf schema
  match (← object schema).type, lines with
  | .schema members, first :: rest =>
    if header && !headerMatches first columns then
      report ("Provided schema does not match CSV header: " ++ Text.quoteList first) position
    else
      let row ← newRowType members
      let rows ← (if header then rest else first :: rest).filterMapM
        (readRow position row columns)
      newTable members schema rows
  | _, _ => newNone

def readFailure (position : Option Position) (name : String) (path : Path) : Halt → EvalM Ref
  | .fault (.path .notFound _) => report ("CSV file not found: " ++ path.text) position
  | .fault f => report ("Failed to read CSV: " ++ name ++ ": " ++ f.message) position
  | .reported => report ("Failed to read CSV: " ++ name ++ ": ") position

def runReadCsv (position : Option Position) : EvalM Ref := do
  let schema ← argument "schema" position
  let name ← argumentContent "path" position
  let header ← argumentContent "header" position
  match ← content schema, name, header with
  | .schema _, .string name, .bool header =>
    let path := csvPath (← get).confinement name
    tryCatch (readTable position schema path header) (readFailure position name path)
  | _, _, _ => newNone

/-! ## Writing -/

/-- What a cell is written as. A collection cannot be written. -/
def cellItem (r : Ref) : EvalM Csv.Item := do
  match ← content r with
  | .int n => return .int n
  | .bool b => return .bool b
  | .char s => return .text s
  | .string s => return .text s
  | .none => return .nothing
  | .entry _ _ => fault (.entry .content)
  | _ => fault .noContent

def writeFailure (name reason : String) : String :=
  "Failed to write CSV: " ++ name ++ ": " ++ reason

/-- Writes a table to a file. A confined run writes none. -/
def runWriteCsv (position : Option Position) : EvalM Ref := do
  let table ← table? (← argument "table" position)
  let name ← argumentContent "path" position
  let header ← argumentContent "header" position
  match table, name, header with
  | some t, .string name, .bool header =>
    let columns ← columnsOf t
    let names : List Csv.Item := if header then columns.map fun c => .text c.1 else []
    let rows ← (← sequence t.rows).filterMapM fun row => do
      match ← cells? row with
      | some cells => some <$> cells.mapM cellItem
      | none => return none
    if (← get).confinement.isSome then
      report (writeFailure name "'writeCsv' builtin is disabled in server mode") position
    else
      let lines := if names.isEmpty then rows else names :: rows
      let (text, outcome) := Csv.write lines
      match (← get).disk.write (csvPath none name) text with
      | .ok disk =>
        modify fun m => { m with disk }
        match outcome with
        | .ok () => newBool true
        | .error f => report (writeFailure name f.message) position
      | .error f => report (writeFailure name f.message) position
  | _, _, _ => newNone

end TableScript.Primitive
