import TableScript.Fault

/-!
Comma-separated values.

* `Csv.render` writes rows of fields: a field that holds a comma, a quotation mark or an end of a
  line is put between quotation marks, and a quotation mark inside it is written twice;
* `Csv.write` does so for rows of items, as far as every item has a field;
* `Csv.parse` reads them back. It takes whatever is not written so as well as it can: a quotation
  mark inside a field that does not start with one stands for itself, and a quotation mark that is
  left open is closed by the end of the text.
-/

namespace TableScript.Csv

def ending : String := ".csv"

/-! ## Writing -/

/-- What is written in a field. -/
inductive Item where
  | nothing
  | int (n : Int)
  | bool (b : Bool)
  | text (s : String)
  deriving DecidableEq, Inhabited, Repr

/-- The field that an item is written in. A number without a numeral has none. -/
def Item.field : Item → Except Fault String
  | nothing => .ok ""
  | int n =>
    match Text.numeralOf? n with
    | some s => .ok s
    | none => .error .noNumeral
  | bool b => .ok (if b then "True" else "False")
  | text s => .ok s

def needsQuotes (c : Char) : Bool :=
  c == ',' || c == '"' || c == '\r' || c == '\n'

def renderField (s : String) : String :=
  if s.toList.any needsQuotes then
    "\"" ++ String.ofList (s.toList.flatMap fun c => if c == '"' then ['"', '"'] else [c]) ++ "\""
  else s

/-- A row as it is written. A single empty field is quoted, to tell it from a row without fields. -/
def renderRow (fields : List String) : String :=
  (if fields = [""] then "\"\"" else ",".intercalate (fields.map renderField)) ++ "\r\n"

def render (rows : List (List String)) : String :=
  String.join (rows.map renderRow)

/-- The rows up to the first with an item that has no field, and the fault of that item. -/
def fieldRows : List (List Item) → List (List String) × Except Fault Unit
  | [] => ([], .ok ())
  | row :: rows =>
    match row.mapM Item.field with
    | .error f => ([], .error f)
    | .ok fields =>
      let (rest, outcome) := fieldRows rows
      (fields :: rest, outcome)

/-- Rows of items as they are written, and whether all of them are. The rows before one that cannot
be written stay. -/
def write (rows : List (List Item)) : String × Except Fault Unit :=
  let (fields, outcome) := fieldRows rows
  (render fields, outcome)

/-! ## Reading -/

inductive Mode where
  | startRecord
  | startField
  | inField
  | inQuotes
  /-- After a quotation mark inside quotation marks: another one stands for itself. -/
  | afterQuote
  | endLine
  deriving DecidableEq, Inhabited, Repr

/-- The state of the reader between two characters. -/
structure Reader where
  mode : Mode := .startRecord
  /-- The characters of the current field, last first. -/
  field : List Char := []
  length : Nat := 0
  /-- The fields of the current row, last first. -/
  fields : List String := []
  /-- The rows so far, last first. -/
  rows : List (List String) := []
  /-- Has the current line begun? -/
  begun : Bool := false

namespace Reader

/-- The longest field. -/
def limit : Nat := 131072

def endField (r : Reader) (mode : Mode) : Reader :=
  { r with mode, field := [], length := 0, fields := String.ofList r.field.reverse :: r.fields }

def push (r : Reader) (mode : Mode) (c : Char) : Except Fault Reader :=
  if limit ≤ r.length then .error .fieldTooLarge
  else .ok { r with mode, field := c :: r.field, length := r.length + 1 }

def fieldStart (r : Reader) (c : Char) : Except Fault Reader :=
  if c == '\n' then .ok (r.endField .endLine)
  else if c == '"' then .ok { r with mode := .inQuotes }
  else if c == ',' then .ok (r.endField .startField)
  else r.push .inField c

def step (r : Reader) (c : Char) : Except Fault Reader :=
  match r.mode with
  | .startRecord => if c == '\n' then .ok { r with mode := .endLine } else r.fieldStart c
  | .startField => r.fieldStart c
  | .inField =>
    if c == '\n' then .ok (r.endField .endLine)
    else if c == ',' then .ok (r.endField .startField)
    else r.push .inField c
  | .inQuotes =>
    if c == '"' then .ok { r with mode := .afterQuote } else r.push .inQuotes c
  | .afterQuote =>
    if c == '"' then r.push .inQuotes c
    else if c == '\n' then .ok (r.endField .endLine)
    else if c == ',' then .ok (r.endField .startField)
    else r.push .inField c
  | .endLine => .ok r

def endRow (r : Reader) : Reader :=
  { rows := r.fields.reverse :: r.rows }

/-- Ends a line. Inside quotation marks the row goes on. -/
def endLine (r : Reader) : Reader :=
  match r.mode with
  | .inQuotes => { r with begun := false }
  | .startField | .inField | .afterQuote => (r.endField .startRecord).endRow
  | .startRecord | .endLine => r.endRow

def finish (r : Reader) : Reader :=
  let r := if r.begun then r.endLine else r
  if r.mode = .inQuotes then (r.endField .startRecord).endRow else r

def run (r : Reader) : List Char → Except Fault Reader
  | [] => .ok r.finish
  | c :: rest => do
    let next ← r.step c
    (if c == '\n' then next.endLine else { next with begun := true }).run rest

end Reader

/-- The rows of a text whose lines end with newlines. -/
def parse (text : String) : Except Fault (List (List String)) := do
  let r ← Reader.run {} text.toList
  return r.rows.reverse

end TableScript.Csv
