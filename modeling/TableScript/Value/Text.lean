import TableScript.Text.Edit
import TableScript.Type.Text
import TableScript.Value.Basic

/-!
The text of values.

* `Grid`: the layout of a table, underlined, with the types and names of its columns in bold;
* `Value.text`: the text of a value. An empty collection has none, nor has a table with a row that
  is shorter or longer than its schema.
-/

namespace TableScript

/-- A table as text: the types and the names of its columns, and its rows. -/
structure Grid where
  types : List String
  names : List String
  rows : List (List String)

namespace Grid

/-- The rows of which a column is made. -/
def lines (g : Grid) : List (List String) :=
  g.types :: g.names :: g.rows

def width (g : Grid) (column : Nat) : Except Fault Nat := do
  let cells ← g.lines.mapM fun row =>
    match row[column]? with
    | some s => Except.ok s
    | none => throw .outOfRange
  return (cells.map String.length).foldl max 0

def line (widths : List Nat) (row : List String) : Except Fault String := do
  if widths.length < row.length then throw .outOfRange
  return "| " ++ " | ".intercalate (List.zipWith Text.padRight widths row) ++ " |\n"

def text (g : Grid) : Except Fault String := do
  let widths ← (List.range g.names.length).mapM g.width
  let types ← line widths g.types
  let banner := String.ofList (List.replicate (types.length - 1) ' ') ++ "\n"
  let names ← line widths g.names
  let rows ← g.rows.mapM (line widths)
  return "\x1b[4m" ++ banner ++ "\x1b[1m" ++ types ++ names ++ "\x1b[0m" ++
    String.join (rows.map fun row => "\x1b[4m" ++ row ++ "\x1b[0m")

end Grid

/-- Texts with commas between them; there has to be one. -/
def joinTexts (texts : List String) : Except Fault String :=
  if texts.isEmpty then throw .emptyJoin else return ", ".intercalate texts

def columnTexts (columns : List (String × Ty)) : Except Fault (List String) :=
  columns.mapM fun (name, type) => do return name ++ ": " ++ (← type.text)

/-- The text of a number, if it has a numeral. -/
def intText (n : Int) : Except Fault String :=
  match Text.numeralOf? n with
  | some s => .ok s
  | none => .error .noNumeral

def boolText (b : Bool) : String :=
  if b then "true" else "false"

/-- The text of a list of elements, or of a dictionary of entries, with these texts. -/
def listText (texts : List String) : Except Fault String := do
  return "[" ++ (← joinTexts texts) ++ "]"

def tupleText (texts : List String) : Except Fault String := do
  return "(" ++ (← joinTexts texts) ++ ")"

def entryText (key value : String) : String :=
  key ++ ": " ++ value

def schemaText (columns : List (String × Ty)) : Except Fault String := do
  return "$\x7b" ++ (← joinTexts (← columnTexts columns)) ++ "\x7d"

def funcText (type : Ty) (builtin : Option Builtin) (parameters : List (String × Ty)) :
    Except Fault String := do
  let name := match builtin with
    | some b => "builtin:" ++ b.name
    | none => ""
  let result ← match type with
    | .func _ result => result.text
    | _ => pure "?"
  return name ++ "(" ++ ", ".intercalate (← columnTexts parameters) ++ ") -> " ++ result

namespace Value

mutual

def text : Value → Except Fault String
  | int _ n => intText n
  | bool _ b => return boolText b
  | char _ s => return s
  | string _ s => return s
  | none _ => return "none"
  | list _ elements => do listText (← texts elements)
  | tuple _ elements => do tupleText (← texts elements)
  | dict _ entries => do listText (← entryTexts entries)
  | schema _ columns => schemaText columns
  | table _ _ columns rows => do
    let types ← columns.mapM fun c => c.2.text
    Grid.text { types, names := columns.map (·.1), rows := ← rowTexts rows }
  | func type builtin parameters => funcText type builtin parameters
  | entry _ _ => throw (.entry .text)

def texts : List Value → Except Fault (List String)
  | [] => return []
  | v :: vs => do
    let first ← text v
    return first :: (← texts vs)

def entryTexts : List (Value × Value) → Except Fault (List String)
  | [] => return []
  | (k, v) :: rest => do
    let key ← text k
    let value ← text v
    return entryText key value :: (← entryTexts rest)

/-- The texts of the cells of rows. What is no tuple is an empty row. -/
def rowTexts : List Value → Except Fault (List (List String))
  | [] => return []
  | tuple _ cells :: rows => do
    let first ← texts cells
    return first :: (← rowTexts rows)
  | _ :: rows => do return [] :: (← rowTexts rows)

end

end Value

end TableScript
