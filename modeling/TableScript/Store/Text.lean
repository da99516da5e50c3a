import TableScript.Store.View
import TableScript.Value.Text

/-!
The text of the value behind a reference, part by part in the order in which it is written. A table
can be put into a row of its own, and a list of types can be put into itself; such a thing has no
end and no text, but a part that is written before it can have a fault of its own.

* `Store.text`: the text of a value. For a value that ends it is the text of its tree.
-/

namespace TableScript.Store

/-- The type behind a handle, if it ends. -/
def endingType (s : Store) (t : TypeRef) : Except Fault Ty :=
  if s.types.ends t then .ok (s.plainType t) else .error .tooDeep

/-- Names with types that end. -/
def endingColumns (s : Store) (columns : List (String × TypeRef)) :
    Except Fault (List (String × Ty)) :=
  columns.mapM fun c => do return (c.1, ← s.endingType c.2)

/-- The text of a table, if `text` are the texts of its cells. -/
def tableText (s : Store) (text : Ref → Except Fault String) (schema : Ref) (rows : Nat) :
    Except Fault String := do
  let columns ← s.endingColumns (s.columnsOf schema)
  let types ← columns.mapM fun c => c.2.text
  let cells ← (s.sequence rows).mapM fun row =>
    match s.content row with
    | .tuple place => (s.sequence place).mapM text
    | _ => .ok []
  Grid.text { types, names := columns.map (·.1), rows := cells }

/-- The text of an object, if `text` are the texts of the references in it. -/
def textWith (s : Store) (text : Ref → Except Fault String) (o : Object) : Except Fault String :=
  match o.content with
  | .int n => intText n
  | .bool b => .ok (boolText b)
  | .char c => .ok c
  | .string t => .ok t
  | .none => .ok "none"
  | .list place => do listText (← (s.sequence place).mapM text)
  | .tuple place => do tupleText (← (s.sequence place).mapM text)
  | .dict entries => do
    listText (← entries.mapM fun e => do return entryText (← text e.1) (← text e.2))
  | .schema place => do schemaText (← s.endingColumns (s.columnList place))
  | .table schema rows => s.tableText text schema rows
  | .func c => do
    funcText (← s.endingType o.type) c.builtin (← s.endingColumns c.parameters)
  | .entry _ _ => .error (.entry .text)

/-- The text of the value of a reference, to a depth of objects within objects. -/
def textTo (s : Store) : Nat → Ref → Except Fault String
  | 0, _ => .error .tooDeep
  | depth + 1, r => s.textWith (s.textTo depth) (s.object r)

/-- The text of the value of a reference. An object that lies within itself lies deeper than there
are objects. -/
def text (s : Store) (r : Ref) : Except Fault String :=
  s.textTo (s.objects.size + 1) r

end TableScript.Store
