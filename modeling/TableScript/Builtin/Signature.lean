import TableScript.Token.Builtin
import TableScript.Type.Store

/-!
Signatures of the built-in functions: the names and types of their parameters and the type of their
result. The types of all signatures lie in one store, with which every program starts.
-/

namespace TableScript

namespace Builtin

def anyList : Ty := .list .any

def rowList : Ty := .list (.tuple () [])

def anyTable : Ty := .table () []

def parameters : Builtin → List (String × Ty)
  | readln => []
  | print => [("value", .any)]
  | println => [("value", .any)]
  | map => [("iterable", .iterable), ("function_value", .func [.any] .any)]
  | filter => [("iterable", .iterable), ("function_value", .func [.any] .bool)]
  | foldl | foldr =>
    [("iterable", anyList), ("initial_value", .any), ("fold_function", .func [.any, .any] .any)]
  | zip => [("iterable1", .iterable), ("iterable2", .iterable)]
  | len => [("iterable", .iterable)]
  | isEmpty => [("iterable", .iterable)]
  | insert => [("list", anyList), ("value", .any), ("index", .int)]
  | remove => [("list", anyList), ("index", .int)]
  | replace => [("list", anyList), ("index", .int), ("new_value", .any)]
  | front | back | head | tail => [("list", anyList)]
  | slice => [("list", anyList), ("start", .int), ("end", .int)]
  | contains | find => [("list", anyList), ("value", .any)]
  | fill => [("count", .int), ("value", .any)]
  | reverse => [("list", anyList)]
  | set | intersect => [("list1", anyList), ("list2", anyList)]
  | substr => [("string_value", .string), ("start", .int), ("end", .int)]
  | toStr => [("v", .any)]
  | joinStr => [("v", anyList), ("joiner", .string)]
  | toUpper | toLower => [("s", .string)]
  | startsWith | endsWith => [("s1", .string), ("s2", .string)]
  | toInt => [("s", .string)]
  | sum | product | max | min | sort => [("list", .list .int)]
  | createTable => [("schema", .schema () []), ("rows", rowList)]
  | column => [("list", anyList), ("name", .string)]
  | readCsv => [("schema", .schema () []), ("path", .string), ("header", .bool)]
  | writeCsv => [("table", anyTable), ("path", .string), ("header", .bool)]
  | join =>
    [("left_table", anyTable), ("right_table", anyTable), ("columns", .list .string),
     ("where", .string)]
  | .with => [("table", anyTable), ("name", .string), ("values", anyList)]
  | append => [("table", anyTable), ("rows", rowList)]
  | select => [("table", anyTable), ("columns", .list .string), ("where", .string)]
  | drop => [("table", anyTable), ("column", .string)]
  | getColumns => [("table", anyTable), ("names", .list .string)]
  | getColumn => [("table", anyTable), ("name", .string)]
  | collect | count => [("table", anyTable)]
  | type => [("value", .any)]
  | rand => [("lower", .int), ("upper", .int)]

def result : Builtin → Ty
  | readln => .string
  | print | println => .none
  | map | filter => anyList
  | foldl | foldr => .any
  | zip => .list (.tuple () [.any, .any])
  | len | isEmpty => .int
  | insert | remove | replace => anyList
  | front | back | head | tail => .any
  | slice => anyList
  | contains => .bool
  | find => .int
  | fill | reverse | set | intersect => anyList
  | substr | toStr | joinStr | toUpper | toLower => .string
  | startsWith | endsWith => .bool
  | toInt | sum | product | max | min | sort => .int
  | createTable | column | readCsv => anyTable
  | writeCsv => .bool
  | join | .with | append | select | drop | getColumns => anyTable
  | getColumn | collect => rowList
  | count => .int
  | type => .string
  | rand => .int

end Builtin

/-- A signature whose types are handles. -/
structure Signature where
  parameters : List (String × TypeRef)
  result : TypeRef
  deriving Inhabited, Repr

def Signature.type (s : Signature) : TypeRef :=
  .func (s.parameters.map (·.2)) s.result

/-- The signatures of the built-in functions, and the store of their types. -/
structure Library where
  signatures : List (Builtin × Signature) := []
  types : TypeStore := {}

namespace Library

def add (l : Library) (b : Builtin) : Library :=
  let (ps, types) := l.types.internAll (b.parameters.map fun p => p.2.mapMarks fun _ => none)
  let (r, types) := types.internPlain b.result
  { signatures := l.signatures ++ [(b, ⟨(b.parameters.map (·.1)).zip ps, r⟩)], types }

def full : Library :=
  Builtin.all.foldl add {}

end Library

def Builtin.signature (b : Builtin) : Signature :=
  (Library.full.signatures.lookup b).getD default

end TableScript
