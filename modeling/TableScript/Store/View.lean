import TableScript.Store.Basic
import TableScript.Value.Basic

/-!
The values behind references: what a program sees of the store.
-/

namespace TableScript.Store

/-- The plain type behind a handle, to a depth of lists within lists. -/
def plainTypeTo (s : Store) (depth : Nat) (t : TypeRef) : Ty :=
  (s.types.readTo depth t).plain

def plainType (s : Store) (t : TypeRef) : Ty :=
  (s.types.read t).plain

/-- The value of an object, if `type` are the types behind handles and `value` the values of the
references in it. -/
def valueWith (s : Store) (type : TypeRef → Ty) (value : Ref → Value) (o : Object) : Value :=
  let columns := List.map fun c : String × TypeRef => (c.1, type c.2)
  match o.content with
  | .int n => .int (type o.type) n
  | .bool b => .bool (type o.type) b
  | .char c => .char (type o.type) c
  | .string t => .string (type o.type) t
  | .none => .none (type o.type)
  | .list place => .list (type o.type) ((s.sequence place).map value)
  | .tuple place => .tuple (type o.type) ((s.sequence place).map value)
  | .dict entries => .dict (type o.type) (entries.map fun e => (value e.1, value e.2))
  | .schema place => .schema (type o.type) (columns (s.columnList place))
  | .table schema rows =>
    .table (type o.type) (type (s.object schema).type) (columns (s.columnsOf schema))
      ((s.sequence rows).map value)
  | .func c => .func (type o.type) c.builtin (columns c.parameters)
  | .entry k v => .entry (value k) (value v)

/-- The value of a reference, to a depth of lists of types within lists, and to a depth of objects
within objects. -/
def valueTo (s : Store) (typeDepth : Nat) : Nat → Ref → Value
  | 0, _ => .none .absent
  | depth + 1, r => s.valueWith (s.plainTypeTo typeDepth) (s.valueTo typeDepth depth) (s.object r)

/-- The value of a reference. No object can lie deeper than there are objects, and no list of types
deeper than there are lists. -/
def value (s : Store) (r : Ref) : Value :=
  s.valueTo (s.types.lists.size + 1) (s.objects.size + 1) r

def values (s : Store) (place : Nat) : List Value :=
  (s.sequence place).map s.value

end TableScript.Store
