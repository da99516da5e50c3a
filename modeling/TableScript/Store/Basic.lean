import TableScript.Expr
import TableScript.Scope

/-!
The store: the objects that a running program holds.

Lists, rows and schemas are shared and edited in place, so a value of a running program is a
reference to an object, and the elements of a collection lie in a sequence of their own that other
objects may share. The types of objects are handles into a store of types.
-/

namespace TableScript

structure Ref where
  index : Nat
  deriving DecidableEq, Inhabited, Repr

/-- A function of a running program: its parameters, its body, and the scope in which it was made.
A built-in function has no body. -/
structure Closure where
  builtin : Option Builtin
  parameters : List (String × TypeRef)
  body : Expr
  scope : Scope Ref TypeRef
  deriving Inhabited

inductive Content where
  | int (n : Int)
  | bool (b : Bool)
  | char (s : String)
  | string (s : String)
  | none
  /-- The elements are the sequence at this place. -/
  | list (elements : Nat)
  | tuple (elements : Nat)
  | dict (entries : List (Ref × Ref))
  /-- The columns are the column list at this place. -/
  | schema (columns : Nat)
  /-- The rows are the sequence at this place. -/
  | table (schema : Ref) (rows : Nat)
  | func (closure : Closure)
  /-- An entry of a dictionary by itself. -/
  | entry (key value : Ref)
  deriving Inhabited

/-- An object with its type. The type of an entry counts for nothing. -/
structure Object where
  type : TypeRef
  content : Content
  deriving Inhabited

/-- The objects, sequences, column lists and types of a running program. -/
structure Store where
  types : TypeStore := {}
  objects : Array Object := #[]
  sequences : Array (Array Ref) := #[]
  columns : Array (List (String × TypeRef)) := #[]
  deriving Inhabited

namespace Store

def object (s : Store) (r : Ref) : Object :=
  s.objects.getD r.index ⟨.absent, .none⟩

def content (s : Store) (r : Ref) : Content :=
  (s.object r).content

def sequence (s : Store) (place : Nat) : List Ref :=
  (s.sequences.getD place #[]).toList

def element? (s : Store) (place index : Nat) : Option Ref :=
  (s.sequences.getD place #[])[index]?

def columnList (s : Store) (place : Nat) : List (String × TypeRef) :=
  s.columns.getD place []

def columnsOf (s : Store) (schema : Ref) : List (String × TypeRef) :=
  match s.content schema with
  | .schema place => s.columnList place
  | _ => []

/-! ## Additions -/

def add (s : Store) (o : Object) : Ref × Store :=
  (⟨s.objects.size⟩, { s with objects := s.objects.push o })

def addSequence (s : Store) (refs : List Ref) : Nat × Store :=
  (s.sequences.size, { s with sequences := s.sequences.push refs.toArray })

def addColumns (s : Store) (columns : List (String × TypeRef)) : Nat × Store :=
  (s.columns.size, { s with columns := s.columns.push columns })

/-! ## Changes -/

def retype (s : Store) (r : Ref) (t : TypeRef) : Store :=
  { s with objects := s.objects.modify r.index fun o => { o with type := t } }

def appendElement (s : Store) (place : Nat) (r : Ref) : Store :=
  { s with sequences := s.sequences.modify place (·.push r) }

def eraseElement (s : Store) (place index : Nat) : Store :=
  { s with sequences := s.sequences.modify place (·.eraseIdxIfInBounds index) }

def appendColumn (s : Store) (place : Nat) (column : String × TypeRef) : Store :=
  { s with columns := s.columns.modify place (· ++ [column]) }

def eraseColumn (s : Store) (place index : Nat) : Store :=
  { s with columns := s.columns.modify place (·.eraseIdx index) }

def mapTypes (s : Store) (f : TypeStore → TypeStore) : Store :=
  { s with types := f s.types }

end Store

end TableScript
