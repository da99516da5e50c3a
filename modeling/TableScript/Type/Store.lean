import TableScript.Type.Shape

/-!
Types whose member lists can change. The columns of a table and the members of a tuple are edited
in place, so a type that a program holds is a handle, and the lists of members lie in a store. The
members of a tuple can also be exchanged for another list as a whole, so a tuple holds a cell that
names its list.

* `TypeRef`: the handle of a type;
* `TypeStore.read`: the type behind a handle, each list marked with its place;
* `TypeStore.ends`: no list behind a handle lies within itself;
* `TypeStore.intern`: a handle for a type, which keeps the places of marked lists.
-/

namespace TableScript

inductive TypeRef where
  | any | unknown | literal | iterable | int | bool | char | none | string
  | list (element : TypeRef)
  | dict (key value : TypeRef)
  /-- The members are the list at this place. -/
  | union (members : Nat)
  /-- The members are the list that this cell names. -/
  | tuple (cell : Nat)
  /-- The columns are the list at this place. -/
  | schema (columns : Nat)
  /-- The columns are the list at this place. -/
  | table (columns : Nat)
  | func (parameters : List TypeRef) (result : TypeRef)
  | absent
  | dangling
  deriving Inhabited, Repr

/-- The lists of members. -/
structure TypeStore where
  lists : Array (List TypeRef) := #[]
  /-- The place of the list of each tuple type. -/
  cells : Array Nat := #[]
  deriving Inhabited, Repr

/-- Types that know where their lists of members lie. -/
abbrev PlacedType := Shape (Option Nat)

namespace TypeStore

def list (s : TypeStore) (place : Nat) : List TypeRef :=
  s.lists.getD place []

def cell (s : TypeStore) (c : Nat) : Nat :=
  s.cells.getD c 0

def tupleMembers (s : TypeStore) (c : Nat) : List TypeRef :=
  s.list (s.cell c)

mutual

/-- The type behind a handle, if `members` are the lists of members at the places. -/
def readWith (s : TypeStore) (members : Nat → List PlacedType) : TypeRef → PlacedType
  | .any => .any
  | .unknown => .unknown
  | .literal => .literal
  | .iterable => .iterable
  | .int => .int
  | .bool => .bool
  | .char => .char
  | .none => .none
  | .string => .string
  | .list a => .list (s.readWith members a)
  | .dict a b => .dict (s.readWith members a) (s.readWith members b)
  | .union place => .union (some place) (members place)
  | .tuple c => .tuple (some c) (members (s.cell c))
  | .schema place => .schema (some place) (members place)
  | .table place => .table (some place) (members place)
  | .func as a => .func (s.readAllWith members as) (s.readWith members a)
  | .absent => .absent
  | .dangling => .dangling

def readAllWith (s : TypeStore) (members : Nat → List PlacedType) : List TypeRef →
    List PlacedType
  | [] => []
  | a :: as => s.readWith members a :: s.readAllWith members as

end

/-- The types in the list at a place, to a depth of lists within lists. -/
def membersTo (s : TypeStore) : Nat → Nat → List PlacedType
  | 0, _ => []
  | depth + 1, place => s.readAllWith (s.membersTo depth) (s.list place)

/-- The type behind a handle, to a depth of lists within lists. -/
def readTo (s : TypeStore) (depth : Nat) (t : TypeRef) : PlacedType :=
  s.readWith (s.membersTo depth) t

/-- The type behind a handle. No list can lie deeper than there are lists. -/
def read (s : TypeStore) (t : TypeRef) : PlacedType :=
  s.readTo (s.lists.size + 1) t

mutual

/-- Does the type behind a handle end, if `ends` says which lists of members do? -/
def endsWith (s : TypeStore) (ends : Nat → Bool) : TypeRef → Bool
  | .list a => s.endsWith ends a
  | .dict a b => s.endsWith ends a && s.endsWith ends b
  | .union place => ends place
  | .tuple c => decide (c < s.cells.size) && ends (s.cell c)
  | .schema place => ends place
  | .table place => ends place
  | .func as a => s.allEndWith ends as && s.endsWith ends a
  | _ => true

def allEndWith (s : TypeStore) (ends : Nat → Bool) : List TypeRef → Bool
  | [] => true
  | a :: as => s.endsWith ends a && s.allEndWith ends as

end

/-- Is there a list at a place, and do the types in it end within a depth of lists within lists? -/
def membersEnd (s : TypeStore) : Nat → Nat → Bool
  | 0, _ => false
  | depth + 1, place =>
    decide (place < s.lists.size) && s.allEndWith (s.membersEnd depth) (s.list place)

/-- Does the type behind a handle end within a depth of lists within lists? -/
def endsBy (s : TypeStore) (depth : Nat) (t : TypeRef) : Bool :=
  s.endsWith (s.membersEnd depth) t

/-- Does the type behind a handle end? A list of members to which its own type was added lies within
itself, and so deeper than there are lists. -/
def ends (s : TypeStore) (t : TypeRef) : Bool :=
  s.endsBy (s.lists.size + 1) t

def addList (s : TypeStore) (members : List TypeRef) : Nat × TypeStore :=
  (s.lists.size, { s with lists := s.lists.push members })

/-- A new tuple type whose members are the list at a place. -/
def addCell (s : TypeStore) (place : Nat) : TypeRef × TypeStore :=
  (.tuple s.cells.size, { s with cells := s.cells.push place })

def addTuple (s : TypeStore) (members : List TypeRef) : TypeRef × TypeStore :=
  let (place, s) := s.addList members
  s.addCell place

mutual

/-- A handle for a type. Marked lists stay where they are; other lists are added. -/
def intern (s : TypeStore) : PlacedType → TypeRef × TypeStore
  | .any => (.any, s)
  | .unknown => (.unknown, s)
  | .literal => (.literal, s)
  | .iterable => (.iterable, s)
  | .int => (.int, s)
  | .bool => (.bool, s)
  | .char => (.char, s)
  | .none => (.none, s)
  | .string => (.string, s)
  | .list a =>
    let (r, s) := s.intern a
    (.list r, s)
  | .dict a b =>
    let (k, s) := s.intern a
    let (v, s) := s.intern b
    (.dict k v, s)
  | .union (some place) _ => (.union place, s)
  | .union none as =>
    let (rs, s) := s.internAll as
    let (place, s) := s.addList rs
    (.union place, s)
  | .tuple (some c) _ => (.tuple c, s)
  | .tuple none as =>
    let (rs, s) := s.internAll as
    s.addTuple rs
  | .schema (some place) _ => (.schema place, s)
  | .schema none as =>
    let (rs, s) := s.internAll as
    let (place, s) := s.addList rs
    (.schema place, s)
  | .table (some place) _ => (.table place, s)
  | .table none as =>
    let (rs, s) := s.internAll as
    let (place, s) := s.addList rs
    (.table place, s)
  | .func as a =>
    let (rs, s) := s.internAll as
    let (r, s) := s.intern a
    (.func rs r, s)
  | .absent => (.absent, s)
  | .dangling => (.dangling, s)

def internAll (s : TypeStore) : List PlacedType → List TypeRef × TypeStore
  | [] => ([], s)
  | a :: as =>
    let (r, s) := s.intern a
    let (rs, s) := s.internAll as
    (r :: rs, s)

end

def internPlain (s : TypeStore) (t : Ty) : TypeRef × TypeStore :=
  s.intern (t.mapMarks fun _ => none)

def appendMember (s : TypeStore) (place : Nat) (t : TypeRef) : TypeStore :=
  { s with lists := s.lists.modify place (· ++ [t]) }

def eraseMember (s : TypeStore) (place index : Nat) : TypeStore :=
  { s with lists := s.lists.modify place (·.eraseIdx index) }

/-- Makes the cell of a tuple type name the list at a place. -/
def retarget (s : TypeStore) (c place : Nat) : TypeStore :=
  { s with cells := s.cells.modify c fun _ => place }

end TypeStore

end TableScript
