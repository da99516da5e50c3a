import TableScript.Disk.Path
import TableScript.Fault

/-!
A disk: directories and files by their names on the way from the root, and the directory from
which relative paths start.

Every operation first follows the path: each name on the way has to be a directory. It then fails
with a fault that names the path as it was given, or changes at most the place that the path leads
to.
-/

namespace TableScript

inductive Node where
  | directory
  | file (text : String)
  deriving DecidableEq, Inhabited, Repr

/-- The names on the way from the root. -/
abbrev Location := List String

structure Disk where
  /-- Where relative paths start. -/
  home : Location := []
  nodes : List (Location × Node) := []
  deriving Inhabited, Repr

namespace Disk

/-- What is at a place. The root is always a directory. -/
def node? (d : Disk) (place : Location) : Option Node :=
  if place.isEmpty then some .directory else d.nodes.lookup place

def set (d : Disk) (place : Location) (n : Node) : Disk :=
  if d.nodes.any (·.1 == place) then
    { d with nodes := d.nodes.map fun e => if e.1 == place then (place, n) else e }
  else { d with nodes := d.nodes ++ [(place, n)] }

/-- Takes away what is at the places that `gone` names. -/
def remove (d : Disk) (gone : Location → Bool) : Disk :=
  { d with nodes := d.nodes.filter fun e => !gone e.1 }

/-- The longest name, in bytes. -/
def nameLimit : Nat := 255

def follow (d : Disk) (place : Location) : List String → Except PathProblem Location
  | [] => .ok place
  | name :: rest =>
    match d.node? place with
    | none => .error .notFound
    | some (.file _) => .error .notDirectory
    | some .directory =>
      if nameLimit < name.utf8ByteSize then .error .nameTooLong
      else if name == ".." then d.follow place.dropLast rest
      else d.follow (place ++ [name]) rest

def start (d : Disk) (p : Path) : Except PathProblem Location :=
  if p.parts.any fun name => name.toList.contains '\x00' then .error .nullCharacter
  else .ok (if p.isAbsolute then [] else d.home)

/-- The place that a path leads to, whether something is there or not. -/
def locate (d : Disk) (p : Path) : Except PathProblem Location := do
  d.follow (← d.start p) p.parts

def find? (d : Disk) (p : Path) : Option Node :=
  match d.locate p with
  | .ok place => d.node? place
  | .error _ => none

def holds (d : Disk) (p : Path) : Bool :=
  (d.find? p).isSome

/-- Does a path lead to something? With a name beyond the limit there is no answer. -/
def probe (d : Disk) (p : Path) : Except Fault Bool :=
  match d.locate p with
  | .ok place => .ok (d.node? place).isSome
  | .error .nameTooLong => .error (.path .nameTooLong p.text)
  | .error _ => .ok false

def isDirectory (d : Disk) (p : Path) : Bool :=
  d.find? p == some .directory

def read (d : Disk) (p : Path) : Except Fault String :=
  match d.locate p with
  | .error e => .error (.path e p.text)
  | .ok place =>
    match d.node? place with
    | none => .error (.path .notFound p.text)
    | some .directory => .error (.path .isDirectory p.text)
    | some (.file text) => .ok text

def write (d : Disk) (p : Path) (text : String) : Except Fault Disk :=
  match d.locate p with
  | .error e => .error (.path e p.text)
  | .ok place =>
    if d.node? place = some .directory then .error (.path .isDirectory p.text)
    else .ok (d.set place (.file text))

def removeFile (d : Disk) (p : Path) : Except Fault Disk :=
  match d.locate p with
  | .error e => .error (.path e p.text)
  | .ok place =>
    match d.node? place with
    | none => .error (.path .notFound p.text)
    | some .directory => .error (.path .isDirectory p.text)
    | some (.file _) => .ok (d.remove (· == place))

/-- Makes the directories on the way along `names`, from a place. -/
def makeAlong (d : Disk) (place : Location) : List String → Except PathProblem Disk
  | [] => .ok d
  | name :: rest =>
    if nameLimit < name.utf8ByteSize then .error .nameTooLong
    else
      let next := if name == ".." then place.dropLast else place ++ [name]
      match d.node? next with
      | some .directory => d.makeAlong next rest
      | some (.file _) => .error .notDirectory
      | none => (d.set next .directory).makeAlong next rest

/-- Makes a directory and those on the way to it. -/
def makeDirectory (d : Disk) (p : Path) : Except Fault Disk :=
  match d.start p with
  | .error e => .error (.path e p.text)
  | .ok place => (d.makeAlong place p.parts).mapError (.path · p.text)

/-- Removes a directory with everything in it. -/
def removeDirectory (d : Disk) (p : Path) : Disk :=
  match d.locate p with
  | .ok place => if d.node? place = some .directory then d.remove (place.isPrefixOf ·) else d
  | .error _ => d

def list (d : Disk) (p : Path) : Except Fault (List String) :=
  match d.locate p with
  | .error e => .error (.path e p.text)
  | .ok place =>
    match d.node? place with
    | none => .error (.path .notFound p.text)
    | some (.file _) => .error (.path .notDirectory p.text)
    | some .directory =>
      .ok (d.nodes.filterMap fun e =>
        if e.1.length = place.length + 1 ∧ place.isPrefixOf e.1 then e.1.getLast? else none)

/-- The files below the directory from which relative paths start, with their relative paths. -/
def files (d : Disk) : List (String × String) :=
  d.nodes.filterMap fun e =>
    match e.2 with
    | .directory => none
    | .file text =>
      if d.home.isPrefixOf e.1 then some ("/".intercalate (e.1.drop d.home.length), text) else none

def homePath (d : Disk) : Path :=
  { root := "/", parts := d.home }

def empty (home : Location) : Disk :=
  (makeAlong { home } [] home).toOption.getD { home }

end Disk

end TableScript
