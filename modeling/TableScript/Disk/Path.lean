/-!
Paths. A path is a root, or none, and the names on the way. Empty names and single dots mean
nothing and are left out when a path is read; two dots stay, because what they mean hangs on the
directories on the way.
-/

namespace TableScript

structure Path where
  /-- Slashes that an absolute path starts with. -/
  root : String := ""
  parts : List String := []
  deriving DecidableEq, Inhabited, Repr

/-- The pieces of a text between slashes. -/
def slashPieces (current : List Char) : List Char → List String
  | [] => [String.ofList current.reverse]
  | c :: rest =>
    if c == '/' then String.ofList current.reverse :: slashPieces [] rest
    else slashPieces (c :: current) rest

namespace Path

/-- The root that a text starts with: two slashes are another root than one, and more are one. -/
def rootOf : List Char → String
  | '/' :: '/' :: '/' :: _ => "/"
  | '/' :: '/' :: _ => "//"
  | '/' :: _ => "/"
  | _ => ""

def ofString (s : String) : Path :=
  { root := rootOf s.toList
    parts := (slashPieces [] s.toList).filter fun p => p != "" && p != "." }

def text (p : Path) : String :=
  if p.root == "" && p.parts.isEmpty then "." else p.root ++ "/".intercalate p.parts

def name (p : Path) : String :=
  p.parts.getLast?.getD ""

def isAbsolute (p : Path) : Bool :=
  p.root != ""

/-- The path `q` seen from the directory `p`. -/
def join (p q : Path) : Path :=
  if q.isAbsolute then q else { p with parts := p.parts ++ q.parts }

end Path

end TableScript
