/-!
Types of queries and their conformance. A query knows the types of single cells and of ranges;
`unknown` stands where nothing is expected.
-/

namespace TableScript.Query

inductive Ty where
  | unknown | literal | int | bool | char | string | range
  deriving DecidableEq, Inhabited, Repr

namespace Ty

def text : Ty → String
  | unknown => "unknown"
  | literal => "literal"
  | int => "int"
  | bool => "bool"
  | char => "char"
  | string => "string"
  | range => "range"

/-- The type that a value of type `found` has where `expected` is expected: the known one of the
two, or both if they agree. -/
def conform? (found expected : Ty) : Option Ty :=
  match found, expected with
  | unknown, unknown => none
  | t, unknown => some t
  | unknown, t => some t
  | t, u => if t = u then some t else none

end Ty

end TableScript.Query
