import TableScript.Query.Eval
import TableScript.Text.Quote

/-!
Faults: the ways in which reading or running a program breaks down, apart from the errors that it
reports itself. A fault ends the phase in which it arises.
-/

namespace TableScript

/-- What is asked of a thing. -/
inductive Part where
  | tokenKind | position | place | type | text | content
  deriving DecidableEq, Inhabited, Repr

def Part.name : Part → String
  | tokenKind => "token_type"
  | position => "file_position"
  | place => "token"
  | type => "petl_type"
  | text => "to_string"
  | content => "value"

inductive PathProblem where
  | notFound | isDirectory | notDirectory | nameTooLong
  /-- A name with a null character, which no file can have. -/
  | nullCharacter
  deriving DecidableEq, Inhabited, Repr

namespace PathProblem

def number : PathProblem → Nat
  | notFound => 2
  | isDirectory => 21
  | notDirectory => 20
  | nameTooLong => 36
  | nullCharacter => 0

def description : PathProblem → String
  | notFound => "No such file or directory"
  | isDirectory => "Is a directory"
  | notDirectory => "Not a directory"
  | nameTooLong => "File name too long"
  | nullCharacter => "embedded null byte"

end PathProblem

/-- The ways in which a phase breaks down. -/
inductive Fault where
  /-- A part of something that is not there. -/
  | missing (part : Part)
  /-- A part of an entry of a dictionary, which is no value. -/
  | entry (part : Part)
  /-- The content of a value that has none. -/
  | noContent
  /-- The result of a function whose type has become that of something else. -/
  | noResult
  /-- An error in a pattern, which has no place in the program. -/
  | placeless
  /-- The elements of an empty collection joined to a text. -/
  | emptyJoin
  /-- The text of the type of a `let` that nothing follows. -/
  | danglingType
  /-- Elements of a list or of a dictionary whose types do not go together. -/
  | mixedElements
  /-- Values in which there is no order. -/
  | unordered
  | outOfRange
  | tooLarge
  /-- A list with more elements than there is room for. -/
  | outOfMemory
  | moduloByZero
  | quotientTooLarge
  | notNumeral (text : String) (problem : Text.NumeralProblem)
  | noNumeral
  /-- A random number between bounds that hold none. -/
  | emptyRange
  | endOfInput
  | badEscape
  /-- A query that cannot be put to a row. -/
  | query (e : Query.Error)
  | path (problem : PathProblem) (text : String)
  | fieldTooLarge
  /-- A sequence that grows as long as it is gone through. -/
  | endless
  /-- A rule of the grammar that reads nothing and does not end. -/
  | stalled
  /-- The nesting is deeper than the levels that were set aside for it. -/
  | tooDeep
  | noSession
  | notListed
  /-- The key of a session, which is a text, decoded as if it were bytes. -/
  | decodedKey
  deriving DecidableEq, Repr

namespace Fault

/-- Does it end a run? What goes on for ever can be neither caught nor reported. -/
def ends : Fault → Bool
  | endless | stalled => false
  | _ => true

def message : Fault → String
  | missing part => "'NoneType' object has no attribute '" ++ part.name ++ "'"
  | entry part => "'tuple' object has no attribute '" ++ part.name ++ "'"
  | noContent => "a value without content of its own"
  | noResult => "a function without the type of one"
  | placeless => "an error without a place"
  | emptyJoin => "reduce() of empty iterable with no initial value"
  | danglingType => "NoneType.to_string() missing 1 required positional argument: 'self'"
  | mixedElements => "elements of different types"
  | unordered => "values without an order"
  | outOfRange => "list index out of range"
  | tooLarge => "number too large for a position"
  | outOfMemory => "out of memory"
  | moduloByZero => "integer modulo by zero"
  | quotientTooLarge => "integer division result too large for a float"
  | notNumeral text problem => problem.message text
  | noNumeral => Text.tooLongMessage ++ Text.tooLongAdvice
  | emptyRange => "empty range for a random number"
  | endOfInput => "end of the input"
  | badEscape => "malformed escape"
  | query (.parse (.expectedLiteral true)) => "('Expected literal value', None)"
  | query e => e.message
  | path .nullCharacter _ => PathProblem.nullCharacter.description
  | path problem p =>
    "[Errno " ++ toString problem.number ++ "] " ++ problem.description ++ ": " ++ Text.quote p
  | fieldTooLarge => "field larger than field limit (131072)"
  | endless => "a sequence without end"
  | stalled => "tokens without end"
  | tooDeep => "nesting too deep"
  | noSession => "the JSON object must be str, bytes or bytearray, not NoneType"
  | notListed => "list.remove(x): x not in list"
  | decodedKey => "a key that is a text already"

end Fault

end TableScript
