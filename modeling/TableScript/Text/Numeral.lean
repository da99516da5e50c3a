import TableScript.Text.Blank
import TableScript.Text.Numeric
import TableScript.Text.Quote

/-!
Numerals: whole numbers as they are typed. Blanks may stand around the numeral, a sign before it,
and a single underscore between two digits; the digits may be those of any script. A numeral has at
most `digitLimit` digits, leading zeros included, whether it is read or written.

* `readNumeral` is the number that a text stands for;
* `numeralOf?` is the text of a number.
-/

namespace TableScript.Text

/-- A blank that may stand around a numeral: white space without the information separators. -/
def isNumeralBlank (c : Char) : Bool :=
  isBlank c && !(28 ≤ c.toNat && c.toNat ≤ 31)

/-- Reads the digits that follow one with the value so far `acc`. -/
def readDigits (acc : Nat) : List Char → Option Nat
  | [] => some acc
  | '_' :: c :: rest => (digitValue? c).bind fun d => readDigits (acc * 10 + d) rest
  | c :: rest => (digitValue? c).bind fun d => readDigits (acc * 10 + d) rest

def unsigned? : List Char → Option Nat
  | [] => none
  | c :: rest => (digitValue? c).bind fun d => readDigits d rest

/-- The most digits of a numeral. -/
def digitLimit : Nat := 4300

inductive NumeralProblem where
  | malformed
  | tooLong (digits : Nat)
  deriving DecidableEq, Inhabited, Repr

/-- The number written by the digits that a text starts with. Their number is looked at before what
follows them, and nothing may follow them. -/
def readUnsigned (cs : List Char) : Except NumeralProblem Nat :=
  let run := cs.takeWhile fun c => c == '_' || (digitValue? c).isSome
  match unsigned? run with
  | none => .error .malformed
  | some n =>
    let digits := run.countP (· != '_')
    if digitLimit < digits then .error (.tooLong digits)
    else if run.length < cs.length then .error .malformed
    else .ok n

def readNumeral (s : String) : Except NumeralProblem Int :=
  let cs := ((s.toList.dropWhile isNumeralBlank).reverse.dropWhile isNumeralBlank).reverse
  match cs with
  | '-' :: rest => (readUnsigned rest).map fun n => -(n : Int)
  | '+' :: rest => (readUnsigned rest).map fun n => (n : Int)
  | rest => (readUnsigned rest).map fun n => (n : Int)

/-- The numeral of a number, if it is not too long. -/
def numeralOf? (n : Int) : Option String :=
  if digitLimit < (toString n.natAbs).length then none else some (toString n)

/-- The start of the message about a numeral with too many digits. -/
def tooLongMessage : String :=
  "Exceeds the limit (" ++ toString digitLimit ++ " digits) for integer string conversion"

/-- The advice in the message about a numeral with too many digits. -/
def tooLongAdvice : String :=
  "; use sys.set_int_max_str_digits() to increase the limit"

/-- The problem with a text in words. Of a long text the first 200 characters are shown, the
quotation mark before it included. -/
def NumeralProblem.message (text : String) : NumeralProblem → String
  | malformed =>
    "invalid literal for int() with base 10: " ++ String.ofList ((quote text).toList.take 200)
  | tooLong digits =>
    tooLongMessage ++ ": value has " ++ toString digits ++ " digits" ++ tooLongAdvice

end TableScript.Text
