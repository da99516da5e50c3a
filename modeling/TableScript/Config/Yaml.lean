import TableScript.Text.Edit
import TableScript.Text.Hex
import TableScript.Text.Numeral

/-!
The part of YAML that configurations are written in: mappings nested by indentation, whose values
are plain texts and whole numbers.

`Yaml.parse` reads a text. A line is a key and a colon, with its value behind them or its entries in
the lines below, which stand further to the right. Comments and empty lines mean nothing.

A number is decimal, binary after `0b`, octal after `0`, hexadecimal after `0x`, or counts in
sixties with colons between its parts. Underscores among its digits mean nothing.
-/

namespace TableScript

/-- What a configuration says. -/
inductive Yaml where
  | null
  | int (n : Int)
  | text (s : String)
  | mapping (entries : List (String × Yaml))
  deriving Inhabited, Repr

namespace Yaml

/-- Is it a blank inside of a line? -/
def isGap (c : Char) : Bool :=
  c == ' ' || c == '\t' || c == '\r'

def trim (cs : List Char) : List Char :=
  ((cs.dropWhile isGap).reverse.dropWhile isGap).reverse

/-- The line without a comment. A comment starts at the start of the line or after a blank. -/
def withoutComment : List Char → List Char
  | [] => []
  | ' ' :: '#' :: _ => []
  | c :: rest => c :: withoutComment rest

/-- The key and the value of a line. A colon inside of a word divides nothing. -/
def splitKey : List Char → Option (List Char × List Char)
  | [] => none
  | [':'] => some ([], [])
  | ':' :: ' ' :: value => some ([], value)
  | c :: rest => (splitKey rest).map fun (key, value) => (c :: key, value)

/-! ## Numbers -/

inductive NumberProblem where
  /-- There are underscores only. -/
  | noDigits (base : Nat)
  /-- A decimal number has more digits than a numeral may have. -/
  | tooLong (digits : Nat)
  deriving DecidableEq, Repr

def NumberProblem.message : NumberProblem → String
  | noDigits base => "invalid literal for int() with base " ++ toString base ++ ": ''"
  | tooLong digits => (Text.NumeralProblem.tooLong digits).message ""

/-- Is it a digit of a base, or an underscore? -/
def isDigitOf (base : Nat) (c : Char) : Bool :=
  c == '_' || (Text.hexValue? c).any (· < base)

def ofDigits (base : Nat) (digits : List Char) : Nat :=
  digits.foldl (fun n c => n * base + (Text.hexValue? c).getD 0) 0

/-- The digits of a number, without underscores. -/
def digitsOf (cs : List Char) : List Char :=
  cs.filter (· != '_')

/-- The number that digits after the sign of a base stand for. -/
def readBased (base : Nat) (cs : List Char) : Except NumberProblem Nat :=
  match digitsOf cs with
  | [] => .error (.noDigits base)
  | digits => .ok (ofDigits base digits)

def readDecimal (cs : List Char) : Except NumberProblem Nat :=
  let digits := digitsOf cs
  if Text.digitLimit < digits.length then .error (.tooLong digits.length)
  else .ok (ofDigits 10 digits)

/-- Does a text start with a decimal digit other than zero and go on with decimal digits? -/
def isDecimal : List Char → Bool
  | [] => false
  | c :: rest => c != '0' && c.isDigit && rest.all (isDigitOf 10)

/-- Is it a number of sixtieths: a digit, or a digit below six and another one? -/
def isSixtieth : List Char → Bool
  | [c] => c.isDigit
  | [c, d] => '0' ≤ c && c ≤ '5' && d.isDigit
  | _ => false

def parts (cs : List Char) : List (List Char) :=
  cs.splitOn ':'

/-- The number that a text without a sign stands for, `none` if it is no number. -/
def readNumber (cs : List Char) : Except NumberProblem (Option Nat) :=
  match cs with
  | '0' :: 'b' :: digits =>
    if !digits.isEmpty && digits.all (isDigitOf 2) then some <$> readBased 2 digits else .ok none
  | '0' :: 'x' :: digits =>
    if !digits.isEmpty && digits.all (isDigitOf 16) then some <$> readBased 16 digits else .ok none
  | '0' :: digits =>
    if digits.all (isDigitOf 8) then some <$> readBased 8 cs else .ok none
  | _ =>
    match parts cs with
    | [] => .ok none
    | first :: more =>
      if isDecimal first && more.all isSixtieth then do
        let numbers ← (first :: more).mapM readDecimal
        return some (numbers.foldl (fun n d => n * 60 + d) 0)
      else .ok none

def ofPlain (cs : List Char) : Except NumberProblem Yaml := do
  let (sign, rest) : Int × List Char := match cs with
    | '-' :: rest => (-1, rest)
    | '+' :: rest => (1, rest)
    | _ => (1, cs)
  if cs.isEmpty || ["~", "null", "Null", "NULL"].contains (String.ofList cs) then return null
  else
    match ← readNumber rest with
    | some n => return int (sign * n)
    | none => return text (String.ofList cs)

/-! ## Lines -/

structure Line where
  indent : Nat
  key : Option String
  value : Yaml

/-- What a line says, `none` if nothing. A key that is a number has to be one that can be read. -/
def readLine? (line : String) : Except NumberProblem (Option Line) := do
  let content := withoutComment (' ' :: line.toList)
  match trim content with
  | [] => return none
  | cs =>
    let indent := (content.takeWhile (· == ' ')).length
    match splitKey cs with
    | some (key, value) =>
      let _ ← ofPlain (trim key)
      return some ⟨indent, some (String.ofList (trim key)), ← ofPlain (trim value)⟩
    | none => return some ⟨indent, none, ← ofPlain cs⟩

/-- An entry of a mapping and how far to the right it starts. -/
structure Entry where
  indent : Nat
  key : String
  value : Yaml

/-- Puts a line before the entries of the lines below it: those further to the right that come first
are its own. -/
def addLine (line : Line) (below : List Entry) : List Entry :=
  match line.key with
  | none => below
  | some key =>
    let own := below.takeWhile (line.indent < ·.indent)
    let rest := below.dropWhile (line.indent < ·.indent)
    let value := if own.isEmpty then line.value else mapping (own.map fun e => (e.key, e.value))
    ⟨line.indent, key, value⟩ :: rest

def parse (s : String) : Except NumberProblem Yaml := do
  let lines ← (Text.lines (Text.unifyNewlines s)).filterMapM readLine?
  match lines with
  | [] => return null
  | first :: _ =>
    match first.key with
    | none => return first.value
    | some _ => return mapping ((lines.foldr addLine []).map fun e => (e.key, e.value))

/-- The value of the last entry with a key. -/
def find? (entries : List (String × Yaml)) (key : String) : Option Yaml :=
  entries.reverse.lookup key

end Yaml

end TableScript
