import TableScript.Text.Printable

/-!
Quoted text: how a string, a list of strings or the bytes of a character stand in a message. A
string is put between apostrophes, or between double quotes if it holds an apostrophe and no
double quote; what cannot be shown is written as an escape.
-/

namespace TableScript.Text

/-- The lower-case hexadecimal digit of a value below sixteen. -/
def hexDigit (n : Nat) : Char :=
  if n < 10 then Char.ofNat (48 + n) else Char.ofNat (87 + n)

/-- `width` hexadecimal digits of `n`, most significant first. -/
def hexDigits : Nat → Nat → List Char
  | 0, _ => []
  | width + 1, n => hexDigits width (n / 16) ++ [hexDigit (n % 16)]

/-- A character inside a string that is quoted with `mark`. -/
def quoteChar (mark : Char) (c : Char) : List Char :=
  if c == mark || c == '\\' then ['\\', c]
  else if c == '\n' then ['\\', 'n']
  else if c == '\r' then ['\\', 'r']
  else if c == '\t' then ['\\', 't']
  else if isPrintable c then [c]
  else if c.toNat < 0x100 then '\\' :: 'x' :: hexDigits 2 c.toNat
  else if c.toNat < 0x10000 then '\\' :: 'u' :: hexDigits 4 c.toNat
  else '\\' :: 'U' :: hexDigits 8 c.toNat

def quote (s : String) : String :=
  let cs := s.toList
  let mark := if cs.contains '\'' && !cs.contains '"' then '"' else '\''
  String.ofList (mark :: cs.flatMap (quoteChar mark) ++ [mark])

/-- A list of strings between brackets, each quoted. -/
def quoteList (ss : List String) : String :=
  "[" ++ String.intercalate ", " (ss.map quote) ++ "]"

/-- The bytes in UTF-8 of a character beyond ASCII, quoted. -/
def quoteBytes (c : Char) : String :=
  String.ofList ('b' :: '\'' ::
    ((String.singleton c).toUTF8.toList.flatMap fun b => '\\' :: 'x' :: hexDigits 2 b.toNat) ++
      ['\''])

end TableScript.Text
