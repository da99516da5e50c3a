import TableScript.Text.Hex
import TableScript.Text.Name

/-!
Escapes in printed text. A text is printed by writing it in UTF-8, reading each byte as one
character, and then resolving backslash escapes:

* `latin` spreads a text into its bytes, each a character below 256;
* `resolve` replaces the escapes by the code points they name, and refuses a malformed one;
* `unescape` gives the code points that are printed.
-/

namespace TableScript.Text

/-- The bytes of the text in UTF-8, each as the character of that code. -/
def latin (s : String) : List Char :=
  s.toUTF8.toList.map fun b => Char.ofNat b.toNat

def octalValue? (c : Char) : Option Nat :=
  if '0' ≤ c ∧ c ≤ '7' then some (c.toNat - 48) else none

/-- The escapes of one letter. -/
def letterEscape? : Char → Option Nat
  | '\\' => some 92
  | '\'' => some 39
  | '"' => some 34
  | 'b' => some 8
  | 'f' => some 12
  | 't' => some 9
  | 'n' => some 10
  | 'r' => some 13
  | 'v' => some 11
  | 'a' => some 7
  | _ => none

/-- What stands after a backslash. -/
inductive Escape where
  | malformed
  /-- The escape names no code point. -/
  | nothing (length : Nat)
  /-- The escape, `length` characters after the backslash, names a code point. -/
  | code (length : Nat) (value : Nat)
  /-- No escape: the backslash stands for itself. -/
  | unknown

/-- The octal escape at the start of a text: up to three digits. -/
def readOctal : List Char → Escape
  | a :: b :: c :: _ =>
    match octalValue? a, octalValue? b, octalValue? c with
    | some x, some y, some z => .code 3 (x * 64 + y * 8 + z)
    | some x, some y, none => .code 2 (x * 8 + y)
    | some x, none, _ => .code 1 x
    | none, _, _ => .unknown
  | [a, b] =>
    match octalValue? a, octalValue? b with
    | some x, some y => .code 2 (x * 8 + y)
    | some x, none => .code 1 x
    | none, _ => .unknown
  | [a] => match octalValue? a with
    | some x => .code 1 x
    | none => .unknown
  | [] => .unknown

/-- The escape with `width` hexadecimal digits after its letter. -/
def readHex (width : Nat) (rest : List Char) : Escape :=
  let digits := rest.take width
  if digits.length < width then .malformed
  else match hexNumber? digits with
    | some n => if n < 0x110000 then .code (width + 1) n else .malformed
    | none => .malformed

/-- The escape with the name of a character between braces after its letter. -/
def readNamed : List Char → Escape
  | '\x7b' :: rest =>
    let name := rest.takeWhile (· != '\x7d')
    if name.length < rest.length then
      match Name.find? name with
      | some n => .code (name.length + 3) n
      | none => .malformed
    else .malformed
  | _ => .malformed

/-- The escape that the text after a backslash starts with. -/
def readEscape : List Char → Escape
  | [] => .malformed
  | c :: rest =>
    if c == '\n' then .nothing 1
    else match letterEscape? c with
      | some n => .code 1 n
      | none =>
        match c with
        | 'x' => readHex 2 rest
        | 'u' => readHex 4 rest
        | 'U' => readHex 8 rest
        | 'N' => readNamed rest
        | _ => readOctal (c :: rest)

/-- The code points of a text whose escapes are resolved; `none` at a malformed escape. The first
`skip` characters belong to an escape that is already resolved. -/
def resolveFrom (skip : Nat) : List Char → Option (List Nat)
  | [] => some []
  | c :: rest =>
    match skip with
    | n + 1 => resolveFrom n rest
    | 0 =>
      if c == '\\' then
        match readEscape rest with
        | .malformed => none
        | .nothing n => resolveFrom n rest
        | .code n v => (resolveFrom n rest).map (v :: ·)
        | .unknown => (resolveFrom 0 rest).map (c.toNat :: ·)
      else (resolveFrom 0 rest).map (c.toNat :: ·)

def resolve (cs : List Char) : Option (List Nat) :=
  resolveFrom 0 cs

/-- The code points that are printed for a text; `none` if it holds a malformed escape. An escape
can name half of a surrogate pair, so a code point need not be a character. -/
def unescape (s : String) : Option (List Nat) :=
  resolve (latin s)

end TableScript.Text
