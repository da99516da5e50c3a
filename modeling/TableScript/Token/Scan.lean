import TableScript.Console
import TableScript.Text.Alnum
import TableScript.Text.Blank
import TableScript.Text.Edit
import TableScript.Text.Identifier
import TableScript.Text.Numeric
import TableScript.Token.Basic

/-!
The tokens of a program text.

The scanner reads one character after the other. Marks are read in pairs, as one delimiter if the
pair is one and else as two; other characters gather into a word until a mark, a space or the end
of a line ends it. Quotation marks of either kind open and close a quoted part, in which marks and
spaces belong to the word. A number sign outside a quoted part starts a comment, which the end of
the line ends.

* `Scanner.step` reads one character, `Scanner.run` a text;
* `scan` gives the tokens of a text, and prints the warnings and errors on the way.
-/

namespace TableScript

inductive ScanFault where
  /-- A tab, which has no column. -/
  | tab
  /-- A mark that is no delimiter. -/
  | notDelimiter (c : Char)
  | noTokens
  deriving DecidableEq, Repr

def ScanFault.message : ScanFault → String
  | tab => "unsupported operand type(s) for +=: 'int' and 'str'"
  | notDelimiter c => "'" ++ String.singleton c ++ "' is not a valid Delimiter"
  | noTokens => "Invalid program, unable to parse"

structure Scanner where
  /-- The number of lines that have ended. -/
  line : Nat := 0
  /-- The number of characters read of the current line. -/
  column : Nat := 0
  quoted : Bool := false
  comment : Bool := false
  /-- The next character belongs to the delimiter before it. -/
  skip : Bool := false
  /-- The characters of the current word, last first. -/
  word : List Char := []
  /-- The tokens so far, last first. -/
  tokens : List Token := []
  console : Console := {}

/-- A number, or a word between two quotation marks of one kind. -/
def isValueWord (s : String) : Bool :=
  s == "true" || s == "false" || Text.isNumericWord s ||
    Text.isBetween '"' s || Text.isBetween '\'' s

/-- What a word that is no error is. -/
def lexemeOf? (s : String) : Option Lexeme :=
  match Keyword.ofText? s with
  | some k => some (.keyword k)
  | none =>
    if isValueWord s then some (.value s)
    else if Text.isIdentifier s then some (.ident s)
    else none

/-- A mark as a delimiter of its own. -/
def delimiterOf (c : Char) : Except ScanFault Lexeme :=
  match Delimiter.ofText? (String.singleton c) with
  | some d => .ok (.delimiter d)
  | none => .error (.notDelimiter c)

/-- The delimiters that the mark `c` stands for, with the mark `next` if there is one. -/
def delimitersOf (c : Char) : Option Char → Except ScanFault (List Lexeme)
  | none => do return [← delimiterOf c]
  | some next =>
    match Delimiter.ofText? (String.ofList [c, next]) with
    | some d => .ok [.delimiter d]
    | none => do
      let first ← delimiterOf c
      return [first, ← delimiterOf next]

/-- A scanner that stops leaves what it has printed. -/
structure Scanner.Stop where
  fault : ScanFault
  console : Console

namespace Scanner

/-- The place `back` columns before the current one. -/
def place (lines : Array String) (s : Scanner) (back : Nat) : Position :=
  { line := s.line, column := (s.column - back : Nat), lineText := lines.getD s.line "" }

def advance (s : Scanner) (c : Char) : Except Stop Scanner :=
  if c == '\n' then .ok { s with column := 0, line := s.line + 1 }
  else if c == '\t' then .error ⟨.tab, s.console⟩
  else .ok { s with column := s.column + 1 }

def expects (s : Scanner) (c : Char) : Bool :=
  s.quoted || Text.isAlnum c || Text.isBlank c || c == '#' || c == '_' || c == '\'' || c == '"' ||
    isMark c

def isGap (s : Scanner) (c : Char) : Bool :=
  c == '\n' || c == '\r' || c == '\t' || (c == ' ' && !s.quoted)

/-- Ends the current word; `past` is the number of characters read after it. -/
def endWord (lines : Array String) (s : Scanner) (past : Nat) : Scanner :=
  let text := String.ofList s.word.reverse
  let position := s.place lines (past + s.word.length)
  match lexemeOf? text with
  | some lexeme => { s with word := [], tokens := { lexeme, position } :: s.tokens }
  | none =>
    if text.isEmpty then s
    else { s with word := [], console := s.console.error ("Unexpected: " ++ position.text) }

/-- Reads the mark `c`, which the mark `next` may follow. -/
def mark (lines : Array String) (s : Scanner) (c : Char) (next : Option Char) :
    Except Stop Scanner := do
  let lexemes ← (delimitersOf c next).mapError fun fault => ⟨fault, s.console⟩
  let position := s.place lines (if next.isSome then 2 else 1)
  let tokens := lexemes.map fun lexeme => { lexeme, position }
  return { s with skip := next.isSome, tokens := tokens.reverse ++ s.tokens }

def unexpected (c : Char) (place : Position) : String :=
  let shown := if c.toNat < 128 then String.singleton c else Text.quoteBytes c
  "Unexpected character '" ++ shown ++ "': " ++ place.text

def gather (s : Scanner) (c : Char) : Scanner :=
  let s := if c == '\'' || c == '"' then { s with quoted := !s.quoted } else s
  if (c == ' ' && s.quoted) || !Text.isBlank c then { s with word := c :: s.word } else s

def step (lines : Array String) (s : Scanner) (c : Char) (next : Option Char) :
    Except Stop Scanner := do
  let s ← s.advance c
  if !s.expects c then
    return { s with console := s.console.warn (unexpected c (s.place lines s.word.length)) }
  else if c == '#' && !s.quoted then return { s with comment := true }
  else if s.comment then return { s with comment := c != '\n' }
  else if s.isGap c then return s.endWord lines 1
  else if s.skip then return { s with skip := false }
  else if isMark c && !s.quoted then (s.endWord lines 1).mark lines c (next.filter isMark)
  else return s.gather c

def run (lines : Array String) (s : Scanner) : List Char → Except Stop Scanner
  | [] => .ok (s.endWord lines 0)
  | c :: rest => do (← s.step lines c rest.head?).run lines rest

end Scanner

def tokenListing (tokens : List Token) : String :=
  String.join ((tokens.zipIdx).map fun (t, i) => toString i ++ "\n" ++ t.text ++ "\n\n")

/-- Closes a phase: says whether it had warnings and errors. -/
def Console.close (c : Console) : Console :=
  let c := if c.hasWarnings then c.warn "One or more warnings occurred" else c
  if c.hasErrors then c.error "One or more errors occurred" else c

/-- The tokens of a program text, `none` if scanning stops. -/
def scan (debugging : Bool) (text : String) (console : Console) :
    Option (List Token) × Console :=
  let start : Scanner := { console := console.restart debugging }
  let result : Except Scanner.Stop Scanner := do
    let s ← start.run (Text.lines text).toArray text.toList
    if s.tokens.isEmpty then throw ⟨.noTokens, s.console⟩
    return s
  match result with
  | .ok s =>
    let tokens := s.tokens.reverse
    (some tokens, (s.console.debugBlock "TOKENS" fun _ => tokenListing tokens).close)
  | .error stop =>
    (none, (stop.console.error ("Unhandled error occurred: " ++ stop.fault.message)).close)

end TableScript
