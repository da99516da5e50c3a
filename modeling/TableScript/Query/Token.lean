import TableScript.Text.Alnum
import TableScript.Text.Blank
import TableScript.Text.Identifier
import TableScript.Text.Numeric
import TableScript.Text.Edit

/-!
Tokens of queries. The scanner reads marks in pairs, as one delimiter if the pair is one and else
as two; other characters gather into a word until a mark or a space ends it, and the word is then a
keyword, a value or a dotted name. Quotation marks of either kind open and close a quoted part, in
which marks and spaces belong to the word.
-/

namespace TableScript.Query

inductive Delimiter where
  | range | plus | minus | times | divide | modulo
  | greater | less | greaterEq | lessEq | equal | notEqual
  | parenLeft | parenRight
  deriving DecidableEq, Inhabited, Repr

namespace Delimiter

def all : List Delimiter :=
  [range, plus, minus, times, divide, modulo, greater, less, greaterEq, lessEq, equal, notEqual,
   parenLeft, parenRight]

def text : Delimiter → String
  | range => "~"
  | plus => "+"
  | minus => "-"
  | times => "*"
  | divide => "/"
  | modulo => "%"
  | greater => ">"
  | less => "<"
  | greaterEq => ">="
  | lessEq => "<="
  | equal => "=="
  | notEqual => "!="
  | parenLeft => "("
  | parenRight => ")"

def ofText? (s : String) : Option Delimiter :=
  all.find? fun d => d.text == s

end Delimiter

inductive Keyword where
  | true | false | and | or | not | in
  deriving DecidableEq, Inhabited, Repr

namespace Keyword

def all : List Keyword := [.true, .false, and, or, not, .in]

def text : Keyword → String
  | .true => "true"
  | .false => "false"
  | and => "and"
  | or => "or"
  | not => "not"
  | .in => "in"

def ofText? (s : String) : Option Keyword :=
  all.find? fun k => k.text == s

end Keyword

inductive Token where
  | delimiter (d : Delimiter)
  | keyword (k : Keyword)
  | value (text : String)
  | ident (name : String)
  deriving DecidableEq, Inhabited, Repr

def Token.text : Token → String
  | .delimiter d => d.text
  | .keyword k => k.text
  | .value s => s
  | .ident s => s

/-- The characters that delimiters are made of; the colon, the equals sign and the exclamation
mark alone are no delimiters. -/
def marks : List Char :=
  [':', '=', '+', '-', '*', '/', '%', '>', '<', '(', ')', '!', '~']

def isMark (c : Char) : Bool :=
  marks.contains c

inductive ScanError where
  /-- A character that no token holds. -/
  | unexpected (c : Char)
  /-- A word that is neither a keyword, nor a value, nor a name. -/
  | invalid
  /-- A mark that is no delimiter. -/
  | notDelimiter (c : Char)
  deriving DecidableEq, Repr

structure Scanner where
  quoted : Bool := false
  /-- The next character belongs to the delimiter before it. -/
  skip : Bool := false
  /-- The characters of the current word, last first. -/
  word : List Char := []
  /-- The tokens so far, last first. -/
  tokens : List Token := []

/-- Is the word a number, or between two quotation marks of one kind? -/
def isValueWord (s : String) : Bool :=
  s == "true" || s == "false" || Text.isNumericWord s ||
    Text.isBetween '"' s || Text.isBetween '\'' s

def Scanner.endWord (s : Scanner) : Except ScanError Scanner :=
  let text := String.ofList s.word.reverse
  match Keyword.ofText? text with
  | some k => .ok { s with word := [], tokens := .keyword k :: s.tokens }
  | none =>
    if isValueWord text then .ok { s with word := [], tokens := .value text :: s.tokens }
    else if Text.isIdentifier (Text.without '.' text) then
      .ok { s with word := [], tokens := .ident text :: s.tokens }
    else if text.isEmpty then .ok s
    else .error .invalid

/-- A mark as a delimiter of its own. -/
def delimiterOf (c : Char) : Except ScanError Token :=
  match Delimiter.ofText? (String.singleton c) with
  | some d => .ok (.delimiter d)
  | none => .error (.notDelimiter c)

/-- Reads the mark `c`, which the mark `next` may follow. -/
def Scanner.mark (s : Scanner) (c : Char) (next : Option Char) : Except ScanError Scanner := do
  match next with
  | some c' =>
    match Delimiter.ofText? (String.ofList [c, c']) with
    | some d => return { s with skip := true, tokens := .delimiter d :: s.tokens }
    | none =>
      let first ← delimiterOf c
      let second ← delimiterOf c'
      return { s with skip := true, tokens := second :: first :: s.tokens }
  | none => return { s with tokens := (← delimiterOf c) :: s.tokens }

def isExpected (c : Char) : Bool :=
  Text.isAlnum c || Text.isBlank c || c == '.' || c == '_' || c == '\'' || c == '"' || isMark c

def Scanner.step (s : Scanner) (c : Char) (rest : List Char) : Except ScanError Scanner := do
  if !(s.quoted || isExpected c) then throw (.unexpected c)
  if c == ' ' && !s.quoted then s.endWord
  else if s.skip then return { s with skip := false }
  else if isMark c && !s.quoted then
    (← s.endWord).mark c (rest.head?.filter isMark)
  else
    let s := if c == '\'' || c == '"' then { s with quoted := !s.quoted } else s
    if (c == ' ' && s.quoted) || !Text.isBlank c then return { s with word := c :: s.word }
    else return s

def Scanner.run (s : Scanner) : List Char → Except ScanError Scanner
  | [] => .ok s
  | c :: rest => do (← s.step c rest).run rest

def scan (text : String) : Except ScanError (List Token) := do
  let s ← Scanner.run {} text.toList
  return (← s.endWord).tokens.reverse

end TableScript.Query
