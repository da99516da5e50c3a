import TableScript.Builtin.Signature
import TableScript.Console
import TableScript.Expr

/-!
The state of the parser and its single steps.

The parser reports an error and goes on wherever it can, so a rule of the grammar gives a result
also where the tokens do not fit. Where it cannot go on, reading breaks down with a fault.

Tokens are told apart by their lexemes, which is as good as by their texts, since a word or mark
that the scanner reads is always of the same sort. For the same reason a token that is no name never
has the text of a name that was stepped over, so there is no error about a token that is tried
twice.
-/

namespace TableScript

structure ParseState where
  rest : List Token
  /-- The number of steps over tokens. -/
  used : Nat := 0
  /-- The number of names that were made up for statements without one. -/
  dummies : Nat := 0
  /-- The types that names stand for. -/
  aliases : List (Option String × TypeRef) := []
  /-- The built-in functions that are named. -/
  builtins : List Builtin := []
  console : Console := {}
  types : TypeStore := {}
  deriving Inhabited

abbrev ParseM (α : Type) := ExceptT Fault (StateM ParseState) α

namespace Parser

def peek : ParseM (Option Token) := do
  return (← get).rest.head?

def peekLexeme : ParseM (Option Lexeme) := do
  return (← peek).map (·.lexeme)

def here : ParseM (Option Position) := do
  return (← peek).map (·.position)

def remaining : ParseM Nat := do
  return (← get).rest.length

def advance : ParseM Unit :=
  modify fun s => { s with rest := s.rest.tail, used := s.used + 1 }

def placed (text : String) : Option Position → String
  | some p => text ++ "\n" ++ p.text
  | none => text

def report (text : String) (position : Option Position) : ParseM Unit :=
  modify fun s => { s with console := s.console.error (placed text position) }

def accept (l : Lexeme) : ParseM Bool := do
  if (← peekLexeme) = some l then
    advance
    return true
  else return false

def acceptDelimiter (d : Delimiter) : ParseM Bool :=
  accept (.delimiter d)

def acceptKeyword (k : Keyword) : ParseM Bool :=
  accept (.keyword k)

/-- Steps over the next token, and reports an error if it is not the delimiter `d`. -/
def expect (d : Delimiter) : ParseM Unit := do
  match ← peek with
  | none => report ("Expected " ++ d.text ++ ", found end-of-file while parsing") none
  | some t =>
    if t.lexeme ≠ .delimiter d then
      report ("Expected " ++ d.text ++ ", got " ++ t.lexeme.label) (some t.position)
    advance

/-- The name that the next token is, if it is one. A token other than a name stays. -/
def acceptIdent : ParseM (Option String) := do
  match ← peekLexeme with
  | none => throw (.missing .tokenKind)
  | some (.ident name) =>
    advance
    return some name
  | some _ => return none

/-- The name that the next token is; anything else is an error, and stays. -/
def expectIdent : ParseM (Option String) := do
  let token ← peek
  match ← acceptIdent with
  | some name => return some name
  | none =>
    if let some t := token then
      report ("Expected identifier, got " ++ t.lexeme.label) (some t.position)
    return none

def dummy : ParseM String :=
  modifyGet fun s => ("dummy$" ++ toString s.dummies, { s with dummies := s.dummies + 1 })

def makeType (f : TypeStore → TypeRef × TypeStore) : ParseM TypeRef :=
  modifyGet fun s =>
    let (t, types) := f s.types
    (t, { s with types })

/-- The note of an expression that is asked for its type. -/
def typeOf (e : Expr) : ParseM TypeRef :=
  match e.note? with
  | some n => return n.type
  | none => throw (.missing .type)

def placeOf (e : Expr) : ParseM (Option Position) :=
  match e.note? with
  | some n => return n.position
  | none => throw (.missing .place)

/-- Items that each follow the separator `d`, in at most so many rounds. -/
def itemsAfter {α : Type} (d : Delimiter) (item : ParseM α) : Nat → ParseM (List α)
  | 0 => throw .tooDeep
  | rounds + 1 => do
    if ← acceptDelimiter d then
      let x ← item
      return x :: (← itemsAfter d item rounds)
    else return []

/-- Items up to the delimiter `close`, with commas between them or not, in at most so many rounds.
An item that reads nothing is read again without end, unless one that is not `patient` gives up. -/
def itemsUpTo {α : Type} (patient : Bool) (close : Delimiter) (item : ParseM α) :
    Nat → ParseM (List α)
  | 0 => throw .tooDeep
  | rounds + 1 => do
    let before ← remaining
    if !(← acceptDelimiter .comma) then
      if ← acceptDelimiter close then return []
    let x ← item
    let after ← remaining
    if !patient && before ≤ after then throw .stalled
    return x :: (← itemsUpTo patient close item rounds)

end Parser

end TableScript
