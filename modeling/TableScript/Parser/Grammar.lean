import TableScript.Parser.Basic
import TableScript.Text.Edit
import TableScript.Text.Numeral

/-!
The grammar of programs.

A program is a chain of `let`s and statements, each ended by a semicolon, before a last expression.
Operators are grouped by precedence; `x |> f(y)` is the call `f(x, y)`.

The rules call each other, always after at least one token, and every round of a loop reads one. So
`grammar`, the rules that may nest `n` levels deep and go round `n + 1` times, needs no more of them
than there are tokens. Only the items of a schema and of a parameter list may read nothing: a
patient grammar reads them again, and any other gives up.
-/

namespace TableScript.Parser

/-- The rules that call each other. -/
structure Grammar where
  /-- A `let`, or a simple expression that a semicolon and more may follow. -/
  expression : ParseM Expr
  /-- An expression without statements. -/
  simple : ParseM Expr
  /-- Operands joined by operators of at least the given precedence. -/
  operators : Nat → ParseM Expr
  /-- A literal or a range. -/
  literal : ParseM Expr
  type : ParseM TypeRef
  /-- How often a loop may go round. -/
  rounds : Nat
  /-- Is an item that reads nothing read again? -/
  patient : Bool

def followers {α : Type} (g : Grammar) (d : Delimiter) (item : ParseM α) : ParseM (List α) :=
  itemsAfter d item g.rounds

def upTo {α : Type} (g : Grammar) (close : Delimiter) (item : ParseM α) : ParseM (List α) :=
  itemsUpTo g.patient close item g.rounds

/-! ## Types -/

/-- Types in brackets; the closing bracket may be left out. -/
def bracketed (g : Grammar) : ParseM (List TypeRef) := do
  let _ ← acceptDelimiter .bracketLeft
  let first ← g.type
  let more ← followers g .comma g.type
  let _ ← acceptDelimiter .bracketRight
  return first :: more

/-- The types of parameters after an opening parenthesis. -/
def parameterTypes (g : Grammar) : ParseM (List TypeRef) := do
  if ← acceptDelimiter .parenRight then return []
  else
    let first ← g.type
    let more ← followers g .comma g.type
    let _ ← acceptDelimiter .parenRight
    return first :: more

/-- A type that starts with its own word; `none` if the next token starts none. -/
def namedType (g : Grammar) : ParseM (Option TypeRef) := do
  if ← acceptKeyword .int then return some .int
  else if ← acceptKeyword .bool then return some .bool
  else if ← acceptKeyword .char then return some .char
  else if ← acceptKeyword .string then return some .string
  else if ← acceptKeyword .none then return some .none
  else if ← acceptKeyword .union then
    let members ← bracketed g
    return some (← makeType fun s =>
      let (place, s) := s.addList members
      (.union place, s))
  else if ← acceptKeyword .list then
    let _ ← acceptDelimiter .bracketLeft
    let element ← g.type
    let _ ← acceptDelimiter .bracketRight
    return some (.list element)
  else if ← acceptKeyword .dict then
    let _ ← acceptDelimiter .bracketLeft
    let key ← g.type
    let _ ← acceptDelimiter .denote
    let value ← g.type
    let _ ← acceptDelimiter .bracketRight
    return some (.dict key value)
  else if ← acceptKeyword .tuple then
    let members ← bracketed g
    return some (← makeType (·.addTuple members))
  else if ← acceptKeyword .schema then
    return some (← makeType fun s =>
      let (place, s) := s.addList []
      (.schema place, s))
  else if ← acceptKeyword .table then
    return some (← makeType fun s =>
      let (place, s) := s.addList []
      (.table place, s))
  else if ← acceptDelimiter .parenLeft then
    let parameters ← parameterTypes g
    let _ ← acceptDelimiter .arrow
    return some (.func parameters (← g.type))
  else return none

def aliasedType (name : String) (position : Option Position) : ParseM TypeRef := do
  match (← get).aliases.lookup (some name) with
  | some t => return t
  | none =>
    report ("Invalid alias '" ++ name ++ "' provided") position
    advance
    return .unknown

/-- Makes a function type of a type that an arrow follows. -/
def arrowType (g : Grammar) (position : Option Position) (first : Option TypeRef) :
    ParseM TypeRef := do
  if ← acceptDelimiter .arrow then return .func [first.getD .absent] (← g.type)
  else
    match first with
    | some t => return t
    | none =>
      report "Expected type signature but received none" position
      return .unknown

def typeRule (g : Grammar) : ParseM TypeRef := do
  let position ← here
  match ← namedType g with
  | some t => arrowType g position (some t)
  | none =>
    match ← acceptIdent with
    | some name => aliasedType name position
    | none => arrowType g position none

/-- The type after a colon, which may be left out. -/
def denotedType (g : Grammar) : ParseM TypeRef := do
  let _ ← acceptDelimiter .denote
  typeRule g

/-! ## Atoms -/

/-- A quoted value as a literal: one character between apostrophes is a character, and so is an
escape of one letter. -/
def quotedLiteral (text : String) : Literal :=
  match text.toList with
  | '\'' :: rest =>
    let content := Text.without '\'' text
    if rest.length = 2 then .char content
    else if rest.head? = some '\\' ∧ rest.length = 3 then .char content
    else .string content
  | '"' :: '"' :: '"' :: _ => .string (Text.erase "\"\"\"" text)
  | _ => .string (Text.without '"' text)

def isQuoted (text : String) : Bool :=
  text.toList.head? == some '\'' || text.toList.head? == some '"'

/-- The literal of an expression that is one; anything else is an error. -/
def literalOf (e : Expr) : ParseM (Option Literal) := do
  match e with
  | .literal _ l => return some l
  | _ =>
    report "Expected literal value" (← here)
    return none

def literalExpr (position : Option Position) (l : Literal) : Expr :=
  .literal { type := l.type, position } l

def literalRule (g : Grammar) : ParseM Expr := do
  let position ← here
  if ← acceptKeyword .true then return literalExpr position (.bool true)
  else if ← acceptKeyword .false then return literalExpr position (.bool false)
  else if ← acceptKeyword .none then return literalExpr position .none
  else
    match ← peekLexeme with
    | none => throw (.missing .tokenKind)
    | some (.value text) =>
      if isQuoted text then
        advance
        return literalExpr position (quotedLiteral text)
      else
        match Text.readNumeral text with
        | .error problem => throw (.notNumeral text problem)
        | .ok n =>
          advance
          if ← acceptDelimiter .range then
            let stop ← literalOf (← g.literal)
            return .range { type := .list .int, position } (some (.int n)) stop
          else return literalExpr position (.int n)
    | some _ => return .unknown {}

/-- What follows an opening parenthesis: nothing, an expression, or a tuple. -/
def parenthesized (g : Grammar) : ParseM Expr := do
  let position ← here
  if ← acceptDelimiter .parenRight then return literalExpr position .none
  else
    let first ← g.simple
    let firstType ← typeOf first
    let more ← followers g .comma do
      let e ← g.simple
      return (e, ← typeOf e)
    if more.isEmpty then return first
    else
      let type ← makeType (·.addTuple (firstType :: more.map (·.2)))
      return .tuple { type, position } (first :: more.map (·.1))

/-- A built-in function, an expression in parentheses, a name or a literal. -/
def atomRule (g : Grammar) : ParseM Expr := do
  let position ← here
  match ← peekLexeme with
  | none => throw (.missing .tokenKind)
  | some (.keyword (.builtin b)) =>
    advance
    modify fun s => { s with
      builtins := if s.builtins.contains b then s.builtins else s.builtins ++ [b] }
    return .ref { type := b.signature.type, position } (.builtin b)
  | some (.delimiter .parenLeft) =>
    advance
    let e ← parenthesized g
    let _ ← acceptDelimiter .parenRight
    return e
  | some (.ident name) =>
    advance
    return .ref { position } (.ident name)
  | some _ => literalRule g

/-! ## Calls -/

def argumentsRule (g : Grammar) : ParseM (List Expr) := do
  if ← acceptDelimiter .parenRight then return []
  else
    let first ← g.simple
    let more ← followers g .comma g.simple
    expect .parenRight
    return first :: more

/-- An atom, called with any number of argument lists. -/
def applicationRule (g : Grammar) : ParseM Expr := do
  let position ← here
  let function ← atomRule g
  match function with
  | .literal _ _ => return function
  | _ =>
    if ← acceptDelimiter .parenLeft then
      let type ← typeOf function
      let arguments ← argumentsRule g
      let more ← followers g .parenLeft (argumentsRule g)
      return more.foldl (fun e as => .apply { position } e as)
        (.apply { type, position } function arguments)
    else return function

/-- Makes `stage` a call that takes `e` as its first argument. What is no call is dropped. -/
def pipeInto (e stage : Expr) : ParseM Expr := do
  match stage with
  | .apply note function arguments => return .apply note function (e :: arguments)
  | .ref note _ => return .apply { type := note.type, position := ← placeOf e } stage [e]
  | _ => return e

/-- The stages that `e` is piped into; each follows a bird. -/
def pipeline (g : Grammar) (e : Expr) : Nat → ParseM Expr
  | 0 => throw .tooDeep
  | rounds + 1 => do
    if ← acceptDelimiter .bird then
      let stage ← applicationRule g
      pipeline g (← pipeInto e stage) rounds
    else return e

/-- An expression of a function type is taken for its result. -/
def resultTyped (e : Expr) : ParseM Expr := do
  match ← typeOf e with
  | .func _ result => return e.withType result
  | _ => return e

/-! ## Collections -/

/-- What follows an opening bracket: a list or a dictionary. -/
def collectionRule (g : Grammar) : ParseM Expr := do
  let position ← here
  if ← acceptDelimiter .bracketRight then
    return .list { type := .list .unknown, position } []
  else
    let first ← g.simple
    if ← acceptDelimiter .comma then
      let second ← g.simple
      let more ← followers g .comma g.simple
      let _ ← acceptDelimiter .bracketRight
      return .list { type := .list (← typeOf first), position } (first :: second :: more)
    else if ← acceptDelimiter .denote then
      let value ← g.simple
      let more ← followers g .comma do
        let k ← g.simple
        let _ ← acceptDelimiter .denote
        return (k, ← g.simple)
      let _ ← acceptDelimiter .bracketRight
      let keyType ← typeOf first
      return .dict { type := .dict keyType (← typeOf value), position } ((first, value) :: more)
    else
      let _ ← acceptDelimiter .bracketRight
      return .list { type := .list (← typeOf first), position } [first]

def columnRule (g : Grammar) : ParseM (Option String × TypeRef) := do
  let name ← expectIdent
  return (name, ← denotedType g)

/-- What follows a dollar sign: the columns of a schema in braces. -/
def schemaRule (g : Grammar) : ParseM Expr := do
  let position ← here
  let _ ← acceptDelimiter .braceLeft
  let columns ← upTo g .braceRight (columnRule g)
  let type ← makeType fun s =>
    let (place, s) := s.addList (columns.map (·.2))
    (.schema place, s)
  return .schema { type, position } columns

/-! ## Operators -/

def tightRule (g : Grammar) : ParseM Expr := do
  match ← peekLexeme with
  | none => return .unknown {}
  | some (.delimiter .bracketLeft) =>
    advance
    collectionRule g
  | some (.delimiter .braceLeft) =>
    advance
    let body ← g.expression
    let _ ← acceptDelimiter .braceRight
    return body
  | some _ =>
    let e ← applicationRule g
    resultTyped (← pipeline g e g.rounds)

/-- An operand, with a `not` or a minus before it. -/
def operandRule (g : Grammar) : ParseM Expr := do
  let position ← here
  if ← acceptKeyword .not then
    return .prim { type := .bool, position } .not (literalExpr position (.bool false))
      (← tightRule g)
  else if ← acceptDelimiter .minus then
    return .prim { type := .int, position } .minus (literalExpr position (.int 0)) (← tightRule g)
  else tightRule g

/-- The operator that the next token stands for, if it can stand between two operands and binds at
least as tightly as `min`. -/
def nextOperator? (min : Nat) : ParseM (Option Operator) := do
  return ((← peekLexeme).bind Lexeme.operator?).filter (Operator.isBinary min)

/-- The operators and operands that follow `left`. -/
def operatorsFrom (g : Grammar) (min : Nat) (position : Option Position) (left : Expr) :
    Nat → ParseM Expr
  | 0 => throw .tooDeep
  | rounds + 1 => do
    match ← nextOperator? min with
    | none => return left
    | some op =>
      advance
      let right ← g.operators (op.precedence + 1)
      operatorsFrom g min position (.prim { position } op left right) rounds

def operatorsRule (g : Grammar) (min : Nat) : ParseM Expr := do
  let position ← here
  let left ← operandRule g
  operatorsFrom g min position left g.rounds

/-! ## Control -/

/-- A block in braces, which have to stand. -/
def blockRule (g : Grammar) : ParseM Expr := do
  expect .braceLeft
  let body ← g.expression
  expect .braceRight
  return body

def branchRule (g : Grammar) : ParseM Expr := do
  let position ← here
  let condition ← g.simple
  let yes ← blockRule g
  if ← acceptKeyword .else then
    let no ← blockRule g
    let type := (no.note?.map (·.type)).getD .none
    return .branch { type, position } condition yes (some no)
  else return .branch { type := .none, position } condition yes none

/-- The statements after a semicolon, if there is one. -/
def restRule (g : Grammar) : ParseM (Option Expr) := do
  if ← acceptDelimiter .semicolon then return some (← g.expression)
  else return none

def loopRule (g : Grammar) : ParseM Expr := do
  let position ← here
  let name ← expectIdent
  let _ ← acceptKeyword .in
  let iterable ← g.simple
  let _ ← acceptDelimiter .braceLeft
  let body ← g.expression
  let _ ← acceptDelimiter .braceRight
  return .loop { type := .none, position } name iterable body (← restRule g)

def valuePattern (g : Grammar) (position : Option Position) : ParseM (Pattern Expr) := do
  match ← literalRule g with
  | .range note start stop => return .range note start stop
  | .literal note l =>
    if ← acceptDelimiter .pipe then
      let first ← literalOf (.literal note l)
      let second ← literalOf (← literalRule g)
      let more ← followers g .pipe do literalOf (← literalRule g)
      return .literals (first :: second :: more)
    else return .literal (some l)
  | _ =>
    report "Invalid pattern" position
    return .missing

def patternRule (g : Grammar) : ParseM (Pattern Expr) := do
  let position ← here
  match ← peekLexeme with
  | none => throw (.missing .tokenKind)
  | some (.ident "_") =>
    advance
    return .any
  | some (.ident name) =>
    advance
    let type ← denotedType g
    if ← acceptKeyword .if then return .type name type (some (← g.simple))
    else return .type name type none
  | some (.value _) => valuePattern g position
  | some _ =>
    report "Invalid pattern" position
    return .missing

def caseRule (g : Grammar) : ParseM (Pattern Expr × Expr) := do
  let _ ← acceptKeyword .case
  let pattern ← patternRule g
  let _ ← acceptDelimiter .caseArrow
  return (pattern, ← g.simple)

def casesRule (g : Grammar) : ParseM Expr := do
  let position ← here
  let subject ← atomRule g
  let _ ← acceptDelimiter .braceLeft
  let first ← caseRule g
  let more ← followers g .comma (caseRule g)
  let _ ← acceptDelimiter .braceRight
  return .cases { type := ← typeOf first.2, position } subject (first :: more)

def parameterRule (g : Grammar) : ParseM Parameter := do
  let position ← here
  let name ← expectIdent
  return { name, type := ← denotedType g, position }

/-- What follows the bar that opens the parameters of a function. -/
def lambdaRule (g : Grammar) : ParseM Expr := do
  let position ← here
  let parameters ← upTo g .pipe (parameterRule g)
  let _ ← acceptDelimiter .arrow
  let result ← typeRule g
  let _ ← acceptDelimiter .braceLeft
  let body ← g.expression
  let _ ← acceptDelimiter .braceRight
  return .lambda { type := .func (parameters.map (·.type)) result, position }
    parameters result body

def setAlias (name : Option String) (t : TypeRef) : ParseM Unit :=
  modify fun s => { s with
    aliases :=
      if s.aliases.any (·.1 == name) then
        s.aliases.map fun a => if a.1 == name then (name, t) else a
      else s.aliases ++ [(name, t)] }

def aliasRule (g : Grammar) : ParseM Expr := do
  let position ← here
  let name ← expectIdent
  let _ ← acceptDelimiter .assign
  let aliased ← typeRule g
  setAlias name aliased
  let rest := (← restRule g).getD .missing
  return .typeAlias { type := ← typeOf rest, position } name aliased rest

/-- A collection, which another one may follow that it is joined with. -/
def joinedRule (g : Grammar) : ParseM Expr := do
  let left ← collectionRule g
  if ← acceptDelimiter .concat then
    let right ← tightRule g
    return .prim { position := ← here } .concat left right
  else return left

def simpleRule (g : Grammar) : ParseM Expr := do
  match ← peekLexeme with
  | none => return .unknown {}
  | some (.keyword .if) => do advance; branchRule g
  | some (.keyword .for) => do advance; loopRule g
  | some (.delimiter .bracketLeft) => do advance; joinedRule g
  | some (.delimiter .schema) => do advance; schemaRule g
  | some (.keyword .match) => do advance; casesRule g
  | some (.delimiter .pipe) => do advance; lambdaRule g
  | some (.keyword .typeAlias) => do advance; aliasRule g
  | some _ => operatorsRule g 0

/-! ## Statements -/

def binderRule (g : Grammar) : ParseM (Option (String × TypeRef)) := do
  match ← expectIdent with
  | none => return none
  | some name =>
    if ← acceptDelimiter .denote then return some (name, ← typeRule g)
    else return some (name, .unknown)

/-- More names, each after a comma; `none` if one is missing. -/
def bindersRule (g : Grammar) : Nat → ParseM (Option (List (String × TypeRef)))
  | 0 => throw .tooDeep
  | rounds + 1 => do
    if ← acceptDelimiter .comma then
      match ← binderRule g with
      | none => return none
      | some b => return (← bindersRule g rounds).map (b :: ·)
    else return some []

/-- What `let` binds its names to, and what follows. -/
def bindRule (g : Grammar) (position : Option Position) (first : String × TypeRef)
    (more : List (String × TypeRef)) : ParseM Expr := do
  let type ←
    if more.isEmpty then pure first.2
    else makeType (·.addTuple (first.2 :: more.map (·.2)))
  let _ ← acceptDelimiter .assign
  let bound ← simpleRule g
  let rest ← restRule g
  if let some (.unknown _) := rest then
    report "Valid expression required after ';'" position
  let restType := ((rest.bind Expr.note?).map (·.type)).getD .dangling
  return .bind { type := restType, position } (first.1 :: more.map (·.1)) type bound rest

def letRule (g : Grammar) : ParseM Expr := do
  let position ← here
  match ← binderRule g with
  | none => return .missing
  | some first =>
    match ← bindersRule g g.rounds with
    | none => return .missing
    | some more => bindRule g position first more

def expressionRule (g : Grammar) : ParseM Expr := do
  match ← peekLexeme with
  | none => return .unknown {}
  | some (.keyword .let) => do advance; letRule g
  | some _ =>
    let e ← simpleRule g
    if ← acceptDelimiter .semicolon then
      let position ← placeOf e
      let name ← dummy
      let type ← typeOf e
      let rest ← g.expression
      return .bind { type := ← typeOf rest, position } [name] type e (some rest)
    else return e

/-! ## All rules -/

/-- One level of nesting on top of the rules `g`. -/
def Grammar.step (g : Grammar) : Grammar where
  expression := expressionRule g
  simple := simpleRule g
  operators := operatorsRule g
  literal := literalRule g
  type := typeRule g
  rounds := g.rounds + 1
  patient := g.patient

/-- The rules that nest no deeper. -/
def Grammar.base (patient : Bool) : Grammar where
  expression := throw .tooDeep
  simple := throw .tooDeep
  operators := fun _ => throw .tooDeep
  literal := throw .tooDeep
  type := throw .tooDeep
  rounds := 1
  patient := patient

/-- The rules that may nest `n` levels deep. -/
def grammar (patient : Bool) : Nat → Grammar
  | 0 => .base patient
  | n + 1 => (grammar patient n).step

end TableScript.Parser
