import TableScript.Query.Expr
import TableScript.Text.Numeral

/-!
The grammar of queries. Operators are grouped by precedence; an opening parenthesis at the start of
an expression is passed over, so that the expression inside it is all that is read.

A rule never fails on what it does not know: it stops, and the tokens that are left are not looked
at. The rules call each other, always after at least one token; `grammar n` are the rules that may
nest `n` levels deep, and a list of tokens has no deeper nesting than tokens.
-/

namespace TableScript.Query

inductive ParseError where
  /-- A literal is due where the tokens end. -/
  | noToken
  /-- A range does not end in a literal; `last` if nothing follows. -/
  | expectedLiteral (last : Bool)
  /-- A numeric word that is no numeral. -/
  | notNumeral (text : String) (problem : Text.NumeralProblem)
  /-- The rules nest deeper than allowed. -/
  | tooDeep
  deriving DecidableEq, Repr

/-- The tokens that are left, and how many are read. -/
structure ParseState where
  rest : List Token
  used : Nat := 0

abbrev Rule (α : Type) := StateT ParseState (Except ParseError) α

def peek : Rule (Option Token) := do
  return (← get).rest.head?

def advance : Rule Unit :=
  modify fun s => { rest := s.rest.tail, used := s.used + 1 }

def accept (t : Token) : Rule Bool := do
  if (← peek) = some t then
    advance
    return true
  else return false

/-- The rules that call each other. -/
structure Grammar where
  /-- An expression, after any number of opening parentheses. -/
  simple : Rule Expr
  /-- Operands joined by operators of at least the given precedence. -/
  operators : Nat → Rule Expr
  /-- A literal or a range. -/
  literal : Rule Expr

/-- The literal of an expression that is one. -/
def literalOf (e : Expr) : Rule Literal := do
  match e with
  | .literal l => return l
  | _ => throw (.expectedLiteral (← peek).isNone)

/-- A quoted value as a literal: one character between apostrophes is a character, and so is an
escape of one letter. -/
def quotedLiteral (text : String) : Literal :=
  match text.toList with
  | '\'' :: rest =>
    let content := Text.without '\'' text
    if rest.length = 2 then .char content
    else if rest.head? = some '\\' ∧ rest.length = 3 then .char content
    else .string content
  | _ => .string (Text.without '"' text)

def literalRule (g : Grammar) : Rule Expr := do
  let token ← peek
  if ← accept (.keyword .true) then return .literal (.bool true)
  else if ← accept (.keyword .false) then return .literal (.bool false)
  else
    match token with
    | none => throw .noToken
    | some (.value text) =>
      if text.toList.head? = some '\'' ∨ text.toList.head? = some '"' then
        advance
        return .literal (quotedLiteral text)
      else
        match Text.readNumeral text with
        | .error problem => throw (.notNumeral text problem)
        | .ok n =>
          advance
          if ← accept (.delimiter .range) then
            return .range (.int n) (← literalOf (← g.literal))
          else return .literal (.int n)
    | some _ => return .unknown

def atomRule (g : Grammar) : Rule Expr := do
  match ← peek with
  | none => return .unknown
  | some (.ident name) =>
    advance
    return .ref name
  | some _ => literalRule g

def tightRule (g : Grammar) : Rule Expr := do
  if ← accept (.delimiter .parenLeft) then
    let body ← g.simple
    let _ ← accept (.delimiter .parenRight)
    return body
  else atomRule g

/-- An operand, with a `not` or a minus before it. -/
def operandRule (g : Grammar) : Rule Expr := do
  if ← accept (.keyword .not) then
    return .prim .bool .not (.literal (.bool false)) (← tightRule g)
  else if ← accept (.delimiter .minus) then
    return .prim .int .minus (.literal (.int 0)) (← tightRule g)
  else tightRule g

/-- The operator that the next token stands for, if it binds at least as tightly as `min`. -/
def nextOperator? (min : Nat) : Rule (Option Operator) := do
  return ((← peek).bind Token.operator?).filter fun op => op.isInfix && min ≤ op.precedence

/-- The operators and operands that follow `left`; each round reads a token, so `rounds` is at most
the number of tokens left. -/
def operatorsFrom (g : Grammar) (min : Nat) (left : Expr) : Nat → Rule Expr
  | 0 => return left
  | rounds + 1 => do
    match ← nextOperator? min with
    | none => return left
    | some op =>
      advance
      let right ← g.operators (op.precedence + 1)
      operatorsFrom g min (.prim .unknown op left right) rounds

def operatorsRule (g : Grammar) (min : Nat) : Rule Expr := do
  let left ← operandRule g
  operatorsFrom g min left (← get).rest.length

def simpleRule (g : Grammar) : Rule Expr := do
  if ← accept (.delimiter .parenLeft) then g.simple
  else if (← peek).isSome then operatorsRule g 0
  else return .unknown

/-- One level of nesting on top of the rules `g`. -/
def Grammar.step (g : Grammar) : Grammar where
  simple := simpleRule g
  operators := operatorsRule g
  literal := literalRule g

/-- The rules that may nest `n` levels deep. -/
def grammar : Nat → Grammar
  | 0 => ⟨throw .tooDeep, fun _ => throw .tooDeep, throw .tooDeep⟩
  | n + 1 => (grammar n).step

/-- The expression that tokens start with, and the number of tokens that were read. -/
def parse (tokens : List Token) : Except ParseError (Expr × Nat) := do
  let (e, s) ← (grammar (tokens.length + 2)).simple.run { rest := tokens }
  return (e, s.used)

end TableScript.Query
