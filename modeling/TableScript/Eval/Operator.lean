import TableScript.Eval.Machine
import TableScript.Quotient

/-!
Operators on values. An operator that gives no value on its operands is an error.
-/

namespace TableScript.EvalM

def arithmetic (position : Option Position) (op : Operator) (left right : Content) :
    EvalM (Option Content) := do
  match op, left, right with
  | .plus, .int a, .int b => return some (.int (a + b))
  | .plus, .char a, .char b => return some (.string (a ++ b))
  | .plus, .string a, .string b => return some (.string (a ++ b))
  | .plus, .char a, .string b => return some (.string (a ++ b))
  | .plus, .string a, .char b => return some (.string (a ++ b))
  | .minus, .int a, .int b => return some (.int (a - b))
  | .times, .int a, .int b => return some (.int (a * b))
  | .divide, .int a, .int b =>
    if b = 0 then report "Division by zero" position
    else
      match roundedQuotient a b with
      | some q => return some (.int q)
      | none => fault .quotientTooLarge
  | .modulo, .int a, .int b =>
    if b = 0 then fault .moduloByZero else return some (.int (Int.fmod a b))
  | _, _, _ => return none

/-- A truth value from two operands that are not compared for being the same. -/
def comparison (op : Operator) (left right : Content) : Option Bool :=
  match op, left, right with
  | .greater, .int a, .int b => some (decide (b < a))
  | .less, .int a, .int b => some (decide (a < b))
  | .greaterEq, .int a, .int b => some (decide (b ≤ a))
  | .lessEq, .int a, .int b => some (decide (a ≤ b))
  | .and, .bool a, .bool b => some (a && b)
  | .or, .bool a, .bool b => some (a || b)
  | _, _, _ => none

def boolean (op : Operator) (left right : Ref) : EvalM (Option Bool) := do
  match op with
  | .equal => return some (← same left right)
  | .notEqual => return some !(← same left right)
  | _ => return comparison op (← content left) (← content right)

def copySequence (place : Nat) : EvalM (List Ref) := do
  let refs ← sequence place
  make (·.copyAll refs)

def copyMembers (cell : Nat) : EvalM (List TypeRef) := do
  let members := (← store).types.tupleMembers cell
  make (·.copyTypes members)

def concat (position : Option Position) (left right : Ref) : EvalM (Option Ref) := do
  let a ← object left
  let b ← object right
  if ← conforms position a.type b.type then
    match a.content, b.content with
    | .list p, .list q =>
      let first ← copySequence p
      let second ← copySequence q
      return some (← newList a.type (first ++ second))
    | .tuple p, .tuple q =>
      let first ← copySequence p
      let second ← copySequence q
      match a.type, b.type with
      | .tuple c, .tuple d =>
        let firstTypes ← copyMembers c
        let secondTypes ← copyMembers d
        let type ← makeType (·.addTuple (firstTypes ++ secondTypes))
        return some (← newTuple type (first ++ second))
      | _, _ => return none
    | _, _ => return none
  else return none

def operate (position : Option Position) (op : Operator) (left right : Ref) : EvalM Ref := do
  let result ←
    if op.isArithmetic then
      match ← arithmetic position op (← content left) (← content right) with
      | some (.int n) => some <$> newInt n
      | some (.string s) => some <$> newString s
      | _ => pure none
    else if op.isBoolean then
      match ← boolean op left right with
      | some b => some <$> newBool b
      | none => pure none
    else if op.isCollection then concat position left right
    else report "Invalid operator" position
  match result with
  | some r => return r
  | none => report ("Invalid types for operator '" ++ op.text ++ "'") position

end TableScript.EvalM
