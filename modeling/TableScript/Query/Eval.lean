import TableScript.Query.Parser
import TableScript.Query.Value
import TableScript.Quotient

/-!
Evaluation of queries over the cells of a row.

* `eval` gives the value of an expression where a type is expected;
* `execute` reads a query and answers it: with a truth value, with no answer if the query is none,
  or with the reason why it has no value.
-/

namespace TableScript.Query

inductive EvalError where
  | typeMismatch (found expected : Ty)
  | unbound (name : String)
  | invalidExpression
  | invalidOperands (op : Operator)
  | negativeBound
  | divisionByZero
  | moduloByZero
  | quotientTooLarge
  /-- The operator gives no value on these operands. -/
  | noValue
  deriving DecidableEq, Repr

def EvalError.message : EvalError → String
  | typeMismatch a b => "Type mismatch: " ++ a.text ++ " vs. " ++ b.text
  | unbound name => "Identifier '" ++ name ++ "' does not exist in this scope"
  | invalidExpression => "Invalid expression found"
  | invalidOperands op => "Invalid types for operator '" ++ op.text ++ "'"
  | negativeBound => "Range bounds cannot be negative"
  | divisionByZero => "division by zero"
  | moduloByZero => "integer modulo by zero"
  | quotientTooLarge => "integer division result too large for a float"
  | noValue => "'NoneType' object has no attribute 'query_type'"

/-- The type that `found` has where `expected` is expected. -/
def conform (found expected : Ty) : Except EvalError Ty :=
  match found.conform? expected with
  | some t => .ok t
  | none => .error (.typeMismatch found expected)

/-- The cells of a row by name. Of two cells of one name the later counts. -/
abbrev Bindings := List (String × Value)

def Bindings.get (bindings : Bindings) (name : String) : Except EvalError Value :=
  match (bindings.reverse).lookup name with
  | some v => .ok v
  | none => .error (.unbound name)

/-- The value of an operator on two numbers, texts or truth values; `none` if it has none. -/
def operate : Operator → Option Value → Option Value → Except EvalError (Option Value)
  | .plus, some (.int a), some (.int b) => .ok (some (.int (a + b)))
  | .plus, some (.char a), some (.char b) => .ok (some (.string (a ++ b)))
  | .plus, some (.string a), some (.string b) => .ok (some (.string (a ++ b)))
  | .plus, some (.char a), some (.string b) => .ok (some (.string (a ++ b)))
  | .plus, some (.string a), some (.char b) => .ok (some (.string (a ++ b)))
  | .minus, some (.int a), some (.int b) => .ok (some (.int (a - b)))
  | .times, some (.int a), some (.int b) => .ok (some (.int (a * b)))
  | .divide, some (.int a), some (.int b) =>
    if b = 0 then .error .divisionByZero
    else match roundedQuotient a b with
      | some q => .ok (some (.int q))
      | none => .error .quotientTooLarge
  | .modulo, some (.int a), some (.int b) =>
    if b = 0 then .error .moduloByZero else .ok (some (.int (Int.fmod a b)))
  | .greater, some (.int a), some (.int b) => .ok (some (.bool (b < a)))
  | .less, some (.int a), some (.int b) => .ok (some (.bool (a < b)))
  | .greaterEq, some (.int a), some (.int b) => .ok (some (.bool (b ≤ a)))
  | .lessEq, some (.int a), some (.int b) => .ok (some (.bool (a ≤ b)))
  | .equal, some a, some b => .ok (some (.bool (a.same b)))
  | .equal, _, _ => .ok (some (.bool false))
  | .notEqual, some a, some b => .ok (some (.bool !(a.same b)))
  | .notEqual, _, _ => .ok (some (.bool true))
  | .and, some (.bool a), some (.bool b) => .ok (some (.bool (a && b)))
  | .or, some (.bool a), some (.bool b) => .ok (some (.bool (a || b)))
  | .in, some (.int n), some (.range a b) => .ok (some (.bool (a ≤ n && n ≤ b)))
  | .in, _, _ => .error (.invalidOperands .in)
  | .not, _, _ => .error (.invalidOperands .not)
  | _, _, _ => .ok none

/-- The value of an expression where a value of type `expected` is due. A range whose bounds are
not both numbers has none. -/
def eval (bindings : Bindings) : Expr → Ty → Except EvalError (Option Value)
  | .unknown, _ => .error .invalidExpression
  | .literal l, expected => do
    let _ ← conform l.type expected
    return some l.value
  | .prim _ op left right, expected => do
    let a ← eval bindings left .unknown
    let b ← eval bindings right .unknown
    match ← operate op a b with
    | none => throw .noValue
    | some v =>
      let _ ← conform v.type expected
      return some v
  | .ref name, expected => do
    let v ← bindings.get name
    let _ ← conform v.type expected
    return some v
  | .range (.int a) (.int b), _ =>
    if a < 0 ∨ b < 0 then .error .negativeBound else .ok (some (.range a b))
  | .range _ _, _ => .ok none

/-- Why a query cannot be put to a row at all. -/
inductive Error where
  | scan (e : ScanError)
  | parse (e : ParseError)
  /-- A cell of a type that queries do not know. -/
  | invalidType (text : String)
  deriving DecidableEq, Repr

def Error.message : Error → String
  | .scan (.unexpected c) => "Unexpected character in query '" ++ String.singleton c ++ "'"
  | .scan .invalid => "Invalid query"
  | .scan (.notDelimiter c) => "'" ++ String.singleton c ++ "' is not a valid QueryDelimiter"
  | .parse .noToken => "'NoneType' object has no attribute 'token_type'"
  | .parse (.expectedLiteral _) => "Expected literal value"
  | .parse (.notNumeral text problem) => problem.message text
  | .parse .tooDeep => "query too deep"
  | .invalidType text => "Invalid type for query: " ++ text

/-- What a query is to a row. -/
inductive Answer where
  /-- A truth value, or nothing if the query is no truth value. -/
  | holds (b : Option Bool)
  | fails (e : EvalError)
  deriving DecidableEq, Repr

def EvalError.report (e : EvalError) : String :=
  "Unhandled exception while interpreting: " ++ e.message

def read (text : String) : Except Error Expr := do
  let tokens ← (scan text).mapError .scan
  let (e, _) ← (parse tokens).mapError .parse
  return e

def answer (bindings : Bindings) (e : Expr) : Answer :=
  match eval bindings e .bool with
  | .ok (some (.bool b)) => .holds (some b)
  | .ok _ => .holds none
  | .error err => .fails err

end TableScript.Query
