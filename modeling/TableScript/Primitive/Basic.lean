import TableScript.Eval.Machine

/-!
What the built-in functions share. A built-in function finds its arguments in the scope, under the
names of its parameters.
-/

namespace TableScript.Primitive

open EvalM

/-- The evaluation of an expression where a type is expected. -/
abbrev Evaluator := Expr → TypeRef → EvalM Ref

def argument (name : String) (position : Option Position) : EvalM Ref :=
  lookup name name position

def argumentContent (name : String) (position : Option Position) : EvalM Content := do
  content (← argument name position)

/-- The content of a value as a text, if it is a text. A collection has no content. -/
def textContent? (r : Ref) : EvalM (Option String) := do
  match ← content r with
  | .char s => return some s
  | .string s => return some s
  | .int _ => return none
  | .bool _ => return none
  | .none => return none
  | .entry _ _ => fault (.entry .content)
  | _ => fault .noContent

/-- A parameter for each value; it is an error if there are too few. An entry of a dictionary is
taken as a tuple of its key and its value. -/
def bindParameters (scope : Scope Ref TypeRef) :
    List (String × TypeRef) → List Ref → EvalM (Scope Ref TypeRef)
  | _, [] => return scope
  | [], _ :: _ => fault .outOfRange
  | (name, _) :: parameters, r :: rest => do
    match ← content r with
    | .entry k v =>
      let keyType ← typeOf k
      let valueType ← typeOf v
      let type ← makeType (·.addTuple [keyType, valueType])
      let pair ← newTuple type [k, v]
      bindParameters (scope.add name pair) parameters rest
    | _ => bindParameters (scope.add name r) parameters rest

/-- The value of a function's body on values, in a scope. -/
def callWith (eval : Evaluator) (c : Closure) (scope : Scope Ref TypeRef) (values : List Ref)
    (expected : TypeRef) : EvalM Ref := do
  let scope ← bindParameters scope c.parameters values
  inScope scope (eval c.body expected)

end TableScript.Primitive
