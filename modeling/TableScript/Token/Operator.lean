/-!
Operators of expressions, with the precedence that groups them.
-/

namespace TableScript

inductive Operator where
  | plus | minus | times | divide | modulo
  | greater | less | greaterEq | lessEq | equal | notEqual
  | not | and | or
  | concat
  deriving DecidableEq, Inhabited, Repr

namespace Operator

def text : Operator → String
  | plus => "+"
  | minus => "-"
  | times => "*"
  | divide => "/"
  | modulo => "%"
  | greater => ">"
  | less => "<"
  | greaterEq => ">="
  | lessEq => "<="
  | equal => "=="
  | notEqual => "!="
  | not => "not"
  | and => "and"
  | or => "or"
  | concat => "++"

/-- Computes a number or a text from two operands. -/
def isArithmetic : Operator → Bool
  | plus | minus | times | divide | modulo => true
  | _ => false

/-- Computes a truth value from two operands. -/
def isBoolean : Operator → Bool
  | greater | less | greaterEq | lessEq | equal | notEqual | and | or => true
  | _ => false

/-- Joins two collections. -/
def isCollection : Operator → Bool
  | concat => true
  | _ => false

def precedence : Operator → Nat
  | and | or => 0
  | plus | minus | concat => 2
  | times | divide | modulo => 3
  | _ => 1

/-- Can the operator stand between two operands where at least precedence `min` is wanted? -/
def isBinary (min : Nat) (op : Operator) : Bool :=
  (op.isArithmetic || op.isBoolean || op.isCollection) && min ≤ op.precedence

end Operator

end TableScript
