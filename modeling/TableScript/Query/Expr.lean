import TableScript.Query.Token
import TableScript.Query.Type

/-!
Expressions of queries.
-/

namespace TableScript.Query

inductive Operator where
  | plus | minus | times | divide | modulo
  | greater | less | greaterEq | lessEq | equal | notEqual
  | not | and | or | in
  deriving DecidableEq, Inhabited, Repr

namespace Operator

def text : Operator → String
  | plus => "+"
  | minus => "-"
  | times => "*"
  | divide => "/"
  | modulo => "%"
  | greater => ">"
  | less => "<"
  | greaterEq => ">="
  | lessEq => "<="
  | equal => "=="
  | notEqual => "!="
  | not => "not"
  | and => "and"
  | or => "or"
  | .in => "in"

def isInfix : Operator → Bool
  | not => false
  | _ => true

def precedence : Operator → Nat
  | and | or => 0
  | plus | minus | .in => 2
  | times | divide | modulo => 3
  | _ => 1

end Operator

def Token.operator? : Token → Option Operator
  | .delimiter .plus => some .plus
  | .delimiter .minus => some .minus
  | .delimiter .times => some .times
  | .delimiter .divide => some .divide
  | .delimiter .modulo => some .modulo
  | .delimiter .greater => some .greater
  | .delimiter .less => some .less
  | .delimiter .greaterEq => some .greaterEq
  | .delimiter .lessEq => some .lessEq
  | .delimiter .equal => some .equal
  | .delimiter .notEqual => some .notEqual
  | .keyword .not => some .not
  | .keyword .and => some .and
  | .keyword .or => some .or
  | .keyword .in => some .in
  | _ => none

inductive Literal where
  | int (n : Int)
  | bool (b : Bool)
  | char (s : String)
  | string (s : String)
  deriving DecidableEq, Inhabited, Repr

def Literal.type : Literal → Ty
  | .int _ => .int
  | .bool _ => .bool
  | .char _ => .char
  | .string _ => .string

inductive Expr where
  /-- Where an expression is due and none stands. -/
  | unknown
  | literal (value : Literal)
  /-- An operator between two operands. A leading `not` or minus takes `false` or zero as its left
  operand, and notes the type that this makes it. -/
  | prim (type : Ty) (op : Operator) (left right : Expr)
  | ref (name : String)
  | range (start stop : Literal)
  deriving DecidableEq, Inhabited, Repr

/-- The type that the text of an expression shows without evaluating it. -/
def Expr.type : Expr → Ty
  | .unknown => .unknown
  | .literal l => l.type
  | .prim t _ _ _ => t
  | .ref _ => .unknown
  | .range _ _ => .int

end TableScript.Query
