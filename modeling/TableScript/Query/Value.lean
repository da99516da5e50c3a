import TableScript.Query.Expr

/-!
Values of queries: the contents of single cells, and ranges.
-/

namespace TableScript.Query

inductive Value where
  | int (n : Int)
  | bool (b : Bool)
  | char (s : String)
  | string (s : String)
  | range (start stop : Int)
  deriving DecidableEq, Inhabited, Repr

namespace Value

def type : Value → Ty
  | int _ => .int
  | bool _ => .bool
  | char _ => .char
  | string _ => .string
  | range _ _ => .range

def text : Value → String
  | int n => toString n
  | bool b => if b then "true" else "false"
  | char s => s
  | string s => s
  | range a b => toString a ++ "~" ++ toString b

/-- Are two values the same? Ranges never are. -/
def same : Value → Value → Bool
  | int m, int n => m == n
  | bool a, bool b => a == b
  | char s, char t => s == t
  | string s, string t => s == t
  | _, _ => false

end Value

/-- The literal that stands for a value. Ranges have none. -/
def Value.literal? : Value → Option Literal
  | .int n => some (.int n)
  | .bool b => some (.bool b)
  | .char s => some (.char s)
  | .string s => some (.string s)
  | .range _ _ => none

def noLiteralMessage : String :=
  "Invalid type for pattern matching on literal value"

def Literal.value : Literal → Value
  | .int n => .int n
  | .bool b => .bool b
  | .char s => .char s
  | .string s => .string s

theorem Value.literal?_eq_some_iff {v : Value} {l : Literal} :
    v.literal? = some l ↔ v = l.value := by
  cases v <;> cases l <;> simp [literal?, Literal.value]

end TableScript.Query
