import TableScript.Token.Builtin
import TableScript.Type.Shape

/-!
Values as trees. A value has a type of its own beside what it is: a fold gives its result the type
of its function's result, whatever the result is.
-/

namespace TableScript

inductive Value where
  | int (type : Ty) (n : Int)
  | bool (type : Ty) (b : Bool)
  | char (type : Ty) (s : String)
  | string (type : Ty) (s : String)
  | none (type : Ty)
  | list (type : Ty) (elements : List Value)
  | tuple (type : Ty) (elements : List Value)
  | dict (type : Ty) (entries : List (Value × Value))
  | schema (type : Ty) (columns : List (String × Ty))
  | table (type : Ty) (schemaType : Ty) (columns : List (String × Ty)) (rows : List Value)
  | func (type : Ty) (builtin : Option Builtin) (parameters : List (String × Ty))
  /-- An entry of a dictionary by itself, which has no type. -/
  | entry (key value : Value)
  deriving Inhabited, Repr

namespace Value

def type? : Value → Option Ty
  | int t _ | bool t _ | char t _ | string t _ | none t | list t _ | tuple t _ | dict t _
  | schema t _ | table t _ _ _ | func t _ _ => some t
  | entry _ _ => Option.none

mutual

/-- Are two values the same? Collections are compared in pairs, up to the end of the shorter one;
schemas, tables and functions are the same as nothing. -/
def same : Value → Value → Bool
  | int _ m, int _ n => m == n
  | bool _ a, bool _ b => a == b
  | char _ s, char _ t => s == t
  | string _ s, string _ t => s == t
  | none _, none _ => true
  | list _ as, list _ bs => sameAll as bs
  | tuple _ as, tuple _ bs => sameAll as bs
  | dict _ as, dict _ bs => sameEntries as bs
  | _, _ => false

def sameAll : List Value → List Value → Bool
  | a :: as, b :: bs => same a b && sameAll as bs
  | _, _ => true

def sameEntries : List (Value × Value) → List (Value × Value) → Bool
  | (a, b) :: as, (c, d) :: bs => same a c && same b d && sameEntries as bs
  | _, _ => true

end

end Value

end TableScript
