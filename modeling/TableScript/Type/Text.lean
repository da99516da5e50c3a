import TableScript.Fault
import TableScript.Type.Shape

/-!
The text of types. A type of which a part is not written has no text, nor has a function type
without parameters.
-/

namespace TableScript.Shape

variable {ι : Type}

mutual

def text : Shape ι → Except Fault String
  | any => return "any"
  | unknown => return "unknown"
  | literal => return "literal"
  | iterable => return "iterable"
  | int => return "int"
  | bool => return "bool"
  | char => return "char"
  | none => return "none"
  | string => return "string"
  | list a => do return "list[" ++ (← text a) ++ "]"
  | dict a b => do
    let key ← text a
    return "dict[" ++ key ++ ":" ++ (← text b) ++ "]"
  | union _ as => do return "union[" ++ ", ".intercalate (← texts as) ++ "]"
  | tuple _ as => do return "tuple[" ++ ", ".intercalate (← texts as) ++ "]"
  | schema _ as => do return "schema[" ++ ", ".intercalate (← texts as) ++ "]"
  | table _ as => do return "table[schema[" ++ ", ".intercalate (← texts as) ++ "]]"
  | func as a => do
    let parameters ← texts as
    if parameters.isEmpty then throw .emptyJoin
    return "(" ++ ", ".intercalate parameters ++ ") -> " ++ (← text a)
  | absent => throw (.missing .text)
  | .dangling => throw .danglingType

def texts : List (Shape ι) → Except Fault (List String)
  | [] => return []
  | a :: as => do
    let first ← text a
    return first :: (← texts as)

end

/-- The message about a type `a` that does not go with the expected type `b`. -/
def mismatch (a b : Shape ι) : Except Fault String := do
  let found ← a.text
  return "Type mismatch: " ++ found ++ " vs. " ++ (← b.text)

end TableScript.Shape
