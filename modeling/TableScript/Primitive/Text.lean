import TableScript.Primitive.Basic
import TableScript.Text.Case
import TableScript.Text.Numeral

/-!
Built-in functions on texts.
-/

namespace TableScript.Primitive

open EvalM

/-- The part of a text between two positions, the second one excluded. -/
def runSubstr (position : Option Position) : EvalM Ref := do
  let whole ← argumentContent "string_value" position
  let start ← argumentContent "start" position
  let stop ← argumentContent "end" position
  match whole, start, stop with
  | .string s, .int a, .int b =>
    let n := s.length
    if a < 0 ∨ b < 0 ∨ n ≤ a ∨ n ≤ b ∨ b < a then
      report "Invalid substr range value(s)" position
    else newString (String.ofList ((s.toList.take b.toNat).drop a.toNat))
  | _, _, _ => newNone

def runToStr (position : Option Position) : EvalM Ref := do
  newString (← text (← argument "v" position))

/-- The texts of the elements of a list, with a text between them. -/
def runJoinStr (position : Option Position) : EvalM Ref := do
  let list ← argumentContent "v" position
  let joiner ← argumentContent "joiner" position
  match list, joiner with
  | .list place, .string j =>
    let texts ← (← sequence place).mapM text
    newString (j.intercalate texts)
  | _, _ => fault (.missing .type)

def runChange (f : String → String) (position : Option Position) : EvalM Ref := do
  match ← argumentContent "s" position with
  | .string s => newString (f s)
  | _ => newNone

def runTest (f : List Char → List Char → Bool) (position : Option Position) : EvalM Ref := do
  let first ← argumentContent "s1" position
  let second ← argumentContent "s2" position
  match first, second with
  | .string s, .string t => newBool (f s.toList t.toList)
  | _, _ => newBool false

def runToInt (position : Option Position) : EvalM Ref := do
  match ← argumentContent "s" position with
  | .string s =>
    match Text.readNumeral s with
    | .ok n => newInt n
    | .error problem => fault (.notNumeral s problem)
  | _ => newNone

end TableScript.Primitive
