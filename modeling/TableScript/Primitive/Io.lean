import TableScript.Primitive.Basic
import TableScript.Text.Escape

/-!
Reading lines, printing, the types of values, and random numbers.
-/

namespace TableScript.Primitive

open EvalM

/-- The first line of a text and what follows it; `none` at the end. -/
def splitLine : List Char → Option (List Char × List Char)
  | [] => none
  | cs => some (cs.takeWhile (· != '\n'), (cs.dropWhile (· != '\n')).tail)

def readLine : EvalM String := do
  match splitLine (← get).input with
  | none => fault .endOfInput
  | some (line, rest) =>
    modify fun m => { m with input := rest }
    return String.ofList line

def runReadln : EvalM Ref := do
  newString (← readLine)

/-- Prints a value, with its escapes resolved, and `after` after it. -/
def runPrint (after : String) (position : Option Position) : EvalM Ref := do
  let shown ← text (← argument "value" position)
  match Text.unescape shown with
  | none => fault .badEscape
  | some codes =>
    printCodes codes
    print after
    newNone

def runType (position : Option Position) : EvalM Ref := do
  newString (← typeText (← typeOf (← argument "value" position)))

def runRand (position : Option Position) : EvalM Ref := do
  let lower ← argumentContent "lower" position
  let upper ← argumentContent "upper" position
  match lower, upper with
  | .int a, .int b =>
    if b < a then fault .emptyRange
    else
      let n ← modifyGet fun m =>
        let (n, random) := randNat m.random 0 (b - a).toNat
        (n, { m with random })
      newInt (a + n)
  | _, _ => newNone

end TableScript.Primitive
