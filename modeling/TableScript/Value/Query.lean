import TableScript.Query.Eval
import TableScript.Value.Text

/-!
Queries put to the cells of a row.
-/

namespace TableScript

/-- The value of a query that a cell stands for. Only numbers, truth values and texts are such. -/
def Value.toQuery : Value → Except Fault Query.Value
  | .int _ n => return .int n
  | .bool _ b => return .bool b
  | .char _ s => return .char s
  | .string _ s => return .string s
  | v => do
    match v.type? with
    | some t => throw (.query (.invalidType (← t.text)))
    | Option.none => throw (.entry .type)

def Query.ask (query : String) (cells : List (String × TableScript.Value)) :
    Except Fault Query.Answer := do
  let e ← (Query.read query).mapError .query
  let bindings ← cells.mapM fun c => do return (c.1, ← c.2.toQuery)
  return Query.answer bindings e

end TableScript
