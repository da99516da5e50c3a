/-!
Places in a program text, as messages show them: the line and column, the text of the line, and a
pointer under the column.
-/

namespace TableScript

/-- A place in a program text. Lines and columns count from zero. -/
structure Position where
  line : Int := 0
  column : Int := 0
  lineText : String := ""
  deriving DecidableEq, Inhabited, Repr

/-- The place as it stands in a message; there lines and columns count from one. -/
def Position.text (p : Position) : String :=
  s!"Line: {p.line + 1}, column: {p.column + 1}\n" ++ p.lineText ++ "\n" ++
    String.ofList (List.replicate p.column.toNat '-') ++ "^"

end TableScript
