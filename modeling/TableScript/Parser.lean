import TableScript.Parser.Grammar

/-!
Reading programs: the expression that a list of tokens stands for.
-/

namespace TableScript

/-- Reads the expression that tokens start with by the rules of a grammar. The result comes with
what was printed on the way, and with the number of tokens that were read. -/
def parseBy (g : Parser.Grammar) (debugging : Bool) (tokens : List Token) (types : TypeStore)
    (console : Console) : Except Fault Expr × ParseState :=
  let start : ParseState := { rest := tokens, types, console := console.restart debugging }
  let (result, s) := (g.expression.run).run start
  match result with
  | .ok root =>
    if root.note?.isSome then
      (.ok root, { s with
        console := s.console.debugBlock "PARSED EXPRESSION" fun _ => toString (repr root) })
    else (.ok root, s)
  | .error f => (.error f, s)

/-- Reads the expression that tokens start with. -/
def parse (debugging : Bool) (tokens : List Token) (types : TypeStore) (console : Console) :
    Except Fault Expr × ParseState :=
  parseBy (Parser.grammar false (tokens.length + 2)) debugging tokens types console

end TableScript
