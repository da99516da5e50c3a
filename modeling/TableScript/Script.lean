import TableScript.Eval
import TableScript.Parser
import TableScript.Text.Ansi
import TableScript.Token.Scan

/-!
Running program texts.

* `execute` reads a program and runs it on a machine, which keeps its names and files;
* `executeDirect` runs it on names of its own and answers with a text: what was printed, and the
  result unless it is none.

A program that cannot be read prints why and has no result. What breaks down outside of the run, in
reading the program or in showing its result, is a fault, and so is a run that goes on for ever.
-/

namespace TableScript

def Machine.initial : Machine :=
  { store := { types := Library.full.types } }

/-- Lets the words of the built-in functions stand for them, in the order in which they were first
named. The order matters only where two of them have the same word, `len` and `isEmpty`; then it is
settled here what is a matter of chance otherwise. -/
def loadBuiltins (bs : List Builtin) (m : Machine) : Machine :=
  bs.foldl (fun m b =>
    let (r, store) := m.store.add
      ⟨b.signature.type, .func
        { builtin := some b, parameters := b.signature.parameters, body := .unknown {},
          scope := {} }⟩
    { m with store, scope := m.scope.add b.name r }) m

/-- Runs an expression with the built-in functions that it names. -/
def runProgram (debugging : Bool) (root : Expr) (builtins : List Builtin) (m : Machine) :
    Except Fault (Option Ref) × Machine :=
  let m := { m with console := m.console.restart debugging, depth := 0, trace := [] }
  match (EvalM.interpret root).run (loadBuiltins builtins m) with
  | (.error f, m) => (.error f, m)
  | (.ok r, m) =>
    match m.store.text r with
    | .ok shown => (.ok (some r), { m with console := m.console.debug ("DEBUG: " ++ shown) })
    | .error f => (.error f, m)

/-- Is there an expression at all? -/
def isProgram : Expr → Bool
  | .missing => false
  | .unknown _ => false
  | _ => true

/-- Reads and runs a program. There is no result if the program cannot be read. -/
def execute (debugging : Bool) (text : String) (m : Machine) :
    Except Fault (Option Ref) × Machine :=
  let (tokens, console) := scan debugging text m.console
  let m := { m with console }
  match tokens with
  | none => (.ok none, m)
  | some tokens =>
    if m.console.hasErrors then (.ok none, m)
    else
      let (parsed, s) := parse debugging tokens m.store.types m.console
      let m := { m with console := s.console, store := { m.store with types := s.types } }
      match parsed with
      | .error f => (.error f, m)
      | .ok root =>
        if m.console.hasErrors || !isProgram root then (.ok none, m)
        else runProgram debugging root s.builtins m

/-- Reads and runs a program on names of its own. The result is a text: what was printed, without
colours, and the value. -/
def executeDirect (text : String) (m : Machine) : Except Fault Transcript × Machine :=
  let outer := m.console
  let (result, after) := execute false text { m with scope := {}, console := {} }
  let printed := after.console.transcript.mapText Text.stripAnsi
  let m := { after with scope := m.scope, console := outer }
  match result with
  | .error f => (.error f, m)
  | .ok none => (.error (.missing .text), m)
  | .ok (some r) =>
    match after.store.content r with
    | .none => (.ok printed, m)
    | _ =>
      match after.store.text r with
      | .ok shown => (.ok (printed.add shown), m)
      | .error f => (.error f, m)

end TableScript
