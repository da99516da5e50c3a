import TableScript.Primitive.Io
import TableScript.Script
import TableScript.Shell.Options
import TableScript.Shell.Prompt

/-!
The command line: a program in a file is run, or programs are typed at a prompt.

`Shell.run` does what the options ask for, on a machine whose input is what is typed. A fault is
reported and ends it; where the run goes on for ever, there is no report.
-/

namespace TableScript.Shell

abbrev ShellM (α : Type) := ExceptT Fault (StateM Machine) α

def display (f : Console → Console) : ShellM Unit :=
  modify fun m => { m with console := f m.console }

def runText (debugging : Bool) (text : String) : ShellM (Option Ref) :=
  ExceptT.mk fun m => execute debugging text m

/-! ## Programs in files -/

def ending : String := ".petl"

/-- Runs the program in a file. A file without a text is no program. -/
def runFile (debugging : Bool) (file : String) : ShellM Unit := do
  if ending.toList.isSuffixOf file.toList then
    let disk := (← get).disk
    match disk.read (disk.homePath.join (Path.ofString file)) with
    | .error f => display (·.error ("File exception: " ++ f.message))
    | .ok raw =>
      let text := Text.unifyNewlines raw
      display (·.debugBlock "RAW SCRIPT" fun _ => text)
      if text.isEmpty then return
      let _ ← runText debugging text
  else
    display (·.error ("Petl script " ++ file ++ " requires extension \x1b[3m" ++
      ending ++ "\x1b[0m"))

/-! ## Programs at the prompt -/

/-- Shows a result, unless it is none. -/
def showResult : Option Ref → ShellM Unit
  | none => return
  | some r => do
    let store := (← get).store
    match store.content r with
    | .none => return
    | _ =>
      match store.text r with
      | .ok shown => display (·.printLine shown)
      | .error f => throw f

/-- Carries a response out. Does the prompt go on after it? -/
def respond (debugging : Bool) : Response → ShellM Bool
  | .nothing => return true
  | .leave => do
    display (·.printLine "Quitting REPL...")
    return false
  | .tell text => do
    display (·.printLine (Prompt.colour ++ text ++ Prompt.plainColour))
    return true
  | .offer entry => do
    display (·.print (Prompt.banner (entry ++ " - ")))
    return true
  | .run program => do
    showResult (← runText debugging program)
    return true
  | .fault f => throw f

def nextLine : ShellM String := do
  match Primitive.splitLine (← get).input with
  | none => throw .endOfInput
  | some (line, rest) =>
    modify fun m => { m with input := rest }
    return String.ofList line

/-- Follows at most as many lines as the first argument says. -/
def followLines (debugging : Bool) : Nat → Prompt → ShellM Unit
  | 0, _ => throw .endOfInput
  | n + 1, prompt => do
    if prompt.offered.isNone then display (·.print (Prompt.banner ""))
    let (response, prompt) := prompt.step (← nextLine)
    if ← respond debugging response then followLines debugging n prompt

def title : String :=
  let rule := String.ofList (List.replicate 9 '=')
  rule ++ "\nPetl REPL\n" ++ rule

/-- Follows what is typed. A line takes a character of the input at least, so the input bounds
their number. -/
def runPrompt (debugging : Bool) : ShellM Unit := do
  display (·.printLine title)
  followLines debugging ((← get).input.length + 1) {}

def run (o : Options) (m : Machine) : Machine :=
  let m := { m with console := m.console.restart o.debugging }
  let act := match o.file with
    | none => runPrompt o.debugging
    | some file => runFile o.debugging file
  match act.run m with
  | (.ok (), m) => m
  | (.error f, m) =>
    if f.ends then { m with console := m.console.errorFault "Unhandled exception occurred: " f }
    else m

end TableScript.Shell
