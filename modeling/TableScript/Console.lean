import TableScript.Fault

/-!
What a program shows: a transcript of printed text, and a log that keeps the warnings and errors of
the current phase. Warnings and errors are printed in colour when they are logged.

* `Transcript`: text, in which faults and halves of surrogate pairs stand as themselves;
* `Log`: the warnings and errors of a phase;
* `Console`: both.
-/

namespace TableScript

/-- What is printed and is no text. -/
inductive Mark where
  | fault (f : Fault)
  /-- Half of a surrogate pair, which is a code point but no character. -/
  | half (code : Nat)
  deriving DecidableEq, Repr

/-- Printed text. A mark stands between two stretches of text. -/
structure Transcript where
  /-- Stretches of text, each with the mark that follows it. -/
  before : List (String × Mark) := []
  tail : String := ""
  deriving DecidableEq, Inhabited, Repr

namespace Transcript

def add (t : Transcript) (text : String) : Transcript :=
  { t with tail := t.tail ++ text }

def addMark (t : Transcript) (m : Mark) : Transcript :=
  { before := t.before ++ [(t.tail, m)], tail := "" }

/-- Is it the code point of half of a surrogate pair? -/
def isHalf (code : Nat) : Bool :=
  0xD800 ≤ code && code < 0xE000

def addCodes (t : Transcript) : List Nat → Transcript
  | [] => t
  | code :: rest =>
    if isHalf code then (t.addMark (.half code)).addCodes rest
    else { t with tail := t.tail.push (Char.ofNat code) }.addCodes rest

/-- The text of the transcript, with every mark shown by `render`. -/
def text (render : Mark → String) (t : Transcript) : String :=
  String.join (t.before.map fun (s, m) => s ++ render m) ++ t.tail

def mapText (f : String → String) (t : Transcript) : Transcript :=
  { before := t.before.map fun (s, e) => (f s, e), tail := f t.tail }

def append (t u : Transcript) : Transcript :=
  match u.before with
  | [] => t.add u.tail
  | (s, m) :: rest => { before := t.before ++ (t.tail ++ s, m) :: rest, tail := u.tail }

end Transcript

structure Log where
  debugging : Bool := false
  warnings : List String := []
  errors : List String := []
  deriving DecidableEq, Inhabited, Repr

structure Console where
  log : Log := {}
  transcript : Transcript := {}
  deriving DecidableEq, Inhabited, Repr

namespace Console

def warningColour : String := "\x1b[33m"

def errorColour : String := "\x1b[1;31m"

def plainColour : String := "\x1b[0;0m"

def rule : String := String.ofList (List.replicate 20 '=')

def print (c : Console) (text : String) : Console :=
  { c with transcript := c.transcript.add text }

def printCodes (c : Console) (codes : List Nat) : Console :=
  { c with transcript := c.transcript.addCodes codes }

def printLine (c : Console) (text : String) : Console :=
  c.print (text ++ "\n")

def debug (c : Console) (text : String) : Console :=
  if c.log.debugging then c.printLine text else c

/-- Prints a titled block if debugging. The block is made only then. Made every time, it would go
unused: making it neither fails nor changes anything. -/
def debugBlock (c : Console) (title : String) (block : Unit → String) : Console :=
  if c.log.debugging then
    c.printLine (rule ++ "\n" ++ title ++ "\n" ++ rule ++ "\n" ++ block () ++ "\n" ++ rule ++ "\n")
  else c

def warn (c : Console) (text : String) : Console :=
  { c with log := { c.log with warnings := c.log.warnings ++ [text] } }.printLine
    (warningColour ++ text ++ plainColour)

def error (c : Console) (text : String) : Console :=
  { c with log := { c.log with errors := c.log.errors ++ [text] } }.printLine
    (errorColour ++ text ++ plainColour)

/-- Logs an error that shows a fault after its text. -/
def errorFault (c : Console) (text : String) (f : Fault) : Console :=
  { log := { c.log with errors := c.log.errors ++ [text ++ f.message] }
    transcript := ((c.transcript.add (errorColour ++ text)).addMark (.fault f)).add
      (plainColour ++ "\n") }

/-- Starts a phase with an empty log. -/
def restart (c : Console) (debugging : Bool) : Console :=
  { c with log := { debugging } }

def hasErrors (c : Console) : Bool := !c.log.errors.isEmpty

def hasWarnings (c : Console) : Bool := !c.log.warnings.isEmpty

end Console

end TableScript
