import TableScript.Fault
import TableScript.Text.Edit

/-!
The prompt: programs typed line by line, and the history of what was typed.

A line is a command or a part of a program. A line that ends in a backslash or in a semicolon is
followed by more of the program, and loses all its backslashes or semicolons; any other line ends
the program, which is run and kept in the history. Two commands walk through the history and offer
an entry, which an empty line takes up.

`Prompt.step` says what a line does: the response to it, and the prompt after it.
-/

namespace TableScript

inductive Command where
  | quit | help | previous | next | clear | history
  deriving DecidableEq, Inhabited, Repr

namespace Command

/-- All commands, in the order of the help. -/
def all : List Command :=
  [quit, help, previous, next, clear, history]

def word : Command → String
  | quit => "@quit"
  | help => "@help"
  | previous => "@prev"
  | next => "@next"
  | clear => "@clear"
  | history => "@history"

def description : Command → String
  | quit => "Quit the REPL"
  | help => "Display this help message"
  | previous => "Show previous input in history"
  | next => "Show next input in history"
  | clear => "Clear all input history"
  | history => "Display all input history"

def ofLine? (line : String) : Option Command :=
  all.find? (·.word == line)

/-- The help: the commands in a column, and what they do. -/
def helpText : String :=
  "REPL commands:\n" ++ "\n".intercalate
    (all.map fun c => "\t" ++ Text.padRight 8 c.word ++ " - " ++ c.description)

end Command

/-- What has been typed. -/
structure Prompt where
  /-- The programs that were run, the oldest first. -/
  history : List String := []
  /-- The lines of a program whose end has not been typed. -/
  pending : String := ""
  /-- The place in the history from which the walk goes on. -/
  cursor : Nat := 0
  /-- The entry that an empty line takes up. -/
  offered : Option String := none
  deriving DecidableEq, Inhabited, Repr

inductive Response where
  | nothing
  | leave
  /-- A text is shown in the colour of the prompt. -/
  | tell (text : String)
  /-- An entry of the history is offered. -/
  | offer (entry : String)
  | run (program : String)
  | fault (f : Fault)
  deriving DecidableEq, Repr

namespace Prompt

def colour : String := "\x1b[1;33m"

def plainColour : String := "\x1b[00m"

def banner (text : String) : String :=
  "> " ++ colour ++ "\x1b[3m" ++ text ++ plainColour

/-- The prompt that waits for a new line: the walk through the history starts behind its end. -/
def fresh (p : Prompt) : Prompt :=
  { p with cursor := p.history.length, offered := none }

/-- The place before `cursor` in a history of `size` entries. The last one is before the first. -/
def before (size cursor : Nat) : Nat :=
  if cursor = 0 then size - 1 else cursor - 1

/-- The place after `cursor` in a history of `size` entries. The first one is after the last. -/
def after (size cursor : Nat) : Nat :=
  if size - 1 ≤ cursor then 0 else cursor + 1

def offer (p : Prompt) (place : Nat) : Response × Prompt :=
  match p.history[place]? with
  | some entry => (.offer entry, { p with cursor := place, offered := some entry })
  | none => (.fault .outOfRange, p)

/-- Goes to another place of the history, if there is a history. -/
def walk (p : Prompt) (move : Nat → Nat → Nat) : Response × Prompt :=
  if p.history.isEmpty then (.nothing, p) else p.offer (move p.history.length p.cursor)

def follow (p : Prompt) : Command → Response × Prompt
  | .quit => (.leave, p)
  | .help => (.tell Command.helpText, p)
  | .previous => p.walk before
  | .next => p.walk after
  | .clear => (.nothing, { p with history := [] }.fresh)
  | .history =>
    if p.history.isEmpty then (.nothing, p) else (.tell ("\n".intercalate p.history), p)

def endsIn (c : Char) (line : String) : Bool :=
  line.toList.getLast? == some c

/-- Keeps a line of a program that goes on, without the marks that say so. -/
def extend (p : Prompt) (mark : Char) (line : String) : Prompt :=
  { p with pending := p.pending ++ Text.without mark line ++ "\n" }.fresh

def accept (p : Prompt) (line : String) : Response × Prompt :=
  if endsIn '\\' line then (.nothing, p.extend '\\' line)
  else if endsIn ';' line then (.nothing, p.extend ';' line)
  else
    let program := p.pending ++ line
    (.run program, { p with history := p.history ++ [program], pending := "" }.fresh)

def step (p : Prompt) (line : String) : Response × Prompt :=
  match Command.ofLine? line with
  | some c => p.follow c
  | none =>
    if line.isEmpty then
      match p.offered with
      | some entry => p.accept entry
      | none => (.nothing, p)
    else p.accept line

end Prompt

end TableScript
