import TableScript.Text.Numeric
import TableScript.Text.Quote

/-!
The options of the command line.

A switch has a short spelling, a long one, or both. Any beginning of a long spelling that belongs to
no other switch stands for it. The value of a switch is the word after it, or the text behind an
equals sign, or, for a short switch, the text right behind its letter; short switches without values
can be written as one word, which is refused if one of its letters is no switch. Words that are no
switches are passed over, and so is everything behind two dashes that stand alone.

All words are looked at (`Word.read`) before the first of them takes effect (`Options.follow`).
-/

namespace TableScript

/-- The switches without a value. -/
inductive Flag where
  | help | debug
  deriving DecidableEq, Inhabited, Repr

/-- The switches with a value. -/
inductive Key where
  | file | debug
  deriving DecidableEq, Inhabited, Repr

inductive Switch where
  | flag (f : Flag)
  | key (k : Key)
  deriving DecidableEq, Inhabited, Repr

namespace Switch

def spellings : List (String × Switch) :=
  [("-h", flag .help), ("--help", flag .help), ("-f", key .file), ("--file", key .file),
    ("-d", flag .debug), ("--debug", flag .debug), ("--no-debug", key .debug)]

def ofSpelling? (word : List Char) : Option Switch :=
  spellings.lookup (String.ofList word)

def name (s : Switch) : String :=
  "/".intercalate ((spellings.filter (·.2 == s)).map (·.1))

end Switch

/-- What a switch sets. -/
inductive Setting where
  | flag (f : Flag)
  | value (k : Key) (text : String)
  deriving DecidableEq, Repr

inductive Refusal where
  | ambiguous (word : String) (spellings : List String)
  | valueMissing (k : Key)
  | valueIgnored (f : Flag) (text : String)
  deriving DecidableEq, Repr

def Refusal.message : Refusal → String
  | ambiguous word spellings =>
    "ambiguous option: " ++ word ++ " could match " ++ ", ".intercalate spellings
  | valueMissing k => "argument " ++ (Switch.key k).name ++ ": expected one argument"
  | valueIgnored f text =>
    "argument " ++ (Switch.flag f).name ++ ": ignored explicit argument " ++ Text.quote text

/-! ## Words -/

inductive Word where
  | plain (text : String)
  /-- Two dashes: no switch comes after them. -/
  | divider
  | unknown
  /-- A long switch, with the text behind an equals sign. -/
  | long (s : Switch) (value : Option (List Char))
  /-- A short switch, with all that stands behind its letter. -/
  | short (s : Switch) (rest : List Char)
  deriving DecidableEq, Repr

namespace Word

/-- The text up to an equals sign, and the text behind it. -/
def splitValue (word : List Char) : List Char × Option (List Char) :=
  (word.takeWhile (· != '='), (word.dropWhile (· != '=')).tail?)

def isDigits (cs : List Char) : Bool :=
  !cs.isEmpty && cs.all fun c => (Text.digitValue? c).isSome

def isNumber (cs : List Char) : Bool :=
  isDigits cs ||
    match cs.dropWhile (· != '.') with
    | _ :: fraction =>
      isDigits fraction && (cs.takeWhile (· != '.')).all fun c => (Text.digitValue? c).isSome
    | [] => false

/-- Is it the text after the dash of a negative number? A newline may stand at its end. -/
def isNegated (cs : List Char) : Bool :=
  isNumber cs || (cs.getLast? == some '\n' && isNumber cs.dropLast)

/-- A word with a dash that belongs to no switch. With a blank in it, or as a negative number, it is
a plain word. -/
def other (word : String) : Word :=
  if isNegated word.toList.tail || word.toList.contains ' ' then plain word else unknown

/-- The word that starts with two dashes. A beginning of a spelling stands for it, if it is the
beginning of no other one. -/
def readLong (word : String) : Except Refusal Word :=
  let (name, value) := splitValue word.toList
  match Switch.spellings.filter fun e => name.isPrefixOf e.1.toList with
  | [] => .ok (other word)
  | [(_, s)] => .ok (long s value)
  | candidates => .error (.ambiguous word (candidates.map (·.1)))

def read (word : String) : Except Refusal Word :=
  match word.toList with
  | '-' :: '-' :: _ => readLong word
  | '-' :: letter :: rest =>
    match Switch.ofSpelling? ['-', letter] with
    | some s => .ok (short s rest)
    | none => .ok (other word)
  | _ => .ok (plain word)

def readAll : List String → Except Refusal (List Word)
  | [] => .ok []
  | word :: rest =>
    if word == "--" then .ok (divider :: rest.map plain)
    else do
      let first ← read word
      return first :: (← readAll rest)

end Word

/-! ## Settings -/

/-- The settings of a word, and the switch at its end whose value is in the next word. -/
structure Settings where
  made : List Setting := []
  awaiting : Option Key := none
  deriving DecidableEq, Inhabited, Repr

namespace Settings

def cons (s : Setting) (rest : Settings) : Settings :=
  { rest with made := s :: rest.made }

/-- The settings of a switch by itself. -/
def alone : Switch → Settings
  | .flag f => { made := [.flag f] }
  | .key k => { awaiting := some k }

/-- The settings of a short switch and of the text right behind it. For a switch with a value the
text is the value; for one without, its letters are more short switches. -/
def cluster : Switch → List Char → Except Refusal Settings
  | s, [] => .ok (alone s)
  | .key k, value => .ok { made := [.value k (String.ofList value)] }
  | .flag f, c :: rest =>
    match Switch.ofSpelling? ['-', c] with
    | none => .error (.valueIgnored f (String.ofList (c :: rest)))
    | some s => cons (.flag f) <$> cluster s rest

/-- The settings of a switch and of the value that is written with it, if there is one. -/
def explicit : Switch → Option (List Char) → Except Refusal Settings
  | s, none => .ok (alone s)
  | .flag f, some value => .error (.valueIgnored f (String.ofList value))
  | .key k, some value => .ok { made := [.value k (String.ofList value)] }

/-- The settings of a word. An equals sign right behind the letter of a short switch is passed over,
unless nothing follows it. -/
def ofWord : Word → Except Refusal Settings
  | .long s value => explicit s value
  | .short s ['='] => explicit s (some [])
  | .short s ('=' :: rest) => cluster s rest
  | .short s rest => cluster s rest
  | _ => .ok {}

end Settings

structure Options where
  /-- The program to run. Without one, programs are typed. -/
  file : Option String := none
  debugging : Bool := false
  deriving DecidableEq, Inhabited, Repr

inductive Stop where
  | help
  | refused (r : Refusal)
  deriving DecidableEq, Repr

namespace Options

/-- Is a value empty? Two dashes are no value either. -/
def isVoid (text : String) : Bool :=
  text.isEmpty || text == "--"

/-- Makes a setting. A value for debugging turns it on unless it is empty. -/
def set (o : Options) : Setting → Except Stop Options
  | .flag .help => .error .help
  | .flag .debug => .ok { o with debugging := true }
  | .value .file text => .ok { o with file := if isVoid text then none else some text }
  | .value .debug text => .ok { o with debugging := !isVoid text }

def setAll (o : Options) (settings : List Setting) : Except Stop Options :=
  settings.foldlM set o

/-- Makes the settings of the words, one after the other. -/
def follow (o : Options) : List Word → Except Stop Options
  | [] => .ok o
  | word :: rest =>
    match Settings.ofWord word, rest with
    | .error r, _ => .error (.refused r)
    | .ok ⟨made, none⟩, rest => do
      let next ← o.setAll made
      next.follow rest
    | .ok ⟨made, some k⟩, .plain text :: rest => do
      let next ← o.setAll (made ++ [.value k text])
      next.follow rest
    | .ok ⟨_, some k⟩, _ => .error (.refused (.valueMissing k))

def read (words : List String) : Except Stop Options := do
  ({} : Options).follow (← (Word.readAll words).mapError .refused)

def usage : String :=
  "usage: petl [-h] [-f \x7bfile\x7d] [-d] [--no-debug \x7bdebug\x7d]\n"

/-- The help: how the program is called, and what its switches do. -/
def help : String :=
  usage ++ "\n" ++
  "options:\n" ++
  "  -h, --help            show this help message and exit\n" ++
  "  -f \x7bfile\x7d, --file \x7bfile\x7d\n" ++
  "                        Petl file to run\n" ++
  "  -d, --debug           Enable debugging output\n" ++
  "  --no-debug \x7bdebug\x7d    Enable debugging output\n"

end Options

end TableScript
