import TableScript.Shell

/-!
The program on the command line. The scripts and tables below the current directory are read before
the run, and the tables that it wrote are put back after it.

Typed input is read line by line: a run that comes to the end of its input is started again with one
more line, and only what it prints beyond the run before is shown.
-/

namespace TableScript.Program

/-- Adds the scripts and tables below a directory to a disk. -/
partial def loadDirectory (disk : Disk) (path : String) : IO Disk := do
  let mut d := disk
  for e in ← (← IO.FS.realPath path).readDir do
    let child := path ++ "/" ++ e.fileName
    if ← e.path.isDir then d ← loadDirectory d child
    else if child.endsWith Shell.ending || child.endsWith Csv.ending then
      let p := Path.ofString child
      match (d.makeDirectory { p with parts := p.parts.dropLast }).bind
          (·.write p (← IO.FS.readFile child)) with
      | .ok after => d := after
      | .error _ => pure ()
  return d

def saveFiles (before after : Disk) : IO Unit := do
  for (path, text) in after.files do
    unless before.files.contains (path, text) do IO.FS.writeFile path text

partial def readInput (stream : IO.FS.Stream) (seen : String) : IO String := do
  match ← stream.getLine with
  | "" => return seen
  | line => readInput stream (seen ++ line)

/-- A mark as it is shown. Half of a surrogate pair cannot be. -/
def showMark : Mark → String
  | .fault f => f.message
  | .half _ => "\ufffd"

def printed (m : Machine) : String :=
  m.console.transcript.text showMark

def isEnd (shown : String × Mark) : Bool :=
  shown.2 == .fault .endOfInput

/-- What a run printed before its input came to an end, if it did. The message about the end is in
colour, so it starts at the last one. -/
def printedBeforeEnd (m : Machine) : Option String :=
  let before := m.console.transcript.before
  match before.find? isEnd with
  | none => none
  | some (last, _) =>
    let text := Transcript.text showMark { before := before.takeWhile (!isEnd ·), tail := last }
    some (Console.errorColour.intercalate (text.splitOn Console.errorColour).dropLast)

/-- Runs with more and more of the input. -/
partial def interact (o : Options) (start : Machine) (stream : IO.FS.Stream) (shown : Nat) :
    IO Machine := do
  let m := Shell.run o start
  match printedBeforeEnd m with
  | none =>
    IO.print ((printed m).drop shown)
    return m
  | some text =>
    IO.print (text.drop shown)
    (← IO.getStdout).flush
    match ← stream.getLine with
    | "" =>
      IO.print ((printed m).drop text.length)
      return m
    | line => interact o { start with input := start.input ++ line.toList } stream text.length

end TableScript.Program

open TableScript TableScript.Program

/-- Runs the program that the arguments name, or what is typed. -/
def main (args : List String) : IO UInt32 := do
  match Options.read args with
  | .error .help =>
    IO.print Options.help
    return 0
  | .error (.refused r) =>
    IO.eprint (Options.usage ++ "petl: error: " ++ r.message ++ "\n")
    return 2
  | .ok o =>
    let home := Path.ofString (← IO.currentDir).toString
    let disk ← loadDirectory (Disk.empty home.parts) "."
    let seed := (← IO.getRandomBytes 8).toList.foldl (fun n b => n * 256 + b.toNat) 0
    let start := { Machine.initial with disk, random := mkStdGen seed }
    let stdin ← IO.getStdin
    let m ←
      if ← stdin.isTty then interact o start stdin 0
      else interact o { start with input := (← readInput stdin "").toList } stdin 0
    saveFiles disk m.disk
    return 0
