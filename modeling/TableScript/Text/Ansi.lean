/-!
Terminal control sequences: an introducer, parameters, intermediate characters and a final
character. `stripAnsi` takes them out of a text and keeps everything else.
-/

namespace TableScript.Text

def inRange (low high : Nat) (c : Char) : Bool :=
  low ≤ c.toNat && c.toNat ≤ high

/-- The length of what follows the introducer of a control sequence, `none` if no final character
ends it. -/
def controlTail? (cs : List Char) : Option Nat :=
  let parameters := cs.takeWhile (inRange 0x30 0x3F)
  let afterParameters := cs.dropWhile (inRange 0x30 0x3F)
  let intermediates := afterParameters.takeWhile (inRange 0x20 0x2F)
  match afterParameters.dropWhile (inRange 0x20 0x2F) with
  | c :: _ =>
    if inRange 0x40 0x7E c then some (parameters.length + intermediates.length + 1) else none
  | [] => none

/-- The length of the control sequence that starts with `c` before `rest`, without `c`. -/
def controlLength? (c : Char) (rest : List Char) : Option Nat :=
  if c.toNat = 0x9B then controlTail? rest
  else if c.toNat = 0x1B then
    match rest with
    | '[' :: more => (controlTail? more).map (· + 1)
    | _ => none
  else none

/-- Drops `skip` characters, which end a control sequence, and every control sequence after them. -/
def stripAnsiFrom (skip : Nat) : List Char → List Char
  | [] => []
  | c :: rest =>
    match skip with
    | n + 1 => stripAnsiFrom n rest
    | 0 =>
      match controlLength? c rest with
      | some n => stripAnsiFrom n rest
      | none => c :: stripAnsiFrom 0 rest

def stripAnsi (s : String) : String :=
  String.ofList (stripAnsiFrom 0 s.toList)

end TableScript.Text
