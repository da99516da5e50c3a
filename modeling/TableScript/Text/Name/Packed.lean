/-!
How the names of characters are written down.

The names are one text with a comma after each. A name that starts with `@` is the code point of the
next character, and nothing stands for a code point without a character. Names that count up are a
range: `A01~3` are `A01`, `A02` and `A03`. A name may share words with the one before it. A mark at
its start is the number of words that both start with; without a mark, there are as many as for the
name before. A mark at its end is the number of words that both end with.

The text is packed into the digits of a fraction. Each bit of the text divides the range that the
fraction lies in, into parts as large as a one and a zero are likely. How likely they are is learned
from the text before: from the bits that followed on the same signs, in the same word, and below the
same signs or word of the name before.

* `unpack` gives the names;
* `codeOf?` is the code point of a name among them.
-/

namespace TableScript.Text.Name

/-- What follows `start` in a text that starts with it. -/
def after? (start : String) (cs : List Char) : Option (List Char) :=
  if start.toList.isPrefixOf cs then some (cs.drop start.length) else none

/-- The value of an upper-case hexadecimal digit. -/
def digit? (c : Char) : Option Nat :=
  if '0' ≤ c ∧ c ≤ '9' then some (c.toNat - 48)
  else if 'A' ≤ c ∧ c ≤ 'F' then some (c.toNat - 55)
  else none

/-- The code point that upper-case hexadecimal digits stand for. -/
def code? (digits : List Char) : Option Nat :=
  digits.foldlM (fun acc c => (digit? c).map (acc * 16 + ·)) 0

/-! ## Odds -/

/-- How often out of 4096 times a bit is one, where so much speaks for it: -2048, -1920, and so on
up to 2048. -/
def chances : Array Int :=
  #[1, 2, 3, 6, 10, 16, 27, 45, 73, 120, 194, 310, 488, 747, 1101, 1546, 2047, 2549, 2994, 3348,
    3607, 3785, 3901, 3975, 4022, 4050, 4068, 4079, 4085, 4089, 4092, 4093, 4094]

/-- How often out of 4096 times a bit is one, where so much speaks for it. -/
def chance (support : Int) : Nat :=
  if support < -2047 then 1
  else if 2047 < support then 4095
  else
    let place := ((support + 2048) / 128).toNat
    let part := (support + 2048) % 128
    ((chances.getD place 0 * (128 - part) + chances.getD (place + 1) 0 * part + 64) / 128).toNat

/-- How much speaks for a one, where a bit is one so often. -/
def supports : Array Int :=
  (List.range 4095).foldl (fun found (i : Nat) =>
    let support := (i : Int) - 2047
    found ++ Array.replicate (chance support + 1 - found.size) support) #[]

/-! ## Unpacking -/

/-- The signs of the text. -/
def signs : Array Char :=
  "###@##,~ -+?:.!;12*03456##&/789#KYDGST###EOI#AUQNXMFPB#CLZJWRVH#".toList.toArray

/-- The digits of the fraction. -/
def digits : List Char :=
  "!$%&()*+,-./0123456789:;<=>?@ABCDEFGHIJKLMNOPQRSTUVWXYZ[]^_abcdefghijklmnopqrstuvwxyz|~".toList

/-- The marks for the numbers of words from zero on. -/
def marks : List Char :=
  ['/', '.', ':', ';', '!', '?', '+', '*', '&']

/-- A number for two numbers. -/
def join (a b : Nat) : Nat :=
  (a * 1000003 + b) % 1099511627776

def number (word : String) : Nat :=
  word.toList.foldl (fun n c => join n c.toNat) 0

/-- A text on the way. -/
structure Draft where
  /-- The signs so far, where the last two names start, and whether they are the same so far. -/
  done : Array Nat := #[]
  before : Nat := 0
  start : Nat := 0
  same : Bool := true
  /-- The names so far, the last one first. -/
  names : List String := []
  /-- The words of the name before, those of this one, and the word at the end. -/
  above : List String := []
  words : List String := []
  word : String := ""
  /-- How many words both names share at their start and at their end. -/
  first : Nat := 0
  last : Nat := 0

namespace Draft

def length (d : Draft) : Nat :=
  d.done.size - d.start

/-- A number for the last signs. -/
def past (d : Draft) (count : Nat) : Nat :=
  (d.done.extract (d.done.size - count)).foldl (fun n sign => n * 64 + sign) 0

/-- A sign of the name before, counted from the place of the next sign. -/
def earlier (d : Draft) (n : Nat) : Nat :=
  d.done.getD (d.before + d.length + n) 0

/-- Numbers for the things that the next sign may follow on. -/
def keys (d : Draft) : List Nat :=
  let word := number d.word
  let column := d.words.length
  [0, d.past 1, d.past 2, d.past 3, d.past 4, d.past 6, word,
   join word (number (d.words.getLastD "")), join word (number (d.above.getD column "")),
   (d.earlier 0 * 64 + d.earlier 1) * 2 + d.same.toNat,
   join (d.past 1) (column * 16 + (d.above.length - column)), d.earlier 0 * 64 + d.past 1]

def push : Draft → Bool → Nat → Draft
  | { done, before, start, names, above, words, word, first, last, .. }, same, sign =>
    let done := done.push sign
    let alone := done.size - start = 1
    match signs.getD sign ' ' with
    | ',' =>
      if alone then
        { done, before := start, start := done.size, names := "" :: names, above, words, word
          first, last }
      else
        let name := words ++ [word] ++ above.drop (above.length - last)
        { done, before := start, start := done.size, names := " ".intercalate name :: names
          above := name, words := name.take first, first }
    | ' ' =>
      { done, before, start, same, names, above, words := words ++ [word], first, last }
    | letter =>
      match marks.idxOf? letter with
      | none =>
        { done, before, start, same, names, above, words, word := word.push letter, first, last }
      | some n =>
        if alone then
          { done, before, start, same, names, above, words := above.take n, word, first := n, last }
        else { done, before, start, same, names, above, words, word, first, last := n }

end Draft

/-- What is known when a bit is read. -/
structure Unpacking where
  /-- The digits that are left, and where the fraction lies in its range so far. -/
  rest : List Char
  value : Nat := 0
  range : Nat := 1
  /-- The bits seen last, behind a one. -/
  seen : Array Nat := Array.replicate 15999989 1
  /-- How often out of 65536 times a one has followed on such bits. -/
  odds : Array Nat := Array.replicate 12288 32768
  /-- How much each of the things counts that a bit may follow on. -/
  weights : Array Int := Array.replicate 65792 14000

namespace Unpacking

/-- Reads digits until the range is wide enough. -/
def refill (value range : Nat) : List Char → List Char × Nat × Nat
  | [] => ([], value, range)
  | d :: ds =>
    if range ≤ 57289761 then refill (value * 87 + digits.idxOf d) (range * 87) ds
    else (d :: ds, value, range)

/-- What one of the things that a bit follows on says: where the bits seen last are, where they and
the weight stand, and how much speaks for a one. -/
structure View where
  place : Nat
  history : Nat
  weight : Nat
  support : Int

/-- Reads the next bit of a sign, where `node` is a one with the bits so far behind it. -/
def readBit (keys : List (Nat × Nat)) (group last : Nat) (u : Unpacking) (node : Nat) :
    Unpacking × Nat :=
  let { rest, value, range, seen, odds, weights } := u
  let other := 16 * (16 + last + node) - group
  let views : List View := keys.map fun (key, k) =>
    let place := (key + node) % 15999989
    let history := 1024 * k + seen.getD place 0
    ⟨place, history, group + k, supports.getD (odds.getD history 0 / 16) 2047⟩
  let total := views.foldl (fun n v =>
    n + (weights.getD v.weight 0 + weights.getD (other + v.weight) 0) * v.support) 0
  let likely := chance (total / 131072)
  let bound := range / 4096 * likely
  let one := decide (value < bound)
  let error : Int := ((if one then 4096 else 0) - likely) * 12
  let weights := views.foldl (fun w v =>
    let change := (v.support * error + 8192) / 16384
    (w.modify v.weight (· + change)).modify (other + v.weight) (· + change)) weights
  let odds := views.foldl (fun o v => o.modify v.history fun n =>
    if one then n + (65535 - n) / 64 else n - n / 64) odds
  let seen := views.foldl (fun s v => s.modify v.place fun n =>
    let bits := 2 * n + one.toNat
    if bits < 1024 then bits else 512 + bits % 512) seen
  let (rest, value, range) :=
    if one then refill value bound rest else refill (value - bound) (range - bound) rest
  ({ rest, value, range, seen, odds, weights }, 2 * node + one.toNat)

def readSign : Unpacking × Draft → Unpacking × Draft
  | (u, d) =>
    let keys := d.keys.zipIdx.map fun (key, k) => ((key * 16 + k) * 64, k)
    let group := 16 * (2 * min d.length 7 + d.same.toNat)
    let last := d.past 1 * 64
    let (u, node) := (List.range 6).foldl (fun (u, node) _ => readBit keys group last u node) (u, 1)
    let sign := node % 64
    (u, d.push (d.same && d.earlier 0 == sign) sign)

end Unpacking

/-- The names in a packed text of so many signs. Breaks between lines count for nothing. -/
def unpack (count : Nat) (packed : String) : List String :=
  let (rest, value, range) := Unpacking.refill 0 1 (packed.toList.filter (· != '\n'))
  (count.repeat Unpacking.readSign ({ rest, value, range }, {})).2.names.reverse

/-! ## Code points of names -/

/-- A number with zeros before it up to a number of digits. -/
def padded (digits n : Nat) : List Char :=
  (toString n).toList.leftpad digits '0'

/-- The names in a range. The last number has no zeros before it. -/
def inRange (range : String) : List String :=
  match range.splitOn "~" with
  | [first, last] =>
    let digits := (first.toList.reverse.takeWhile Char.isDigit).reverse
    let stem := first.toList.take (first.length - digits.length)
    let start := (String.ofList digits).toNat?.getD 0
    let count := last.toNat?.getD 0 + 1 - start
    (List.range' start count).map fun n => String.ofList (stem ++ padded digits.length n)
  | _ => [range]

/-- The code point of a name among names from a code point on. -/
def findAmong (wanted : String) : Nat → List String → Option Nat
  | _, [] => none
  | code, name :: rest =>
    match name.toList with
    | '@' :: start => findAmong wanted ((code? start).getD 0) rest
    | _ =>
      let names := inRange name
      match names.idxOf? wanted with
      | some n => some (code + n)
      | none => findAmong wanted (code + names.length) rest

/-- The code point of a name. -/
def codeOf? (names : List String) (wanted : String) : Option Nat :=
  if wanted.isEmpty then none else findAmong wanted 0 names

end TableScript.Text.Name
