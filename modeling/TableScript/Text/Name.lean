import TableScript.Text.Name.Table

/-!
Characters by their names in Unicode 14. Most names are tabulated. The names of Korean syllables are
made of the names of their parts, and those of Chinese characters and of a few others are made of
their code points.

Korean syllables and Chinese characters are written in upper case only; all other names may be
written in either case.

* `Name.find?` is the code point of the character with a name.
-/

namespace TableScript.Text.Name

/-! ## Names made of parts -/

/-- How the names of Korean syllables start. -/
def syllableStart : String := "HANGUL SYLLABLE "

/-- The consonants that a Korean syllable starts with. -/
def leads : List String :=
  ["G", "GG", "N", "D", "DD", "R", "M", "B", "BB", "S", "SS", "", "J", "JJ", "C", "K", "T", "P",
   "H"]

def vowels : List String :=
  ["A", "AE", "YA", "YAE", "EO", "E", "YEO", "YE", "O", "WA", "WAE", "OE", "YO", "U", "WEO", "WE",
   "WI", "YU", "EU", "YI", "I"]

/-- The consonants that a Korean syllable ends with. -/
def tails : List String :=
  ["", "G", "GG", "GS", "N", "NJ", "NH", "D", "L", "LG", "LM", "LB", "LS", "LT", "LP", "LH", "M",
   "B", "BS", "S", "SS", "NG", "J", "C", "K", "T", "P", "H"]

/-- The Korean syllables in the order of their code points, which is that of their parts. -/
def syllables : List String :=
  leads.flatMap fun l => vowels.flatMap fun v => tails.map fun t => l ++ v ++ t

def syllable? (parts : List Char) : Option Nat :=
  (syllables.idxOf? (String.ofList parts)).map (0xAC00 + ·)

/-! ## Names made of code points -/

def isWithin (intervals : List (Nat × Nat)) (code : Nat) : Bool :=
  intervals.any fun i => i.1 ≤ code && code ≤ i.2

def ideographStart : String := "CJK UNIFIED IDEOGRAPH-"

/-- The Chinese characters that are named so. -/
def ideographs : List (Nat × Nat) :=
  [(0x3400, 0x4DBF), (0x4E00, 0x9FFF), (0x20000, 0x2A6DF), (0x2A700, 0x2B738), (0x2B740, 0x2B81D),
   (0x2B820, 0x2CEA1), (0x2CEB0, 0x2EBE0), (0x30000, 0x3134A)]

/-- The code point of a Chinese character, written with four or five digits. -/
def ideograph? (digits : List Char) : Option Nat :=
  if digits.length = 4 ∨ digits.length = 5 then (code? digits).filter (isWithin ideographs)
  else none

/-- The starts of further names that are made of code points, and the characters that have them. -/
def codedStarts : List (String × List (Nat × Nat)) :=
  [("CJK COMPATIBILITY IDEOGRAPH-", [(0xF900, 0xFA6D), (0xFA70, 0xFAD9), (0x2F800, 0x2FA1D)]),
   ("KHITAN SMALL SCRIPT CHARACTER-", [(0x18B00, 0x18CD5)]),
   ("NUSHU CHARACTER-", [(0x1B170, 0x1B2FB)])]

/-- The code point of a character with such a name. There is no digit too many: a code point has
four digits, or five if it needs them. -/
def coded? (name : List Char) : Option Nat :=
  codedStarts.findSome? fun (start, intervals) => do
    let digits ← after? start name
    let code ← code? digits
    if isWithin intervals code && digits.length == (if code < 0x10000 then 4 else 5) then some code
    else none

/-! ## All names -/

/-- The code point of the character with a name in upper case that is neither a Korean syllable nor
a Chinese character. -/
def findUpper? (name : List Char) : Option Nat :=
  match coded? name with
  | some code => some code
  | none => codeOf? table.get (String.ofList name)

/-- The code point of the character with a name. -/
def find? (name : List Char) : Option Nat :=
  match after? syllableStart name with
  | some parts => syllable? parts
  | none =>
    match after? ideographStart name with
    | some digits => ideograph? digits
    | none => findUpper? (name.map Char.toUpper)

end TableScript.Text.Name
