/-!
Sets of characters given as closed intervals of code points, the form in which the Unicode
properties of this library are tabulated.
-/

namespace TableScript.Text

/-- Is the code point of `c` inside one of the intervals? -/
def inIntervals (intervals : List (Nat × Nat)) (c : Char) : Bool :=
  intervals.any fun i => i.1 ≤ c.toNat && c.toNat ≤ i.2

/-- The intervals from a code point on, of which the numbers tell in turn how many code points lie
before the next one and how many are in it. -/
def intervalsFrom (start : Nat) : List Nat → List (Nat × Nat)
  | gap :: count :: rest =>
    (start + gap, start + gap + count - 1) :: intervalsFrom (start + gap + count) rest
  | _ => []

/-- The numbers in a text, after the digits `high` of the first one. A number ends with one of the
signs from `(` to `[`, which stand for 0 to 51; the small letters before it are its higher digits.
Breaks between lines count for nothing. -/
def numbersFrom (high : Nat) : List Char → List Nat
  | [] => []
  | c :: cs =>
    if c == '\n' then numbersFrom high cs
    else if c.isLower then numbersFrom (high * 26 + (c.toNat - 97)) cs
    else (high * 52 + (c.toNat - 40)) :: numbersFrom 0 cs

def numbersIn (text : String) : List Nat :=
  numbersFrom 0 text.toList

/-- The intervals beyond ASCII that the numbers in a text tell. -/
def beyondAscii (text : String) : List (Nat × Nat) :=
  intervalsFrom 128 (numbersIn text)

end TableScript.Text
