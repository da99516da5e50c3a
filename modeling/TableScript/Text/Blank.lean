import TableScript.Text.Interval

/-!
White space of Unicode 14.
-/

namespace TableScript.Text

def blankIntervals : List (Nat × Nat) :=
  [(133, 133), (160, 160), (5760, 5760), (8192, 8202), (8232, 8233), (8239, 8239), (8287, 8287),
   (12288, 12288)]

/-- White space: tab to carriage return, the four information separators, the space, and the
white space beyond ASCII. -/
def isBlank (c : Char) : Bool :=
  if c.toNat < 128 then
    (9 ≤ c.toNat && c.toNat ≤ 13) || (28 ≤ c.toNat && c.toNat ≤ 32)
  else inIntervals blankIntervals c

end TableScript.Text
