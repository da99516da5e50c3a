import TableScript.Text.Interval

/-!
Numeric characters of Unicode 14. A *numeric* character is any that stands for a number, such as
a digit, a superscript or a fraction; a *decimal digit* is one of a run of ten that a positional
numeral can be written with. Every decimal digit is numeric, so a numeric word need not be a
numeral.
-/

namespace TableScript.Text

def numericIntervals : List (Nat × Nat) := beyondAscii
  "Z*-)*+bbM2cF2dR2hX2c62,.c,2c62c62*.c.5c320/b[2c(//;c-2bT2c62b:<f02b:2nS<qY+eG2.2>2fP2c@3d12.2dB2
bJ2cF2.2u.)+..2dR[*-nZb0bB>m.FbaI)oY)A16+gG,cJ2F0)7H2O7g5)c=)rZ)p>)do*)*)+)))bG)V)/)))P*F)0)L)bV)hO
)b5)J)))))i[))+.)c4,p2)k5)/)bb,)cC*4+))t9)bA)w5)bj?)w?)o7)bx;)rY)bpU),)c<)bs()L)-)S)c=)cwI2dH2g0.cZ
2N2dR2>2bJ2hR2or5)/),)b-)F)))Q)yZ2jAU4b-9*gECL,E)0)cF-dV2s.0A/O1b?->.d,**8*Vb41b(*F+b?-c(0@0Q/g:.X2
fJGd*2R,c0/cFFc@2b02cP2/<eS2gF2c62h22bZ2bZ4i,;bQ2oFEe;2b:2k6=uCc/ng92bJ2cF2)/p:?szM<c,Av9ZbtD2i.2
bcE1c@2p3b/)+),b@U)7sB5cbG2tS)bV)c=)b2)bnD)bL)0)7)g=):)C)eq>)bdK)di2)hlE)bcl.)"

def isNumeric (c : Char) : Bool :=
  if c.toNat < 128 then c.isDigit else inIntervals numericIntervals c

/-- The zeros of the runs of ten decimal digits beyond ASCII. -/
def decimalZeros : List Nat :=
  [1632, 1776, 1984, 2406, 2534, 2662, 2790, 2918, 3046, 3174, 3302, 3430, 3558, 3664, 3792, 3872,
   4160, 4240, 6112, 6160, 6470, 6608, 6784, 6800, 6992, 7088, 7232, 7248, 42528, 43216, 43264,
   43472, 43504, 43600, 44016, 65296, 66720, 68912, 69734, 69872, 69942, 70096, 70384, 70736,
   70864, 71248, 71360, 71472, 71904, 72016, 72784, 73040, 73120, 92768, 92864, 93008, 120782,
   120792, 120802, 120812, 120822, 123200, 123632, 125264, 130032]

/-- The value of a decimal digit of any script. -/
def digitValue? (c : Char) : Option Nat :=
  if c.toNat < 128 then
    if c.isDigit then some (c.toNat - 48) else none
  else
    (decimalZeros.find? fun z => z ≤ c.toNat && c.toNat ≤ z + 9).map (c.toNat - ·)

def isNumericWord (s : String) : Bool :=
  !s.isEmpty && s.toList.all isNumeric

end TableScript.Text
