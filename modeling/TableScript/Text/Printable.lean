import TableScript.Text.Identifier

/-!
Characters of Unicode 14 that are shown as themselves inside a quoted string.
-/

namespace TableScript.Text

def printableIntervals : List (Nat × Nat) :=
  continueIntervals ++ beyondAscii
  "I1)*)/)))*)-?)G)iR,46-/)))9c5),)+)-*c0)cK)-*e(.Q**+V)))*)*)T*923))+b>,bZ)1)2);*)6e@,,*X7G)Q)e3*2
)cA2))c8)c9*c>)).c83c<1,)dV)0/92c:)b>)7)2*d1?*.23))))),b;)b,0).)5c/.bB*bO)lP113;2bZ)lX*T*bB+b;*d)+)
,<2.3fY)+*cXJF*c@/).8)c[913c=,b/-b2*b403)o9))+3+5+5+5*9@07*;)29)+3)79ID,)+C*),)*2))*..))))))8*,--,)
9Q+,mOA3=biT*H)c)e=.6/c0)cObRJB)bM4e.B4-,+A7)-*-+bO*+)bN)cT8HLDG)j4ewPb4qk0b+b+*f1+bT,2)c3.0?1*b[*
d),,2b.,bJ*P+))Y*W)bU58*c<,?+bX*8*c))6*c?)pa-)cH9c[.e2:c?)R.82>+*@++);),,)))))))))))))))cB72/B,))B3
c:/)/5*eZ+,U+1b)B)5+)WUe<CL,c;)X)hZ)o71?1O1b?->.+)G)c<**8*Vb41/1L+E+P)J4b6/@0@0A,4/g:.gPGV)c/2R1T,
b//c;/,<bI*),c>,X*bC,,)5))+)<b7.c+)i)-2*))c()eR?c)+D5b@)c@.eS)d:1bE+c[)bP0bG+)-hZ-<;+*m=*dSZ5)vT-
ceD*lbW*cE)b51,*=/p:Cg7)onM)*)do(c4b0eN2O*b0-+>*/F,b1=b6+)cZ<4bK1Aq0)A)G)A)G)A)G)A)G)A)b0jTb+,Z0)6)
/bh7)i7)bc?1cN*p-b8b@b1i:*f2T,bX47*7)7)M2d:b,E5T,1/*6.cZsX-8+5+c44bM/4,)74,b,02.P0F**bBgD46*-+-+/1E
+3-.22.00/1cS)b+"

/-- Is `c` shown as itself rather than as an escape? -/
def isPrintable (c : Char) : Bool :=
  if c.toNat < 128 then 32 ≤ c.toNat && c.toNat ≤ 126 else inIntervals printableIntervals c

end TableScript.Text
