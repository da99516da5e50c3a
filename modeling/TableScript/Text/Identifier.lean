import TableScript.Text.Alnum

/-!
Identifiers by the Unicode 14 rule: a start character or an underscore, then continuing
characters.
-/

namespace TableScript.Text

/-- Characters beyond ASCII that may start an identifier. -/
def startIntervals : List (Nat × Nat) :=
  letterIntervals ++ [(6277, 6278), (8472, 8472), (8494, 8494)]

/-- Characters beyond ASCII that may continue an identifier. -/
def continueIntervals : List (Nat × Nat) :=
  startIntervals ++ beyondAscii
  "b+)l4c0?)eS-f-U)))*)*))b<3XG.)bY/*.**),*2?)FCbO372I11)@,)1)+)-S+b00R@)Ib*+):)/2**29+b,))/***+1)2
**26)*+b,))-,**++)<4+)3+b,))0)+)+<**22.)+b,))/***+/+2**2:)b/-++),1)628-b+))/)+),/*3**29+b,))/)+),/*
3**28,b+*)/)+),1)2**29+b:),.)))0.2**b1))040)2bK))23.*2b2*.23))))),*Y<)*-3)L1)bX<)24,,+)+*/+,54)7nC+
11rT,D+E*F*b4H1)*2I+)3cO)c64,422c@3b0-b-2)E*3.2>6)8Y-W932914+F5*2T6X<02.2c6+)=,).)*+dRb4l+*;)c;5,)+
4ch*+cM)bTHkJ.c)*wgE2b9),2H*bD*f4)+),)?-,)bG*Z:22.:53D0A5T,W6723)22W64)0**2I+Z))+**-*))Q--*eD0)**2
ozH)o1888+*@+dL2M)bR*lI)e:)cU-fI2ba7+)*-,P+,)d1*l),02h-*cY3Y,c:+b)7G3**2,U3/)U2.+L6)2-*T)4+X60,)4bF
4.)d,4-2.,b+*)/***+1)2**/+-dL:12,)bE<42e-/*1C*bF972bE502bG7,2eJ7d12b:.)**,)))*42c7/*/+)D2P/),0)13V8
hQ0)082b,>)6c:.+))*)/))02X-)*)-02g9,oh52bJ2N-b//A2tA))b+/,bE)3*on?*dmAV*?k>-+.00*/F,cT+bb5ZjTb+,Z0)
6)>-)7ba0/)9*/)*)-f)/12gT)b16bcN/c-/-2dnB2wkq>eH"

def isIdentStart (c : Char) : Bool :=
  if c.toNat < 128 then c.isAlpha || c == '_' else inIntervals startIntervals c

def isIdentContinue (c : Char) : Bool :=
  if c.toNat < 128 then c.isAlphanum || c == '_' else inIntervals continueIntervals c

def isIdentifier (s : String) : Bool :=
  match s.toList with
  | [] => false
  | c :: rest => isIdentStart c && rest.all isIdentContinue

end TableScript.Text
