import TableScript.Text.Numeric

/-!
Letters and digits of Unicode 14: the characters a word of a program may consist of.
-/

namespace TableScript.Text

/-- Letters beyond ASCII that may start an identifier. -/
def letterIntervals : List (Nat × Nat) := beyondAscii
  "R)2),)-?)G)iR,46-/)))cA-)*++)).))+)))<)bG)cK0d2)N*).Qb;C,,USK*)bW))7*/*2+*)8))FEbM3)@I1*,)->,)1)
+)?A/3-@).9Rb.b*+):)/278,0***>)/))+,+)8)5*)+6*2)0.,**>)/)*)*)*G,));+81)+)>)/)*)-+):)7*?)30***>)/)*)
-+)F*)+7)9)).++),+*)))*+*+++4>)b(0)+)?)8+)B+*)**F),0)+)?)2)-+)G*)*7*91)+)Q*)8)-+0+@.-:+@)1))*/b.X))
5/b.*)))-)@)))2))2)*-))=,H)b30)LC-c3S<)8.,,+)+*/+,54)9N))-)*S)g=),*/))),*Q),*I),*/))),*7)b-),*b7M88
bJ*.+lX*9)B-b?+3/:5;6:65)+7b(K),)b7bM/-*J))-b:2GYF*-3T,Bb*?1b)bF)bQW90b*F5*2TBLQ+2L*1/S*+Q,).)*+)-
dLb4f:*.*N*.*0)))))))G*b))/))++)/+,*.,5-+)/c4)5)85bY),)*2))+-.)))))),)3*,--,)9QbzCe=.,+*4N))-)*b,/)
8?1/)/)/)/)/)/)/)/kF+A1/-*-,bJ.+)bN),-S)bR9HX8jTewPb4qk-b7V*f1+82*<W8G*bDO1*b[*b4-*)))-@8)+),)?Eb(6
Zb2.+))*3D2?AE/WD)8-)22-)Q?+)0<?+)+Z))+**-*)))@+*3/+4.*.*.1/)/)S)6.c3EigT4?,YggDh**c*N/4--))2)5)-))
)*)*)c,IcK.e2:b4*b*P2c7)))+))))))))c>LB.B3b,*G+.*.*.*+K4)B);)*)7*6Jc;b9b)f/E+YWH5F-N2F*L,0)-Rd*:L,L
,P0b(43)7)/)*)3)7)/)*b7f[1>20@.)R)1b9.*))T)*+)*?2?1Gb5;)*2>2Bb:b,.*b4)7,)+)ERE+EK0)DCb*2>2;5:c.b=b+
[5[5LgLR.*bBE2)0>R:V=C?4b)b-**)5UHABLE)*)0K+)4X6,=)))K:)AbH/))),)7)2/WN0***>)/)*)-+):)4-d*b):,<+FX<
*))dDWQ,LX<)b/S5)b;CM/dETc4b4G0*)*0)*)@7)))bR0*O8)))D)2P/)=)3V;):b=f+1)M9)YFc0/)*)N=)A.)*)H6)g7;dI)
bCrNbZc/9dPbyLbU7uGczUl3gk)kY/G9bC9F:X8,G=-;n4b4c@b?-)b65b4*))Deo(0xRR1gpS,)/)*)fGU+9,0hHbs<c+-5+1/
2el2bI)b;)**)***,)4)))/)b5),*0)/)D),)-))+/)gD*A)A)G)A)G)A)G)A)G)A)0bj@Gj5U2/8)g1F:Ty</),)*)7)dQb/b8
/)x0,)C)*))*))2),)))).),))))))+)*))*))))))))))*))*,)/),),)))2)9-+)-)9dh(bfpDHdbU/e6*egR6fnMchKk>bcZ
dq["

/-- Letters, digits and other numeric characters beyond ASCII. -/
def alnumIntervals : List (Nat × Nat) :=
  letterIntervals ++ numericIntervals ++ beyondAscii
  "oJ)caP)c?)fy[)bnb*.hR*c4)))))))))))))))fC*"

def isAlnum (c : Char) : Bool :=
  if c.toNat < 128 then c.isAlphanum else inIntervals alnumIntervals c

end TableScript.Text
