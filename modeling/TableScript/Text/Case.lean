import TableScript.Text.Interval

/-!
Upper and lower case by the full case mappings of Unicode 14. Most characters map to one
character; a few upper-case forms are longer (`ß` becomes `SS`), the dotted capital I lowers to two
characters, and a capital sigma that ends a word lowers to the final sigma.
-/

namespace TableScript.Text

/-- The runs `(first, last, step, shift)` from a character on. Of each, four numbers tell how far
away it is, how many steps it has and how long they are, and twice the shift, less one if it goes
down. -/
def runsFrom (start : Nat) : List Nat → List (Nat × Nat × Nat × Int)
  | gap :: steps :: step :: shift :: rest =>
    let first := start + gap
    let last := first + steps * step
    (first, last, step, if shift % 2 = 0 then shift / 2 else -((shift + 1) / 2 : Nat)) ::
      runsFrom last rest
  | _ => []

/-- Runs `(first, last, step, shift)` of characters beyond ASCII whose upper-case form is the one
character `shift` places further. -/
def upperRuns : List (Nat × Nat × Nat × Int) := runsFrom 128 (numbersIn
  "b)()bcFS>)b3*.)b3)()eJ*?*)*()iW***)+/*)+>*)+**))()lC)()hB+)*)+()),()).())+()dN,()))()g6,()f(+**)
+())-())+()),)*)+()),())*()c0.()))()+*()))()+*()))()+*/*))()d)*0*)+()))()+*()),;*),0*)1())+))pzZ*()
)-,*))()pyN)()pyH)()pyL)()i+)()hW*))hU*()hO*()hQ)()ckpJ,()hU)()ckpB*()hY*()cko0)()ckp4*()i))()i-)()
ckp4)()px2)()ckp.+()i-*()px>)()i1+()i30()pwF+()i;*()ckp2)()i;,()cko4)()i;)()cI)))i9)()cM.()i=3()
ckn>)()ckn8d3()d4T)*),()),*)f(W()b?)*)b=*8)b3)()b1)0)b3)()c?)))c=*()c;)()c1,()bQ)()c+)()7*3*))()d7)
()d+)()6)()e?*()dK+())+())b)G)b3)7)d+*8*)2B*)+.*))()E*W*)ZM)bScdFR)elL+*)elLoI-)7bpW()jgC)()jgA)()
jg/)))jg+)()jg-)()jfS)()jdM)()cae<eI()cagX,()fqL9()caiXc3b>*).()c5.W*))/)81-)83/)81/)81-)84+*81/)81
))cT)+)d8)))dT)))eX)))e8)))eT[))85()kr-:))87))8,()6gY()b+J7)G-())q4A)[bjSW)bS*()),()pz1)()pz+***)/(
))+())3Y*)1)*)-())5M)kt;*()kt;.()kt;wy,>*)<5*)cH.*),F*)3)*)+,*)-())-)*))()bT+1*)4/*)-)*)/()).)*)E()
)qE()bjKEbC)cfmOpv.A)b3xJO)bCcIK)bCd(2)bA*6)bA*.)bA*))bAbiDZ)c?cg.G)b3qeYG)b3xfOI)b7")

/-- Characters whose upper-case form is longer than one character. -/
def upperLong : List (Nat × List Nat) :=
  [(223, [83, 83]), (329, [700, 78]), (496, [74, 780]), (912, [921, 776, 769]),
   (944, [933, 776, 769]), (1415, [1333, 1362]), (7830, [72, 817]), (7831, [84, 776]),
   (7832, [87, 778]), (7833, [89, 778]), (7834, [65, 702]), (8016, [933, 787]),
   (8018, [933, 787, 768]), (8020, [933, 787, 769]), (8022, [933, 787, 834]), (8114, [8122, 921]),
   (8115, [913, 921]), (8116, [902, 921]), (8118, [913, 834]), (8119, [913, 834, 921]),
   (8124, [913, 921]), (8130, [8138, 921]), (8131, [919, 921]), (8132, [905, 921]),
   (8134, [919, 834]), (8135, [919, 834, 921]), (8140, [919, 921]), (8146, [921, 776, 768]),
   (8147, [921, 776, 769]), (8150, [921, 834]), (8151, [921, 776, 834]), (8162, [933, 776, 768]),
   (8163, [933, 776, 769]), (8164, [929, 787]), (8166, [933, 834]), (8167, [933, 776, 834]),
   (8178, [8186, 921]), (8179, [937, 921]), (8180, [911, 921]), (8182, [937, 834]),
   (8183, [937, 834, 921]), (8188, [937, 921]), (64256, [70, 70]), (64257, [70, 73]),
   (64258, [70, 76]), (64259, [70, 70, 73]), (64260, [70, 70, 76]), (64261, [83, 84]),
   (64262, [83, 84]), (64275, [1348, 1350]), (64276, [1348, 1333]), (64277, [1348, 1339]),
   (64278, [1358, 1350]), (64279, [1348, 1341])]

/-- Runs of characters with an iota below, which stands beside the upper-case form. -/
def upperIota : List (Nat × Nat × Nat × Int) :=
  [(8064, 8071, 1, -120), (8072, 8079, 1, -128), (8080, 8087, 1, -104), (8088, 8095, 1, -112),
   (8096, 8103, 1, -56), (8104, 8111, 1, -64)]

/-- Runs `(first, last, step, shift)` of characters beyond ASCII whose lower-case form is the one
character `shift` places further, where it is not the first one that has them as its upper-case
form. -/
def lowerRuns : List (Nat × Nat × Nat × Int) :=
  [(452, 452, 1, 2), (453, 453, 1, 1), (455, 455, 1, 2), (456, 456, 1, 1), (458, 458, 1, 2),
   (459, 459, 1, 1), (497, 497, 1, 2), (498, 498, 1, 1), (921, 921, 1, 32), (924, 924, 1, 32),
   (931, 931, 1, 32), (1012, 1012, 1, -60), (7838, 7838, 1, -7615), (8072, 8079, 1, -8),
   (8088, 8095, 1, -8), (8104, 8111, 1, -8), (8124, 8124, 1, -9), (8140, 8140, 1, -9),
   (8188, 8188, 1, -9), (8486, 8486, 1, -7517), (8490, 8490, 1, -8383), (8491, 8491, 1, -8262),
   (42570, 42570, 1, 1)]

/-- Cased characters beyond ASCII. -/
def casedIntervals : List (Nat × Nat) := beyondAscii
  "R)2),)-?)G)dO),,e()CdL,**++)).))+)))<)bG)cK0d2)N1QccGN))-)*S*+mXbJ*.bpV1/S*+b4Tb35)JbYf:*.*N*.*0
)))))))G*b))/))++)/+,*.,5-+)/f)),)*2))+-.)))))),).,)*,--,)9H+*pMb(biVc<*b[.,+*4N))-)wy*V:DcFbB)?+,)
b/-*)))-C*+)pQS-1/bDpa0/4-tUB.BwUbDbTL,Lc43)7)/)*)3)7)/)*bh7[5[cfAb4qe8b4tfLbI)b;)**)***,)4)))/)b5)
,*0)/)D),)-))+/)gD*A)A)G)A)G)A)G)A)G)A)0bj@2)<bwIb8bn(B.B.B"

/-- Characters beyond ASCII that the end of a word is looked for across, such as accents. -/
def ignorableIntervals : List (Nat × Nat) := beyondAscii
  "P),))),)**jKdL,*,)1*))eS/d[)-)YU)))*)*))T)3.23))K)2=8)bY0)2),I)))FCbO3b.3,)*)@@S+T)/*.0Qb.b+))),
0,)+/2*5)7)b.),,0)<*B)**b-),*,**++)F*+)3*b-),-)*,)<*>.))b.)*)),0)/*3*F)b1)4)Z)+)b+))+-+),/*3*E)b.)*
).)-*<*D*b-*,,0)<*E)b<)/+))bN)*/31bV)*11)).b>*C)))))b+6)-)*-3)L1)bZ,).)***A*,+8,5)**.)7)bR)lL+s2+E*
F*F*b4*)/0)*3+)-)U-[)b5*J)c6+,*1).+e3**)b.))/))))*0.2*)O)0GY,X))-))-)P14*H,**)+b,))*+))+b.0**b4.bF+
)5)/,).)+*Zb35)JbYiE))+3+5+5+5*4-0*2)*)*-Y-)2))5)85[IceS*c1+c=)7)bTHW)j))L,+--)bQ.bQ+vaV)y*.f2)bV,)
2))D,bD*6JbB)?+b[++*0)+),)A*-)cW*B:5)N0A3V+X)*,**9)=*b6.****4)0)K)3)[))+**-*))C)6*-*))bX-1+c9)*),)
ozT)cS9l)8+)48J)*)d5)/).)3)K)))W)U*b7)=+jU)e:)cU-tQ.)R)1l2+)*-,P+,)d1*l),h?*cY3Y,c;)b*7Q)**2+Y,***)
,)2)Z+L-)0b2)4*b(12,*)bS+*))*.)d,)+0=*b-*+)M/+-dO0*+))?)bH.)),*)*eF,.*)*C*bI0*))*c*)))*.))bY+*,)-e[
1)*eX*)),)cP,**,)H2P.*,0)1.*+V5)*hR/).))bF>*/)*)*c:.+))*)/))b<*+)))gK*eaC1kj;-b//1,tW)b39b4*)*md7,)
/)*ck.*),dm<V*?k@+18*/F,cT+bm+b+,Z0)6)>-)7ba0/)9*/)*)-f)6h,)b1,bcX/c-0caG-wlyQ)FbTc@eH"

/-- The character that the runs take `c` to. -/
def shiftBy? (runs : List (Nat × Nat × Nat × Int)) (c : Char) : Option Char :=
  let n := c.toNat
  (runs.find? fun r => r.1 ≤ n && n ≤ r.2.1 && (n - r.1) % r.2.2.1 == 0).map fun r =>
    Char.ofNat (Int.ofNat n + r.2.2.2).toNat

/-- The first character that the runs take to `c`, `c` itself if there is none. -/
def unshiftBy (runs : List (Nat × Nat × Nat × Int)) (c : Char) : Char :=
  let back (shift : Int) := (Int.ofNat c.toNat - shift).toNat
  match runs.find? fun r => r.1 ≤ back r.2.2.2 && back r.2.2.2 ≤ r.2.1 &&
      (back r.2.2.2 - r.1) % r.2.2.1 == 0 with
  | some r => Char.ofNat (back r.2.2.2)
  | none => c

def upperChar (c : Char) : List Char :=
  if c.toNat < 128 then [c.toUpper]
  else match upperLong.lookup c.toNat, shiftBy? upperIota c with
    | some cs, _ => cs.map Char.ofNat
    | none, some c => [c, Char.ofNat 921]
    | none, none => [(shiftBy? upperRuns c).getD c]

def isCased (c : Char) : Bool :=
  if c.toNat < 128 then c.isAlpha else inIntervals casedIntervals c

/-- A character that does not end a word, nor belong to it, for the rule of the final sigma. -/
def isCaseIgnorable (c : Char) : Bool :=
  if c.toNat < 128 then [39, 46, 58, 94, 96].contains c.toNat
  else inIntervals ignorableIntervals c

/-- Does a word end here, seen from a capital sigma: is the nearest character that counts cased? -/
def nearestIsCased (cs : List Char) : Bool :=
  match cs.dropWhile isCaseIgnorable with
  | c :: _ => isCased c
  | [] => false

/-- The lower-case form of a character, `before` it (nearest first) and `after` it. -/
def lowerChar (before : List Char) (c : Char) (after : List Char) : List Char :=
  if c.toNat < 128 then [c.toLower]
  else if c.toNat = 931 then
    if nearestIsCased before && !nearestIsCased after then [Char.ofNat 962] else [Char.ofNat 963]
  else if c.toNat = 304 then [Char.ofNat 105, Char.ofNat 775]
  else [(shiftBy? lowerRuns c).getD (unshiftBy upperRuns c)]

def upper (s : String) : String :=
  String.ofList (s.toList.flatMap upperChar)

/-- Lowers the characters `cs`, which follow those of `before` (nearest first). -/
def lowerFrom (before : List Char) : List Char → List Char
  | [] => []
  | c :: cs => lowerChar before c cs ++ lowerFrom (c :: before) cs

def lower (s : String) : String :=
  String.ofList (lowerFrom [] s.toList)

end TableScript.Text
