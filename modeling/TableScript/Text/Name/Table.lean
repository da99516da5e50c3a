import TableScript.Text.Name.Packed

/-!
The names of characters that are tabulated. At the end are further names: those of control
characters, which have no names of their own, corrections of names, and abbreviations.
-/

namespace TableScript.Text.Name

def packed : String :=
"w()2,%v8M7S7Q0:V-?%6_!t:nN,M?iSu:|vd3UClrwnUj<93eecqdYvvyn,K9XW0aP:BlBDUFMP8YUeyY58oSsiJpi>$O1zT0<ar
VT5=66??[Q)SSfw^]w<~4()jsyEMwd/Hlm>1<S:<Lgd%:gU3,_;kN]PGeb,uqfw.%[>VgO2xCSk^ruoysaPQe@mn<kfQY5IY,guz
Ipki(up;Eo8<:v,E.]WAwsa=zn&74y/d=_Bmj6sMJvy6HA:!nvbL.kaV97NEM=+[ytKNNotYr75WwJ8ry7g-DX1B+qUj;0D@c_2J
R(c|]_A96a+@1ku;w*b>cH*+].V^fI%Y0$qbmw4&0z;n5~QTq_=c|yBH!B0_5dCE^2Nq4md/z,;B@UCi_5hXMz8]j/Y:j3CzTvXx
@1wn2HriM:.SoZ~shb7uUsQO9(VVQ&4||>JKzFy^O=9BSclrBAmd|*+2lAAk]+N&7mbaLrogpRTh%lV~17?FWd:Udd6TENru+;XY
Cjlu|vgma8mA^;.Z38iRRT+Wb$XIPot?*0$cj|c(l5=boi)y-PClc9/9;$(nsYl:]eg65A__b@UpfHj|d^&Y)FpPy8MqDI;j9s&B
/beb7P(DFM-4Am<x8*;,6rQ^&kI+(4&oko(>l>)&SGEEyYl(+D5$AJ:u?MGXS2?nq-SiVs1v(BwA&YuN<~[bAt>GOsLcJUN^/xuz
eY?Pf$rF;|UTRAhyHz8[eac-yxnX7%=,29+I]=eMJ()p3)?enairJ5v-|0(iZHYL8i>$^xNMH6[vF3Nfw93Ek(!L-!<,2;L(lbVk
+53-u45vm.-MC=8=(n<Z33]nvN$KfPak()=?Zn%n[Wlhqvp<!i@Yy_@bprRajf4j<oq64?|+B>obJO3IwPiS5U9[,!0aaqF@86B4
%^U:O:)YQGK1ZVV?l1j6%asnKg)YY8!4%-/@sd<vGMNxjymc-)X(@tGY8fq0P/EgXGY03Ig!iZ%<D[]c$Y<-E=bL)/%;i<|au[(/
Qu<AAQ&@UiLRSc1fHfSx@);Edc|VuS[5]JYA)LU8P_Jl_bc[B<Kl8/=V[iZ:pH|IMM~9szUO/xA38*Pi1~|,S=+.W9we($Gol70V
A![>,]*P)2i>P*yY4YQRcmx:M7VRVXHF(bLeZHZZ*g|2b:DH_1fqBgsg;p)hMP0snbr_WNM%>pV$1e0-Y->CzhR&gB=XbZ7r1x@W
i5.4;qO9mHe_uZB>nG9mFaztO5YuAqVqLG=Vz=|/A=8ALiXGQGocm_zCab24dInn*-AG?_~Bn=@]]2Nls*Iz2d39IMjpd:8GSsZX
3EJOf/x9[EO:ka>EK85M/RrlcU4sQH5!TYWO38W*k+=T6:aI]SzFC8.EpMz:HaIy)r34pt%10qQ??]I|-YRhOkoWl4q0-RA|.Hgb
@CpiQFzZimv|q%s+tyI,vEV5t,nxA@Th<Xa=6VnsbU<ejzSr!RCyiMy4zFTXyf%-~HM[)VFN$n<8CILd.6=Ojbr-DczK6dOfW&W@
:I+j$/ZBn&sy698[>mFxebHHci77=5(bM>$J(lt$i+sv@+vqY^lPeI:RVKg|)mmbNRDR+/yZ]|Sp%gnIp/Rbdyg;iGUhMq:]n.TC
pR:GXa16Al*(k@9ylZDnA2[ubsX%OH^cDV/4?~!/xsk[nJ4[x&q_KVf!@S-@yKUY_n>0K/_/*A]N<&biraC.%:-]f;c&AYmFFj6.
z6~+nA)ig/[Oz0r6;tysFK)o?__lXUyOxBphWURVM^EdP.~kxWqVzPw]X>3D550bOZ>8fde/Z]M)KwG6N1Wn6<8Pt]mtsbxU&EK7
p_X,q4JNvz;XEQRR)eJvN4.XfXl?x^nsrtWmioeLO@6hQJT4??c3qjfeSX%9y2h?]f(2Q1;Sk8|nuhc~bY9!P[;T&o%,hO5ky]m2
mtci6h]Iw<iK$eS%GCk!Nuc3]*ZbIuGIkllwkGvTB+368>.31|>Nbq=U(&@i<<e&|[]1iJ,c2ivCg;:<PXu2p$)dFT!KjzuqWy]|
t!M:fT<[NbJkn22wsP.?Kxm?Kr[JKLh^9q*z=XXQ,AQ3?0O0:k!K|wgv?04v$u~5x3+p;vtag3iXZi65!gd&r!C_6)mnULA)UKLv
KH]lIY6OIYY0x0[Dk>~,McdIWC1?JCclgIV~H6wD$z+OzU/zEqPo1k^T_(7i-Rf|eBiQI%Yk)yF5wKs8=td_<TldL<:A1S0~X6Ph
T1,P$-.v%-h/N1Fn3156HDfkW?d+)tGUWLbHN+RNP]:=u_Q!((5aN3@EP.RZ~IQnOO=V$aKP@9]?B(XK>d!Uz~D8~Ro|j+QkFqiW
eYZBBYV!o&&%Kl5rBR[^+2)|^,<M6[q58O_)QFIYaHo>jU%k2P(.BOiVa%aJzPM_;cb^szpIowql4n%s~hgmfPB9XR-N@*%Uy.sM
0Y.WmgLNeV,EC@c|Ax!E2$KrzxiBo+,i)b%:!k(L.MA4df]I8h1,L)n4IY-TF%@&~/~]^(8+e2g0r-jx?hBAa6?x4e3+K8?mcI=K
>,ER@8BeI_gNp*~8IjJ.$[QKuxipT$<E<)w>/l[+kru2t$BrH(N(|CH*-SRmycsQC+<ct28HjstCDk|,|ykf3g%8zWo[b]t&tr(j
=jG|([XwsD^.c2(MQLI?s*EYMR]GS2xZX+(_^XcMILJ,hH6+uMp*M_eo.Zp5[n@8W)pJ~zzdx>tgN3G@ve!_cZS%GF/jBXgG~gN|
y~5?OF.)a<1-J<TgRyTwSkJER)>>F/b9gmH&-?8Uv0^S_%RTZgM|C(nQ@wiT9[lqQ3i>sjp%w,Um(0.|EE_2L4T=Nx1W(MjNao8^
6JzU/>7^P0tvOgdWQy)(Qi3@?:^9(fX]7r4YM1LB%0uJZ~N0v^>^>=~w8pAa)g/->mTmWWuU).2p[5uFVL1a(M!%/z=-)4Ud<C*f
2F-FdYKqiBqc%-BgnL<e&9vrwo>Grf]aWoasHufD$*TeR2rxE2q$tlh0><*s-sEipfg4]tfRMH3:=;6~Is:SjNuI/iYxuV|B5p]2
(b&6]+tdBeWE|?(9Am%-V6T>$~z[4=PwvKHNZ6B$umJmW@O$y~RgGe%D%%_V7b^?uRUL3.k@Zi(*a2MR!x[q~*[gLeZtgz7<(0Zy
h![N$u>+_a9|O<-N,vZbG->^h2idNceX+6@MK[gT58k0[TN(?09m|!98!uM!K;B*u$g%P/U/$2IO>!.qw5,O2e6%JjEM-zl8X[Ih
i(h]aT%1A<63$F!7FJ-m>$MxH?OrGr+R<0!LEm>.W^?qYAlI7ryNUGG>-Fy@>%h:*%dzVUuw_YxXMqNvr7<g)(U;5(VbiWC.ow2T
R<@S/~Eq/KON6i:U>HWM*cLuCbh@Z_joo!>c^_6q-C?V7KTBIsIQJVLn^+*!~9b!KL5M+K&wCmt>lEKdAQFj&$$!>20S*F4SRR*E
%8(8AGBVAj_Jz[c7cp14I@C|Iy|n:MQi.<XHath|MubE=pG$w0vnW17v,;|cU7sO/<9$$]j$09*wv.H7HL0<g!6<u+@*gV~22qX6
3vy9KLVqF3BEt;=r?8BcJ%AG&Iv@/W^i,>=Lev&EfHO)iPc/ra.sSVd^RZ!s^xK<-enfZQv~<L~t.ouoRC5pkp+iE(DHw03Hg.50
wz|AN,P-h1>8!<aR/>G;g)lB;5s]HL$1;3)hfS<>nY:M@jIue>+6i_I-iNetS89<r>9-AeB0b-J_0wG@K],eZpHn*Jmr.z))>Bei
6)$0Y5b&iGD:$y3_i%KLSoFLM@UCGnAk^*2oEJQKKiifL|[JBX~O.>vF!Jbj.[ES&k2LO6?7;B)e2@2[U1lc*>x3[d]V_o@jFrF(
fj?-:qKZW;ogvM5*XVDhg=>c^|kd;<bELudH@sU-S0.c|=BUB.FN**@~76i^WKzPG-s-4%<I??P3ykMYZFcp1WLTpzIc4.ncqk:U
)mZ%d03bkS3RfQg+xnny-x6)]>)[@G^OxIqMIQ~;;h!?HSGjh5BwccvrdRf-uW6F6o3l8JJ5J()hze3OuHP4PXgM?x|sVn7IIg)5
IN3HzTKqNnO:VTnezrXmhHU@e%s]+qP^u55Rh,2S[PsVhmPm9S+/j*[F!ut4uNS(5Sj4W~Q=Gy8_s0HzhP^;:3CHW@zzhTGOp|7D
RBF%lgOMPd[dK7t9%q~WqsHcD_tZ]3R|N+FnGO>-nDO1GcqD:n^zd.*2z2VK&|OdV^$&ULor1ycb5>gl<M&+6a.@1tXC!Q>LC,(x
5]O7aF6H4rFq**(m=jEB~1QXGte8/g[,p,+(>>7Fi;Nqd39>VXdf<)KNz7xv87|/L2+a[7hz5uli6SMP!dl,yNWcS1%Oq8fo>R.&
TzkS-%LM[QSE!kJ*3aOS0ZKMG)yubi*.EMc:9n$ty9_:E^_(ba_K.Mog&w1h^Mm^+6xqU-ga5KuUKna;Gw](pZ!gmfuGB52oFUqy
J|o*6qstmK>FrF:e;_LS65dgeCp;1+k&;K(ruM=2rudGHk3aLfsBDi@7NZ2GC&t%jMDRTbsTKMbrhD/>OXxIm%_TsU/TR8iKcH0m
^ndZ(xPYaDivLhZQbd<0f.OeKcmVyfFeX37WNlyF/ZEk.sAOe?8F-]_;l6_27OA+_l_wgd)%;W3U|I,;)j-]2=[0h2B/+w<9)7<9
Rn?uqHkUqITu*b*LFI./FIr(PD,&QZ49%1yS%Sv<&?xn9cME(ZR/E?@Ht$.n&MJHL/0BN;&Qm*h.~jjy!,.<0gLSVGW9>f~]0pgf
r%UL/4Ov;RNs/6-=eQS..u,,3Ixrs?(H*$Fm7_0jd~e0SgRK4$_z@8h6[H(inROtJ>vrohAi4?=^jbs5+rJ)_^fMk(crOy/o[&qX
ObCdWd^q10E(,NlqVoq7OzgKPQ*%-f.MV+qBQk;7V8!iPRduHDPJX&(/Q71$m,O>R~J/u(a%B.YU6b[Fr%*B%q!Ch[3N~H(x+FC7
[&3tPLFxP&ql+9Ltvs&e_TQ[:Y&LXLX^h2v.pg<hq/)>zbK!0bg-5TV:=fAYA/9ygpCj0)v.uQ>(&DUu,d;8@Ej=5GKu+XH^_>[)
G)$ja/8U_iCP!$J]+(j9zp+i+!0ya*GCrJ<P_QBlmr8j[.b3.?u$0dAuRomu(%jFPc8Nw7Ex]f6SryX?=E]@bW!2H,u_AoxowY8X
1_[z)8&:nG=o?ChFx?,5%J,i@M6-c0.iuAf]UP5TS_)rT]*MG2tvSwSvkBEcWZ)Tkc>MdQM^Nb+4P&.%Wg@LRsC?8RT,:g^%>d:d
c/?F@cnN:ej2;YX:nzTRoO;t?kMla!yGt[z@S~3/H9d+O*^5HW<4&1I/Z-&yc7sw~WfG/C1^UsFAmFis6)LyLBpqp|<Yxa*Pdmgf
5[B[N0:ze4:E@Fel~ke+k[fiGEA!!)Z~gNhpU^U1P|-l3A?%v7h(WmgP$Add~_9,%xVy>%V?JbNI@JmrqH^+@V9$oJ6L?QdX]633
sZz4(%_Xyk8Z|[(MbPmN@Eiqv,-vFa[1y8yWAd6jf,Usu|<?<cY8M/VBTL*p-q)KCYqrY+]uaL[4;foynW[]J5>;@WKD5krg89l^
deW!p-LgvC^:)ULGyK|[JftnNFVf3Svlg&8Eis9$.gJGcXtjG<:*|tE@0kf2m|<E).|(eMf_?Zh9ogt0Q/&/xj85BNZkT?Nz-!6:
jH~b$bSF$&b]hA]/6[7Y:n%Bb+@meAm~+,Jk.HPkm$%X_udMI-n8t[i0^j=TpOvWE]C-1^|pg0=XOB>7vO:WgB4yb0%=_jz0u2u^
p[k(I+^%KZI&4!y@+p!EB/?JKsnBWQ).dB^aan0sDhv:jbzBu/sO4/f_3INBPwT/[<gW_w&lQT_<q]-:=SiP@6[Ul@F4P&CB$!49
1_0Hwz~@]DFKd)b;ky6*OjlwyvB]580,]Mm)/z-0ZDG6-E]D|YFOOds[Q[UBF^bZ7S>%?mMPVSz,LQ0Gw(R??:(v%-$&ti]1S-XB
D^,sm.BB-VWGKyyZSxv6cQwpEhc4^hjD90cn=_NQ6S]0D4HkG$8S_m|Xf%~Xw]eH5+A>T,;jyo1V97eWYM%Jb5HH*la4rlbA8Gln
yCr~n/7AK7ME[dyr:,~?cDS@Ce=]R$t+VlNpE&~/.9-GsN^L)~$$TtLQ$.yWJff2ho!nQgxC+n9E0/pQJR0Yzgbv2JQ?3m/U)<Dx
@H&1+F20hjvCy=Tu<Zztij>FG$M^yRO3]g/XBVB~oAFIuwo~kLW3gZyZ9Q*|0A,w[4f>]]-g_wc>v*E+]3vXW*2VUYA6]GVJ<leZ
je~EZRM.(+6(x+cY)e,i,0*age?UU0^RJ9^jMGWWn3|+Y@mt+M+mnLuBLfyCwQ$u*4XdcVI;L7D=_M;t(0Z1?<r669~E1S15[dT)
dh02Mh%hMCpQL=d88R.f.&Zb$R=aF)d0efua4hshB@rO(,-/h7SDBm$2/G5al2CYRc^ei-j8f+F3(5N$jHSDX@E[|*[1@5KY:s1T
(?OWeQ~M!87y|!:Q^l;S%J(nf6$oL3qV6E|!uzIihd[PYkn*3zC>%FC/e~Bh9[|_VaK0i&5W^yV=_G01G0K=zV^kG;|!QKd7is=P
Liq~ec7L9XGsoXi|vl|JfkZqBW|k16<)D!3!_]:Avlt:]NW0KHH9%fAq.ETjb4)<ueIB[Y$=&F4BI2]Fz-y;;8L(wB^*5T78Ncip
NBtw9nG+<mCdgIIXh]hYQm^%KB^d+&-=|f1g-z)FYU8Edbe,6tR@e+F(3gO5[Q16bMiC6B1P6)GBb]*c_nA!qsokHs0]z~B5v$n>
xhIqMDV!t~%/M8T3q[Ir+^5&,263M2=z,Ju9+jJ.~(-y^$vS:yBTd~i~7zvze^0<DMHruqsQlS*Y7<f|[?k2H]fp&_ji>RR:za@i
PK2ODDFk<Rk10xP^)e3Ol8,<V$KF.i/lQ^Yo8c+tTZlDyOpIa:KX~(lVyoI1Q2%61S8.+tRyFi3pwH&$sS=PUq-pBp5F^i,f<m@e
kRZxA[W1Uwn8I8,o3BRR~2bPa4!,<J3r@UUt2ih6jLneef=NO%VZOZ>qj2&=s.n=(w6StO*rO*1~EM4-:v]8!P)rChYq[phV!O^L
f]yE@Z*7Fn,w74G^:au@C3A9L|T6f]zI@)Mi~(wRs:_onb%2RUjZF%O=HTkyO0nrHkE-&Ejvq>jW*LYu:&J)]wxhdO8<wqhhl]$W
lR1rSi)uiArfl_;RcsKRH4-32[3.whRZ7~7%~&v~iWM5QM9a>a$Lzf//CD=OxbhV97PgQB*0K3-W,fGe0^4?)d$$BTDx78bPExqN
:wUZNsNP%tOCafL_qw$__[Q;$Sc?xj^D[BV;Wm]xq0(BMqulMlTz*a2~z=tmLWdhCgX)MA>Sb7+K|F%o7%BNWL=pu!va,LsNW[J8
yd%5XP^^sGP9jkStM2fy4<7,C9F8DYGuC0pL(9;wc_>B/WH?lZ]2tKv0qUPo7_0a~.Tc4|t)q@HPCjO.lQ94e<>TB<jUgmgwJHpm
-hAzHhCw5n@J=2ZfCLp4]e-kv6swA%m>Q=/tz$hVM$YI5ZD/,0i7Vaa/*Ub+v~9v7.jeUA[Km-6v)f>w@c;49%LT=79NSX2it&,F
P]nT4_e*x=&Ixawb0+$*)-h2XAjmL~hd6Wb?QXIJa]B5J%(|/_U^hP&7A&q3Ol^l_=oOj9PRxn8vP^&*LzFepyn)%;EG(vmCG^2$
RZt+b@jSUTXp!tMJ8cTqG25TFc5YAiU8x,dh;8,Fy|B(v1-3fUPDxEyt8i,Ft,_Hif(*dtfT^P[=uIbrNnnbHxd!/=1]z,!nu:L.
:f?Uy8PP!mkYxz]s](&W3?154/htiRXU$MCp.~->UTO*2>AGDd9TAACwp_*=aYZ)ywAgEJ]Tsq_ny<$q/j:v/64UeH)B91U9$4iZ
6o^n|UFd2)OnZqDT4FFpIG]W]LCIg?<OGw1F@^c:Wwqo~4v_Mxt,;dLweW1nKxTP^$b0xs|.Zy+4gmPNu&pimdkn20B:0@NC$ZJ5
>Di6,^FL>-C;vU$R~iTx]j,3Ne1go6/n)Z?aWBMra7H%xzG,)RMUjkQZ|w0:%<B1OIb5qF+N>T?h_U=pqzvaI@T;,]zY_&v[96D$
6=qr*O*S]2si,s$,hZOh%[Z:%UsbmANE);U7qkW%KCSRF<B/p(~/a.(%q$v!(JMinSMa??Ro+FUW!R)Sc]a7(a:MHzvBF+TI-ZA(
,k1LQDQr!2&e+USCZUJBi^(RRVdJPzroCx%~?%_&Ax8@8N%FLmJ=1@qKA|g;.M)fC45nWjn(94d>QtA&$@>[)pdIk%Z^Hga~j73[
wHBUsWHBzo!y>2Ib)0RAGoLr;t!+YO-jK8>/=a4@RUWpxn,J,xf*;]xc7$=VB06YRt@_hQ52D^4Md&7?heVg1[0kYu[^p$k-l_$;
7J9KTI~sRs+gM2mm*JnOpcKww7]yr_U*L1*Y+hCdL-l7AX:m91KKG~^Ggv/:C]6z4),Nu+%ied]Ob_+-0<!042Whr+w.0~3~&l2f
+F8/dlNUf.)9Jt=8.7Soa,pm|3g(3nrYth:YdtE%rih.,.c>0h)4jQ_!as+=r:<^deL,,fDjq5sHU%g1YNA7&YTD,6fwt~lkQn&;
,a5cfHKHE-G64=F1zWG)ePG*=$5z<5d?0il$0=:A$L2u-VuzzB1fcLjPPu_kxYf@2IqoZd9QPx/$;5!FxkHO%ufjMT^hxifZQ<)l
/|*-Udy)|77)8C.+,R_q,~,N=E25sL;GH[T:rEMW(S;](r*b2lLg~fdr2KT^wq?:Ua]QIzs8&~4W:[^swf@OxK)iABH.jDQsV21W
V3JGQ@Iw0@~z|@DM3P|~%LqvA;Ss2t^B5UA4jvgRK*3fce?u(6Wp^HcJ|2<Qs.w)-p|o!_=8j$@|F@J]2nXPT>r=5/Y;79,5jiHA
aeQv,EefOy,kl7-6[$/.@1G|.BOn|=]yNZvh5!/VJ/zn)6J3ZSD7lyu_Dn|O0lLf|yhYX_&?LXw45jZkfj;jbQ<~Ko3z&nS8vsF.
K)X>PfUUPjccl2TKatl[&*mJ+=mb=eXYm0nUsfjhHizo:u1aopY8V*KaI%b+Sj;u|AFCj[!X6vykslts~_MvGko%LS4>eFuNG|S>
kXC/ZKLe&~5$|eM@~qOy6]-<B/DxRb+F9|5sPCa(_b|QEOtsk3p20sXx3ncNx*jleVJsUd<p;.1mPOPWXXEBo3wp-;.]a96C*.)m
PLV8pPeRtX*0_l?|y9_*Mzzsc3^Irs|qw0:gr;q6Byi4$EQW?,|T2ldm&=:wEGi|mEC9(]X/v+i![rMxOt+)GAT>6J-M0<s*|lz)
qCktTo%!0pY]=ZmDgNEo7x.LzQ%x:iklH|YA4dpJt*$yc-i295<;5*KFb%m*qST.6*DUk9]z=H!|fEl!8i+[[]d/PN2Xi)en31x:
r%Bu%By/5CX~/FweJB4m;_s0Vf0]08:G&Y!urwWW6zZJaiRF70N5LSXMAP.xPdUh0zPF9dZTMFe;>lhiTghOOa$hTfR^EAUIED6E
bm=[xH:v9n8KV]yL4kNmH6B!t50_.U65$OO-.R~dGdPn9i>,|r4j*1_^qoTo+64LwFm>1Ee8mL.!Eg(itVdoQ^HSHTQd(TwgrwCs
@MZl/UCba,]/ckCb]o-zj_8L=WA&lXd&e&D>BW!P9C%x>G]kbz0mNNA.3?Mp~hstD&RrTw@|~%pHp/|/z$>2qR5fPC&HJN_nfl*)
IprLfcD(J+nFnmKU_fwpz>2t/j-uX8i>y_VCK?34pW$?c.|PU*Be!.:eE7CL(>si7x]R[eky0LM2yY.B30cH84prZWdukD:q.&Nw
<df(q%-t&d3LDd~56I(7g%pBF)EwuqS-B)=?Oy8=4B;9o|vjbSg!&FSJ<2Du1TGFac@&ln@K33p!0*vhe7i*wqRx9!S4!sWUX1ie
)?Y4BOkl$T3VfBeyPIE*_5]p!7rMm9kXD]tnvJgr/G$4K|jvMn=A]T+W>=u:hjtP_.$z,mU5V]0[1-;n|tu<Q1!&vRpMbJ72z;&M
lXVM3I)*AwOw64jaNvz;fyeC+~Z19:a!G^Hv:l&at34ukK4+yS$9.l3nB>;O4f?-vphFyTZ%!fd%N=Ix$uVOR3a6.(0?C413hp7a
Hz@6Sh&6,[bRv.wA8-@N?XhggNSa5OCeCpLY&-KwBbr[wRK%C|vQW-BkQN_-^~AaCdTD3nT=bQI/(!8x7rUE07Ggj??OKxZH=]QL
B]~Xjs3I;pi]iW_0?,ek?Nw!j-V5:Y-.u-5W~J6:Ktb.o|woRLMhLsTl;g$-SS<Ci=wREI/~/G%TSghGY1F_z0|]U^-7:n5:R?Ni
nEoX9eqAuDpXeajh@a6Pf=<7f&;/&Wvhh/s5/u?zlhx_a+%&nOVE7*_dZlAX>iQKgN@5jN[R7b%+-q&x2zA]U^C?eOM<]*]JNl~=
Q>xC1[O)~XelsxGD,gLyo=8<MLY*&%XfakOrJ5s;8r%$-FPVw,MH|LNcQYZXf;%d=HU8yWzS~Y4c*+:3nj/->k(]UkEVZOOe0M5F
r:IYdup)1!pY>y*]&-eAoJAh%3kMwiPypEC5_bp@B]h&~YwJRiR[ieZO2u88rdEmHC1Q&.UH*Vu$ugzYCQnzc.s4lVu~J&_z&-3z
^@v=wJN|PRptEBF,J6.MfDv6FT?FPSNW0K<_dX-AR%[TXL2limqkVnIfeRnW]74g3+)bjjr-%76G~7Wt)Pp7NO_5NzW4r8X2i1)+
jXA~)A*klKdp1>M::^gMZ*mlVIOFQ1D|_8B:T6f|5g24$fd^w,Fb2zbJ/R|8VcEe&pJe7EOaLy-$)@2n<b7;MOwxY<7lbq>T6i&1
874e$MfgtEyh|1yH^IZ8@?BXlJYpo_6kr1Y(T7:;3i$j+.SNK:OicF/Oy,-I_97c;s-l+(=I>BV;)SyeQ7.X3xeM_6a+ka^TISqS
;bK+3FFK+(ikbe3=S=zm;jOQ+=dI:k=o&^EVt.~jpH-YT_3g1+8Hfp%Hr+B$6Q1pcG-t~5i2J<Ux(8P@3Zv>hc*Lz*|R>^rQrpXV
Zxziv>0bz=v@|Sx)RZps1%._>wXI7X<p;_b0HpiX61kcb8o_52JP|CrIm[.c$?X>;oB<$j1qC8=(iRnfx,v*LhX:akdP@x6@4$Wk
f?(n|$lY54_XAc=6|@+Ai(91I2RD:q*>)|Q4H_ADso9|,M+a4Yifz>mc2pfv=A=FI.ww&y0.In^QQ5oD94e.r@fi/IJ(C!*pcrD$
vW=>W46CZ*?I(4E,.)qzhpS+~RUX=UrScYmf-;Vs^ZY+us<.90]F8XE,pzIZwqitPcw2*56*>UTlR[ut%%SFK%%Kt290vvA=qm1-
+7P!TF.i>hCuPW)wyTGDAy7e-H%m(dPaMR%vU,4qTg|PiI9V&(S3>B8w*^$x/]V!lw%Ysf<RM9SjX-C5&Z26c^$)(jfvEMOvImD|
]5O5Myol_5!yeqw[eS:<ye[CN$ju[D1Lnv4F+zYa@VBBhw&2$*9TA;Xwr;.vYuu;l%C)~q<Y=+-i(~2:@Xfl:Usc^k|N=T/0@=AY
T/vR8Fh(y;H;1l_VeJZn20Nlha](AfivYjBW12kpkQT.~%0P:iPZb);-88-KM=qm@-,GJwN0.FjG$u!493x~(iXx;MCEtq(5//hr
ddu/^HNZ/fJVf6fE_-nk$l0_a4;-BY|oT~aW-(LI2wNHHy,OZ>i~w[xyVp[rz27^H->PIN4DpRpgA/vRbi~]jkT|zrpA4KfH[vsG
M0O4m:!]1Bkc$OT754s5w=/Jn7V/(6Hzhn?Rbx.(.S88/t[63B)i/CeC/JuET.i3l2H@^N0xx,3ctEbkOf3ikL;+E^X~OX:eYpAf
OJThzWHt!d!rJ2LdlIhpJ7!K7|$.[-GWklAfY+&V/VzV!,6k?nwzV-M9>l;*hFG[uDY0da3Fp(L|[hZC457Q48g<dxNOT[!g&sFq
hZflL/=b[Rsc:v~-WDs:.mT(bN9j4icRvMs[yu2r@Ad~fgXF/Qh1</2;hXSo-a?LFP!M:E,D?ULZONs/$tpt.XC2c<~@4s4WS/-n
hN3CEn-X1-N[++NP~RbYXX/0r%.?(U;FS3c<P5:R=$C-ic@%fcDQ;Eb6(7dG2[WJj3RcjQsNgQ33;YivWSw|5h$WZ;GKRoWl@LN@
Zm;-F&3]Hw81f(JAfPTs^|/n([XspLCc1[wvxo*(rxFX~Myf5LAh-5*N@qD*<VlA+_wG&$:d>NzD>q_CbeQuc|*VkzwZr]f4kQ2V
x!I1tJke9Dk8J3]BJbBp=Fua2C5(:B9r;t<^;leV(1&5?z3T.$g6*e|t2HG.u6+g:Q4.?&!R3oc/ltqd$gb7V[zPiem(P0fE6S4L
Yi2spgCTZTehc_E@Xg|/?xqnY_V^,V4?9pf,B2Pqy8hm1o0k04Fd1z|XObr_QLuo+ju4>;Ou|VYZQq=CT4wSNCE<7c6@7zk[LYq^
g4pCuTBn[u_R%l)vuE,N,9!<,~ymnC&5@rLp-n8]+iBvkpFiQxxR/zwl_jjiR+yue2DwSZfcg2]OZ>3Q?oF$HTiqm:mW+GlnDL?6
IAz9qSs7Cgff(>|:Zcc8WOWa=@Z44nl&I&CJ0+&-p3e^W^&W2~47z2Pdq]lzE.%T9D2c3[jhB->OmX9zco?W7zZo,8QQ[_,DYV%]
|1y_T>jpy;Q]>~f*-gFNo^lF4U?qpwzY14r*^ff_z*RrK>=K7L<=r5LPk8B=!09UB>jojrp~U2>[?9e&Ok|f>@fWDC2LiC,cDjvj
|;6H*zZeP5!F8z(Q_7~*T_^Cc&Ew@^MIgFKi[E@:2fOwgy3%+KVDkR]UsTrEh(Y*z1:eDfc*!FP~M[<Dor?_$)P8J@h9nr^,KV~?
~T>|kIxT:|UVXlPAp,-8&@K&zGbl7eviWOytrvp/9Vq@%wL6ENw7a8rG.sBleGOU!FBYL9C[qxgErbunWcgXf+QXkQsJf:lRf/)m
4lOP<Qbk/%kKHZw.loP^bV|dtNGB=WUep&6aXL_|X,^J+;rhGrLc_TxMU1r<mGTV9L/m9ERK^IILAxqWI?v0[I2<KzFx0,AJ74)C
Z1OWJ)n1LHazWaMLz(45i$+lWD=I:N*?<KOPI135C=VT8Q7K>-A=/030j@=tbbPuYCVa]I*eXNl75&8[b1f;a$P?0B==9OncUg+V
gLF2RMg[zC->.85vu6As:FI(pGF0svbl+I?Kd|9X(,,O*;YLO(&S0nTt*|9IYRpoxGwin/8,$RXvi!N&hTxLSiE)Rqezp=kb2Y_h
7>R8cvzRAwpxqF2FlUk6j;6[*-dJDAB]DLlT7<=&Rd7(t6[/y/<9f47Wim7UiDpu]o&euut3-uKn@*p[~?!dhUn)sz(SKm+d3dkk
/%;l[JzehlAH0haY||)+.Xm$~y6;fgq2=.ILk~Vcub2oC9T!Y?QtJ^xa2MlYvDS]mq&nKT!0wN~y.jiG$3+h<&9K7N+o.hplUkSc
Q;EgNRtc|;T(;N[N5=M^AfPQ$TZ(&/h%W.kzEs*u.e_wID.+beZ;~]^nJ-&YKq(FUYdqysNuuSYs)y);JG=HDEOPS/rfqBq2XGqg
*LlG~gHmn:9A*;U+eSQ3$cH-|J).E.%uZ@0I-PRA3PO)G_sh).xUq(/8dv|Q<&PN~O&CkhqM*yrA8_2Q04A*05t=P!4?Z.4!=doj
g>Zq^i.T:xueAw^lJLn~:oDL@(D=/x8YiSamH?vt.M7oMzXC4~iEkGDB<Lu9WXq|k;_r7ya]TNEE,l_J$=m3]kNDeERo,57%[TuV
>]7%9apSC,G71pI*SY85GVd3(2J:nJjVyo!B4x~qcWRN8-7<<izxlD/[&7iETPN;_bQ^>VoF&XrQ4hB)IlE;Nm(5:zFaH8.o8Mdf
<G&/xZhJy+,0C(;rKUT4HGaIZjdNu3OYDSl69HsG-xv_2U+<XBwQe&DtGO_+GZ7mHjH,8~-9R95**7+/!dX!YR&lfh<<G<OEQ9l;
(2W!~?iP0RjAaReRPo&79TE9xU]3-Wt*Tjpnv<%|1eR<w!qyW/FJ38=jFEsWLcLq$Prht<ghrVp,ZsLh77YFGlpGwwhuMI56r@U^
b+FW|&rS%w,A[<:5=h^7!(_8WH*H3<lN*VW[$gL-bI_P8p|(8XKkv/B*ea$;ya5wjh[H80OA,bWd<T^v|?O/cm34Ai1Qh$O3xjL4
E!m(?mGkoxj-UKkCyTXqydaiy6Iq@$K%s/^bPfnEM+Rg&j<F)plQ]P@knM)O+jI]SCe3=w0z)e,vRXv-mt5p]!//U|>U~3aDWhRP
Fy[i]2Y&g%?OXaaXxzSDgo(,dbBy~tWBSe+(,!UPyp7TLKwn=i1M1&.$uCC[sQ2%<94DD_7405!(Jqj*wVQ&@!|qZJ+LW.&0v;+r
j!nL|>XVjW)c?f*($3-*gC?N3GcZMHip)dGd8n<-@s%Bx_9,G-i3Y?0s(Q-+Sjgl<nq9Eq@:xls8>]2AC*H(~4>o5m<^eXHyI2M|
a^H?D|a<Qg6@6X<d^.AjKhuJIrNkW_)rYA^8R%09s/;,A;MAKI/F39@Y21G;|B-Br%>wmo(_lEp]^BTA;hAL?^F-<36a%mDH9Idb
Pu%0zi[p-MUMrsYvMI_tgs7Y7~TYq=z_?QY[9D-c~glIi>O=FgwNtvh1_]![PYnZKb;RgQo~lF,zkf?_6+%*owq8YM@^,5jj8(L!
J]2L*p8?VDGqPD+0k!!J|:.YSyw5^x=^G0E$tEM4zHZ!=7Vf4v,|3k74G?6c7=(^~([tE6KTSm1]$e/Opc^,g|)sU,U^*pztOjaw
bK5<j@?I(&6iCB&<^cxjEN~vvp>~~0yH9YX9Xn,NJv*(r1FB<nCH,Y/;.I|uMoXf1YbE[1jI@8/<@_x6Xl:goJ-(+T.E^$&y)2AV
aZx?w7(0zvRZV[@CYj$y*rbl(e8%Dc^AX)b/VJ[LUXxny<2]Txc0E$zn?6%6Hv.4-]QV$e9*0;io-bu)jsq[TADxH2+1)69$[YWh
OyrE*+7t).U-zV(H:T:xD;wbt^3nZ^]8BDV>>?Z>~y4X<WT4w70?nC/BjWdgf[[@_*[sUe%(UjcAYZjC0K+L8D>p-:KB/Lcs!V8p
81y^=k2-;l]Ax7phOo!E%kv]B<.5I2PfyO*bz_[R:)BZxE51JBsH<p@Zux(9Ca4NLZ1Ngb/oV=Nue!fXrlZO?ma5l6YpsImg[DAE
kzH5uv>08ee/GkzR_K?5]O|dy|*n</8[3I!k+QB&?R$(-R1F@mzle_*]LJ0fUsA6vJYsP+b9O_!2Ozysm7_K2i@<a.56Vik~1n!P
=<IaC&,czvMq+;^L[ij5)hrx@&Ka6I(JkSE,(ji>@DN%M9pm4HdJD>3?LRk--d0:Przx-vtN</S:p^Pk36.cGg;8(zZxZxV9q2Q9
~/A[opiz8xU9Sb~AkH:vtP6o=@z[Sw[>,V4&+t>2PwG34-W[n8U^AzyGuwRpE2_e,t!oTbrF_1@;@!ZEgC|vD)XDbyC(ysyFu(Gy
Ygwgx^V,23IhzAR6xv!b>S6~!P8J8qVHNHk4^J3Fq!@Up]y;vJ5beF:8A!kOHz10Lh@,2:_mB21Y1T5~9?~m<+.]WF)F2&BubeYa
k%N8vaH>g$p^h;lxa5w)eD0H0t9GS%jwp0C]jpAM5>~sfk6]yYTd?(Yfo65O-kA-U$sh[?>Lroyox7r_~=1@UD.])y+gamObU]w5
F|uJz!OVj<@Tpd8PW5.Fkm)U4Q=e1zK7t$d-|ut7^O>c>q?[P/PtyMpLg1>&^r;3M$_0pIfbhlnb^yd?z1a3j+yiZU+2TTefLN^_
qt,X-g7r*yrI_(<t06;Yk^<@+iY=%V/04r=_r1ZkX@jOBqz+EW<XYvc!YVD0cUsY1_*a&2DGdsvw&.|6sJ]aV6V,]7n,f|yclIR3
v>u[~<>Y^MRUcT,hQ,R02Ytue~SY<SyXU4UeP|,lD%c-7Cq*_i9Pw)~5du9Y|JU0|E:~c~G5ev;5?IsL-dpag>nYCa()XvG8%z&H
A+tpB;]py?g=luX4km**Jsl@JLj$mK-P1+bqvvb<OxH(zovufW6q3Qj48(58>Flg!DZL8*zW)TDK)6,7IOPM*QTu~>%vL:77UdBx
+<wj|Q=F+nwCpiFU:gm?.Yh9CG||/51$>@)j0[AknZMR^6Y=rx&)UF4%3Bx%vaV8R(VJ_S&,k~e?!e+54.zgrlx[=8/b?(CBzF%v
80G4xhd.pl.hE5<=P~-jYixsVH=Hwzi&lEraD?6hzIATDs);oTK5p@QaWGkP%zxxD(fK<8~lR^+HSrMEL5!c^sor;]oYm>-Q|e3Q
,~Kjr9-EWQ9uIkiFE5)pOAg^C<_@^ltgA6DR5Ku)%lLxrRA!4-*;Oc*/]Ejz[sE$13x6G!6GK+7GOkSUZ[CSBYL0%-QOp;rRhi/H
h74&.NqRJ-UZ7hb:_9zO/o~w6.L$_&==5P=S>D_b+d%P7m~O23j$3hGS|0,.[@AoUq2MeR6ZtV0/lqG0tZ*I&2KzANGV5>OhP33T
E$m||bGl)XNa|DXa<l<wo.0&F;Z,Qgp;%0+0I8+waba|DT0F?qnF/PNL<l$wI/z<b./MLvJnh+bm(t!LB]lgYA4k0wn$+k=N=68q
wg@sgE*S(?aAUHAS+>k=[;^xaa/B!eA&58,I7;28=%UUSaXSBb)B6hl[QuFFm6??d@iMq;:WBx1vzl>=i?xpDujD75:sLfRG*~%e
1ECC%$[N9Cj|JFu.^2CAokYKa&fj@~8CDFamwm.CL9R.v:>b/ZFFpU4CXW~iJJ,i4tUoES?8%)scC<]WN3G_DUU/tx6u8f:-eZn~
L9|i)*8*yn*&.~YyZN1K+b?+bKwwkZ_,q7u!y(xK]&>bH<d@n9bk7l9|M/DzN$4$sgP=rpeZvg1HA_*fZA!o>&P|TtOE?0PzYG3(
o_Z62l7S+h]W$cFrfh4aORwM2_VJ>c5rNK1wNetFZ]5@ReNgsCsv/zPC]gjEgsrv]2MT4B^0ka*M<IwnCfq[mVTaU4IBJct%|SC=
C1|%_+LdRx;rTZFEOKAg8n1/ednf$MG8,QkB6A:Gqg0dVJrCEM^ZUJRVQ~.g7.49->RUq8T7IzY5%T^!TVtsXy]|/~:;+DO(Z6,:
yDgLdww3Di=<&I!YWG^c|7bfUd*!>Kw+X97~eLQOzqZWAL;EbV!N:e8$dwX5G6Ef9q9n?Q4TKU~LxG|nLY<r>4K|<xQI9$,V&68h
gOHSw2ctUkE~I%b%(V(IIxtrr>)TxpD1pAI4mY0~N^/BjPT9$|AY3)=N>y_J,_E4*v7|!>!*2lrkT)l(@.ghg&St,2+eZ3e$3Ea1
1|Cm99TAey>kkFY.yPt^elBzp[~sTtE%(Brb-a6]O$N/Z&8$0S4t*tyQ71+ccO:y<~Z)7q%OMud0RY:)xi0Vo<o2se?W>IVnLhms
iie^KRCDQ[4s(Zq$7w=BX&+3warQesvIxpLaR-fnIkgwE*xy^AhW?&~OWoVxmroJN(Eb%AmkJCy~i%[f0KMfrGd+gXHuoeS?L;>.
aH_z2_i?lIYHa|46kc@[U^=)3y>eD:hVpto/q@;5hk(4MCbvZhqe_?,_F,c[V]X~P@QI&@TRtr%3Z+UR[w<VWUHt^[AZ]Wq,Paq:
--DnMZ9<3=jnO4&Jvl2J>0<h=)hQ0k/c5/n?Hen]&SW:~++^;P*u7Lf$ve47N|h2^g0Z8=+q4=o41c)3:OjZh0B<0zz(@Zij*4/c
doFEmduEzG8SH_oGc9]yA;eUwJ[x5F>L~kcqfSNtf5=b3[qIJ+$6.9b//y12BIoXRKuOZiy2Ea9qk]rUa0[xM]5jDcvurg(A6&25
$>OpBm2cLTx]2&u3a;lxSc>C-suL%VO5g!*50[n[[-teugu>b?@@Vi27nc</&)&rhux,U.~r_HWlYPYKVAe?ZusB6]@D2Mah/>DG
M>6D6X8b-w:)&_1nFsbT_OF,TeebI6[T8+(:scLX~euMWK@HXBTPWQ<_hP>KNGPxqzkb=_|WfvUk<i7a9?i6qa.sR=./w/T?(!bv
FhMz2gCCD/WR+WbB+>^>D$Hx[Huc0=JO3,?^4<M2%X7^z3K!o/CE&/Uiswn<<*cilm/9uLRx,4gpW8eK~)O2[%TqXVp0WYip[mzo
=shd2xj;XN3MSHn2AYO=?MkAV*lPt<!I+Qup8&&W/GckISCJinfW|B*ZuAU:x+o|V/mO.cjs0fcB@Gj[AFRlyDM4%99$)cZHJFr3
<Q,p^GCfS7*UNtw*axXS8(ow28~fbY~m9b55znN_|pPq8d)mrs(^MUg[1xq?aa&Aw$Y[!4N!/rvCKZwhuXq>]bV_-aEI4pdZ<Er[
M@YD13c(-OLL-C/9zQ.=C_<lRpX1$zQ~DSJ,?(_u1hH(u]!L5B&)@/7<)7ikgOWgIp5v2R7t6l>/I@.tB]|qBUN7*(KeBF6FB2yK
pIIkYrp>lv1*8fnx.zYKu8dq,&2$u%W9z9B%qEsV$w[hq1gSqE@A$seqXN!mMB>u!?|Vnzxhh3%0K5sei_Niv:rgjzYL%fG-Nz5M
Xe7uk~b2HceH~]U$@n($=7z]>vsiIFf+8lC7n.0kClJWcHl%6AhrIDqa^nCGk^7PB(~(g?6Jsnn%%KO(_<XeB:;&66Z3yT_^yPJq
6X?$i2pIS>vZ*XXQ9|;xwMdi>l1;3Zj7XI5^zgQP4x.I=yoQ1-@_xrUZ(Ye]A,>(r|/JSDt!+r:;8iImF]Hrrw)A?ay$$HN?oTj@
l|Llxq76_g8$lfF9I)ucT9);*Sn&q?%eDiaa0f2S0+66!vbA&Cn7>;Kn)ynrejC-Fj6,7]m-ZcgMUWQW:3PnJX)<,;pShT)uSUu^
HDyAyamQ&P/?D]ZgNu(ZynZAr3:Z$cQ$tQ?vw0]L?zmjQa!qEC_QMj9*<=LWi|<OIX&Ktd1Br13(MmK3?z@Iz]w.cdLZhS84iW!Z
r7W7B<h6~l$)2y$Mq|bt4VxTb9meFYA$V,,QV|[Ez_b[W5iT<;$H]6E0V6e!^Iy9bI6C+?-l1Sya$oOtIV?P!P|rFvnKrJ~!s$3o
TFLXla9<-yZYVp;rLptGq7%14.PhokqF@PfoLaC=xVRCRIG3.dZA;dPtwHQ+cs|)5pQlm.+T>64pd:[txHrV|EuXObMRX.|I5zp~
r9Ay?2^$oBf2t1A_eP:<[qdG,!WZv~xP?;DAMgctX:XXvYaO<+LFe8xfw|Io9X>yjV;]Eo<BV4TzQ/57S1Kzrh:8GJu*RrA2xHCM
o3glum8b3~7GjdOr6_v=p[eB5M>S0>kR=nYW7HX_Uw_SEoC<^*Wzc,p=ag(Pm.;ih&8cF,%]o14ke$=P^G+)SE(|k5j[xE*DzWmP
O>Tfd61]k(Y36Lv><-=+2mGAOpOCKcfTKF<*vxC>q^<JPqqhG@4|9y]A*$>f[ruUmZ?eP->_LN84w]BfMZ8);]cK!~_:hw+eeAu1
t/?2H;qC(s1zGlP+$mI<y6GwT2Rjzte|gVoOP&3<JL)p]RuPl2L&7vED=h*CNZ^kI^/m,X(H%rGW[VDAC3=[Y3oC?Xj_V;|X2|hG
E~H=9v_ZU6W.IcU1kSd/E/9;(?p9%I$qo0<9*lcf8l2|_QQwjlc]D]mYmL*<bupEB@uyn[>d;.dSqn9*g!)M,E1D<|Gck*Z6?nXP
]|7-$At!Tz2WZtKk8xIL-:8Y)YdICFHzSTSqZ+Bn),U,-n/2sY*jc(aIZ?<[,[K,_/H6>cwdC_$rHPm,giE7e:R@*rl.>fXDI~P8
B%pyg:%vh>-U)HdozV$Og]ZHZ,HhYr%3jx4*RfO5:zb*pX=v9Klugn;>2SrPM9%HI.DibpP9_KJXIM@?))^&?]>M(NqZ-[Z5@XZn
Gj@?I|]-m+;@IMC-07sL$B_aE?OK[_]:jim)VQ_WG9:$j8zVJ)&urBpctgaDPV!fyYYhr^mAZ%BlZPnFwFnDUUsejq/Y!!x+K]tW
o%=Sn^ZCmU%AWqQ(2+|%$l=W3m^IzvHdEf/v^SV4~5uR|In-Fd|AT?4bDp<,uG?jZ2dZgtk.dA+]?$5|5;nfS:c_GC$;a8Gp4&q@
Qr];[!m-1rU)t(p>m&]~:5..M9K2LW6>7Jyl]l53LwLE!PAep0c$2Zi;vujWSnPNupLw7<bhwv6m<Zbas:+a|5K(E|H8-)rlv(TC
ZM(+DVy>X+zN(*vArm5/0BtAw^9%u=CYWp+06|MALl5YFZe:;%mK3qbF=46QU=8.g8_%&)b~Z$o32axr703(jE/en+r^nUf%N:!W
qc(MvcnIvfxH<DzmOrEx@f>~5-S?rL:O8l|$lxf!D|L($@r[Hu]J(8Yk$:NYOCNEB_zWrSr].<z0<kblF$c5bl|]X*dI%8|kY38]
0fU4Fp,(hQ~<R*wnhqt<2<%)Q-o^f]XKwQazoO6p-*%d^ElC>X~a~~^gmXtc5|g(v&(BCur23B.U5Wn42S<Q53,(<DOho9wZ6+5.
~%6VX$ycdoy=7=$K<^I=I>[B^FH9u_.Y,-?i%x0g0xNqO;a&@(|E4~S|p:~u70yuhdJ839Csnm;,7VH+iY^8j,gU*NYi&jqrF0x%
m%%64M!Q/<xOh;ob>.+/SC|$]^+9X(;_THP%80nYCoDLG6]+$Ct6~SM]!PKd1BZsui:jwPcHpC+6]-V)da3J;OE@Hu18;Spm@jQ5
noz]^r-6~=*-NY/Jb66<C>Pk0jaKX-V8z04R9r!k$Gj$fDFgtSWm?qeU];HG+i=g0^$D0g1uVvA(MrA8K3Dh@RmGj&r6M:sj^=<&
tO]j.t>%1+7SpxKiRgGVn]]^rBCP|^6U9B-0XCoDyk)0q7v]_kI-d&0-=@dXo/8@Gsh)6RV^uw;V(rH9>KpYKTPvNLtHh%FZkP@i
JxB25ZOGWUL!^$bB,70Anzg]-*uTPRlAoP6V.|kfA>>J&H];siL3N9[G]M/~nQcmmyBGPohK~/GN~P,]8@op,r2>I(kfYVr<2Mv?
*3ZcyE@$@^mb5MBE(zSKFArClsEo[o$)sk$Qw9Q5gEO7b!E<CD_s>L;R;Z.bgNISYmJSdXwO/;EeJ%c>PKYT|bn]G)6~u2+~$b)(
Iz/z4[<d(RbNi&=tuYea82;,,WpE*6k:Z5lO@P5=zgFi5@.K:nIZ686=Ava*lrAQBMw.;h>VjByq]i)i<D8a_$Og4rt!oChV_kLh
3uVENe20P1YOx,bDBeg!HPC^:]+tj;VF_YRBkf|ejXSMv%/9[O6C|3CE2/JUym4@Ko=/)n[P%&+zY*>?2~|z/FLgfs~5]xbL,qxC
x*14e|8A$u[5mjz/%J*s:vPmQ95x2.Dg|uZ^R,gp@R:vYq5Q1Wgw@XCa([[k:[Rz.0H3xh(3ZLdlK,^5n[Cfe0FreQ4k|3Fw!:_t
b>0VCqW)&V;+O,*b*RJe)O7GCvLGPn0+_hV?2oc]GOPP8v;&z;Q3NX?L(;wzN0SalHuI;/(S7Zid(_8x$.eT/rxZYhqhd4RVu-=i
g^>tHoVu<~dwHu:iJ~3UOdipRm*bIRG-P@0arrLi<p;^F-zSNc[[$>1G!&$t3JD86s^5,0UB!i8z:3<BbPln;I8T@WWbwXGzB$_t
TgD$;^0EjQq2E?tR,~ZA)u>[N~2mu2k?0w+*SWVp|9wXm^EuLe@.S]s..5cN3$1Jb7Om6^-QD|6Mtmr@P!FydAYdOGV7Zxj0X)~w
eJB2[GQ/Uo)wsuHk*nyGv!,BwPkaDIkV</lWMp]$VG[H?c?Zda=o~E9RK9p.5xqfDWyAS+lg[[&J8AP8/XC/,IH:b5M9l1x0eTGO
8Raz0,QR1ZXSM-4<J9y=iPe!=W]RM-$6j7>?rhqRGq6N./5+GGTLV3so:fuEQ)|uD36+tiyhAL[Wv&UO_qLtqH2f9d_Ck0HIw&,M
c_oCIrWKl92,y|b,_b]OKWK9Y%7T|uEbCm3wWqM@2ekVCI@KV=[j-icO=mrhq$zu/KiSQ20,PWqx*T,$_6y!l9RTTo!&_nwy$kwN
amADc@-|DWoBEChH*DIL.S.H$pPlKK5R%9.(h)]MB6R?HDv.caB]sPHFB,IlR;-B0r]-?Ur_(l2nGCCJV])F7+F>/c4$asGvkXAx
bFqBo6&TEr5Y*14UVWlfv%/&ms|T*1SZi68/5wHPm.zL$e:1gT+r-cJ$9<SMr,No4&-SV37rOZLpXChRa@G4AY-px%a<X$tZij[I
5D_(|%W0zVZ~TK/OTSXz@|0P%qdwK.&hq]7=mx*x~Tkwd0Lpu!G!/|-;e%~Z[UE1~NffB^.gf5:oXcaa:jqn59?:zzv_%(l,v!in
_Gw-v5bfLN)[h[o*W71f2?ygQ-aoU6.za4Y<K=ZKv<$Op@I0_ZIee~(1p8xJg7H7:Xg8>:!_EGKD8c|]UdfPOa2I,YNut?tZ=,yB
Ex+_TNbu[la|3lJ:LgW5V6u1W~:1J_BmpY5<*o1B<rXE=f52d/vGZ!1w3P]]Au+iU|dv<_W(Cy8Kz+/C;lQn|7agvA;Sh2njZU</
-_xCyo]mV2Fe<;,(!0?W-<(2~lJFTxLCv+XS^wqIgcRns=2%?8&iwYOspaBfN9ZDQ8VOE2gDaGjoG;Sq;e/2KIP[Y*AQ47v<T$Q*
U?y|;XGhVIUu1V&I(&htu[@k9N-CUv5=c?5092LjJ03XNo5FqJ?.]mA<_NcppC>QOd~|=<b8kRq?*t5<6DTAzx?y]~g:feK__<vL
NgKwQV]/-m1SXL/$*26oX4.%3RZcTQd~!7^x+*E%j~2v;tJ@gYGy5nmRa*.7+=F5Tciq!E^erxdM[KkRS9GN>AX[1Zg3uBa!Q.dV
0Fl?B@Er|.kank4hQ&%R2EoMJ;CAN/w*B9.&C*:s<+(3<R23KRcov;g|z>+Ml=8JYn33f=:<.ev0;g?A;=maxt:_NzlFvE-bFQ;%
ro4StLNVP4^fU|9FWV0(uuNq7AhXTA$aYI.[M8@.9?.nzf]<qQ[SgoKiKy1+HgK?_Q1rOO|SVYkigkD9VUP*M1hkJs9Nxho+!;:v
M0Q-U!7:=)$eL^9wnj7KFBdJ<@;yESdT*iQK-osyiLzp8w~-UJz_8P:p8vtNXGf6m8E/IRAy3K+ZmhD$H$2iv;hDyD-v/%x4ZqIs
XAjxt:(TX:4a7$k-iA(Aj!U1bACx):mRHq;r*2%D>L=v3TzgrZbM+7WVAhZG$A0(E5,M0n3n$m+li)vH[5~W*1KCVSf%C&FR;Lqf
_HDf2[Ga%^I52V_C&>APi;XRF?a0vCn84.Cf-[~0I4c0vf_Uuq<5VR1IGx:xIe98YZQU=Eb&..~9iJDG|F;1zpU6qSc?7DUd(Ddn
-kqf)9wf-FdOw@u[Eg6T3]hSWgxxnldLE*z,QUze/M>mwnTznG7~%2<(M,Peu6Ild@$h|F:M=:AAM:.c(@Nnw/c>eO2@DJ&x:=hG
)!p[u:c6>MW-ru8FQI|)xuhE0M@~|sw/WxL:|phE9n8?~FP:QIZRanO~dKmFUnlrl.byO!xT)LdV>Xmb9BXK68[&.Tg/PedbS(XX
5^&~pm*CNosu5<p5V4NJT2(Vw/pNw1dZ/z=lVP]R|<!/abd|RCMM1=a]OQ9t36xKBeb_U_sZ;MIOvJHHx<E!vhov8@U-HMvVLFKU
Av=l6r1_84oRObc@dkSMJVEQPb%1cI~O2ad/>h(uJm$ODMX]uAr]fy]o/]g1a~HG[Fk~S;m2sZFF~Q;NqpV5sj]ji*sr?=QHr5zz
A*dbxxd[;yZ7H/(%_OQN;;y_EAU^kk9Hdl(?JKBr6gDKV[L02xGQ6h)9xuZr)lQnyM5_w/ycWm,JCzKd~44e4x6gM8J)B6-7p/fn
LhoLs2-XU-*TUrmpr!l^c~NHw2(gbgBL8O>R&QTm227&iyir9paFglBcUH+ka~r>?4vT(_dr=Ni(ueK*.ra,6Io%8PhHb.s@wm&V
cW-TyjS5pJz*@[7%n|jOpm:UuO?]2Uk9mfr%M8[vfi@QcU&.XMyGO*FB9ky;z$y*Qy-~kMhM:=W?[|iebteOil%C$;%IQf%z0E]t
R>ul|Fvqepg6mLt0Z|,m8?HFj6%SH2,b78[j?Px1-;!ek=*ja.>Irr5qmI&2Dt5W~@dZv42<~ZA$*S/BZh8k0[&c[Ql)|5fYjPyk
ZL3%zqNeU)Upq$:+Qn07T@jZf%unUOQ5?cDoto~%5/7Y3wZ%yB6bWVGX>$nz9Jh>_R$@g]VQrp!8[:I81r0oU;aq[JReGY@E&IR0
V7%KGhr(gDVn/)O2Hq5Or$AzAOZk;[n@T7]>cv0F(*&5Ag4.)P9HP:)k^qKC$iBR<)LGKts-0-.Z&5k[Zd+7Z?9/)n(S*^j<u,mI
D%LHYejXS|upiA:khbwc6DoBW(uCPI[2J_r3GK]GiP^Nd~qD0vJ+*Xajy7&M[Z*v^(L^4@~^OvOl5Ul8A/H9]Kc<Q+IiyxlPty$:
RVrS[%&Z^[8IGGRH2vb=pL$7w&@7TzxCGz9[OA70RNABCgBzsI0?!G,Wqro[HBItur%t;[$=*CxX@OQKzV[XD!rLFuLLa;&m=~T0
f-u6H[kyLe6vb&c8An_N8JYAM%4tu/P[=_)k0Gr1F$JPT-IzfdcBIb+d%vD)RQSbN3A.KMlBcNm,V@_oXap]e(4u!SaPDi-3MJmM
kH5Y==xb6X]]ZYx33vQy0-,c1Y1&lzi0q;d4%sQ3qY]Fw)Cs_uo5>omyW?tofxKg>B^+S&3$~Fk2aDph$0br~SMI*pmVCP_wsB!<
*o&@5y~8<MK(J??i(Zh*JRj;U.U=>ul=JVJNkcaoZR?<Ff_Rtr2UW6D,EtlJM1YIck$eXyx-xAR@BHrnuN8MMFnz]ZEhiAp*xfg@
vKO&diW.4Zv.q|$Jvr=9D^!0q2_5l(Q</^gcl.(@NAzkBB2jDuiK$]u+L.*!N$wByB)i9+[RpLNg/MLTfo61hR0/:&$ukL9x;%w8
[8VbMhjn(T-dmcfSzp|hMN0Y1a7?84?AM6at@4V9op[zc&bn55p;Uob]vhYt/4ZnX%5Pm)LmYxj,SlMiw7;M7BAlr!Mb2,ozH[7(
yAxb[uItuL^^kmVp?Vu4=c0pQrK*7q1em8@cV/SY)5]UQ!gN5O[@$I>89T:d/f:NLOQ|yt-d)Xl[qsk_jT<30>WeXfq5Ab8.P/B)
pbXm1nJ0H@f~sO+aO@MhVy1,$Z$9g09a(fEF=m2yB1&svLdukk4f%,JSnG>ojl=9]P~|K6qEh-(*o>00JYj!T._2h)BhKmWc*@i%
!~|:)$v8uWrB>[TErHpsSInA-IzW%k@>,*9IwKng-seeO7!nZByXo=eUk?oUFVKEF]]X*=-+@<&aHiueSn9]9_V+4[;I:%C[N/t:
snj4Nj@UpA1J0n70LV>M4EeA<Zyh,!(0.8Wu43<oW=3.ctKp%IFh1n<[R&^?)U9/_o|E>X&,|,rEq?~$OECtH1]=![~(Evk-%g=?
@XrVsii=5Y=C+MaW@GmobvxJ9H<a3M4.:dy!r4xxwz/*D%E%*&)e5^Z5@~w8G8Y9Dp/7EIvvV0ULgoR*4oghFv!>RLSPwHnSSic<
B3;nn$L!iLH=+v|bIUTGiZnA)wlj4vj|LJ7K~:rM]wU:VeeI=WuKMy_FRe&Dxp5+I&xk%?)M,(;+F>__,Vw==WaDhlLIHwKS@HFi
tUsHaQq^YStv:(aKu?Gg&dTV<kIriG:Oao[zYZyM!Q)9YHocT/4JsaShCb$91m>J%x]U*B[cNNeIX-k9pu3$wT,oZ&-+51LNGw*^
>gO-*|vFfvFindyJ075k]AXqZzEFQk91n8m=a],~I6/ZI@719^OG6C)f4R-Gc5.(Ba==DOqR]vLU~@UO[]MMj8bly38DAm=%=SwC
3IvBW5vI)@+|^~85Os7=3U*caL+u[zx+y;-2sihx^T<=Xk*N.e:Ti.NJmD/X36O$C7W[~?vk;HUY%-?4iuGViwV1Cy&=X?WLc|_)
dGkVcp<_UZ^9cV%q=kZe_?.UtI7<*bP;x[r*~y4A!-a~ME~mj~N_,.7(NgQ3G^;e0$K$r$?KT^C6yaNet[fR8i-^n2o:wIdAA[(2
L*t5^Z6OQ7z;N(UPTu2WeARSX>wy!fSIo~H&mKYVYZRaiN!,hWEvA!J>DPG136,6,0z7dV<zOgUtIkT9|sjJV81sJm/P7o((j!/B
8pB]^QPQn&Jv]*UT9i?WFg,|M@B@TxVK?gf3Xmps20,BbC>~jl9ziGpDh>ba(6-|sr&z]6cw~L(GF:xk(g_R0vAR>y+]!_Jp2Ig~
_7[ASid^lb6D1G>I.~SKg5Mi:7^Z9zVX.ea1<|bX/?WI14d_V_ZJdSgW-WlyR&5/aV(+Ejr1;lsHjF4yI1lmlE+P!O$;4-&rWcsw
@!OXpOMACG/+bM!u;hxZ4B4Sg!+TxsuL2-^vUoDoikmEkvC=0Xf7V<H?RhB*[xB)xjK0||0i(7A*X|^Vt-b[NR*tU0pJ^bDr!E>J
txEG7R[h+>>a5|yE6nxI8f2j37R8_)Y<v)y^E?MW2ST&I:xzDaJ<8TR!i??!=tkjPK]Jlh_tsp%;p0iVzp&NvO)ZE[F6rGYK~]N(
-%uXOMA+.6WQJtmB[&mW&!KICOXe_8uWrOC-KEnItW=i(UqaMcf87<I;f:!dlhunL^wq-,QU;s3uf-r?p<|?:%X$h;E6,|R-S=5a
UdQKA+5MmJQG%268F^AI9=(^Sm.R=U((6JtL|=R5@V0/zZnVImRdExZoTdb_w?&s)%0^n.MTt6l@+k]@V?WX/8?l<,AqxHo3u_n8
Qs6MP6v+ynV-T!:oVGq[CfHx=s.1ym@q4TvU*KyLj?s$q[bU<^]:PlDet>Q!Z/NX|8walPs,j:%1tiXTIEQ0&6r_NP(z;@bL.,O^
Ll4W3g@$udV$VOy@3P8!&,(4Xon1K)35]Xv6?^>eBo~@@]<Lx?&oL7=PW7Tj?oy>R(NzN=8_Q9z)=:_gdi(>NA_2QbRY>O_tJ|52
ie,*a4<Zta-.v<YkOj^dz.|1%h>&M[;oaZrY?XvY2@bYM]GD<78<!rJwaVsY$tQ9Xq^q>4K^V8.DBGiD2.v2NN2/c&]~jKZYy[F2
f|3B6FJ(E_P1.|K6/?*^F|YbXYFZ@2t!Z/lj5Ul?AEL@d4Yv4h3Y>P(+IWn^|$<mvJs^)V2!;y26mwXHcKUubub^vqj|JkX9XN%e
YLP!P1)Duq~|(J.@1W>Ux*;V-KjoVHW0e4ml&kfk?R>/IcDA-lyUFOjPDu*O59F[/0f;b2|%<7A0AM2fF6y[Bch8yO.F2./X]M@V
g=9z,e$>van$g|I72LGPYy1cLNryR([.i=ec>zZ=PbHy|YgdVmcyHi/;xEF*E]8O)wwea:H]@4eH3c5Kjz/IS2Q]d7R~ZiG$||oO
8EPj?KRu4v;:N%PF(wE7D7X56v>2h1I5X3.r[O626+KRs&Tq,:]&,/=X<Va;yTm_&|g0$@sjdBJmQ|AAqDmav+(WNF=$??c_7z2f
$Kvgfv;g9*5>w3N8gGD;C|hP/();DxRk8:r0z6-B)n]ejO3kns645nEDb6InFdbP>9V!-?rcfLwnk3kpk9^LX3S<5vGtr%tJoLm_
S~b8Zg:30,SN8|p(^Io|D@t2-xs3$Sz([ud^OD9DjKCn+cei(~x[-%d69yd]xQd7_JO6$3p1fF/-v0WWFIW0Uoa+*[3(m+/GSVHm
W,|kOOvba(_D7>R!)orR[XqP/evuqXhGog<8+s<tkJ/~:)id(=.T,:4a)TeuCTf4bf2]1;4U*ew[jgPCeQ!y];N+*sP2].nIbfv1
SxI1Ss?C@Wmedp=,X)vfe%7lfHtRnoaK(TEU@ueU>t/3GOmZ=Vys1*z_BhY_s7H%BtXUYhr>X?XUf3PJLBb9n/W43l~pB[D41j,g
r+4%NsguGR]UYR+:5Z~gi.m(B$w,Exbk1koX]xnY7=oINK,aa/dRc_dC2]R5L:KdkxDH<ZQ:eH*1n:b@p_%/z^mHPEv5xY@b1X_E
<P,OscXT1>KjK]Kt,gR=qQTaB(&I7&Z+7e!<6Hw6x7i-IjBrtIdz1og(^R5/5=yW>@Q[=EsDDgQIC+VDCb^P-ez7I~.xI[iyuI5l
@f/*QhA/Ip0&Pnh.T52EX1Q*j]7y6VGJp4MYTS%+<DIY_^s2;Vey(/d!q-SOhff4wZ[.G8t3^W]6=Llgz>bVaOLcv%2y/v_,@znS
yw-HlMe*OFnW=Dx.Ivi&c2>C6Y5FFu19O2Z!6c[)5C~a0)Ocn96ewYsy6>aWIv.<vB0za_0x!&2XH/0lTGE2H6Ywb)rW:D6sbB51
P?m~Ss<QND_<d~*O|VMwzq~$qy:APQqWkfwAu=M[ri.>6O9H,Q$>O9N_7z&M9.Llu*y-,k)*Ig9^R:(|xhrIvkQneFJRr/4:q:W9
l-^Gs5/8:T4?os6<)-N4knFRQUk9tQlkd6Q_[i2u<Q)Fu^.QGsnvcea~]7mQ8=z&)@HDT]=YtrZpI6x^cAx:?/@<00@i_VI!!w1z
>ccqwuw^KSWEVUm)7[5v3?*mtQ>^mko/UNy51]6S<d!lXH9HGdZw|PWr1.<=cs|.hf~DXu/|(1i-VDnHnM6&kX(YGo?h?2jW=PGn
@U*MO^w*n<syUw>E*[7jT~+:+Gn)Qq>5XCJ^aqxHRDA@Ro[PCHTKOE,>5nsA9E+IB8y|:0.doDT~*9]$O6t02us;T1fz=>uXW*MK
p,f4l7m%Pu=u5Ml>jYJ6FhbVU2SE>@(R2I)x4g7jqm;fEHQEuqlQ1Vt>p?.;|OkDKArO4!Qi(t_!qe(E?iI!FI6y@HDaed]JnFhP
CTh$%l*%tlN81IAIPh7+RRFOQF!(P7*nn-^M,pzs);^d?0aYh[3g8W[6D|TRnpx@sJxwIR3<tiW35O=CI99~q%>q[SeWsAY:O<eV
|ifSNhNt;^i40W)BhWD-Br]AomTe<l=^X/ijhbq,Q(2Ly?IMy6@dan[OM$Y5L6tTvx^yZXS7+~Qg^G/RPD9/)]>,Gz1xWf)6!wL^
K46FWnR0ZUfL4%I0i[7/Q*a3_(zKXJl1UNu3k!G5P5U94W,R1^Z0A2roDIR<(ePBM|mxn?WLsUL/$6*2T%qoX$hro704R=FcoQu%
g7Ol%095RYh+Me7+X$ogC)JO]h$I=WIlm^@lYisOH~QKa,vqyvIwOHNi3|Yws$2k@NJNj=*Y5y_nvs7lIUz:fQgx|Ihp0[HMG5;?
7)]-IX%6)Svu]rAYRM+y=zDlVxu-ORM^Pm;7$!.RX5d=pM-x;,]tfQ=]!t*j3x:o~ikB&Ib3C!?cyO<8owE@ZIUaxeN<.i>%FNt|
Y?+<A7(f1IQ08xniluybkP[u81Jh@5%iF2^OxNH6>ssW,~sI=hqP-jw3ix[^67Wuav!BmFtFIA2fCtqd*~VO.R]qi./!@l4dUYNy
-/wea5&,TASgzQ8~rbdxe1/(ro|E&zkiZ2cQTh66qRu<f5)kTPP0<TMc+5)O(S,]?L$gve|o]jy^VZ_Q)hl5KG)CDz[7.3k~Z;L7
9z?/7y@~!Ce]?mH[Hs-mi;Yo81EQvY/lt&&9:-2TxmWydTPIxw:V^=Q>nESm+z~2t)%J:r0UlQ3~WcES[v]F/O.dZI>!=c(mA+b4
gL3iA@DT^S3|u<!T;M5O63)JfE5/v5A;YPdYTpOCWl[5Y!LtZ3m;kf39Iblp=n71@]2^nM>WADQm;.(XruWbpnGis6VyCWGi&7V2
Of|)YULN4>v(r+u>WsqNVdN~9l9I-3f/O~<>+UgXQ8-AO42~=NPfU6&bN,Yu:czlcemVM!$%GJ?3X-%JN1R.g=k^vKMs4e&Fc8]Y
u0)-whpv^Uq2*Dnr:2d_>z;<;YXlS1&3([~!5ZVhei6>lY$H]DBLv|]E37!V(5sTEfcSPOuw+.BO?Ikd0i?H=j2db/%IGo4JJ&S[
L+e.=?Gtin]V3:zoXxQ^AIdqHs53GnAzPqqZ/R_aBbMsNO%qKz^OCKv.a5+16>+>qcv<I&@-l)wte!+?EK*AHVsU*BFmo9luv;h,
|!s6aQvy@Q4:~i@Is->HlqCEGn2;x6Gsa83%O;P,qvZ?CuT=/[<nOwbf-07;KB@y:]J0Ly6&R-g^.x)~H:[%L.Yl2jPeEVdZo^[m
%S9$_^Ii[g.jld,o~!B1P~b8/B!zs]MO%C6QcQQL;f-1[[]k2/h@)oUFo_7zy:_Es%vO8[16HYwv,~F_f^CzIOIg6]]0mOG~TtI6
Z|n=0-e.W)@KI~q;|1J+?3*lqJ^+Kgr*%l(&_gp)Qy+.obpF3x]V5PRgRGS$d962hvw0>6/n83;w/R_OpvhDC2BK2@Q_aYN]G<<$
zmpEe!)KO4rEW/h)Z]Ez/$!(EU.S!f+fpW6EiRkSN@S(zv8acH=$IEF*Pq+]4M<.ZWwv@G&.*?buM<>ov^=am$Ii&v)2!Op3[VP|
yiFft@*C7x%||XX(q:<[H).!zyg;Izi:5krVFZC%7J0?3=]jyY03w~u/le4D)Y&~H?@Bg)sPus^4]7+f:O(fWYe&EnNDjfk5ReP,
lE0?P=xX3<?Y7~@]m4^hzug0m/TwgogJN,>0xGS?OX2;f@R3zMytz4awf5KdWG_mOy.^J6!cP>,OBN]UiOd;(kwJm:>1!B&;l01@
mHmzaUiOv7eD:$wZZiJ7.a(D,e5&%[[9[+0BTW;b@$1lM?CO;;.xR9lSL>h3.j3ls%|LURp.22*qpvP8tnE!O|LppdL=g3h+b.)C
P[.=sVhjRpH!m+a&VNPNJTjQ$rk:Ko)bF^Pg*ydOt~5T(T:S$d5CSPk@Z4V(tGW~oeKfKSo_Wg&!-&@EJZRlo5E?.lyAMb~5pWX@
bm%,=oI9>fe*yyU>QQPiGOg1bV2>Ka+5WXXLfV9^J:;3%S3U5E?zrK1.!0TR;Smo?Goe(E2l<X6;~PDkHv6iOkG@O5r9zlm>totl
]dN9Qjn|]-Y5k/uPREGMM5g[UItoZ+M/~UKd.$i5JM+zK~|xClT-)YLm.fcVY:P7H=;_s-]A:Lk52LsJRw2NrgyyCDkq?Py~v+&@
ew)hqQ5d_GdED/5Qe~2BQ2qLV<+b$DkPFerP>xkT]v(4Ib?W,$Tv%4-|s7|K]3M3_OD.V;G+$iZ9h&HZzTsaVZamN~:ZQf_.WHr(
Q6[IZkgx-z<@cDhnPy)0Cdn+^fW0FZc$$cr+UQ:7vS%GTJer]nlZt|vQ0]VX=~:j(Qy-)02M,834@A?ZpPZ~+ll|j;A/7b[--6sZ
Iq*9kXZOkA1bRn58X+.n$WWZ=@$Y6I>Ri[H$@B&U&<x5Hi6QpTnLa1irJ@$7qj.-hG)0HOl5A%Ky]14M)Y,a~sFFIuO=^ImXO]ev
1m*xt4luaI<WZUCj>,uq$7Vk$r]^8=o!-.qwH:]Lp0sLJ8V%xUMxUub?LTiH|mMuX]tUTptrqnTV1n.SRbMzA~Q4475=|$2ntK@4
?:b]Eap9.~8E&5?9fS_->DNzO_3G7s(4CFgn_U^r3wS:%0e+f<WKe/)N_6zg)9hkDYt&)Y1KxYTfO9x5JW)O(0b89f5z+?NPcp(2
[M)Kc0gkN:AA)V=nGT.@lW8<yj14-:X/nr(z3ITZVm1ZDVpScE6k,0@9]K2%-wtc^@HA7pBt;!~=4D-s@J+J?XjObj:[q!YO/N&b
DMYs&V*mzm7+b<u^Fwi5H1he-:XSu6jM&]N%M/V2mW]cYwAvZ18O0/n8AjHvJ.<JVb0;K&c7n0U6Fq$lrf!!qpejsNp%[C]&AqBS
N6ZzjF@W)SJIX4^KDl6Vucf<.NznUEh!S4&k:,WJnS<jyv*SgMHPy|!8!,!W75%c<Jq=_Gi2=:pN2Gj_7?o5_A8k1yM)JT$HToDa
YqFWw4pnJx3-u8,;BXGKri~vHzunH&c,L$[H^m(Zuqx*C_~USS!cLhJyTc(?hg8lZUiK8EmhL2fZ!>,hGQXVZiVeqzibdVc:<5q<
!WArcd1&<!SHAqSc4?5k_5&2IF_TH^,0zihi(*=z3vt]mwBnn:,Q.O.1vMj0YNq?&d](0$wzcYu%AclbCAa9x)L?5$CH5)G]mO-x
Vt(&A0w;][]2V:oQS:J.c=l>(bj;oTw.JgLAH4Nu;Hqj0X|GjP,d&hm7GEfJ&.EVVnqkMLq7_<c,5&0H09=SN;Q9OlxTq(o;M.]s
+6C:1Mp1PO$G(-TX9HYr1N+5Ua=lxlS9wG*5hpU8Ql[+DIYP$t=W[s4oH(;g8~=K7ItQmf0Bwoz?J;V733&1oWryn?U_)5^8em!&
]8e7NVar-)&?i]v41j*czGd^=;=WwMK?5]w)?hg,:!s:!nKf37W^Yz7=ITIb9QnY$x]eo0a?Sziz)u<cIQrQz%DtjI>!<dCpzv:6
uAuMEBmNbX9,i[z6H_T%Zp:QqbRr%,?pZ<fdwB!I2.SbKG@oS;Kz9s5~b>6J_WNr;Ls1B?w+a:.?$oKHVk!/hpZ.S/9f8^c99~ED
%pD:!XQJvnavlq*Vn+T)ULWpbohpq|C-%>:7:y]LFI]D;gUQ>)xpr9OE%tVXcG+T/Q?kv;@jlE?h)B-6_T[DOEV?dhmod@2S)N%<
?&g;)^JCf?btw6@rB-wc$W_KlQT~Z*?M,]ytXX;s3j)C?K3C2[~(8$f$1Q;mO>K0@!&nX/!if$N*KuPY0l8tK?>t$hpLgA&mT>M9
lm/qoY:vS:aq!59?Nl.:t&7FTD?n5?yi?+JVyda-1[5(uIqpri2s-8ijaW7bF*_OheMe_=~,YecJDSpcD1mWm@r,sn,(pI/iO&vy
IpF]::*,U=D-1m<Ul>MAN~PZTYe^&4/UzmYr7GBZ+TMwF8(Qb!!Kh0]f>L~3p/%Ny>[c4%=w0ZygApZ,jY3.SB|lKzWao@dbs/xC
Ph0efEd1538k.%Di+Pg5MN/j8^1!7Y8VS3~ja31>3<t!(7[$M!ZC!TV2+A^8|6(XT8eTa>a=ec>3f&E!de(xALA/xzTL%oh%6>n^
cpk4YtdgK$13w17r;J]=_4YVuEPF$.fq3U9m?8Bl)%$qMjn~_k@(5rgYEIZ>Y@,$?RhW;<4U_5iPOx+(tYhAf0+z~W0K]7|j4yk|
?DkU9,QP?a4r^EuKC<zjUXBQ1LR*tS%NOS@4/i5-jTEd-F&TqZk;:Zx$NR,LHTnam8^nEY7B.y9!,NUgceirUTw)Q3LpnY1-avI.
kxdKmXIqH0mNCL?)?gMATTw1|k.y5C5K.Iv0^>[205YC=H[yIErB;Buq:]dZ<zx94UIGxQ<^P+-=tURT^JGv&XW@,B8jf;))N%W>
Y%<$=wzJ?|%2y<e$XL%A9x(Fd2fh@?oPmyVY&zi/.8ho(w9)p(>O1zM$&w|8On;]8/|Zfn36o.f/LbBX=)t1f~u*-h4&P+tRKEHe
~bL2XzH/o6a/4Qc;rg-M9/zwg^e&T81v0Xt;g.@tXuCje_k>_2y/BT$s=!!81,T2mP*9Gwyi;u/$i;7h.]9G5]Vw+xKI!U&cLr&l
c9Pyz?BW@OvP<]0M;GBj8SzQ6)h9)pI9Tj)uGIkZJIC:F&fHw<EO!oY+8wF$aB<z0*pk|EL*Ff~b.eS6HV[EhplIIaBKfW<a|OYe
ef@!IVH7xd]yj]hMB1fD0lEAd]j&~i?.<m+-o>Z(obbdGh7r8i9UerKQEcs^BP:oWA=O+Qf*/1eVEhxAD3j=QvC%6Yk4Fuz5KCU>
5Gv9^a5>f(]uZoH;X[(%4TWI=E2vrsP_v6V+b3A74Mddm]!@F^g%u6-Ul63O9VX)Xk3XBcb2ObpHf,-F00Sc@:YjC[w96JR)4p!:
U1mWGY:Io&_Ex(hoA*HPS>f+r9l^C*p9xTN??YKbf&F0:B8x;Lv+P^Y_hbrG/8/vvq$pFl:watJjweP)[ZShyF^:c$d(>I^v5B/!
Nh@Y8d^?A6~JA::QQ$m)mgVlrO,?<>_Q?^MD,gflb9qT|?ez56zn(&-gX05hpMw+KiwDo|(^hrrKc+G.m>WCAJV,YRQwLZ:;>T5^
CITO6Y^xS3ueMn.e[@eqt3wQwxB-Zp[X~mi.tHP_&mJT5SJYlCzuBn1jmCg&5QUz+[taGtv^sT!EO8Cyv%xZn?6@iQDve7+<hEAv
x%$?C*Sq%FwVDbp^pQoHp4XW$G/(g]iTUhA*Fr1Jt.PRMeRa2|GlOIKQcdP~]ShTi@,OYkDiwkD1,bxY]!f34]W>(6JBW+jg~oa@
U5P9PVo=ydZD,;TG?^V/n%D~wfgVBs:QOxtrH0@FYn9Cn:+$.N5n=@tZ;~)OQHG6:srWCKP$Rj>2H;(kLKuuoiJM=n14tTKP4?WG
gNH/wQbgT;hr%i!9wo(t.^X5iZ_DrT<4&Fr=j^B0qifu.r])zsU-(m;y51mY|WiKvb~[6lhjbxT3,v*/GsUA~y-H7aU(og;y~+a_
R)e/)9:x2-)x7EPZG&vqI?9$f[!G$zs-_dba&eqv6u~4UKc(eO+xaS^@:H[6HhBr6FGpmn6gID/;>!zs-WbE:,;m6EsIjthH-2h9
edQNmYT4t4jxfQ8D~||QYIH~6pA3Y1/W+X<om;]pRmkSb[HsMSg//E8VpsyG4JtflA0K~jqLS<6<n.[f/dA/CVt;lx7Oc]Gl]WEu
Qs_^fa)aXL*Uxu.d(.utn:G~Q|mw=bvU2,F1*3_6RvRv@vplCN.k^1TNcwLJ<OS=hG.DMM.?+3ZsIO>ubmNnQv,B%QtRi*2&C[p&
x_b5$&dt[Y2K+>n76O=xV(^l:yZvy$y|vynxP:P1*t=W_GvAujh;XHPQrx+4!orT3qUNFlz,rB=cmt!STM_An:mFe@9CaF-y0B|;
az@r?KSf&?Kwg>Wwbscs2cUw5PAZtCy6xxb/Q1AD7,(^leZIx,+thLoEvWpAsxu&Dp($Jw%y>5x0+Y>p0)</7zRfqtg(GVRSIn&W
oaav/BpEdy[h%RowG-fDL<1]lTVR!+2hqWUqp^ARJKo:Cq|pEEuJWrMqkUT:dY(Lm8.yV$zp*beEhRps6W$-<hec7F5%DG8ch|KG
vH@m_aV&F;^pkI&f,k+8Fn<s]_QOzLGHE;_Ltf43.w3P&~hdCy~K3DTmYV)>)($@)fW@.a%R>%?Sci2d%^?a^B|+Ij5,5Mh&,T~4
BH>A0LkLR!T1WSi7F=,0N2~74!Kl$<*+$jsa~(wzVPq9fmjWM/0$gw|(Pr=E(*s@bdIC8quD7(LZlIgGTrb<fI]fW+p:o.NBf1r@
dZ=|UXVJ+jNo_WR>4-|.3?%&ziiS4xS6:q$+z(F:MY(quemB*s!A?+0MJn,YdyY2ELcP<d8F~SXX3]w4||$jEKtp~bVi7KBXh=v8
w1D]:f?X^<z!(m[qB9t=Cf.mzou,/<,5N5s<bI-Pkd=3sp;81U_UZV3;u1,IsW%yKEOhYD,zGOH&|V:ivv_wnzyV3@:Z=a_&I+/q
S8>k-Z>,2zB[?T)Xx2uP=FbbIJP.n:PalJjYd?r$X=QRGcmgl5<:zF0GnUDN1QjnD:iD0d$KfjFrll-5>9/mhXU_-Tt)r3)YfxX+
xU>nu!37?9.w])6$z+(NF)S3iMJ/wu5%SNyayCF%2=Cwz~:/6X25iUjS*JfLGFv;k!P?J?DdCr^a2<AE_)Hg*!_Q!^|V%,Bepg-c
CsA9efq,$A;y5i4*<2O+>L3pzJ~,5J0vRo@x5gL-L,J08<$gK($s@.k~=:Rcu0$.f+gj6RWkqYMC~PiiMbf^6DoHS8JuxM5bY0,d
T-G(S(v0p-C@XEK26UkuzfuQjgA;i&MH.F^*r5@pAv2FF</wbB3G0n5KBFqh%jq[((&B5rZ=?Wzq;VE6Ys1E,Di(I^p]%mMCb_[E
OZm|$vC&Y93!KnK~<k=CL@A!Ri9h[qV>-y9^gdeC3suHPVaC@DYWFlXpvF+f16jf3s=5$-[k]C?t89|d-Li$C)hHUtgQ/*o[;qlT
YfKw<*xE~I/+Fz&Hf1W7muT2oM(4KxseH)/J-mRhG[R<vwfy9o7V//*W4L]wTS+m3Byr^24M2fXwiX(c[jjXeBH)+th!hu^FgTc(
wbFRb:_Bczde=9kq=q~BV/%>n[5cirpL.sIzn-sfuF3u3v+Rlg+TpLYm|AbmeUXZYP8Fzz:N?Z*Tzn545HHCzjEgqe_k+M6dTSv~
l!Gdv<2[A$ilAD>iQ@(TU0&@[I-TJ)XC47p+LKhVYd[0(|e4G?M0hllvZgi3TSDIqw^&&5~l]Rg5Y[q.%$^g2bC*4bU8GXE~R@AK
*OE)$=M7h7p!RswAQ$uA.Y|Wfbko!kqo?TMwWM1@f5fY|8qrpDd|75vc$s<x&8BI*G;f8^+dMws^T?yhB@zu<UesfJ7GdWG%e.p@
?<6PwBe48hb%q<K^dg_OF=%>]o!&i9Um^G7!HrN*XT_sV?O],I2jN_C1o-F/OvX<<[hyP3.pO(V>;Satt[/.sFXi16N>&5AV=8n[
SO=@F7dw0@j0cA|tQ1ioH:+p~+W;=RTqP7!Nw5(O3Spc%9Tn;:H|&ub->4Pw4[&Q+l2I^DS/K6WXfbJiYK@)-dzQpy;E0|;p,NEg
Q&Q2_CbC75qyraCsMy_>XTPV,x)iqa)OGJJF<N.0pWE$z__)WJfFy3jP9go@64.<T+Wpc9jIABCYtg>~z2J.4bw,s503sYt+!|Su
^n4[H28EN,k0x0)-0hxi<AnCH/N8-+R6/1!(eesc*:?**3OZJMYsd*;s<x=$nmePiXVZsLPH&tWV2^:R!(2(~1x/iH]0D+H0Kc.h
WKdv9Yk<Z@dVECc[uLS<_]Xs4Y|Zn(e@hcI=!-JdO.1f7Iimk]9L(K<&bSLns[V2AI+_C].k/gBBcq^w|8s!RKJF[Dkmck/0DW35
,RvMzm03Ly7G5N4dOTB.f6CAumDQY_*Wt--8(n^udnsT.Hr$gcr,8UV|yJ|,on]l9,u7TB.bevfaay?Y2M!;Jc|2((O2_q7BP=39
7:mu8Sg=Za[D+R+IamK2.I$UG%]!v:n.-PznbQJDZT-WOVW4pj%Ns^(&SzDjdRCP.X4]A0[m:[xg3Hm)/Md:v2U+qAa-qvXJRZ+n
M<Y7wHk1F.xQ-8eh!1N*KT5|Ge>(uzFL.p@1gmW|Pky1Zz_&?haf?z|zt*EF2i8?+5PCi!ZQ[hNw[<C_:U=0GmO3|JnL@REtWxM+
@:y2JVR,N~<B*A-fAb(i=5HZ!|c$Y!v+yb(+Rg>1IXf[Rwqp(*pKhLd6BV!%fKnlYGXc*7cTaY&Hwl2P.vci44oDpo5O?fq_B[Q9
1Pg+7K|~kxoOMBA5T8Jx4A0e-l9S^,~pD>Dbxk=L(1mJh-^uX:o.8&1NpA0lV[Xd)&Jsi>x;q5%MT!6neyuPfO<NE1?fiJMZg!+G
@^a-9^&~x|s=V:ubDFUw[/Xy(e$fpZ](R]1lJEn9qNNR7Igwu:z?7|;g>ZT@6Ix-A%sxZ]R^0u*EYC_9VwA&JMTK)z=-5Hs6N<7[
%vlHw1Tu*W6Y1K_VFlRh)=W155SJOP2yg~dGtzIbBLMh3Stkv9eIA+[id!SB:e8DNqR41@aV].)QrQ7<8/cSk[$j3fqIpSgl:z1L
aFL6gD*nkMt%F!iNp2^Dl*.pF;Z+^Hf*bp2H^IB_K22|gKsE>7GXYI<Wt(p,BtbJa6HXzh*ONnP.csR5M@N5&b<mvh?on*S<c=Y%
b&E[SW+X^h~PZCA61KxGSH(ckL<DpelBg^=wKoewh,TQ>AMhV~hSR:-dpAfEKTgRyUbsTz$SEPv??gXud+%%)fz6aRh$lqDA,V:5
]kWl||i8h.taQv/b$v7^>woJN0Qv$d:<d(Tl2Miwf3f9]o@GY]^y?tfitGk]Hk)H]a6=KDEle|GLUDhN3M7j6|1I:BaiS7Y1ckl~
Wl*7tYVq5p6m.SS^)C.DGl:EJr-pk()/0Jt[$SjNKV$8^aBzLmT:M:AYzC6:+UO_p5r>i.:OCITHe6C~6z+1B4nx(tqOyLSj]hDQ
))^,g:J-<QqfTvb!EfKM2$X(f%xVETxahciaQVHjnhE.qYp?SDB1NyacWK.A*~x>2_F?O9JELY;Vv3-P$Y>ZNkQ=q_ex-uhaeE+!
,AD:|^inz(oCcR&bV]gc>ZqN96j|^^,gb&?O2[Y&k?aww+J_F,dm/iw.ba(YH;r9LoOg:S[[8@G!)_0RO6&c:G/0niGqWkcgA$s2
*;$|0!p$OaQTc31_KJGPy$B<h:MA~<3--Ig.<bqWOQX|65pA%B<Ks5/$s|dva*.^1t|_i4@)+S,,+75!%E70-w=Vo]9PjU,H&63V
*~!&p^_W0T?tl+N)AOe4by(c()$vP-2YJBSJ:N*A8WLsk|v%JJ_fQqUiMEpXKw$NRG[&6y&)Fbbr!d|cw1pw33T,n?C1b-1-WYYA
q<Nh,(bG?MVtD3slKNiv6J-/Pdh1yP:7Vf<(P|=Z*@mswnA!rsb3*077r53naGlraT^S_bZF?129L<jmM:$Zh4zwMjH%n|L(02Dt
,L!|PN.b?Uj[=|beQQ1d>X[y=W$OLm!Vq[%<J1[OV8wPi(x^(;ka$(/krA/~<CglI?WU:num>OZ%Tb3:]fPINea]*O%K$7i|(?8_
fKEQhZJZfzOaa!D]P?$gxt>^C5Xa3s*0N8eO*7I*FwpB.!41oK?B3z60fq|k4gP6^MTfgaotZjhlFQM5xFJvjf:eb~@Rjm~z&D>(
aK$AF6Cu~;Oi=r;k+@WMv48t7VZB1rHCH[Td[ErJfv7&2)a?g@E~P4</!I=?36esHwyvAYF@3pTu$!3Vrjluh<)kkmEu4Jp!f0p.
!S@lAz>d]0r1.ij>Ln(myn8*j$VWTXN)cZ2mr|-)fH&kNq/Ja5yH=gS(zXWU2v[4cir8>To1wPO0ep^abjKKkt%[&TS0&<9[&)x@
2o3+Z;_6Opyw2z6oG8fh%IHHr[mN.frQ3,?uwmr&7$e|u|:OoKO7REB_kY?x)QOuE=zOYcfHEpG~b0WmYQ^.G@h!KbZ%g!K/v!-+
&SkN~SR/ygUX$9nlMniZc,koN]fSLGku./=JhlB.W40tC>g3z)XI3SRY2]vr$FA[V@O|ZaB[7I6Ye/gNX3Un1z[cPZ/H[ts??1@&
6=Pwl/qWxY[4Diyl3@Ncy-jCSMXFe3SVIER,U-=XY*>.lp6bIA4T3zzx(1q]WDl:G_4R5Cn2]4ISi^.gB[-NP@TT%*[tuq$~MrG&
~M!oFi(,YEek?F_I>enSCtgStrbNEhItYnBQ;sC4Hb6jhQaQ)-6DwPo2IkHx%/|IBdc%mci:(js.jW3Ts^v@Oa2R:[ZSI!.MY^q>
fmlxb&Kzp6[%$=O|%X(0@Ag%8_F/fY55ND5qr-v&%L1zuLi*X,_@?<=LVy),ok30Kv/krFS51P,/dEJ$|Q<hLMw^6p&MFq73=zsB
(~ZRnsV*>kB:ANvkn;Q88|L7SqSmgTR@,M+M<g;!+s@&mZXtF<i&mV(SZa7:)hiU(.C&yHC!h6NE;C+j4$oV:I5U?hQ^>n2h=FC~
|(LVy3o/8Sw^iOAZIM:Z~,!h>?gk;4J5k_3tE:6PtVTY!ac_qr(&bk/U-ipu/FtkN[D;W?Hc&YE<@5kJ=f]h@%ZALp04a:Fk?Z~A
8_C]XN5VGwJsZHTo/[5&.Vx@99uvGUL|5eB6d^n4!KOszrcfE[Di@NRr0xi$~BgKPz|CGCpoepORr!MhQ1T;;&3y3CDP2<T0@OYb
&tF-a(tA4Fvrr.LnpohzvFq+Or%|[I-?*.P9Quei~bovRUO!X*pW/Oxg^XArN6jGDT3]MY8XhGgCsaEiOo=h!;0K5v$yc:PlXlJa
Ln(|pf.G_[+6oH!.gG?X7=VO%4$Y_0rGl9/N@+SU2/_6xNFFURew+G4-2:$N^yeN_x;V9=c3%ilk1T<-CRdn429a=,vWgxnt84IX
r8CM(j52.:fF2m%yK-oiC1V6]PU$G|VA_BPpy9F^tp8VV1iDOCD!ur(u6b!<=K+NJ1=Sm7kFGqhbK$aUa8*GPR.m!X^xVN:uyc|V
pyB4JZK>>uldt&ulO*Q),zzvsyr*AQ]b$[q$wM^f!S+t>O=CJrVV^,F1]~xq!.igS6l|XTxH,n;2?9@rmoDgvF_sWLb[lIor0f;8
wp.+aA;<PiDF6^@30euFcX$B.>t=L=4!v=!z,BcG<g3y&:<SMQZe67-_yhJrj=j4^CVcU)F&_gBtKD|[D>xHB6$7E~XEk)IT~~Zx
&?B9%(q:^@f&_RoPxn1s8]Ow3fGAEsv524lAUQgKuq+%nuqrjxrbR.z0co7aBuWH^hK/Uc$s7tNhxTaf.J+9L=fo4nzUTGJ@YfHX
.1ClpEDMf&rvJQCm,H7Si$tCeX,!zH>~[vV*fXU,!h@EVNyMRY3X,z1Qx(Xm^OOE8RME!7Jel>2N;V7b0rGQ&bWbfUZq5KusoD8J
dy:RhS$iU@?jh4VaiEnHiP=5f/Z;aS)>6vpZ!FqMhkP9(%xFvwCyu%yEE*DewfdcFK7L.PcU9n*tjrtlRFd<+U/RI_S$<@5CZZhs
Ic*$eS:toqDf.wy8f2m2SmqoU*OU2ywURhptBh8C~r?;ZX|/6)-5*h*(<tN^zn$>Ovl)%fi-|GV_9Z6JiW7Tp1p>0<s9b78%mXkF
_wnd?E@R72%:IX+mhxdQn8+@b=d-Bblq(9HQBF1UC[Y,K%SD2D@g<|qMnr1%1d4<@77<Hh0PE^]wy5wcC=^MR9usq=V^tjx[d-Va
EIYw)]YYd=8&%Pcd|K[iU.@bP0&V]DE8!6_U?Z?DU.0I/b+Z*)IPTVV2&!hnOs3pWe0azQgBJ[=Z_UafA,VU.mKH953e.Z|A1ALK
G/&Tuq%8Pe5EWDn$)2>Gblz82,d,!UV19*KeD_V[RTuTH2.HqEhN]8lXa,Uzd!j.$f1k*P+ms)-5E1vECQASim1d|!|MJAf?U=o<
H91*..TjmD=:L|C%A60/r@w1.OLpby7,Iwj%G=,dI*Cn*58iVs:](B6*fJFgAvB;wsvY4=;]ZV^UklJG5Gu4oJX35!a1_CQ6z9)C
-$Wsafd_i^:D~[^l|Cp/9;+6OZ4Rtj+uO[)+K^ZT|Rbq,|w%@cQLxdKSGKzsJ4Tyf=6T2y]aQmJOV]PpcwZ*?7CDfgkWww;X8$[[
J=;(kN(~>tpfG5r[nxnWodArh0Y!1>V(R~n~$>(if6bFN=azvNr)]~VD~YiXL,Rb,*hFV&JXMY4Ttcca.iPip:1dU(je<J0yhX&2
4vlW7PrrfW)eRJtRP:sinSncq7@e&.$CuB7<gdB7V?u=T:@03i%k%^!nd@~Kei|K0,&J@%Wnm4*wY/NQoL%&kT*@[ORBMY4<lTxN
FL<Nd~A0Ef<4W6_D/GL*;6s>O9lxz%4I!.EfxI:$.3&xBn<Mhrqe1Z?60$T,eugw7Cz29IO[|7?ADSuBKC!z<LmbnHc<Ny9/7GGN
nE<jC@Xr5_v79dVJUh,;_%=XU<1f-?o2kd(/1s(h1sKYrxq4w<!.cqFq/J|>7Dpa~ArO<)Vko$R5Dosw-q(a*6NDJvQ@_/5Yam47
ZHSfCl%BIZovz,q0M<4:59||<BH,:*z|GzQ^>WA5]E%Uyrmc6:?k!Z(k[isY;*T^f?,JstRrTmN&Gws<ZvR3]_~Z^/NBO5<2vg1o
Ez2tYiZu+9zvWwcId@R]GEnBAh@!,,]W(0^vqql*7;-n^kBvm8x]&Vl:nxJcmKj/*(5vO8KMQ=9g>+,D169Lh5FkU:2G3AR>_cV!
rPl^Lv1jjw9.-f:PncOL,&l8<_H-3LF?L?K.~*!k)b)z)x?L<|CxrOH*Pdniyy(n87AaUy0yz^&o076o~ze@QN7B^NWfK(1rE_fu
J-bQ+y+=Zrd$L5.KW5Th=a]~k@4C<>myBG(kLZgeM=I_RX1,~(M(ssb]r&LG|R7(TxLIGao+0iWpI$9I;HZo!0.+?H$L7D0X]8]m
ujtihiP)TMC*z$~GpVJx-ZWJb_1egwZZ!X~M+$9b22;~~XhVC=nTF>]>+DU~icE~HI>Ultuy95z;jtd]dONHNFUItH(DbpMoc>sG
<TEwpvHkwaz$LK=mpKL-p^iS9b)@>lOxplwH=)Zg,<-ztaOs.SS5kMKuNgRn_sZg,>mUn~;d7WL:eol-vT=2gzRjseOfIiCM|dN&
6Ggm(-m+r0wUy8TPK>3nZ+)Mw/C7iAVEX$,&MFB[-^@yZmVzKNXr9Q&pOG@/VPg[IC6_NUVt&Kvg^T^P!(C|8^>OmHB0-03DRd8j
L@tWY<FS*oJ6gH)4CASa1CsaOKA$)@3/*I.wkFQWcuwpw|er6j|kr(_rs4O*qLkT<!kW34q.wyB90@=5+yBsK2<8QTyM<9G[[,L.
3+5O@qrkz7-vm3Js+GUnzuLXYhT]$UD_hY9L;x%4(9A[M)Ec5~rPB_,H3$5oizwH(.~KUYJR3)ck%oDGgRW1_3iq?9KVNk.,dMf8
Ux3D=:CIBk5NN_)C%gfd%+?[W9TH]A^uCx4LE:?WX3MG5I_)nR^f?+y.|6JF@6ZO6|A1S+,TQP/3,bvF|tcI<o2J@(8;wz;$T|=)
~a4khAs63j(>kahBq1kQi-sV>@+cz9w1tq0_pmiVg98ucH!Ucfe^IK[4~auPY:n[2VfX3uH:Exw+2Df3M%RU.Yu=(%/DdeqdOyWv
06M0jTPd9Wl*q5cM]Q84z6xWHF;OUom,*:PhK9HcK]vvqanzWoIx^S5hE]p^ErY=Q;D)T?!c$kbY^*ulD?)5Kv(TgdjE.:[[Qm7?
7W|>uNC.Y[;XmP8t_(zGp>Q)ER?z!=:?-QG;/lshn6]2/]wRP@wpklZATtsY.ZhU/7PU3D9%|D,edmzZ9w[VjnriFngFIS5]-kBd
Me7y2lNmYw^A<B&n-7<xIX!Ug^eTEa60I:hU-D:Mp+=6xWv?fiYf>)E.9Nde2.fplI_ua4ENg.a!v7i1~nN|!Bk;6ZU?[]Y@KYqB
?<c@[WG3+7XeYa^ajf2TP!%AvvLn*Ai>,v^*^LFOzf.ZVqPr/WLneO&<-cV_00@?3!a,uv|l;r>-,*NHO=GrT?eDl$1CGMy~[r=m
n-:r?2b-/UTFD&sL5DvuNy|38q7~k9wJGZM/MsQz9aL<QX%.>8$VXXdY8pl]myY[yG9L3XyFLL^iMY_cW%0Gsnj(fsWDoQLh6S,M
cf2e8xR;~xyg+K!82Vu=sO;Qhr@XyXZ1*n2!(FgZrg*;H/M3pXOLQnvtv.0Bx)3OdeVKLKOTLuv^n&e(lYVcJ+l127F^HJ$%e4xn
RulE=)46/(a+$<:.2HVdbc<w6SVUshymTmSkR98@6LfUa_opI1?<YLrXoV|(UgZ^lENFf:<[ocx,jF)PbUDLDQ2D1@&D9qs0%6*A
x-k$IECHM)Wo8YqM|PhRq+k+KbK]mk<v5OsTi3bgvD!X[M_Bt*8gb!)mzzfVgn$ga*yHg;<9zw2.:i!33I=94S^Mtb-rlYmx8Qxa
rdvab<_mh(~Y?Q**HiDbN3.d(jbaiknumU11Pp|?Ku]eSWZCvTDW5?iw4Vk(_S/(LPsG4CbjB0PD|~ttqO_ECAZ])?B;jGFoZfuG
yP8fQGTc+0kb-2^RHC+by&[]np~Y;&;4$naYxs3H!G>jKxxK^^wvs@mWg*m3z8zl0uy^hIr1j9!>ieMn+~[bz-,oJtGnL^RY9ClP
R/7_BV;Q7(Zei<nQE1_FhK.=Q!__LxA@eHmVV&&dXBZW*E/E[HA+yptkw)Ho8FG!Sp!_53&q=~~:AZ-etm&V8Kt5W^Qtwhf2T4ar
/:=yvZ(CC)>%$hj/1Zey?9.*m]*A|yDKB-N2ZIrUeTE|Q1CT/Wlgtb6R.wbl|_PFi%XYSpE-3TGhzMr|?<d~Or~Yy5n%qF!;JJ$1
eiyxW?gVa%I?KxpIo75?-OR0flCr/438PAv7PClA5>J2G]Q&rKIhxPCKeJ<W?[kS019Jk&GDKJrRX(eb.3ShR<nY?bu![-$gCnaO
?[~dFq<6:!(+KzC5~rDrnS^_,-VFpmJzA=0h!OvErwbV>Vgy$E?p9aYeAD>BcyHPbVLJ*wFna:2J1=ibii:;5tF2t$1zA!0Zkudv
=YWIf7I?o6LXQu_D=y]oeI|.1^M1^1g5RRA&|EwISk5gT&:P,BY1&Q=n%PfL.X73$vrgr0/l:b=1+Vh6E>b]4~iWO(_!w3Qw1zr[
?G:Mw6/^k3&OKpwFT%EAMSt4Qu6g:Sc_r@;ElRHw4egB~[VAj+ox!sjM4%aW0,K6F-)T-~/iD99vI.[s<]F2qP(WBAC%q!(>r!Rh
|O[UIe)27*Bmv(2VG7Y7qmKY?l=)brxrkK)GO3p$[*T+4&XV~)M5YCx2a_,bhK$vq<Bo7aJz,G<cD*BzR;Sp!=m/29Wg0U8[H_Yj
|<RXqrJB.YntCng$t8Q](GCpTxT6$Rwnikg0!<&u$l]c0i,Jal;Aih4?]C4=dGpHR]~XvsFyi~]!*_(jKxe(*xeKSVN8q<nCUjAW
sVFm3Z8mP<V@Mgb[^=+Vloa8c|6TfEEg9F=-EQ*;pm8A,8Zt[OJDOMD=>>A(9HxIOiPRS.h/=$zt!h)MUd+nsgjuKm)ksXYpNN<6
SajY,X%yf5FED!!D!,f~35Zy:5/PIVw5=:+-:ca_L)4q&=A+yT;[=-q-jQ5.yC~uRpcC$j6;(&y%&+Pd(a4N<1A@j%Z=dK^rmcAv
Ft++.P9F&o7YdppW+clS;C-SbrMbh/a?q2bz-|_(E1_Iu?yEsVRxK!y0BisMZr^j~Ru,KkYwDV_bTR?iX9.NPdZ<PLR6BY>/vrP~
ST2n,R%HtTe>&S~*$:szt-<Fzr.cd]cM;34rP*|48Snpg3^?dD+!IS:8r>tj8]5z(L*l5:YVNHQ2jEKwR7fRceg&ZZ9+|bAART;R
nG9KEW/ffV&S:9).VcmZzxwB*Z8ue;I8~JAld$8N%*f=sT>8ojN|B]SjS%Bah2Nh[KbIoSzz~KpnPO>HOF$5oHqY[$GzCAv5LeW1
I$^&EBq~8vZX7>I(yy&w0|(/*nk;&]!!ioqD/CX>2nK_mCOA79t9!n:j+IO8CS$5):>+0yU&?6dB5cjzS;@mf^]!E~lM46:Hwo5Q
PpDy:ja;/%JV01:;oEJ2@ML3MG&oc.]a@oVD/8n^(d$[sNc1E%5]U*+ZRCg+a-;nr_^nDeIMn@P=l^*11+TpEk_bloO+g(!NBa=,
aX,ZRWRN;o@Xa4SSydAQz?)!<i^jcGf_5um:~h3x<n|+6]8i~e.d:VOpfBEX*FVrI>_,RJo0mCLbW^$L_U/GDth!n_l9H/,.0N^c
3@/;qq~tN2|K?G6O~uIbO^N.@RL3=f8v.K<sxLXvY4L3+1<XeC4EX[Dq(^4kzgb95U4|Y7+BIz.yS<MyK7zdOK7)_%%f=xw=3ETA
;?FW.vaP@g~PftCBnmiD$/,z>2>HrYPPjeF1B8F]**yWu8!RG@HgzMo_,f,=S~R(8r>ccZp9iLEB374Yexctpf.X9wo7794lDyr9
b_:q=_0XObB^[xOb~Lk,yxrx?d]a&+1gxRtW?~Zi+a[Y*O6tjRT3ddRHyu-%&~c@&u4I[%>fSVQ-s%gEe*2@EOUO2>t)5ob|u2VT
dtqpV8+g_x-nKUU$Kq!V*H4WA<R,x_wJW$HMF367+UfbN/n7NtT(Oq8IDAu)QW%h]V6]BzqCyy*|JhA:Pw%9u]DI/EDJ74q991cc
]w(CJ87Wun<DmVs%f8R;7J1%HEE5Fk2MKs[L1%cPLY^ZJ~<[M(x*mq-(=s+Rcf~A4OE|+W==ch3@ZPS<pT8G(tpwMxjuyzq^uvQ&
ALb(|jYi~B;tqCD)!l$=RF)JqaRIJLgn%zPaD~Q?Dq*b/!q~*vscP^XXtXr]Z^:Eb0JTzk3jQE.pv~|[E~TVRTj0GW68Sm-qTO%L
r*r<1P..&TB~@jz8N(Ym,mvyQ0qtU~S1dh@HKvS3k5%d!~,R>n7=HCpFDUA$>|OU3ekT_,B=m,W.e[6I*b$E^[5o[/UGk4WzI?0S
YBu&TnipfzM=!Up~83,7E|e$i6gTyab@l&A=k[zY0+SF3poH@@*%$E:qr|LV~kUxIs-c;psgRm+j||ImHxD-ArXGtgNQY/J@SLO3
G,P;bk5FGwRV^.^-~6.=a<VxdkbLVFYacnRfp!ocPZAjFA(.dHkC/.=:3PhS|i2uyVKJ!K1CzPYAvNdkyVZzAf8XhG8d[VzmR68l
zz[SV;]1RXxloS)elTcOcU9Vse/Q_re[Fd,?uh[~/l.nt|,QqhyIE@NNy?)Sv1e4Uu$j@Gsrp~Nt)gU<z>hz0|fg>Oq%DO5H8f)@
4$S&7m@$/lQAcO$!]Vw2LzVUv>+rqwnQ%M=6vxI2<z!<WEjRyHZZvQ=3Jjxx3jt06jSy>cyQ0V<I6w-ElXAfAWsN<n8bu]p3=+72
z6;[&Iz*-_)g=wZT6%Kt[[TqcyTA_/tLliP;Znn-naye;lc>g,WSQ22L2jv4x;aYgSD>Xt&l2>R445,JstBq]Ui-MG6fa%O@UVMo
0,,ye0xVSPRp0iz[ReQGmYMm=U2N)7g$dV8ZBcY7I-9*^sBG4>N:cX_?i=[h@HmQAt2~00uW~z5V!^O;BdHre6N$&xn6h1RzVXb.
A!wjbIA&W1-Ik*W)XRI97.<<,N48MNY/]OQkcaU$^wcUqnCGp7fgoGeuuC<$RppZeamX!Ae;077>y)-[h/8e1WRhCqMe08Lmg+;0
Y]>G~E@bzETM2UU!pT77pH|$&_9r1uKt-hA96cULh9%)H/g/OyAyyAl9/F!,3qv^^f@TKNegrnj&1k>CzdSf-I5/^Z?NgBMJ4Vwc
j|7?=savl5J4S$u,)uG1,|EM9y_!aGga<wVmCLkDKyD11^_@?iU_<gC*%hd0.=3al[VnzDK)ZK&%QAyTvRg)0c;7q@q@DlY,(:MK
4mgyhhza&)Z[>kBb%[ZbW9[kxn3BfQA;]6h<dgqVo/(CR0CllS$YsE0=r=JrA=DZ_BcnB!xI,7a>7+)x<upt<8GL$j[]ia2A&@?<
ClZi~>w8v@l=68B,=PB[~guc^)&BLI)?Eh6JbHB:X?B:W]):ljmDlt*),5?Kb[6wr.96q)yO;tI[kH.B<MUj2]bRnyu,dbAqKHi-
_tc]MqD|6.W/csjbW$$%RytjRmnUc-%)~>ko58dfPq-mxyg-hkTn:G[5&&G%uw7lrbC)K+7|=,F,]8pRDnW|ond.gA$]g8/D@?iZ
4r=RUUiu1I;z!_C7u8H<h5WULm7DW!Fo5y1).X&&vCvCcS(C~*RPQ*O7d2A0ade9r)]7;RCfEW>MVTNA>a+(+J<4S.SFx0v%f8yB
%B:(V|CCS)wAw::p7|(:40)HzR2hi7/f*mA?mxd<rB*mrilD@w_|Kbc_h~nnPv,Szc@Gr,|w,E52Uhdo:2[+EH)<YfaW42!fInD=
>@p/t~:^@uipx@eJ_NoJeV-~X^)%[=P5<g)YHD;ur]&2$N6ofqGUiuD-@w]S?XJ-I4um=-nZjgMLSkI5fXi4Q3oKrcE|T_Ju~s[E
@Zrz1kt+lsHx44Hpki+|V|)K</ZaOfOLw3v2T-x^1J(D]ZNyjRkRE;Tg.bQzb)O_pL,1OJ$18>MWs5bD9ALOYAImG-^M/jr2*CH=
14WZ,A.NzVBf7e7$/<1?Po.K67Pfd:ak;gfzv|~zQtrXDK/IEhHktoR3kPPw>T@XOw1SWYD1WsA[e&j/AO5TuH>t:SM&v]rJsf8X
MuM&fETbco|(Dap/wT;O|[ympvcGHBIhC_Y?H5x[FU1hEc)EY<Ls&iUTQ~4dWvZUOyUm[<Dz0p2hHbrW(OGP*R?ud;IMnm]k[4ZZ
-G!lP5nDG9@,/s3MMNOI@2u]&_gLLfL]a4<TbDCe<Xf8MwS3)A;!NRf_4?P;|D+$Ew4cX9REQ~ym)+dPb&/=D(0,eRJ!Yu-2Cu&p
TS0iIm|;;w]a6p$89@/_;~U/Kui0~&|2[pdC>X<PhjzCDrPLW*z,YlhNJpvNmiK&=Z($Ke4yx|M/g>VT/A/:eMGSqj;k6JNm]7py
fY]mhuTI,:wB9dJ;ot],CbmksU%c__W!V];V8dD8Wz]MZ/X%@O[K./7av!tOd$WS0hRvzQe0?V-<a5hIjQXu<L1RT<d%AQMpCeTF
r)kU<|hpkp6c~*Y(8i_1/gsP<Q&/m:KE]+m;s@qo1)mb=NV+A87v2M<3u*]Qc+d=p6-(87-DdvoY2WWU]q;kdzN-4m3:(S^?e,;W
S-cW=L2y(hXT]lQ[X/nqx[av+zq8$YZHQv+eJdX]X50ew8%C]ai^|Cdm[hwLHkZc!cUE/aGyJ%/fHcsa<oG+SCWQnBaLl1J6Y|46
noaoBcAu^*=u+395Y.QtJ:qg]clcvtAo:i!ycKy3h(->)S&bA7F&<+nZcetH6hPP)fjVrf<m@Z?!Y2?T48|0mN4@7Gzo6TYI|=V@
9y.*ky*~_;nBrdKylf9-TH,UupGg~;W9.!b,HfXN%F02SrOv!.x1s=XxSr;OT]56/C+3)+k,_am-6GE-H)L*0IaL(]7B.~U-b@|Q
B!*dNx6CZWD.+yeVWJ7cS.mMo<n^NIhd!&u*/S>>ViHa$wNnczvHij4-]~F;-*M~sw&>G8CE-D].;gLoSVD3(:.S|xb50P:_fK@^
WW5;dG1D,?(<NGxh(2:BH=x?eX|gS^i?iOU1tY-gsF@NzzPJ%rBoW9HnRtIB>w031.Gkm]=q@ieENng6;jrB*HhzTyD<siJ<S._F
lkrPbTcW2GNijoe/L<.WOoZl>7FC_mp64?iG@=am3&<yid@)W>]niNEhrY8xfBBzI>N<bkoqnxR6V7%sKi>>t.;pEg[t2rkS;L$u
v0hmPY=IH!)F~EJmby7^n<fa?*b>koOu!Pec^Mez~0hJ9>^w^2HR0hdpH@y@QgKah%+-l4$sJ_l%ff9@qP!Vp_b4?Jwmn[m8U~S5
1S9J!c^i]d1QuqMq2pUXV092RXCo(I=|B7Ia%[&G;*NtH98gnteyj](DoS__3&|-frqf-a%@=h2vE]KaT.-S]XQoO7td|Fj=(Ku|
w,cs[Ab4WK[9Y(U%g11U|$g<h^BX)e5L)|bjebcvnI0^@O>h0:W--Tljcf,Rv0>r[LsZ*7tg4C:huera;+tvCevwm+<!W_p.W&7/
c+JCp/w[*uM8t9:B]h_9q@kh,J61$zzCvss*kkY:DQtfr3f|0SHKa%:Q?F5$4ozU|z1z8JRSk(Ev,*NQw<H>j<nr26TeLqFD]9cj
<Hb?=9rr7|=Vi;&H.t6CCWz?V,*NhG|:@lF7aVxl>cgMT;:iYWkQ)*UQ]:ckb7J/cH/>^4Y|%12RV&OB@;Yp>lr7lZ]_k26Td_Ev
&&fe73cPh=Cx,;?.G2hWR3hknjy@LM+Fmao&O_h8Ooa$h/]aSrquZfba*d@ZPy5y1h,VG/z_gW7x=(Q%azigAx_IXeO@vJmXfSdt
d12m2/6LTa5XCL^5[)ZLRWy)E14[^AsW4z$K[w7/yRSaSlpsvO4Lj>s-IpOd)u27L0f$b9=2x=XC.U:e(*6S87nyMp~M@mgcz.M@
RhX19/ciVZ%58$&?F25d68>=vaV0XC^CibDRcf~f40BN~wcJYpEk)6*o=.b=kn8zA7@EY9(ufV4?inr?Azwq2^)fPBHh)j:-BypN
EeZTQsS)+AEw|3M|OMDBA)Q|Y_[8K!*M[q2U?PI<?N@6i9%cPLto9!dx%2gU/]].fX[&?$f=0l|e|KPs-iOIhE5V;9W>|>fbTJ]+
TN+u_]3To/B@TpIqYGHr)$*?@1YcI8p(S7@1:.Fs.l6@!YkXl@K*n]e2>GKxJma7bzxQKYbd[A>9!jH|s4e;=01:|F3q@Vs&Ws9E
1!(ia;n1lj5?kO/.br+Cr$hNA8Qde@wqEY[0jmKx<l_a>ytPjMGdI@.J6Gp~pz_~zy;%U|D<)2_$)y)enj>Vby$4t23wMC/X!-OI
0ByLGs/v3Zwr]ue8tK^2-zE^<&t<JfogjUdyE56hPI?~Uu!Lx!@KPVi=hO_96iF^$Mbx;omoQXHpUs_?Y>)24cu87?I~j15$9n~_
B-$6a~cOj;Am!@W<)wykwT6?sm,b^hl^xvD4ymfE[h]^SEY0Xa~|)@Yc3hQ!^!fo(n@;2n]@Dlq^Arbtx[b*%FKPHYUik+GUPswv
~)nMFSAK!%t|k-I?DaOQJ$Z~T.PG|TTR?qR76CT-iOjakzVUz&_m^.^[DiYo2Yk87qG=5~9oKEKA?<z+&Z:B:zjE80FkT.]?K,bc
f>xTr^XFKbnl&ouRhh45N]<<8l]aDna@iyDLqB;PEaIbm@X~/wM:S3OyIdY!p^uYBzGD-?m;vM&ek%doQ:-c%1715-WbG,xT9&gM
jG9rIh|!?/29XVnZaCW_7aRZxIY;l<=OQkZG3,Yrr0]+T9*;ScKzw!~A(Vk]-?+Fg.DjuogJd)l_B$t|rUNDW:_HSqI&&*eH.RVQ
:Gy@_nrx$P:_nu|ZhjqE~@lC1.&i4LJN-/)w_v$nB-*TwYE5@2hXIWqFOnYF)oEeWY_MhlBHQHTgvX*^ka6m_HC>u<CQ2TB_-<[y
R?>B&D*f~6nfjWWIfc8Z8FJP;mpz=q]m.+2IeH?TkcPtrn>r%&jlD=ldsrUJhN=pG~9!0~,?ZI1M_a=ryTU.I&,yoScXGI@jM^AE
&B(c8_xXebp1l&AgtiR+~A:s5U2;P@Q?s@y38|&8Rf/6Ak7x+zrm?=kj>2r$aA-OkQqIxn$6%utGyfb);WuDOnjqD$6dtLnc/MdD
)x]l-BQ7^mrvO<2$BdN_eEQgCpJLp9atBvsv^S,:Jtah=Kc+f8b1K<baMNB7dzQTRxsXwW8lc3gU&HB,$00qOBoaRyd/-Lj1?XTa
p*L5lVL=y?98]x:q!|PV^URu2[C&(^feR_;GB2NNTf.O@):u)lRc|RP)Ty<%X@J-%3<u9dL*aFI%qjIO,1b?rsH75xUKl]IixDOM
eX;zQ*,4ch/*48;8cBqL!T$VDdD(+/c3VnW:vSB||@]^ni+**Ss7T+Vr?eUcc@<g=]]VOlK3&=ue5L74w]4Xv:Bi(Y~/A_/CJ1%M
<nV+vNC3c1mAUBe0t*0:5_/hmJ~,mRj+nCb$*_5i)E<=$rYTRlhU^MNoAz^^$5HmV?t2t~4d.6mFBzqsU+|K*aa1x:ewLb8=MW]W
QjlZg~]Dzl4e|X!2?=P!5[6wn=@kcX8L*g?4zIpy>px6qldoN/~9,!>,2L]@D6s37Bntyhef5E;ELsgxA>&(:T$R>Rc~E:6IEi,i
hUI~Gi>+p%3uR~@@xHP!QSt_O^cefB8*OsHa_k._^;q[LAd,]Kzi=)?WbbBS3;91hA)uh>bN?fEZ=FC=xoNfl+(/uo+Wt!@;k~%i
V1[-zxcVXF|4]|Bq:[x9;JPZr)A~La=$)a=Fd<|b_uTOZCbr^$1K_,NWGI!<(Nc;sZ7g|)AS->8,HqGs3Ee04knY/JIwgqn22@[C
!u!ac/D,~Y]<6hssMT0EN_+zes2d1lueT/*Cxgh)hPSS0r+VYcDT3NZH4AaJ@I/YR|r15+4,o$w_H+LB|gdBLkevP-U.b^ZAkPhQ
dpWKEkslPOLC1-SSh7f[Yv$kjQPSyP31n=)dU@,Gvi^jp6MeVd[l013U7f/g|Mz1@,N9a]a4;6R9X%mvAPMMxx]K4Q6K$O?XH4Yh
91L~v2+DdpWQU+k@A3w.;Bg5jKK=Cp]Jl3tiu^r!>r[%5+k|>AklLD7L<@f|*HWn+^Ny38DSO/&qZy.JVeAO)Ujc~hB4@~%a4Z76
KdfNT)M/Tg$>vxnl_DDmyPg-s/XN6och?nh-5g*,Jg+HRPz|GNhGU,0K+QuZC;rfEhtc;Jdq*;K)V2ykg|1P4|IHJd.ElA9kQtTv
Aw-UI0W~C;(bV2!dMU9<JD_;vZBPf*[$9_4of,0!<Tn>?D,l/Pd$!J!VM/9(j3ohJSxZ+,5De,ul7HH-EeT2Y4m|e7DfdDgcH@;F
Aj4@sctNJpI]UwjrgR8_RQ((5,PXKnEkY_)5a*>9o[~x9m>2dX*|c%%qO3<j=QBb/!Y2BqODHCGzl+2N3BgD)u),w1%];~|Z-U/;
gY?-cKD%)qMsjO-IZP,yVi&Q$2*G<_%N@Z%Eg0>hh?*E/z4>szOf|VbJ.7IB;/+h>Zg6jH0qe;o0s^s,X,(ds;v]eSt~r+S_>vx6
@*X8F70U@9XTq>dGHK^c^]7WEV]6DzPPFrKkU;Lew$>byQV:r%1$8%5m65nmX84P/fA$j4Rlo^PtZqb0=DoZW+?^>j>dZ~Kf:)da
I2Zcp0!LkK?VQ/)(=U.sp^kvKZ|]_Wkgyx7Pc]xMG&2iu^$2+tZB8)v(y3zV|prnqy*%!H7p4ft]Uk.IcLp/AQyc>$t5|fNxM+K2
*VH]4QCsH()Y,$aY)Ka(!SRLuQ^ukFB+UW*&DElpjxPj^t1q&WXR*7av!Uh8xuoI|K^;qk@=(A|tp?/wfcW?ZsePF7;OWF,2S-2(
UFK=;@7XmHrPs;+PY4d8NJ/G,!5R=LRdIwSEh9NjG(4KZ$@4wK6T,Q)cn_nfHR!@3HtQ5]Ur+|2r>8fjdDc!|=oXL<$YDf@jgWlI
4NzxS-fV&^8+B8PqAWek~eXxKj!JD2wT([0Cr@1~Is<LmrN2Q:)h(>2lnC*ZW(>0q(.eAds-4x3O&Wm@6,lF/PHjwq+Bfeb7V;|Y
N^wVD_LnIyu3TGO_~8mP=5t2g]X@SrJHTU.:4d9^G0_M0y>==7$>EKeCj8.j9,0(+=G!nHe_]9_WtMP/z0Bew?|$4|=40OB[VtZV
>+JrfKY(5ufU:84AuJuJ2KX<J_srr@?(Ud*:=hFsAdN8/~azXb;3vqdgnB*sNU-pzVV>7cC>3>O$>GDItvSA%CjYhj~W4yllALGv
xR+D@;UA,>bS16oQDh0=/8buS=yC~1b(x=,7g^s8lHs^Wii6)7p_kSALX[_3X[=P<.diqcD4C(qSVS@=&kZLK7G.WXuJ7bq=Odsh
6ZpnbIrnfKO)CY_?d|D31ksw;J+*nAUsBliiwd,1:0x|HvXFFw$0YL&1C5B@Te~w|h^yW?d|L37&5~8>lNx_@RP-4a3SUWS6@h_i
jeS[Sa<WT9vLgi+%qqR25_;Aq=,04|u|>DNyC1JDu/mZ5fS7U~eU*?&nPgW]H2Fb*(vjnc,O_a[D)3@0:n./qG?rvR_ts7Gb.PPN
CUFTNGp!rH]sn<YB43gvDxiBj4!7:5/y@y__+me1@3+a$ZK.[YAFc8hULvTnf@x&jvVLOYsHy0uIoaai@3YODtaj@kAw+at2q:WI
Bm8Qs%2b-Ub/APFrENo8fQd2~pleWhja,y?:QgFXf.TIM[ECYXT~4;fG=)x%+UD)<6ejyfk_N~z!.m*5hV98!cxnnL]1KCiW[0c4
QrlXQDgx4p!MHG?~x10E&HprKMUPITJi!~j]ixY14^:a;e.8lUU-EIn?f[&X5gV1b7Eb/sxj00Ft,e&m?CF/]xKWT59F&VO&?k_|
/$z<3Mt/j&A72rWC+0SiZE$T]s^*lw7ZkFJa:f-cVIVb7wZ7Cz@.njB+bsnnY_BS?Lu,eOEdh2l5Llu;ZaTch^Z!J(wUv$I9!hG?
lJ2>x$]%Te[2Mxzj1xAd3tM-hWVN*smGu;|dz9!-(gN9~E6HMuXilV-S+c](e1d>U-|%0_a&N0l?0u)L*Y5/1Fn>uHkj=rCV@gM.
WixZwUFfb_HGh)U]Zw8:wp:/,K)Z>Wi%mNG(wv)R!ls9<wsjwP9~|a$|Y<qP~5@?31vBEcFU~1F];^9EsFxqcQJvEK:Ab3f837.Z
lc1.@SMC>%MmP6vDiUkWnBq6uEY]qq|k:Lc+0:WZ!G_|BxU,UM!@$h0J>|@89b9mO/A]5C@!V/Dc&?d2mTy@-f.teUxICYP!sn%_
9Z8~O3ghib8fa]bRGOcAuHehyFZny0m6hi6i%<YS~&%eg,sJn:/N*?R.1Cncs(-|.Bo%?a6R8Cy^pzuVeiT:OXVNe9Yhq=92KTi3
uB<[mj%U~eewujjoV1zU4%E&ke::!rRU(xAi>.4bCBH6r[.e(tTY|v&oM*_HS=l!Bj$e7Lc*CHH5Hi3I;BBW|@Vjv0szCU1BK|R8
de*J9>f*14WmX6SGf7i9DW0BO%FxU]nE?MHU*jGy?lPkSlIAQ*/jxVJTNO*NYr:aH6mAWlxLc8LZ!zd-1c_@9Vd6A-avVx1Xo=MK
^3V%BJ]Cz&BO:tB0f<JE1%xVJ8M+|S9b,40DrHFSz>a>*lvsw,KAV1>:/7a)X~Q<*z7Kw&IlUyW*Qj7+:,rf+jh/4yzOzXD-KCm<
Yag@[rqZ3H87iueT@&/X,m9j_CoZ~wJ$j-YX]dj17P6YCMIuCC4Yd5jUBh6URD6gyJaTdl_Dw%ZfUrk:nlaw8:Y$Ja^WRboSlgyq
9$RgYwL.F:%*Oh7FfJkK]@5Z!@G1,&Si_.Qv/cmta:(TFEgKO7MOMy)BZTUJvjzlnf(NEKJ;ft+1/B>a8vJiwg$Oeff8f]Ey[BP%
02zNcPK?B?X=tH3p2BGI-L^5T]b1arDa0MgGepWjMruOZPJ/mKT]OTx=?&<%cW9HC$yEyY>saNk5F^CcGP4lhO,J[;0h18$X~O0*
14Cgfqa)$A@rMeG5wHEmBIUUciv35cF0c?)eNt!LK9].9r]Ij;JABru%nrT2PIB;;X|;V5)OW>?C)>VL^OjR$?nY(=991R.s6Qc4
aFUOC:zBkLN(Glq[JeKB%T5R8/A-3=:^q;*RrHZw7~6]VO|^oys$+Lswg&5hB,NXW$8w(Ir[ynmoE8VdCR0)NVGVK9*Sq>v!z36V
a/J35A8Rzu,_bZeOCV[qABae.QWFTeg$!&o>=rlL70(?f+;>>q|K(A5hebQV([P7PpL/qpsW4=~lU>10tFnErCsVmV9I^/=$)NVP
:e|L:h%Zc3gQHz[Hz1^i<1OeL-g|zmM=_tcC_0h),8Q)8FA|2dx6?gK$>fk_YksIu^uwiMkrVMELh_(P8l$Z[Hx:3]^ElVpWu2jL
i0%&gt/QcbrY=QV~VA9Xig<dH==X?f%W4jUiZlB;(hOA=Uurf_?sBJnjhbJ308gsJb[wE0XBM7q,p9Pz_W@m(_xt|r*L$HAWns+q
+c&+PCi+TFbJlR&MdI3Dlk/nGE%D:VshaQ2P??13v+mo.hcPMzU4|[U[2I2i3i79cR1./,=)pi%cu@oDe;NTpglw=X;|cwGIw:6e
*jmwRMuD*DM5^zRwr/Y9-dQo/IM&FbnmztPHS7W1atk8P)i=bw~rn<7ReNIg&0A&%N~jH:0_ZvDm<O]dgMYj>LOkNKRpED9G,axb
]jG1;DiL.z|RFcue;@YeiNRS=;-8ep8*|!&J|Z]1JIDGLaUn!UHcBuI6l;fLJrCBN[p!Z.iEXnnzcc|TQab5?zW1iZ/i?6X+^C0-
7Qp2wwTehrFzfa)Rqo>u^KAc=xwH)*GKVajZbmhE2,DW]vnSN%FnciF6f-mv@IeJwKC<R:T0xHRvlrqlw?Vme^O|Si2AjbKC~3l0
Vt.7i;JO<O3BD.iXq2k@Wdi,s)ZAb]2SV6d;@G&&cXG%13an%6tu_FKB+H]VOPk<P|j21d*oAM@lWP5PK7jsXiSPixlPtb|+2jz]
$B[XS72C-|~Rkc1L*7!=BDo%Ss.[.XDee]3KEn3|.Yve|UM7[*Xa/sr!h|V0/+~!4N;qJsBCySPh;&kzzV-DB7rPy$=B<oMsa44)
vZ3apw_7@DN~]B?5RKihaI/K-(PPFg+!p!rm7A,Gc;O*x^+-]:1.ruEq+YgQT)w2BN(&3iFoeu[O-ZCizrFud7>X891^wN@so39<
R=FZY:90QAEzTt?g2yyp2Ed;fW^cXFa[RcDj~*xJjk7g8ay2lw7M_nuATB~ET>?raR?U|@mUnDriTlCa[~X2ww@9kc:n*RURq9<T
QXrj<4%,<%J%6Ok.V+vRxXPKf0O67Eq+Lc+W-9]C;+!|u(t0@7f>*G%AhJW/mtdCE3=~[|VUNvho5yUjx+s$5%hhMq@>+diHX7+u
AG;AWSkS:5$5d)Y|ZunGo|^WdUkUe%-hb_;8f:EJP7xPExfQx,^uKJK./Bvj$]8Np3e8ZVzJb8L5[8eRsk)HW4GHaRCbB$w-0RIR
gCS)v48%aj/xZyekZyFocZ^*>zD%Du*(H@a3[~CH%5+r45rP(8.~[p,?Xv[Tw/.OK2A8LOHynXg+Dd-L%71?*&xKKcTVKUYs[r6M
&.KyoYxuIRqm!bc%TSb>V)tWP%<mKH%R<$Be+&S^Xv^s>9sK7Xyt6t47t,>w2k>!*%7<w:u4c=bhS?K(>_A,hG$e(wXYI^)WLERd
3p8Li:N>sH!Gem(fk58]rlm@SCA*JX@%-J[b$MR9)H*q-L3p7Z-k6rIG6=R=VOkmipO~Za=3hUn)8Ra1AGowiMdNv4j%kUq:_/(R
?bqGq@FEZ)h5fwyvbK(u=C]mQ6uOC4sT*.o=?O1[g4G=!;gnH2CyUg1?nHDpIKSgTE)Xbtnn>8_GOJ<1A?nyGs~n]:ljsUxjuzU>
<dmc;=^G$l9gNN1e&8]qSV)~15t1;,/En.vzT&1l[&&(W=*-g%)3PjujPqWQDR/-HlqesZQK)+gtGy@]Mk-BPd5A=18+r5MTxU4S
HI:Ik[6ALZ:(;xglGMa,&m~Ylu1uodw81+q85r*ht+Syo)B;MNCB1yCH[F<e!PUS|e$R[$YG%BP_*K>?wpvE?o|o<x0X91i+d!(5
mpRv9mov;S|3Wj3xjr(>fn<U%9>oM2UQ$zGIVbzL%bZSh0HUEhK7;uTIAR,=tU;1x+0$ZO[82OZlk,Mw(5tQ!Vf6!~?V>-nuLr3!
Z<ngJaPySgoWt9/NO/tewcJjHew58llr4Zg@cJ,J[@ZDjdgau[agnUDPzh)yhY-pV-K:=/;BQFDU=f0hs-~9AI|a:tW3ltp]08Tp
r-^h+dM*^+_XK<?3HkT[VH|s%SWO0&C8XCPqhGRLqBoGAaKtW*4t0*;2p|HxW-zfUe&4%UEv);C[:GuY;rVa%S=Ml(^RJ&!IdeX3
FdgN8^ukUj;8_g;G99A((iuB9hb4-,8Z-2T[Q)g|R*9=_7B3@x@j9q/Zlq=:@&G=dolYO;|:=hRb=5GoiU=i/7|z$UxZWrR0w^hO
CnEK&_y+&^$,W!G?XomGWM2>ZH/~lDY~xt*3ocziL-T1u|%*[3@StPW8&A0sI(DI&XN?]lgrZk|zoEgJ|eHP4+fD~y~;:ODJKRZe
!70Z~;88*bwz0KjFsx8c!+<]V&i|tgQ0U8H3].BJ4:mkP,X3/x~p?7r.i|_NcPI=&rv13(QVM-ZmF^M5B/[?Y8z]6|P$Wx+ZrD^v
u(F5a||7W_5gcXrwF5aiz9LI|po+q@U>wj|Bm>D2HB_f,skdrW+>y)XH2%4bfrO10;&3Dcv_AC&As=(H,iVLB1h$roo5xT(m>W:J
v[dF&V?2/0IHAv~;0E*N*o0!vseZ%Z_:;24ePtgNL4AUlU@.!&&a6V,de4Qo0E<KHywgEqkC5Y1[@>C?UTZ+[KK![v.aZ,]97PRP
2Fy$s,Y*e$:&PQ<lnzLCXs35en!%V!xrS;x^sF^;iCA&b>eBx0/<5*d$MRW==hf0PLk=]Ph)?rboR:):42j^OX+t/&FA,le:$d!P
^-obZP]$9<l.MNY:v(C$zh>p/t[VvO6fB_:MXQ&n.6~R&<r,8%iG)rGG7MTw@ots%63]YDy1M/2%xCv(l8@g7@8a_qXZg8.9V4vU
8(rtkdHA5Uct;$4>@x9Gmy@YUT+!QQU6IfGZIBK|ViSj:<Rv=@J!jhb,Cx6bcbUn;C-VinA[4DdzbKp/6)dr;ETbk|O<.$^93i]9
hHdxxpfaA*e9qJbJ52n^scs>s,Z[:K;dHm&Y.La;mL~aSTZ1&rq%ktO:fuO9nS/wg6q;-V16f?!K)qMn~hD2R|VaG3(/0o=R6l9&
6umXcDhdMP8&*D6X?1575MG+X|X1C-~[C/lmGNCBHoVgOIgEjrliw5NJJ]):JANP>3/IsbflHNE~Rx:*-fNSee]y([fQJ-sX?H3_
?gqnTiJXCg|b<U@>z]??-t2)+JS6b[~+beSB6Jy6ZupFjMlz!nf5%?8K4~sK*oY?Q.fXLe)ij@r/8^l6Q0I&Bl(s(KeGoH5Amm(%
7ps%OBPVo+K>=5YJ_h%TMWhS/?Lnp+cK$W<G!Hx[mwx%juA%37s.TZq<g<;/aC^z^<yX.Bn3jlKFHtXGay+K3K^+eU/9O^m*E|?p
h(GHP1u)!axP;/9jQdpA?o6:Yv0VnI(z_k^sqIn5Bjnxp>$WwiOB2<O!QhQVJ0|C>b9NEO_1XAj!TQ|Jx_?XqQ<dU=:/?6O>3yh(
bc[zqdv/W_[Qqh,9FWfKM5g8<fw)zonmO>1-,X+o%]R-ZfnfmnuFw+cxAsGv!fK&ii:H1x$I.[vvgev]@sFP^.,,q~5CM.ID8^R&
njZmZU@G%%R;vLp%)0]Wux|q$!D?:rjqPQ:p?DvV$Q7eJ!P)?[ROf^26NT/Dq%L(W*/I=qNn&W:iVlw/ykywCEee]d3I!-@oQ-uu
-g94*F<EC+S3%P@nM]30)qrZh:EW^!^FG;%hS^RU=Es~<f[az4V+C;xwGlWpVJfKAthEvHd$H?f5^6fgV^y?:&04-xOzsrl**Lhp
=[.B8XC-:|A%HcMfP0?x[c/UyVO+B01WI$OmT4)=3?P$TU<yeC|CfWDk>5[9y-l51LX[u)e_+?o!diYQudDCa*HB+V.v3X>1!h:A
eh<fM/oC^1bZJ0.=qU+.YicD;OwfrBXS:CPny/@/TVuPowSLYA625$9Vt^-!8,SV*>][r7;W6O41Ay/&Up,,G[[MeYPJqx?n/wk8
dOI?LgSIkP31[xaO%*b|Sp/qp,]Fw-qZCr<yoiI4eP8Ai4WTjzIw]HXKrdg/35Gg$XXAtC6qi_b]A!;^QrwwBTg/Tpvwpm+4:u>~
s1[-:d2&GR=n9$.;n]aQZ,.EOOo[67E3C-8(h*IHLI[hs>xJf6?23Xgf*)oxjzC297/-FT$w:Ijb71!:_vvkydU<7>;?PGnT=I:O
=aBj%~qBXe<EaP25*XS9<j~kLRdASyka>!5*w7&VONRru6EP^b4+da,^^ZhlLpC%4yDHFI8RQEm(/9-wYdk0K_bO1n()TJHC_AGQ
XXEzDZW%)pBLWz-ft[OKfb]jM-E*E*7*IFQwvI*y,Mzds@_>Cu]>SxWMMpvrzmEG4_N/i||dCq*WKuP>?m[Jb>HC![Qch|6APt8Q
::K7e!^xn+IIsi%f+PvjP0^8W8MT30>BJE*&Z(2Yf)wR*iBo)NHB^=%>xgb86rKx*;0|^_?e4^O[>573YzixAv~-C_Cn,jA$7TeH
p1JU$+uV95r@,|U.>4!Hp|[BP+78iinY1^ZN].F/HX5tuLo3|iQ=of^SNl=/.5p/+crK:HTy5fs])Y%1?wmn(&D%so82hV%EFz^E
>S&EK9J.X~pcG3(|G0Vo@C=(0Sk5*5o@(1H&eHP]KlI~5=;8kKPPi2vJer+.~y.Y%bUCwGFtiVk3GB%9%Zb4FV/1MMIyLy!$mk@q
y57Q5Qk]2QYh&U7)PL!E?@t>-f|V4epr&~e0*~%;b<qjB%~BV%NC,*Ex_(j&VxtU5J%Mqne]%q,YGQ%!Q)b>XxWnsdSTo96V:J$;
GGJ+LZ7P0_B[mX$SUs+a3&PP?*=&@+[)P,s3d:GIBj$zn/W@HbiN?X0g!c^qzeACM8cZ1>jI6b7peOh-(N*?sjQcQ!UDQa$KG|aS
]5&FkrK8XbY1%_DbX:LjsCBn>CWAk/X9$H)V;7[lZrMC8Nu5:w)xFHg6g,Z<ZeCHIH0ePK~gM,1$;Z([7xdJx32%Evq+Q,;Iy1%U
[?7u+;]:9rYT,|GlTZQ7GJOF_Nf.G^3>ZZFw@)Tbj?1GwHYRa:^_m=&+wMkQjuZ9yH6TPS]Eq|HQE/saUE!m6MURjjJS^Pey.w?,
p/+>ReKqY6o^FK~HRg/|f$VDurFd/eI)jCvLU~smCf%dV<baGhx,qYGY=4ogPN!E$PYlF21rtHT8!dff-&@|2,H5Z]s^xxP%*]JJ
ydPl&b/_NhPe+?qn39?bT9RmbW>^:tQwTKZT-/may@t&>CYy!h:DGbJ+3=TexfhhAjXOBZ51?r]H^FwYjn7|GgSZ1J,|C.2e&>,-
(TQ]%53i<?(T2iy3Bf2EtBCglBI?lv*6n?YI=ag;l)7Zp1h=:isW@0KU=v|55:F^E_7=b1ZB|J.K~q.5MAYgU&|&XfXAr2^D<~0r
MJcp$t<g$=PD/$l@[n*vM2V.@UvBeF;fwI.4*2Kzc%dJbD^1B4U-**bf6zYkaN]H)EHO4H0RX-1msG?3)uv-e-%UW(8trHe*F/9q
*/o@,t:Ed47ynU<W[[IKK&bncEtb%1T)J^$+%_4*Z$eBqHD1TpL]qxMZUpsd-?%jlr;ow:)Ha?5%T>.fd3>c|goQzA2KWRdEHa./
o+^rg3@_P*lTLj?d-/(28wv:e*~5NtWdXo~e]X.jq/uCfAMH[Mw5c44rOG6j(~jq*l?y5+)a:eeF[UhdKT:U2:5-=7C/0,2^;,m8
IM;>;8ZxMn5c/;k)?)*2/8L[z3<5dj/N5M=rNdcRCa12@b1+H1]~%nMxLTz3U0XK@~v%Y@QpSGCnP^.P(y=vO&]:ie/7j$sbQ.0(
@9%B%?c-yZ[odj&nO)&)_U7BkddMp;C8l*[r4]QB0Q1P]u^>KL~d.B1kJBxo_~FhJ9qkW;-bAS[L?gAKz;29c!&ym?H:y<<F+,Jh
S+JBPKKvS4to;eKW01WQCW$G:=g=7>Dd2S9[/[k:Df9G>|J/8YIY]nqjK!MVkjKWG@WyU/QH=&|^~8NY_mb$3l8u:j@Q.QLWbUS/
[>9T-lyzQTpvya~.HPZ*kUgA(/my6n.$bOz~1]26yon<2NyD+unSm.HTL$HqxoG(Fduk$8T:$I*!9-]x?0!Il?K4:2nLlwGtE;;C
_CCOPY>f:u52o=$$AO:nw.Gjn|3:H,G8.EYWgZO^<>jO,mV6.(apk.<:&IwdgCJ8d:8e[-i~gxUqo*s)VI4hVk@?wA)Lp@iXZ<4f
0h!)iX^LhL1CYL+<W;Iu.$L1t]$2prf>tVzs5rl-K=sb(UhxP|nGeZ+%;1t?VY6)Z)J$yLk^qPd3v8TAkRtS)2Q|2||r(z|f=:6B
sw|Z(&^O>302~6XJZxtyEp|@N;dkdd:-P].]he=BSm~0xD]]:B]j^ny.N)?e.(t9ztGPummmZbzbuyRH~?|HdqBD)5Z<WIN%Z=(b
4LbPP>XXa+<r<qcb_-p-[RLNK4pc<1-V3Y2-gwS1i>W,%k2Pat(<I7iz>+2J*/i4|0i-fva/_ff5U]E.f.O[&tkg!68t<HJ!uRM^
YxkLV4|ggw2es:<6?=Bypx9I-fFLXsF_B)?_]vn!EnIT>si;=85*1Z$vLR$y?_B=EYE-C_bucAkm~9Xs<k-4PiyvSU6GK-PZIBN7
*@Gm>%fQcz$SB;ekyw||@ly$NIbqMmACmQ.$B4*[$>_eHENP-]h;B&LZFkS;zc:6Za,CVthL-~H1mdAR=UFxbx)ynvKM~5?Ig_4o
6JjzF59%5HP|z?o!3KC*R6q[77V^K,qz_=@FtBVNW>%A-_+>_<^<nt9C|V9$D/2:kVE|I*?X-++VUUk2X@4i1mKH*<TSjJ$hWeg1
5:I7&~?Sm)V;Y7mo~14:/U@q:&DQo]n.>iCehiKmha43M?+D,]/!D6LqNvNfS*&3=SkN&e%-dB8+!$f%XFI5kO^Q$mmB<rT*f.<h
knpH]MAsW/i@_1.>C,.Zm;+h5jqx0mkdR3:U</.p2ED_vZHSFp4OWMSD~_FmK7iSHN(izB;!6W,Z+[]=D?!73+T*l5i:2LBPHR!f
B|bRsyW=^vsY/si]5%Wkn|^)y?&VE6x67WpjLg%TtbqKn(_3$Slpf<4flJtJ%a[A7RkzwrgV:Rv>rd[_t&o-AC!x2jp_]I~XYPw(
8%n|6:+rR_DdGn<b%WOml(F&xywdd9_@kCoLO/IqP_t%nP&HyHlga@ypD^~7CmsMV=eWKSEMg/eel7|&4>EsNlrih(/W+tEsN33f
WS4t%Zj7)X3VJnN&|>_zd|xQItKfdgsceEueC[&LX-w4|iO,uEzDy;g|FS/-D$Wie|>=NWeX40&@_cPoaS/n9OL*<vS+?B_2Qz/8
P%mybFWwNBXXjv*PmrfK)~8:UxG)is[$k!H8gcQ$t)[76^4t6Yst?|wz!DkmhSA)+UJ32?q*t18;P4.rzumiabQ_S6(K?*t[0(;;
C+Yc^|PZYzx?+m9?A@:6diz:;qs&=Wyu5xYJ%etefzcn(Q_BXARcV;/9Y$ZrU]Ki.SSY^TctfDaq.|KJKq-43)JbW.fL)?fxNU]E
Enn8)=99ng7o2KnJmF|$5Vc5Y-A?h2vf7zOWp1b%;AXmV^>FAG.]l?oIL>?pszFgV[Z7SS]aAGG$y1GiFhDbHI7z*xlMjh^a?cjX
2RolUw29ucGn17ZNL1-_S^Gll1|K3_,GbVudxiN3pGHta-7SRSfamY7?uU6A%Bm=*RSu^881Fb:l&0h8!eUc+WE/Oz]x1OLT%AE-
gAmgFSz@dt(rVyW1~S|!Nmr[!]&uuXPbmR<]FjU6LG*>e+N?nKSCt;Wa5v_mGGYZ])=|3vwDy$2mvE22wU6[|aMv4O5^LeL:z?m&
H$x+y|mV;5l:B*qsltFcrgA%S|vppsS;PVt>du-k$=Hp,f+f1S!m;rkw**PXx:zOttD(:_7:J*_G]$N?Nz=a^k<^$9D%j^v)m%G0
hks6sm[_1%a3Xr$ehg8~Q;0Oo.YlycgO>$[mC-*?deCl3f>fJcC*AzmHyip)7&tv3mlHXRm.WhGS9b>N7i@H8C5bT]x8+tEg)ubl
kpk]G@1Q2>rHxB5&ibDqJ$!C8K*fQE!MwaAe(hzI]h7Tz|A.%NfVN!<WPNr:aJ.)-,~+t6aBLKCBUZm]CU-4v_WY|t:NE?6xOf_l
&mtk>yfGpzFf:h,OT7e>]seQg^K7-bdXwGzm%q>:?A.=NymCm-iI,W*L^IoV*JKAfSzmuwcp2zz7T@uSUtL=|Pi5>3nM/Ua=Vz2K
%NoG?V>[$pB^*G79U=!UkCYI5Ac6.[1XZ!]*zi,zF=DHBy=1w3YB@A4n5D8m&LPapZ0?v=*hn_:N2@)yKffe?9vR@,6[R/)C$JFv
vGRZw7Z<l@uO,OyEKiFKUi[LdvhAAeOO6z)+zKI@ZD>^JGrDR%H/Xt&tyXV^nMkRM76rp?Nx4MLXe>K(Mn34R$Wg=On/mU_1~_^h
$+!z=f<nb|I?SN0R7sY(XA<m]yt65(dlg0q/vA9q2&O*LTJ%Jo[O%*3FejAViJ1J6)Z<mWpwuP%>4:Sj$18*g56gnEGFFW1(mZd_
pa9/F7LEi?E:=,ad]%NyOHpP2SM7H/$3rf90ucHQtG7,Y_e;g1I?,75oaC04737C86D47n?jzt$M-XB!c+XPQLG:xpyp%3r>Vmxd
ZqbsFUfrDG+@rusS-wr!$yn<~%CObEGIqI<ESiiv8M;NuCKT7[b5bjTsF%f(mPR3u]Ws<=GEH&8a+0PUYXP7T[*c9G$^Gco>,uw6
r(-WvlyAuXRwF&PRd&+dx4RBKvZ;(=V4ULG8>-0>*p~oS:(T9Lloqrdp0T&Ik.UZxB8kJbc|hjl!a&$$AJyt~*30_-?>D$5laEb7
wytA0~TIjG<gzmAwEv3U-8u,&-^WADLn=ArI/4ttu*9HN)i]qP[Wi2~lx_4hvN9~Qz.;PQH;NO&hLZBae?kD4xU%)wnqG*HrUq5f
?>-/S6tdyZ5sqW!AUmzxfVn4+&4u]wy=A)|pO<H:/c/xD1!Pn*@p527@;Er~Ctz*?$qclrCY&53<ZCN[e<I1c]<$&jy&Og5+cgvy
d7=Nms?34DM.zeiyAG;KO;<L8pkI^8beJNukPz?.]w@2TcSsepI3?i8Rg7llpi5gaI%OO;$fS0sX1[g|OCMSXiw(mCb2X<xxnpM^
TJWh-Skf![f&4*e$F$sEvYbllLJdqj(d|qwJ,!9bHA!by5lwVOL25/vU%fwPOIjdHvJfu&Wa!/nc.l/R0l/F)t+Ox0pxCfrINO(z
T|(=r5HO+K!S2cyzx/kx$+1esFMa<p&6J>nH^de(/cbYe@NIq<f)/7yEV9Qjvr7v:C|$PwJjPzdbU=3zL9YDa(I|yNFWpB38XO]/
[MBgxm$KXeGmr50KB9r_yCAchBG@~i$)?nB-M&kl&ksl1z6-tmJu@/SL<|w.4n^(,rk6C:G@LG+U2~dKJPr^d.5TqPze:nO7!Z*x
y7_TY72[Oz70SlQP4%*Ymd3rHoVrwp>&m)MROWS)MROCP:bgeZgiSE(5x^.n&8^x$%*CZ(mvFi?[(OYC%OW^,,~1u(jE1~S%BgIi
PoLlc^h&Xw-B1SxN3D-[!JKnaa4~9<.r2Tk+F*rC[HA?1THKikyH&npiEHAvaD?&Z(KmNdZGpDuH1e4c1|k$wR>Y%hBEC4H/9I]>
!UiT^k)Eb!l5uBS[R&]|k3k7@h.NHW8pdXp9mW8H.s=B8A;9VhwTp-els1>0e^l1>-RsU/SBc!jl+Md+o02*phg[.Y,7I-2@r.OE
R>M_R:wm0Mbg]zD=Troyu.L?RAc/,P=ls_ph=p++O^kgARGS6RZwT:BIxtj~2;BnQgSyttZ3$kRp)$|x1r=5^kAIin2vmZRo.^d$
<nga=H>cn~3Nkx.Zg+)n~O5|zGl4m5-BTsT)w<eEQk2fQ+Rze(+%u,UAKJql68jxI+]4+!p-Z%OjgbCg(^5&wYx,XBXbK!r,Tj(e
Oj*];Jd!=M6pwlB$nS6NP)RoP]|qO&VW;!]VbVhoDf&w*cMkOkzJHEfA!?AcgM]w:u^,$Hc8]1$4cQLA8_G]PF2MCM4L<g*cgQNA
iE*<HqpHuh%k&p,Z:;,E4!xjBO~)!TYY4weU+RD%iw+!_a<9X3V^t*TASsq4WCYV&1LMTX_C%0hKojb;Fv$,ku@+gE&]4ViljRxG
mT,_.!cJ;|XdYqycy-d/gWI@q:yLPD8vaKL:3+KtbZngV$HC:xWd<KP>5iVd:<C%msiw!wy5,K?Yw5DR(xE~,|G0iM.Q208@jf:L
R024;1$~*wyAoX*=luUPOja$vC$)Z/YQ:VI6>+k%!EK2inemKdkqd$t!lP?J/CqpL?/^uO<pE<0!D|;@_Q<.P1Sl&;)%ieVz?;1!
tojM21G~]?*(r@H![AR.z~3cINCf27~TVq,BZiTFiw(VL8F*_i^:XRN+JmE/ym:,~Eu3V24GDgD2bD,Zy|W;K!z!h^ii-bo/EV<X
[Xcr9,GjwB3@nSJs6dvF4mxL7C%H$=9I]H~o%Zom1~_-a$(5f)U:1EWA=kCB_u8GWKV8aA^$M]JlHf(+,yLT0iHJm.k-tk_-^S|%
QCzBX~aa0/>;9*[=bm5UP.jxpj?kZ<%B~q]m!uSIi>WmWx9hO-!?PlXZ(<KF*1H&-:=GSJIAuy>+Od/|2fqOP@(ZV]V+yY1)g)&4
7X7$4d5t$.2v~CBLt-b4$~Um1^:CMA:iE*0Pj>:sQ3^nf&tc4ZQVV<ivg)ZgH)tAh:?RS!.vzWVE/&6)HKR()UGBc,Z:/6>_&Ds+
,0[dGOyr^@I!6yLPj?Ki(N6NWcoX9v3)4rDvk=vRFq~>@S7dFZk!g%XAni0c>(uXcHY:*PHCG7Ip_t6H!s&s=oTL:Q$jSiI<VZIv
L^ch1PhI?>_rO?ildgZbtf!e)^?<YyPg7Am>13?I+iT]*F^4IC1NBwM5FL-%qQ8Rj)LZzw*D$(;zUzC+i0@,gV>JLau-I/g@*tDr
[$63jl[e5%Dw(@Yv]3Q*cqB636F@3rPislB5ofXqC%[acY!f5*_)Tkd?wxlA5wsbA]lBWhc0>PKHvPueW-882@LSX=@W.@]8dae1
5CO5UxUzDnUTt_2/J-CL]D!QZ*lNLqeZaAH&!7+h%MXc$k?!qt=pl;(rXWZBJ.F.[Y2kNX16nMClpQGZZr]J)PxE@lYCXB-0T1j?
vY>,06_,.<6@.06AG]Xnomi+?9Z-H6KlPG;GXJrvRr5oXB117MX]yU=&GT$dmP/be<;P4ntWxh[>|Ao%Bd8nolhYzgsctE|1^LO?
atfZ&?-6*u*zNG/o&I(zo8E-SU2kI($mR8Res53pPN%LWB<N9MnesO$y]*fsNxj?eqnLIZ$f?V:HR3!s:S_N!xeMPxMIS+FX*54t
+&S<&S3Lyb<mtcv-O]-><UE7MM>ZB)&.kUSq&z=s_I_FWCjCP|R)/R|TY=@WC[yynJi,tz<w><J;87[l:@Wo+T2bo&i3l:V$wz3u
66eglMfb8lo%zptGb7VjI^oPkjOb<ok?elnI=pTFRNq8<X7tz]x?r2ggWaJKSf]QuKrRF6ib=11/tq,+mn>o-lYyPKDG5!/98@wX
^dt~;lko>Pj@1Nji=BQyf1QT-Rzp]HI@sW,(;Nf5+g$>M+kxj7q)QQBy4<onL^JmC<NqXVa0Wu@Ma50(r-e!J]4>$Ng?InE/3@ek
jJ&lUe65*[2Pe~)ck>+$$OyMyWwNMO[3Up=<zYN-T0=x]=G~T>Abq0C5fi9~VBnTq@ClSQ_mE*F_?$bU44u^(>7^D]ogX<-AGoL7
U!KQz96zkJq9CKj?Ya2B:bu]GKG*QeRotP_E][QQ/x8)oyi4jM~k_&Fm2eDN/G<!n/pY97geow@H_YE;%Jh<I[prm7joM-KKoo~7
4.T+mI^8-g8r|_3q;Y0N;SC8X[S-gY91ZB;CcbB$:w.&$CUk.JwSEccnxFqC;CN5RPSn;=t>+7L]J58nAGeCBJ4L^bs$]+UkO3kA
R*64SU^Jsenz~8Jzb9536f*8XR0l_tP%pX3aQr/^Z&enY$0^vylwZt)gQa(wNTZC(MPxN&5>?=&BtH:;Sdq8_zrg6TmJ3sx7vAC2
,;nmIsezZ^jF)qf4wb0/NWRaro(:Ff=D%6$ja[-]MnMzrwiS-7&5q00h_kr;O2vN,2fEat>KCA|StrpK(tTBvG(m08nx@1.iGN!i
?-j/~!axAeTYac9oagE@6XJ>b]lH059qMEa,b.|$emyaH4NUFNdXCn;s*tJ|lZLsIi.MRXr?qH45=g2p=$ifVP6i4HHIFD!y%$/5
)5/T..kE5&*3pD*f/oC~4jc~oHn>lu;50=K),4Sg|~wjG1B8MMV;FJK4h.z_5)NKQEVVysDuKNwMck*h|XE$xY6FF9T=l$f>>S3^
wkx2i^e|IC9$j~SAcKsQ):L%.-7seeS^j[W+1r$GhzN!R6|h8oJFhiS]rH6^JR5gKqd,Z-IyjjE94tJZ,>u.|!qo61]|V9fs7fF@
k&h<>!CCuA<NR%v3H[!S9_~5!Pac&tHNxfmYR(4L7t2S!N1<t|9cNA]]ov-2che@9D^-dN*_!OB^f^=I@hC9wB_kBHx.%i_0<q0o
L+A(b]||0p[M9DxBI?;m^SG>S)L:F(.r*<@9pk2Q|U86rr5_u4=S*&8&R,B]0)iXoCsMQ9$YrrY12[FPy20e|Emt*7][tQRv$3%:
Aig4,o,Nl0g>f2-_3JjIO+tO-NL5.PLq_s=jreTb]V[e+5)yTfvK4xC!hSadPAX5;]]B<jQa/4TRrmum+=Ye|wm]QzQsQ;8PP-f.
u4wP<,oCL?uxRL1GPVx)>V5%mr6!vRl$^9Iu?%W=*0sq*A6?auFkb4q]WS!zG?K-vnaSm-K)FkgG6zK4EQt:>eC-o(bms!!1[fhf
0ca6bH&dBM&P;ie6n+|t%ECte*DmFG></8$+1%FgT/uk-<BE_zUJSU(k$NPgmzC&*+7+p,7Ww|uA;[$68+bN^@s>Y(Y_r*jWab|/
k7_^~$:d^ID79g>Hj5MA;.?j*.<(qzi^9J9~VN?o!Ej7@|lvB,.HSNb,H)oXVjS$6^):Wzt(TD3shGy.zORa13Ri=&*k.:yNh&S+
hUmB07(^Lwz_e_J)1g98~_^?W=KvvlOJ9VTPgDB(&c_d,Vn~WE?F=f(|u3$YS.,tj5,dDh4k6BF04bqRDljEJFn<ZJs],tD0imTc
<FQiF.fF!&4$KDMO<,d19TbE<!P|KyTi%BNLHVAxTeR5]Ua^tmcMD[;[WW3LP7^kICm_7&eSdL|!k7LiY~!?6:?!!jDXg$7H6S<w
F@<QcY>]iQehH]T;Yz+]Ke*:|myG5Lj+DuYwW;q-8F5vJi:oXeKs31/%FCGbba=-uAn)]2O@9e@s=@If+NHXXDaH[1bug99uGs6T
&cQKT|fz3qpd0[8xTE*B0L[W=jddHQ$L@5NK^W:K&Vw~d.F.2<K@$$BTY(5uH;qlW&P9xh?MT_P^!~u%$66>~$daT5.CYXEkEXd]
>)(u9]3!b!ateX%Ea,.y,,P)G91l/qC9WVaFy-gMWMIi4MGuco&F^gmG$Hca@w$i,ryO>%f!+9Tezbw+K6pCu2ef6!r]1&CKiy.J
e4Kp=U&y~WB.a,4a2rXPsoN1nk*Q~U-,xVQpOD1j8aa^Pv_DHQwoik83:n?^f,y*s3:;h4~9e@Ib~t9$a>Px+2F2&:MSJ|AFDCbo
?aB&6ItII&hReZ8Y*9%>v^2m~^dQBiXrx;~(-Ab+=f]siU2XTu*pTV/%&OMzO2CkRnaB@<e?]yl6[ny]@s0-7BvvkS@1?<DWCC]W
titc~o%MZ,*w%O0kH-_S$|Bj2!hMx-]E%r1W5EgJa[7kN)pAlL)P7D08lwZ>Qe%E%YnF:z^@O_LJtW&Pv/Wb[HV6i05pQu(e1ti1
G!^^TLr5vHc1rTx:<l8<eO.NO?V1W3e;IepH^M1V|f_SyDX38y!z*qJ(&Z^D.~6I9Hn^0>pO8i%8E2cDCXJ1Ng?q/FaQ-:9)=>-r
_-m]INCMyiw:1p7<Q!8;WT~ZWc;*2$=Apa-j3k*0PsnIMDRP[^qA42!*q-hq$WD/xfvJV|^hU85_TRPoW0dggb:Sf2!NoACejG@H
mPGYeU@C~Yk?KO5[HhkY9@b(0SthSRYQzZrUKN|7!jjeUD:]kQ3Jy/krv4i<Li/R>-__J5S6B2cjv=.;DSrct_ljjCYM>_UaGO,*
t;iVl~t(H+QnD-k]L,/f&:x%*6=n~4<(EkDGs9nnbGqN1wP0kmy|2~G<EV??j&rZ3X)%fQ<^H(gK*G[>jeBaP%:xJdI?JciU6A0P
qKiD9[I]dOv_ve<LoO*ry_7Nzx40]p<:CRj$f2EcRJD*6@@~wNUX6&zNKxV*Ne?$QQG<gqQ[9GP=x~vWL,u:ij|^<-4Ek&(;Hrx@
IvX(D(0XbjA1D1oxd0~~P27he6-/94zB^AXdvPEMc192gh+Yv9)Dfo->wJ@0?Z3o[13EcE1t8ij=&*FU?yc%iY?ry_,_>%YQS[6:
%:x/iwcG-pqJk^jeQeQpcEgaDK@D&G/x8$yRQOeP7jqzu:DUsvn=jsNd<wy[8b>WD%iufB]5o%CK_X?6.HDkJ81N68OX2CKa>RxN
yZ;Poe$2<UxoB/UW1I^Da$jIas<TYn5jRzeWc1DB-sePo!0k>38|w+cXS7</&;>lXV)Gd:gc[0UjonTzS[afInUqh2c*Q.%KexZD
jqaE0uVBx6)+PUxv8GaxKu<:w_45kCqsTJ(udQ:Ea|wBQ[QNR=_FXlO<gG&2rv:VkELI?AG4v;$&S/uIYXz_BM8]8HWQ-/Wo@S%L
E[|poBT<92lgx4rP8pK|bu|5cId!,rZmoKvE3Bwna-u~dmI==?wA2&H--*wmv1._e+]6DXYM-(zD&Q8kwQ;BNjI%?f.br<UQIj3a
f<WH=&XHo2S_chDQU^-t3^dN;|9S7@$3$Au<g@~8)yk$/I1^ykaE@U,mtAf:aI>rw~[ZtE[SWKdSXQQzKmQ8(9V&8RS*VHW7Szfo
!Gp-)!P2Y^$+nl^(eNo*mr!xC4OJj0)uJbwSva5gU9y.5ENj4Vwm.d919=-C@6kxS9b)2^qes.,eR_1WK<A)_Dfwte0TeV%WX0Lu
78G<&ayKojPvsOe_%1pT5OXNL%YM91bX;2gkwlgu+/Kl!GE:w!,-a1((]=4dKZuOUHmNr[6pl&,KpQ2Up,GNwYOTCT,]g^BMyDn6
S)AE9Ho%X!.(S|PlB1OPUbdB$Q^|5aY7=u_rb97.W?/(~=GvZI@Ay(uj!938byMYg8H/O5+2cJJl^_Z[8Jww).3kD1(6QZr*$&(J
[F-TDAj@-j4pUe[lo-Fv%E1!=A%)Cp$jYp$JZYj)?Y+8h%udgxfxPvm(5Ix)=R.Xor?QXg@H-/tJtyx2fs1+Y]Yh+AzS3(n]3MkD
b,zw@i:gy/9xI[+Q=I[:u/:Xg8em0+C!tqaa?]Zi81rqG6cqlV~.el8Gcq+7Mrxp3L6NRdVTnU@e:~G9ud&AKhqc)swb<e/m>DTn
[(-*5H0urMZ8aCi__R&iuMoq[%T4a^*];|fnj|fh$?N.)DRY$CHVU$WN)=nvrwe,jDUGl431otxboEp@ca7])oIA6ZGT0DtLL$>R
K[R>R>3@zI/*TCae[:=Hhhdu9(B2dlvn5!2t5Ytc>jGgd2.kb5!U2ab.zhZLvX&?jzFvl8nEn=XFz.)SRNpn]g*vk88c(jb*dc_5
2]YruJ+-aQEg<Y39SRocFlAvPDEEFqmD~O65@&b:0_T?X>;Vo?&mQLsk[qkoc]v=CtI>Blmh^(*=sobNcyMdBtK2fyrujSbCyL1k
(8q9Ygls!dfq^.e:yvw4<wz+bvTFd<zX[Z5hgLlBW%rK*%~QA).K%/r3b8@AB_d[|8?NEmE]T.y~[+//_+lnl,951V/tloIP~|EE
pQn0dj<jU3[_YlD-;3UkhE@2NFz5aa>f$M!!@&*OvB:+ge)A!l@B9>a0MOyHvjHnj047DfLl@W>E;alBGOF<8+cTX3cw<L;(Uw&5
>y>*6-AmYWU-EgcgU9W1dH,]|(x%;6jh%~JxA/uhPBc<7/B8Xt*7_GV05pfX7O;WqU(8loU?u.zr7(c@uobcXYUf.vjg:.DdO-70
;&X_i]olbu8S4Wr|5:w1baL;mCW&T<^86BeIq9Gv_8&1!60~3e8t!E?x+UfHM36;zixs6&nRian%F3Yxd0d:6<|S_JfiS(q])zJ?
An7FqU@)H[cX[>];q<!.$Jw=!&sJse/=K;GHKX!(e7[0~0K5,zICXX&D|p2iJ<.1p1M07CCx*j)xG+)dfcMxQdyr7@*NZ0.[mtVQ
/x)jXt-kvR]cJ6D[v:Lf7Z-&rx:CXG[-fHP*YZioMVuVho<.Tp[~mFA>BRUan>RanbH+:<jqWnKUfq07+[X7J2bVMu*sbACdP[r5
-N?A22po$&/nl2f$pI,cLd$M2&a4=yR8PkP62McvyM6tyk0;~4-vvPVV*7+6;jTdB/CD9f++sV|XV9vTM!v.F-Z^y+%JW;Q<CQ|G
;c2Q1ygx6d~C8gK>NxFASm]h*Yw,DE_(0M9eU2+^K,>a,-l]4+SnWzD+WByksEX:(v9:R3oO$wo_vaRG0W>kJe@h*kHbD|6@zAqH
L0U[szGq!z74Pg9enOMxLWdg!0r6/*A+,=*uvPc4JcHJ;Qsem]<>h./o,!^^iYb/ru&x~PfYCvK2%y$w$5:r6[mDS2ti*4BRlZA>
KYhyi3M3~l.I6_LY6ZJ:Lw>6^dh;xJ:LsK@TNwv&cOr5MggwNdi/DqPGN0@(9Yl8TQ1p:S.OTW$2-_MIdlL!P7?VQA,X(wTzbB94
N8N^Jc0r1-5ls8s+:l.Ta0;BYi!;6PntdO85lar)|aOn.XbwHU65JS%K9Vle%u;CL8gXPqw[.@vZmF@ka(!V7xcAH%J-JeR(RFuG
LwVw-_K/qhm+M=*ImptCiO.|t2q*H=g7M_(PN9u$sq3K?NsNu3V4;IRQ^Ciq~>g;&^q.TqtW^!^XcMYHZR!*QB+Yf>B8Bw8=g%J2
Xv^M2e1~U$vg7NRcAVyO<~+:$Km6U2NW/DMP$UHD@Pl*q:c!]y2cAc3<GSM%8VLxD;3c2BPh4%fx4GFXk6YR$cJ5iZa9YsL:&UR>
&OxX%KpVwBRf(wU<~0lZ[+&qL2~<5Gq?0OLC4Uw,7gg;-8fHPU~g$;lxy$y~^Df?vrMQqbIG+rOWa[pokw4)WmVxa)91G^>i>sXI
Sjbr!tp]x&=M-4DK8o5erY1q2_/-|O:fH3rTwwOP&^mhyQ3,R~uMaB?xxW|Y?&jILapZ4R$*Qa0bJTU~iKdR~<QSSnWu;![v@Luv
zD~6Y*U8i9A|Nq3G0WUTAIIee/)orIHqE7tQzpQbvVuhCD~Bd]bTOy$X]MXiajJp^IckoMv89jLX>U(weU3YR0!czNY/cM1|?*_^
Pls@qA<TFe)y)^HzrBohSq|H)xBwT+0uKXZBimm:Jjuvitv:B8yjq]D.b%fT7E.:R2LM,ilEyxEkGz9AmiD-W75tcmySklgcTaZS
*HG3ZK$RQR~gjvh|2<F)mXQzP/]t)nE?12n1IYy4TwZbZ1Oq<ZUUN*iZ2pVRNEJ%zF!ivzUqA%GJk3FzP*qtte>b1u(XZvev6%W*
Q+lroHPaJfw(kUPa~s3L)9$?%<ZiO2j:znp@WYMTH9|yr~*XR<v(.=wm2j(uGBRpf:E*C2im0c(d!sI*Fj>3*Bef9aW6xE98jsE/
s6tlW(F"

/-- The names of characters, which are unpacked when they are first asked for. -/
def table : Thunk (List String) :=
  .mk fun _ => unpack 283169 packed

end TableScript.Text.Name
