import Mathlib.Data.Nat.Size
import Mathlib.Tactic.Ring
import TableScript.Proofs.CommonExpressions

/-!
# Exact quotients

A quotient of whole numbers is rounded to 53 significant bits before its fraction is dropped, in
programs and in queries alike. `quotient_exact_iff` says when that leaves the truncated quotient as
it is: if it has no more than 53 significant bits, and what is left to the next whole number is not
rounded away (`KeepsWhole`), and it is not too large.

* `roundDiv_mul_eq_iff` is about quotients that are rounded to whole numbers, `roundDiv_div_eq_iff`
  about those that are rounded to fractions.
* `leadingExponent_spec` tells which of the two it is.
-/

namespace TableScript

/-! ## Rounding -/

section

variable {n d : Nat}

/-- When a large quotient is exact. -/
theorem roundDiv_mul_eq_iff (hd : 0 < d) (s : Nat) :
    roundDiv n (d * 2 ^ s) * 2 ^ s = n / d ↔
      2 ^ s ∣ n / d ∧ (s = 0 → 2 * (n % d) < d ∨ (2 * (n % d) = d ∧ n / d % 2 = 0)) := by
  have hr := Nat.mod_lt n hd
  rw [roundDiv, ← Nat.div_div_eq_div_mul, Nat.mod_mul]
  generalize n / d = q, n % d = r at hr ⊢
  have hq := Nat.div_add_mod q (2 ^ s)
  have hv := Nat.mod_lt q (Nat.two_pow_pos s)
  rw [Nat.dvd_iff_mod_eq_zero]
  generalize q / 2 ^ s = u, q % 2 ^ s = v at hq hv ⊢
  split
  · next hup =>
    refine ⟨fun h => ?_, fun ⟨hzero, hlast⟩ => ?_⟩
    · rw [Nat.add_mul, Nat.mul_comm] at h
      omega
    · subst hzero
      rw [Nat.mul_zero, Nat.add_zero] at hup
      cases s with
      | zero => simp at hup hlast hq; omega
      | succ s =>
        have hunit : d * 2 ≤ d * 2 ^ (s + 1) :=
          Nat.mul_le_mul_left _ (Nat.le_self_pow s.succ_ne_zero 2)
        omega
  · next hup =>
    rw [Nat.mul_comm u]
    refine ⟨fun h => ⟨by omega, fun hs => ?_⟩, fun h => by omega⟩
    subst hs
    obtain rfl : v = 0 := by simpa using hv
    simp at hup hq
    omega

/-- When a small quotient is exact. -/
theorem roundDiv_div_eq_iff (hd : 0 < d) {t : Nat} (ht : 0 < t) :
    roundDiv (n * 2 ^ t) d / 2 ^ t = n / d ↔ d < 2 ^ (t + 1) * (d - n % d) := by
  have hr := Nat.mod_lt n hd
  have hn := Nat.div_add_mod n d
  obtain ⟨half, hhalf⟩ : ∃ half, 2 ^ t = 2 * half := ⟨2 ^ (t - 1), by
    rw [← Nat.pow_succ', Nat.succ_eq_add_one, Nat.sub_add_cancel ht]⟩
  have hpos := Nat.two_pow_pos t
  rw [Nat.pow_succ]
  generalize 2 ^ t = T at hhalf hpos ⊢
  generalize n / d = q, n % d = r at hr hn ⊢
  have hrest := Nat.div_add_mod (r * T) d
  have hlt := Nat.mod_lt (r * T) hd
  have hscaled : n * T = d * (q * T) + r * T := by
    rw [← hn]
    ring
  rw [roundDiv, hscaled, Nat.mul_add_div hd, Nat.mul_add_mod]
  have hparts : r * T / d < T := Nat.div_lt_of_lt_mul (Nat.mul_lt_mul_of_pos_right hr hpos)
  generalize r * T / d = w, r * T % d = ρ at hrest hlt hparts ⊢
  have hgap : T * 2 * (d - r) + 2 * (d * w + ρ) = 2 * (T * d) := by
    obtain ⟨gap, rfl⟩ := Nat.exists_eq_add_of_lt hr
    rw [hrest]
    have : r + gap + 1 - r = gap + 1 := by omega
    rw [this]
    ring
  have hkeep : ∀ c, (q * T + w + c) / T = q ↔ w + c < T := by
    intro c
    rw [Nat.add_assoc, Nat.mul_comm, Nat.mul_add_div hpos, Nat.add_eq_left,
      Nat.div_eq_zero_iff_lt hpos]
  have hodd : w + 1 = T → (q * T + w) % 2 = 1 := by
    intro hlast
    rw [hhalf, Nat.mul_left_comm] at *
    omega
  rw [Nat.mul_comm T d] at hgap
  rcases Nat.lt_or_ge (w + 1) T with hbelow | hlast
  · have hroom : d * (w + 2) ≤ d * T := Nat.mul_le_mul_left _ hbelow
    rw [Nat.mul_add] at hroom
    refine iff_of_true ?_ (by omega)
    split
    · exact (hkeep 1).mpr hbelow
    · exact (hkeep 0).mpr hparts
  · have hnext : w + 1 = T := by omega
    have hroom : d * T = d * w + d := by rw [← hnext, Nat.mul_succ]
    split
    · exact iff_of_false (fun h => absurd ((hkeep 1).mp h) (by omega)) (by omega)
    · have hodd := hodd hnext
      exact iff_of_true ((hkeep 0).mpr hparts) (by omega)

theorem leadingExponent_spec (hn : 0 < n) (hd : 0 < d) {k x : Nat}
    (h : leadingExponent n d + k = x) : d * 2 ^ x ≤ n * 2 ^ k ∧
    n * 2 ^ k < d * 2 ^ (x + 1) := by
  have hn₁ := Nat.mul_le_mul_right (2 ^ k) (Nat.log2_self_le hn.ne')
  have hn₂ := Nat.mul_lt_mul_of_pos_right (Nat.lt_log2_self (n := n)) (Nat.two_pow_pos k)
  have hd₁ := fun y => Nat.mul_le_mul_right (2 ^ y) (Nat.log2_self_le hd.ne')
  have hd₂ := fun y => Nat.mul_lt_mul_of_pos_right (Nat.lt_log2_self (n := d)) (Nat.two_pow_pos y)
  simp only [← Nat.pow_add] at hn₁ hn₂ hd₁ hd₂
  unfold leadingExponent at h
  dsimp only at h
  generalize he : (n.log2 : Int) - d.log2 = e at h
  have hreach : ∀ y : Nat, e + k = y →
      ((if 0 ≤ e then d * Nat.pow 2 e.toNat ≤ n else d ≤ n * Nat.pow 2 (-e).toNat) ↔
        d * 2 ^ y ≤ n * 2 ^ k) := by
    intro y hy
    split
    · obtain rfl : y = e.toNat + k := by omega
      rw [Nat.pow_add, ← Nat.mul_assoc]
      exact (Nat.mul_le_mul_right_iff (Nat.two_pow_pos k)).symm
    · obtain rfl : k = (-e).toNat + y := by omega
      rw [Nat.pow_add, ← Nat.mul_assoc]
      exact (Nat.mul_le_mul_right_iff (Nat.two_pow_pos y)).symm
  by_cases hreached : if 0 ≤ e then d * Nat.pow 2 e.toNat ≤ n else
    d ≤ n * Nat.pow 2 (-e).toNat
  · rw [if_pos hreached] at h
    refine ⟨(hreach x h).mp hreached, hn₂.trans_le ?_⟩
    rw [show n.log2 + 1 + k = d.log2 + (x + 1) by omega]
    exact hd₁ (x + 1)
  · rw [if_neg hreached] at h
    refine ⟨(hd₂ x).le.trans ?_, Nat.lt_of_not_le fun hle => ?_⟩
    · rw [show d.log2 + 1 + x = n.log2 + k by omega]
      exact hn₁
    · exact hreached ((hreach (x + 1) (by omega)).mpr hle)

/-- Is the whole part of `n / d` left as it is when the quotient is rounded? It has to have no more
than 53 significant bits, and more than half a unit of the last of these has to be missing to the
next whole number. -/
def KeepsWhole (n d : Nat) : Prop :=
  Nat.pow 2 ((n / d).size - 53) ∣ n / d ∧
    ((n / d).size ≤ 53 → d < Nat.pow 2 (54 - (n / d).size) * (d - n % d) ∨
      ((n / d).size = 53 ∧ d = 2 * (n % d) ∧ n / d % 2 = 0))

theorem size_div (hd : 0 < d) {e : Nat} (hlow : d * 2 ^ e ≤ n) (hhigh : n < d * 2 ^ (e + 1)) :
    (n / d).size = e + 1 := by
  refine Nat.le_antisymm (Nat.size_le.mpr (Nat.div_lt_of_lt_mul hhigh)) (Nat.lt_size.mpr ?_)
  rwa [Nat.le_div_iff_mul_le hd, Nat.mul_comm]

theorem keepsWhole_large (hd : 0 < d) {s : Nat} (hlow : d * 2 ^ (s + 52) ≤ n)
    (hhigh : n < d * 2 ^ (s + 52 + 1)) :
    KeepsWhole n d ↔ roundDiv n (d * 2 ^ s) * 2 ^ s = n / d := by
  have hsize := size_div hd hlow hhigh
  have hr := Nat.mod_lt n hd
  rw [KeepsWhole, hsize, roundDiv_mul_eq_iff hd, show s + 52 + 1 - 53 = s by omega, Nat.pow_eq]
  refine and_congr_right fun _ => ?_
  cases s with
  | zero =>
    simp only [Nat.zero_add, show 52 + 1 = 53 from rfl, Nat.le_refl, true_imp_iff, true_and,
      Nat.pow_eq, show 54 - 53 = 1 from rfl, Nat.pow_one]
    omega
  | succ s => exact iff_of_true (by omega) (by omega)

theorem keepsWhole_small (hd : 0 < d) {t : Nat} (ht : 0 < t) (hlow : d * 2 ^ 52 ≤ n * 2 ^ t)
    (hhigh : n * 2 ^ t < d * 2 ^ (52 + 1)) :
    KeepsWhole n d ↔ roundDiv (n * 2 ^ t) d / 2 ^ t = n / d := by
  rw [roundDiv_div_eq_iff hd ht, KeepsWhole]
  have hpos := Nat.two_pow_pos t
  rcases Nat.lt_or_ge 52 t with hsmall | hlarge
  · -- the quotient is below one, and only from a half on can it be rounded to one
    have hlt : n < d := by
      refine Nat.lt_of_mul_lt_mul_right (hhigh.trans_le ?_)
      exact Nat.mul_le_mul_left _ (Nat.pow_le_pow_right Nat.two_pos hsmall)
    rw [Nat.div_eq_of_lt hlt, Nat.mod_eq_of_lt hlt, Nat.size_zero, Nat.pow_eq, Nat.pow_eq]
    simp only [Nat.zero_sub, Nat.sub_zero, Nat.dvd_zero, Nat.zero_le, true_imp_iff, true_and,
      show ¬ (0 = 53) by decide, false_and, or_false]
    rcases Nat.eq_or_lt_of_le hsmall with rfl | hbelow
    · rfl
    · have hhalf : 2 * n < d := by
        have hscaled : n * 2 ^ (53 + 1) < d * 2 ^ 53 := Nat.lt_of_le_of_lt
          (Nat.mul_le_mul_left _ (Nat.pow_le_pow_right Nat.two_pos hbelow)) hhigh
        rw [Nat.pow_succ', ← Nat.mul_assoc] at hscaled
        have := Nat.lt_of_mul_lt_mul_right hscaled
        omega
      have hfar : ∀ k, d < 2 ^ (k + 1) * (d - n) := by
        intro k
        have hscaled : 2 * (d - n) ≤ 2 ^ (k + 1) * (d - n) :=
          Nat.mul_le_mul_right _ (Nat.le_self_pow k.succ_ne_zero 2)
        omega
      exact iff_of_true (hfar 53) (hfar t)
  · obtain ⟨e, he⟩ := Nat.exists_eq_add_of_le' hlarge
    rw [he, Nat.add_right_comm, Nat.pow_add, ← Nat.mul_assoc] at hhigh
    rw [he, Nat.pow_add, ← Nat.mul_assoc] at hlow
    rw [size_div hd (Nat.le_of_mul_le_mul_right hlow hpos) (Nat.lt_of_mul_lt_mul_right hhigh),
      show e + 1 - 53 = 0 by omega, show 54 - (e + 1) = t + 1 by omega]
    refine ⟨fun h => (h.2 (by omega)).resolve_right fun h => ?_,
      fun h => ⟨Nat.one_dvd _, fun _ => .inl h⟩⟩
    omega

theorem roundedQuotientNat_eq_iff (hd : 0 < d) :
    roundedQuotientNat n d = some (n / d) ↔
      KeepsWhole n d ∧ n / d < Nat.pow 2 exponentLimit := by
  have hsome : ∀ whole q : Nat,
      (if whole < Nat.pow 2 exponentLimit then some whole else none) = some q ↔
        whole = q ∧ q < Nat.pow 2 exponentLimit := by
    intro whole q
    split <;> grind
  unfold roundedQuotientNat
  split
  · next hn =>
    subst hn
    rw [Nat.zero_div, KeepsWhole, Nat.zero_div, Nat.size_zero]
    refine iff_of_true rfl ⟨⟨Nat.dvd_zero _, fun _ => .inl ?_⟩, ?_⟩
    · show d < 2 ^ 54 * (d - 0 % d)
      rw [Nat.zero_mod]
      omega
    · generalize exponentLimit = k
      exact Nat.two_pow_pos k
  · next hn =>
    have hspec := fun {k x : Nat} =>
      leadingExponent_spec (k := k) (x := x) (Nat.pos_of_ne_zero hn) hd
    generalize leadingExponent n d = e at hspec ⊢
    dsimp only
    rw [hsome]
    refine and_congr_left' ?_
    split
    · next hshift =>
      obtain ⟨s, hs⟩ := Int.eq_ofNat_of_zero_le hshift
      have hbounds := hspec (k := 0) (x := s + 52) (by simp only [significantBits] at hs; omega)
      rw [Nat.pow_zero, Nat.mul_one] at hbounds
      rw [hs]
      exact (keepsWhole_large hd hbounds.1 hbounds.2).symm
    · next hshift =>
      obtain ⟨t, ht⟩ := Int.eq_ofNat_of_zero_le
        (Int.le_of_lt (Int.neg_pos_of_neg (Int.not_le.mp hshift)))
      have hbounds := hspec (k := t) (x := 52) (by simp only [significantBits] at ht; omega)
      rw [ht]
      exact (keepsWhole_small hd (by omega) hbounds.1 hbounds.2).symm

theorem roundedQuotient_eq_iff {a b : Int} (hb : b ≠ 0) :
    roundedQuotient a b = some (a.tdiv b) ↔ KeepsWhole a.natAbs b.natAbs ∧
      a.natAbs / b.natAbs < Nat.pow 2 exponentLimit := by
  have hsign : a.tdiv b = if (a < 0) = (b < 0) then ((a.natAbs / b.natAbs : Nat) : Int)
      else -((a.natAbs / b.natAbs : Nat) : Int) := by
    have hnat : ∀ k : Nat, ¬ (k : Int) < 0 := fun k => by omega
    cases a <;> cases b <;> simp [Int.tdiv, Int.negSucc_lt_zero, hnat]
  rw [← roundedQuotientNat_eq_iff (Int.natAbs_pos.mpr hb), roundedQuotient, hsign]
  generalize a.natAbs / b.natAbs = w
  cases roundedQuotientNat a.natAbs b.natAbs with
  | none => simp
  | some q => by_cases h : (a < 0) = (b < 0) <;> simp [h]

end

/-! ## Quotients in programs and queries -/

namespace EvalM

theorem Agree.int_iff {m : Machine} {outcome : Except Halt Ref × Machine}
    {answer : Except Query.EvalError (Option Query.Value)} (h : Agree m outcome answer) (n : Int) :
    (∃ r m', outcome = (.ok r, m') ∧ m'.store.content r = .int n) ↔
      answer = .ok (some (.int n)) := by
  cases h with
  | @value r store v _ stands =>
    have hcontent : store.content r = .int n ↔ v = .int n := by
      show (store.object r).content = _ ↔ _
      generalize store.object r = o at stands
      cases stands <;> simp
    constructor
    · rintro ⟨_, _, ⟨⟩, hr⟩
      rw [hcontent.mp hr]
    · rintro ⟨⟩
      exact ⟨r, _, rfl, hcontent.mpr rfl⟩
  | fails => simp

theorem query_divide {bindings : Query.Bindings} (type : Query.Ty) {left right : Query.Expr}
    {a b : Int}
    (hleft : Query.eval bindings left .unknown = .ok (some (.int a)))
    (hright : Query.eval bindings right .unknown = .ok (some (.int b))) (hb : b ≠ 0) (q : Int) :
    Query.eval bindings (.prim type .divide left right) .unknown = .ok (some (.int q)) ↔
      roundedQuotient a b = some q := by
  rw [Query.eval, hleft, hright]
  show (Query.operate .divide (some (.int a)) (some (.int b)) >>= _) = _ ↔ _
  rw [Query.operate, if_neg hb]
  cases roundedQuotient a b with
  | none => exact iff_of_false (fun h => by cases h) (fun h => by cases h)
  | some p =>
    show Except.ok (some (Query.Value.int p)) = _ ↔ _
    simp

/-- Where two operands are numbers and the second is not zero, their quotient is the truncated one,
in programs and in queries, iff rounding keeps that and it is not too large. -/
theorem quotient_exact_iff {left right : Expr} {left' right' : Query.Expr} {m : Machine}
    {bindings : Query.Bindings} {levels : Nat} {note : Note} {type : Query.Ty} {a b : Int}
    (hmatch : Matches left left') (hmatch' : Matches right right')
    (hnames : ∀ name ∈ left'.names ++ right'.names, Bound m bindings name)
    (hlevels : max left'.height right'.height < levels)
    (hdepth : m.depth + max left'.height right'.height < depthLimit)
    (hleft : Query.eval bindings left' .unknown = .ok (some (.int a)))
    (hright : Query.eval bindings right' .unknown = .ok (some (.int b))) (hb : b ≠ 0) :
    (∃ q, (∃ r m', (eval levels (.prim note .divide left right) .any).exec m = (.ok r, m') ∧
          m'.store.content r = .int q) ∧
        Query.eval bindings (.prim type .divide left' right') .unknown = .ok (some (.int q)) ∧
        q = a.tdiv b ∧ q * b + a.tmod b = a) ↔
      KeepsWhole a.natAbs b.natAbs ∧ a.natAbs / b.natAbs < Nat.pow 2 exponentLimit := by
  have hprim : Matches (.prim note .divide left right) (.prim type .divide left' right') :=
    .prim rfl hmatch hmatch'
  have hagree := agree_eval hprim m levels .any (fun name hname => (hnames name hname).named)
    hlevels hdepth
  rw [← roundedQuotient_eq_iff hb, ← query_divide type hleft hright hb]
  constructor
  · rintro ⟨q, -, hquery, rfl, -⟩
    exact hquery
  · intro hquery
    exact ⟨_, (hagree.int_iff _).mpr hquery, hquery, rfl, Int.tdiv_mul_add_tmod a b⟩

theorem matches_int (n : Int) :
    Matches (.literal { type := .int } (.int n)) (.literal (.int n)) :=
  .literal rfl rfl

/-- The expression `-9007199254740993 / 2`. The quotient lies halfway between two numbers with 53
significant bits, and the even one is the truncated quotient. -/
theorem quotient_exact_tie :
    let left : Expr := .prim { type := .int } .minus (.literal { type := .int } (.int 0))
      (.literal { type := .int } (.int 9007199254740993))
    let left' : Query.Expr :=
      .prim .int .minus (.literal (.int 0)) (.literal (.int 9007199254740993))
    let right : Expr := .literal { type := .int } (.int 2)
    ∃ q, (∃ r m', (eval 3 (.prim {} .divide left right) .any).exec {} = (.ok r, m') ∧
          m'.store.content r = .int q) ∧
        Query.eval [] (.prim .unknown .divide left' (.literal (.int 2))) .unknown =
          .ok (some (.int q)) ∧
        q = Int.tdiv (-9007199254740993) 2 ∧
        q * 2 + Int.tmod (-9007199254740993) 2 = -9007199254740993 := by
  refine (quotient_exact_iff (.prim rfl (matches_int 0) (matches_int _)) (matches_int 2)
    (fun _ h => by cases h) (by decide) (by decide) rfl rfl (by decide)).mpr
      ⟨?_, by decide +kernel⟩
  unfold KeepsWhole
  decide

/-- The quotient `9007199254740993 / 1` is one too small, in programs and in queries. -/
theorem quotient_not_exact :
    let e : Expr := .prim {} .divide (.literal { type := .int } (.int 9007199254740993))
      (.literal { type := .int } (.int 1))
    let q : Query.Expr :=
      .prim .unknown .divide (.literal (.int 9007199254740993)) (.literal (.int 1))
    (∃ r m', (eval 2 e .any).exec {} = (.ok r, m') ∧
        m'.store.content r = .int 9007199254740992) ∧
      Query.eval [] q .unknown = .ok (some (.int 9007199254740992)) ∧
      Int.tdiv 9007199254740993 1 = 9007199254740993 := by
  intro e q
  have hquotient : roundedQuotient 9007199254740993 1 = some 9007199254740992 := by decide +kernel
  have hquery : Query.eval [] q .unknown = .ok (some (.int 9007199254740992)) :=
    (query_divide .unknown rfl rfl (by decide) _).mpr hquotient
  have hagree : Agree {} ((eval 2 e .any).exec {}) (Query.eval [] q .unknown) :=
    agree_eval (.prim rfl (matches_int _) (matches_int 1)) {} 2 .any (fun _ h => by cases h)
      (by decide) (by decide)
  exact ⟨(hagree.int_iff _).mpr hquery, hquery, rfl⟩

end EvalM

end TableScript
