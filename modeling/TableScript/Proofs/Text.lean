import Mathlib.Data.List.TakeWhile
import Mathlib.Tactic
import TableScript.Text.Alnum
import TableScript.Text.Numeral

/-!
# Characters and numerals

What the character classes say about the decimal digits of ASCII, and the number that a text of
digits stands for (`readNumeral_digits`), above all the usual numeral of a number
(`readNumeral_toString`). A numeral is read as long as it keeps within the limit on digits, and
above the limit it is always refused.
-/

namespace TableScript.Text

/-! ## Character classes -/

variable {cs : List Char} {c : Char}

theorem toNat_lt_of_isDigit (hc : c.isDigit = true) : c.toNat < 128 := by
  have h : 48 ≤ c.toNat ∧ c.toNat ≤ 57 := by simpa using Char.isDigit_iff_toNat.mp hc
  omega

theorem isNumeric_of_isDigit (hc : c.isDigit = true) : isNumeric c = true := by
  rw [isNumeric, if_pos (toNat_lt_of_isDigit hc), hc]

theorem isAlnum_of_isDigit (hc : c.isDigit = true) : isAlnum c = true := by
  rw [isAlnum, if_pos (toNat_lt_of_isDigit hc), Char.isAlphanum, hc, Bool.or_true]

theorem digitValue?_of_isDigit (hc : c.isDigit = true) :
    digitValue? c = some (c.toNat - '0'.toNat) := by
  rw [digitValue?, if_pos (toNat_lt_of_isDigit hc), if_pos hc]
  rfl

theorem beyondAscii_ofList (cs : List Char) :
    beyondAscii (String.ofList cs) = intervalsFrom 128 (numbersFrom 0 cs) := by
  rw [beyondAscii, numbersIn, String.toList_ofList]

theorem alnumIntervals_apart_blankIntervals :
    ∀ i ∈ alnumIntervals, ∀ j ∈ blankIntervals, i.2 < j.1 ∨ j.2 < i.1 := by
  rw [alnumIntervals, letterIntervals, numericIntervals, beyondAscii_ofList, beyondAscii_ofList,
    beyondAscii_ofList]
  decide +kernel

theorem isAlphanum_toNat (hc : c.isAlphanum = true) :
    (65 ≤ c.toNat ∧ c.toNat ≤ 90) ∨ (97 ≤ c.toNat ∧ c.toNat ≤ 122) ∨
      (48 ≤ c.toNat ∧ c.toNat ≤ 57) := by
  unfold Char.isAlphanum Char.isAlpha Char.isUpper Char.isLower Char.isDigit at hc
  simp only [Bool.or_eq_true, Bool.and_eq_true, decide_eq_true_eq, UInt32.le_iff_toNat_le,
    ge_iff_le] at hc
  change ((65 ≤ c.toNat ∧ c.toNat ≤ 90) ∨ (97 ≤ c.toNat ∧ c.toNat ≤ 122)) ∨
    (48 ≤ c.toNat ∧ c.toNat ≤ 57) at hc
  exact or_assoc.mp hc

theorem isBlank_eq_false_of_isAlnum (hc : isAlnum c = true) : isBlank c = false := by
  unfold isAlnum at hc
  unfold isBlank
  split at hc
  · next hlow =>
    have := isAlphanum_toNat hc
    rw [if_pos hlow]
    simp only [Bool.or_eq_false_iff, Bool.and_eq_false_iff, decide_eq_false_iff_not]
    omega
  · next hhigh =>
    rw [if_neg hhigh]
    obtain ⟨i, hi, hci⟩ := List.any_eq_true.mp hc
    refine List.any_eq_false.mpr fun j hj hcj => ?_
    have := alnumIntervals_apart_blankIntervals i hi j hj
    simp only [Bool.and_eq_true, decide_eq_true_eq] at hci hcj
    omega

/-! ## Numerals -/

section

variable (hcs : ∀ c ∈ cs, c.isDigit = true)
include hcs

theorem readDigits_digits (acc : Nat) :
    readDigits acc cs = some (Nat.ofDigitChars 10 cs acc) := by
  induction cs generalizing acc with
  | nil => simp [readDigits]
  | cons c rest ih =>
    have hc : c.isDigit = true := hcs c List.mem_cons_self
    have hne : c ≠ '_' := by rintro rfl; exact absurd hc (by decide)
    rw [Nat.ofDigitChars_cons, readDigits.eq_3 _ _ _ (fun _ _ h => absurd h hne),
      digitValue?_of_isDigit hc, Option.bind_some, Nat.mul_comm acc 10]
    exact ih (fun x hx => hcs x (List.mem_cons_of_mem _ hx)) _

theorem unsigned?_digits (hne : cs ≠ []) :
    unsigned? cs = some (Nat.ofDigitChars 10 cs 0) := by
  cases cs with
  | nil => exact absurd rfl hne
  | cons c rest =>
    rw [unsigned?, digitValue?_of_isDigit (hcs c List.mem_cons_self), Option.bind_some,
      readDigits_digits (fun x hx => hcs x (List.mem_cons_of_mem _ hx)), Nat.ofDigitChars_cons]
    simp

theorem readUnsigned_digits (hne : cs ≠ []) :
    readUnsigned cs =
      if digitLimit < cs.length then .error (.tooLong cs.length)
      else .ok (Nat.ofDigitChars 10 cs 0) := by
  have hrun : cs.takeWhile (fun c => c == '_' || (digitValue? c).isSome) = cs := by
    refine List.takeWhile_eq_self_iff.mpr fun c hc => ?_
    simp [digitValue?_of_isDigit (hcs c hc)]
  have hcount : cs.countP (· != '_') = cs.length := by
    refine List.countP_eq_length.mpr fun c hc => ?_
    have hne' : c ≠ '_' := by rintro rfl; exact absurd (hcs _ hc) (by decide)
    simp [hne']
  simp [readUnsigned, hrun, unsigned?_digits hcs hne, hcount]

theorem dropWhile_blank_digits :
    cs.dropWhile isNumeralBlank = cs := by
  cases cs with
  | nil => rfl
  | cons c rest =>
    have hblank := isBlank_eq_false_of_isAlnum (isAlnum_of_isDigit (hcs c List.mem_cons_self))
    rw [List.dropWhile_cons_of_neg]
    simp [isNumeralBlank, hblank]

theorem readNumeral_digits (hne : cs ≠ []) :
    readNumeral (String.ofList cs) =
      if digitLimit < cs.length then .error (.tooLong cs.length)
      else .ok (Nat.ofDigitChars 10 cs 0 : Int) := by
  have hrev : ∀ c ∈ cs.reverse, c.isDigit = true := fun c hc => hcs c (List.mem_reverse.mp hc)
  unfold readNumeral
  simp only [String.toList_ofList, dropWhile_blank_digits hcs, dropWhile_blank_digits hrev,
    List.reverse_reverse]
  -- A sign is no digit, so the text is read without one.
  split
  · exact absurd (hcs '-' List.mem_cons_self) (by decide)
  · exact absurd (hcs '+' List.mem_cons_self) (by decide)
  · rw [readUnsigned_digits hcs hne]
    split <;> rfl

end

theorem isDigit_of_mem_toString {n : Nat} (hc : c ∈ (toString n).toList) : c.isDigit = true := by
  rw [Nat.toString_eq_repr, Nat.toList_repr] at hc
  exact Nat.isDigit_of_mem_toDigits (by omega) (by omega) hc

theorem toList_toString_ne_nil (n : Nat) : (toString n).toList ≠ [] := by
  rw [Nat.toString_eq_repr, Nat.toList_repr]
  exact Nat.toDigits_ne_nil

theorem length_toString_le_iff (n : Nat) :
    (toString n).toList.length ≤ digitLimit ↔ n < 10 ^ digitLimit := by
  rw [Nat.toString_eq_repr, Nat.toList_repr]
  exact Nat.length_toDigits_le_iff (by omega) (by decide)

/-- A number is read back unless it is too long. -/
theorem readNumeral_toString (n : Nat) :
    readNumeral (toString n) =
      if n < 10 ^ digitLimit then .ok (n : Int)
      else .error (.tooLong (toString n).toList.length) := by
  have hvalue : Nat.ofDigitChars 10 (toString n).toList 0 = n := by
    rw [Nat.toString_eq_repr, Nat.toList_repr]
    exact Nat.ofDigitChars_toDigits (by omega) (by omega)
  have hread := readNumeral_digits (fun c => isDigit_of_mem_toString (n := n) (c := c))
    (toList_toString_ne_nil n)
  rw [String.ofList_toList, hvalue] at hread
  rw [hread]
  by_cases hshort : n < 10 ^ digitLimit
  · have := (length_toString_le_iff n).mpr hshort
    rw [if_pos hshort, if_neg (by omega)]
  · have := (length_toString_le_iff n).not.mpr hshort
    rw [if_neg hshort, if_pos (by omega)]

end TableScript.Text
