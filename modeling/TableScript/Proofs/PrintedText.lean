import TableScript.Primitive.Run
import TableScript.Proofs.TableViews

/-!
# Printed text

A text is printed by way of its bytes in UTF-8, each read as a character of its own. A text without
backslashes is therefore printed as it stands iff all its characters are ASCII (`print_shows_iff`):
any other character has several bytes, and what is printed is longer than the text.
-/

namespace TableScript

open Text

/-! ## Bytes -/

namespace Text

variable {s : String} {c : Char} {cs : List Char}

theorem toList_loop (bytes : ByteArray) (i : Nat) (read : List UInt8) :
    ByteArray.toList.loop bytes i read = read.reverse ++ bytes.data.toList.drop i := by
  fun_induction ByteArray.toList.loop bytes i read with
  | case1 i read hlt ih =>
    have hi : i < bytes.data.toList.length := hlt
    have hget : bytes.get! i = bytes.data.toList[i] := by
      show bytes.data[i]! = _
      simp [getElem!_pos, hlt]
    rw [ih, hget, List.reverse_cons, List.append_assoc, List.drop_eq_getElem_cons hi]
    rfl
  | case2 i read hge =>
    rw [List.drop_eq_nil_iff.mpr (Nat.le_of_not_lt hge), List.append_nil]

/-- The characters that the bytes of a character are read as. -/
def spread (c : Char) : List Char :=
  (String.utf8EncodeChar c).map fun b => Char.ofNat b.toNat

theorem latin_eq (s : String) : latin s = s.toList.flatMap spread := by
  have hbytes : s.toUTF8 = (s.toList.flatMap String.utf8EncodeChar).toByteArray := by
    show s.toByteArray = s.toList.utf8Encode
    rw [← String.toByteArray_ofList, String.ofList_toList]
  rw [latin, hbytes, ByteArray.toList, toList_loop]
  simp only [List.reverse_nil, List.nil_append, List.drop_zero, List.data_toByteArray,
    List.map_flatMap]
  rfl

theorem spread_ascii (h : c.toNat < 128) : spread c = [c] := by
  have hc : c.val.toNat ≤ 127 := Nat.le_of_lt_succ h
  rw [spread, String.utf8EncodeChar, if_pos hc, List.map_singleton, UInt8.toNat_ofNat',
    Nat.mod_eq_of_lt (by omega)]
  exact congrArg (· :: []) (Char.ofNat_toNat c)

theorem toNat_of_mem_spread {d : Char} (h : d ∈ spread c) :
    d.toNat < 256 ∧ (c.toNat < 128 ∨ 128 ≤ d.toNat) := by
  obtain ⟨b, hb, rfl⟩ := List.mem_map.mp h
  have hlt := b.toNat_lt
  have hvalid : b.toNat.isValidChar := .inl (by omega)
  have hbyte : (Char.ofNat b.toNat).toNat = b.toNat := by
    rw [Char.ofNat, dif_pos hvalid]
    rfl
  rw [hbyte]
  refine ⟨hlt, ?_⟩
  show c.val.toNat < 128 ∨ _
  rw [String.utf8EncodeChar] at hb
  split_ifs at hb with h₁ h₂ h₃
  · exact .inl (Nat.lt_succ_of_le h₁)
  all_goals
    refine .inr ?_
    simp only [List.mem_cons, List.not_mem_nil, or_false] at hb
    rcases hb with rfl | rfl | rfl | rfl <;> rw [UInt8.toNat_ofNat'] <;> omega

theorem length_spread (c : Char) : (spread c).length = c.utf8Size := by
  rw [spread, List.length_map, String.length_utf8EncodeChar]

theorem length_flatMap_spread (cs : List Char) : cs.length ≤ (cs.flatMap spread).length ∧
    ((cs.flatMap spread).length = cs.length → ∀ c ∈ cs, c.toNat < 128) := by
  induction cs with
  | nil => exact ⟨Nat.le_refl _, fun _ c hc => by cases hc⟩
  | cons c cs ih =>
    have hc := Char.utf8Size_pos c
    rw [List.flatMap_cons, List.length_append, length_spread, List.length_cons]
    refine ⟨by omega, fun h => List.forall_mem_cons.mpr ⟨?_, ih.2 (by omega)⟩⟩
    have hone := Char.utf8Size_eq_one_iff.mp (show c.utf8Size = 1 by omega)
    exact Nat.lt_succ_of_le hone

theorem latin_eq_toList_iff : latin s = s.toList ↔ ∀ c ∈ s.toList, c.toNat < 128 := by
  rw [latin_eq]
  refine ⟨fun h => (length_flatMap_spread _).2 (congrArg List.length h), fun h => ?_⟩
  rw [List.flatMap_def, List.map_congr_left fun c hc => spread_ascii (h c hc), ← List.flatMap_def,
    List.flatMap_singleton']

theorem backslash_not_mem_latin (h : '\\' ∉ s.toList) : '\\' ∉ latin s := by
  rw [latin_eq, List.mem_flatMap]
  rintro ⟨c, hc, hmem⟩
  rcases (toNat_of_mem_spread hmem).2 with hascii | hlarge
  · rw [spread_ascii hascii, List.mem_singleton] at hmem
    exact h (hmem ▸ hc)
  · exact absurd hlarge (by decide)

theorem lt_of_mem_latin (h : c ∈ latin s) : c.toNat < 256 := by
  rw [latin_eq, List.mem_flatMap] at h
  obtain ⟨_, _, hmem⟩ := h
  exact (toNat_of_mem_spread hmem).1

theorem resolve_eq (h : '\\' ∉ cs) : resolve cs = some (cs.map Char.toNat) := by
  unfold resolve
  induction cs with
  | nil => rfl
  | cons c cs ih =>
    rw [List.mem_cons, not_or] at h
    rw [resolveFrom]
    simp [Ne.symm h.1, ih h.2]

end Text

theorem Transcript.addCodes_latin (t : Transcript) {cs : List Char}
    (h : ∀ c ∈ cs, c.toNat < 256) : t.addCodes (cs.map Char.toNat) =
      t.add (String.ofList cs) := by
  induction cs generalizing t with
  | nil => simp [addCodes, add]
  | cons c cs ih =>
    obtain ⟨hc, hcs⟩ := List.forall_mem_cons.mp h
    have hwhole : isHalf c.toNat = false := by
      simp [isHalf]
      omega
    rw [List.map_cons, addCodes, hwhole, if_neg Bool.false_ne_true, ih _ hcs, Char.ofNat_toNat]
    simp only [add, String.ofList_cons, ← String.append_assoc, String.append_singleton]

namespace Primitive

open EvalM

variable {m : Machine} {r : Ref} {s : String} {eval : Evaluator} {position : Option Position}

/-- The step gives a value, and all it writes is the text. -/
def Writes (m : Machine) (x : EvalM Ref) (text : String) : Prop :=
  ∃ r m', x.exec m = (.ok r, m') ∧ m'.console = m.console.print text

theorem writes_runPrint (hvalue : m.scope.get? "value" = some r)
    (hr : m.store.content r = .string s) (hs : '\\' ∉ s.toList) (position : Option Position)
    (after : String) :
    Writes m (runPrint after position) (String.ofList (latin s) ++ after) := by
  have htext : m.store.text r = .ok s := by
    rw [Store.text, Store.textTo, Store.textWith, show (m.store.object r).content = _ from hr]
  have hshown : (text r).exec m = (.ok s, m) := by
    rw [text, exec_bind_store, htext]
    rfl
  have hcodes : unescape s = some ((latin s).map Char.toNat) :=
    resolve_eq (backslash_not_mem_latin hs)
  have hlatin := m.console.transcript.addCodes_latin fun c => lt_of_mem_latin (s := s) (c := c)
  rw [Writes, runPrint, exec_bind_argument hvalue, exec_bind_of hshown, hcodes]
  refine ⟨_, _, rfl, ?_⟩
  show (m.console.printCodes _).print after = _
  rw [Console.printCodes, hlatin]
  simp [Console.print, Transcript.add, String.append_assoc]

theorem writes_iff {x : EvalM Ref} {written text : String} (h : Writes m x written) :
    Writes m x text ↔ written = text := by
  refine ⟨fun htext => ?_, fun heq => heq ▸ h⟩
  obtain ⟨_, _, hexec, hwritten⟩ := h
  obtain ⟨_, _, hexec', htext⟩ := htext
  rw [hexec] at hexec'
  cases hexec'
  have htail := congrArg (·.transcript.tail) (hwritten.symm.trans htext)
  exact (String.append_right_inj _).mp htail

/-- A text without backslashes is printed as it stands iff all its characters are ASCII. -/
theorem print_shows_iff (hvalue : m.scope.get? "value" = some r)
    (hr : m.store.content r = .string s) (hs : '\\' ∉ s.toList) :
    (Writes m (run eval position .print) s ∧ Writes m (run eval position .println)
      (s ++ "\n")) ↔ ∀ c ∈ s.toList, c.toNat < 128 := by
  have hprint := writes_runPrint hvalue hr hs position ""
  have hprintln := writes_runPrint hvalue hr hs position "\n"
  have hsame : String.ofList (latin s) = s ↔ latin s = s.toList := by
    rw [← String.toList_inj, String.toList_ofList]
  rw [← latin_eq_toList_iff, ← hsame]
  constructor
  · rintro ⟨h, -⟩
    simpa using (writes_iff hprint).mp h
  · intro h
    rw [h] at hprint hprintln
    rw [String.append_empty] at hprint
    exact ⟨hprint, hprintln⟩

/-- A machine on which a text is to be printed. -/
def showing (text : String) : Machine where
  store := { objects := #[⟨.string, .string text⟩] }
  scope := ({} : Scope Ref TypeRef).add "value" ⟨0⟩

theorem print_shows_word :
    Writes (showing "word") (run (fun _ _ => newNone) none .print) "word" ∧
      Writes (showing "word") (run (fun _ _ => newNone) none .println) ("word" ++ "\n") :=
  (print_shows_iff (m := showing "word") rfl rfl (by decide)).mpr (by simp)

/-- The two bytes of an accented letter are printed as two characters. -/
theorem print_not_shows_accent :
    Writes (showing "é") (run (fun _ _ => newNone) none .print) "Ã©" ∧
      ¬ Writes (showing "é") (run (fun _ _ => newNone) none .print) "é" := by
  have hprint := writes_runPrint (m := showing "é") rfl rfl (by decide) none ""
  have hlatin : String.ofList (latin "é") ++ "" = "Ã©" := by
    rw [latin_eq]
    decide
  rw [hlatin] at hprint
  exact ⟨hprint, fun h => absurd ((writes_iff hprint).mp h) (by decide)⟩

end Primitive

end TableScript
