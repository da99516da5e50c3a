import TableScript.Proofs.ScanText

/-!
# Comments in words

A comment should be as good as a space. It is not where it stands right after a word: the comment is
passed over with the end of its line, and the word goes on in the next line. `scan_comment_iff` says
when a comment can be replaced by a space: there is no word before it, or none that goes on after
it, or the words are no tokens either way.

The word before a comment is `openWord`, and `goesOn` is what the next line adds to it. Where the
word ends, the two texts are read alike (`Reading.exists_read_goesOn`), so that only this word can
make a difference.
-/

namespace TableScript

/-- Does a character end the word before it? -/
def Zone.cuts (z : Zone) (c : Char) : Bool :=
  z.ends c || (z == .plain && isMark c)

/-- The word that a text leaves open, if `word` is open before it. -/
def openWord (z : Zone) (word : List Char) : List Char → List Char
  | [] => word
  | c :: rest =>
    openWord (z.after c) (if z.cuts c then [] else if z.keeps c then word ++ [c] else word) rest

/-- What a text adds to a word that is open before it. -/
def goesOn (z : Zone) : List Char → List Char
  | [] => []
  | c :: rest =>
    if z.cuts c then []
    else if z.keeps c then c :: goesOn (z.after c) rest
    else goesOn (z.after c) rest

/-! ## The open word -/

namespace Reading

variable {r r' : Reading} {c : Char} {next : Option Char} {text : List Char}

theorem word_step (hready : r.Ready (some c)) (hskip : r.skip → r.word = [])
    (h : r.step c next = some r') :
    (r'.skip → r'.word = []) ∧
      r'.word = if r.zone.cuts c then [] else if r.zone.keeps c then r.word ++ [c] else r.word := by
  simp only [step] at h
  split at h
  · cases h
  split at h
  · next hends =>
      cases h
      rw [Zone.cuts, hends, Bool.true_or, if_pos rfl]
      exact ⟨fun _ => rfl, rfl⟩
  next hends =>
  split at h
  · next hskips =>
      cases h
      obtain ⟨hzone, d, hd, hmark⟩ := hready hskips
      cases hd
      have hcuts : r.zone.cuts c = true := by simp [Zone.cuts, hzone, hmark]
      rw [hcuts, if_pos rfl]
      exact ⟨fun _ => hskip hskips, hskip hskips⟩
  next hskips =>
  split at h
  · next hmark =>
      obtain ⟨ls, -, rfl⟩ := Option.map_eq_some_iff.mp h
      rw [Zone.cuts, hmark, Bool.or_true, if_pos rfl]
      exact ⟨fun _ => rfl, rfl⟩
  · next hmark =>
      cases h
      have hcuts : r.zone.cuts c = false := by
        rw [Zone.cuts, Bool.eq_false_iff.mpr hends, Bool.eq_false_iff.mpr hmark, Bool.or_self]
      rw [hcuts, if_neg Bool.false_ne_true, gather]
      split <;> exact ⟨fun h => absurd h hskips, rfl⟩

theorem word_reach (hready : r.Ready (text.head?.or next)) (hskip : r.skip → r.word = [])
    (h : r.reach next text = some r') : r'.word = openWord r.zone r.word text := by
  induction text generalizing r with
  | nil =>
    cases h
    rfl
  | cons c rest ih =>
    obtain ⟨t, ht, h⟩ := Option.bind_eq_some_iff.mp h
    obtain ⟨hready', hzone⟩ := ready_step hready ht
    obtain ⟨hskip', hword⟩ := word_step hready hskip ht
    rw [ih hready' hskip' h, hzone, hword, openWord]

/-- The open word is all that tells two readings of a text apart. -/
theorem exists_read_goesOn (z : Zone) (htext : '\t' ∉ text) :
    ∃ tail : Option Reading, ∀ r : Reading, r.zone = z → r.skip = false →
      r.read text = tail.map (·.beyond (r.lexemes ++ wordLexemes (r.word ++ goesOn z text))
        (r.flawed || isFlaw (r.word ++ goesOn z text))) := by
  induction text generalizing z with
  | nil =>
    refine ⟨some { zone := z }, fun r hzone hskip => ?_⟩
    rw [goesOn, List.append_nil, ← hzone]
    exact congrArg some (endWord_eq_beyond hskip)
  | cons c rest ih =>
    obtain ⟨htab, htail⟩ : '\t' ≠ c ∧ '\t' ∉ rest := by simpa using htext
    cases hcuts : z.cuts c with
    | true =>
      refine ⟨({ zone := z } : Reading).read (c :: rest), fun r hzone hskip => ?_⟩
      have hend : r.endWord.read (c :: rest) = r.read (c :: rest) := by
        rw [← hzone, Zone.cuts, Bool.or_eq_true, Bool.and_eq_true, beq_iff_eq] at hcuts
        rcases hcuts with hends | ⟨hplain, hmark⟩
        · exact read_of_ends (by rintro _ ⟨⟩; exact hends)
        · exact read_of_isMark hplain hskip hmark rest
      rw [← hend, endWord_eq_beyond hskip, read_beyond, goesOn, if_pos hcuts, List.append_nil,
        hzone]
      rfl
    | false =>
      obtain ⟨tail, hread⟩ := ih (z.after c) htail
      refine ⟨tail, fun r hzone hskip => ?_⟩
      have hends : r.zone.ends c = false ∧ (r.zone == .plain && isMark c) = false := by
        rw [hzone]
        exact Bool.or_eq_false_iff.mp hcuts
      have hafter : r.zone.after c = z.after c := by rw [hzone]
      rw [read_cons, step_of_gathers (Ne.symm htab) hends.1 hskip hends.2, Option.bind_some]
      cases hkeeps : z.keeps c with
      | true =>
        rw [gather_of_keeps (hzone ▸ hkeeps)]
        refine (hread { r.move c with word := r.word ++ [c] } hafter hskip).trans ?_
        simp [goesOn, hcuts, hkeeps, move]
      | false =>
        rw [gather_of_not_keeps (hzone ▸ hkeeps)]
        refine (hread (r.move c) hafter hskip).trans ?_
        simp [goesOn, hcuts, hkeeps, move]

end Reading

/-! ## Words that are joined -/

theorem eq_of_lexemeOf? {w v : List Char} {l : Lexeme} (hw : lexemeOf? (String.ofList w) = some l)
    (hv : lexemeOf? (String.ofList v) = some l) : w = v :=
  String.ofList_inj.mp ((text_of_lexemeOf? hw).symm.trans (text_of_lexemeOf? hv))

theorem wordLexemes_append_iff {w v : List Char} (hw : w ≠ []) (hv : v ≠ []) :
    wordLexemes (w ++ v) = wordLexemes w ++ wordLexemes v ↔
      lexemeOf? (String.ofList w) = none ∧ lexemeOf? (String.ofList v) = none ∧
        lexemeOf? (String.ofList (w ++ v)) = none := by
  unfold wordLexemes
  constructor
  · intro h
    cases hboth : lexemeOf? (String.ofList (w ++ v)) with
    | none =>
      rw [hboth] at h
      obtain ⟨hw, hv⟩ := List.append_eq_nil_iff.mp h.symm
      exact ⟨Option.toList_eq_nil_iff.mp hw, Option.toList_eq_nil_iff.mp hv, rfl⟩
    | some l =>
      -- The token of both words would be the token of one.
      rw [hboth] at h
      rcases List.append_eq_singleton_iff.mp h.symm with ⟨-, hl⟩ | ⟨hl, -⟩
      · exact absurd (eq_of_lexemeOf? hboth (Option.toList_eq_singleton_iff.mp hl))
          (by simpa using hw)
      · exact absurd (eq_of_lexemeOf? hboth (Option.toList_eq_singleton_iff.mp hl))
          (by simpa using hv)
  · rintro ⟨hw, hv, hboth⟩
    rw [hw, hv, hboth]
    rfl

theorem isFlaw_of_none {w : List Char} (hw : w ≠ []) (h : lexemeOf? (String.ofList w) = none) :
    isFlaw w = true := by
  simp [isFlaw, wordLexemes, h, hw]

/-! ## A comment and a space -/

namespace Reading

variable {r : Reading} {rest : List Char}

theorem filter_isEmpty_inj {xs ys : List Lexeme}
    (h : (some xs).filter (!·.isEmpty) = (some ys).filter (!·.isEmpty)) : xs = ys := by
  cases xs <;> cases ys <;> simp_all [Option.filter_some]

/-- A word that goes on and a word that has ended are read as the same tokens iff one of the two
parts is empty, or neither the parts nor the word are tokens, or the scanner stops. -/
theorem read_endWord_iff (hzone : r.zone = .plain) (hskip : r.skip = false)
    (hrest : '\t' ∉ rest) :
    (((r.read rest).map (·.lexemes)).filter (!·.isEmpty) =
          ((r.endWord.read rest).map (·.lexemes)).filter (!·.isEmpty) ∧
        (r.read rest).all (fun t => t.flawed || t.lexemes.isEmpty) =
          (r.endWord.read rest).all fun t => t.flawed || t.lexemes.isEmpty) ↔
      r.word = [] ∨ goesOn .plain rest = [] ∨ r.read rest = none ∨
        (lexemeOf? (String.ofList r.word) = none ∧
          lexemeOf? (String.ofList (goesOn .plain rest)) = none ∧
          lexemeOf? (String.ofList (r.word ++ goesOn .plain rest)) = none) := by
  obtain ⟨tail, hread⟩ := exists_read_goesOn .plain hrest
  rw [hread r hzone hskip, hread r.endWord hzone hskip]
  generalize goesOn .plain rest = v
  have hend : r.endWord.lexemes ++ wordLexemes (r.endWord.word ++ v) =
      r.lexemes ++ (wordLexemes r.word ++ wordLexemes v) := List.append_assoc _ _ _
  have hflaw : (r.endWord.flawed || isFlaw (r.endWord.word ++ v)) =
      (r.flawed || (isFlaw r.word || isFlaw v)) := Bool.or_assoc _ _ _
  rw [hend, hflaw]
  cases tail with
  | none => simp
  | some t =>
    by_cases hw : r.word = []
    · simp [hw, wordLexemes_nil, isFlaw]
    by_cases hv : v = []
    · simp [hv, wordLexemes_nil, isFlaw]
    simp only [hw, hv, Option.map_some, reduceCtorEq, false_or, ← wordLexemes_append_iff hw hv]
    constructor
    · intro h
      exact List.append_cancel_left (List.append_cancel_right (filter_isEmpty_inj h.1))
    · intro h
      -- None of the words is a token, so each text has an error here.
      obtain ⟨hw', hv', hboth⟩ := (wordLexemes_append_iff hw hv).mp h
      rw [h, isFlaw_of_none hw hw', isFlaw_of_none (List.append_ne_nil_of_left_ne_nil hw v) hboth]
      exact ⟨rfl, rfl⟩

theorem read_blank {c : Char} (hzone : r.zone = .plain) (hc : c = ' ' ∨ c = '\n')
    (rest : List Char) :
    r.read (c :: rest) = r.endWord.read rest := by
  rcases hc with rfl | rfl <;>
    rw [read_cons, step_of_ends (by decide) (by rw [hzone]; rfl),
      move_of_after (by rw [hzone]; rfl), Option.bind_some]

theorem read_last_comment (hzone : r.zone = .plain) (hskip : r.skip = false) {body : List Char}
    (hbody : '\t' ∉ body ∧ '\n' ∉ body) :
    r.read ('#' :: body) = some { r.endWord with zone := .comment } := by
  rw [read_cons, step_sharp hzone hskip, Option.bind_some, read,
    reach_comment (r := { r with zone := .comment }) rfl hskip hbody]
  rfl

end Reading

/-- When a comment is as good as a space: the tokens of the text and whether it has errors stay the
same iff no word stands right before the comment, or none goes on in the next line, or the text
cannot be scanned, or both words and the one that they are together are no tokens. -/
theorem scan_comment_iff (debugging : Bool) (console : Console) {before body after : String}
    (htab : '\t' ∉ (before ++ "#" ++ body ++ after).toList)
    (hzone : before.toList.foldl Zone.after .plain = .plain) (hbody : '\n' ∉ body.toList)
    (hafter : ∀ c ∈ after.toList.head?, c = '\n') :
    ((scan debugging (before ++ "#" ++ body ++ after) console).1.map (·.map (·.lexeme)) =
          (scan debugging (before ++ " " ++ after) console).1.map (·.map (·.lexeme)) ∧
        (scan debugging (before ++ "#" ++ body ++ after) console).2.hasErrors =
          (scan debugging (before ++ " " ++ after) console).2.hasErrors) ↔
      openWord .plain [] before.toList = [] ∨ goesOn .plain after.toList.tail = [] ∨
        lexed (before ++ "#" ++ body ++ after) = none ∨
        (lexemeOf? (String.ofList (openWord .plain [] before.toList)) = none ∧
          lexemeOf? (String.ofList (goesOn .plain after.toList.tail)) = none ∧
          lexemeOf? (String.ofList (openWord .plain [] before.toList ++
            goesOn .plain after.toList.tail)) = none) := by
  have hcomment : (before ++ "#" ++ body ++ after).toList =
      before.toList ++ '#' :: (body.toList ++ after.toList) := by simp
  have hspace : (before ++ " " ++ after).toList = before.toList ++ ' ' :: after.toList := by simp
  rw [hcomment] at htab
  rw [(scan_eq debugging _ console).1, (scan_eq debugging _ console).2,
    (scan_eq debugging _ console).1, (scan_eq debugging _ console).2, lexed_eq, hcomment, hspace,
    reading?, reading?, Reading.read_append, Reading.read_append]
  have hnext : ∀ c rest, isMark c = false →
      ({} : Reading).reach (c :: rest).head? before.toList = ({} : Reading).reach none
        before.toList :=
    fun c rest hc => Reading.reach_congr (.inl (by simp [hc])) {}
  rw [hnext '#' _ rfl, hnext ' ' _ rfl]
  cases hr : ({} : Reading).reach none before.toList with
  | none => simp
  | some r =>
    obtain ⟨hready, hzone'⟩ := Reading.ready_reach (r := {}) nofun hr
    have hskip := hready.skip_eq_false rfl
    have hword : r.word = openWord .plain [] before.toList :=
      Reading.word_reach (r := {}) nofun nofun hr
    rw [hzone] at hzone'
    rw [← hword, Option.bind_some, Option.bind_some, Reading.read_blank hzone' (.inl rfl)]
    simp only [List.mem_append, List.mem_cons, not_or] at htab
    cases hafter' : after.toList with
    | nil =>
      rw [List.append_nil, Reading.read_last_comment hzone' hskip ⟨htab.2.2.1, hbody⟩]
      simp [goesOn, Reading.read, Reading.reach, Reading.endWord_endWord]
    | cons c rest =>
      obtain rfl : c = '\n' := hafter c (by rw [hafter']; rfl)
      have hrest : '\t' ∉ rest := fun h => htab.2.2.2 (hafter' ▸ List.mem_cons_of_mem _ h)
      rw [← List.cons_append, Reading.read_comment hzone' hskip ⟨htab.2.2.1, hbody⟩,
        Reading.read_blank (r := r.endWord) hzone' (.inr rfl), Reading.endWord_endWord,
        List.tail_cons, Option.map_eq_none_iff]
      exact Reading.read_endWord_iff hzone' hskip hrest

/-- A comment right after a name, which a mark follows in the next line. -/
theorem scan_comment_mark :
    (scan false "let ab = a# it's\n+ b" {}).1.map (·.map (·.lexeme)) =
        (scan false "let ab = a \n+ b" {}).1.map (·.map (·.lexeme)) ∧
      (scan false "let ab = a# it's\n+ b" {}).2.hasErrors =
        (scan false "let ab = a \n+ b" {}).2.hasErrors :=
  (@scan_comment_iff false {} "let ab = a" " it's" "\n+ b"
    (by decide +kernel) (by decide +kernel) (by decide +kernel) (by simp)).mpr
    (.inr (.inl (by decide +kernel)))

/-- Two names with a comment between them are read as one. -/
theorem scan_comment_joins :
    (scan false "ab#c\ncd" {}).1.map (·.map (·.lexeme)) = some [.ident "abcd"] ∧
      (scan false "ab \ncd" {}).1.map (·.map (·.lexeme)) = some [.ident "ab", .ident "cd"] := by
  decide +kernel

end TableScript
