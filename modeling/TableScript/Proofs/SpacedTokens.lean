import TableScript.Proofs.ScanText
import TableScript.Proofs.Text

/-!
# Tokens written apart

Tokens that are written with gaps between them are read back, whatever stands in the comments of the
gaps (`scan_spaced`). A `Gap` is white space that ends a word, and a comment after it perhaps; the
tokens in question are the `Ordinary` ones, which leaves out names and numbers beyond ASCII and
quoted values with quotation marks inside.

After the text of a token the reading has the token, already or as a word that the next gap or the
end of the text turns into one (`Reading.read_lexeme`, `Reading.read_gap`).
-/

namespace TableScript

open Text

/-! ## Tokens and gaps -/

/-- May `c` stand in a name or a number of ASCII? -/
def isWordChar (c : Char) : Bool :=
  c.isAlphanum || c == '_'

/-- A character between the quotation marks of a value. -/
def isQuotable (c : Char) : Bool :=
  !isQuote c && (c == ' ' || !Text.isBlank c)

/-- White space that ends a word. -/
def isSpacing (c : Char) : Bool :=
  c == ' ' || c == '\n' || c == '\r'

/-- The tokens that are written in ASCII, quoted values apart, which hold whatever is quotable. -/
inductive Lexeme.Ordinary : Lexeme → Prop
  | keyword (k : Keyword) : Ordinary (.keyword k)
  | delimiter (d : Delimiter) : Ordinary (.delimiter d)
  | ident {c : Char} {rest : List Char} (start : c.isAlpha ∨ c = '_')
    (chars : rest.all isWordChar) (free : Keyword.ofText? (String.ofList (c :: rest)) = none) :
    Ordinary (.ident (String.ofList (c :: rest)))
  | digits {cs : List Char} (nonempty : cs ≠ []) (digits : cs.all Char.isDigit) :
    Ordinary (.value (String.ofList cs))
  | quoted {q : Char} {cs : List Char} (quote : isQuote q) (chars : cs.all isQuotable) :
    Ordinary (.value (String.ofList (q :: cs ++ [q])))

/-- What stands between two tokens. -/
structure Gap where
  spacing : List Char
  /-- The text of the comment, if there is one, without its number sign and the end of its line. -/
  comment : Option (List Char)
  spacing_ne_nil : spacing ≠ []
  isSpacing_of_mem : ∀ c ∈ spacing, isSpacing c
  comment_line : ∀ cs ∈ comment, '\t' ∉ cs ∧ '\n' ∉ cs

/-- A comment as it is written. -/
def commentText : Option (List Char) → List Char
  | none => []
  | some cs => '#' :: cs ++ ['\n']

/-- A gap as it is written. -/
def Gap.text (g : Gap) : List Char :=
  g.spacing ++ commentText g.comment

/-- Tokens as they are written, each after its gap. -/
def spacedTail (rest : List (Gap × Lexeme)) : List Char :=
  rest.flatMap fun p => p.1.text ++ p.2.text.toList

/-- Tokens as they are written with gaps between them. -/
def spaced (first : Lexeme) (rest : List (Gap × Lexeme)) : String :=
  String.ofList (first.text.toList ++ spacedTail rest)

/-! ## Kinds of characters -/

variable {c : Char}

theorem toNat_lt_of_isWordChar (h : isWordChar c) : c.toNat < 128 := by
  rw [isWordChar, Bool.or_eq_true, beq_iff_eq] at h
  rcases h with h | rfl
  · have := isAlphanum_toNat h
    omega
  · decide

@[elab_as_elim]
theorem of_ascii {P : Char → Prop} (hc : c.toNat < 128) (h : ∀ n < 128, P (Char.ofNat n)) :
    P c :=
  Char.ofNat_toNat c ▸ h c.toNat hc

theorem sorts_of_isWordChar (h : isWordChar c) :
    (isQuote c = false ∧ isMark c = false ∧ c ≠ '\t' ∧ Zone.plain.ends c = false ∧
      Zone.plain.keeps c ∧ Zone.plain.after c = .plain) ∧
    (c.isAlpha ∨ c = '_' → isNumeric c = false) ∧ (c.isDigit → c.isAlpha = false) := by
  have hc := toNat_lt_of_isWordChar h
  revert h
  refine of_ascii hc ?_
  decide +kernel

theorem isWordChar_of_isDigit (h : c.isDigit) : isWordChar c := by
  simp [isWordChar, Char.isAlphanum, h]

theorem isWordChar_of_isStart (h : c.isAlpha ∨ c = '_') : isWordChar c := by
  rcases h with h | rfl
  · simp [isWordChar, Char.isAlphanum, h]
  · decide

theorem isNumeric_of_isStart (h : c.isAlpha ∨ c = '_') : isNumeric c = false :=
  (sorts_of_isWordChar (isWordChar_of_isStart h)).2.1 h

theorem isAlpha_of_isQuote (h : isQuote c) : c.isAlpha = false := by
  simp only [isQuote, Bool.or_eq_true, beq_iff_eq] at h
  rcases h with rfl | rfl <;> decide

theorem ends_of_isSpacing (h : isSpacing c) : Zone.plain.ends c := by
  simp only [isSpacing, Bool.or_eq_true, beq_iff_eq] at h
  rcases h with (rfl | rfl) | rfl <;> decide

/-! ## Words and delimiters -/

theorem Builtin.mem_all (b : Builtin) : b ∈ Builtin.all := by
  cases b <;> decide

theorem Keyword.mem_all (k : Keyword) : k ∈ Keyword.all := by
  cases k with
  | builtin b => exact List.mem_append_right _ (List.mem_map_of_mem b.mem_all)
  | _ => exact List.mem_append_left _ (by decide)

theorem Keyword.spelling (k : Keyword) : Keyword.ofText? k.text = some k ∧
    k.text.toList.all isWordChar ∧ k.text.toList.head?.any Char.isAlpha := by
  have hall : Keyword.all.all (fun k => decide (Keyword.ofText? k.text = some k ∧
      k.text.toList.all isWordChar ∧ k.text.toList.head?.any Char.isAlpha)) = .true := by
    decide +kernel
  exact of_decide_eq_true (List.all_eq_true.mp hall k k.mem_all)

theorem Keyword.ofText?_text (k : Keyword) : Keyword.ofText? k.text = some k :=
  k.spelling.1

theorem Keyword.isWordChar_text (k : Keyword) :
    k.text.toList.all isWordChar ∧ k.text.toList.head?.any Char.isAlpha :=
  k.spelling.2

theorem keyword_ofText?_eq_none {cs : List Char} (h : cs.head?.any Char.isAlpha = false) :
    Keyword.ofText? (String.ofList cs) = none := by
  cases hk : Keyword.ofText? (String.ofList cs) with
  | none => rfl
  | some k =>
    have hstart := k.isWordChar_text.2
    rw [Keyword.text_of_ofText? hk, String.toList_ofList, h] at hstart
    cases hstart

theorem lexemeOf?_ident {rest : List Char} (hstart : c.isAlpha ∨ c = '_')
    (hrest : rest.all isWordChar) (hfree : Keyword.ofText? (String.ofList (c :: rest)) = none) :
    lexemeOf? (String.ofList (c :: rest)) = some (.ident (String.ofList (c :: rest))) := by
  have hword := isWordChar_of_isStart hstart
  have hident : isIdentifier (String.ofList (c :: rest)) := by
    rw [isIdentifier, String.toList_ofList]
    dsimp only
    rw [isIdentStart, if_pos (toNat_lt_of_isWordChar hword), Bool.and_eq_true,
      List.all_eq_true]
    refine ⟨by simpa using hstart, fun d hd => ?_⟩
    have hd := List.all_eq_true.mp hrest d hd
    rwa [isIdentContinue, if_pos (toNat_lt_of_isWordChar hd)]
  -- A name starts with no digit and no quotation mark, and the truth values are keywords.
  have hvalue : isValueWord (String.ofList (c :: rest)) = false := by
    have hquote := (sorts_of_isWordChar hword).1.1
    have htrue : String.ofList (c :: rest) ≠ "true" := by
      intro h
      rw [h] at hfree
      exact absurd hfree (by decide)
    have hfalse : String.ofList (c :: rest) ≠ "false" := by
      intro h
      rw [h] at hfree
      exact absurd hfree (by decide)
    have hnumeric : isNumericWord (String.ofList (c :: rest)) = false := by
      rw [isNumericWord, String.toList_ofList, List.all_cons, isNumeric_of_isStart hstart,
        Bool.false_and, Bool.and_false]
    have hbetween : ∀ q, (c == q) = false →
        isBetween q (String.ofList (c :: rest)) = false := by
      intro q hq
      rw [isBetween, String.toList_ofList, List.head?_cons, Option.some_beq_some, hq,
        Bool.false_and]
    rw [isQuote, Bool.or_eq_false_iff] at hquote
    rw [isValueWord, beq_eq_false_iff_ne.mpr htrue, beq_eq_false_iff_ne.mpr hfalse, hnumeric,
      hbetween _ hquote.1, hbetween _ hquote.2]
    rfl
  rw [lexemeOf?, hfree]
  dsimp only
  rw [hvalue, if_neg Bool.false_ne_true, if_pos hident]

theorem lexemeOf?_value {cs : List Char} (hstart : cs.head?.any Char.isAlpha = false)
    (hvalue : isValueWord (String.ofList cs)) :
    lexemeOf? (String.ofList cs) = some (.value (String.ofList cs)) := by
  rw [lexemeOf?, keyword_ofText?_eq_none hstart]
  dsimp only
  rw [if_pos hvalue]

theorem lexemeOf?_digits {cs : List Char} (hne : cs ≠ []) (hcs : cs.all Char.isDigit) :
    lexemeOf? (String.ofList cs) = some (.value (String.ofList cs)) := by
  have hdigit := List.all_eq_true.mp hcs
  refine lexemeOf?_value ?_ ?_
  · cases cs with
    | nil => rfl
    | cons c rest =>
      have hc := hdigit c List.mem_cons_self
      simpa using (sorts_of_isWordChar (isWordChar_of_isDigit hc)).2.2 hc
  · have hnumeric : cs.all isNumeric :=
      List.all_eq_true.mpr fun c hc => isNumeric_of_isDigit (hdigit c hc)
    simp [isValueWord, isNumericWord, hnumeric, hne]

theorem lexemeOf?_quoted {q : Char} (hq : isQuote q) (cs : List Char) :
    lexemeOf? (String.ofList (q :: cs ++ [q])) =
      some (.value (String.ofList (q :: cs ++ [q]))) := by
  have hbetween : isBetween q (String.ofList (q :: cs ++ [q])) := by
    rw [isBetween, String.toList_ofList, List.getLast?_concat, List.cons_append,
      List.head?_cons, beq_self_eq_true, Bool.and_self]
  refine lexemeOf?_value (isAlpha_of_isQuote hq) ?_
  rw [isQuote, Bool.or_eq_true, beq_iff_eq, beq_iff_eq] at hq
  rcases hq with rfl | rfl
  · rw [isValueWord, hbetween, Bool.or_true]
  · rw [isValueWord, hbetween, Bool.or_true, Bool.true_or]

/-- A delimiter is one mark, or two that are read as one delimiter. -/
def Delimiter.isSpelled (d : Delimiter) : Bool :=
  match d.text.toList with
  | [c] => isMark c && decide (delimitersOf c none = .ok [.delimiter d])
  | [c, next] => isMark c && isMark next && decide (delimitersOf c (some next) = .ok [.delimiter d])
  | _ => false

theorem Delimiter.isSpelled_eq_true (d : Delimiter) : d.isSpelled = true := by
  cases d <;> decide

/-! ## Reading a token -/

namespace Reading

variable {r : Reading} {ls : List Lexeme} {l : Lexeme} {c : Char} {cs rest : List Char}

theorem read_chars (hskip : r.skip = false)
    (hcs : ∀ c ∈ cs, c ≠ '\t' ∧ r.zone.ends c = false ∧
    (r.zone == .plain && isMark c) = false ∧ r.zone.keeps c ∧ r.zone.after c = r.zone)
    (rest : List Char) : r.read (cs ++ rest) = { r with word := r.word ++ cs }.read rest := by
  induction cs generalizing r with
  | nil => simp
  | cons c cs ih =>
    obtain ⟨htab, hends, hmark, hkeeps, hafter⟩ := hcs c List.mem_cons_self
    rw [List.cons_append, read_cons, step_of_gathers htab hends hskip hmark,
      gather_of_keeps hkeeps, move_of_after hafter]
    have hrest := ih (r := { r with word := r.word ++ [c] }) hskip
      fun c hc => hcs c (List.mem_cons_of_mem _ hc)
    rwa [List.append_assoc, List.singleton_append] at hrest

theorem read_word (hcs : cs.all isWordChar) (rest : List Char) :
    ({ lexemes := ls } : Reading).read (cs ++ rest) =
      ({ lexemes := ls, word := cs } : Reading).read rest := by
  refine read_chars rfl (fun c hc => ?_) rest
  obtain ⟨-, hmark, hfate⟩ := (sorts_of_isWordChar (List.all_eq_true.mp hcs c hc)).1
  exact ⟨hfate.1, hfate.2.1, by rw [hmark, Bool.and_false], hfate.2.2⟩

theorem read_quote (hzone : r.zone ≠ .comment) (hskip : r.skip = false) (hc : isQuote c)
    (rest : List Char) :
    r.read (c :: rest) = { r.move c with word := r.word ++ [c] }.read rest := by
  have hfate : c ≠ '\t' ∧ isMark c = false ∧ r.zone.ends c = false ∧ r.zone.keeps c := by
    simp only [isQuote, Bool.or_eq_true, beq_iff_eq] at hc
    rcases hc with rfl | rfl <;> cases hr : r.zone <;> first | decide | exact absurd hr hzone
  obtain ⟨htab, hmark, hends, hkeeps⟩ := hfate
  rw [read_cons, step_of_gathers htab hends hskip (by rw [hmark, Bool.and_false]),
    gather_of_keeps hkeeps]
  rfl

theorem read_quoted {q : Char} (hq : isQuote q) (hcs : cs.all isQuotable) (rest : List Char) :
    ({ lexemes := ls } : Reading).read (q :: cs ++ [q] ++ rest) =
      ({ lexemes := ls, word := q :: cs ++ [q] } : Reading).read rest := by
  have hchars : ∀ c ∈ cs, c ≠ '\t' ∧ Zone.quoted.ends c = false ∧
      (Zone.quoted == .plain && isMark c) = false ∧ Zone.quoted.keeps c ∧
      Zone.quoted.after c = .quoted := by
    intro c hc
    have hc := List.all_eq_true.mp hcs c hc
    simp only [isQuotable, Bool.and_eq_true, Bool.or_eq_true, beq_iff_eq, Bool.not_eq_true'] at hc
    obtain ⟨hquote, hc⟩ := hc
    have hne : c ≠ '\t' ∧ c ≠ '\n' ∧ c ≠ '\r' := by
      refine ⟨?_, ?_, ?_⟩ <;> rintro rfl <;> revert hc <;> decide
    refine ⟨hne.1, ?_, rfl, ?_, ?_⟩
    · simp [Zone.ends, hne]
    · simpa [Zone.keeps] using hc
    · simp [Zone.after, hquote]
  have hopens : Zone.plain.after q = .quoted ∧ Zone.quoted.after q = .plain := by
    simp only [isQuote, Bool.or_eq_true, beq_iff_eq] at hq
    rcases hq with rfl | rfl <;> decide
  rw [List.append_assoc, List.cons_append, read_quote (by simp) rfl hq, move, hopens.1]
  refine (read_chars (r := ⟨.quoted, false, [q], ls, false⟩) rfl hchars _).trans ?_
  refine (read_quote (by simp) rfl hq _).trans ?_
  rw [move, hopens.2]
  rfl

theorem read_delimiter (d : Delimiter) (hrest : rest.head?.filter isMark = none) :
    ({ lexemes := ls } : Reading).read (d.text.toList ++ rest) =
      ({ lexemes := ls ++ [.delimiter d] } : Reading).read rest := by
  have hspelled := d.isSpelled_eq_true
  unfold Delimiter.isSpelled at hspelled
  split at hspelled
  · next c hd =>
      rw [Bool.and_eq_true, decide_eq_true_eq] at hspelled
      rw [hd, List.singleton_append, read_cons, step_of_isMark rfl rfl hspelled.1, hrest,
        endWord_nil, mark, hspelled.2]
      rfl
  · next c c' hd =>
      rw [Bool.and_eq_true, Bool.and_eq_true, decide_eq_true_eq] at hspelled
      obtain ⟨⟨hc, hc'⟩, hmarks⟩ := hspelled
      rw [hd, List.cons_append, List.singleton_append, read_cons, step_of_isMark rfl rfl hc,
        List.head?_cons, Option.filter_some, if_pos hc', endWord_nil, mark, hmarks]
      refine (read_cons _ _ _).trans ?_
      rw [step_of_skip rfl rfl hc']
      rfl
  · cases hspelled

theorem endWord_of_lexeme (hl : lexemeOf? (String.ofList cs) = some l) :
    ({ lexemes := ls, word := cs } : Reading).endWord = { lexemes := ls ++ [l] } := by
  simp [endWord, wordLexemes, isFlaw, hl]

/-- A token is read where a blank follows. -/
theorem read_lexeme (hl : l.Ordinary) (hrest : ∀ c ∈ rest.head?, isSpacing c) :
    ({ lexemes := ls } : Reading).read (l.text.toList ++ rest) =
      ({ lexemes := ls ++ [l] } : Reading).read rest := by
  have hends : ∀ c ∈ rest.head?, Zone.plain.ends c := fun c hc => ends_of_isSpacing (hrest c hc)
  have hword {cs : List Char} (hcs : cs.all isWordChar)
      (hl : lexemeOf? (String.ofList cs) = some l) :
      ({ lexemes := ls } : Reading).read (cs ++ rest) =
        ({ lexemes := ls ++ [l] } : Reading).read rest := by
    rw [read_word hcs, ← endWord_of_lexeme hl]
    exact (read_of_ends hends).symm
  cases hl with
  | keyword k =>
    refine hword k.isWordChar_text.1 ?_
    rw [String.ofList_toList, lexemeOf?, Lexeme.text, Keyword.ofText?_text]
  | delimiter d =>
    exact read_delimiter d (Option.filter_eq_none_iff.mpr fun c hc => by
      simp [(Zone.fate_of_ends (hends c hc)).1])
  | @ident c cs start chars free =>
    rw [Lexeme.text, String.toList_ofList]
    refine hword ?_ (lexemeOf?_ident start chars free)
    rw [List.all_cons, isWordChar_of_isStart start, chars, Bool.and_self]
  | @digits cs nonempty digits =>
    rw [Lexeme.text, String.toList_ofList]
    exact hword (List.all_eq_true.mpr fun c hc =>
      isWordChar_of_isDigit (List.all_eq_true.mp digits c hc)) (lexemeOf?_digits nonempty digits)
  | @quoted q cs quote chars =>
    rw [Lexeme.text, String.toList_ofList, read_quoted quote chars,
      ← endWord_of_lexeme (lexemeOf?_quoted quote cs)]
    exact (read_of_ends hends).symm

/-! ## Reading a gap -/

theorem read_spacing (hzone : r.zone = .plain) (hcs : ∀ c ∈ cs, isSpacing c)
    (rest : List Char) :
    r.endWord.read (cs ++ rest) = r.endWord.read rest := by
  induction cs with
  | nil => rfl
  | cons c cs ih =>
    have hc := hcs c List.mem_cons_self
    have hafter : r.endWord.zone.after c = r.endWord.zone := by
      change r.zone.after c = r.zone
      simp only [isSpacing, Bool.or_eq_true, beq_iff_eq] at hc
      rcases hc with (rfl | rfl) | rfl <;> rw [hzone] <;> decide
    have hends : r.endWord.zone.ends c := hzone ▸ ends_of_isSpacing hc
    have htab : c ≠ '\t' := by
      rintro rfl
      cases hc
    rw [List.cons_append, read_cons, step_of_ends htab hends, move_of_after hafter, endWord_endWord]
    exact ih fun c hc => hcs c (List.mem_cons_of_mem _ hc)

theorem read_gap (hzone : r.zone = .plain) (hskip : r.skip = false) (g : Gap) (rest : List Char) :
    r.read (g.text ++ rest) = r.endWord.read rest := by
  have hends : ∀ c ∈ (g.text ++ rest).head?, r.zone.ends c := by
    obtain ⟨c, cs, hspacing⟩ := List.exists_cons_of_ne_nil g.spacing_ne_nil
    rw [Gap.text, hspacing]
    rintro _ ⟨⟩
    exact hzone ▸ ends_of_isSpacing (g.isSpacing_of_mem c (hspacing ▸ List.mem_cons_self))
  rw [← read_of_ends hends, Gap.text, List.append_assoc, read_spacing hzone g.isSpacing_of_mem]
  cases hg : g.comment with
  | none => rfl
  | some cs =>
    rw [commentText, List.append_assoc, List.singleton_append]
    exact read_comment (r := r.endWord) hzone hskip (g.comment_line cs hg) rest

/-! ## Reading all tokens -/

theorem read_spaced (hl : l.Ordinary) (rest : List (Gap × Lexeme))
    (hrest : ∀ p ∈ rest, p.2.Ordinary) :
    ({ lexemes := ls } : Reading).read (l.text.toList ++ spacedTail rest) =
      some { lexemes := ls ++ l :: rest.map (·.2) } := by
  induction rest generalizing ls l with
  | nil =>
    rw [spacedTail, List.flatMap_nil, read_lexeme hl (by simp)]
    exact congrArg some endWord_nil
  | cons p rest ih =>
    have htail : spacedTail (p :: rest) = p.1.text ++ (p.2.text.toList ++ spacedTail rest) := by
      simp [spacedTail]
    have hhead : ∀ c ∈ (spacedTail (p :: rest)).head?, isSpacing c := by
      obtain ⟨c, cs, hspacing⟩ := List.exists_cons_of_ne_nil p.1.spacing_ne_nil
      rw [htail, Gap.text, hspacing]
      rintro _ ⟨⟩
      exact p.1.isSpacing_of_mem c (hspacing ▸ List.mem_cons_self)
    rw [read_lexeme hl hhead, htail, read_gap rfl rfl, endWord_nil,
      ih (hrest p List.mem_cons_self) fun q hq => hrest q (List.mem_cons_of_mem _ hq)]
    simp

end Reading

/-- Tokens that are written with gaps between them are read back, without an error. -/
theorem scan_spaced (debugging : Bool) (console : Console) (first : Lexeme)
    (rest : List (Gap × Lexeme)) (hfirst : first.Ordinary) (hrest : ∀ p ∈ rest, p.2.Ordinary) :
    ∃ tokens, (scan debugging (spaced first rest) console).1 = some tokens ∧
      tokens.map (·.lexeme) = first :: rest.map (·.2) ∧
      (scan debugging (spaced first rest) console).2.hasErrors = false := by
  refine scan_of_reading? (r := { lexemes := first :: rest.map (·.2) }) ?_
    (List.cons_ne_nil _ _) rfl debugging console
  rw [reading?, spaced, String.toList_ofList]
  exact Reading.read_spaced hfirst rest hrest

/-- A comment with quotation marks, marks and a stray sign in it, after which a name goes on. -/
def oddGap : Gap where
  spacing := [' ', '\r', '\n']
  comment := some "it's \"odd\" @ |> !".toList
  spacing_ne_nil := by decide
  isSpacing_of_mem := List.all_eq_true.mp rfl
  comment_line := by
    rintro cs ⟨⟩
    decide

/-- A space. -/
def plainGap : Gap where
  spacing := [' ']
  comment := none
  spacing_ne_nil := by decide
  isSpacing_of_mem := List.all_eq_true.mp rfl
  comment_line := nofun

theorem scan_spaced_oddComment :
    ∃ tokens, (scan false "let \r\n#it's \"odd\" @ |> !\nx_1 != 'a # b;' |>" {}).1 =
      some tokens ∧ tokens.map (·.lexeme) = [.keyword .let, .ident "x_1", .delimiter .notEqual,
        .value "'a # b;'", .delimiter .bird] ∧
      (scan false "let \r\n#it's \"odd\" @ |> !\nx_1 != 'a # b;' |>" {}).2.hasErrors = false := by
  have hident : Lexeme.Ordinary (.ident (String.ofList ['x', '_', '1'])) :=
    .ident (.inl (by decide)) (by decide) (by decide +kernel)
  have hquoted : Lexeme.Ordinary (.value (String.ofList ('\'' :: "a # b;".toList ++ ['\'']))) :=
    .quoted (by decide) (by decide +kernel)
  exact scan_spaced false {} (.keyword .let)
    [(oddGap, .ident (String.ofList ['x', '_', '1'])), (plainGap, .delimiter .notEqual),
      (plainGap, .value (String.ofList ('\'' :: "a # b;".toList ++ ['\'']))),
      (plainGap, .delimiter .bird)]
    (.keyword .let)
    (List.forall_mem_cons.mpr ⟨hident, List.forall_mem_cons.mpr ⟨.delimiter _,
      List.forall_mem_cons.mpr ⟨hquoted, List.forall_mem_singleton.mpr (.delimiter _)⟩⟩⟩)

end TableScript
