import TableScript.Proofs.ScanText

/-!
# Places of tokens

A token is placed when it ends, by counting back from there: right if what it ends at is on its
line, and if the text of the token stands there without gaps. So a word before a line break is
placed on the next line, and two marks that are read together are placed a column too far to the
left.

The main result is `scan_places`: in a text that is clear of this (`Reading.clears`) the places are
right, and come one after the other. This is enough but not needed: two marks at the start of a line
are placed right, and are not clear. A step leaves the tokens in their places (`Scanner.Has.step`),
and so does a run.
-/

namespace TableScript

/-- Does nothing in a text misplace a token? No comment starts; no line break ends a word, and no
word goes on after something that is left out; no mark follows a mark. -/
def Reading.clears (r : Reading) : List Char → Bool
  | [] => true
  | c :: rest =>
    r.zone.after c != .comment && (r.word.isEmpty || r.zone.keeps c ||
      r.zone.ends c && c != '\n') && !(r.zone == .plain && isMark c && rest.head?.any isMark) &&
      (r.step c rest.head?).all (·.clears rest)

/-- A line with one more character, or the start of the next one. -/
def extendLine (line : List Char) (c : Char) : List Char :=
  if c == '\n' then [] else line ++ [c]

/-- The line that a text ends in, as far as it goes. -/
def lastLine (text : List Char) : List Char :=
  text.foldl extendLine []

/-- The place after a text. -/
def placeAfter (lines : Array String) (text : List Char) : Position :=
  { line := text.count '\n', column := (lastLine text).length,
    lineText := lines.getD (text.count '\n') "" }

section

variable {text word : List Char}

theorem lastLine_concat (text : List Char) (c : Char) :
    lastLine (text ++ [c]) = extendLine (lastLine text) c :=
  List.foldl_concat _ _ _ _

theorem extendLine_of_ne {c : Char} (h : c ≠ '\n') (line : List Char) :
    extendLine line c = line ++ [c] :=
  if_neg (by simpa using h)

theorem lastLine_append (h : '\n' ∉ word) : lastLine (text ++ word) = lastLine text ++ word := by
  induction word generalizing text with
  | nil => simp
  | cons c word ih =>
    rw [List.mem_cons, not_or] at h
    rw [List.append_cons, ih h.2, lastLine_concat, extendLine_of_ne (Ne.symm h.1),
      List.append_assoc]
    rfl

theorem count_append (h : '\n' ∉ word) : (text ++ word).count '\n' = text.count '\n' := by
  rw [List.count_append, List.count_eq_zero.mpr h, Nat.add_zero]

theorem placeAfter_lt (lines : Array String) (hword : word ≠ []) :
    (placeAfter lines text).line < (placeAfter lines (text ++ word)).line ∨
      (placeAfter lines text).line = (placeAfter lines (text ++ word)).line ∧
        (placeAfter lines text).column < (placeAfter lines (text ++ word)).column := by
  have hlength := List.length_pos_iff.mpr hword
  by_cases h : '\n' ∈ word
  · have hcount := List.count_pos_iff.mpr h
    refine .inl ?_
    simp only [placeAfter, List.count_append]
    omega
  · refine .inr ?_
    simp only [placeAfter, count_append h, lastLine_append h, List.length_append, true_and]
    omega

end

/-! ## Lines -/

namespace Text

theorem drop_linesFrom (line before rest : List Char) :
    (linesFrom line.reverse (before ++ rest)).drop (before.count '\n') =
      linesFrom (before.foldl extendLine line).reverse rest := by
  induction before generalizing line with
  | nil => rfl
  | cons c before ih =>
    rw [List.cons_append, linesFrom, List.foldl_cons, ← ih]
    by_cases hc : c = '\n'
    · subst hc
      rw [List.count_cons_self]
      rfl
    · rw [if_neg (by simpa using hc), extendLine_of_ne hc, List.count_cons_of_ne hc,
        List.reverse_append]
      rfl

theorem linesFrom_append {word : List Char} (h : '\n' ∉ word) (line rest : List Char) :
    linesFrom line (word ++ rest) = linesFrom (word.reverse ++ line) rest := by
  induction word generalizing line with
  | nil => rfl
  | cons c word ih =>
    rw [List.mem_cons, not_or] at h
    rw [List.cons_append, linesFrom, if_neg (by simpa using Ne.symm h.1), ih h.2, List.reverse_cons,
      List.append_assoc]
    rfl

theorem exists_linesFrom (line text : List Char) :
    ∃ first rest, linesFrom line text = first :: rest ∧ line.reverse <+: first.toList := by
  induction text generalizing line with
  | nil => exact ⟨_, _, rfl, String.toList_ofList ▸ List.prefix_rfl⟩
  | cons c text ih =>
    rw [linesFrom]
    split
    · exact ⟨_, _, rfl, String.toList_ofList ▸ List.prefix_rfl⟩
    · obtain ⟨first, rest, heq, hpre⟩ := ih (c :: line)
      refine ⟨first, rest, heq, .trans ?_ hpre⟩
      rw [List.reverse_cons]
      exact List.prefix_append _ _

theorem isPrefix_line {before word rest : List Char} (h : '\n' ∉ word) :
    word <+: (((linesFrom [] (before ++ word ++ rest)).getD (before.count '\n') "").toList).drop
      (lastLine before).length := by
  obtain ⟨first, more, heq, hpre⟩ :=
    exists_linesFrom (word.reverse ++ (lastLine before).reverse) rest
  rw [← linesFrom_append h, lastLine, ← drop_linesFrom, List.reverse_nil,
    ← List.append_assoc] at heq
  rw [← List.reverse_append, List.reverse_reverse] at hpre
  have hline : (linesFrom [] (before ++ word ++ rest)).getD (before.count '\n') "" = first := by
    rw [List.getD_eq_getElem?_getD, ← List.head?_drop, heq]
    rfl
  rw [hline]
  obtain ⟨tail, htail⟩ := hpre
  rw [← htail, List.append_assoc, List.drop_left]
  exact List.prefix_append _ _

end Text

/-! ## Tokens in their places -/

/-- Tokens, last first, that stand in a text where their places are. -/
def Sit (lines : Array String) : List Char → List Token → Prop
  | _, [] => True
  | text, t :: ts => ∃ before, before ++ t.lexeme.text.toList <+: text ∧
      t.lexeme.text.toList ≠ [] ∧ '\n' ∉ t.lexeme.text.toList ∧
      t.position = placeAfter lines before ∧ Sit lines before ts

variable {lines : Array String} {text : List Char} {ts : List Token}

theorem Sit.mono {text' : List Char} (h : Sit lines text ts) (hpre : text <+: text') :
    Sit lines text' ts := by
  cases ts with
  | nil => trivial
  | cons t ts =>
    obtain ⟨before, hbefore, hrest⟩ := h
    exact ⟨before, hbefore.trans hpre, hrest⟩

theorem Sit.mem {t : Token} (h : Sit lines text ts) (ht : t ∈ ts) :
    ∃ before, before ++ t.lexeme.text.toList <+: text ∧
      t.lexeme.text.toList ≠ [] ∧ '\n' ∉ t.lexeme.text.toList ∧
      t.position = placeAfter lines before := by
  induction ts generalizing text with
  | nil => cases ht
  | cons u ts ih =>
    obtain ⟨before, hpre, hne, hbreak, hplace, hrest⟩ := h
    rcases List.mem_cons.mp ht with rfl | ht
    · exact ⟨before, hpre, hne, hbreak, hplace⟩
    · exact ih (hrest.mono ((List.prefix_append _ _).trans hpre)) ht

/-- Is a place before another one? -/
def Position.Before (p q : Position) : Prop :=
  p.line < q.line ∨ p.line = q.line ∧ p.column < q.column

theorem Sit.pairwise (h : Sit lines text ts) :
    ts.Pairwise fun t u => u.position.Before t.position := by
  induction ts generalizing text with
  | nil => exact .nil
  | cons t ts ih =>
    obtain ⟨before, -, -, -, hplace, hrest⟩ := h
    refine .cons (fun u hu => ?_) (ih hrest)
    obtain ⟨first, ⟨rest, hpre⟩, hne, -, hfirst⟩ := hrest.mem hu
    rw [hplace, hfirst, ← hpre, List.append_assoc]
    exact placeAfter_lt lines (List.append_ne_nil_of_left_ne_nil hne _)

namespace Scanner

variable {lines : Array String} {s s' : Scanner} {text before : List Char} {c : Char}
  {next : Option Char}

/-- The scanner has read `text`: it is at its end, the word so far too, and the tokens before the
word are where their places are. -/
structure Has (lines : Array String) (text : List Char) (s : Scanner) : Prop where
  line : s.line = text.count '\n'
  column : s.column = (lastLine text).length
  skip : s.skip = false
  comment : s.comment = false
  word : ∃ before, text = before ++ s.word.reverse ∧ '\n' ∉ s.word ∧
    Sit lines before s.tokens

theorem sit_endWord (past : Nat) (hsit : Sit lines before s.tokens) (hbreak : '\n' ∉ s.word)
    (hplace : s.word ≠ [] → s.place lines (past + s.word.length) = placeAfter lines before) :
    Sit lines (before ++ s.word.reverse) (s.endWord lines past).tokens ∧
      (s.endWord lines past).word = [] := by
  unfold endWord
  dsimp only
  split
  · next l hl =>
      have htext : l.text.toList = s.word.reverse := by
        rw [text_of_lexemeOf? hl, String.toList_ofList]
      have hne : s.word ≠ [] := by
        intro hnil
        rw [hnil, show lexemeOf? (String.ofList [].reverse) = none by decide +kernel] at hl
        cases hl
      refine ⟨⟨before, ?_, ?_, ?_, hplace hne, hsit⟩, rfl⟩
      · exact htext ▸ List.prefix_rfl
      · rwa [htext, ne_eq, List.reverse_eq_nil_iff]
      · rwa [htext, List.mem_reverse]
  · split
    · next hempty => exact ⟨hsit.mono (List.prefix_append _ _), by simpa using hempty⟩
    · exact ⟨hsit.mono (List.prefix_append _ _), rfl⟩

theorem place_eq (word : List Char) {past : Nat} (hline : s.line = before.count '\n')
    (hcolumn : s.column = (lastLine before).length + word.length + past) :
    s.place lines (past + word.length) = placeAfter lines before := by
  rw [place, placeAfter, hline, hcolumn]
  congr 2
  omega

theorem Has.endWord (h : Has lines text s) : Sit lines text (s.endWord lines 0).tokens := by
  obtain ⟨before, rfl, hbreak, hsit⟩ := h.word
  have hword : '\n' ∉ s.word.reverse := by rwa [List.mem_reverse]
  refine (sit_endWord 0 hsit hbreak fun _ => place_eq _ ?_ ?_).1
  · rw [h.line, count_append hword]
  · rw [h.column, lastLine_append hword, List.length_append, List.length_reverse, Nat.add_zero]

theorem Has.advance (h : Has lines text s) {line column : Nat}
    (hadvance : s.advance c = .ok { s with line, column }) :
    line = (text ++ [c]).count '\n' ∧ column = (lastLine (text ++ [c])).length := by
  unfold Scanner.advance at hadvance
  split at hadvance
  · next hc =>
      cases hadvance
      rw [beq_iff_eq.mp hc, lastLine_concat, List.count_append, h.line]
      exact ⟨rfl, rfl⟩
  · next hc =>
      have hbreak : '\n' ∉ [c] := fun hn => hc (beq_iff_eq.mpr (List.mem_singleton.mp hn).symm)
      split at hadvance
      · cases hadvance
      · cases hadvance
        rw [count_append hbreak, lastLine_append hbreak, List.length_append, h.line, h.column]
        exact ⟨rfl, rfl⟩

/-- A step leaves the tokens in their places. -/
theorem Has.step (h : Has lines text s) (hstarts : s.zone.after c ≠ .comment)
    (hgoes : s.word ≠ [] → s.zone.keeps c = true ∨ s.zone.ends c = true ∧ c ≠ '\n')
    (hapart : s.zone = .plain → isMark c → next.filter isMark = none)
    (hstep : s.step lines c next = .ok s') : Has lines (text ++ [c]) s' := by
  obtain ⟨line, column, hadvance, hstepped⟩ := stepped_of_step hstep
  obtain ⟨hline, hcolumn⟩ := h.advance hadvance
  obtain ⟨before, rfl, hbreak, hsit⟩ := h.word
  have hword : '\n' ∉ s.word.reverse := by rwa [List.mem_reverse]
  have hlater : Sit lines (before ++ s.word.reverse ++ [c]) s.tokens := by
    rw [List.append_assoc]
    exact hsit.mono (List.prefix_append _ _)
  have hsame : c ≠ '\n' → line = before.count '\n' ∧
      column = (lastLine before).length + s.word.length + 1 := by
    intro hc
    have hc : '\n' ∉ [c] := fun hn => hc (List.mem_singleton.mp hn).symm
    rw [hline, hcolumn, count_append hc, count_append hword, lastLine_append hc,
      lastLine_append hword, List.length_append, List.length_append, List.length_reverse]
    exact ⟨rfl, rfl⟩
  obtain ⟨word, tokens, console, hend, -⟩ := endWord_flags lines { s with line, column } 1
  -- A word that ends on its line is placed where it starts.
  have hended : (s.word ≠ [] → c ≠ '\n') →
      Sit lines (before ++ s.word.reverse) tokens ∧ word = [] := by
    intro hc
    have hplaced := sit_endWord (s := { s with line, column }) 1 hsit hbreak fun hne =>
      place_eq _ (hsame (hc hne)).1 (hsame (hc hne)).2
    rwa [hend] at hplaced
  have hidle : s.zone.keeps c = false → s.zone.ends c = false → s.word = [] := by
    intro hkeeps hends
    by_contra hne
    simpa [hkeeps, hends] using hgoes hne
  generalize s.step lines c next = result at hstepped hstep
  cases hstepped with
  | stray hc place =>
    cases hstep
    rw [expects_eq, Bool.or_eq_false_iff, Bool.not_eq_false'] at hc
    obtain ⟨hends, -, hkeeps, -⟩ := Zone.fate_of_isStray (zone_ne_quoted hc.1) hc.2
    have hempty := hidle hkeeps hends
    exact ⟨hline, hcolumn, h.skip, h.comment, _, by simp [hempty], by simp [hempty], hlater⟩
  | sharp hc hquoted =>
    subst hc
    exact absurd (Zone.fate_of_sharp (zone_ne_quoted hquoted)).2.2.1 hstarts
  | comment hc hcomment => exact absurd (h.comment.symm.trans hcomment) Bool.false_ne_true
  | gap hcomment hgap =>
    have hends := (ends_zone hcomment c).trans hgap
    have hkeeps : s.zone.keeps c = false := (Zone.fate_of_ends hends).2.1
    obtain ⟨hsit, rfl⟩ := hended fun hne => ((hgoes hne).resolve_left (by simp [hkeeps])).2
    rw [hend] at hstep
    cases hstep
    exact ⟨hline, hcolumn, h.skip, h.comment, _, (List.append_nil _).symm, List.not_mem_nil,
      hsit.mono (List.prefix_append _ _)⟩
  | skip hskip => exact absurd (h.skip.symm.trans hskip) Bool.false_ne_true
  | mark hcomment hskip hquoted hmark =>
    have hc : c ≠ '\n' := by
      rintro rfl
      exact absurd hmark (by decide)
    obtain ⟨hsit, rfl⟩ := hended fun _ => hc
    rw [hapart (zone_plain hcomment hquoted) hmark, hend] at hstep
    cases hl : delimiterOf c with
    | error f =>
      rw [mark, delimitersOf, hl] at hstep
      cases hstep
    | ok l =>
      rw [mark, delimitersOf, hl] at hstep
      cases hstep
      have htext := text_of_delimiterOf hl
      have hplace : place lines { s with line, column } 1 =
          placeAfter lines (before ++ s.word.reverse) := by
        refine place_eq [] ?_ ?_
        · rw [count_append hword, (hsame hc).1]
        · rw [lastLine_append hword, List.length_append, List.length_reverse, (hsame hc).2]
          rfl
      refine ⟨hline, hcolumn, rfl, h.comment, _, (List.append_nil _).symm, List.not_mem_nil,
        before ++ s.word.reverse, ?_, ?_, ?_, hplace, hsit⟩
      · exact htext ▸ List.prefix_rfl
      · rw [htext]
        exact List.cons_ne_nil _ _
      · rw [htext]
        exact fun hn => hc (List.mem_singleton.mp hn).symm
  | gathered hc hsharp hcomment hgap hskip hmark =>
    cases hstep
    have hends : s.zone.ends c = false := (ends_zone hcomment c).trans hgap
    have hne : c ≠ '\n' := by
      rintro rfl
      cases hgap
    have hkept : s.zone.keeps c = ((c == ' ' && s.quoted) || !Text.isBlank c) :=
      (fate_of_gathered hcomment hc hsharp hgap).1
    rw [gather_eq]
    dsimp only
    rw [← hkept]
    cases hkeeps : s.zone.keeps c with
    | true =>
      refine ⟨hline, hcolumn, h.skip, h.comment, before, ?_, ?_, hsit⟩
      · rw [if_pos rfl, List.reverse_cons, List.append_assoc]
      · rw [if_pos rfl, List.mem_cons, not_or]
        exact ⟨hne.symm, hbreak⟩
    | false =>
      have hempty := hidle hkeeps hends
      exact ⟨hline, hcolumn, h.skip, h.comment, _, by simp [hempty], by simp [hempty], hlater⟩

theorem Has.run {rest : List Char} (h : Has lines text s) (hready : s.Ready rest)
    (hclear : s.reading.clears rest) (hrun : s.run lines rest = .ok s') :
    Sit lines (text ++ rest) s'.tokens := by
  induction rest generalizing s text with
  | nil =>
    cases hrun
    rw [List.append_nil]
    exact h.endWord
  | cons c rest ih =>
    obtain ⟨t, ht, hrun⟩ := Except.ok_of_bind hrun
    have hstep := step_reading lines hready rest.head?
    rw [ht] at hstep
    simp only [Reading.clears, Bool.and_eq_true, ← hstep] at hclear
    obtain ⟨⟨⟨hstarts, hgoes⟩, hapart⟩, hrest⟩ := hclear
    have hhas : Has lines (text ++ [c]) t := by
      refine h.step (by simpa [reading] using hstarts) (fun hne => ?_) (fun hzone hmark => ?_) ht
      · simpa [reading, hne] using hgoes
      · cases hnext : rest.head? with
        | none => rfl
        | some d => simpa [reading, hzone, hmark, hnext] using hapart
    rw [List.append_cons]
    exact ih hhas (ready_step hready ht).1 hrest hrun

end Scanner

/-- In a text that misplaces no token, every token stands on its line where its place is, and the
places come one after the other. -/
theorem scan_places {debugging : Bool} {text : String} {console : Console} {tokens : List Token}
    (hclear : ({} : Reading).clears text.toList)
    (h : (scan debugging text console).1 = some tokens) :
    (∀ t ∈ tokens, t.position.lineText = (Text.lines text).getD t.position.line.toNat "" ∧
      t.lexeme.text.toList <+: t.position.lineText.toList.drop t.position.column.toNat) ∧
    tokens.Pairwise fun t u => t.position.Before u.position := by
  obtain ⟨s, hrun, rfl, -⟩ := scan_ok h
  have hstart : Scanner.Has (Text.lines text).toArray [] { console := console.restart debugging } :=
    ⟨rfl, rfl, rfl, rfl, [], rfl, List.not_mem_nil, trivial⟩
  have hsit : Sit (Text.lines text).toArray text.toList s.tokens :=
    hstart.run ⟨nofun, nofun⟩ hclear hrun
  refine ⟨fun t ht => ?_, List.pairwise_reverse.mpr hsit.pairwise⟩
  obtain ⟨before, ⟨rest, hpre⟩, -, hbreak, hplace⟩ := hsit.mem (List.mem_reverse.mp ht)
  have hline : t.position.lineText = (Text.lines text).getD t.position.line.toNat "" := by
    rw [hplace]
    simp [placeAfter]
  refine ⟨hline, ?_⟩
  rw [hline, hplace, Text.lines, ← hpre]
  exact Text.isPrefix_line hbreak

/-- Two lines, where the first one ends in a mark. -/
theorem scan_places_twoLines : ∃ tokens, (scan false "a = \"b c\" ;\nd" {}).1 = some tokens ∧
    tokens.Pairwise fun t u => t.position.Before u.position := by
  obtain ⟨tokens, h⟩ : ∃ tokens, (scan false "a = \"b c\" ;\nd" {}).1 = some tokens :=
    Option.isSome_iff_exists.mp (by decide +kernel)
  exact ⟨tokens, h, (scan_places (by decide +kernel) h).2⟩

/-- A name before a line break is placed where the next one is. -/
theorem scan_misplaces : (scan false "a\nb" {}).1.map (·.map (·.position)) =
      some [⟨1, 0, "b"⟩, ⟨1, 0, "b"⟩] ∧
    (scan false "a\nb" {}).2.hasErrors = false ∧
    (scan false "a\nb" {}).2.hasWarnings = false := by
  decide +kernel

end TableScript
