import TableScript.Proofs.Exec
import TableScript.Token.Scan

/-!
# Steps of the scanner

What the scanner does about a character depends on the `Zone` that the character stands in, and not
on the words and marks around it. `Scanner.Stepped` has a case for everything that a step can do;
the scanner stops only at a tab, and at marks that are no delimiters.
-/

namespace TableScript

/-! ## Zones of a program -/

/-- Where a character of a program stands. -/
inductive Zone where
  | plain
  | quoted
  | comment
  deriving DecidableEq, Repr

/-- Is `c` a quotation mark? -/
def isQuote (c : Char) : Bool :=
  c == '\'' || c == '"'

/-- Can `c` stand in no token outside of quotation marks, though it is no white space? -/
def isStray (c : Char) : Bool :=
  !(Text.isAlnum c || Text.isBlank c || c == '#' || c == '_' || isQuote c || isMark c)

namespace Zone

/-- The zone after a character. -/
def after : Zone → Char → Zone
  | plain, c => if c == '#' then comment else if isQuote c then quoted else plain
  | quoted, c => if isQuote c then plain else quoted
  | comment, c => if c == '\n' then plain else comment

/-- Does a character belong to a token? -/
def keeps : Zone → Char → Bool
  | plain, c => !(c == '#' || Text.isBlank c || isStray c)
  | quoted, c => c == ' ' || !Text.isBlank c
  | comment, _ => false

/-- Does a character end the word in this zone, and belong to no token? -/
def ends : Zone → Char → Bool
  | plain, c => c == '\n' || c == '\r' || c == '\t' || c == ' '
  | quoted, c => c == '\n' || c == '\r' || c == '\t'
  | comment, _ => false

/-- Is there a warning about a character? -/
def warns : Zone → Char → Bool
  | plain, c => isStray c
  | quoted, _ => false
  | comment, c => isStray c

variable {z : Zone} {c : Char}

theorem fate_of_ends (h : z.ends c) :
    isMark c = false ∧ z.keeps c = false ∧ z.after c = z ∧ z.warns c = false := by
  cases z <;> simp only [ends, Bool.or_eq_true, beq_iff_eq, Bool.false_eq_true] at h
  · rcases h with ((rfl | rfl) | rfl) | rfl <;> decide
  · rcases h with (rfl | rfl) | rfl <;> decide

theorem fate_of_isStray (hz : z ≠ .quoted) (h : isStray c) :
    z.ends c = false ∧ isMark c = false ∧ z.keeps c = false ∧ z.after c = z ∧
      z.warns c := by
  have hne : ∀ d, isStray d = false → c ≠ d := by
    rintro d hd rfl
    exact absurd (hd.symm.trans h) Bool.false_ne_true
  have hc := h
  simp only [isStray, Bool.not_eq_true', Bool.or_eq_false_iff] at hc
  cases z with
  | quoted => exact absurd rfl hz
  | plain | comment =>
    simp [ends, keeps, after, warns, h, hc.2, hc.1.2, hne '\n' (by decide), hne '\r' (by decide),
      hne '\t' (by decide), hne ' ' (by decide), hne '#' (by decide)]

theorem fate_of_sharp (hz : z ≠ .quoted) :
    z.ends '#' = false ∧ z.keeps '#' = false ∧ z.after '#' = .comment ∧
      z.warns '#' = false := by
  cases z with
  | quoted => exact absurd rfl hz
  | plain | comment => decide

end Zone

theorem plain_of_isMark {c : Char} (h : isMark c) :
    Zone.plain.keeps c ∧ Zone.plain.after c = .plain ∧ Zone.plain.warns c = false := by
  have hall : marks.all (fun c => decide (Zone.plain.keeps c ∧ Zone.plain.after c = .plain ∧
      Zone.plain.warns c = false)) = true := by decide
  exact of_decide_eq_true (List.all_eq_true.mp hall c (List.contains_iff_mem.mp h))

namespace Scanner

variable {lines : Array String} {s s' : Scanner} {c : Char} {rest : List Char} {next : Option Char}

/-- Where the scanner is. -/
def zone (s : Scanner) : Zone :=
  if s.comment then .comment else if s.quoted then .quoted else .plain

/-- A comment starts outside of quotation marks, and a mark is skipped there. -/
structure Ready (s : Scanner) (rest : List Char) : Prop where
  comment : s.comment → s.quoted = false
  skip : s.skip → s.zone = .plain ∧ ∃ c ∈ rest.head?, isMark c

theorem Ready.skip_eq_false (h : s.Ready (c :: rest)) (hc : isMark c = false) : s.skip = false := by
  refine Bool.eq_false_iff.mpr fun hskip => ?_
  obtain ⟨-, d, hd, hmark⟩ := h.skip hskip
  cases hd
  rw [hc] at hmark
  cases hmark

theorem Ready.skip_of_zone (h : s.Ready rest) (hzone : s.zone ≠ .plain) : s.skip = false :=
  Bool.eq_false_iff.mpr fun hskip => hzone (h.skip hskip).1

theorem expects_eq (s : Scanner) (c : Char) : s.expects c = (s.quoted || !isStray c) := by
  simp [expects, isStray, isQuote, Bool.or_assoc]

theorem zone_comment (h : s.comment) : s.zone = .comment := by
  rw [zone, if_pos h]

theorem zone_quoted (hcomment : s.comment = false) (h : s.quoted) : s.zone = .quoted := by
  rw [zone, hcomment, h]
  rfl

theorem zone_plain (hcomment : s.comment = false) (h : s.quoted = false) : s.zone = .plain := by
  rw [zone, hcomment, h]
  rfl

theorem zone_ne_quoted (h : s.quoted = false) : s.zone ≠ .quoted := by
  unfold zone
  split <;> simp [h]

theorem ends_zone (hcomment : s.comment = false) (c : Char) : s.zone.ends c = s.isGap c := by
  cases hquoted : s.quoted with
  | true => simp [zone_quoted hcomment hquoted, Zone.ends, isGap, hquoted]
  | false => simp [zone_plain hcomment hquoted, Zone.ends, isGap, hquoted]

theorem gather_eq (s : Scanner) (c : Char) :
    s.gather c = { s with
      quoted := s.quoted ^^ isQuote c
      word := if (c == ' ' && s.quoted) || !Text.isBlank c then c :: s.word else s.word } := by
  have hquote : (c == '\'' || c == '"') = isQuote c := rfl
  unfold gather
  rw [hquote]
  cases hc : isQuote c with
  | false =>
    simp only [Bool.false_eq_true, if_false, Bool.xor_false]
    split <;> rfl
  | true =>
    have hspace : (c == ' ') = false := by
      refine beq_eq_false_iff_ne.mpr fun h => ?_
      rw [h] at hc
      cases hc
    simp only [if_true, Bool.xor_true, hspace, Bool.false_and, Bool.false_or]
    split <;> rfl

theorem fate_of_gathered (hcomment : s.comment = false) (hc : s.expects c)
    (hsharp : (c == '#' && !s.quoted) = false) (hgap : s.isGap c = false) :
    s.zone.keeps c = ((c == ' ' && s.quoted) || !Text.isBlank c) ∧
      s.zone.after c = (if s.quoted ^^ isQuote c then .quoted else .plain) ∧
      s.zone.warns c = false := by
  simp only [isGap, Bool.or_eq_false_iff] at hgap
  obtain ⟨-, hspace⟩ := hgap
  rw [expects_eq] at hc
  cases hquoted : s.quoted with
  | true =>
    rw [zone_quoted hcomment hquoted]
    cases hquote : isQuote c <;> simp [Zone.keeps, Zone.after, Zone.warns, hquote]
  | false =>
    rw [hquoted] at hc hsharp hspace
    simp only [Bool.not_false, Bool.and_true] at hsharp hspace
    simp only [Bool.false_or, Bool.not_eq_true'] at hc
    rw [zone_plain hcomment hquoted]
    simp [Zone.keeps, Zone.after, Zone.warns, hsharp, hspace, hc]

theorem endWord_flags (lines : Array String) (s : Scanner) (past : Nat) :
    ∃ word tokens console, s.endWord lines past = { s with word, tokens, console } ∧
      console.log.warnings = s.console.log.warnings := by
  unfold endWord
  dsimp only
  split
  · exact ⟨_, _, _, rfl, rfl⟩
  · split <;> exact ⟨_, _, _, rfl, rfl⟩

theorem mark_endWord (h : (s.endWord lines 1).mark lines c next = .ok s') :
    ∃ word tokens console, s' = { s with skip := next.isSome, word, tokens, console } ∧
      console.log.warnings = s.console.log.warnings := by
  obtain ⟨ls, -, h⟩ := Except.ok_of_bind h
  obtain ⟨word, tokens, console, hend, hwarnings⟩ := endWord_flags lines s 1
  cases h
  rw [hend]
  exact ⟨_, _, _, rfl, hwarnings⟩

/-! ## Steps -/

/-- What a step can do at its place: read a stray character, the start of a comment, a part of one,
a gap, the second mark of a delimiter, a mark, or a character of a word. -/
inductive Stepped (lines : Array String) (s : Scanner) (c : Char) (next : Option Char) :
    Except Stop Scanner → Prop
  | stray (hc : s.expects c = false) (place : Position) :
    Stepped lines s c next (.ok { s with console := s.console.warn (unexpected c place) })
  | sharp (hc : c = '#') (hquoted : s.quoted = false) :
    Stepped lines s c next (.ok { s with comment := true })
  | comment (hc : s.expects c) (hcomment : s.comment) :
    Stepped lines s c next (.ok { s with comment := c != '\n' })
  | gap (hcomment : s.comment = false) (hgap : s.isGap c) :
    Stepped lines s c next (.ok (s.endWord lines 1))
  | skip (hskip : s.skip) : Stepped lines s c next (.ok { s with skip := false })
  | mark (hcomment : s.comment = false) (hskip : s.skip = false) (hquoted : s.quoted = false)
    (hmark : isMark c) :
    Stepped lines s c next ((s.endWord lines 1).mark lines c (next.filter isMark))
  | gathered (hc : s.expects c) (hsharp : (c == '#' && !s.quoted) = false)
    (hcomment : s.comment = false) (hgap : s.isGap c = false) (hskip : s.skip = false)
    (hmark : (isMark c && !s.quoted) = false) : Stepped lines s c next (.ok (s.gather c))

theorem stepped_step (lines : Array String) (s : Scanner) (htab : c ≠ '\t') (next : Option Char) :
    ∃ line column, s.advance c = .ok { s with line, column } ∧
      Stepped lines { s with line, column } c next (s.step lines c next) := by
  obtain ⟨line, column, hadvance⟩ : ∃ line column,
      s.advance c = .ok { s with line, column } := by
    unfold advance
    split
    · exact ⟨_, _, rfl⟩
    · rw [if_neg (by simpa using htab)]
      exact ⟨_, _, rfl⟩
  refine ⟨line, column, hadvance, ?_⟩
  rw [step, hadvance]
  generalize ({ s with line, column } : Scanner) = s
  dsimp only [bind, Except.bind]
  split
  · next hc => exact .stray (by simpa using hc) _
  next hc =>
  have hc : s.expects c := by simpa using hc
  split
  · next hsharp =>
      rw [Bool.and_eq_true, beq_iff_eq, Bool.not_eq_true'] at hsharp
      exact .sharp hsharp.1 hsharp.2
  next hsharp =>
  split
  · next hcomment => exact .comment hc hcomment
  next hcomment =>
  have hcomment := Bool.eq_false_iff.mpr hcomment
  split
  · next hgap => exact .gap hcomment hgap
  next hgap =>
  split
  · next hskip => exact .skip hskip
  next hskip =>
  have hskip := Bool.eq_false_iff.mpr hskip
  split
  · next hmark =>
      rw [Bool.and_eq_true, Bool.not_eq_true'] at hmark
      exact .mark hcomment hskip hmark.2 hmark.1
  · next hmark =>
      exact .gathered hc (Bool.eq_false_iff.mpr hsharp) hcomment (Bool.eq_false_iff.mpr hgap) hskip
        (Bool.eq_false_iff.mpr hmark)

theorem stepped_of_step (h : s.step lines c next = .ok s') :
    ∃ line column, s.advance c = .ok { s with line, column } ∧
      Stepped lines { s with line, column } c next (s.step lines c next) :=
  stepped_step lines s (by rintro rfl; cases h) next

end Scanner

@[simp] theorem Console.debugBlock_log (c : Console) (title : String) (block : Unit → String) :
    (c.debugBlock title block).log = c.log := by
  unfold Console.debugBlock
  split <;> rfl

end TableScript
