import TableScript.Proofs.ScanSteps

/-!
# What a scanner has read

A scanner knows where it stands and what it has printed, and neither matters for the tokens to come.
A `Reading` is the rest: the zone of the next character, the word so far, the tokens without their
places, and whether there has been an error. A step of the scanner is a step of its reading
(`Scanner.step_reading`), so that readings alone tell what a text is read as (`scan_eq`).
-/

namespace TableScript

open Console Text

/-- The token that a word is, if it is one. -/
def wordLexemes (word : List Char) : List Lexeme :=
  (lexemeOf? (String.ofList word)).toList

/-- Is a word no token? -/
def isFlaw (word : List Char) : Bool :=
  !word.isEmpty && (wordLexemes word).isEmpty

/-- What a scanner has read. -/
structure Reading where
  zone : Zone := .plain
  /-- The next mark has been read with the one before it. -/
  skip : Bool := false
  word : List Char := []
  lexemes : List Lexeme := []
  /-- There has been an error. -/
  flawed : Bool := false

variable {text : List Char}

namespace Reading

def endWord (r : Reading) : Reading :=
  { r with
    word := []
    lexemes := r.lexemes ++ wordLexemes r.word
    flawed := r.flawed || isFlaw r.word }

def mark (r : Reading) (c : Char) (next : Option Char) : Option Reading :=
  (delimitersOf c next).toOption.map fun ls =>
    { r with skip := next.isSome, lexemes := r.lexemes ++ ls }

/-- The zone moves on. -/
def move (r : Reading) (c : Char) : Reading :=
  { r with zone := r.zone.after c }

def gather (r : Reading) (c : Char) : Reading :=
  if r.zone.keeps c then { r.move c with word := r.word ++ [c] } else r.move c

/-- The reading after a character, which `next` follows; none if the scanner stops there. -/
def step (r : Reading) (c : Char) (next : Option Char) : Option Reading :=
  if c == '\t' then none
  else if r.zone.ends c then some (r.move c).endWord
  else if r.skip then some { r.move c with skip := false }
  else if r.zone == .plain && isMark c then (r.move c).endWord.mark c (next.filter isMark)
  else some (r.gather c)

/-- The reading after a text, which `next` follows. -/
def reach (r : Reading) (next : Option Char) : List Char → Option Reading
  | [] => some r
  | c :: rest => (r.step c (rest.head?.or next)).bind (·.reach next rest)

/-- The reading after a text that ends. -/
def read (r : Reading) (text : List Char) : Option Reading :=
  (r.reach none text).map endWord

/-- A reading with tokens, and perhaps an error, before it. -/
def beyond (r : Reading) (ls : List Lexeme) (flaw : Bool) : Reading :=
  { r with lexemes := ls ++ r.lexemes, flawed := flaw || r.flawed }

/-- A mark is skipped only where one follows. -/
def Ready (r : Reading) (next : Option Char) : Prop :=
  r.skip → r.zone = .plain ∧ ∃ c ∈ next, isMark c

variable {r r' : Reading} {c : Char} {next : Option Char}

theorem Ready.skip_eq_false (h : r.Ready next) (hnext : next.filter isMark = none) :
    r.skip = false := by
  refine Bool.eq_false_iff.mpr fun hskip => ?_
  obtain ⟨-, c, hc, hmark⟩ := h hskip
  rw [Option.mem_def.mp hc, Option.filter_some, if_pos hmark] at hnext
  cases hnext

theorem move_of_after (h : r.zone.after c = r.zone) : r.move c = r := by
  rw [move, h]

theorem gather_of_keeps (h : r.zone.keeps c) :
    r.gather c = { r.move c with word := r.word ++ [c] } :=
  if_pos h

theorem gather_of_not_keeps (h : r.zone.keeps c = false) : r.gather c = r.move c :=
  if_neg (Bool.eq_false_iff.mp h)

theorem wordLexemes_nil : wordLexemes [] = [] := by
  decide +kernel

theorem endWord_nil {ls : List Lexeme} :
    ({ lexemes := ls } : Reading).endWord = { lexemes := ls } := by
  simp [endWord, wordLexemes_nil, isFlaw]

theorem endWord_endWord (r : Reading) : r.endWord.endWord = r.endWord := by
  simp [endWord, wordLexemes_nil, isFlaw]

/-! ## Single steps -/

theorem step_of_ends (htab : c ≠ '\t') (h : r.zone.ends c) :
    r.step c next = some (r.move c).endWord := by
  rw [step, if_neg (by simpa using htab), if_pos h]

theorem meanings_of_isMark (h : isMark c) :
    c ≠ '\t' ∧ Zone.plain.ends c = false := by
  have hall : marks.all (fun c => decide (c ≠ '\t' ∧ Zone.plain.ends c = false)) = true := by
    decide +kernel
  exact of_decide_eq_true (List.all_eq_true.mp hall c (List.contains_iff_mem.mp h))

theorem step_of_skip (hzone : r.zone = .plain) (hskip : r.skip) (h : isMark c) :
    r.step c next = some { r with skip := false } := by
  obtain ⟨htab, hends⟩ := meanings_of_isMark h
  rw [step, if_neg (by simpa using htab), if_neg (by simp [hzone, hends]), if_pos hskip,
    move_of_after (by rw [hzone, (plain_of_isMark h).2.1])]

theorem step_of_isMark (hzone : r.zone = .plain) (hskip : r.skip = false) (h : isMark c) :
    r.step c next = r.endWord.mark c (next.filter isMark) := by
  obtain ⟨htab, hends⟩ := meanings_of_isMark h
  rw [step, if_neg (by simpa using htab), if_neg (by simp [hzone, hends]), if_neg (by simp [hskip]),
    if_pos (by simp [hzone, h]), move_of_after (by rw [hzone, (plain_of_isMark h).2.1])]

section

variable (htab : c ≠ '\t') (hends : r.zone.ends c = false) (hskip : r.skip = false)
  (hmark : (r.zone == .plain && isMark c) = false)

include htab hends hskip hmark

theorem step_of_gathers : r.step c next = some (r.gather c) := by
  rw [step, if_neg (by simpa using htab), if_neg (by simp [hends]), if_neg (by simp [hskip]),
    if_neg (by simp [hmark])]

theorem step_of_not_keeps (hkeeps : r.zone.keeps c = false) : r.step c next = some (r.move c) := by
  rw [step_of_gathers htab hends hskip hmark, gather_of_not_keeps hkeeps]

end

variable {next' : Option Char} {cs : List Char}

theorem step_congr (hnext : next'.filter isMark = next.filter isMark ∨
    r.zone.after c = .comment) :
    r.step c next' = r.step c next := by
  rcases hnext with hnext | hafter
  · rw [step, step, hnext]
  · -- A mark starts no comment.
    by_cases hmark : r.zone == .plain && isMark c
    · rw [Bool.and_eq_true, beq_iff_eq] at hmark
      rw [hmark.1, (plain_of_isMark hmark.2).2.1] at hafter
      cases hafter
    · rw [step, step, if_neg hmark, if_neg hmark]

/-! ## Reading on -/

section

variable (r : Reading) (ls : List Lexeme) (flaw : Bool)

theorem endWord_beyond : (r.beyond ls flaw).endWord = r.endWord.beyond ls flaw := by
  simp [endWord, beyond, Bool.or_assoc]

theorem step_beyond (c : Char) (next : Option Char) :
    (r.beyond ls flaw).step c next = (r.step c next).map (·.beyond ls flaw) := by
  have hmark : ∀ (r : Reading) next, (r.beyond ls flaw).mark c next =
      (r.mark c next).map (·.beyond ls flaw) := by
    intro r next
    simp only [mark, Option.map_map]
    congr 1
    funext marks
    simp [beyond]
  have hgather : (r.beyond ls flaw).gather c = (r.gather c).beyond ls flaw := by
    rw [gather, gather, apply_ite (beyond · ls flaw)]
    rfl
  simp only [step, apply_ite (Option.map (beyond · ls flaw)), Option.map_some, Option.map_none,
    ← hmark, ← endWord_beyond, ← hgather]
  rfl

theorem reach_beyond (next : Option Char) (text : List Char) :
    (r.beyond ls flaw).reach next text = (r.reach next text).map (·.beyond ls flaw) := by
  induction text generalizing r with
  | nil => rfl
  | cons c rest ih =>
    rw [reach, reach, step_beyond]
    cases r.step c (rest.head?.or next) with
    | none => rfl
    | some t => exact ih t

theorem read_beyond (text : List Char) :
    (r.beyond ls flaw).read text = (r.read text).map (·.beyond ls flaw) := by
  simp only [read, reach_beyond, Option.map_map, Function.comp_def, endWord_beyond]

end

theorem reach_append (r : Reading) (next : Option Char) (text rest : List Char) :
    r.reach next (text ++ rest) = (r.reach (rest.head?.or next) text).bind
      (·.reach next rest) := by
  induction text generalizing r with
  | nil => rfl
  | cons c text ih =>
    rw [List.cons_append, reach, reach, Option.bind_assoc, List.head?_append, Option.or_assoc]
    exact congrArg _ (funext ih)

theorem read_cons (r : Reading) (c : Char) (rest : List Char) :
    r.read (c :: rest) = (r.step c rest.head?).bind (·.read rest) := by
  rw [read, reach, Option.or_none, Option.map_bind]
  rfl

theorem read_append (r : Reading) (text rest : List Char) :
    r.read (text ++ rest) = (r.reach rest.head? text).bind (·.read rest) := by
  rw [read, reach_append, Option.or_none, Option.map_bind]
  rfl

theorem reach_comment (hzone : r.zone = .comment) (hskip : r.skip = false)
    (hcs : '\t' ∉ cs ∧ '\n' ∉ cs) (next : Option Char) : r.reach next cs = some r := by
  induction cs with
  | nil => rfl
  | cons c cs ih =>
    simp only [List.mem_cons, not_or] at hcs
    have hafter : r.zone.after c = r.zone := by
      simp [hzone, Zone.after, Ne.symm hcs.2.1]
    rw [reach, step_of_not_keeps (Ne.symm hcs.1.1) (by rw [hzone]; rfl) hskip (by rw [hzone]; rfl)
      (by rw [hzone]; rfl), move_of_after hafter]
    exact ih ⟨hcs.1.2, hcs.2.2⟩

theorem step_sharp (hzone : r.zone = .plain) (hskip : r.skip = false) (next : Option Char) :
    r.step '#' next = some { r with zone := .comment } := by
  rw [step_of_not_keeps (by decide) (by rw [hzone]; rfl) hskip (by rw [hzone]; rfl)
    (by rw [hzone]; rfl), move, hzone]
  rfl

theorem read_comment (hzone : r.zone = .plain) (hskip : r.skip = false)
    (hcs : '\t' ∉ cs ∧ '\n' ∉ cs) (rest : List Char) :
    r.read ('#' :: cs ++ '\n' :: rest) = r.read rest := by
  have hend : ({ r with zone := .comment } : Reading).step '\n' rest.head? = some r := by
    rw [step_of_not_keeps (r := { r with zone := .comment }) (by decide) rfl hskip rfl rfl]
    exact congrArg (fun zone => some { r with zone }) hzone.symm
  rw [List.cons_append, read_cons, step_sharp hzone hskip, Option.bind_some, read_append,
    reach_comment (r := { r with zone := .comment }) rfl hskip hcs, Option.bind_some,
      read_cons, hend,
    Option.bind_some]

theorem read_of_ends (h : ∀ c ∈ text.head?, r.zone.ends c) :
    r.endWord.read text = r.read text := by
  cases text with
  | nil => exact congrArg some r.endWord_endWord
  | cons c rest =>
    by_cases htab : c = '\t'
    · subst htab
      rfl
    · rw [read_cons, read_cons, step_of_ends (r := r.endWord) htab (h c rfl),
        step_of_ends htab (h c rfl)]
      exact congrArg (·.read rest) (r.move c).endWord_endWord

theorem read_of_isMark (hzone : r.zone = .plain) (hskip : r.skip = false) (hc : isMark c)
    (rest : List Char) : r.endWord.read (c :: rest) = r.read (c :: rest) := by
  rw [read_cons, read_cons, step_of_isMark (r := r.endWord) hzone hskip hc,
    step_of_isMark hzone hskip hc, endWord_endWord]

theorem endWord_eq_beyond (hskip : r.skip = false) :
    r.endWord = ({ zone := r.zone } : Reading).beyond r.endWord.lexemes r.endWord.flawed := by
  simp [endWord, beyond, hskip]

theorem reach_congr
    (h : next'.filter isMark = next.filter isMark ∨ ∀ c ∈ text.getLast?, isMark c = false)
    (r : Reading) : r.reach next' text = r.reach next text := by
  induction text generalizing r with
  | nil => rfl
  | cons c rest ih =>
    cases rest with
    | nil =>
      have hstep : r.step c next' = r.step c next := by
        rcases h with h | h
        · exact step_congr (.inl h)
        · have hmark : (r.zone == .plain && isMark c) = false := by
            rw [h c rfl, Bool.and_false]
          rw [step, step, hmark]
          rfl
      rw [reach, reach, List.head?_nil, Option.none_or, Option.none_or, hstep]
      rfl
    | cons d rest => exact congrArg _ (funext (ih h))

theorem ready_step (hready : r.Ready (some c)) (h : r.step c next = some r') :
    r'.Ready next ∧ r'.zone = r.zone.after c := by
  simp only [step] at h
  split at h
  · cases h
  split at h
  · next hend =>
      cases h
      have hskip : r.skip = false := hready.skip_eq_false (by simp [(Zone.fate_of_ends hend).1])
      exact ⟨fun h => absurd (hskip ▸ h) Bool.false_ne_true, rfl⟩
  split at h
  · cases h
    exact ⟨fun h => absurd h Bool.false_ne_true, rfl⟩
  next hskip =>
  split at h
  · next hmark =>
      obtain ⟨ls, -, rfl⟩ := Option.map_eq_some_iff.mp h
      rw [Bool.and_eq_true, beq_iff_eq] at hmark
      refine ⟨fun hnext => ⟨?_, ?_⟩, rfl⟩
      · show r.zone.after c = .plain
        rw [hmark.1, (plain_of_isMark hmark.2).2.1]
      · obtain ⟨d, hd⟩ := Option.isSome_iff_exists.mp hnext
        exact ⟨d, Option.filter_eq_some_iff.mp hd⟩
  · cases h
    unfold gather
    split <;> exact ⟨fun h => absurd h hskip, rfl⟩

theorem ready_reach (hready : r.Ready (text.head?.or next)) (h : r.reach next text = some r') :
    r'.Ready next ∧ r'.zone = text.foldl Zone.after r.zone := by
  induction text generalizing r with
  | nil =>
    cases h
    exact ⟨hready, rfl⟩
  | cons c rest ih =>
    obtain ⟨t, ht, h⟩ := Option.bind_eq_some_iff.mp h
    obtain ⟨hready, hzone⟩ := ready_step hready ht
    rw [List.foldl_cons, ← hzone]
    exact ih hready h

end Reading

/-! ## Readings of scanners -/

theorem Console.hasErrors_error (c : Console) (text : String) :
    (c.error text).hasErrors = true := by
  simp [hasErrors, error, printLine, print]

theorem Console.hasErrors_close (c : Console) : c.close.hasErrors = c.hasErrors := by
  have hwarn : ∀ text, (c.warn text).hasErrors = c.hasErrors := fun _ => rfl
  unfold close
  dsimp only
  split <;> split <;> simp_all [hasErrors_error]

namespace Scanner

variable {lines : Array String} {s s' : Scanner} {c : Char} {rest : List Char} {next : Option Char}

def reading (s : Scanner) : Reading where
  zone := s.zone
  skip := s.skip
  word := s.word.reverse
  lexemes := s.tokens.reverse.map (·.lexeme)
  flawed := s.console.hasErrors

theorem reading_endWord (lines : Array String) (s : Scanner) (past : Nat) :
    (s.endWord lines past).reading = s.reading.endWord := by
  have hempty : lexemeOf? (String.ofList []) = none := by decide +kernel
  unfold endWord Reading.endWord isFlaw wordLexemes
  dsimp only [reading]
  cases hl : lexemeOf? (String.ofList s.word.reverse) with
  | some l => simp [zone]
  | none =>
    cases hword : s.word with
    | nil => simp [hword]
    | cons c word => simp [hasErrors_error, zone]

theorem reading_mark (lines : Array String) (s : Scanner) (c : Char) (next : Option Char) :
    (s.mark lines c next).toOption.map reading = s.reading.mark c next := by
  unfold mark Reading.mark
  cases delimitersOf c next with
  | error f => rfl
  | ok ls =>
    show some (reading { s with tokens := _, skip := _ }) = _
    simp [reading, Except.toOption, Function.comp_def, zone]

theorem reading_gather (hcomment : s.comment = false) (hc : s.expects c)
    (hsharp : (c == '#' && !s.quoted) = false) (hgap : s.isGap c = false) :
    (s.gather c).reading = s.reading.gather c := by
  obtain ⟨hkeeps, hafter, -⟩ := fate_of_gathered hcomment hc hsharp hgap
  have hzone : (s.gather c).zone = s.zone.after c := by
    rw [gather_eq, hafter]
    simp [zone, hcomment]
  change (⟨(s.gather c).zone, _, _, _, _⟩ : Reading) = if s.zone.keeps c then _ else _
  rw [hzone, gather_eq, ← hkeeps]
  split <;> simp [reading, Reading.move]

theorem quoted_step (hready : s.comment → s.quoted = false) (h : s.step lines c next = .ok s') :
    s'.comment → s'.quoted = false := by
  obtain ⟨line, column, -, hstepped⟩ := stepped_of_step h
  generalize s.step lines c next = result at hstepped h
  cases hstepped with
  | sharp hc hquoted =>
    cases h
    exact fun _ => hquoted
  | comment hc hcomment =>
    cases h
    exact fun _ => hready hcomment
  | gap =>
    obtain ⟨word, tokens, console, hend, -⟩ := endWord_flags lines { s with line, column } 1
    rw [hend] at h
    cases h
    exact hready
  | mark =>
    obtain ⟨word, tokens, console, rfl, -⟩ := mark_endWord h
    exact hready
  | gathered hc hsharp hcomment =>
    cases h
    rw [gather_eq]
    exact fun h => absurd (hcomment ▸ h) Bool.false_ne_true
  | _ =>
    cases h
    exact hready

theorem reading_stepped {result : Except Stop Scanner} (hready : s.Ready (c :: rest))
    (htab : c ≠ '\t') (h : Stepped lines s c next result) :
    result.toOption.map reading = s.reading.step c next := by
  cases h with
  | stray hc place =>
    rw [expects_eq, Bool.or_eq_false_iff, Bool.not_eq_false'] at hc
    obtain ⟨hends, hmark, hkeeps, hafter, -⟩ :=
      Zone.fate_of_isStray (zone_ne_quoted hc.1) hc.2
    rw [Reading.step_of_not_keeps htab hends (hready.skip_eq_false hmark)
      (by rw [hmark, Bool.and_false]) hkeeps, Reading.move_of_after hafter]
    rfl
  | sharp hc hquoted =>
    subst hc
    obtain ⟨hends, hkeeps, hafter, -⟩ := Zone.fate_of_sharp (zone_ne_quoted hquoted)
    have hmark : isMark '#' = false := by decide
    rw [Reading.step_of_not_keeps htab hends (hready.skip_eq_false hmark)
      (by rw [hmark, Bool.and_false]) hkeeps]
    exact congrArg (fun zone => some { s.reading with zone }) hafter.symm
  | comment hc hcomment =>
    have hzone : s.reading.zone = .comment := zone_comment hcomment
    have hquoted := hready.comment hcomment
    have hskip : s.reading.skip = false := hready.skip_of_zone (by simp [zone_comment hcomment])
    rw [Reading.step_of_not_keeps htab (by rw [hzone]; rfl) hskip (by rw [hzone]; rfl)
      (by rw [hzone]; rfl), Reading.move, hzone]
    cases hend : c == '\n' <;>
      simp [Except.toOption, reading, zone, Zone.after, hend, hquoted, bne]
  | gap hcomment hgap =>
    have hends := (ends_zone hcomment c).trans hgap
    rw [Reading.step_of_ends htab hends, Reading.move_of_after (Zone.fate_of_ends hends).2.2.1]
    exact congrArg some (reading_endWord lines s 1)
  | skip hskip =>
    obtain ⟨hzone, d, hd, hmark⟩ := hready.skip hskip
    cases hd
    rw [Reading.step_of_skip hzone hskip hmark]
    rfl
  | mark hcomment hskip hquoted hmark =>
    rw [Reading.step_of_isMark (zone_plain hcomment hquoted) hskip hmark, reading_mark,
      reading_endWord]
  | gathered hc hsharp hcomment hgap hskip hmark =>
    have hmark : (s.reading.zone == .plain && isMark c) = false := by
      cases hquoted : s.quoted with
      | true =>
        rw [show s.reading.zone = .quoted from zone_quoted hcomment hquoted]
        rfl
      | false =>
        rw [hquoted, Bool.not_false, Bool.and_true] at hmark
        rw [hmark, Bool.and_false]
    rw [Reading.step_of_gathers htab ((ends_zone hcomment c).trans hgap) hskip hmark]
    exact congrArg some (reading_gather hcomment hc hsharp hgap)

/-- A step of the scanner is a step of what it has read. -/
theorem step_reading (lines : Array String) (hready : s.Ready (c :: rest)) (next : Option Char) :
    (s.step lines c next).toOption.map reading = s.reading.step c next := by
  by_cases htab : c = '\t'
  · subst htab
    rfl
  obtain ⟨line, column, -, hstepped⟩ := stepped_step lines s htab next
  have hready : ({ s with line, column } : Scanner).Ready (c :: rest) :=
    ⟨hready.comment, hready.skip⟩
  exact reading_stepped (s := { s with line, column }) hready htab hstepped

theorem ready_step (hready : s.Ready (c :: rest)) (h : s.step lines c rest.head? = .ok s') :
    s'.Ready rest ∧ s'.zone = s.zone.after c := by
  have hstep := step_reading lines hready rest.head?
  rw [h] at hstep
  have hskip : s.reading.Ready (some c) := hready.skip
  obtain ⟨hskip', hzone⟩ := Reading.ready_step hskip hstep.symm
  exact ⟨⟨quoted_step hready.comment h, hskip'⟩, hzone⟩

theorem run_reading (lines : Array String) (hready : s.Ready text) :
    (s.run lines text).toOption.map reading = s.reading.read text := by
  induction text generalizing s with
  | nil => exact congrArg some (reading_endWord lines s 0)
  | cons c rest ih =>
    have hstep := step_reading lines hready rest.head?
    rw [run, Reading.read, Reading.reach, Option.or_none, ← hstep]
    cases h : s.step lines c rest.head? with
    | error e => rfl
    | ok t => exact ih (ready_step hready h).1

end Scanner

/-- What a text is read as; none if the scanner stops. -/
def reading? (text : List Char) : Option Reading :=
  ({} : Reading).read text

/-- The tokens of a text, which may be none at all; none if the scanner stops. -/
def lexed (text : String) : Option (List Lexeme) :=
  (({} : Scanner).run (lines text).toArray text.toList).toOption.map fun s =>
    s.tokens.reverse.map (·.lexeme)

theorem lexed_eq (text : String) : lexed text = (reading? text.toList).map (·.lexemes) := by
  have hread : reading? text.toList = _ :=
    (Scanner.run_reading (s := {}) (lines text).toArray ⟨nofun, nofun⟩).symm
  rw [lexed, hread, Option.map_map]
  rfl

/-- Tokens and errors are those of the reading. -/
theorem scan_eq (debugging : Bool) (text : String) (console : Console) :
    (scan debugging text console).1.map (·.map (·.lexeme)) =
        ((reading? text.toList).map (·.lexemes)).filter (!·.isEmpty) ∧
      (scan debugging text console).2.hasErrors =
        ((reading? text.toList).all fun r => r.flawed || r.lexemes.isEmpty) := by
  have hread : reading? text.toList = _ := (Scanner.run_reading (lines text).toArray
    (s := { console := console.restart debugging }) ⟨nofun, nofun⟩).symm
  rw [hread]
  unfold scan
  dsimp only
  generalize Scanner.run _ _ text.toList = ran
  cases ran with
  | error e =>
    refine ⟨rfl, ?_⟩
    dsimp only [bind, Except.bind]
    rw [hasErrors_close, hasErrors_error]
    rfl
  | ok s =>
    dsimp only [bind, Except.bind, Except.toOption, Option.map_some]
    cases htokens : s.tokens.isEmpty with
    | true =>
      have hread : s.reading.lexemes = [] := by
        simp [Scanner.reading, List.isEmpty_iff.mp htokens]
      rw [hread]
      refine ⟨rfl, ?_⟩
      dsimp only [throw, throwThe, MonadExceptOf.throw]
      rw [if_pos rfl, hasErrors_close, hasErrors_error]
      simp [hread]
    | false =>
      have hread : s.reading.lexemes.isEmpty = false := by
        simpa [Scanner.reading] using htokens
      dsimp only [pure, Except.pure]
      rw [if_neg Bool.false_ne_true]
      refine ⟨?_, ?_⟩
      · rw [Option.filter_some, if_pos (by rw [hread, Bool.not_false])]
        rfl
      · dsimp only
        rw [hasErrors_close, Option.all_some, hread, Bool.or_false, hasErrors,
          debugBlock_log]
        rfl

theorem scan_of_reading? {text : String} {r : Reading} (h : reading? text.toList = some r)
    (hls : r.lexemes ≠ []) (hclean : r.flawed = false) (debugging : Bool) (console : Console) :
    ∃ tokens, (scan debugging text console).1 = some tokens ∧
      tokens.map (·.lexeme) = r.lexemes ∧ (scan debugging text console).2.hasErrors = false := by
  obtain ⟨htokens, herrors⟩ := scan_eq debugging text console
  have hne : r.lexemes.isEmpty = false := List.isEmpty_eq_false_iff.mpr hls
  rw [h, Option.map_some, Option.filter_some, if_pos (by rw [hne, Bool.not_false])] at htokens
  obtain ⟨tokens, hscan, hlexemes⟩ := Option.map_eq_some_iff.mp htokens
  refine ⟨tokens, hscan, hlexemes, ?_⟩
  rw [herrors, h, Option.all_some, hne, hclean, Bool.or_false]

end TableScript
