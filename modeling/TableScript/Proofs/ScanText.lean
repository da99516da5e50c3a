import Mathlib.Data.List.Forall2
import TableScript.Proofs.ScanReadings

/-!
# What the tokens spell

The tokens of a program spell the program, less the characters that belong to no token. Which these
are depends on the `Zone` that a character stands in alone: `Zone.kept` are the characters of a text
that belong to tokens, in their order.

The main result is `scan_spells`. A reading has tokens and the beginning of a word; what these
spell, together with what is kept of the rest of the text, stays the same along the text
(`Reading.step_spells`, `Reading.read_spells`). Where a delimiter of two marks has been read at the
first of them, the second one is left out of the rest.
-/

namespace TableScript

variable {c : Char} {l : Lexeme} {text : List Char} {debugging : Bool} {console : Console}
  {tokens : List Token}

namespace Zone

/-- The characters of a text that belong to tokens. -/
def kept (r : Zone) : List Char → List Char
  | [] => []
  | c :: rest => if r.keeps c then c :: (r.after c).kept rest else (r.after c).kept rest

/-- The characters of a text that there is a warning about. -/
def strays (r : Zone) : List Char → List Char
  | [] => []
  | c :: rest => if r.warns c then c :: (r.after c).strays rest else (r.after c).strays rest

theorem kept_cons_of_keeps {r : Zone} (h : r.keeps c) (rest : List Char) :
    r.kept (c :: rest) = c :: (r.after c).kept rest := by
  rw [kept, if_pos h]

theorem strays_cons (r : Zone) (c : Char) (rest : List Char) :
    r.strays (c :: rest) = (if r.warns c then [c] else []) ++ (r.after c).strays rest := by
  rw [strays]
  split <;> rfl

end Zone

/-! ## Texts of tokens -/

variable {s : String}

theorem Keyword.text_of_ofText? {k : Keyword} (h : Keyword.ofText? s = some k) : k.text = s := by
  simpa using List.find?_some h

theorem Delimiter.text_of_ofText? {d : Delimiter} (h : Delimiter.ofText? s = some d) :
    d.text = s := by
  simpa using List.find?_some h

theorem text_of_lexemeOf? (h : lexemeOf? s = some l) : l.text = s := by
  unfold lexemeOf? at h
  split at h
  · next k hk =>
      cases h
      exact Keyword.text_of_ofText? hk
  · split at h
    · cases h
      rfl
    · split at h
      · cases h
        rfl
      · cases h

/-- What lexemes spell together. -/
def spelling (ls : List Lexeme) : List Char :=
  ls.flatMap (·.text.toList)

theorem text_of_delimiterOf (h : delimiterOf c = .ok l) : l.text.toList = [c] := by
  unfold delimiterOf at h
  split at h
  · next d hd =>
      cases h
      rw [Lexeme.text, Delimiter.text_of_ofText? hd, String.toList_singleton]
  · cases h

theorem spelling_of_delimitersOf {next : Option Char} {ls : List Lexeme}
    (h : delimitersOf c next = .ok ls) : spelling ls = c :: next.toList := by
  unfold delimitersOf at h
  split at h
  · obtain ⟨l, hl, h⟩ := Except.ok_of_bind h
    cases h
    simp [spelling, text_of_delimiterOf hl]
  · next next =>
      split at h
      · next d hd =>
          cases h
          simp [spelling, Lexeme.text, Delimiter.text_of_ofText? hd]
      · obtain ⟨l, hl, h⟩ := Except.ok_of_bind h
        obtain ⟨l', hl', h⟩ := Except.ok_of_bind h
        cases h
        simp [spelling, text_of_delimiterOf hl, text_of_delimiterOf hl']

/-! ## Readings -/

namespace Reading

variable {r r' : Reading} {c : Char} {rest : List Char}

/-- What the tokens so far and the current word spell. -/
def spelled (r : Reading) : List Char :=
  spelling r.lexemes ++ r.word

/-- What is spelled so far, and what the rest of the text will add to it. -/
def spells (r : Reading) (rest : List Char) : List Char :=
  r.spelled ++ (r.zone.kept rest).drop (if r.skip then 1 else 0)

theorem spelled_endWord (h : isFlaw r.word = false) : r.endWord.spelled = r.spelled := by
  cases hl : lexemeOf? (String.ofList r.word) with
  | some l => simp [endWord, spelled, spelling, wordLexemes, hl, text_of_lexemeOf? hl]
  | none =>
    have hword : r.word = [] := by simpa [isFlaw, wordLexemes, hl] using h
    simp [endWord, spelled, wordLexemes_nil, hword]

theorem spells_of_spelled (hskip : r.skip = false) (hskip' : r'.skip = false)
    (hzone : r'.zone = r.zone.after c)
    (h : r'.spelled = r.spelled ++ if r.zone.keeps c then [c] else []) :
    r'.spells rest = r.spells (c :: rest) := by
  rw [spells, spells, hskip, hskip', hzone, h, Zone.kept]
  split <;> simp

theorem mark_spells (hzone : r.zone = .plain) (hskip : r.skip = false) (hword : r.word = [])
    (hc : isMark c) (h : r.mark c (rest.head?.filter isMark) = some r') :
    r'.spells rest = r.spells (c :: rest) := by
  obtain ⟨ls, hls, rfl⟩ := Option.map_eq_some_iff.mp h
  obtain ⟨hkeeps, hafter, -⟩ := plain_of_isMark hc
  have hspelling : spelling ls = c :: (rest.head?.filter isMark).toList := by
    cases hmarks : delimitersOf c (rest.head?.filter isMark) with
    | error f =>
      rw [hmarks] at hls
      cases hls
    | ok ls' =>
      rw [hmarks] at hls
      cases hls
      exact spelling_of_delimitersOf hmarks
  have hspelled : spelling (r.lexemes ++ ls) = spelling r.lexemes ++ spelling ls :=
    List.flatMap_append
  simp only [spells, spelled, hspelled, hspelling, hskip, hword, hzone,
    Zone.kept_cons_of_keeps hkeeps, hafter]
  cases hnext : rest.head?.filter isMark with
  | none => simp
  | some d =>
    obtain ⟨hd, hmark⟩ := Option.filter_eq_some_iff.mp hnext
    obtain ⟨rest, rfl⟩ := List.head?_eq_some_iff.mp hd
    simp [Zone.kept_cons_of_keeps (plain_of_isMark hmark).1]

/-- A step does not change what is spelt in the end. -/
theorem step_spells (hready : r.Ready (some c)) (h : r.step c rest.head? = some r')
    (hclean : r'.flawed = false) : r'.spells rest = r.spells (c :: rest) := by
  simp only [step] at h
  split at h
  · cases h
  split at h
  · next hends =>
      cases h
      obtain ⟨hmark, hkeeps, -⟩ := Zone.fate_of_ends hends
      have hskip := hready.skip_eq_false (by simp [hmark])
      refine spells_of_spelled hskip hskip rfl ?_
      rw [hkeeps, if_neg Bool.false_ne_true, List.append_nil]
      exact spelled_endWord (r := r.move c) (Bool.or_eq_false_iff.mp hclean).2
  split at h
  · next hskip =>
      cases h
      obtain ⟨hzone, d, hd, hmark⟩ := hready hskip
      cases hd
      obtain ⟨hkeeps, hafter, -⟩ := plain_of_isMark hmark
      simp [spells, spelled, move, hskip, hzone, hafter, Zone.kept_cons_of_keeps hkeeps]
  next hskip =>
  have hskip := Bool.eq_false_iff.mpr hskip
  split at h
  · next hmark =>
      rw [Bool.and_eq_true, beq_iff_eq] at hmark
      rw [move_of_after (by rw [hmark.1, (plain_of_isMark hmark.2).2.1])] at h
      have hflaw : isFlaw r.word = false := by
        obtain ⟨ls, -, rfl⟩ := Option.map_eq_some_iff.mp h
        exact (Bool.or_eq_false_iff.mp hclean).2
      rw [mark_spells (r := r.endWord) hmark.1 hskip rfl hmark.2 h, spells, spelled_endWord hflaw]
      rfl
  · cases h
    have hzone : (r.gather c).zone = r.zone.after c ∧ (r.gather c).skip = false := by
      unfold gather
      split <;> exact ⟨rfl, hskip⟩
    refine spells_of_spelled hskip hzone.2 hzone.1 ?_
    unfold gather
    split <;> simp [spelled, move]

theorem flawed_of_read (h : r.read text = some r') (hclean : r'.flawed = false) :
    r.flawed = false := by
  have hr : r = ({ r with flawed := false } : Reading).beyond [] r.flawed := by
    simp [beyond]
  rw [hr, read_beyond] at h
  obtain ⟨t, -, rfl⟩ := Option.map_eq_some_iff.mp h
  exact (Bool.or_eq_false_iff.mp hclean).1

/-- The tokens spell what is kept of the text. -/
theorem read_spells (hready : r.Ready text.head?) (h : r.read text = some r')
    (hclean : r'.flawed = false) : spelling r'.lexemes = r.spells text := by
  induction text generalizing r with
  | nil =>
    cases h
    have hspelled := spelled_endWord (r := r) (Bool.or_eq_false_iff.mp hclean).2
    rw [spelled, endWord, List.append_nil] at hspelled
    simp [endWord, hspelled, spells, Zone.kept]
  | cons c rest ih =>
    rw [read_cons] at h
    obtain ⟨t, ht, h⟩ := Option.bind_eq_some_iff.mp h
    rw [ih (ready_step hready ht).1 h, step_spells hready ht (flawed_of_read h hclean)]

end Reading

theorem spelling_of_scan {text : String} (h : (scan debugging text console).1 = some tokens)
    (hclean : (scan debugging text console).2.hasErrors = false) :
    spelling (tokens.map (·.lexeme)) = Zone.plain.kept text.toList := by
  obtain ⟨htokens, herrors⟩ := scan_eq debugging text console
  rw [h, Option.map_some, eq_comm, Option.filter_eq_some_iff] at htokens
  obtain ⟨r, hread, hlexemes⟩ := Option.map_eq_some_iff.mp htokens.1
  rw [hclean, hread, Option.all_some, eq_comm, Bool.or_eq_false_iff] at herrors
  rw [← hlexemes]
  exact Reading.read_spells (fun hskip => by cases hskip) hread herrors.1

/-! ## Warnings -/

namespace Scanner

variable {lines : Array String} {s s' : Scanner} {c : Char} {rest : List Char} {next : Option Char}

/-- Do the messages report the characters, in their order? -/
def Report (cs : List Char) (messages : List String) : Prop :=
  List.Forall₂ (fun c message => ∃ place, message = unexpected c place) cs messages

theorem report_of_not_warns {r : Zone} {ws : List String} (h : r.warns c = false) :
    ∃ messages, Report (if r.warns c then [c] else []) messages ∧ ws = ws ++ messages := by
  rw [h]
  exact ⟨[], .nil, (List.append_nil ws).symm⟩

theorem step_warns (hready : s.Ready (c :: rest)) (h : s.step lines c next = .ok s') :
    ∃ messages, Report (if s.zone.warns c then [c] else []) messages ∧
      s'.console.log.warnings = s.console.log.warnings ++ messages := by
  obtain ⟨line, column, -, hstepped⟩ := stepped_of_step h
  generalize s.step lines c next = result at hstepped h
  cases hstepped with
  | stray hc place =>
    cases h
    rw [expects_eq, Bool.or_eq_false_iff, Bool.not_eq_false'] at hc
    obtain ⟨-, -, -, -, hwarns⟩ := Zone.fate_of_isStray (zone_ne_quoted hc.1) hc.2
    rw [if_pos (show s.zone.warns c from hwarns)]
    exact ⟨_, .cons ⟨place, rfl⟩ .nil, rfl⟩
  | sharp hc hquoted =>
    cases h
    subst hc
    exact report_of_not_warns (Zone.fate_of_sharp (zone_ne_quoted hquoted)).2.2.2
  | comment hc hcomment =>
    cases h
    rw [expects_eq, show s.quoted = false from hready.comment hcomment, Bool.false_or,
      Bool.not_eq_true'] at hc
    refine report_of_not_warns ?_
    rw [show s.zone = .comment from zone_comment hcomment, Zone.warns, hc]
  | gap hcomment hgap =>
    obtain ⟨word, tokens, console, hend, hwarnings⟩ :=
      endWord_flags lines { s with line, column } 1
    rw [hend] at h
    cases h
    rw [hwarnings]
    exact report_of_not_warns (Zone.fate_of_ends ((ends_zone hcomment c).trans hgap)).2.2.2
  | skip hskip =>
    cases h
    obtain ⟨hzone, d, hd, hmark⟩ := hready.skip hskip
    cases hd
    exact report_of_not_warns (hzone ▸ (plain_of_isMark hmark).2.2)
  | mark hcomment _ hquoted hmark =>
    obtain ⟨word, tokens, console, rfl, hwarnings⟩ := mark_endWord h
    rw [hwarnings]
    refine report_of_not_warns ?_
    rw [show s.zone = .plain from zone_plain hcomment hquoted, (plain_of_isMark hmark).2.2]
  | gathered hc hsharp hcomment hgap =>
    cases h
    rw [gather_eq]
    exact report_of_not_warns (fate_of_gathered hcomment hc hsharp hgap).2.2

theorem run_warns (hready : s.Ready text) (h : s.run lines text = .ok s') :
    ∃ messages, Report (s.zone.strays text) messages ∧
      s'.console.log.warnings = s.console.log.warnings ++ messages := by
  induction text generalizing s with
  | nil =>
    cases h
    obtain ⟨word, tokens, console, hend, hwarnings⟩ := endWord_flags lines s 0
    rw [hend]
    exact ⟨[], .nil, hwarnings.trans (List.append_nil _).symm⟩
  | cons c rest ih =>
    obtain ⟨t, ht, h⟩ := Except.ok_of_bind h
    obtain ⟨first, hfirst, hstep⟩ := step_warns hready ht
    obtain ⟨hready, hzone⟩ := ready_step hready ht
    obtain ⟨messages, hreport, hwarnings⟩ := ih hready h
    refine ⟨first ++ messages, ?_, ?_⟩
    · rw [Zone.strays_cons, ← hzone]
      exact List.rel_append hfirst hreport
    · rw [hwarnings, hstep, List.append_assoc]

end Scanner

/-! ## The tokens of a text -/

theorem toList_join_text (tokens : List Token) :
    (String.join (tokens.map (·.lexeme.text))).toList = spelling (tokens.map (·.lexeme)) := by
  simp [spelling, List.flatMap_map]

theorem Console.warnings_close (c : Console) : c.close.log.warnings = c.log.warnings ++
    if c.log.warnings.isEmpty then [] else ["One or more warnings occurred"] := by
  have herror (c : Console) (text : String) :
      (if c.hasErrors then c.error text else c).log.warnings = c.log.warnings := by
    split <;> rfl
  rw [Console.close, herror, Console.hasWarnings]
  cases c.log.warnings.isEmpty with
  | true => exact (List.append_nil _).symm
  | false => rfl

theorem scan_ok {text : String} (h : (scan debugging text console).1 = some tokens) :
    ∃ s : Scanner,
      Scanner.run (Text.lines text).toArray { console := console.restart debugging } text.toList =
        .ok s ∧
      tokens = s.tokens.reverse ∧
      (scan debugging text console).2 =
        (s.console.debugBlock "TOKENS" fun _ => tokenListing s.tokens.reverse).close := by
  unfold scan at h ⊢
  dsimp only at h ⊢
  split at h
  · next s hs =>
      cases h
      obtain ⟨t, hrun, ht⟩ := Except.ok_of_bind hs
      split at ht
      · cases ht
      · cases ht
        exact ⟨s, hrun, rfl, rfl⟩
  · cases h

/-- Scanning loses, doubles and moves nothing: where there is no error, the tokens spell the text,
less what stands in comments, white space, spaces in quotation marks apart, and the characters that
the warnings report. -/
theorem scan_spells {debugging : Bool} {text : String} {console : Console} {tokens : List Token}
    (h : (scan debugging text console).1 = some tokens)
    (hclean : (scan debugging text console).2.hasErrors = false) :
    String.join (tokens.map (·.lexeme.text)) = String.ofList (Zone.plain.kept text.toList) ∧
      ∃ messages, Scanner.Report (Zone.plain.strays text.toList) messages ∧
        (scan debugging text console).2.log.warnings =
          messages ++ if messages.isEmpty then [] else ["One or more warnings occurred"] := by
  have hspelling := spelling_of_scan h hclean
  obtain ⟨s, hrun, rfl, hconsole⟩ := scan_ok h
  rw [hconsole, Console.warnings_close, Console.debugBlock_log]
  have hready : Scanner.Ready { console := console.restart debugging } text.toList :=
    ⟨nofun, nofun⟩
  obtain ⟨messages, hreport, hmessages⟩ := Scanner.run_warns hready hrun
  refine ⟨?_, messages, hreport, ?_⟩
  · rw [← String.toList_inj, toList_join_text, hspelling, String.toList_ofList]
  · rw [hmessages]
    rfl

/-- A comment, a stray sign, quoted spaces and marks, and two marks that are one delimiter. -/
theorem scan_spells_quoted :
    ∃ tokens, (scan false "let s=>\"a # ,b\" ; # no, 'end'\n?x" {}).1 = some tokens ∧
      String.join (tokens.map (·.lexeme.text)) = "lets=>\"a # ,b\";x" ∧
      (scan false "let s=>\"a # ,b\" ; # no, 'end'\n?x" {}).2.log.warnings.length = 2 := by
  have htokens : ∃ tokens, (scan false "let s=>\"a # ,b\" ; # no, 'end'\n?x" {}).1 =
    some tokens :=
    Option.isSome_iff_exists.mp (by decide +kernel)
  obtain ⟨tokens, h⟩ := htokens
  obtain ⟨hspelling, messages, hreport, hwarnings⟩ := scan_spells h (by decide +kernel)
  have hlength : messages.length = 1 := hreport.length_eq.symm.trans (by decide +kernel)
  refine ⟨tokens, h, hspelling.trans (by decide +kernel), ?_⟩
  obtain ⟨message, rfl⟩ := List.length_eq_one_iff.mp hlength
  rw [hwarnings]
  rfl

end TableScript
