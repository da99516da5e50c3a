import TableScript.Proofs.Precedence
import TableScript.Proofs.SpacedTokens

/-!
# Texts between quotation marks

Either quotation mark ends a quoted part that the other one has started. A text between double
quotation marks is one word all the same if what stands outside of its quoted parts could stand in
any word (`Zone.joins`). Else the word ends before the second double quotation mark, and is an error
(`Reading.flawed_of_not_joins`), or there is a warning.
-/

namespace TableScript

open ParseM Text ParseState

namespace Zone

/-- Can every character of a text stand in a word, in the zone that it stands in? -/
def joins (z : Zone) : List Char → Bool
  | [] => true
  | c :: rest =>
    (z == .quoted || isQuote c || Text.isAlnum c || c == '_') && (z.after c).joins rest

variable {z : Zone} {c : Char}

theorem joins_cons_iff {rest : List Char} : z.joins (c :: rest) ↔
    (z = .quoted ∨ isQuote c ∨ isAlnum c ∨ c = '_') ∧ (z.after c).joins rest := by
  simp [joins, or_assoc]

theorem joins_append_quote (s : List Char) : z.joins (s ++ ['"']) = z.joins s := by
  induction s generalizing z with
  | nil => simp [joins, show isQuote '"' by decide]
  | cons c s ih => rw [List.cons_append, joins, joins, ih]

theorem fate_of_word (h : isQuote c ∨ isAlnum c ∨ c = '_') :
    isMark c = false ∧ Zone.plain.ends c = false ∧ Zone.plain.keeps c ∧
      Zone.plain.warns c = false ∧ Zone.plain.after c ≠ .comment := by
  have hword : (isQuote c || isAlnum c || c == '_') = true := by simpa [or_assoc] using h
  have hne : ∀ d, (isQuote d || isAlnum d || d == '_') = false → c ≠ d := by
    rintro d hd rfl
    exact absurd (hd.symm.trans hword) Bool.false_ne_true
  have hmark : isMark c = false := by
    have hall : marks.all (fun c => !(isQuote c || isAlnum c || c == '_')) = true := by
      decide +kernel
    refine Bool.eq_false_iff.mpr fun hmark => ?_
    have := List.all_eq_true.mp hall c (List.contains_iff_mem.mp hmark)
    rw [hword] at this
    cases this
  have hblank : isBlank c = false := by
    rcases h with h | h | rfl
    · rw [isQuote, Bool.or_eq_true, beq_iff_eq, beq_iff_eq] at h
      rcases h with rfl | rfl <;> decide +kernel
    · exact isBlank_eq_false_of_isAlnum h
    · decide +kernel
  have hstray : isStray c = false := by
    rcases h with h | h | h <;> simp [isStray, h]
  refine ⟨hmark, ?_, ?_, hstray, ?_⟩
  · simp [ends, hne '\n' (by decide +kernel), hne '\r' (by decide +kernel),
      hne '\t' (by decide +kernel), hne ' ' (by decide +kernel)]
  · simp [keeps, hblank, hstray, hne '#' (by decide +kernel)]
  · rw [after, if_neg (by simpa using hne '#' (by decide +kernel))]
    split <;> simp

end Zone

/-! ## Words -/

namespace Reading

variable {r : Reading} {c : Char} {s w : List Char}

theorem step_joins (hblank : isBlank c → c = ' ') (hzone : r.zone ≠ .comment)
    (hskip : r.skip = false) (hc : r.zone = .quoted ∨ isQuote c ∨ isAlnum c ∨ c = '_')
    (next : Option Char) :
    r.step c next = some { r.move c with word := r.word ++ [c] } ∧ r.zone.after c ≠ .comment ∧
      r.zone.warns c = false := by
  have hne : ∀ d, isBlank d → d ≠ ' ' → c ≠ d := by
    rintro d hd hspace rfl
    exact hspace (hblank hd)
  have htab := hne '\t' (by decide) (by decide)
  cases hz : r.zone with
  | comment => exact absurd hz hzone
  | quoted =>
    have hends : r.zone.ends c = false := by
      simp [hz, Zone.ends, htab, hne '\n' (by decide) (by decide), hne '\r' (by decide) (by decide)]
    have hkeeps : r.zone.keeps c := by
      cases hb : isBlank c with
      | false => simp [hz, Zone.keeps, hb]
      | true => simp [hz, Zone.keeps, hblank hb]
    refine ⟨?_, ?_, rfl⟩
    · rw [step_of_gathers htab hends hskip (by rw [hz]; rfl), gather_of_keeps hkeeps]
    · rw [Zone.after]
      split <;> simp
  | plain =>
    obtain ⟨hmark, hends, hkeeps, hwarns, hafter⟩ :=
      Zone.fate_of_word (hc.resolve_left (by simp [hz]))
    refine ⟨?_, hafter, hwarns⟩
    rw [step_of_gathers htab (hz ▸ hends) hskip (by rw [hmark, Bool.and_false]),
      gather_of_keeps (hz ▸ hkeeps)]

theorem read_joins (hblank : ∀ c ∈ s, isBlank c → c = ' ') (hzone : r.zone ≠ .comment)
    (hskip : r.skip = false) (h : r.zone.joins s) :
    r.zone.strays s = [] ∧ ∃ r', r.read s = some r' ∧
      r'.lexemes = r.lexemes ++ wordLexemes (r.word ++ s) ∧
      r'.flawed = (r.flawed || isFlaw (r.word ++ s)) := by
  induction s generalizing r with
  | nil =>
    rw [List.append_nil]
    exact ⟨rfl, r.endWord, rfl, rfl, rfl⟩
  | cons c s ih =>
    obtain ⟨hc, h⟩ := Zone.joins_cons_iff.mp h
    obtain ⟨hstep, hafter, hwarns⟩ :=
      step_joins (hblank c List.mem_cons_self) hzone hskip hc s.head?
    obtain ⟨hstrays, r', hread, hread'⟩ := ih (r := { r.move c with word := r.word ++ [c] })
      (fun d hd => hblank d (List.mem_cons_of_mem _ hd)) hafter hskip h
    refine ⟨?_, r', ?_, by simpa [move] using hread'⟩
    · rw [Zone.strays_cons, hwarns]
      exact hstrays
    · rw [read_cons, hstep]
      exact hread

theorem isFlaw_of_not_mem (hw : w ≠ []) (hquote : '"' ∉ w) : isFlaw ('"' :: w) = true := by
  have hlast : w.getLast? ≠ some '"' := fun h => hquote (List.mem_of_getLast? h)
  have hne : ∀ text : String, text.toList.head? ≠ some '"' → String.ofList ('"' :: w) ≠
      text := by
    rintro text htext rfl
    exact htext (by rw [String.toList_ofList]; rfl)
  have hvalue : isValueWord (String.ofList ('"' :: w)) = false := by
    simp only [isValueWord, isNumericWord, isBetween, String.toList_ofList, List.all_cons,
      List.getLast?_cons_of_ne_nil hw, show isNumeric '"' = false by decide,
      beq_eq_false_iff_ne.mpr (hne "true" (by decide)),
      beq_eq_false_iff_ne.mpr (hne "false" (by decide)), beq_eq_false_iff_ne.mpr hlast]
    simp
  have hnone : lexemeOf? (String.ofList ('"' :: w)) = none := by
    rw [lexemeOf?, keyword_ofText?_eq_none rfl]
    dsimp only
    rw [hvalue, if_neg Bool.false_ne_true, if_neg]
    simp [isIdentifier, show isIdentStart '"' = false by decide]
  rw [isFlaw, wordLexemes, hnone]
  rfl

/-- A text between quotation marks that falls apart is an error. -/
theorem flawed_of_not_joins (hword : r.word = '"' :: w) (hw : r.zone = .quoted ∨ w ≠ [])
    (hquote : '"' ∉ w ++ s) (hblank : ∀ c ∈ s, isBlank c → c = ' ')
    (hzone : r.zone ≠ .comment) (hskip : r.skip = false) (h : ¬ r.zone.joins s)
    (hstrays : r.zone.strays (s ++ ['"']) = []) {r' : Reading}
    (hread : r.read (s ++ ['"']) = some r') : r'.flawed := by
  induction s generalizing r w with
  | nil => exact absurd rfl h
  | cons c s ih =>
    rw [List.cons_append, Zone.strays_cons, List.append_eq_nil_iff] at hstrays
    rw [List.cons_append, read_cons] at hread
    have hrest : ∀ d ∈ s, isBlank d → d = ' ' :=
      fun d hd => hblank d (List.mem_cons_of_mem _ hd)
    by_cases hc : r.zone = .quoted ∨ isQuote c ∨ isAlnum c ∨ c = '_'
    · obtain ⟨hstep, hafter, -⟩ :=
        step_joins (hblank c List.mem_cons_self) hzone hskip hc (s ++ ['"']).head?
      rw [hstep] at hread
      exact ih (r := { r.move c with word := r.word ++ [c] }) (w := w ++ [c]) (by rw [hword]; rfl)
        (.inr (by simp)) (by simpa using hquote) hrest hafter hskip
        (fun hjoins => h (Zone.joins_cons_iff.mpr ⟨hc, hjoins⟩)) hstrays.2 hread
    · -- The word ends here, or a comment starts that goes on to the end.
      simp only [not_or, Bool.not_eq_true] at hc
      have hplain : r.zone = .plain := by
        cases hz : r.zone <;> simp_all
      have hflaw : r.endWord.flawed := by
        rw [endWord, hword, isFlaw_of_not_mem (hw.resolve_left hc.1)
          fun hmem => hquote (List.mem_append_left _ hmem), Bool.or_true]
      have hfate : c = ' ' ∨ c = '#' ∨ isMark c := by
        have hstray : isStray c = false := by simpa [hplain, Zone.warns] using hstrays.1
        simp only [isStray, hc, beq_eq_false_iff_ne.mpr hc.2.2.2, Bool.false_or, Bool.or_false,
          Bool.not_eq_false', Bool.or_eq_true, beq_iff_eq] at hstray
        rcases hstray with (hb | hb) | hb
        · exact .inl (hblank c List.mem_cons_self hb)
        · exact .inr (.inl hb)
        · exact .inr (.inr hb)
      have hstays : ∀ t : Reading, t.read (s ++ ['"']) = some r' → t.flawed → r'.flawed := by
        intro t hread ht
        by_contra hclean
        rw [flawed_of_read hread (Bool.eq_false_iff.mpr hclean)] at ht
        cases ht
      rcases hfate with rfl | rfl | hmark
      · rw [step_of_ends (by decide) (by rw [hplain]; rfl)] at hread
        exact hstays _ hread hflaw
      · have hline : '\t' ∉ s ++ ['"'] ∧ '\n' ∉ s ++ ['"'] := by
          have hne : ∀ d, isBlank d → d ≠ ' ' → d ∉ s :=
            fun d hd hspace hmem => hspace (hrest d hmem hd)
          simp [hne '\t' (by decide) (by decide), hne '\n' (by decide) (by decide)]
        rw [step_sharp hplain hskip, Option.bind_some, read,
          reach_comment (r := { r with zone := .comment }) rfl hskip hline] at hread
        cases hread
        exact hflaw
      · rw [step_of_isMark hplain hskip hmark] at hread
        obtain ⟨t, ht, hread⟩ := Option.bind_eq_some_iff.mp hread
        obtain ⟨ls, -, rfl⟩ := Option.map_eq_some_iff.mp ht
        exact hstays _ hread hflaw

end Reading

/-! ## Literals -/

namespace Parser

variable {g : Grammar} {s : ParseState} {text content : String}

theorem exec_operandRule_quoted (hg : 0 < g.rounds) (hs : s.lexemes = [.value text])
    (hquoted : isQuoted text) (htext : quotedLiteral text = .string content) :
    (operandRule g).exec s =
      (.ok (literalExpr (s.rest.head?.map (·.position)) (.string content)), s.skip 1) := by
  have hnext := next?_of_lexemes hs
  have hbird : (s.skip 1).next? ≠ some (.delimiter .bird) := by
    simp [next?_eq, lexemes_skip_one hs]
  have hkeyword : ∀ k, s.next? ≠ some (.keyword k) := by simp [hnext]
  have hatom : (atomRule g).exec s =
      (.ok (literalExpr (s.rest.head?.map (·.position)) (.string content)), s.skip 1) := by
    rw [atomRule, exec_bind_here, exec_bind_peekLexeme, hnext]
    simp only [literalRule, acceptKeyword]
    rw [exec_bind_here, exec_refuses (hkeyword _), exec_refuses (hkeyword _),
      exec_refuses (hkeyword _), exec_bind_peekLexeme, hnext]
    dsimp only
    rw [if_pos hquoted, exec_bind_of (exec_advance_skip s), htext]
    rfl
  have happlied : (applicationRule g).exec s =
      (.ok (literalExpr (s.rest.head?.map (·.position)) (.string content)), s.skip 1) := by
    rw [applicationRule, exec_bind_here, exec_bind_of hatom]
    rfl
  rw [exec_operandRule hnext rfl, exec_bind_of happlied, exec_bind_of (exec_pipeline hg hbird _)]
  rfl

theorem parse_quoted {token : Token} (htoken : token.lexeme = .value text)
    (hquoted : isQuoted text) (htext : quotedLiteral text = .string content) (debugging : Bool)
    (types : TypeStore) (console : Console) :
    ∃ s, parse debugging [token] types console =
        (.ok (literalExpr (some token.position) (.string content)), s) ∧
      s.rest = [] ∧ s.console.log = { debugging } := by
  let start := start debugging types console [token]
  have hs : start.lexemes = [.value text] := congrArg (fun l => [l]) htoken
  have hnext := next?_of_lexemes hs
  have hsimple : (simpleRule (grammar false 2)).exec start =
      (.ok (literalExpr (some token.position) (.string content)), start.skip 1) := by
    rw [exec_simpleRule hnext rfl, operatorsRule, exec_bind_here,
      exec_bind_of (exec_operandRule_quoted (by decide) hs hquoted htext)]
    exact exec_operatorsFrom_stops .nothing _ _ _
  obtain ⟨more, hexec⟩ := exec_expressionRule_plain (g := grammar false 2) hnext rfl
  refine ⟨_, parse_ok_iff.mpr ⟨start.skip 1, hexec.trans ?_, rfl⟩, rfl,
    Console.showTree_log _ _⟩
  rw [exec_bind_of hsimple]
  rfl

end Parser

/-- A text between double quotation marks. -/
def doubleQuoted (s : List Char) : String :=
  String.ofList ('"' :: s ++ ['"'])

theorem toList_doubleQuoted (s : List Char) : (doubleQuoted s).toList = '"' :: (s ++ ['"']) :=
  String.toList_ofList

theorem quotedLiteral_doubleQuoted {s : List Char} (hs : s ≠ []) (hquote : '"' ∉ s) :
    Parser.quotedLiteral (doubleQuoted s) = .string (String.ofList s) := by
  have hfilter : s.filter (· != '"') = s :=
    List.filter_eq_self.mpr fun c hc => bne_iff_ne.mpr fun h => hquote (h ▸ hc)
  have hwithout : without '"' (doubleQuoted s) = String.ofList s := by
    rw [without, toList_doubleQuoted]
    simp [hfilter]
  obtain ⟨c, t, rfl⟩ := List.exists_cons_of_ne_nil hs
  rw [Parser.quotedLiteral, toList_doubleQuoted, hwithout]
  split <;> simp_all

/-- A text between double quotation marks, with none inside and with spaces as its only white space,
is read as one literal with this text, without errors and warnings, iff all its characters can stand
in a word: those after an odd number of apostrophes are apostrophes, letters, digits and
underscores. -/
theorem quoted_text_iff {s : List Char} (hs : s ≠ []) (hquote : '"' ∉ s)
    (hblank : s.all fun c => c == ' ' || !Text.isBlank c) (debugging : Bool) (types : TypeStore)
    (console : Console) :
    (∃ token scanned note after,
      scan debugging (doubleQuoted s) console = (some [token], scanned) ∧
      scanned.hasErrors = false ∧ scanned.hasWarnings = false ∧
      parse debugging [token] types scanned =
        (.ok (.literal note (.string (String.ofList s))), after) ∧
      after.rest = [] ∧ after.console.hasErrors = false ∧ after.console.hasWarnings = false) ↔
    Zone.quoted.joins s := by
  have hspace : ∀ c ∈ s, isBlank c → c = ' ' := by
    intro c hc hcblank
    simpa [hcblank] using List.all_eq_true.mp hblank c hc
  -- After the first quotation mark, it is the word so far.
  have hread : reading? (doubleQuoted s).toList =
      ({ zone := .quoted, word := ['"'] } : Reading).read (s ++ ['"']) := by
    rw [toList_doubleQuoted]
    exact Reading.read_cons {} '"' _
  have hstrays : Zone.plain.strays (doubleQuoted s).toList = Zone.quoted.strays (s ++ ['"']) := by
    rw [toList_doubleQuoted]
    rfl
  constructor
  · rintro ⟨token, scanned, -, -, hscan, herrors, hwarnings, -⟩
    obtain ⟨-, messages, hreport, hlog⟩ := scan_spells (congrArg Prod.fst hscan)
      ((congrArg (·.2.hasErrors) hscan).trans herrors)
    have hclean := (scan_eq debugging (doubleQuoted s) console).2
    rw [hscan] at hlog hclean
    have hnone : messages = [] := by
      rw [Console.hasWarnings, hlog] at hwarnings
      simpa using hwarnings
    rw [hnone, hstrays, Scanner.Report, List.forall₂_nil_right_iff] at hreport
    rw [herrors, hread] at hclean
    by_contra hjoins
    cases hr : ({ zone := .quoted, word := ['"'] } : Reading).read (s ++ ['"']) with
    | none => simp [hr] at hclean
    | some r =>
      have hflawed := Reading.flawed_of_not_joins (w := []) rfl (.inl rfl) hquote hspace
        (by simp) rfl hjoins hreport hr
      simp [hr, hflawed] at hclean
  · intro hjoins
    have hall : ∀ c ∈ s ++ ['"'], isBlank c → c = ' ' := by
      intro c hc hcblank
      rcases List.mem_append.mp hc with hc | hc
      · exact hspace c hc hcblank
      · rw [List.mem_singleton.mp hc] at hcblank
        exact absurd hcblank (by decide)
    obtain ⟨hnone, r, hr, hlexemes, hflawed⟩ :=
      Reading.read_joins (r := { zone := .quoted, word := ['"'] }) hall (by simp) rfl
        ((Zone.joins_append_quote s).trans hjoins)
    have hword : wordLexemes (['"'] ++ (s ++ ['"'])) = [.value (doubleQuoted s)] :=
      congrArg Option.toList (lexemeOf?_quoted (by decide) s)
    rw [hword, List.nil_append] at hlexemes
    rw [isFlaw, hword] at hflawed
    obtain ⟨tokens, hscan, hls, hclean⟩ := scan_of_reading? (hread.trans hr)
      (by rw [hlexemes]; exact List.cons_ne_nil _ _) (by rw [hflawed]; rfl) debugging console
    rw [hlexemes, List.map_eq_singleton_iff] at hls
    obtain ⟨token, rfl, htoken⟩ := hls
    obtain ⟨-, messages, hreport, hlog⟩ := scan_spells hscan hclean
    rw [hstrays, hnone, Scanner.Report, List.forall₂_nil_left_iff] at hreport
    have hquoted : Parser.isQuoted (doubleQuoted s) := by
      rw [Parser.isQuoted, toList_doubleQuoted]
      rfl
    obtain ⟨after, hparse, hrest, hafter⟩ := Parser.parse_quoted htoken hquoted
      (quotedLiteral_doubleQuoted hs hquote) debugging types _
    refine ⟨token, _, _, after, Prod.ext hscan rfl, hclean, ?_, hparse, hrest, ?_, ?_⟩
    · rw [Console.hasWarnings, hlog, hreport]
      rfl
    · rw [Console.hasErrors, hafter]
      rfl
    · rw [Console.hasWarnings, hafter]
      rfl

/-- Between two apostrophes there is a letter only. -/
theorem quoted_text_rocking : ∃ token scanned note after,
    scan false (doubleQuoted "rock 'n' (roll)".toList) {} = (some [token], scanned) ∧
      parse false [token] {} scanned = (.ok (.literal note (.string "rock 'n' (roll)")),
        after) := by
  obtain ⟨token, scanned, note, after, hscan, -, -, hparse, -⟩ :=
    (quoted_text_iff (s := "rock 'n' (roll)".toList) (by decide) (by decide) (by decide) false {}
      {}).mpr (by decide)
  exact ⟨token, scanned, note, after, hscan, hparse⟩

/-- After an apostrophe a space ends the word. -/
theorem quoted_text_broken : '"' ∉ "it's ok".toList ∧
    (scan false (doubleQuoted "it's ok".toList) {}).1 = none ∧
    (scan false (doubleQuoted "it's ok".toList) {}).2.hasErrors = true := by
  decide +kernel

end TableScript
