import TableScript.Proofs.SpacedTokens
import TableScript.Shell

/-!
# Programs typed at the prompt

A program of several lines is typed with a semicolon at the end of each line but the last
(`TypedProgram`). The prompt runs one program when the last line has been typed, and that is not the
text that was typed (`whole`) but the text without the semicolons of the lines before (`taken`).

`followLines_typed` says so, and when it matters: the two texts have the same tokens iff the
semicolons in question stand in comments, or neither text can be scanned. One direction counts
semicolons, since tokens spell the text that they come from. For the other one, a semicolon in a
comment changes nothing about what has been read (`Reading.read_erased`).
-/

namespace TableScript

open Prompt

/-! ## Zones of two texts -/

variable {c : Char} {text : List Char} {ls : List Lexeme}

namespace Zone

variable {r : Zone}

theorem kept_append (r : Zone) (text rest : List Char) :
    r.kept (text ++ rest) = r.kept text ++ (text.foldl after r).kept rest := by
  induction text generalizing r with
  | nil => rfl
  | cons c text ih =>
    rw [List.cons_append, kept, kept, ih, List.foldl_cons]
    split <;> rfl

theorem after_semicolon (r : Zone) : r.after ';' = r := by
  cases r <;> rfl

theorem eq_comment_of_not_keeps (h : r.keeps ';' = false) : r = .comment := by
  revert h
  cases r <;> decide

theorem foldl_after_erased (r : Zone) (text : List Char) :
    (text.filter (· != ';')).foldl after r = text.foldl after r := by
  induction text generalizing r with
  | nil => rfl
  | cons c text ih =>
    by_cases hc : c = ';'
    · subst hc
      rw [List.filter_cons_of_neg (by decide), ih, List.foldl_cons, after_semicolon]
    · rw [List.filter_cons_of_pos (by simpa using hc), List.foldl_cons, List.foldl_cons, ih]

theorem mem_of_mem_kept (h : c ∈ r.kept text) : c ∈ text := by
  induction text generalizing r with
  | nil => exact h
  | cons d text ih =>
    rw [kept] at h
    split at h
    · rcases List.mem_cons.mp h with rfl | h
      · exact List.mem_cons_self
      · exact List.mem_cons_of_mem _ (ih h)
    · exact List.mem_cons_of_mem _ (ih h)

variable {rest : List Char}

theorem not_keeps_of_not_mem (h : ';' ∉ r.kept (';' :: rest)) : r.keeps ';' = false := by
  refine Bool.eq_false_iff.mpr fun hkeeps => h ?_
  rw [kept_cons_of_keeps hkeeps]
  exact List.mem_cons_self

theorem not_mem_kept_tail (h : ';' ∉ r.kept (c :: rest)) : ';' ∉ (r.after c).kept rest := by
  rw [kept] at h
  split at h
  · exact fun hmem => h (List.mem_cons_of_mem _ hmem)
  · exact h

end Zone

/-! ## Semicolons in comments -/

namespace Reading

variable {r : Reading} {c : Char} {rest : List Char}

/-- Semicolons that are left out anyway make no difference. -/
theorem read_erased (hready : r.Ready (text ++ rest).head?) (htext : ';' ∉ r.zone.kept text) :
    r.read (text.filter (· != ';') ++ rest) = r.read (text ++ rest) := by
  induction text generalizing r with
  | nil => rfl
  | cons c text ih =>
    have htail := Zone.not_mem_kept_tail htext
    have hstep : ∀ t, r.step c (text ++ rest).head? = some t →
        t.read (text.filter (· != ';') ++ rest) = t.read (text ++ rest) := by
      intro t ht
      obtain ⟨hready, hzone⟩ := ready_step hready ht
      exact ih hready (hzone ▸ htail)
    by_cases hc : c = ';'
    · subst hc
      have hzone := Zone.eq_comment_of_not_keeps (Zone.not_keeps_of_not_mem htext)
      have hstay : r.step ';' (text ++ rest).head? = some r := by
        rw [step_of_gathers (by decide) (by rw [hzone]; rfl)
          (Bool.eq_false_iff.mpr fun h => by cases hzone.symm.trans (hready h).1)
          (by rw [hzone]; rfl), gather_of_not_keeps (by rw [hzone]; rfl),
          move_of_after (Zone.after_semicolon _)]
      rw [List.filter_cons_of_neg (by decide), List.cons_append, read_cons, hstay]
      exact hstep r hstay
    · have hnext : (text.filter (· != ';') ++ rest).head?.filter isMark =
          (text ++ rest).head?.filter isMark ∨ r.zone.after c = .comment := by
        -- The character that follows is the same, or a semicolon that stands in a comment.
        cases text with
        | nil => exact .inl rfl
        | cons d text =>
          by_cases hd : d = ';'
          · subst hd
            exact .inr (Zone.eq_comment_of_not_keeps (Zone.not_keeps_of_not_mem htail))
          · rw [List.filter_cons_of_pos (by simpa using hd)]
            exact .inl rfl
      rw [List.filter_cons_of_pos (by simpa using hc), List.cons_append, List.cons_append,
        read_cons, read_cons, step_congr hnext]
      exact Option.bind_congr hstep

end Reading

/-! ## The tokens of two texts -/

/-- What the tokens of a text are, if the text can be scanned without an error. -/
def lexemes? (scanned : Option (List Token) × Console) : Option (List Lexeme) :=
  if scanned.2.hasErrors then none else scanned.1.map (·.map (·.lexeme))

theorem lexemes?_eq_some {scanned : Option (List Token) × Console}
    (h : lexemes? scanned = some ls) :
    ∃ tokens, scanned.1 = some tokens ∧ tokens.map (·.lexeme) = ls ∧
      scanned.2.hasErrors = false := by
  unfold lexemes? at h
  split at h
  · cases h
  · next hclean =>
      obtain ⟨tokens, htokens, hls⟩ := Option.map_eq_some_iff.mp h
      exact ⟨tokens, htokens, hls, Bool.eq_false_iff.mpr hclean⟩

variable {text : String}

theorem spelling_of_lexemes? {debugging : Bool} {console : Console}
    (h : lexemes? (scan debugging text console) = some ls) :
    spelling ls = Zone.plain.kept text.toList := by
  obtain ⟨tokens, htokens, rfl, hclean⟩ := lexemes?_eq_some h
  exact spelling_of_scan htokens hclean

theorem lexemes?_congr {text' : String} (h : reading? text'.toList = reading? text.toList)
    (debugging : Bool) (console : Console) :
    lexemes? (scan debugging text' console) = lexemes? (scan debugging text console) := by
  rw [lexemes?, lexemes?, (scan_eq debugging text console).1, (scan_eq debugging text console).2,
    (scan_eq debugging text' console).1, (scan_eq debugging text' console).2, h]

/-! ## Typed lines -/

/-- A program of several lines, none of which is a command. A semicolon ends each line but the
last. -/
structure TypedProgram where
  earlier : List String
  last : String
  earlier_ends : ∀ line ∈ earlier, Prompt.endsIn ';' line
  last_ends : last ≠ "" ∧ Prompt.endsIn ';' last = false ∧ Prompt.endsIn '\\' last = false
  no_command : ∀ line ∈ earlier ++ [last], Command.ofLine? line = none
  no_newline : ∀ line ∈ earlier ++ [last], '\n' ∉ line.toList

namespace TypedProgram

variable (t : TypedProgram)

/-- The program as it is typed. -/
def whole : String :=
  "\n".intercalate (t.earlier ++ [t.last])

/-- The program as the prompt takes it. -/
def taken : String :=
  String.join (t.earlier.map fun line => Text.without ';' line ++ "\n") ++ t.last

/-- The lines before the last one, with their ends. -/
def beginning : List Char :=
  t.earlier.flatMap fun line => line.toList ++ ['\n']

/-- What is typed. -/
def input : List Char :=
  t.beginning ++ t.last.toList ++ ['\n']

theorem toList_whole : t.whole.toList = t.beginning ++ t.last.toList := by
  rw [whole, beginning]
  induction t.earlier with
  | nil => simp
  | cons line lines ih =>
    cases lines with
    | nil => simp
    | cons next lines =>
      rw [List.cons_append, List.cons_append, String.intercalate_cons_cons, ← List.cons_append,
        String.toList_append, ih]
      simp

theorem toList_taken : t.taken.toList = t.beginning.filter (· != ';') ++ t.last.toList := by
  rw [taken, String.toList_append, String.toList_join, beginning, List.filter_flatMap,
    List.flatMap_map]
  simp [Text.without]

theorem lexemes?_taken (debugging : Bool) (console : Console) :
    lexemes? (scan debugging t.taken console) = lexemes? (scan debugging t.whole console) ↔
      (';' ∈ Zone.plain.kept t.beginning → lexemes? (scan debugging t.taken console) = none ∧
        lexemes? (scan debugging t.whole console) = none) := by
  constructor
  · intro heq hmem
    cases htaken : lexemes? (scan debugging t.taken console) with
    | none => exact ⟨rfl, heq.symm.trans htaken⟩
    | some ls =>
      -- Both texts would be spelled by the same tokens, and one has more semicolons.
      have hspelling := (spelling_of_lexemes? htaken).symm.trans
        (spelling_of_lexemes? (heq.symm.trans htaken))
      rw [t.toList_taken, t.toList_whole, Zone.kept_append, Zone.kept_append,
        Zone.foldl_after_erased] at hspelling
      have hkept := List.append_cancel_right hspelling
      rw [← hkept] at hmem
      have hmem := List.mem_filter.mp (Zone.mem_of_mem_kept hmem)
      simp at hmem
  · intro hnone
    by_cases hmem : ';' ∈ Zone.plain.kept t.beginning
    · rw [(hnone hmem).1, (hnone hmem).2]
    · refine lexemes?_congr ?_ debugging console
      rw [t.toList_taken, t.toList_whole]
      exact Reading.read_erased nofun hmem

end TypedProgram

/-! ## Lines at the prompt -/

namespace Prompt

/-- The prompt after a program has been run. -/
def ran (p : Prompt) (program : String) : Prompt :=
  { p with history := p.history ++ [program], pending := "" }.fresh

variable {line : String}

theorem ne_empty_of_endsIn (h : endsIn c line) : line.isEmpty = false := by
  rw [Bool.eq_false_iff, Ne, String.isEmpty_iff]
  rintro rfl
  cases h

theorem step_earlier (p : Prompt) (hcommand : Command.ofLine? line = none)
    (hends : endsIn ';' line) : p.step line = (.nothing, p.extend ';' line) := by
  have hslash : endsIn '\\' line = false := by
    rw [endsIn, beq_iff_eq] at hends
    rw [endsIn, hends]
    decide
  rw [step, hcommand]
  dsimp only
  rw [ne_empty_of_endsIn hends, if_neg Bool.false_ne_true, accept, hslash,
    if_neg Bool.false_ne_true, if_pos hends]

theorem step_last (p : Prompt) (hcommand : Command.ofLine? line = none) (hne : line ≠ "")
    (hends : endsIn ';' line = false) (hslash : endsIn '\\' line = false) :
    p.step line = (.run (p.pending ++ line), p.ran (p.pending ++ line)) := by
  have hempty : line.isEmpty = false := by simpa [Bool.eq_false_iff] using hne
  rw [step, hcommand]
  dsimp only
  rw [hempty, if_neg Bool.false_ne_true, accept, hslash, hends, if_neg Bool.false_ne_true,
    if_neg Bool.false_ne_true, ran]

end Prompt

namespace Shell

namespace ShellM

variable {α β : Type}

/-- The outcome of a step, and the machine after it. -/
def exec (x : ShellM α) (m : Machine) : Except Fault α × Machine :=
  x.run.run m

theorem exec_bind_of {x : ShellM α} {f : α → ShellM β} {a : α} {m m' : Machine}
    (h : x.exec m = (.ok a, m')) : (x >>= f).exec m = (f a).exec m' := by
  unfold exec at h ⊢
  rw [ExceptT.run_bind, StateT.run_bind, h]
  rfl

theorem exec_bind_get {f : Machine → ShellM β} {m : Machine} :
    (get >>= f).exec m = (f m).exec m := rfl

theorem exec_modify (f : Machine → Machine) (m : Machine) :
    (modify f : ShellM Unit).exec m = (.ok (), f m) := rfl

theorem exec_display (f : Console → Console) (m : Machine) :
    (display f).exec m = (.ok (), { m with console := f m.console }) := rfl

end ShellM

open ShellM

variable {m : Machine}

/-- What is shown before a line is read. -/
def prompted (p : Prompt) (console : Console) : Console :=
  if p.offered.isNone then console.print (Prompt.banner "") else console

variable {rest : List Char} {line : String}

theorem exec_nextLine (hline : '\n' ∉ line.toList)
    (hinput : m.input = line.toList ++ '\n' :: rest) :
    nextLine.exec m = (.ok line, { m with input := rest }) := by
  have hall : ∀ c ∈ line.toList, (c != '\n') = true := by
    intro c hc
    rw [bne_iff_ne]
    rintro rfl
    exact hline hc
  have hsplit : Primitive.splitLine m.input = some (line.toList, rest) := by
    rw [hinput, Primitive.splitLine.eq_2 _ (by simp), List.takeWhile_append_of_pos hall,
      List.dropWhile_append_of_pos hall, List.takeWhile_cons_of_neg (by decide),
      List.dropWhile_cons_of_neg (by decide), List.append_nil, List.tail_cons]
  unfold nextLine
  rw [exec_bind_get, hsplit]
  dsimp only
  rw [exec_bind_of (exec_modify _ m), String.ofList_toList]
  rfl

theorem exec_followLines (debugging : Bool) (n : Nat) (p : Prompt) (hline : '\n' ∉ line.toList)
    (hinput : m.input = line.toList ++ '\n' :: rest) :
    (followLines debugging (n + 1) p).exec m =
      ((do if ← respond debugging (p.step line).1 then followLines debugging n (p.step line).2) :
        ShellM Unit).exec { m with input := rest, console := prompted p m.console } := by
  rw [followLines.eq_2]
  unfold prompted
  cases p.offered.isNone with
  | true =>
    rw [if_pos rfl, if_pos rfl, exec_bind_of (exec_display _ m)]
    exact exec_bind_of (exec_nextLine (m := { m with console := _ }) hline hinput)
  | false =>
    rw [if_neg (by decide), if_neg (by decide)]
    exact exec_bind_of (exec_nextLine hline hinput)

/-- The prompt is shown again and again. -/
def banners : Nat → Console → Console
  | 0, console => console
  | n + 1, console => banners n (console.print (Prompt.banner ""))

theorem exec_followLines_earlier {lines : List String}
    (hends : ∀ line ∈ lines, endsIn ';' line)
    (hcommand : ∀ line ∈ lines, Command.ofLine? line = none)
    (hnewline : ∀ line ∈ lines, '\n' ∉ line.toList) (debugging : Bool) (n : Nat) (p : Prompt)
    (hinput : m.input = (lines.flatMap fun line => line.toList ++ ['\n']) ++ rest) :
    ∃ p' console, (followLines debugging (lines.length + n) p).exec m =
        (followLines debugging n p').exec { m with input := rest, console } ∧
      prompted p' console = banners lines.length (prompted p m.console) ∧
      p'.history = p.history ∧
      p'.pending = p.pending ++
        String.join (lines.map fun line => Text.without ';' line ++ "\n") := by
  induction lines generalizing p m with
  | nil =>
    obtain rfl : m.input = rest := hinput
    refine ⟨p, m.console, ?_, rfl, rfl, ?_⟩
    · rw [List.length_nil, Nat.zero_add]
    · rw [List.map_nil, String.join_nil, String.append_empty]
  | cons line lines ih =>
    obtain ⟨hends, htail⟩ := List.forall_mem_cons.mp hends
    obtain ⟨hcommand, htail'⟩ := List.forall_mem_cons.mp hcommand
    obtain ⟨hnewline, htail''⟩ := List.forall_mem_cons.mp hnewline
    rw [List.flatMap_cons, List.append_assoc, List.append_assoc, List.singleton_append] at hinput
    obtain ⟨p', console, hrun, hconsole, hhistory, hpending⟩ := ih (p := p.extend ';' line)
      (m := { m with input := _, console := prompted p m.console }) htail htail' htail'' rfl
    refine ⟨p', console, ?_, hconsole, hhistory, ?_⟩
    · rw [List.length_cons, Nat.add_right_comm, exec_followLines debugging _ p hnewline hinput,
        p.step_earlier hcommand hends]
      exact hrun
    · rw [hpending, List.map_cons, String.join_cons, ← String.append_assoc,
        ← String.append_assoc]
      rfl

/-- What the prompt does about a program that is typed. It shows the prompt before each line, runs
one program, shows the result and goes on. The program has the tokens of the typed one iff none of
the semicolons in the lines before the last belongs to a token, or neither text has tokens. -/
theorem followLines_typed (t : TypedProgram) :
    (∀ (debugging : Bool) (n : Nat) (p : Prompt) (m : Machine) (rest : List Char),
      p.pending = "" → m.input = t.input ++ rest →
      (followLines debugging (t.earlier.length + 1 + n) p).exec m =
        ((do
          showResult (← runText debugging t.taken)
          followLines debugging n (p.ran t.taken)) : ShellM Unit).exec
          { m with input := rest, console := banners t.earlier.length (prompted p m.console) }) ∧
    ∀ (debugging : Bool) (console : Console),
      lexemes? (scan debugging t.taken console) = lexemes? (scan debugging t.whole console) ↔
        (';' ∈ Zone.plain.kept t.beginning →
          lexemes? (scan debugging t.taken console) = none ∧
          lexemes? (scan debugging t.whole console) = none) := by
  refine ⟨fun debugging n p m rest hp hinput => ?_, t.lexemes?_taken⟩
  obtain ⟨hne, hends, hslash⟩ := t.last_ends
  obtain ⟨hcommand, hlastCommand⟩ := List.forall_mem_append.mp t.no_command
  obtain ⟨hnewline, hlastNewline⟩ := List.forall_mem_append.mp t.no_newline
  have hlastCommand := hlastCommand t.last List.mem_cons_self
  have hlastNewline := hlastNewline t.last List.mem_cons_self
  have hinput : m.input = t.beginning ++ (t.last.toList ++ '\n' :: rest) := by
    rw [hinput, TypedProgram.input, List.append_assoc, List.append_assoc, List.singleton_append]
  obtain ⟨p', console, hrun, hconsole, hhistory, hpending⟩ :=
    exec_followLines_earlier t.earlier_ends hcommand hnewline debugging (n + 1) p hinput
  have htaken : p'.pending ++ t.last = t.taken := by
    rw [hpending, hp, String.empty_append, TypedProgram.taken]
  have hran : p'.ran t.taken = p.ran t.taken := by
    rw [ran, ran, hhistory]
    rfl
  rw [Nat.add_assoc, Nat.add_comm 1 n, hrun, exec_followLines debugging n p' hlastNewline rfl,
    p'.step_last hlastCommand hne hends hslash, htaken, hran]
  dsimp only
  rw [hconsole, respond]
  simp only [bind_assoc, pure_bind, if_true]

/-- A name is bound in one line and shown in the next. -/
def boundThenShown : TypedProgram where
  earlier := ["let a = 5;"]
  last := "a"
  earlier_ends := by decide +kernel
  last_ends := by decide +kernel
  no_command := by decide +kernel
  no_newline := by decide +kernel

/-- The program that is run in its place has other tokens. -/
theorem followLines_typed_boundThenShown :
    (followLines false 2 {}).exec { input := "let a = 5;\na\n@quit\n".toList } =
      ((do
        showResult (← runText false "let a = 5\na")
        followLines false 0 { history := ["let a = 5\na"], cursor := 1 }) : ShellM Unit).exec
        { input := "@quit\n".toList,
          console := { transcript := ⟨[], Prompt.banner "" ++ Prompt.banner ""⟩ } } ∧
      lexemes? (scan false "let a = 5\na" {}) ≠ lexemes? (scan false "let a = 5;\na" {}) := by
  obtain ⟨hrun, hlexemes⟩ := followLines_typed boundThenShown
  have hinput : ({ input := "let a = 5;\na\n@quit\n".toList } : Machine).input =
      boundThenShown.input ++ "@quit\n".toList := by decide +kernel
  have hkept : ';' ∈ Zone.plain.kept boundThenShown.beginning := by decide +kernel
  have htaken : lexemes? (scan false boundThenShown.taken {}) ≠ none := by decide +kernel
  refine ⟨hrun false 0 {} _ _ rfl hinput, fun heq => ?_⟩
  exact htaken ((hlexemes false {}).mp heq hkept).1

/-- At the prompt the two lines show nothing; the program that they are shows a number. -/
theorem boundThenShown_shows_nothing :
    (Shell.run {} { input := boundThenShown.input ++ "@quit\n".toList }).console.transcript =
        ⟨[], title ++ "\n" ++ Prompt.banner "" ++ Prompt.banner "" ++ Prompt.banner "" ++
          "Quitting REPL...\n"⟩ ∧
      (((do showResult (← runText false boundThenShown.whole)) : ShellM Unit).exec
        {}).2.console.transcript = ⟨[], "5\n"⟩ := by
  constructor <;> decide +kernel

end Shell

end TableScript
