import TableScript.Proofs.Balance
import TableScript.Proofs.Extension
import TableScript.Proofs.PrintedValues
import TableScript.Script

/-!
# Programs that are answered

A program that runs on names of its own is answered with a text, but not every program. A text that
cannot be read has no answer, whether it has no tokens, an error in it or nothing that is an
expression, and neither has a program that goes on for ever, or one with a value that has no text. A
program that halts otherwise is answered in any case, since its value is none.

* `Readable` says that a text is read as an expression without an error;
* `Machine.Concludes` says that a run comes to an end, with a value that is printable or without
  one;
* `Machine.Answers` says what the answer is;
* `executeDirect_answers` says which programs are answered.
-/

namespace TableScript

open EvalM

/-- A text is read as the expression `root`, and `s` is the state of the parser afterwards: there
are tokens that the expression starts with, and neither scanning nor parsing logs an error. -/
inductive Readable (text : String) (types : TypeStore) : Expr → ParseState → Prop
  | of {tokens : List Token} {console : Console} {root : Expr} {s : ParseState}
    (scanned : scan false text {} = (some tokens, console))
    (scannedWell : console.hasErrors = false)
    (parsed : parse false tokens types console = (.ok root, s))
    (parsedWell : s.console.hasErrors = false) (program : isProgram root = true) :
    Readable text types root s

/-- The machine on which a program is run directly, before it is read. -/
def Machine.apart (m : Machine) : Machine :=
  { m with scope := {}, console := {} }

/-- The machine on which a program is evaluated that was read. -/
def ParseState.ready (s : ParseState) (m : Machine) : Machine :=
  loadBuiltins s.builtins { m with
    scope := {}, console := s.console.restart false, depth := 0, trace := []
    store := { m.store with types := s.types } }

/-- The answer with the value `r`: what was printed, without colours, and then the text of the value
unless it is none. -/
def Machine.Answers (m : Machine) (r : Ref) (answer : Transcript) : Prop :=
  let printed := m.console.transcript.mapText Text.stripAnsi
  match m.store.content r with
  | .none => answer = printed
  | _ => ∃ shown, m.store.text r = .ok shown ∧ answer = printed.add shown

variable {text : String} {m : Machine} {root : Expr} {s : ParseState} {r : Ref}

/-! ## Reading -/

theorem readable_of_execute (h : (execute false text m.apart).1 = .ok (some r)) :
    ∃ root s, Readable text m.store.types root s := by
  unfold execute at h
  rcases hscan : scan false text m.apart.console with ⟨_ | tokens, console⟩
  · rw [hscan] at h
    cases h
  · rw [hscan] at h
    dsimp only at h
    split at h
    · cases h
    · next scannedWell =>
      rcases hparse : parse false tokens m.apart.store.types console with ⟨f | root, s⟩
      · rw [hparse] at h
        cases h
      · rw [hparse] at h
        dsimp only at h
        split at h
        · cases h
        · next parsedWell =>
          simp only [Bool.or_eq_true, Bool.not_eq_true', not_or, Bool.not_eq_true,
            Bool.not_eq_false] at scannedWell parsedWell
          exact ⟨root, s, .of hscan scannedWell hparse parsedWell.1 parsedWell.2⟩

section

variable {debugging : Bool} {builtins : List Builtin} {m' : Machine} {f : Fault}

theorem runProgram_endless (hrun : (interpret root).run (loadBuiltins builtins
      { m with console := m.console.restart debugging, depth := 0, trace := [] }) =
        (.error f, m')) :
    runProgram debugging root builtins m = (.error f, m') := by
  unfold runProgram
  simp only [hrun]

variable (hrun : (interpret root).run (loadBuiltins builtins
  { m with console := m.console.restart debugging, depth := 0, trace := [] }) = (.ok r, m'))

include hrun

theorem runProgram_ok {shown : String} (htext : m'.store.text r = .ok shown) :
    runProgram debugging root builtins m =
      (.ok (some r), { m' with console := m'.console.debug ("DEBUG: " ++ shown) }) := by
  unfold runProgram
  simp only [hrun, htext]

theorem runProgram_error (htext : m'.store.text r = .error f) :
    runProgram debugging root builtins m = (.error f, m') := by
  unfold runProgram
  simp only [hrun, htext]

end

theorem execute_of_readable (h : Readable text m.store.types root s) :
    execute false text m.apart = runProgram false root s.builtins
      { m.apart with console := s.console, store := { m.store with types := s.types } } := by
  obtain ⟨scanned, scannedWell, parsed, parsedWell, program⟩ := h
  unfold execute Machine.apart
  simp only [scanned, scannedWell, parsed, parsedWell, program, Bool.false_eq_true, if_false,
    Bool.not_true, Bool.or_false]

/-! ## Running -/

/-- The run of an expression comes to an end, and its value, if it gives one, is printable. -/
structure Machine.Concludes (m : Machine) (root : Expr) : Prop where
  printable : ∀ r m', (eval (depthLimit + 1) root .any).exec m = (.ok r, m') →
    m'.store.Printable r
  ends : ∀ f, ((eval (depthLimit + 1) root .any).exec m).1 = .error (.fault f) → f.ends

theorem run_giveNone (m : Machine) :
    ∃ r m', halted.giveNone.run m = (.ok r, m') ∧ m'.store.Printable r := by
  refine ⟨(m.store.add ⟨.none, .none⟩).1,
    { m with store := (m.store.add ⟨.none, .none⟩).2 }, rfl, ?_⟩
  rw [Store.printable_iff, Store.object_add]
  trivial

theorem run_halted (halt : Halt) (m : Machine) :
    (∃ f m', (halted halt).run m = (.error f, m') ∧ halt = .fault f ∧ ¬f.ends) ∨
      ∃ r m', (halted halt).run m = (.ok r, m') ∧ m'.store.Printable r ∧
        ∀ f, halt = .fault f → f.ends := by
  cases halt with
  | reported =>
    obtain ⟨r, m', hrun, hr⟩ := run_giveNone m
    exact .inr ⟨r, m', hrun, hr, nofun⟩
  | fault f =>
    by_cases hends : f.ends
    · obtain ⟨r, m', hrun, hr⟩ := run_giveNone
        { m with console := m.console.errorFault "Unhandled exception while interpreting: " f }
      refine .inr ⟨r, m', ?_, hr, ?_⟩
      · rw [← hrun, halted, if_pos hends]
        rfl
      · rintro _ ⟨⟩
        exact hends
    · refine .inl ⟨f, m, ?_, rfl, hends⟩
      rw [halted, if_neg hends]
      rfl

/-- A run has a value that is printable iff it concludes. -/
theorem concludes_iff :
    m.Concludes root ↔ ∃ r m', (interpret root).run m = (.ok r, m') ∧
      m'.store.Printable r := by
  rw [interpret_eq, run_interpretBy]
  rcases heval : (eval (depthLimit + 1) root .any).exec m with ⟨halt | v, n⟩
  · obtain ⟨f, m', hrun, rfl, hends⟩ | ⟨r, m', hrun, hr, hends⟩ := run_halted halt n
    · refine iff_of_false (fun h => hends (h.ends f (congrArg Prod.fst heval))) ?_
      rintro ⟨_, _, hvalue, -⟩
      cases hrun.symm.trans hvalue
    · refine iff_of_true ⟨?_, ?_⟩ ⟨r, m', hrun, hr⟩
      · rw [heval]
        exact nofun
      · rw [heval]
        rintro f ⟨⟩
        exact hends f rfl
  · constructor
    · intro h
      exact ⟨v, n, rfl, h.printable v n heval⟩
    · rintro ⟨_, _, ⟨⟩, hr⟩
      refine ⟨?_, ?_⟩
      · rw [heval]
        rintro _ _ ⟨⟩
        exact hr
      · rw [heval]
        exact nofun

/-! ## Answers -/

theorem exists_answer {after : Machine} (h : Gives (after.store.text r)) :
    ∃ answer, after.Answers r answer := by
  obtain ⟨shown, htext⟩ := h
  unfold Machine.Answers
  dsimp only
  split
  · exact ⟨_, rfl⟩
  · exact ⟨_, shown, htext, rfl⟩

theorem executeDirect_ok_iff (answer : Transcript) :
    (executeDirect text m).1 = .ok answer ↔
      ∃ r after, execute false text m.apart = (.ok (some r), after) ∧
        after.Answers r answer := by
  have hapart : { m with scope := {}, console := {} } = m.apart := rfl
  unfold executeDirect
  rw [hapart]
  rcases execute false text m.apart with ⟨f | _ | r, after⟩
  · exact iff_of_false nofun nofun
  · exact iff_of_false nofun nofun
  · have hresult : (∃ r' after', ((.ok (some r), after) : Except Fault (Option Ref) × Machine) =
        (.ok (some r'), after') ∧ after'.Answers r' answer) ↔ after.Answers r answer := by
      constructor
      · rintro ⟨_, _, ⟨⟩, h⟩
        exact h
      · intro h
        exact ⟨r, after, rfl, h⟩
    rw [hresult, Machine.Answers]
    dsimp only
    cases after.store.content r with
    | none =>
      constructor
      · rintro ⟨⟩
        rfl
      · rintro rfl
        rfl
    | _ =>
      cases after.store.text r with
      | ok shown =>
        constructor
        · rintro ⟨⟩
          exact ⟨shown, rfl, rfl⟩
        · rintro ⟨_, ⟨⟩, rfl⟩
          rfl
      | error f => exact iff_of_false nofun nofun

/-- A program that runs on names of its own is answered iff it can be read, its run comes to an end,
and the value that it evaluates to, unless it halts, is printable. The answer is what the program
prints, without colours, and the text of the value unless it is none. -/
theorem executeDirect_answers (text : String) (m : Machine) :
    (Gives (executeDirect text m).1 ↔
      ∃ root s, Readable text m.store.types root s ∧ (s.ready m).Concludes root) ∧
    ∀ answer, (executeDirect text m).1 = .ok answer ↔
      ∃ r after, execute false text m.apart = (.ok (some r), after) ∧
        after.Answers r answer := by
  refine ⟨?_, executeDirect_ok_iff⟩
  constructor
  · rintro ⟨answer, hanswer⟩
    obtain ⟨v, after, hexecute, -⟩ := (executeDirect_ok_iff answer).mp hanswer
    obtain ⟨root, s, hread⟩ := readable_of_execute (congrArg Prod.fst hexecute)
    refine ⟨root, s, hread, concludes_iff.mpr ?_⟩
    rw [execute_of_readable hread] at hexecute
    rcases hrun : (interpret root).run (s.ready m) with ⟨f | r, m'⟩
    · rw [runProgram_endless hrun] at hexecute
      cases hexecute
    · refine ⟨r, m', rfl, ?_⟩
      -- The value has been shown before it became the result.
      rw [← Store.gives_text]
      cases htext : m'.store.text r with
      | ok shown => exact .ok shown
      | error f =>
        rw [runProgram_error hrun htext] at hexecute
        cases hexecute
  · rintro ⟨root, s, hread, hconcludes⟩
    obtain ⟨r, m', hrun, hprintable⟩ := concludes_iff.mp hconcludes
    rw [← Store.gives_text] at hprintable
    obtain ⟨shown, htext⟩ := hprintable
    have hexecute := (execute_of_readable hread).trans (runProgram_ok hrun htext)
    -- Showing the value changes what is printed, not the store.
    obtain ⟨answer, hanswer⟩ : ∃ answer, Machine.Answers
        { m' with console := m'.console.debug ("DEBUG: " ++ shown) } r answer :=
      exists_answer ⟨shown, htext⟩
    exact ⟨answer, (executeDirect_ok_iff answer).mpr ⟨r, _, hexecute, hanswer⟩⟩

/-- A name that stands for nothing is an error, which is answered; an empty schema is a value, but
has no text. -/
theorem executeDirect_answers_unboundName :
    (∃ root s, Readable "a" Machine.initial.store.types root s ∧
      (s.ready .initial).Concludes root) ∧
    ¬∃ root s, Readable "$\x7b\x7d" Machine.initial.store.types root s ∧
      (s.ready .initial).Concludes root := by
  have hanswered : Gives (executeDirect "a" .initial).1 := by decide +kernel
  have hunanswered : ¬Gives (executeDirect "$\x7b\x7d" .initial).1 := by decide +kernel
  exact ⟨(executeDirect_answers "a" .initial).1.mp hanswered,
    mt (executeDirect_answers "$\x7b\x7d" .initial).1.mpr hunanswered⟩

/-- A table `t` of one row, a list `rows` that is the rows of this table, and `append`. -/
def ownRows : Machine where
  store := {
    types := { lists := #[[.int]], cells := #[0] }
    objects := #[⟨.int, .int 1⟩, ⟨.tuple 0, .tuple 0⟩, ⟨.schema 0, .schema 0⟩,
      ⟨.table 0, .table ⟨2⟩ 1⟩, ⟨.list (.tuple 0), .list 1⟩,
      ⟨.func [.table 0, .list (.tuple 0)] (.table 0), .func {
        builtin := some .append, parameters := [("table", .table 0), ("rows", .list (.tuple 0))]
        body := .unknown {}, scope := {} }⟩]
    sequences := #[#[⟨0⟩], #[⟨1⟩]]
    columns := #[[("a", .int)]] }
  scope := { names := [("append", ⟨5⟩), ("t", ⟨3⟩), ("rows", ⟨4⟩)] }

/-- An empty text has no answer, nor has a program that breaks off, nor an empty schema. And the run
of `append(t, rows)` goes on for ever where the rows are those of the table. -/
theorem programs_without_answer :
    (¬Gives (executeDirect "" .initial).1 ∧ ¬Gives (executeDirect "let" .initial).1 ∧
      ¬Gives (executeDirect "$\x7b\x7d" .initial).1) ∧
    ¬ownRows.Concludes (.apply {} (.ref {} (.ident "append"))
      [.ref {} (.ident "t"), .ref {} (.ident "rows")]) := by
  refine ⟨by decide +kernel, fun h => ?_⟩
  have hendless : ((eval (depthLimit + 1) (.apply {} (.ref {} (.ident "append"))
      [.ref {} (.ident "t"), .ref {} (.ident "rows")]) .any).exec ownRows).1 =
      .error (.fault .endless) := by decide +kernel
  exact absurd (h.ends .endless hendless) (by decide)

end TableScript
