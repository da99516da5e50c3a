import TableScript.Proofs.Lookahead
import TableScript.Proofs.ScanSteps

/-!
# Tokens that are left unread

Reading a program stops where its expression ends, and takes no notice of what comes after. This
module says when that happens.

* `Ends` is about rules that read on after every semicolon; `ends_expression` shows that the rule
  for expressions is one of them.
* `parse_read`: without an error, the tokens that were used are the first ones, and the answer
  depends on them and on the token after them only.
* `Decides`: the answer is the same whatever follows. `parse_uses_all_iff`: every token is used iff
  no beginning of the tokens decides the answer.
-/

namespace TableScript

open ParseM Console

namespace Parser

variable {α β : Type} {n : Nat} {s s₁ : ParseState}

/-! ## Where reading stops -/

/-- The rule leaves the tokens as they are. -/
def Keeps (x : ParseM α) : Prop :=
  ∀ s a s₁, x.exec s = (.ok a, s₁) → s.Later s₁ ∧ s₁.rest = s.rest

/-- Without an error, the rule does not stop before a semicolon. -/
def Ends (x : ParseM α) : Prop :=
  ∀ s a s₁, x.exec s = (.ok a, s₁) → s.Later s₁ ∧
    (s₁.console = s.console → s₁.next? ≠ some (.delimiter .semicolon))

theorem Keeps.pure (a : α) : Keeps (pure a : ParseM α) := by
  intro s a s₁ h
  cases h
  exact ⟨.refl s, rfl⟩

theorem Keeps.report (text : String) (position : Option Position) :
    Keeps (report text position) := by
  intro s a s₁ h
  refine ⟨(Follows.report (n := 0) text position a s₁ h).1, ?_⟩
  cases h
  rfl

theorem Keeps.bind {x : ParseM α} {f : α → ParseM β} (hx : Keeps x) (hf : ∀ a, Keeps (f a)) :
    Keeps (x >>= f) := by
  intro s b s₂ h
  obtain ⟨a, s₁, hxs, hfs⟩ := exec_bind_ok h
  obtain ⟨hlater, hrest⟩ := hx s a s₁ hxs
  obtain ⟨hlater', hrest'⟩ := hf a s₁ b s₂ hfs
  exact ⟨hlater.trans hlater', hrest'.trans hrest⟩

theorem Keeps.typeOf (e : Expr) : Keeps (typeOf e) := by
  unfold Parser.typeOf
  split
  · exact .pure _
  · exact fun s a s₁ h => by cases h

namespace Ends

variable {x y : ParseM α} {f : α → ParseM β}

theorem bind_of [Placed α] (hx : Alike n x y)
    (hf : ∀ a, Ends (f a) ∨ Keeps (f a) ∧ ∀ s s₁, x.exec s = (.ok a, s₁) →
      s.console.log.errors.length < s₁.console.log.errors.length) : Ends (x >>= f) := by
  intro s b s₂ h
  obtain ⟨a, s₁, hxs, hfs⟩ := exec_bind_ok h
  have hlater := (hx s a s₁ hxs).1
  rcases hf a with hf | ⟨hkeeps, herrors⟩
  · obtain ⟨hlater', hends⟩ := hf s₁ b s₂ hfs
    refine ⟨hlater.trans hlater', fun hsilent => hends ?_⟩
    exact hsilent.trans (hlater.silent hlater' hsilent).symm
  · have hlater' := (hkeeps s₁ b s₂ hfs).1
    refine ⟨hlater.trans hlater', fun hsilent => ?_⟩
    have herrors := herrors s s₁ hxs
    rw [hlater.silent hlater' hsilent] at herrors
    exact absurd herrors (lt_irrefl _)

theorem bind [Placed α] (hx : Alike n x y) (hf : ∀ a, Ends (f a)) : Ends (x >>= f) :=
  .bind_of hx fun a => .inl (hf a)

theorem bind_keeps (hx : Ends x) (hf : ∀ a, Keeps (f a)) : Ends (x >>= f) := by
  intro s b s₂ h
  obtain ⟨a, s₁, hxs, hfs⟩ := exec_bind_ok h
  obtain ⟨hlater, hends⟩ := hx s a s₁ hxs
  obtain ⟨hlater', hrest⟩ := hf a s₁ b s₂ hfs
  refine ⟨hlater.trans hlater', fun hsilent => ?_⟩
  rw [ParseState.next?, hrest]
  exact hends (hlater.silent hlater' hsilent)

theorem semicolon_if (hx : Ends x) (hy : Keeps y) :
    Ends (accept (.delimiter .semicolon) >>= fun b => if b = true then x else y) := by
  intro s a s₂ h
  obtain ⟨b, s₁, hs, h⟩ := exec_bind_ok h
  have hlater := (Akin.accept (K := lookahead) (n := 0) _ s b s₁ hs).1
  by_cases hnext : s.next? = some (.delimiter .semicolon)
  · rw [exec_accept_of hnext] at hs
    cases hs
    obtain ⟨hlater', hends⟩ := hx _ a s₂ h
    exact ⟨hlater.trans hlater', hends⟩
  · rw [exec_accept_ne hnext] at hs
    cases hs
    obtain ⟨hlater', hrest⟩ := hy s a s₂ h
    refine ⟨hlater', fun _ => ?_⟩
    rwa [ParseState.next?, hrest]

end Ends

/-! ## Names that are missing -/

theorem exec_acceptIdent_none (h : acceptIdent.exec s = (.ok none, s₁)) :
    s₁ = s ∧ ∃ t, s.rest.head? = some t := by
  rw [acceptIdent, exec_bind_peekLexeme] at h
  cases hs : s.next? with
  | none =>
    rw [hs] at h
    cases h
  | some l =>
    obtain ⟨t, rest, hrest⟩ := rest_of_next? hs
    rw [hs] at h
    cases l with
    | ident => cases h
    | _ =>
      cases h
      exact ⟨rfl, t, by rw [hrest, List.head?_cons]⟩

theorem errors_of_expectIdent (h : expectIdent.exec s = (.ok none, s₁)) :
    s.console.log.errors.length < s₁.console.log.errors.length := by
  obtain ⟨token, _, hpeek, h⟩ := exec_bind_ok h
  cases hpeek
  obtain ⟨name, s', hname, h⟩ := exec_bind_ok h
  cases name with
  | some name => cases h
  | none =>
    obtain ⟨rfl, t, ht⟩ := exec_acceptIdent_none hname
    rw [ht] at h
    cases h
    simp [error, printLine, print]

theorem errors_of_binderRule {g : Grammar} (h : (binderRule g).exec s = (.ok none, s₁)) :
    s.console.log.errors.length < s₁.console.log.errors.length := by
  obtain ⟨name, s', hname, h⟩ := exec_bind_ok h
  cases name with
  | none =>
    cases h
    exact errors_of_expectIdent hname
  | some name =>
    obtain ⟨denoted, s₂, _, h⟩ := exec_bind_ok h
    cases denoted with
    | false => cases h
    | true =>
      obtain ⟨type, s₃, _, h⟩ := exec_bind_ok h
      cases h

theorem errors_of_bindersRule {g g' : Grammar} (hg : g.Akin lookahead n g') (k : Nat)
    (h : (bindersRule g k).exec s = (.ok none, s₁)) :
    s.console.log.errors.length < s₁.console.log.errors.length := by
  induction k generalizing s with
  | zero => cases h
  | succ k ih =>
    obtain ⟨comma, s', hcomma, h⟩ := exec_bind_ok h
    have herrors := (Akin.accept (K := lookahead) (n := 0) _ s comma s' hcomma).1.errors
    cases comma with
    | false => cases h
    | true =>
      obtain ⟨binder, s₂, hbinder, h⟩ := exec_bind_ok h
      cases binder with
      | none =>
        cases h
        exact herrors.trans_lt (errors_of_binderRule hbinder)
      | some b =>
        obtain ⟨more, s₃, hmore, h⟩ := exec_bind_ok h
        have herrors' := (Akin.binderRule hg s' (some b) s₂ hbinder).1.errors
        cases more with
        | some more => cases h
        | none =>
          cases h
          exact (herrors.trans herrors').trans_lt (ih hmore)

/-! ## No rule of statements stops before a semicolon -/

section Statements

variable {g : Grammar} (hg : g.Akin lookahead n g) (hends : Ends g.expression)

include hends in
theorem Ends.restRule : Ends (restRule g) :=
  .semicolon_if (hends.bind_keeps fun _ => .pure _) (.pure _)

include hends in
theorem Ends.boundRest (position : Option Position) (names : List String) (type : TypeRef)
    (bound : Expr) : Ends (do
      let rest ← Parser.restRule g
      if let some (.unknown _) := rest then
        report "Valid expression required after ';'" position
      let restType := ((rest.bind Expr.note?).map (·.type)).getD .dangling
      return Expr.bind { type := restType, position } names type bound rest) := by
  refine (Ends.restRule hends).bind_keeps fun rest => ?_
  cases rest with
  | none => exact .pure _
  | some e =>
    cases e with
    | unknown => exact (Keeps.report _ _).bind fun _ => .pure _
    | _ => exact .pure _

include hg hends in
theorem Ends.bindRule (position : Option Position) (first : String × TypeRef)
    (more : List (String × TypeRef)) : Ends (bindRule g position first more) := by
  unfold Parser.bindRule
  split
  · exact .bind (.pure (n := n) _) fun _ => .bind (.accept (n := n) _) fun _ =>
      .bind (.simpleRule hg) fun _ => Ends.boundRest hends _ _ _ _
  · exact .bind (.makeType (n := n) _) fun _ => .bind (.accept (n := n) _) fun _ =>
      .bind (.simpleRule hg) fun _ => Ends.boundRest hends _ _ _ _

include hg hends in
theorem Ends.letRule : Ends (letRule g) := by
  refine .bind (Akin.here (n := n)) fun position => ?_
  refine .bind_of (Akin.binderRule hg) fun first => ?_
  cases first with
  | none => exact .inr ⟨.pure _, fun _ _ => errors_of_binderRule⟩
  | some first =>
    refine .inl (.bind_of (Akin.bindersRule hg) fun more => ?_)
    cases more with
    | none => exact .inr ⟨.pure _, fun _ _ => errors_of_bindersRule hg g.rounds⟩
    | some more => exact .inl (Ends.bindRule hg hends position first more)

include hg hends in
theorem Ends.expressionRule : Ends (expressionRule g) := by
  have hrest (e : Expr) : Ends (do
      let position ← placeOf e
      let name ← dummy
      let type ← typeOf e
      let rest ← g.expression
      return Expr.bind { type := ← typeOf rest, position } [name] type e (some rest)) :=
    .bind (Akin.placeOf (n := n) e) fun _ => .bind (Akin.dummy (n := n)) fun _ =>
      .bind (Akin.typeOf (n := n) e) fun _ =>
        hends.bind_keeps fun rest => (Keeps.typeOf rest).bind fun _ => .pure _
  have hsimple := Ends.bind (Akin.simpleRule hg) fun e => .semicolon_if (hrest e) (.pure e)
  intro s a s₁ h
  rw [Parser.expressionRule, exec_bind_peekLexeme] at h
  cases hs : s.next? with
  | none =>
    rw [hs] at h
    cases h
    exact ⟨.refl s, fun _ => by simp [hs]⟩
  | some l =>
    rw [hs] at h
    cases l with
    | keyword k =>
      cases k with
      | «let» =>
        change (advance >>= fun _ => Parser.letRule g).exec s = _ at h
        rw [exec_bind_of (exec_advance s)] at h
        obtain ⟨hlater, hends⟩ := Ends.letRule hg hends _ a s₁ h
        exact ⟨(later_advance s).trans hlater, hends⟩
      | _ => exact hsimple s a s₁ h
    | _ => exact hsimple s a s₁ h

end Statements

theorem ends_expression (k : Nat) : Ends (grammar false k).expression := by
  induction k with
  | zero => exact fun s a s₁ h => by cases h
  | succ k ih => exact .expressionRule (grammar_alike k k) ih

end Parser

/-! ## Reading a list of tokens -/

variable {debugging : Bool} {types : TypeStore} {console : Console} {tokens : List Token}
  {e : Expr} {s : ParseState}

/-- The console after the expression `e` was read. -/
def Console.showTree (c : Console) (e : Expr) : Console :=
  if e.note?.isSome then c.debugBlock "PARSED EXPRESSION" fun _ => toString (repr e) else c

theorem Console.showTree_log (c : Console) (e : Expr) : (c.showTree e).log = c.log := by
  unfold showTree
  split
  · exact debugBlock_log c _ _
  · rfl

/-- The state of the parser before the first token. -/
def ParseState.start (debugging : Bool) (types : TypeStore) (console : Console)
    (tokens : List Token) : ParseState :=
  { rest := tokens, types, console := console.restart debugging }

/-- The outcome of a rule for programs, with the tree that was read shown on the console. -/
def shown : Except Fault Expr × ParseState → Except Fault Expr × ParseState
  | (.ok root, s) => (.ok root, { s with console := s.console.showTree root })
  | (.error f, s) => (.error f, s)

theorem parseBy_eq (g : Parser.Grammar) : parseBy g debugging tokens types console =
    shown (g.expression.exec (.start debugging types console tokens)) := by
  unfold parseBy exec ParseState.start
  dsimp only
  rcases StateT.run (ExceptT.run g.expression)
    { rest := tokens, types, console := console.restart debugging } with ⟨f | root, s'⟩
  · rfl
  · simp only [shown, showTree]
    split <;> rfl

theorem parse_ok_iff : parse debugging tokens types console = (.ok e, s) ↔
    ∃ s', (Parser.grammar false (tokens.length + 2)).expression.exec
        (.start debugging types console tokens) = (.ok e, s') ∧
      s = { s' with console := s'.console.showTree e } := by
  rw [parse, parseBy_eq]
  rcases (Parser.grammar false (tokens.length + 2)).expression.exec
    (.start debugging types console tokens) with ⟨f | root, s'⟩
  · simp [shown]
  · simp only [shown, Prod.mk.injEq, Except.ok.injEq]
    constructor
    · rintro ⟨rfl, rfl⟩
      exact ⟨s', ⟨rfl, rfl⟩, rfl⟩
    · rintro ⟨_, ⟨rfl, rfl⟩, rfl⟩
      exact ⟨rfl, rfl⟩

/-- What is not read does not matter but for its first token. -/
theorem parse_read (h : parse debugging tokens types console = (.ok e, s))
    (hsilent : s.console.hasErrors = false) :
    s.used ≤ tokens.length ∧ s.rest = tokens.drop s.used ∧
      s.next? ≠ some (.delimiter .semicolon) ∧
      ∀ rest, rest.head? = s.rest.head? →
        parse debugging (tokens.take s.used ++ rest) types console = (.ok e, { s with rest }) := by
  obtain ⟨s', hs', rfl⟩ := parse_ok_iff.mp h
  have hlog : s'.console.log.errors = [] := by
    rw [← showTree_log s'.console e]
    simpa [hasErrors] using hsilent
  -- The console starts without errors, so nothing has been said on the way either.
  have hquiet : s'.console = console.restart debugging := by
    rcases ((Parser.grammar_alike _ 0).expression _ e s' hs').1.console with heq | hlt
    · exact heq
    · simp [hlog] at hlt
  obtain ⟨read, hrest, hused, -⟩ := ((Parser.grammar_alike _ 0).expression _ e s' hs').2 hquiet
  replace hused : s'.used = read.length := by simpa [ParseState.start] using hused
  replace hrest : tokens = read ++ s'.rest := hrest
  have htake : tokens.take s'.used = read := by rw [hrest, hused, List.take_left]
  refine ⟨?_, ?_, ((Parser.ends_expression _) _ e s' hs').2 hquiet, fun rest hhead => ?_⟩
  · rw [hrest, hused, List.length_append]
    exact Nat.le_add_right ..
  · change s'.rest = tokens.drop s'.used
    rw [hrest, hused, List.drop_left]
  · change parse debugging (tokens.take s'.used ++ rest) types console = _
    rw [htake]
    -- A list of another length is read with another number of rounds, which makes no difference.
    have hother := (Parser.grammar_alike (tokens.length + 2) ((read ++ rest).length + 2)).expression
      _ e s' hs'
    obtain ⟨read', hrest', -, hy⟩ := hother.2 hquiet
    obtain rfl : read' = read := List.append_cancel_right (hrest'.symm.trans hrest)
    exact parse_ok_iff.mpr ⟨_, hy rest hhead (by omega), rfl⟩

/-- What reading tokens gives, but for the tokens that are left. -/
def answer (debugging : Bool) (types : TypeStore) (console : Console) (tokens : List Token) :
    Except Fault Expr × ParseState :=
  let (result, s) := parse debugging tokens types console
  (result, { s with rest := [] })

/-- The tokens decide what is read: whatever follows them, the answer is the same. -/
def Decides (debugging : Bool) (types : TypeStore) (console : Console) (tokens : List Token) :
    Prop :=
  ∀ more, answer debugging types console (tokens ++ more) = answer debugging types console tokens

section

variable (h : parse debugging tokens types console = (.ok e, s))
  (hsilent : s.console.hasErrors = false)

include h hsilent

theorem decides_of_unread (hunread : s.used < tokens.length) :
    Decides debugging types console (tokens.take (s.used + 1)) := by
  obtain ⟨-, hrest, -, hsame⟩ := parse_read h hsilent
  have hanswer : ∀ more,
      answer debugging types console (tokens.take (s.used + 1) ++ more) =
        (.ok e, { s with rest := [] }) := by
    intro more
    have hhead : (tokens[s.used] :: more).head? = s.rest.head? := by
      rw [hrest, List.drop_eq_getElem_cons hunread, List.head?_cons, List.head?_cons]
    have hbeginning : tokens.take (s.used + 1) ++ more =
        tokens.take s.used ++ tokens[s.used] :: more := by
      rw [List.take_succ_eq_append_getElem hunread, List.append_assoc, List.singleton_append]
    rw [answer, hbeginning, hsame _ hhead]
  intro more
  rw [hanswer more, ← hanswer [], List.append_nil]

theorem not_decides_of_read (hread : s.used = tokens.length) {beginning : List Token}
    (hbeginning : beginning <+: tokens) : ¬ Decides debugging types console beginning := by
  intro hdecides
  obtain ⟨more, rfl⟩ := hbeginning
  -- With a semicolon after them, the same answer would leave the semicolon unread.
  let semicolon : Token := { lexeme := .delimiter .semicolon, position := {} }
  have hanswer : answer debugging types console (beginning ++ (more ++ [semicolon])) =
      (.ok e, { s with rest := [] }) := by
    rw [hdecides, ← hdecides more, answer, h]
  rcases hlonger : parse debugging (beginning ++ (more ++ [semicolon])) types console with
    ⟨r, s'⟩
  rw [answer, hlonger] at hanswer
  obtain ⟨rfl, hstates⟩ := Prod.mk.inj hanswer
  obtain ⟨-, hused, -, -, -, hconsole, -⟩ := ParseState.mk.inj hstates
  obtain ⟨-, hrest, hnext, -⟩ := parse_read hlonger (by rwa [hconsole])
  apply hnext
  rw [ParseState.next?, hrest, hused, hread, ← List.append_assoc, List.drop_left]
  rfl

end

/-- Reading without an error uses the first tokens, one after the other, and does not stop before a
semicolon. It uses every token iff no beginning of the tokens decides what is read. -/
theorem parse_uses_all_iff (h : parse debugging tokens types console = (.ok e, s))
    (hsilent : s.console.hasErrors = false) :
    s.rest = tokens.drop s.used ∧ s.next? ≠ some (.delimiter .semicolon) ∧
      (s.used = tokens.length ↔
        ∀ beginning, beginning <+: tokens → ¬ Decides debugging types console beginning) := by
  obtain ⟨hle, hrest, hnext, -⟩ := parse_read h hsilent
  refine ⟨hrest, hnext, fun hread beginning => not_decides_of_read h hsilent hread,
    fun hnone => ?_⟩
  by_contra hne
  have hunread : s.used < tokens.length := lt_of_le_of_ne hle hne
  refine hnone _ ?_ (decides_of_unread h hsilent hunread)
  exact List.take_prefix _ _

/-- The tokens of `if true { 1 } + 2`. -/
def branchAndSum : List Token :=
  [.keyword .if, .keyword .true, .delimiter .braceLeft, .value "1", .delimiter .braceRight,
    .delimiter .plus, .value "2"].map fun lexeme => { lexeme, position := {} }

theorem parse_branchAndSum : parse false branchAndSum {} {} =
    (.ok (.branch { type := .none, position := some {} }
        (.literal { type := .bool, position := some {} } (.bool true))
        (.literal { type := .int, position := some {} } (.int 1)) none),
      { rest := branchAndSum.drop 5, used := 5 }) := by
  rfl

/-- A branch is no operand, so reading stops before the operator and takes no notice of it. -/
theorem branchAndSum_decided : (parse false branchAndSum {} {}).2.console.hasErrors = false ∧
    ∃ beginning, beginning <+: branchAndSum ∧ Decides false {} {} beginning := by
  refine ⟨by rw [parse_branchAndSum]; rfl, ?_⟩
  have hall := (parse_uses_all_iff parse_branchAndSum rfl).2.2
  by_contra hnone
  exact absurd (hall.mpr fun beginning hle hdecides => hnone ⟨beginning, hle, hdecides⟩)
    (by decide)

/-- Two numbers that stand side by side. -/
def twoNumbers : List Token :=
  [.value "1", .value "2"].map fun lexeme => { lexeme, position := {} }

/-- The second of two numbers is left unread, without an error. -/
theorem twoNumbers_unread : ∃ e s, parse false twoNumbers {} {} = (.ok e, s) ∧
    (∀ note, e ≠ .unknown note) ∧ s.console.hasErrors = false ∧
    s.used ≠ twoNumbers.length := by
  refine ⟨.literal { type := .int, position := some {} } (.int 1),
    { rest := twoNumbers.drop 1, used := 1 }, rfl, fun note => ?_, rfl, by decide⟩
  exact Expr.noConfusion

end TableScript
