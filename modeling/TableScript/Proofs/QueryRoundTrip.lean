import TableScript.Proofs.QueryText

/-!
# Reading queries back

Which written queries are read back as the expression that they were written from
(`reads_back_iff`): exactly those in which no left operand is itself an operator between operands,
as long as all numbers are within the limit on digits. A parenthesis at the start of an expression
is passed over and its partner stays behind, so an expression that starts with one is cut short.

* *Forward*: `simple_reads` follows the grammar along the tokens of such an expression.
* *Backward*: whatever a rule reads, it closes no more parentheses than it opens (`Consumed`), and
  on the tokens of an expression with an operator on its left it leaves one open
  (`simple_leaves_open`).
-/

namespace TableScript.Query

open Literal Text

/-! ## Conditions on expressions -/

/-- No left operand is itself an operator between operands. -/
def Expr.LeftAtoms : Expr → Prop
  | .prim _ _ left right => left.isBinary = false ∧ right.LeftAtoms
  | _ => True

/-- The literals of an expression. -/
def Expr.literals : Expr → List Literal
  | .literal l => [l]
  | .prim _ _ left right => left.literals ++ right.literals
  | .range a b => [a, b]
  | _ => []

/-- Every number of an expression is below the limit that digits set. -/
def Expr.ShortNumbers (e : Expr) : Prop :=
  ∀ n : Nat, .int n ∈ e.literals → n < 10 ^ Text.digitLimit

variable {g : Grammar} {e : Expr} {tokens rest rightTokens : List Token} {op : Operator}
  {s' s : ParseState} {t : Token}

theorem Expr.ShortNumbers.left {type : Ty} {left right : Expr}
    (h : (Expr.prim type op left right).ShortNumbers) : left.ShortNumbers :=
  fun n hn => h n (List.mem_append_left _ hn)

theorem Expr.ShortNumbers.right {type : Ty} {left right : Expr}
    (h : (Expr.prim type op left right).ShortNumbers) : right.ShortNumbers :=
  fun n hn => h n (List.mem_append_right _ hn)

/-! ## Rules applied to tokens -/

theorem Rule.run_bind_of {α β : Type} {x : Rule α} {f : α → Rule β} {t : ParseState} {a : α}
    (h : x.run s = .ok (a, t)) : (x >>= f).run s = (f a).run t := by
  show (x.run s).bind (fun p => (f p.1).run p.2) = _
  rw [h]
  rfl

theorem Rule.run_bind_ok {α β : Type} {x : Rule α} {f : α → Rule β} {b : β}
    (h : (x >>= f).run s = .ok (b, s')) :
    ∃ a t, x.run s = .ok (a, t) ∧ (f a).run t = .ok (b, s') := by
  cases hx : x.run s with
  | error e =>
    have hbind : (x >>= f).run s = (x.run s).bind (fun p => (f p.1).run p.2) := rfl
    rw [hbind, hx] at h
    cases h
  | ok p => exact ⟨p.1, p.2, rfl, (Rule.run_bind_of hx).symm.trans h⟩

open Rule

theorem run_bind_peek {α : Type} {f : Option Token → Rule α} :
    (peek >>= f).run s = (f s.rest.head?).run s := rfl

theorem run_advance (t : Token) (rest : List Token) (used : Nat) :
    advance.run ⟨t :: rest, used⟩ = .ok ((), ⟨rest, used + 1⟩) := rfl

theorem run_accept (t : Token) (s : ParseState) :
    (accept t).run s =
      if s.rest.head? = some t then .ok (true, ⟨s.rest.tail, s.used + 1⟩)
      else .ok (false, s) := by
  rw [accept, run_bind_peek]
  split <;> rfl

theorem run_accept_self (t : Token) (rest : List Token) (used : Nat) :
    (accept t).run ⟨t :: rest, used⟩ = .ok (true, ⟨rest, used + 1⟩) := by
  rw [run_accept, if_pos (by rfl)]
  rfl

theorem run_accept_other (h : rest.head? ≠ some t) (used : Nat) :
    (accept t).run ⟨rest, used⟩ = .ok (false, ⟨rest, used⟩) := by
  rw [run_accept, if_neg h]

theorem run_refuses {α : Type} {x y : Rule α} {used : Nat} (h : rest.head? ≠ some t) :
    (accept t >>= fun b => if b = true then x else y).run ⟨rest, used⟩ =
      y.run ⟨rest, used⟩ := by
  rw [run_bind_of (run_accept_other h used), if_neg Bool.false_ne_true]

/-! ## Forward: atoms and operands -/

/-- The rule reads the tokens `tokens` as `a`, if what follows them is `allowed`. -/
def Rule.Reads {α : Type} (x : Rule α) (tokens : List Token) (a : α)
    (allowed : List Token → Prop) : Prop :=
  ∀ rest used, allowed rest →
    x.run ⟨tokens ++ rest, used⟩ = .ok (a, ⟨rest, used + tokens.length⟩)

/-- The tokens do not go on with the mark of a range. -/
def NoRange (rest : List Token) : Prop :=
  rest.head? ≠ some (.delimiter .range)

/-- The tokens end or go on with a closing parenthesis. -/
def Closes (rest : List Token) : Prop :=
  ∀ t ∈ rest.head?, t = .delimiter .parenRight

theorem Closes.noRange (h : Closes rest) : NoRange rest := by
  intro hhead
  exact absurd (h _ hhead) (by decide)

variable {n min used : Nat} {allowed : List Token → Prop} {k : Int} {u : ParseState} {a : Expr}

theorem run_literal_number (g : Grammar) (hn : n < 10 ^ digitLimit) (rest : List Token)
    (used : Nat) :
    (literalRule g).run ⟨.value (toString n) :: rest, used⟩ =
      StateT.run (do
        if ← accept (.delimiter .range) then
          return .range (.int n) (← literalOf (← g.literal))
        else return .literal (.int n)) ⟨rest, used + 1⟩ := by
  have hfirst : ¬ ((toString n).toList.head? = some '\'' ∨
      (toString n).toList.head? = some '"') := by
    rintro (h | h) <;>
      exact absurd (isDigit_of_mem_toString (List.mem_of_head? h)) (by decide)
  rw [literalRule, run_bind_peek, run_refuses (by simp), run_refuses (by simp)]
  simp only [List.head?_cons]
  rw [if_neg hfirst, readNumeral_toString, if_pos hn]
  simp only []
  rw [run_bind_of (run_advance _ _ _)]

theorem literal_reads_int (g : Grammar) (hn : n < 10 ^ digitLimit) :
    (literalRule g).Reads [.value (toString n)] (.literal (.int n)) NoRange := by
  intro rest used hrest
  rw [List.singleton_append, run_literal_number g hn, run_bind_of (run_accept_other hrest _)]
  rfl

theorem literal_reads_range (g : Grammar) {a b : Nat} (ha : a < 10 ^ digitLimit)
    (hb : g.literal.Reads [.value (toString b)] (.literal (.int b)) NoRange) :
    (literalRule g).Reads (Expr.range (.int a) (.int b)).tokens (.range (.int a) (.int b))
      NoRange := by
  intro rest used hrest
  have hread := hb rest (used + 1 + 1) hrest
  rw [List.singleton_append] at hread
  show (literalRule g).run ⟨.value (toString a) :: .delimiter .range ::
    .value (toString b) :: rest, used⟩ = _
  rw [run_literal_number g ha, run_bind_of (run_accept_self _ _ _), if_pos rfl,
    run_bind_of hread]
  rfl

theorem literal_reads_string (g : Grammar) {s : String} (hs : isQuotable s = true) :
    (literalRule g).Reads [(string s).token] (.literal (.string s)) NoRange := by
  intro rest used _
  have hlist : (string s).text.toList = '"' :: (s.toList ++ ['"']) := by
    simp [text]
  have hfirst : (string s).text.toList.head? = some '"' := by rw [hlist]; rfl
  have hquoted : quotedLiteral (string s).text = .string s := by
    have hinner : s.toList.filter (· != '"') = s.toList := by
      refine List.filter_eq_self.mpr fun c hc => ?_
      have := List.all_eq_true.mp hs c hc
      simp only [Bool.and_eq_true] at this
      exact this.1.1
    have hwithout : without '"' (string s).text = s := by
      rw [without, hlist]
      simp [hinner]
    simp [quotedLiteral, hlist, hwithout]
  show (literalRule g).run ⟨.value (string s).text :: rest, used⟩ = _
  rw [literalRule, run_bind_peek, run_refuses (by simp), run_refuses (by simp)]
  simp only [List.head?_cons]
  rw [if_pos (Or.inr hfirst), run_bind_of (run_advance _ _ _), hquoted]
  rfl

theorem literal_reads_bool (g : Grammar) (b : Bool) :
    (literalRule g).Reads [(bool b).token] (.literal (.bool b)) NoRange := by
  intro rest used _
  cases b with
  | true =>
    show (literalRule g).run ⟨.keyword .true :: rest, used⟩ = _
    rw [literalRule, run_bind_peek, run_bind_of (run_accept_self _ _ _)]
    rfl
  | false =>
    show (literalRule g).run ⟨.keyword .false :: rest, used⟩ = _
    rw [literalRule, run_bind_peek, run_refuses (by simp),
      run_bind_of (run_accept_self _ _ _)]
    rfl

theorem tight_reads_of_literal (hparen : t ≠ .delimiter .parenLeft)
    (hident : ∀ name, t ≠ .ident name) (h : (literalRule g).Reads (t :: tokens) e allowed) :
    (tightRule g).Reads (t :: tokens) e allowed := by
  intro rest used hrest
  rw [tightRule, run_refuses (by simpa using hparen), atomRule, run_bind_peek]
  cases t with
  | ident name => exact absurd rfl (hident name)
  | _ => exact h rest used hrest

theorem tight_reads_atom (g : Grammar) (he : e.Plain) (hatom : e.isBinary = false)
    (hshort : e.ShortNumbers) : (tightRule g).Reads e.tokens e NoRange := by
  cases he with
  | int n =>
    exact tight_reads_of_literal (by simp [token]) (by simp [token])
      (literal_reads_int g (hshort n (by simp [Expr.literals])))
  | bool b =>
    have h := literal_reads_bool g b
    cases b <;> exact tight_reads_of_literal (by decide) (by simp [token]) h
  | string hs =>
    exact tight_reads_of_literal (by simp [token]) (by simp [token])
      (literal_reads_string g hs)
  | @ref name hname =>
    intro rest used _
    show (tightRule g).run ⟨.ident name :: rest, used⟩ = _
    rw [tightRule, run_refuses (by simp), atomRule, run_bind_peek]
    rfl
  | prim _ _ _ _ | within _ _ _ => simp [Expr.isBinary] at hatom

theorem tight_reads_parens (h : g.simple.Reads tokens e Closes) (allowed : List Token → Prop) :
    (tightRule g).Reads (operandTokens true tokens) e allowed := by
  intro rest used _
  have hinner := h (.delimiter .parenRight :: rest) (used + 1) (by simp [Closes])
  have hlist : operandTokens true tokens ++ rest =
      .delimiter .parenLeft :: (tokens ++ .delimiter .parenRight :: rest) := by
    simp [operandTokens]
  rw [hlist, tightRule, run_bind_of (run_accept_self _ _ _), if_pos rfl,
    run_bind_of hinner, run_bind_of (run_accept_self _ _ _)]
  have hlength : used + (operandTokens true tokens).length = used + 1 + tokens.length + 1 := by
    simp only [operandTokens, if_true, List.length_append, List.length_cons, List.length_nil]
    omega
  rw [hlength]
  rfl

/-- Neither `not` nor a minus stands at the start of the tokens. -/
def Unsigned (tokens : List Token) : Prop :=
  ∀ rest, (tokens ++ rest).head? ≠ some (.keyword .not) ∧
    (tokens ++ rest).head? ≠ some (.delimiter .minus)

theorem operand_reads (hsign : Unsigned tokens) (h : (tightRule g).Reads tokens e allowed) :
    (operandRule g).Reads tokens e allowed := by
  intro rest used hrest
  rw [operandRule, run_refuses (hsign rest).1, run_refuses (hsign rest).2]
  exact h rest used hrest

theorem unsigned_parens (tokens : List Token) : Unsigned (operandTokens true tokens) := by
  intro rest
  simp [operandTokens]

theorem Expr.Plain.unsigned (he : e.Plain) (hatom : e.isBinary = false) : Unsigned e.tokens := by
  intro rest
  cases he with
  | int n => simp [Expr.tokens, token]
  | bool b => cases b <;> simp [Expr.tokens, token]
  | string hs => simp [Expr.tokens, token]
  | ref hname => simp [Expr.tokens]
  | prim _ _ _ _ | within _ _ _ => simp [Expr.isBinary] at hatom

/-! ## Forward: operators -/

theorem Operator.token_operator? (op : Operator) : op.token.operator? = some op := by
  cases op <;> rfl

theorem Operator.isInfix_of_ne_not (h : op ≠ .not) : op.isInfix = true := by
  cases op <;> first | rfl | exact absurd rfl h

theorem run_nextOperator? (hop : op ≠ .not) (hmin : min ≤ op.precedence) (rest : List Token)
    (used : Nat) :
    (nextOperator? min).run ⟨op.token :: rest, used⟩ =
      .ok (some op, ⟨op.token :: rest, used⟩) := by
  rw [nextOperator?, run_bind_peek]
  simp only [List.head?_cons, Option.bind_some, op.token_operator?, Option.filter,
    Operator.isInfix_of_ne_not hop, hmin, decide_true, Bool.and_self, if_true]
  rfl

theorem run_nextOperator?_closes (h : Closes rest) (min used : Nat) :
    (nextOperator? min).run ⟨rest, used⟩ = .ok (none, ⟨rest, used⟩) := by
  rw [nextOperator?, run_bind_peek]
  cases rest with
  | nil => rfl
  | cons t rest =>
    rw [h t rfl]
    rfl

theorem run_operatorsFrom_closes (g : Grammar) (h : Closes rest) (min : Nat) (left : Expr)
    (rounds used : Nat) :
    (operatorsFrom g min left rounds).run ⟨rest, used⟩ = .ok (left, ⟨rest, used⟩) := by
  cases rounds with
  | zero => rfl
  | succ rounds =>
    rw [operatorsFrom, run_bind_of (run_nextOperator?_closes h min used)]
    rfl

theorem operators_reads_operand (h : (operandRule g).Reads tokens e NoRange) (min : Nat) :
    (operatorsRule g min).Reads tokens e Closes := by
  intro rest used hrest
  rw [operatorsRule, run_bind_of (h rest used hrest.noRange)]
  exact run_operatorsFrom_closes g hrest min e _ _

theorem operators_reads_prim {left right : Expr} {leftTokens : List Token} (hop : op ≠ .not)
    (hleft : (operandRule g).Reads leftTokens left NoRange)
    (hright : (g.operators (op.precedence + 1)).Reads rightTokens right Closes) :
    (operatorsRule g 0).Reads (leftTokens ++ op.token :: rightTokens)
      (.prim .unknown op left right) Closes := by
  intro rest used hrest
  have hrange : NoRange (op.token :: (rightTokens ++ rest)) := by
    cases op <;> simp [NoRange, Operator.token]
  rw [List.append_assoc, List.cons_append, operatorsRule, run_bind_of (hleft _ used hrange)]
  show (operatorsFrom g 0 left ((rightTokens ++ rest).length + 1)).run _ = _
  rw [operatorsFrom, run_bind_of (run_nextOperator? hop (Nat.zero_le _) _ _)]
  show (advance >>= fun _ => _).run _ = _
  rw [run_bind_of (run_advance _ _ _), run_bind_of (hright rest _ hrest),
    run_operatorsFrom_closes g hrest]
  have hlength : used + leftTokens.length + 1 + rightTokens.length =
      used + (leftTokens ++ op.token :: rightTokens).length := by
    simp only [List.length_append, List.length_cons]
    omega
  rw [hlength]

theorem simple_reads_of_operators (hne : tokens ≠ [])
    (hparen : tokens.head? ≠ some (.delimiter .parenLeft))
    (h : (operatorsRule g 0).Reads tokens e Closes) : (simpleRule g).Reads tokens e Closes := by
  intro rest used hrest
  cases tokens with
  | nil => exact absurd rfl hne
  | cons t tokens =>
    rw [simpleRule, run_refuses (by simpa using hparen), run_bind_peek]
    exact h rest used hrest

section

variable (he : e.Plain) (hatom : e.isBinary = false)

include he hatom

theorem Expr.Plain.atom_head : ∃ t, e.tokens = [t] ∧ t ≠ .delimiter .parenLeft := by
  cases he with
  | int n => exact ⟨_, rfl, by simp [token]⟩
  | bool b => exact ⟨_, rfl, by cases b <;> decide⟩
  | string hs => exact ⟨_, rfl, by simp [token]⟩
  | ref hname => exact ⟨_, rfl, by simp⟩
  | prim _ _ _ _ | within _ _ _ => simp [Expr.isBinary] at hatom

theorem operand_reads_atom (g : Grammar) (hshort : e.ShortNumbers) :
    (operandRule g).Reads e.tokens e NoRange :=
  operand_reads (he.unsigned hatom) (tight_reads_atom g he hatom hshort)

theorem simple_reads_atom (hshort : e.ShortNumbers) (hn : e.tokens.length < n) :
    (grammar n).simple.Reads e.tokens e Closes := by
  obtain ⟨m, rfl⟩ : ∃ m, n = m + 1 := ⟨n - 1, by omega⟩
  obtain ⟨t, htokens, hparen⟩ := he.atom_head hatom
  refine simple_reads_of_operators (by simp [htokens]) (by simpa [htokens] using hparen) ?_
  exact operators_reads_operand (operand_reads_atom he hatom _ hshort) 0

end

theorem simple_reads_prim {left right : Expr} (hop : op ≠ .not) (hl : left.Plain)
    (hatom : left.isBinary = false) (hshort : left.ShortNumbers)
    (hright : (g.operators (op.precedence + 1)).Reads rightTokens right Closes) :
    (simpleRule g).Reads (operandTokens left.isBinary left.tokens ++ op.token :: rightTokens)
      (.prim .unknown op left right) Closes := by
  obtain ⟨t, htokens, hparen⟩ := hl.atom_head hatom
  rw [hatom]
  refine simple_reads_of_operators (by simp [operandTokens]) ?_ ?_
  · simpa [operandTokens, htokens] using hparen
  · exact operators_reads_prim hop (operand_reads_atom hl hatom g hshort) hright

/-- A query whose left operands are atoms is read back. -/
theorem simple_reads (he : e.Plain) (hleft : e.LeftAtoms) (hshort : e.ShortNumbers) (n : Nat)
    (hn : e.tokens.length < n) : (grammar n).simple.Reads e.tokens e Closes := by
  -- A right operand in parentheses is read two levels below the expression around it.
  induction he generalizing n with
  | @prim op left right hnot _ hl hr _ ihRight =>
    obtain ⟨hatom, hflat⟩ := hleft
    obtain ⟨m, rfl⟩ : ∃ m, n = m + 2 := by
      simp only [Expr.tokens, List.length_append, List.length_cons] at hn
      exact ⟨n - 2, by omega⟩
    refine simple_reads_prim hnot hl hatom hshort.left ?_
    refine operators_reads_operand ?_ _
    cases hbinary : right.isBinary with
    | false => exact operand_reads_atom hr hbinary _ hshort.right
    | true =>
      have hm : right.tokens.length < m := by
        simp only [Expr.tokens, operandTokens, hatom, hbinary, if_true, List.length_append,
          List.length_cons, List.length_nil] at hn
        omega
      exact operand_reads (unsigned_parens _)
        (tight_reads_parens (ihRight hflat hshort.right m hm) _)
  | @within left a b hl _ =>
    obtain ⟨hatom, -⟩ := hleft
    obtain ⟨m, rfl⟩ : ∃ m, n = m + 3 := by
      simp only [Expr.tokens, operandTokens, Expr.isBinary, Bool.false_eq_true, if_false,
        List.length_append, List.length_cons, List.length_nil] at hn
      exact ⟨n - 3, by omega⟩
    have ha : a < 10 ^ digitLimit := hshort.right a (by simp [Expr.literals])
    have hb : b < 10 ^ digitLimit := hshort.right b (by simp [Expr.literals])
    refine simple_reads_prim (by decide) hl hatom hshort.left ?_
    refine operators_reads_operand (operand_reads ?_ ?_) _
    · intro rest
      simp [operandTokens, Expr.isBinary, Expr.tokens, token]
    · exact tight_reads_of_literal (by simp [token]) (by simp [token])
        (literal_reads_range (grammar (m + 1)) ha (literal_reads_int (grammar m) hb))
  | int k => exact simple_reads_atom (.int k) rfl hshort hn
  | bool b => exact simple_reads_atom (.bool b) rfl hshort hn
  | string hs => exact simple_reads_atom (.string hs) rfl hshort hn
  | ref hname => exact simple_reads_atom (.ref hname) rfl hshort hn

/-! ## Backward: what rules read -/

/-- How many more parentheses the tokens open than they close. -/
def openParens (tokens : List Token) : Int :=
  (tokens.count (.delimiter .parenLeft) : Int) - tokens.count (.delimiter .parenRight)

theorem openParens_append (ts us : List Token) :
    openParens (ts ++ us) = openParens ts + openParens us := by
  simp only [openParens, List.count_append]
  omega

/-- A token that is quoted or no value, or a numeral that can be read. -/
def Token.IsLegible (t : Token) : Prop :=
  ∀ text, t = .value text → text.toList.head? = some '\'' ∨ text.toList.head? = some '"' ∨
    ∃ n, Text.readNumeral text = .ok n

/-- Between the two states legible tokens were read, which open at least `k` more parentheses than
they close. -/
def Consumed (k : Int) (s s' : ParseState) : Prop :=
  ∃ read, s.rest = read ++ s'.rest ∧ s'.used = s.used + read.length ∧
    k ≤ openParens read ∧ ∀ t ∈ read, t.IsLegible

theorem Consumed.refl (s : ParseState) : Consumed 0 s s :=
  ⟨[], rfl, rfl, le_refl _, by simp⟩

theorem Consumed.trans {l : Int} {t : ParseState} (h : Consumed k s t) (h' : Consumed l t u) :
    Consumed (k + l) s u := by
  obtain ⟨read, hrest, hused, hopen, hlegible⟩ := h
  obtain ⟨read', hrest', hused', hopen', hlegible'⟩ := h'
  refine ⟨read ++ read', ?_, ?_, ?_, ?_⟩
  · rw [hrest, hrest', List.append_assoc]
  · rw [hused', hused, List.length_append]
    omega
  · rw [openParens_append]
    omega
  · intro t ht
    rcases List.mem_append.mp ht with ht | ht
    · exact hlegible t ht
    · exact hlegible' t ht

theorem Consumed.mono {l : Int} {t : ParseState} (h : Consumed k s t) (hl : l ≤ k) :
    Consumed l s t := by
  obtain ⟨read, hrest, hused, hopen, hlegible⟩ := h
  exact ⟨read, hrest, hused, le_trans hl hopen, hlegible⟩

theorem Consumed.cons (ht : t.IsLegible) (rest : List Token) (used : Nat) :
    Consumed (openParens [t]) ⟨t :: rest, used⟩ ⟨rest, used + 1⟩ :=
  ⟨[t], rfl, rfl, le_refl _, by simpa using ht⟩

/-- Whatever the rule reads, it closes no more parentheses than it opens. -/
def Rule.Balanced {α : Type} (x : Rule α) : Prop :=
  ∀ s a s', x.run s = .ok (a, s') → Consumed 0 s s'

theorem Rule.Balanced.pure {α : Type} (a : α) : Rule.Balanced (pure a : Rule α) := by
  intro s b s' h
  cases h
  exact Consumed.refl s

theorem Rule.Balanced.throw {α : Type} (e : ParseError) :
    Rule.Balanced (throw e : Rule α) := by
  intro s b s' h
  cases h

theorem Rule.Balanced.bind {α β : Type} {x : Rule α} {f : α → Rule β} (hx : x.Balanced)
    (hf : ∀ a, (f a).Balanced) : (x >>= f).Balanced := by
  intro s b s' h
  obtain ⟨a, t, hxs, hft⟩ := run_bind_ok h
  exact (hx s a t hxs).trans (hf a t b s' hft)

theorem balanced_peek : peek.Balanced := by
  intro s a s' h
  cases h
  exact Consumed.refl s

theorem consumed_of_accept {t : Token} (ht : t.IsLegible) {s s' : ParseState} {b : Bool}
    (h : (accept t).run s = .ok (b, s')) :
    Consumed (if b then openParens [t] else 0) s s' := by
  rw [run_accept] at h
  split at h
  · next hhead =>
    cases h
    obtain ⟨rest, used⟩ := s
    cases rest with
    | nil => exact absurd hhead (by simp)
    | cons t' rest =>
      obtain rfl : t' = t := by simpa using hhead
      exact Consumed.cons ht rest used
  · cases h
    exact Consumed.refl s

theorem isLegible_delimiter (d : Delimiter) : (Token.delimiter d).IsLegible := by
  intro text h
  cases h

theorem isLegible_keyword (k : Keyword) : (Token.keyword k).IsLegible := by
  intro text h
  cases h

theorem balanced_accept (ht : t.IsLegible) (hopen : 0 ≤ openParens [t]) :
    (accept t).Balanced := by
  intro s b s' h
  refine (consumed_of_accept ht h).mono ?_
  split
  · exact hopen
  · exact le_refl _

theorem Consumed.of_advance (ht : t.IsLegible) (hopen : 0 ≤ openParens [t])
    (hhead : s.rest.head? = some t) (h : advance.run s = .ok ((), s')) : Consumed 0 s s' := by
  obtain ⟨rest, used⟩ := s
  cases rest with
  | nil => exact absurd hhead (by simp)
  | cons t' rest =>
    obtain rfl : t' = t := by simpa using hhead
    rw [run_advance] at h
    cases h
    exact (Consumed.cons ht rest used).mono hopen

/-- The rules of a grammar close no more parentheses than they open. -/
structure Grammar.Balanced (g : Grammar) : Prop where
  simple : g.simple.Balanced
  operators : ∀ min, (g.operators min).Balanced
  literal : g.literal.Balanced

theorem balanced_literalOf (e : Expr) : (literalOf e).Balanced := by
  cases e with
  | literal l => exact .pure l
  | _ => exact .bind balanced_peek fun _ => .throw _

theorem eq_of_accept_false (h : (accept t).run s = .ok (false, s')) : s' = s := by
  rw [run_accept] at h
  split at h
  · cases h
  · cases h
    rfl

theorem balanced_range (hg : g.Balanced) (n : Int) :
    Rule.Balanced (do
      if ← accept (.delimiter .range) then
        return Expr.range (.int n) (← literalOf (← g.literal))
      else return .literal (.int n)) := by
  refine .bind (balanced_accept (isLegible_delimiter _) (by decide)) fun isRange => ?_
  cases isRange with
  | true =>
    exact .bind hg.literal fun e => .bind (balanced_literalOf e) fun l => .pure _
  | false => exact .pure _

theorem balanced_literalRule (hg : g.Balanced) : (literalRule g).Balanced := by
  intro s a s' h
  obtain ⟨token, t, hpeek, h⟩ := run_bind_ok h
  cases hpeek
  obtain ⟨isTrue, t, htrue, h⟩ := run_bind_ok h
  cases isTrue with
  | true =>
    cases h
    exact balanced_accept (isLegible_keyword _) (by decide) s true _ htrue
  | false =>
    obtain rfl := eq_of_accept_false htrue
    obtain ⟨isFalse, u, hfalse, h⟩ := run_bind_ok h
    cases isFalse with
    | true =>
      cases h
      exact balanced_accept (isLegible_keyword _) (by decide) t true _ hfalse
    | false =>
      obtain rfl := eq_of_accept_false hfalse
      simp only [Bool.false_eq_true, if_false] at h
      split at h
      · cases h
      · next text hhead =>
        -- Both kinds of values are legible for the reason that the rule takes them.
        split at h
        · next hquote =>
          obtain ⟨⟨⟩, v, hadvance, h⟩ := run_bind_ok h
          cases h
          refine Consumed.of_advance ?_ (by simp [openParens]) hhead hadvance
          rintro _ ⟨⟩
          exact hquote.elim .inl (.inr ∘ .inl)
        · split at h
          · cases h
          · next n hn =>
            obtain ⟨⟨⟩, v, hadvance, h⟩ := run_bind_ok h
            have hvalue : (Token.value text).IsLegible := by
              rintro _ ⟨⟩
              exact .inr (.inr ⟨n, hn⟩)
            have hread := Consumed.of_advance hvalue (by simp [openParens]) hhead hadvance
            exact hread.trans (balanced_range hg n v a s' h)
      · cases h
        exact Consumed.refl _

theorem balanced_atomRule (hg : g.Balanced) : (atomRule g).Balanced := by
  intro s a s' h
  obtain ⟨token, t, hpeek, h⟩ := run_bind_ok h
  cases hpeek
  split at h
  · cases h
    exact Consumed.refl s
  · next name hhead =>
    obtain ⟨⟨⟩, v, hadvance, h⟩ := run_bind_ok h
    cases h
    refine Consumed.of_advance ?_ (by simp [openParens]) hhead hadvance
    rintro _ ⟨⟩
  · exact balanced_literalRule hg s a s' h

theorem consumed_of_parens {t : ParseState}
    (hopen : (accept (.delimiter .parenLeft)).run s = .ok (true, t))
    (hbody : ∀ e u, g.simple.run t = .ok (e, u) → Consumed k t u)
    (h : (tightRule g).run s = .ok (a, s')) : Consumed k s s' := by
  rw [tightRule, run_bind_of hopen] at h
  obtain ⟨body, u, hbodyRun, h⟩ := run_bind_ok h
  obtain ⟨isClosed, v, hclose, h⟩ := run_bind_ok h
  cases h
  have hleft := consumed_of_accept (isLegible_delimiter _) hopen
  have hright := consumed_of_accept (isLegible_delimiter _) hclose
  refine ((hleft.trans (hbody _ u hbodyRun)).trans hright).mono ?_
  have hl : openParens [.delimiter .parenLeft] = 1 := by decide
  have hr : openParens [.delimiter .parenRight] = -1 := by decide
  rw [if_pos rfl, hl, hr]
  cases isClosed <;> simp

theorem balanced_tightRule (hg : g.Balanced) : (tightRule g).Balanced := by
  intro s a s' h
  obtain ⟨isOpen, t, hopen, hrest⟩ := run_bind_ok h
  cases isOpen with
  | true => exact consumed_of_parens hopen (fun e u => hg.simple t e u) h
  | false =>
    obtain rfl := eq_of_accept_false hopen
    exact balanced_atomRule hg t a s' hrest

theorem balanced_operandRule (hg : g.Balanced) : (operandRule g).Balanced := by
  refine .bind (balanced_accept (isLegible_keyword _) (by decide)) fun isNot => ?_
  cases isNot with
  | true => exact .bind (balanced_tightRule hg) fun _ => .pure _
  | false =>
    refine .bind (balanced_accept (isLegible_delimiter _) (by decide)) fun isMinus => ?_
    cases isMinus with
    | true => exact .bind (balanced_tightRule hg) fun _ => .pure _
    | false => exact balanced_tightRule hg

theorem Token.of_operator? (h : t.operator? = some op) : t.IsLegible ∧ openParens [t] = 0 := by
  cases t with
  | delimiter d =>
    refine ⟨isLegible_delimiter d, ?_⟩
    cases d <;> first | rfl | cases h
  | keyword k => exact ⟨isLegible_keyword k, by simp [openParens]⟩
  | _ => cases h

theorem consumed_of_nextOperator? {t : ParseState}
    (hnext : (nextOperator? min).run s = .ok (some op, t))
    (hadvance : advance.run t = .ok ((), u)) : Consumed 0 s u := by
  obtain ⟨token, v, hpeek, hnext⟩ := run_bind_ok hnext
  cases hpeek
  have hpair := Except.ok.inj hnext
  obtain rfl : s = t := congrArg Prod.snd hpair
  have hop := Option.eq_some_of_filter_eq_some (congrArg Prod.fst hpair)
  obtain ⟨token, hhead, hop⟩ := Option.bind_eq_some_iff.mp hop
  obtain ⟨hlegible, hcount⟩ := Token.of_operator? hop
  exact Consumed.of_advance hlegible hcount.ge hhead hadvance

theorem balanced_operatorsFrom (hg : g.Balanced) (min : Nat) (left : Expr) (rounds : Nat) :
    (operatorsFrom g min left rounds).Balanced := by
  induction rounds generalizing left with
  | zero => exact .pure left
  | succ rounds ih =>
    intro s a s' h
    obtain ⟨next, t, hnext, h⟩ := run_bind_ok h
    cases next with
    | none =>
      obtain ⟨token, v, hpeek, hnext⟩ := run_bind_ok hnext
      cases hpeek
      cases h
      cases congrArg Prod.snd (Except.ok.inj hnext)
      exact Consumed.refl _
    | some op =>
      obtain ⟨⟨⟩, u, hadvance, h⟩ := run_bind_ok h
      obtain ⟨right, v, hright, h⟩ := run_bind_ok h
      have hread := consumed_of_nextOperator? hnext hadvance
      exact (hread.trans (hg.operators _ u right v hright)).trans (ih _ v a s' h)

theorem balanced_operatorsRule (hg : g.Balanced) (min : Nat) : (operatorsRule g min).Balanced := by
  refine .bind (balanced_operandRule hg) fun left => ?_
  intro s a s' h
  obtain ⟨t, s, hget, h⟩ := run_bind_ok h
  cases hget
  exact balanced_operatorsFrom hg min left _ _ a s' h

theorem balanced_simpleRule (hg : g.Balanced) : (simpleRule g).Balanced := by
  refine .bind (balanced_accept (isLegible_delimiter _) (by decide)) fun isOpen => ?_
  cases isOpen with
  | true => exact hg.simple
  | false =>
    refine .bind balanced_peek fun token => ?_
    cases token with
    | none => exact .pure _
    | some t => exact balanced_operatorsRule hg 0

theorem grammar_balanced (n : Nat) : (grammar n).Balanced := by
  induction n with
  | zero => exact ⟨.throw _, fun _ => .throw _, .throw _⟩
  | succ n ih =>
    exact ⟨balanced_simpleRule ih, balanced_operatorsRule ih, balanced_literalRule ih⟩

/-! ## Backward: operators on the left -/

theorem simple_leaves_open_of_parens (hg : g.Balanced)
    (h : (simpleRule g).run ⟨.delimiter .parenLeft :: rest, used⟩ = .ok (a, s')) :
    Consumed 1 ⟨.delimiter .parenLeft :: rest, used⟩ s' := by
  have hopen := run_accept_self (.delimiter .parenLeft) rest used
  rw [simpleRule, run_bind_of hopen] at h
  exact (consumed_of_accept (isLegible_delimiter _) hopen).trans (hg.simple _ a s' h)

theorem operators_leave_open (hg : g.Balanced)
    (hbody : ∀ rest used e u, g.simple.run ⟨tokens ++ rest, used⟩ = .ok (e, u) →
      Consumed 1 ⟨tokens ++ rest, used⟩ u)
    (h : (operatorsRule g min).run ⟨operandTokens true tokens ++ rest, used⟩ = .ok (a, s')) :
    Consumed 1 ⟨operandTokens true tokens ++ rest, used⟩ s' := by
  have hlist : operandTokens true tokens ++ rest =
      .delimiter .parenLeft :: (tokens ++ .delimiter .parenRight :: rest) := by
    simp [operandTokens]
  rw [hlist] at h ⊢
  obtain ⟨left, t, hoperand, h⟩ := run_bind_ok h
  rw [operandRule, run_refuses (by simp), run_refuses (by simp)] at hoperand
  have hleft := consumed_of_parens (run_accept_self _ _ _) (hbody _ _) hoperand
  obtain ⟨u, t, hget, h⟩ := run_bind_ok h
  cases hget
  exact hleft.trans (balanced_operatorsFrom hg min left _ _ a s' h)

theorem simple_leaves_open_of_right (hg : g.Balanced) {left : Expr} (hop : op ≠ .not)
    (hl : left.Plain) (hatom : left.isBinary = false) (hshort : left.ShortNumbers)
    (hright : ∀ rest used e u,
      (g.operators (op.precedence + 1)).run ⟨rightTokens ++ rest, used⟩ = .ok (e, u) →
      Consumed 1 ⟨rightTokens ++ rest, used⟩ u)
    (h : (simpleRule g).run ⟨left.tokens ++ op.token :: rightTokens ++ rest, used⟩ =
      .ok (a, s')) :
    Consumed 1 ⟨left.tokens ++ op.token :: rightTokens ++ rest, used⟩ s' := by
  obtain ⟨t, htokens, hparen⟩ := hl.atom_head hatom
  have hrange : NoRange (op.token :: (rightTokens ++ rest)) := by
    cases op <;> simp [NoRange, Operator.token]
  have hleft := operand_reads_atom hl hatom g hshort _ used hrange
  have hread := balanced_operandRule hg _ left _ hleft
  rw [List.append_assoc, List.cons_append] at h ⊢
  rw [htokens] at h hleft hread ⊢
  rw [simpleRule, run_refuses (by simpa using hparen), run_bind_peek] at h
  change (operatorsRule g 0).run _ = _ at h
  rw [operatorsRule, run_bind_of hleft] at h
  change (operatorsFrom g 0 left ((rightTokens ++ rest).length + 1)).run _ = _ at h
  have hnext := run_nextOperator? hop (Nat.zero_le op.precedence) (rightTokens ++ rest)
    (used + [t].length)
  rw [operatorsFrom, run_bind_of hnext] at h
  have hadvance := run_advance op.token (rightTokens ++ rest) (used + [t].length)
  have hoperator := consumed_of_nextOperator? hnext hadvance
  change (advance >>= fun _ => _).run _ = _ at h
  rw [run_bind_of hadvance] at h
  obtain ⟨right, v, hrightRun, h⟩ := run_bind_ok h
  have htail := balanced_operatorsFrom hg 0 _ _ v a s' h
  exact ((hread.trans hoperator).trans (hright rest _ right v hrightRun)).trans htail

/-- Any other query is read in part. -/
theorem simple_leaves_open (he : e.Plain) (hleft : ¬ e.LeftAtoms) (hshort : e.ShortNumbers)
    (n : Nat) (rest : List Token) (used : Nat) (a : Expr) (s' : ParseState)
    (h : (grammar n).simple.run ⟨e.tokens ++ rest, used⟩ = .ok (a, s')) :
    Consumed 1 ⟨e.tokens ++ rest, used⟩ s' := by
  induction he generalizing n rest used a s' with
  | @prim op left right hnot _ hl hr _ ihRight =>
    cases n with
    | zero => cases h
    | succ n =>
      have hg := grammar_balanced n
      cases hatom : left.isBinary with
      | true =>
        simp only [Expr.tokens, operandTokens, hatom, if_true, List.cons_append] at h ⊢
        exact simple_leaves_open_of_parens hg h
      | false =>
        have hbad : ¬ right.LeftAtoms := fun hflat => hleft ⟨hatom, hflat⟩
        have hbinary : right.isBinary = true := by
          cases right <;> first | rfl | exact absurd trivial hbad
        simp only [Expr.tokens, hatom, hbinary] at h ⊢
        refine simple_leaves_open_of_right hg hnot hl hatom hshort.left ?_ h
        intro rest used e u hrun
        cases n with
        | zero => cases hrun
        | succ n =>
          exact operators_leave_open (grammar_balanced n)
            (fun rest used e u => ihRight hbad hshort.right n rest used e u) hrun
  | @within left a b hl _ =>
    cases n with
    | zero => cases h
    | succ n =>
      have hbinary : left.isBinary = true := by
        rw [Bool.eq_true_of_not_eq_false fun hatom => hleft ⟨hatom, trivial⟩]
      simp only [Expr.tokens, operandTokens, hbinary, if_true, List.cons_append] at h ⊢
      exact simple_leaves_open_of_parens (grammar_balanced n) h
  | _ => exact absurd trivial hleft

/-! ## Exactness -/

theorem openParens_operandTokens (isBinary : Bool) (tokens : List Token) :
    openParens (operandTokens isBinary tokens) = openParens tokens := by
  cases isBinary with
  | false => rfl
  | true =>
    have hsplit : operandTokens true tokens =
        [.delimiter .parenLeft] ++ (tokens ++ [.delimiter .parenRight]) := by
      simp [operandTokens]
    have hl : openParens [.delimiter .parenLeft] = 1 := by decide
    have hr : openParens [.delimiter .parenRight] = -1 := by decide
    rw [hsplit, openParens_append, openParens_append, hl, hr]
    omega

theorem openParens_tokens (e : Expr) : openParens e.tokens = 0 := by
  have hliteral : ∀ l : Literal, openParens [l.token] = 0 := by
    intro l
    cases l with
    | bool b => cases b <;> rfl
    | _ => simp [openParens, token]
  induction e with
  | unknown => rfl
  | literal l => exact hliteral l
  | prim type op left right ihLeft ihRight =>
    have hop : openParens [op.token] = 0 := by cases op <;> rfl
    rw [Expr.tokens, ← List.singleton_append (x := op.token), openParens_append,
      openParens_append, openParens_operandTokens, openParens_operandTokens, ihLeft, ihRight, hop]
    rfl
  | ref name => simp [openParens, Expr.tokens]
  | range a b =>
    have hsplit : (Expr.range a b).tokens = [a.token] ++ ([.delimiter .range] ++ [b.token]) := rfl
    rw [hsplit, openParens_append, openParens_append, hliteral, hliteral]
    rfl

theorem mem_operandTokens {isBinary : Bool} (h : t ∈ tokens) :
    t ∈ operandTokens isBinary tokens := by
  cases isBinary <;> simp [operandTokens, h]

theorem Expr.token_mem_tokens {l : Literal} (h : l ∈ e.literals) : l.token ∈ e.tokens := by
  induction e with
  | unknown => cases h
  | literal l' =>
    rw [List.mem_singleton.mp h]
    exact List.mem_singleton_self _
  | prim type op left right ihLeft ihRight =>
    rcases List.mem_append.mp h with h | h
    · exact List.mem_append_left _ (mem_operandTokens (ihLeft h))
    · exact List.mem_append_right _ (List.mem_cons_of_mem _ (mem_operandTokens (ihRight h)))
  | ref name => cases h
  | range a b =>
    simp only [Expr.literals, List.mem_cons, List.not_mem_nil, or_false] at h
    rcases h with rfl | rfl <;> simp [Expr.tokens]

theorem Expr.shortNumbers_of_isLegible (h : ∀ t ∈ e.tokens, t.IsLegible) : e.ShortNumbers := by
  intro n hn
  have hfirst : ∀ c, c.isDigit = false → (toString n).toList.head? ≠ some c := by
    intro c hc hhead
    exact absurd (isDigit_of_mem_toString (List.mem_of_head? hhead)) (by simp [hc])
  rcases h _ (Expr.token_mem_tokens hn) (toString n) rfl with hquote | hquote | ⟨m, hm⟩
  · exact absurd hquote (hfirst _ (by decide))
  · exact absurd hquote (hfirst _ (by decide))
  · rw [readNumeral_toString] at hm
    split at hm
    · assumption
    · cases hm

theorem parse_tokens_iff (he : e.Plain) :
    parse e.tokens = .ok (e, e.tokens.length) ↔ e.LeftAtoms ∧ e.ShortNumbers := by
  constructor
  · intro h
    obtain ⟨⟨e', s'⟩, hrun, hpair⟩ :
        ∃ p, (grammar (e.tokens.length + 2)).simple.run { rest := e.tokens } = .ok p ∧
          (p.1, p.2.used) = (e, e.tokens.length) := by
      rw [parse] at h
      cases hrun : (grammar (e.tokens.length + 2)).simple.run { rest := e.tokens } with
      | error problem =>
        rw [hrun] at h
        cases h
      | ok p =>
        rw [hrun] at h
        exact ⟨p, rfl, Except.ok.inj h⟩
    obtain ⟨rfl, hused⟩ := Prod.mk.inj hpair
    have hall : ∀ {k : Int}, Consumed k { rest := e'.tokens } s' →
        k ≤ openParens e'.tokens ∧ ∀ t ∈ e'.tokens, t.IsLegible := by
      rintro k ⟨read, hrest, hlength, hopen, hlegible⟩
      have hread : read = e'.tokens := by
        have hnil : s'.rest = [] := by
          have := congrArg List.length hrest
          simp only [List.length_append] at this hlength hused
          exact List.eq_nil_of_length_eq_zero (by omega)
        simpa [hnil] using hrest.symm
      exact hread ▸ ⟨hopen, hlegible⟩
    have hshort := Expr.shortNumbers_of_isLegible
      (hall ((grammar_balanced _).simple _ e' s' hrun)).2
    refine ⟨?_, hshort⟩
    by_contra hleft
    have hopen : Consumed 1 { rest := e'.tokens } s' := by
      have h := simple_leaves_open he hleft hshort (e'.tokens.length + 2) [] 0 e' s'
      rw [List.append_nil] at h
      exact h hrun
    have := (hall hopen).1
    rw [openParens_tokens] at this
    omega
  · rintro ⟨hleft, hshort⟩
    have h := simple_reads he hleft hshort (e.tokens.length + 2) (by omega) [] 0 (by simp [Closes])
    rw [List.append_nil] at h
    rw [parse, h]
    show Except.ok (e, 0 + e.tokens.length) = _
    rw [Nat.zero_add]

/-- A written expression is read back, with all tokens, iff it has no operator on the left of
another one and all numbers are within the limit on digits. -/
theorem reads_back_iff {e : Expr} (he : e.Plain) :
    (∃ tokens, scan e.text = .ok tokens ∧ parse tokens = .ok (e, tokens.length)) ↔
      e.LeftAtoms ∧ e.ShortNumbers := by
  rw [← parse_tokens_iff he, scan_text he]
  constructor
  · rintro ⟨tokens, hscan, hparse⟩
    cases hscan
    exact hparse
  · intro hparse
    exact ⟨e.tokens, rfl, hparse⟩

/-- The query `x % ("y" == (z in 1~20))` is read back. -/
theorem reads_back_nested_right :
    let e := Expr.prim .unknown .modulo (.ref "x") (.prim .unknown .equal (.literal (.string "y"))
      (.prim .unknown .in (.ref "z") (.range (.int 1) (.int 20))))
    e.Plain ∧ e.LeftAtoms ∧ e.ShortNumbers ∧
      ∃ tokens, scan e.text = .ok tokens ∧ parse tokens = .ok (e, tokens.length) := by
  intro e
  have he : e.Plain :=
    .prim (by decide) (by decide) (.ref (by decide))
      (.prim (by decide) (by decide) (.string (by decide))
        (.within 1 20 (.ref (by decide))))
  have hleft : e.LeftAtoms := ⟨rfl, rfl, rfl, trivial⟩
  have hshort : e.ShortNumbers := by
    intro n hn
    have hn : n = 1 ∨ n = 20 := by
      simp [e, Expr.literals] at hn
      omega
    have : (10 : Nat) ^ 2 ≤ 10 ^ digitLimit := Nat.pow_le_pow_right (by decide) (by decide)
    omega
  exact ⟨he, hleft, hshort, (reads_back_iff he).mpr ⟨hleft, hshort⟩⟩

/-- Of the query `(a + b) * c` only the sum is read, and three of the tokens are left. -/
theorem reads_sum_of_product :
    let sum := Expr.prim .unknown .plus (.ref "a") (.ref "b")
    let e := Expr.prim .unknown .times sum (.ref "c")
    e.Plain ∧ e.text = "(a + b) * c" ∧ scan e.text = .ok e.tokens ∧ e.tokens.length = 7 ∧
      parse e.tokens = .ok (sum, 4) := by
  intro sum e
  have he : e.Plain :=
    .prim (by decide) (by decide)
      (.prim (by decide) (by decide) (.ref (by decide)) (.ref (by decide)))
      (.ref (by decide))
  exact ⟨he, by decide, scan_text he, rfl, rfl⟩

end TableScript.Query
