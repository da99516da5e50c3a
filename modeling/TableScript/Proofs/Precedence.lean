import TableScript.Proofs.Text
import TableScript.Proofs.UnreadTokens

/-!
# Operators and parentheses

Expressions of names, numbers and truth values that operators join are read as they are meant: with
parentheses where an operand binds less tightly than the operator next to it, all tokens are read
and the tree has the operators where they belong (`parse_formula_iff`). The only thing that can go
wrong is a number that has too many digits.

* `Formula` are such expressions, `Formula.lexemes` their tokens, and `Formula.Denotes` says which
  trees stand for them.
* `Stops min` are the tokens before which a chain of operators of precedence at least `min` ends.
* `Formula.Climbs` is what the induction carries: where a chain starts with the tokens of a formula
  that binds tightly enough, the chain goes on after them with the formula as its left operand.
-/

namespace TableScript

open ParseM ParseState Operator

/-! ## Formulas -/

/-- A number as it is written by decimal digits. -/
structure Numeral where
  digits : List Char
  ne_nil : digits ≠ []
  all_isDigit : digits.all Char.isDigit = true

namespace Numeral

theorem isDigit (n : Numeral) : ∀ c ∈ n.digits, c.isDigit = true :=
  List.all_eq_true.mp n.all_isDigit

def text (n : Numeral) : String :=
  String.ofList n.digits

def value (n : Numeral) : Nat :=
  Nat.ofDigitChars 10 n.digits 0

end Numeral

/-- The token of an operator. -/
def Operator.lexeme : Operator → Lexeme
  | plus => .delimiter .plus
  | minus => .delimiter .minus
  | times => .delimiter .times
  | divide => .delimiter .divide
  | modulo => .delimiter .modulo
  | greater => .delimiter .greater
  | less => .delimiter .less
  | greaterEq => .delimiter .greaterEq
  | lessEq => .delimiter .lessEq
  | equal => .delimiter .equal
  | notEqual => .delimiter .notEqual
  | not => .keyword .not
  | and => .keyword .and
  | or => .keyword .or
  | concat => .delimiter .concat

theorem Operator.operator?_lexeme (op : Operator) : op.lexeme.operator? = some op := by
  cases op <;> rfl

/-- The tokens before which no rule is chosen that starts with a word or a mark of its own. -/
def Lexeme.isPlain : Lexeme → Bool
  | .keyword .let | .keyword .if | .keyword .for | .keyword .match | .keyword .typeAlias
  | .keyword .not => false
  | .delimiter .bracketLeft | .delimiter .braceLeft | .delimiter .schema | .delimiter .pipe
  | .delimiter .minus => false
  | _ => true

/-- Names, numbers and truth values that operators join. -/
inductive Formula where
  | name (word : String)
  | number (n : Numeral)
  | truth (b : Bool)
  | join (op : { op : Operator // op.isBinary 0 = true }) (left right : Formula)

variable {l : Lexeme} {s : ParseState} {read : List Lexeme}

namespace Formula

/-- How tightly the outermost operator binds. What has no operator binds tighter than all. -/
def level : Formula → Nat
  | join op _ _ => op.val.precedence
  | _ => 4

/-- Tokens, in parentheses if need be. -/
def grouped (parens : Bool) (lexemes : List Lexeme) : List Lexeme :=
  if parens then .delimiter .parenLeft :: (lexemes ++ [.delimiter .parenRight]) else lexemes

theorem length_grouped (lexemes : List Lexeme) :
    (grouped true lexemes).length = lexemes.length + 2 := by
  simp [grouped]

/-- The tokens of a formula. A left operand stands in parentheses if it binds less tightly than the
operator, a right operand also if it binds as tightly. -/
def lexemes : Formula → List Lexeme
  | name word => [.ident word]
  | number n => [.value n.text]
  | truth b => [.keyword (if b then .true else .false)]
  | join op left right =>
    grouped (left.level < op.val.precedence) left.lexemes ++
      op.val.lexeme :: grouped (right.level ≤ op.val.precedence) right.lexemes

/-- No number has more digits than a numeral may have. -/
def Fits : Formula → Prop
  | number n => n.digits.length ≤ Text.digitLimit
  | join _ left right => left.Fits ∧ right.Fits
  | _ => True

instance decidableFits : (t : Formula) → Decidable t.Fits
  | name _ => .isTrue trivial
  | number n => inferInstanceAs (Decidable (n.digits.length ≤ Text.digitLimit))
  | truth _ => .isTrue trivial
  | join _ left right =>
    have := decidableFits left
    have := decidableFits right
    inferInstanceAs (Decidable (left.Fits ∧ right.Fits))

/-- The expression is the formula, wherever in the program its parts stand. -/
inductive Denotes : Formula → Expr → Prop
  | name {word : String} {position : Option Position} :
    Denotes (name word) (.ref { position } (.ident word))
  | number {n : Numeral} {position : Option Position} :
    Denotes (number n) (.literal { type := .int, position } (.int n.value))
  | truth {b : Bool} {position : Option Position} :
    Denotes (truth b) (.literal { type := .bool, position } (.bool b))
  | join {op : { op : Operator // op.isBinary 0 = true }} {l r : Formula} {left right : Expr}
    {position : Option Position} (hl : l.Denotes left) (hr : r.Denotes right) :
    Denotes (join op l r) (.prim { position } op left right)

/-- What comes of the tokens of a formula: its expression, after which the state is `after`, or
nothing if a number is too long. -/
inductive Outcome (t : Formula) (after : ParseState) : Except Fault Expr × ParseState → Prop
  | read {e : Expr} (fits : t.Fits) (denotes : t.Denotes e) : Outcome t after (.ok e, after)
  | refused {f : Fault} {s : ParseState} (tooLong : ¬t.Fits) : Outcome t after (.error f, s)

/-- The tokens that a formula may start with. -/
inductive Opens : Lexeme → Prop
  | name (word : String) : Opens (.ident word)
  | number (n : Numeral) : Opens (.value n.text)
  | truth (b : Bool) : Opens (.keyword (if b then .true else .false))
  | paren : Opens (.delimiter .parenLeft)

theorem Opens.isPlain (h : Opens l) : l.isPlain = true := by
  cases h with
  | truth b => cases b <;> rfl
  | _ => rfl

theorem Outcome.bind {t : Formula} {x : ParseM Expr} {f : Expr → ParseM Expr}
    {between after : ParseState} (h : t.Outcome between (x.exec s))
    (hf : ∀ e, t.Fits → t.Denotes e → t.Outcome after ((f e).exec between)) :
    t.Outcome after ((x >>= f).exec s) := by
  generalize hexec : x.exec s = outcome at h
  cases h with
  | @read e fits denotes =>
    rw [exec_bind_of hexec]
    exact hf e fits denotes
  | refused tooLong =>
    rw [exec_bind_error hexec]
    exact .refused tooLong

theorem opens_grouped (parens : Bool) {lexemes : List Lexeme}
    (h : ∃ l rest, lexemes = l :: rest ∧ Opens l) :
    ∃ l rest, grouped parens lexemes = l :: rest ∧ Opens l := by
  cases parens with
  | true => exact ⟨_, _, rfl, .paren⟩
  | false => exact h

theorem opens_lexemes (t : Formula) : ∃ l rest, t.lexemes = l :: rest ∧ Opens l := by
  induction t with
  | name word => exact ⟨_, _, rfl, .name word⟩
  | number n => exact ⟨_, _, rfl, .number n⟩
  | truth b => exact ⟨_, _, rfl, .truth b⟩
  | join op left right ihLeft _ =>
    obtain ⟨l, rest, heq, hl⟩ := opens_grouped (left.level < op.val.precedence) ihLeft
    exact ⟨l, rest ++ _, by rw [lexemes, heq, List.cons_append], hl⟩

end Formula

/-! ## Tokens that are left -/

namespace ParseState

/-- What the tokens are that are left. -/
def lexemes (s : ParseState) : List Lexeme :=
  s.rest.map (·.lexeme)

/-- The state after steps over `n` tokens. -/
def skip (s : ParseState) (n : Nat) : ParseState :=
  { s with rest := s.rest.drop n, used := s.used + n }

variable {s : ParseState}

theorem next?_eq (s : ParseState) : s.next? = s.lexemes.head? := by
  rw [next?, lexemes, List.head?_map]

variable {rest : List Lexeme}

theorem next?_of_lexemes (h : s.lexemes = l :: rest) : s.next? = some l := by
  rw [next?_eq, h, List.head?_cons]

theorem skip_skip (s : ParseState) (m n : Nat) : (s.skip m).skip n = s.skip (m + n) := by
  simp only [skip, List.drop_drop, Nat.add_assoc]

theorem lexemes_skip (h : s.lexemes = read ++ rest) : (s.skip read.length).lexemes = rest := by
  rw [skip, lexemes, List.map_drop]
  exact (congrArg (List.drop read.length) h).trans List.drop_left

theorem lexemes_skip_one (h : s.lexemes = l :: rest) : (s.skip 1).lexemes = rest :=
  lexemes_skip (show s.lexemes = [l] ++ rest from h)

end ParseState

namespace Parser

open Formula

variable {g : Grammar} {s after : ParseState} {t : Formula} {e : Expr} {min : Nat}

theorem exec_bind_here {α : Type} {f : Option Position → ParseM α} :
    (here >>= f).exec s = (f (s.rest.head?.map (·.position))).exec s := rfl

theorem exec_advance_skip (s : ParseState) : advance.exec s = (.ok (), s.skip 1) := by
  rw [exec_advance, skip, List.drop_one]

variable {rest : List Lexeme}

theorem exec_accept_skip (h : s.lexemes = l :: rest) :
    (accept l).exec s = (.ok true, s.skip 1) := by
  rw [exec_accept_of (next?_of_lexemes h), skip, List.drop_one]

/-! ## Where a chain ends -/

/-- Before such a token, or at the end, a chain of operators of precedence at least `min` ends. -/
inductive Stops (min : Nat) : Option Lexeme → Prop
  | nothing : Stops min none
  | paren : Stops min (some (.delimiter .parenRight))
  | operator {op : Operator} (looser : op.precedence < min) : Stops min (some op.lexeme)

variable {d : Delimiter} {position : Option Position} {op : Operator}

namespace Stops

variable {next : Option Lexeme}

theorem mono {min' : Nat} (h : Stops min next) (hle : min ≤ min') : Stops min' next := by
  cases h with
  | nothing => exact .nothing
  | paren => exact .paren
  | operator looser => exact .operator (looser.trans_le hle)

theorem operator?_eq_none (h : Stops min next) :
    (next.bind Lexeme.operator?).filter (isBinary min) = none := by
  cases h with
  | nothing => rfl
  | paren => rfl
  | @operator op looser =>
    have hop : isBinary min op = false := by
      rw [isBinary, Bool.and_eq_false_iff]
      exact .inr (by simpa using looser)
    rw [Option.bind_some, operator?_lexeme, Option.filter_some, hop]
    rfl

theorem ne_delimiter (h : Stops min next)
    (hd : d ∈ [.parenLeft, .range, .bird, .comma, .semicolon]) :
    next ≠ some (.delimiter d) := by
  rintro rfl
  generalize hnext : some (Lexeme.delimiter d) = next at h
  cases h with
  | nothing => cases hnext
  | paren =>
    cases hnext
    exact absurd hd (by decide)
  | @operator op looser =>
    cases op <;> cases hnext <;> exact absurd hd (by decide)

end Stops

theorem exec_operatorsFrom_stops (h : Stops min s.next?) (position : Option Position) (e : Expr)
    (rounds : Nat) : (operatorsFrom g min position e (rounds + 1)).exec s = (.ok e, s) := by
  rw [operatorsFrom, exec_bind_of (exec_nextOperator? min s), h.operator?_eq_none]
  rfl

/-! ## Operands -/

section Plain

variable {l : Lexeme} (h : s.next? = some l) (hl : l.isPlain = true)
include h hl

theorem next_ne_of_isPlain {l' : Lexeme} (hl' : l'.isPlain = false) : s.next? ≠ some l' := by
  rw [h]
  rintro ⟨⟩
  simp [hl] at hl'

theorem exec_operandRule : (operandRule g).exec s =
    (applicationRule g >>= fun e => pipeline g e g.rounds >>= resultTyped).exec s := by
  rw [operandRule, exec_bind_here, acceptKeyword, exec_refuses (next_ne_of_isPlain h hl rfl),
    acceptDelimiter, exec_refuses (next_ne_of_isPlain h hl rfl), tightRule, exec_bind_peekLexeme, h]
  split <;> simp_all [Lexeme.isPlain]

theorem exec_simpleRule : (simpleRule g).exec s = (operatorsRule g 0).exec s := by
  rw [simpleRule, exec_bind_peekLexeme, h]
  split <;> simp_all [Lexeme.isPlain]

theorem exec_expressionRule_plain : ∃ more : Expr → ParseM Expr, (expressionRule g).exec s =
    (simpleRule g >>= fun e => acceptDelimiter .semicolon >>= fun b =>
      if b = true then more e else pure e).exec s := by
  rw [expressionRule, exec_bind_peekLexeme, h]
  split
  · simp_all
  · simp_all [Lexeme.isPlain]
  · exact ⟨_, rfl⟩

end Plain

theorem exec_applicationRule (h : (atomRule g).exec s = (.ok e, after)) (he : t.Denotes e)
    (hparen : after.next? ≠ some (.delimiter .parenLeft)) :
    (applicationRule g).exec s = (.ok e, after) := by
  rw [applicationRule, exec_bind_here, exec_bind_of h]
  cases he with
  | number => rfl
  | truth => rfl
  | _ => exact exec_bind_of (exec_accept_ne hparen)

theorem exec_pipeline (hg : 0 < g.rounds) (hbird : s.next? ≠ some (.delimiter .bird)) (e : Expr) :
    (pipeline g e g.rounds).exec s = (.ok e, s) := by
  cases hrounds : g.rounds with
  | zero => omega
  | succ rounds =>
    rw [pipeline, acceptDelimiter, exec_bind_of (exec_accept_ne hbird)]
    rfl

theorem exec_resultTyped (he : t.Denotes e) (s : ParseState) :
    (resultTyped e).exec s = (.ok e, s) := by
  cases he <;> rfl

theorem operand_of_atom (read : List Lexeme) (hg : 0 < g.rounds)
    (hs : s.lexemes = l :: read ++ rest) (hl : Opens l) (hrest : Stops min rest.head?)
    (h : t.Outcome (s.skip (l :: read).length) ((atomRule g).exec s)) :
    t.Outcome (s.skip (l :: read).length) ((operandRule g).exec s) := by
  have hstops := hrest
  rw [← lexemes_skip hs, ← next?_eq] at hstops
  rw [exec_operandRule (next?_of_lexemes hs) hl.isPlain]
  generalize hatom : (atomRule g).exec s = outcome at h
  cases h with
  | @read e fits denotes =>
    rw [exec_bind_of (exec_applicationRule hatom denotes (hstops.ne_delimiter (by decide))),
      exec_bind_of (exec_pipeline hg (hstops.ne_delimiter (by decide)) e), exec_resultTyped denotes]
    exact .read fits denotes
  | @refused f s₁ tooLong =>
    rw [exec_bind, applicationRule, exec_bind_here, exec_bind, hatom]
    exact .refused tooLong

theorem operand_name (hg : 0 < g.rounds) {word : String} (h : s.lexemes = .ident word :: rest)
    (hstops : Stops min rest.head?) :
    (Formula.name word).Outcome (s.skip 1) ((operandRule g).exec s) := by
  refine operand_of_atom [] hg h (.name word) hstops ?_
  rw [atomRule, exec_bind_here, exec_bind_peekLexeme, next?_of_lexemes h]
  change (Formula.name word).Outcome _ ((advance >>= fun _ => _).exec s)
  rw [exec_bind_of (exec_advance_skip s)]
  exact .read trivial .name

theorem operand_truth (hg : 0 < g.rounds) {b : Bool}
    (h : s.lexemes = .keyword (if b then .true else .false) :: rest)
    (hstops : Stops min rest.head?) :
    (Formula.truth b).Outcome (s.skip 1) ((operandRule g).exec s) := by
  have hnext := next?_of_lexemes h
  refine operand_of_atom [] hg h (.truth b) hstops ?_
  rw [atomRule, exec_bind_here, exec_bind_peekLexeme, hnext]
  cases b with
  | true =>
    change (Formula.truth true).Outcome _ ((literalRule g).exec s)
    rw [literalRule, exec_bind_here, acceptKeyword,
      exec_bind_of (exec_accept_skip (l := .keyword .true) h)]
    exact .read trivial .truth
  | false =>
    change (Formula.truth false).Outcome _ ((literalRule g).exec s)
    rw [literalRule, exec_bind_here, acceptKeyword, exec_refuses (by simp [hnext]),
      acceptKeyword, exec_bind_of (exec_accept_skip (l := .keyword .false) h)]
    exact .read trivial .truth

theorem isQuoted_text (n : Numeral) : isQuoted n.text = false := by
  have hfirst : ∀ c, c.isDigit = false → n.text.toList.head? ≠ some c := by
    intro c hc hhead
    rw [Numeral.text, String.toList_ofList] at hhead
    exact absurd (n.isDigit c (List.mem_of_head? hhead)) (by simp [hc])
  rw [isQuoted, Bool.or_eq_false_iff]
  exact ⟨beq_eq_false_iff_ne.mpr (hfirst _ (by decide)),
    beq_eq_false_iff_ne.mpr (hfirst _ (by decide))⟩

theorem operand_number (hg : 0 < g.rounds) {n : Numeral} (h : s.lexemes = .value n.text :: rest)
    (hstops : Stops min rest.head?) :
    (Formula.number n).Outcome (s.skip 1) ((operandRule g).exec s) := by
  have hnext := next?_of_lexemes h
  refine operand_of_atom [] hg h (.number n) hstops ?_
  rw [← lexemes_skip_one h, ← next?_eq] at hstops
  rw [atomRule, exec_bind_here, exec_bind_peekLexeme, hnext]
  change (Formula.number n).Outcome _ ((literalRule g).exec s)
  have hkeyword : ∀ k, s.next? ≠ some (.keyword k) := by simp [hnext]
  simp only [literalRule, acceptKeyword]
  rw [exec_bind_here, exec_refuses (hkeyword _), exec_refuses (hkeyword _),
    exec_refuses (hkeyword _), exec_bind_peekLexeme, hnext]
  simp only [isQuoted_text, Bool.false_eq_true, if_false]
  rw [Numeral.text, Text.readNumeral_digits n.isDigit n.ne_nil]
  by_cases hlong : Text.digitLimit < n.digits.length
  · rw [if_pos hlong]
    exact .refused (Nat.not_le.mpr hlong)
  · rw [if_neg hlong]
    change (Formula.number n).Outcome _ ((advance >>= fun _ => _).exec s)
    rw [exec_bind_of (exec_advance_skip s), acceptDelimiter,
      exec_bind_of (exec_accept_ne (hstops.ne_delimiter (by decide)))]
    exact .read (Nat.le_of_not_lt hlong) .number

theorem exec_typeOf (he : t.Denotes e) (s : ParseState) :
    (typeOf e).exec s = (.ok ((e.note?.map (·.type)).getD .absent), s) := by
  cases he <;> rfl

theorem exec_followers_ne {α : Type} (hg : 0 < g.rounds) (h : s.next? ≠ some (.delimiter d))
    (item : ParseM α) : (followers g d item).exec s = (.ok [], s) := by
  rw [followers]
  cases hrounds : g.rounds with
  | zero => omega
  | succ rounds =>
    rw [itemsAfter, acceptDelimiter, exec_bind_of (exec_accept_ne h)]
    rfl

/-! ## Chains of operators -/

/-- An operand, and the operators and operands after it. -/
def chain (g : Grammar) (min : Nat) (position : Option Position) : ParseM Expr := do
  let left ← operandRule g
  operatorsFrom g min position left g.rounds

/-- What comes of a chain that starts with `read` tokens of a formula: it goes on from the state
`after` with the formula on the left, or ends if a number is too long. -/
inductive Resumes (t : Formula) (g : Grammar) (min : Nat) (position : Option Position)
    (read : Nat) (after : ParseState) (outcome : Except Fault Expr × ParseState) : Prop
  | read {e : Expr} {rounds : Nat} (fits : t.Fits) (denotes : t.Denotes e)
    (enough : g.rounds ≤ rounds + read)
    (resumed : outcome = (operatorsFrom g min position e rounds).exec after)
  | refused {f : Fault} {s : ParseState} (tooLong : ¬t.Fits) (halted : outcome = (.error f, s))

theorem resumes_of_operand (read : Nat) (h : t.Outcome after ((operandRule g).exec s)) :
    Resumes t g min position read after ((chain g min position).exec s) := by
  generalize hoperand : (operandRule g).exec s = outcome at h
  cases h with
  | @read e fits denotes =>
    refine .read fits denotes (Nat.le_add_right _ _) ?_
    rw [chain, exec_bind_of hoperand]
  | @refused f s₁ tooLong =>
    exact .refused tooLong (by rw [chain, exec_bind, hoperand])

theorem Resumes.stops {read : Nat} {outcome : Except Fault Expr × ParseState}
    (h : Resumes t g min position read after outcome) (hread : read < g.rounds)
    (hstops : Stops min after.next?) : t.Outcome after outcome := by
  cases h with
  | @read e rounds fits denotes enough resumed =>
    obtain ⟨rounds, rfl⟩ : ∃ k, rounds = k + 1 := ⟨rounds - 1, by omega⟩
    rw [resumed, exec_operatorsFrom_stops hstops]
    exact .read fits denotes
  | refused tooLong halted =>
    rw [halted]
    exact .refused tooLong

/-- Wherever a chain starts with the tokens of the formula, which binds at least as tightly as the
chain asks for and as what comes after it, the chain goes on with the formula on its left. -/
def Climbs (t : Formula) : Prop :=
  ∀ (n min : Nat) (position : Option Position) (s : ParseState) (rest : List Lexeme),
    t.lexemes.length ≤ n → min ≤ t.level → s.lexemes = t.lexemes ++ rest →
    Stops (t.level + 1) rest.head? →
    Resumes t (grammar false n) min position t.lexemes.length (s.skip t.lexemes.length)
      ((chain (grammar false n) min position).exec s)

namespace Climbs

variable {n : Nat} {rest : List Lexeme}

section

variable (h : Climbs t) (hn : t.lexemes.length ≤ n)

include h hn

theorem operators (hmin : min ≤ t.level) (hs : s.lexemes = t.lexemes ++ rest)
    (hstops : Stops min rest.head?) :
    t.Outcome (s.skip t.lexemes.length) ((operatorsRule (grammar false n) min).exec s) := by
  rw [operatorsRule, exec_bind_here]
  refine (h n min _ s rest hn hmin hs (hstops.mono (by omega))).stops ?_ ?_
  · rw [rounds_grammar]
    omega
  rwa [next?_eq, lexemes_skip hs]

theorem simple (hs : s.lexemes = t.lexemes ++ rest) (hstops : Stops 0 rest.head?) :
    t.Outcome (s.skip t.lexemes.length) ((simpleRule (grammar false n)).exec s) := by
  have hoperators := h.operators hn (Nat.zero_le _) hs hstops
  obtain ⟨l, more, heq, hl⟩ := opens_lexemes t
  rw [heq, List.cons_append] at hs
  rwa [exec_simpleRule (next?_of_lexemes hs) hl.isPlain]

theorem parenthesized (hs : s.lexemes = t.lexemes ++ .delimiter .parenRight :: rest) :
    t.Outcome (s.skip t.lexemes.length) ((parenthesized (grammar false (n + 1))).exec s) := by
  have hsimple := h.simple hn hs .paren
  have hclose := next?_of_lexemes (lexemes_skip hs)
  have hnext : s.next? ≠ some (.delimiter .parenRight) := by
    obtain ⟨l, more, heq, hl⟩ := opens_lexemes t
    rw [heq, List.cons_append] at hs
    rw [next?_of_lexemes hs]
    cases hl <;> simp
  rw [Parser.parenthesized, exec_bind_here, acceptDelimiter, exec_refuses hnext]
  refine Outcome.bind hsimple fun e fits denotes => ?_
  rw [exec_bind_of (exec_typeOf denotes _),
    exec_bind_of (exec_followers_ne (rounds_pos _ _) (by simp [hclose]) _)]
  exact .read fits denotes

end

theorem grouped (h : Climbs t) (hn : (grouped true t.lexemes).length ≤ n)
    (hs : s.lexemes = grouped true t.lexemes ++ rest) (hstops : Stops min rest.head?) :
    t.Outcome (s.skip (grouped true t.lexemes).length)
      ((operandRule (grammar false n)).exec s) := by
  rw [length_grouped] at hn
  -- What stands in the parentheses is read by the rules that nest one level less.
  obtain ⟨n, rfl⟩ : ∃ k, n = k + 1 := ⟨n - 1, by omega⟩
  have hopen : s.lexemes = .delimiter .parenLeft ::
      (t.lexemes ++ .delimiter .parenRight :: rest) := by
    simpa [Formula.grouped] using hs
  have hnext := next?_of_lexemes hopen
  refine operand_of_atom _ (rounds_pos _ _) hs .paren hstops ?_
  rw [atomRule, exec_bind_here, exec_bind_peekLexeme, hnext]
  change t.Outcome _ ((advance >>= fun _ => _).exec s)
  rw [exec_bind_of (exec_advance_skip s)]
  have hinner := lexemes_skip_one hopen
  refine (h.parenthesized (n := n) (by omega) hinner).bind fun e fits denotes => ?_
  rw [acceptDelimiter, exec_bind_of (exec_accept_skip (lexemes_skip hinner)),
    skip_skip, skip_skip, List.length_cons, List.length_append, Nat.add_comm 1]
  exact .read fits denotes

theorem operand (h : Climbs t) (hn : (Formula.grouped (t.level < min) t.lexemes).length ≤ n)
    (hs : s.lexemes = Formula.grouped (t.level < min) t.lexemes ++ rest)
    (hstops : Stops min rest.head?) :
    t.Outcome (s.skip (Formula.grouped (t.level < min) t.lexemes).length)
      ((operatorsRule (grammar false n) min).exec s) := by
  by_cases hlevel : t.level < min
  · have hafter : Stops min
        (s.skip (Formula.grouped (t.level < min) t.lexemes).length).next? := by
      rwa [next?_eq, lexemes_skip hs]
    simp only [hlevel, decide_true] at hn hs hafter ⊢
    rw [operatorsRule, exec_bind_here]
    exact (resumes_of_operand 0 (h.grouped hn hs hstops)).stops (rounds_pos _ _) hafter
  · simp only [hlevel, decide_false] at hn hs ⊢
    exact h.operators hn (by omega) hs hstops

/-- A formula on the left of an operator that the chain goes on with. -/
theorem left (h : Climbs t) (hmin : min ≤ op.precedence)
    (hn : (Formula.grouped (t.level < op.precedence) t.lexemes).length ≤ n)
    (hs : s.lexemes = Formula.grouped (t.level < op.precedence) t.lexemes ++ op.lexeme :: rest)
    (position : Option Position) :
    Resumes t (grammar false n) min position
      (Formula.grouped (t.level < op.precedence) t.lexemes).length
      (s.skip (Formula.grouped (t.level < op.precedence) t.lexemes).length)
      ((chain (grammar false n) min position).exec s) := by
  by_cases hlevel : t.level < op.precedence
  · simp only [hlevel, decide_true] at hn hs ⊢
    exact resumes_of_operand _ (h.grouped hn hs (.operator (Nat.lt_succ_self _)))
  · simp only [hlevel, decide_false] at hn hs ⊢
    exact h n min position s _ hn (by omega) hs (.operator (by omega))

end Climbs

theorem exec_operatorsFrom_round (hop : op.isBinary min = true)
    (hs : s.lexemes = op.lexeme :: rest) (position : Option Position) (left : Expr) (rounds : Nat) :
    (operatorsFrom g min position left (rounds + 1)).exec s =
      (g.operators (op.precedence + 1) >>= fun right =>
        operatorsFrom g min position (.prim { position } op left right) rounds).exec
          (s.skip 1) := by
  have hnext : (s.next?.bind Lexeme.operator?).filter (isBinary min) = some op := by
    rw [next?_of_lexemes hs, Option.bind_some, operator?_lexeme,
      Option.filter_some, if_pos hop]
  rw [operatorsFrom, exec_bind_of (exec_nextOperator? min s), hnext]
  exact exec_bind_of (exec_advance_skip s)

theorem climbs (t : Formula) : Climbs t := by
  induction t with
  | name word =>
    intro n min position s rest _ _ hs hstops
    exact resumes_of_operand _ (operand_name (rounds_pos _ _) hs hstops)
  | number m =>
    intro n min position s rest _ _ hs hstops
    exact resumes_of_operand _ (operand_number (rounds_pos _ _) hs hstops)
  | truth b =>
    intro n min position s rest _ _ hs hstops
    exact resumes_of_operand _ (operand_truth (rounds_pos _ _) hs hstops)
  | join op l r ihLeft ihRight =>
    intro n min position s rest hn hmin hs hstops
    -- Parentheses also stand at the same level, as the chain on the right starts one level up.
    have hparens : decide (r.level ≤ op.val.precedence) =
        decide (r.level < op.val.precedence + 1) := by
      simp only [Nat.lt_succ_iff]
    rw [Formula.lexemes, hparens] at hn hs ⊢
    generalize hright : Formula.grouped _ r.lexemes = right at hn hs
    rw [List.length_append, List.length_cons] at hn ⊢
    rw [List.append_assoc, List.cons_append] at hs
    have hleft := ihLeft.left (n := n) hmin (by omega) hs position
    generalize Formula.grouped _ l.lexemes = left at *
    obtain ⟨n, rfl⟩ : ∃ k, n = k + 1 := ⟨n - 1, by omega⟩
    cases hleft with
    | refused tooLong halted => exact .refused (fun fits => tooLong fits.1) halted
    | @read e rounds fits denotes enough resumed =>
      have hop := lexemes_skip hs
      have hbinary : op.val.isBinary min = true := by
        have := op.property
        simp only [isBinary, Bool.and_eq_true, decide_eq_true_eq] at this ⊢
        exact ⟨this.1, hmin⟩
      -- There is a round for every token of the formula, so there is one for the operator.
      rw [rounds_grammar] at enough
      obtain ⟨rounds, rfl⟩ : ∃ k, rounds = k + 1 := ⟨rounds - 1, by omega⟩
      rw [exec_operatorsFrom_round hbinary hop] at resumed
      have hrest := lexemes_skip_one hop
      rw [← hright] at hrest hn
      have houtcome := ihRight.operand (n := n) (by omega) hrest hstops
      generalize hexec : (operatorsRule (grammar false n) (op.val.precedence + 1)).exec
        ((s.skip left.length).skip 1) = outcome at houtcome
      change _ = (operatorsRule (grammar false n) _ >>= fun _ => _).exec _ at resumed
      have hafter : ((s.skip left.length).skip 1).skip right.length =
          s.skip (left.length + (right.length + 1)) := by
        rw [skip_skip, skip_skip, Nat.add_comm 1]
      rw [hright, hafter] at houtcome
      cases houtcome with
      | refused tooLong =>
        rw [exec_bind, hexec] at resumed
        exact .refused (fun fits => tooLong fits.2) resumed
      | @read e' fits' denotes' =>
        rw [exec_bind_of hexec] at resumed
        refine .read ⟨fits, fits'⟩ (.join denotes denotes') ?_ resumed
        rw [rounds_grammar]
        omega

/-! ## Whole programs -/

theorem exec_expressionRule {n : Nat} (hn : t.lexemes.length ≤ n) (hs : s.lexemes = t.lexemes) :
    t.Outcome (s.skip t.lexemes.length) ((expressionRule (grammar false n)).exec s) := by
  rw [← List.append_nil t.lexemes] at hs
  have hsimple := (climbs t).simple hn hs .nothing
  have hend : (s.skip t.lexemes.length).next? = none := by
    rw [next?_eq, lexemes_skip hs, List.head?_nil]
  obtain ⟨l, more, heq, hl⟩ := opens_lexemes t
  have hnext : s.next? = some l := next?_of_lexemes (by rw [hs, heq]; rfl)
  obtain ⟨more, hexec⟩ := exec_expressionRule_plain (g := grammar false n) hnext hl.isPlain
  rw [hexec]
  refine hsimple.bind fun e fits denotes => ?_
  -- There is no semicolon, so it does not matter what would be done after one.
  rw [acceptDelimiter, exec_bind_of (exec_accept_ne (by simp [hend]))]
  exact .read fits denotes

end Parser

section

variable {t : Formula} {tokens : List Token} {debugging : Bool} {types : TypeStore}
  {console : Console}

theorem Formula.outcome_parse (htokens : tokens.map (·.lexeme) = t.lexemes) (debugging : Bool)
    (types : TypeStore) (console : Console) :
    t.Outcome ((start debugging types console tokens).skip t.lexemes.length)
      ((Parser.grammar false (tokens.length + 2)).expression.exec
        (.start debugging types console tokens)) :=
  Parser.exec_expressionRule (n := tokens.length + 1)
    (by rw [← htokens, List.length_map]; omega) htokens

theorem Formula.fits_of_parse {e : Expr} (htokens : tokens.map (·.lexeme) = t.lexemes)
    (hparse : parse debugging tokens types console = (.ok e, s)) : t.Fits := by
  obtain ⟨s', hexec, -⟩ := parse_ok_iff.mp hparse
  have houtcome := outcome_parse htokens debugging types console
  rw [hexec] at houtcome
  cases houtcome with
  | read fits _ => exact fits

end

/-- The tokens of a formula are all read without an error, to the tree that the formula stands for,
iff no number has too many digits. -/
theorem parse_formula_iff {t : Formula} {tokens : List Token}
    (htokens : tokens.map (·.lexeme) = t.lexemes) (debugging : Bool) (types : TypeStore)
    (console : Console) :
    (∃ e s, parse debugging tokens types console = (.ok e, s) ∧ t.Denotes e ∧
      s.used = tokens.length ∧ s.rest = [] ∧ s.console.hasErrors = false) ↔ t.Fits := by
  constructor
  · rintro ⟨e, s, hparse, -⟩
    exact Formula.fits_of_parse htokens hparse
  · intro hfits
    have houtcome := Formula.outcome_parse htokens debugging types console
    generalize hexec : (Parser.grammar false (tokens.length + 2)).expression.exec
      (.start debugging types console tokens) = outcome at houtcome
    cases houtcome with
    | refused tooLong => exact absurd hfits tooLong
    | @read e _ denotes =>
      refine ⟨e, _, parse_ok_iff.mpr ⟨_, hexec, rfl⟩, denotes, ?_, ?_, ?_⟩
      · rw [← htokens, List.length_map]
        exact Nat.zero_add _
      · rw [← htokens, List.length_map]
        exact List.drop_length
      · rw [Console.hasErrors, Console.showTree_log]
        rfl

/-- The program `(a + 1) * 2 - (b - true)`. -/
theorem parse_formula_grouped :
    let t : Formula := .join ⟨.minus, rfl⟩
      (.join ⟨.times, rfl⟩
        (.join ⟨.plus, rfl⟩ (.name "a") (.number ⟨['1'], by decide, rfl⟩))
        (.number ⟨['2'], by decide, rfl⟩))
      (.join ⟨.minus, rfl⟩ (.name "b") (.truth true))
    let tokens : List Token := [.delimiter .parenLeft, .ident "a", .delimiter .plus, .value "1",
      .delimiter .parenRight, .delimiter .times, .value "2", .delimiter .minus,
      .delimiter .parenLeft, .ident "b", .delimiter .minus, .keyword .true,
      .delimiter .parenRight].map (⟨·, {}⟩)
    tokens.map (·.lexeme) = t.lexemes ∧ t.Fits ∧
      ∃ e s, parse false tokens {} {} = (.ok e, s) ∧ t.Denotes e ∧
        s.used = 13 ∧ s.rest = [] ∧ s.console.hasErrors = false := by
  intro t tokens
  have htokens : tokens.map (·.lexeme) = t.lexemes := rfl
  have hfits : t.Fits := by decide
  exact ⟨htokens, hfits, (parse_formula_iff htokens false {} {}).mpr hfits⟩

/-- The numeral of `k + 1` ones. -/
def Numeral.ones (k : Nat) : Numeral where
  digits := List.replicate (k + 1) '1'
  ne_nil := by simp
  all_isDigit := List.all_eq_true.mpr fun c hc => by rw [List.eq_of_mem_replicate hc]; rfl

/-- The program `a + 1…1` is not read if there are 4301 ones. -/
theorem not_parse_formula_tooLong :
    let t : Formula := .join ⟨.plus, rfl⟩ (.name "a") (.number (.ones 4300))
    let tokens : List Token := t.lexemes.map (⟨·, {}⟩)
    tokens.map (·.lexeme) = t.lexemes ∧ ¬∃ e s, parse false tokens {} {} = (.ok e, s) := by
  intro t tokens
  have htokens : tokens.map (·.lexeme) = t.lexemes := by
    rw [List.map_map]
    exact List.map_id _
  refine ⟨htokens, fun ⟨e, s, hparse⟩ => ?_⟩
  have hlength : (List.replicate 4301 '1').length ≤ Text.digitLimit :=
    (Formula.fits_of_parse htokens hparse).2
  rw [List.length_replicate] at hlength
  exact absurd hlength (by decide)

end TableScript
