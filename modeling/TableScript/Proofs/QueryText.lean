import TableScript.Proofs.Text
import TableScript.Query.Parser

/-!
# Queries as they are written

`Expr.text` writes an expression of a query with parentheses around every operand that is itself an
operator between operands, and `Expr.tokens` are the tokens that this text ought to have. The
expressions in question are the `Plain` ones: names, numbers, truth values and texts that queries
can write, joined by the operators that stand between two operands, with ranges to the right of
`in`.

The main result is `scan_text`: the scanner finds exactly these tokens. Parentheses are the only
marks that stand next to each other in such a text, and a pair of them is read like two single ones
(`run_paren`).
-/

namespace TableScript.Query

open Text

/-! ## Printing -/

/-- Is the expression an operator between operands? -/
def Expr.isBinary : Expr → Bool
  | .prim .. => true
  | _ => false

/-- A literal as it is written. -/
def Literal.text : Literal → String
  | .int n => toString n
  | .bool b => if b then "true" else "false"
  | .char s => "'" ++ s ++ "'"
  | .string s => "\"" ++ s ++ "\""

/-- An operand as it is written, if `text` is written for the expression in it. -/
def operandText (isBinary : Bool) (text : String) : String :=
  if isBinary then "(" ++ text ++ ")" else text

/-- An expression as it is written. -/
def Expr.text : Expr → String
  | .unknown => ""
  | .literal l => l.text
  | .prim _ op left right =>
    operandText left.isBinary left.text ++ " " ++ op.text ++ " " ++
      operandText right.isBinary right.text
  | .ref name => name
  | .range a b => a.text ++ "~" ++ b.text

/-- The token of a literal. -/
def Literal.token : Literal → Token
  | .bool true => .keyword .true
  | .bool false => .keyword .false
  | l => .value l.text

/-- The token of an operator. -/
def Operator.token : Operator → Token
  | plus => .delimiter .plus
  | minus => .delimiter .minus
  | times => .delimiter .times
  | divide => .delimiter .divide
  | modulo => .delimiter .modulo
  | greater => .delimiter .greater
  | less => .delimiter .less
  | greaterEq => .delimiter .greaterEq
  | lessEq => .delimiter .lessEq
  | equal => .delimiter .equal
  | notEqual => .delimiter .notEqual
  | not => .keyword .not
  | and => .keyword .and
  | or => .keyword .or
  | .in => .keyword .in

/-- The tokens of an operand, if `tokens` are those of the expression in it. -/
def operandTokens (isBinary : Bool) (tokens : List Token) : List Token :=
  if isBinary then .delimiter .parenLeft :: tokens ++ [.delimiter .parenRight] else tokens

/-- The tokens of an expression as it is written. -/
def Expr.tokens : Expr → List Token
  | .unknown => []
  | .literal l => [l.token]
  | .prim _ op left right =>
    operandTokens left.isBinary left.tokens ++ op.token ::
      operandTokens right.isBinary right.tokens
  | .ref name => [.ident name]
  | .range a b => [a.token, .delimiter .range, b.token]

/-! ## The expressions that queries can write -/

/-- A character of a name. -/
def isNameChar (c : Char) : Bool :=
  Text.isAlnum c || c == '.' || c == '_'

/-- A name that queries can write: a dotted identifier that is no keyword and no numeric word. -/
def isName (s : String) : Bool :=
  s.toList.all isNameChar && Text.isIdentifier (Text.without '.' s) &&
    (Keyword.ofText? s).isNone && !Text.isNumericWord s

/-- A text that queries can write between quotation marks: no quotation mark is in it, and no white
space but spaces. -/
def isQuotable (s : String) : Bool :=
  s.toList.all fun c => c != '"' && c != '\'' && (c == ' ' || !Text.isBlank c)

/-- The expressions of names, numbers, truth values and texts, with operators between two operands
and ranges to the right of `in`. -/
inductive Expr.Plain : Expr → Prop
  | int (n : Nat) : Plain (.literal (.int n))
  | bool (b : Bool) : Plain (.literal (.bool b))
  | string {s : String} : isQuotable s = true → Plain (.literal (.string s))
  | ref {name : String} : isName name = true → Plain (.ref name)
  | prim {op : Operator} {left right : Expr} : op ≠ .not → op ≠ .in →
      Plain left → Plain right → Plain (.prim .unknown op left right)
  | within {left : Expr} (a b : Nat) : Plain left →
      Plain (.prim .unknown .in left (.range (.int a) (.int b)))

/-! ## Single steps of the scanner -/

variable {c : Char}

theorem isNameChar_cases (hc : isNameChar c = true) : isAlnum c = true ∨ c = '.' ∨ c = '_' := by
  simpa [isNameChar, or_assoc] using hc

theorem isMark_of_isNameChar (hc : isNameChar c = true) : isMark c = false := by
  rw [Bool.eq_false_iff]
  intro h
  simp only [isMark, marks, List.contains_eq_mem, decide_eq_true_eq, List.mem_cons,
    List.not_mem_nil, or_false] at h
  rcases h with rfl | rfl | rfl | rfl | rfl | rfl | rfl | rfl | rfl | rfl | rfl | rfl | rfl <;>
    exact absurd hc (by decide)

theorem isBlank_of_isNameChar (hc : isNameChar c = true) : isBlank c = false := by
  rcases isNameChar_cases hc with h | rfl | rfl
  · exact isBlank_eq_false_of_isAlnum h
  · decide
  · decide

theorem isNameChar_of_isDigit (hc : c.isDigit = true) : isNameChar c = true := by
  simp [isNameChar, isAlnum_of_isDigit hc]

theorem isExpected_of_isNameChar (hc : isNameChar c = true) : isExpected c = true := by
  rcases isNameChar_cases hc with h | rfl | rfl
  · simp [isExpected, h]
  · decide
  · decide

variable {out : List Token} {s : String}

namespace Scanner

variable {cs : List Char}

theorem run_cons (s : Scanner) (c : Char) (rest : List Char) :
    s.run (c :: rest) = (s.step c rest).bind fun s' => s'.run rest := rfl

theorem run_word (hcs : ∀ c ∈ cs, isNameChar c = true) (word : List Char) (tokens : List Token)
    (rest : List Char) :
    run { word, tokens } (cs ++ rest) = run { word := cs.reverse ++ word, tokens } rest := by
  induction cs generalizing word with
  | nil => rfl
  | cons c cs ih =>
    have hname := hcs c List.mem_cons_self
    have hne : ∀ c', isNameChar c' = false → c ≠ c' := by
      rintro _ hc' rfl
      rw [hname] at hc'
      cases hc'
    have hstep : step { word, tokens } c (cs ++ rest) = .ok { word := c :: word, tokens } := by
      simp [step, isExpected_of_isNameChar hname, isMark_of_isNameChar hname,
        isBlank_of_isNameChar hname, hne ' ' (by decide), hne '\'' (by decide), hne '"' (by decide)]
      rfl
    rw [List.cons_append, run_cons, hstep]
    show run { word := c :: word, tokens } (cs ++ rest) = _
    rw [ih (fun x hx => hcs x (List.mem_cons_of_mem _ hx))]
    simp

theorem run_space (word : List Char) (tokens : List Token) (rest : List Char) :
    run { word, tokens } (' ' :: rest) =
      (endWord { word, tokens }).bind fun s => run s rest := by
  have hstep : step { word, tokens } ' ' rest = endWord { word, tokens } := by
    simp [step, show isExpected ' ' = true by decide]
  rw [run_cons, hstep]

theorem run_quoted (word : List Char) (tokens : List Token) (rest : List Char)
    (hcs : ∀ c ∈ cs, c ≠ '"' ∧ c ≠ '\'' ∧ (c = ' ' ∨ isBlank c = false)) :
    run { quoted := true, word, tokens } (cs ++ rest) =
      run { quoted := true, word := cs.reverse ++ word, tokens } rest := by
  induction cs generalizing word with
  | nil => rfl
  | cons c cs ih =>
    obtain ⟨hdouble, hsingle, hblank⟩ := hcs c List.mem_cons_self
    have hstep : step { quoted := true, word, tokens } c (cs ++ rest) =
        .ok { quoted := true, word := c :: word, tokens } := by
      have hquote : (c == '\'' || c == '"') = false := by simp [hdouble, hsingle]
      have hkept : ((c == ' ' && true) || !isBlank c) = true := by
        rcases hblank with rfl | hblank
        · rfl
        · simp [hblank]
      simp only [step, hquote, hkept, Bool.not_true, Bool.and_false, Bool.true_or,
        Bool.false_eq_true, if_false, if_true]
      rfl
    rw [List.cons_append, run_cons, hstep]
    show run { quoted := true, word := c :: word, tokens } (cs ++ rest) = _
    rw [ih _ fun x hx => hcs x (List.mem_cons_of_mem _ hx)]
    simp

theorem run_quote (quoted : Bool) (word : List Char) (tokens : List Token) (rest : List Char) :
    run { quoted, word, tokens } ('"' :: rest) =
      run { quoted := !quoted, word := '"' :: word, tokens } rest := by
  cases quoted <;> rfl

theorem endWord_nil (tokens : List Token) : endWord { tokens } = .ok { tokens } := by
  rfl

/-- A parenthesis. -/
def isParen (c : Char) : Bool :=
  c == '(' || c == ')'

theorem isParen_cases (hc : isParen c = true) : c = '(' ∨ c = ')' := by
  simpa [isParen] using hc

/-- The token of a parenthesis. -/
def parenToken (c : Char) : Token :=
  .delimiter (if c = '(' then .parenLeft else .parenRight)

/-- After any number of parentheses the text ends or goes on with something that is no mark. -/
def ParensApart (cs : List Char) : Prop :=
  ∀ c ∈ (cs.dropWhile isParen).head?, isMark c = false

theorem ParensApart.cons (hc : isParen c = true) (hcs : ParensApart cs) :
    ParensApart (c :: cs) := by
  rwa [ParensApart, List.dropWhile_cons_of_pos hc]

variable {c : Char}

section

variable (hc : isParen c = true)
include hc

theorem ParensApart.of_cons (hcs : ParensApart (c :: cs)) : ParensApart cs := by
  rwa [ParensApart, List.dropWhile_cons_of_pos hc] at hcs

theorem mark_paren_paren {c' : Char} (hc' : isParen c' = true) (tokens : List Token) :
    mark { tokens } c (some c') =
      .ok { skip := true, tokens := parenToken c' :: parenToken c :: tokens } := by
  rcases isParen_cases hc with rfl | rfl <;> rcases isParen_cases hc' with rfl | rfl <;> rfl

theorem mark_paren (tokens : List Token) :
    mark { tokens } c none = .ok { tokens := parenToken c :: tokens } := by
  rcases isParen_cases hc with rfl | rfl <;> rfl

theorem isMark_of_isParen : isMark c = true := by
  rcases isParen_cases hc with rfl | rfl <;> rfl

theorem step_paren {word : List Char} {tokens : List Token}
    (hword : endWord { word, tokens } = .ok { tokens := out }) (rest : List Char) :
    step { word, tokens } c rest = mark { tokens := out } c (rest.head?.filter isMark) := by
  rcases isParen_cases hc with rfl | rfl <;> simp only [step] <;> rw [hword] <;> rfl

theorem run_skip (tokens : List Token) (rest : List Char) :
    run { skip := true, tokens } (c :: rest) = run { tokens } rest := by
  rcases isParen_cases hc with rfl | rfl <;> rfl

theorem run_paren {rest : List Char} (hrest : ParensApart rest) {word : List Char}
    {tokens : List Token} (hword : endWord { word, tokens } = .ok { tokens := out }) :
    run { word, tokens } (c :: rest) = run { tokens := parenToken c :: out } rest := by
  -- Pairs can overlap either way, so the induction is on the run of parentheses that follows.
  induction rest generalizing c word tokens out with
  | nil =>
    rw [run_cons, step_paren hc hword]
    show (mark { tokens := out } c none).bind _ = _
    rw [mark_paren hc]
    rfl
  | cons c' rest ih =>
    rw [run_cons, step_paren hc hword]
    cases hc' : isParen c' with
    | true =>
      have hfilter : (c' :: rest).head?.filter isMark = some c' := by
        simp [isMark_of_isParen hc']
      rw [hfilter, mark_paren_paren hc hc']
      show run { skip := true, tokens := parenToken c' :: parenToken c :: out } (c' :: rest) = _
      rw [run_skip hc', ih hc' (hrest.of_cons hc') (endWord_nil _)]
    | false =>
      have hmark : isMark c' = false := by
        apply hrest
        simp [hc']
      have hfilter : (c' :: rest).head?.filter isMark = none := by simp [hmark]
      rw [hfilter, mark_paren hc]
      rfl

end

theorem run_operator (op : Operator) (tokens : List Token) (rest : List Char) :
    run { tokens } (op.text.toList ++ ' ' :: rest) = run { tokens := op.token :: tokens } rest := by
  cases op <;> rfl

end Scanner

/-! ## Pieces of a text -/

open Scanner

/-- The characters `cs` are read as the tokens `out`, the last of them when its word ends. Before
the piece no word is open, and after it the text goes on in such a way that parentheses can be told
apart. -/
structure Scans (cs : List Char) (out : List Token) : Prop where
  /-- What is put in parentheses can be told from them. -/
  starts : ∀ rest, ParensApart (cs ++ rest)
  runs : ∀ tokens rest, ParensApart rest → ∃ word tokens',
    run { tokens } (cs ++ rest) = run { word, tokens := tokens' } rest ∧
      endWord { word, tokens := tokens' } = .ok { tokens := out.reverse ++ tokens }

variable {cs : List Char} {e : Expr}

theorem parensApart_of_isMark (hc : isMark c = false) (cs : List Char) : ParensApart (c :: cs) := by
  have hparen : isParen c = false := by
    cases h : isParen c with
    | false => rfl
    | true => rw [isMark_of_isParen h] at hc; exact absurd hc (by decide)
  intro x hx
  simp only [List.dropWhile_cons, hparen, Bool.false_eq_true, if_false, List.head?_cons,
    Option.mem_def, Option.some.injEq] at hx
  rw [← hx, hc]

theorem Scans.word {t : Token} (hne : cs ≠ []) (hcs : ∀ c ∈ cs, isNameChar c = true)
    (hend : ∀ tokens, endWord { word := cs.reverse, tokens } = .ok { tokens := t :: tokens }) :
    Scans cs [t] := by
  refine ⟨fun rest => ?_, fun tokens rest _ => ⟨cs.reverse, tokens, ?_, ?_⟩⟩
  · cases cs with
    | nil => exact absurd rfl hne
    | cons c cs =>
      exact parensApart_of_isMark (isMark_of_isNameChar (hcs c List.mem_cons_self)) _
  · rw [run_word hcs, List.append_nil]
  · rw [hend]
    rfl

theorem Scans.quoted (hs : isQuotable s = true) :
    Scans ("\"" ++ s ++ "\"").toList [.value ("\"" ++ s ++ "\"")] := by
  have hcs : ∀ c ∈ s.toList, c ≠ '"' ∧ c ≠ '\'' ∧ (c = ' ' ∨ isBlank c = false) := by
    intro c hc
    have := List.all_eq_true.mp hs c hc
    simpa [and_assoc] using this
  have hlist : ("\"" ++ s ++ "\"").toList = '"' :: (s.toList ++ ['"']) := by simp
  refine ⟨fun rest => ?_, fun tokens rest _ => ⟨'"' :: (s.toList.reverse ++ ['"']),
    tokens, ?_, ?_⟩⟩
  · rw [hlist]
    exact parensApart_of_isMark (by decide) _
  · rw [hlist, List.cons_append, run_quote, List.append_assoc, Bool.not_false,
      run_quoted _ _ _ hcs]
    show run _ ('"' :: rest) = _
    rw [run_quote]
    rfl
  · have hback : String.ofList ('"' :: (s.toList.reverse ++ ['"'])).reverse = "\"" ++
        s ++ "\"" := by
      rw [← String.toList_inj, hlist]
      simp
    have hkeyword : Keyword.ofText? ("\"" ++ s ++ "\"") = none := by
      refine List.find?_eq_none.mpr fun k _ hk => ?_
      have htext : k.text.toList = '"' :: (s.toList ++ ['"']) := by
        rw [beq_iff_eq.mp hk, hlist]
      cases k <;> simp [Keyword.text] at htext
    have hvalue : isValueWord ("\"" ++ s ++ "\"") = true := by
      have hlast : ('"' :: (s.toList ++ ['"'])).getLast? = some '"' := by
        rw [← List.cons_append, List.getLast?_concat]
      simp [isValueWord, isBetween, hlist, hlast]
    simp only [endWord, hback, hkeyword, hvalue, if_true]
    rfl

theorem literal_int_text (n : Nat) : (Literal.int n).text = toString n := rfl

theorem endWord_numeral (n : Nat) (tokens : List Token) :
    endWord { word := (toString n).toList.reverse, tokens } =
      .ok { tokens := .value (toString n) :: tokens } := by
  have hdigits : (toString n).toList.all Char.isDigit = true :=
    List.all_eq_true.mpr fun c => isDigit_of_mem_toString
  have hback : String.ofList (toString n).toList.reverse.reverse = toString n := by
    rw [List.reverse_reverse, String.ofList_toList]
  have hkeyword : Keyword.ofText? (toString n) = none := by
    refine List.find?_eq_none.mpr fun k _ hk => ?_
    rw [← beq_iff_eq.mp hk] at hdigits
    cases k <;> exact absurd hdigits (by decide)
  have hnumeric : isNumericWord (toString n) = true := by
    have hall : (toString n).toList.all isNumeric = true :=
      List.all_eq_true.mpr fun c hc =>
        isNumeric_of_isDigit (isDigit_of_mem_toString hc)
    have hempty : (toString n).isEmpty = false := by
      rw [Bool.eq_false_iff, ne_eq, String.isEmpty_iff]
      intro h
      exact toList_toString_ne_nil n (by rw [h]; rfl)
    rw [isNumericWord, hall, hempty]
    rfl
  have hvalue : isValueWord (toString n) = true := by
    rw [isValueWord, hnumeric, Bool.or_true, Bool.true_or, Bool.true_or]
  simp only [endWord, hback, hkeyword, hvalue, if_true]

theorem isNameChar_of_mem_toString {n : Nat} (hc : c ∈ (toString n).toList) :
    isNameChar c = true :=
  isNameChar_of_isDigit (isDigit_of_mem_toString hc)

theorem Scans.numeral (n : Nat) : Scans (toString n).toList [.value (toString n)] :=
  Scans.word (toList_toString_ne_nil n) (fun _ => isNameChar_of_mem_toString)
    (endWord_numeral n)

theorem Scans.name (hs : isName s = true) : Scans s.toList [.ident s] := by
  simp only [isName, Bool.and_eq_true, Bool.not_eq_true', Option.isNone_iff_eq_none] at hs
  obtain ⟨⟨⟨hchars, hident⟩, hkeyword⟩, hnumeric⟩ := hs
  have hchars := List.all_eq_true.mp hchars
  have hne : s.toList ≠ [] := by
    intro h
    rw [without, h] at hident
    exact absurd hident (by decide)
  have hquote : ∀ q, isNameChar q = false → isBetween q s = false := by
    intro q hq
    rw [Bool.eq_false_iff]
    intro hbetween
    simp only [isBetween, Bool.and_eq_true, beq_iff_eq] at hbetween
    have := hchars q (List.mem_of_head? hbetween.1)
    rw [hq] at this
    exact absurd this (by decide)
  have hvalue : isValueWord s = false := by
    have htrue : s ≠ "true" := by rintro rfl; exact absurd hkeyword (by decide)
    have hfalse : s ≠ "false" := by rintro rfl; exact absurd hkeyword (by decide)
    simp [isValueWord, htrue, hfalse, hnumeric, hquote '"' (by decide), hquote '\'' (by decide)]
  refine Scans.word hne hchars fun tokens => ?_
  have hback : String.ofList s.toList.reverse.reverse = s := by
    rw [List.reverse_reverse, String.ofList_toList]
  simp only [endWord, hback, hkeyword, hvalue, hident, if_true, Bool.false_eq_true, if_false]

theorem Scans.truth (b : Bool) : Scans (Literal.bool b).text.toList [(Literal.bool b).token] := by
  cases b with
  | false | true => exact Scans.word (by decide) (List.all_eq_true.mp (by decide)) fun _ => rfl

theorem Scans.range (a b : Nat) :
    Scans (Expr.range (.int a) (.int b)).text.toList (Expr.range (.int a) (.int b)).tokens := by
  have hlist : (Expr.range (.int a) (.int b)).text.toList =
      (toString a).toList ++ '~' :: (toString b).toList := by
    rw [Expr.text, literal_int_text, literal_int_text, String.toList_append, String.toList_append,
      List.append_assoc]
    rfl
  refine ⟨fun rest => ?_, fun tokens rest hrest => ?_⟩
  · rw [hlist, List.append_assoc]
    exact (Scans.numeral a).starts _
  · obtain ⟨word, tokens', hrun, hend⟩ := (Scans.numeral b).runs
      (.delimiter .range :: .value (toString a) :: tokens) rest hrest
    refine ⟨word, tokens', ?_, hend⟩
    have hnext : ((toString b).toList ++ rest).head?.filter isMark = none := by
      cases hb : (toString b).toList with
      | nil => exact absurd hb (toList_toString_ne_nil b)
      | cons c cs =>
        have hname := isNameChar_of_mem_toString (n := b) (hb ▸ List.mem_cons_self)
        simp [isMark_of_isNameChar hname]
    have hstep : ∀ cs, cs.head?.filter isMark = none →
        run { word := (toString a).toList.reverse, tokens } ('~' :: cs) =
          run { tokens := .delimiter .range :: .value (toString a) :: tokens } cs := by
      intro cs hcs
      rw [run_cons]
      simp only [step, hcs, endWord_numeral]
      rfl
    rw [hlist, List.append_assoc, run_word (fun _ => isNameChar_of_mem_toString), List.append_nil,
      List.cons_append, hstep _ hnext, hrun]

theorem Scans.operator {cs' : List Char} {out' : List Token} (h : Scans cs out)
    (h' : Scans cs' out') (op : Operator) :
    Scans (cs ++ ' ' :: (op.text.toList ++ ' ' :: cs')) (out ++ op.token :: out') := by
  refine ⟨fun rest => ?_, fun tokens rest hrest => ?_⟩
  · rw [List.append_assoc]
    exact h.starts _
  · have hspace : ParensApart (' ' :: (op.text.toList ++ ' ' :: cs') ++ rest) :=
      parensApart_of_isMark (by decide) _
    obtain ⟨word, tokens', hrun, hend⟩ := h.runs tokens _ hspace
    obtain ⟨word', tokens'', hrun', hend'⟩ :=
      h'.runs (op.token :: (out.reverse ++ tokens)) rest hrest
    refine ⟨word', tokens'', ?_, ?_⟩
    · rw [List.append_assoc, hrun, List.cons_append, run_space, hend]
      show run _ (op.text.toList ++ ' ' :: cs' ++ rest) = _
      rw [List.append_assoc, List.cons_append, run_operator, hrun']
    · rw [hend']
      simp

theorem Scans.parens (h : Scans cs out) :
    Scans ('(' :: cs ++ [')']) (.delimiter .parenLeft :: out ++ [.delimiter .parenRight]) := by
  refine ⟨fun rest => ?_, fun tokens rest hrest => ?_⟩
  · rw [List.append_assoc, List.cons_append]
    exact (h.starts _).cons (by decide)
  · obtain ⟨word, tokens', hrun, hend⟩ :=
      h.runs (.delimiter .parenLeft :: tokens) (')' :: rest) (hrest.cons (by decide))
    refine ⟨[], .delimiter .parenRight ::
      (out.reverse ++ .delimiter .parenLeft :: tokens), ?_, ?_⟩
    · have hopen := run_paren (c := '(') (by decide) (h.starts (')' :: rest)) (endWord_nil tokens)
      have hclose := run_paren (c := ')') (by decide) hrest hend
      rw [List.append_assoc, List.cons_append]
      exact hopen.trans (hrun.trans hclose)
    · rw [endWord_nil]
      simp

theorem Scans.operand (h : Scans e.text.toList e.tokens) :
    Scans (operandText e.isBinary e.text).toList (operandTokens e.isBinary e.tokens) := by
  cases e.isBinary with
  | false => exact h
  | true =>
    have hlist : (operandText true e.text).toList = '(' :: e.text.toList ++ [')'] := by
      simp [operandText]
    rw [hlist]
    exact h.parens

theorem Expr.toList_text_prim (type : Ty) (op : Operator) (left right : Expr) :
    (Expr.prim type op left right).text.toList =
      (operandText left.isBinary left.text).toList ++
        ' ' :: (op.text.toList ++ ' ' :: (operandText right.isBinary right.text).toList) := by
  simp [Expr.text]

theorem Expr.Plain.scans (he : e.Plain) : Scans e.text.toList e.tokens := by
  induction he with
  | int n => exact Scans.numeral n
  | bool b => exact Scans.truth b
  | string hs => exact Scans.quoted hs
  | ref hname => exact Scans.name hname
  | prim _ _ _ _ ihLeft ihRight =>
    rw [Expr.toList_text_prim]
    exact ihLeft.operand.operator ihRight.operand _
  | within a b _ ih =>
    rw [Expr.toList_text_prim]
    exact ih.operand.operator (Scans.range a b) _

/-- The text of a query has its tokens. -/
theorem scan_text (he : e.Plain) : scan e.text = .ok e.tokens := by
  obtain ⟨word, tokens, hrun, hend⟩ := he.scans.runs [] [] (by simp [ParensApart])
  rw [List.append_nil] at hrun hend
  rw [scan, hrun]
  show (endWord { word, tokens }).map (fun s => s.tokens.reverse) = _
  rw [hend]
  simp [Except.map]

end TableScript.Query
