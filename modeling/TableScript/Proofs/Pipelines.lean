import TableScript.Proofs.MovedTokens
import TableScript.Proofs.Precedence

/-!
# Pipelines are nested calls

`h |> f(x) |> g` is read to the tree of `g(f(h, x))`, but for the places and for the types noted at
inner calls. Two things are asked of the head `h`. It is read to the same expression where `|>`
follows and where it stands as the first argument: `()` is not, since it takes a parenthesis that
follows. And it is a call or has no function type: an argument of a function type is noted with the
type of its result, and the head of a pipeline is not.

* `Completes` says that a rule reads all of some tokens before the next one. `Reads` says the same
  of every state, and rules are put together by it.
* `stages_read` is the induction over the stages, along the pipeline and the nested call at once.
* `piped_same_iff` is the result for whole programs.
-/

namespace TableScript

open ParseM Placed ParseState

/-! ## Trees without places -/

namespace Expr

/-- The tree without its places, and without the types noted at calls. -/
def blank : Expr → Expr :=
  renote (fun _ => none) fun _ => .unknown

/-- The type that is noted. -/
def type? (e : Expr) : Option TypeRef :=
  e.note?.map (·.type)

def isCall : Expr → Bool
  | apply _ _ _ => true
  | _ => false

def isFunction (e : Expr) : Bool :=
  match e.type? with
  | some (.func _ _) => true
  | _ => false

/-- The expression as an operand: one of a function type is noted with the type of its result. -/
def retyped (e : Expr) : Expr :=
  match e.type? with
  | some (.func _ result) => e.withType result
  | _ => e

/-- The trees are the same, up to places and the types noted at inner calls. -/
def Same (e e' : Expr) : Prop :=
  e.blank = e'.blank ∧ e.type? = e'.type?

variable {e : Expr}

theorem blank_relocate (π : Position → Position) (e : Expr) : (relocate π e).blank = e.blank :=
  e.lawful_renote.2 ..

theorem type?_relocate (π : Position → Position) (e : Expr) :
    (relocate π e).type? = e.type? := by
  cases e <;> rfl

theorem type?_withType (h : e.type?.isSome = true) (t : TypeRef) :
    (e.withType t).type? = some t := by
  cases e with
  | missing => cases h
  | _ => rfl

theorem type?_blank (h : e.isCall = false) : e.blank.type? = e.type? := by
  cases e with
  | apply => cases h
  | _ => rfl

theorem type?_retyped {e' : Expr} (h : e.type? = e'.type?) (he : e.type?.isSome = true) :
    e.retyped.type? = e'.retyped.type? := by
  unfold retyped
  rw [← h]
  split
  · rw [type?_withType he, type?_withType (h ▸ he)]
  · exact h

theorem blank_retyped_iff :
    e.retyped.blank = e.blank ↔ e.isCall = true ∨ e.isFunction = false := by
  unfold retyped isFunction
  cases ht : e.type? with
  | none => simp
  | some t =>
    cases t with
    | func parameters result =>
      cases hcall : e.isCall with
      | true =>
        cases e with
        | apply => exact ⟨fun _ => .inl rfl, fun _ => rfl⟩
        | _ => cases hcall
      | false =>
        have hresult : (e.withType result).isCall = false := by
          cases e with
          | apply => cases hcall
          | _ => rfl
        refine ⟨fun h => ?_, fun h => by simp at h⟩
        have htypes := congrArg type? h
        rw [type?_blank hresult, type?_blank hcall, type?_withType (by rw [ht]; rfl), ht] at htypes
        -- no type is its own result
        exact absurd (congrArg sizeOf (Option.some.inj htypes)) (by simp)
    | _ => simp

end Expr

/-! ## Reading from lexemes to lexemes -/

/-- The token at the first place of a program. -/
def Lexeme.bare (l : Lexeme) : Token := ⟨l, {}⟩

/-- What rules look at: the settings, and what the tokens are. -/
abbrev Input := Parser.Settings × List Lexeme

/-- The state holds the input, all of it at the first place. -/
structure ParseState.At (s : ParseState) (i : Input) : Prop where
  settings : s.settings = i.1
  rest : s.rest = i.2.map (·.bare)

/-- A state that holds the input. -/
def ParseState.on (i : Input) : ParseState :=
  { rest := i.2.map (·.bare), dummies := i.1.1, aliases := i.1.2.1, types := i.1.2.2 }

namespace Parser

variable {α β : Type} {x : ParseM α} {f : α → ParseM β} {a : α} {b : β} {i j k : Input}
  {c c' : Settings} {ls more : List Lexeme} {l next : Lexeme} {g : Grammar} {e : Expr} {n : Nat}

/-- Before `next`, a rule reads all of the lexemes `ls`, of which there are some, to the expression
`e`, without an error. -/
def Completes (rule : Grammar → ParseM Expr) (c : Settings) (ls : List Lexeme) (next : Lexeme)
    (e : Expr) (c' : Settings) : Prop :=
  ls ≠ [] ∧ ∃ depth s, (rule (grammar false depth)).exec (.on (c, ls ++ [next])) =
    (.ok e, s) ∧ s.At (c', [next]) ∧ s.console = {}

/-- From every state that holds the input `i`, the rule comes to one that holds `j`, without an
error. -/
def Reads (x : ParseM α) (i : Input) (a : α) (j : Input) : Prop :=
  ∀ s, s.At i → ∃ s₁, x.exec s = (.ok a, s₁) ∧ s₁.At j ∧ s₁.console = s.console

theorem next_of_at {s : ParseState} (h : s.At i) : s.next? = i.2.head? := by
  rw [next?, h.rest, List.head?_map, Option.map_map]
  exact Option.map_id'

namespace Reads

theorem bind (hx : Reads x i a j) (hf : Reads (f a) j b k) : Reads (x >>= f) i b k := by
  intro s hs
  obtain ⟨s₁, hexec, hat, hconsole⟩ := hx s hs
  obtain ⟨s₂, hexec', hat', hconsole'⟩ := hf s₁ hat
  exact ⟨s₂, (exec_bind_of hexec).trans hexec', hat', hconsole'.trans hconsole⟩

theorem of_exec (h : ∀ s, s.At i → x.exec s = (.ok a, s)) : Reads x i a i :=
  fun s hs => ⟨s, h s hs, hs, rfl⟩

theorem congr {y : ParseM α} (h : ∀ s, s.At i → x.exec s = y.exec s) (hy : Reads y i a j) :
    Reads x i a j :=
  fun s hs => h s hs ▸ hy s hs

theorem pure (a : α) : Reads (pure a) i a i :=
  .of_exec fun _ _ => rfl

theorem advance : Reads advance (c, l :: ls) () (c, ls) :=
  fun s hs => ⟨_, exec_advance s, ⟨hs.settings, by simp [hs.rest]⟩, rfl⟩

theorem here : Reads here (c, l :: ls) (some {}) (c, l :: ls) :=
  .of_exec fun s hs => by
    show (Except.ok (s.rest.head?.map (·.position)), s) = _
    rw [hs.rest]
    rfl

theorem accept : Reads (accept l) (c, l :: ls) true (c, ls) :=
  fun s hs => ⟨_, exec_accept_of (next_of_at hs), ⟨hs.settings, by simp [hs.rest]⟩, rfl⟩

theorem accept_ne (h : i.2.head? ≠ some l) : Reads (Parser.accept l) i false i :=
  .of_exec fun s hs => exec_accept_ne (by rwa [next_of_at hs])

theorem expect (d : Delimiter) : Reads (expect d) (c, .delimiter d :: ls) () (c, ls) := by
  refine .congr (fun s hs => ?_) advance
  unfold Parser.expect
  rw [exec_bind_of (rfl : Parser.peek.exec s = (.ok s.rest.head?, s)), hs.rest]
  simp [Lexeme.bare]

theorem typeOf {t : TypeRef} (h : e.type? = some t) : Reads (typeOf e) i t i := by
  cases e with
  | missing => cases h
  | _ =>
    cases h
    exact pure _

theorem resultTyped (h : e.type?.isSome = true) : Reads (resultTyped e) i e.retyped i := by
  obtain ⟨t, ht⟩ := Option.isSome_iff_exists.mp h
  refine (typeOf ht).bind ?_
  rw [Expr.retyped, ht]
  cases t <;> exact pure _

theorem of_completes (rule : Grammar → ParseM Expr) {m : Nat} (h : Completes rule c ls next e c')
    (halike : ∀ depth, Alike m (rule (grammar false depth)) (rule (grammar false n)))
    (hmoves : Akin (moving id rfl) m (rule (grammar false n)) (rule (grammar false n)))
    (hm : (ls ++ next :: more).length < m) :
    Reads (rule (grammar false n)) (c, ls ++ next :: more) e (c', next :: more) := by
  obtain ⟨-, depth, t₁, hexec, hat, hconsole⟩ := h
  obtain ⟨read, hrest, -, hread⟩ := (halike depth _ e t₁ hexec).2 hconsole
  obtain rfl : read = ls.map (·.bare) := by
    rw [hat.rest] at hrest
    simpa [on] using hrest.symm
  have hlonger := hread ((next :: more).map (·.bare)) (by rw [hat.rest]; rfl) (by simpa using hm)
  intro s hs
  have hmoved : s.MovedTo id s.console.log.errors.length
      { on (c, ls ++ [next]) with
        rest := ls.map (·.bare) ++ (next :: more).map (·.bare) } :=
    ⟨by rw [hs.rest, relocate_id, List.map_append], hs.settings, (Nat.zero_add _).symm⟩
  obtain ⟨-, hresult, hafter⟩ := hmoves s _ _ hmoved
  rw [hlonger] at hresult hafter
  rcases hx : (rule (grammar false n)).exec s with ⟨fault | e', s₁⟩
  · rw [hx] at hresult
    cases hresult
  · rw [hx] at hresult hafter
    obtain rfl : e = e' := (Except.ok.inj hresult).trans (relocate_id e')
    refine ⟨s₁, rfl, ⟨hafter.settings.trans hat.settings, ?_⟩, ?_⟩
    · exact (relocate_id s₁.rest).symm.trans hafter.rest.symm
    · have herrors := hafter.errors
      rcases (halike n s e s₁ hx).1.console with heq | hlt
      · exact heq
      · simp [hconsole] at herrors
        omega

end Reads

/-! ## Results with a type -/

/-- Whatever the rule gives has a type noted. -/
def Noted (x : ParseM Expr) : Prop :=
  ∀ s e s₁, x.exec s = (.ok e, s₁) → e.type?.isSome = true

namespace Noted

theorem pure (h : e.type?.isSome = true) : Noted (pure e) := by
  intro s e' s₁ hexec
  cases hexec
  exact h

theorem bind {f : α → ParseM Expr} (h : ∀ a, Noted (f a)) : Noted (x >>= f) := by
  intro s e s₂ hexec
  obtain ⟨a, s₁, -, hf⟩ := exec_bind_ok hexec
  exact h a s₁ e s₂ hf

theorem ite {x y : ParseM Expr} (p : Prop) [Decidable p] (hx : Noted x) (hy : Noted y) :
    Noted (if p then x else y) := by
  split
  · exact hx
  · exact hy

theorem throw (fault : Fault) : Noted (throw fault) := by
  intro s e s₁ hexec
  cases hexec

theorem typeOf_bind {f : TypeRef → ParseM Expr}
    (h : e.type?.isSome = true → ∀ t, Noted (f t)) :
    Noted (typeOf e >>= f) := by
  cases e with
  | missing =>
    intro s e s₁ hexec
    cases hexec
  | _ => exact bind (h rfl)

theorem literalRule (g : Grammar) : Noted (literalRule g) := by
  refine bind fun _ => bind fun _ => ite _ (pure rfl) <| bind fun _ => ite _ (pure rfl) <|
    bind fun _ => ite _ (pure rfl) <| bind fun next => ?_
  split
  · exact throw _
  · refine ite _ (bind fun _ => pure rfl) ?_
    split
    · exact throw _
    · refine bind fun _ => bind fun _ => ite _ ?_ (pure rfl)
      exact bind fun _ => bind fun _ => pure rfl
  · exact pure rfl

theorem parenthesized (g : Grammar) : Noted (parenthesized g) := by
  refine bind fun _ => bind fun _ => ite _ (pure rfl) <| bind fun first =>
    typeOf_bind fun hfirst _ => bind fun _ => ite _ (pure hfirst) <| bind fun _ => pure rfl

theorem atomRule (g : Grammar) : Noted (atomRule g) := by
  refine bind fun _ => bind fun next => ?_
  split
  · exact throw _
  · exact bind fun _ => bind fun _ => pure rfl
  · intro s e s₂ hexec
    obtain ⟨_, s₁, -, hexec⟩ := exec_bind_ok hexec
    obtain ⟨e', s₁, hparens, hexec⟩ := exec_bind_ok hexec
    obtain ⟨_, _, -, hexec⟩ := exec_bind_ok hexec
    cases hexec
    exact parenthesized g _ _ _ hparens
  · exact bind fun _ => pure rfl
  · exact literalRule g

theorem calls (position : Option Position) (calls : List (List Expr)) (h : e.type?.isSome = true) :
    (calls.foldl (fun e as => .apply { position } e as) e).type?.isSome = true := by
  induction calls generalizing e with
  | nil => exact h
  | cons as calls ih => exact ih rfl

theorem applicationRule (g : Grammar) : Noted (applicationRule g) := by
  refine bind fun position s e s₂ hexec => ?_
  obtain ⟨function, s₁, hatom, hexec⟩ := exec_bind_ok hexec
  have hfunction := atomRule g _ _ _ hatom
  split at hexec
  · exact pure hfunction _ _ _ hexec
  · refine bind (fun _ => ite _ ?_ (pure hfunction)) _ _ _ hexec
    exact bind fun _ => bind fun _ => bind fun more => pure (calls position more rfl)

end Noted

end Parser

/-! ## Stages -/

namespace Name

/-- The token that a name is. -/
def lexeme : Name → Lexeme
  | ident word => .ident word
  | builtin b => .keyword (.builtin b)

/-- The type that is noted at a reference. -/
def type : Name → TypeRef
  | ident _ => .unknown
  | builtin b => b.signature.type

def ref (f : Name) : Expr :=
  .ref { type := f.type } f

/-- A call of a name. -/
def call (f : Name) (position : Option Position) (arguments : List Expr) : Expr :=
  .apply { type := f.type, position } f.ref arguments

end Name

/-- A stage of a pipeline: the name of a function, with the lexemes of the arguments if it is a
call. -/
structure Stage where
  function : Name
  arguments : Option (List (List Lexeme))

/-- Arguments that each follow a comma. -/
def following (arguments : List (List Lexeme)) : List Lexeme :=
  arguments.flatMap (.delimiter .comma :: ·)

/-- What follows an argument that these arguments come after. -/
def separator : List (List Lexeme) → Lexeme
  | [] => .delimiter .parenRight
  | _ :: _ => .delimiter .comma

theorem following_eq (arg : List Lexeme) (args : List (List Lexeme)) (ls : List Lexeme) :
    following (arg :: args) ++ ls = .delimiter .comma :: (arg ++ (following args ++ ls)) := by
  simp [following]

theorem separator_eq (args : List (List Lexeme)) (more : List Lexeme) :
    ∃ rest, following args ++ .delimiter .parenRight :: more = separator args :: rest := by
  cases args with
  | nil => exact ⟨_, rfl⟩
  | cons arg args => exact ⟨_, following_eq ..⟩

namespace Stage

/-- The arguments, of which there are none if only the name is written. -/
def list (s : Stage) : List (List Lexeme) :=
  s.arguments.getD []

/-- The stage as it is written in a pipeline. -/
def lexemes (s : Stage) : List Lexeme :=
  s.function.lexeme :: match s.arguments with
    | none => []
    | some [] => [.delimiter .parenLeft, .delimiter .parenRight]
    | some (a :: as) => .delimiter .parenLeft :: (a ++ (following as ++ [.delimiter .parenRight]))

/-- The call of the stage with `head` as its first argument. -/
def call (head : List Lexeme) (s : Stage) : List Lexeme :=
  s.function.lexeme :: .delimiter .parenLeft ::
    (head ++ (following s.list ++ [.delimiter .parenRight]))

end Stage

/-- Stages that each follow a bird. -/
def birds (stages : List Stage) : List Lexeme :=
  stages.flatMap (.delimiter .bird :: ·.lexemes)

/-- A head that goes through stages. -/
def piped (head : List Lexeme) (stages : List Stage) : List Lexeme :=
  head ++ birds stages

/-- The nested call in which each stage takes what comes before it as its first argument. -/
def nested (head : List Lexeme) (stages : List Stage) : List Lexeme :=
  stages.foldl Stage.call head

namespace Parser

variable {α : Type} {i j : Input} {c c' : Settings} {ls more : List Lexeme} {l : Lexeme}
  {g : Grammar} {e : Expr} {n : Nat} {args : List (List Lexeme)} {es : List Expr}

/-- The arguments are read without an error, one after the other. -/
inductive ArgumentsRead : Settings → List (List Lexeme) → List Expr → Settings → Prop
  | nil (c : Settings) : ArgumentsRead c [] [] c
  | cons {c c₁ c₂ : Settings} {arg : List Lexeme} {args : List (List Lexeme)} {e : Expr}
    {es : List Expr} (first : Completes (·.simple) c arg (separator args) e c₁)
    (rest : ArgumentsRead c₁ args es c₂) : ArgumentsRead c (arg :: args) (e :: es) c₂

/-- The arguments of all stages are read without an error, one after the other. -/
inductive StagesRead : Settings → List Stage → List (List Expr) → Settings → Prop
  | nil (c : Settings) : StagesRead c [] [] c
  | cons {c c₁ c₂ : Settings} {s : Stage} {ss : List Stage} {es : List Expr}
    {ess : List (List Expr)} (first : ArgumentsRead c s.list es c₁)
    (rest : StagesRead c₁ ss ess c₂) : StagesRead c (s :: ss) (es :: ess) c₂

/-! ## Simple expressions that are applications -/

namespace Reads

theorem peekLexeme {f : Option Lexeme → ParseM α} {a : α} (h : Reads (f i.2.head?) i a j) :
    Reads (peekLexeme >>= f) i a j :=
  .bind (.of_exec fun _ hs => congrArg (fun l => (Except.ok l, _)) (next_of_at hs)) h

theorem simpleRule {e' : Expr} (hl : l.isPlain = true) (hg : 0 < g.rounds)
    (happlication : Reads (applicationRule g) (c, l :: ls) e j)
    (hpipeline : Reads (pipeline g e g.rounds) j e' (c', more)) (he' : e'.type?.isSome = true)
    (hmore : more.head?.bind Lexeme.operator? = none) :
    Reads (simpleRule g) (c, l :: ls) e'.retyped (c', more) := by
  have hoperand : Reads (operandRule g) (c, l :: ls) e'.retyped (c', more) :=
    .congr (fun s hs => exec_operandRule (next_of_at hs) hl)
      (happlication.bind (hpipeline.bind (.resultTyped he')))
  refine .congr (fun s hs => exec_simpleRule (next_of_at hs) hl)
    (here.bind (hoperand.bind (.of_exec fun s hs => ?_)))
  obtain ⟨rounds, hrounds⟩ := Nat.exists_eq_succ_of_ne_zero hg.ne'
  rw [hrounds, operatorsFrom, exec_bind_of (exec_nextOperator? 0 s), next_of_at hs, hmore]
  rfl

theorem pipeline_none (hg : 0 < g.rounds) (h : i.2.head? ≠ some (.delimiter .bird)) (e : Expr) :
    Reads (pipeline g e g.rounds) i e i :=
  .of_exec fun s hs => exec_pipeline hg (by rwa [next_of_at hs]) e

end Reads

/-- The tokens that an atom may start with. -/
def opensAtom : Lexeme → Bool
  | .value _ | .ident _ | .delimiter .parenLeft => true
  | .keyword (.builtin _) | .keyword .true | .keyword .false | .keyword .none => true
  | _ => false

theorem isPlain_of_opensAtom (h : opensAtom l = true) : l.isPlain = true := by
  unfold Lexeme.isPlain
  split <;> simp_all [opensAtom]

theorem exec_applicationRule_shut {s : ParseState} (h : s.next? = some l)
    (hl : opensAtom l = false) : (applicationRule g).exec s = (.ok (.unknown {}), s) := by
  have hne {l' : Lexeme} (hl' : opensAtom l' = true) : s.next? ≠ some l' := by
    rw [h]
    rintro ⟨⟩
    simp [hl] at hl'
  have hliteral : (literalRule g).exec s = (.ok (.unknown {}), s) := by
    rw [literalRule, exec_bind_here, acceptKeyword, acceptKeyword, acceptKeyword,
      exec_refuses (hne rfl), exec_refuses (hne rfl), exec_refuses (hne rfl),
      exec_bind_peekLexeme, h]
    split
    · simp_all
    · simp_all [opensAtom]
    · rfl
  have hatom : (atomRule g).exec s = (.ok (.unknown {}), s) := by
    rw [atomRule, exec_bind_here, exec_bind_peekLexeme, h]
    split <;> simp_all [opensAtom]
  rw [applicationRule, exec_bind_here, exec_bind_of hatom]
  exact exec_bind_of (exec_accept_ne (hne rfl))

namespace Completes

variable {next : Lexeme}

theorem opens (h : Completes applicationRule c ls next e c') :
    ∃ l rest, ls = l :: rest ∧ opensAtom l = true := by
  obtain ⟨hne, depth, s, hexec, hat, -⟩ := h
  obtain ⟨l, rest, rfl⟩ := List.exists_cons_of_ne_nil hne
  refine ⟨l, rest, rfl, ?_⟩
  by_contra hl
  rw [exec_applicationRule_shut (l := l) rfl (by simpa using hl)] at hexec
  cases hexec
  simpa [on] using congrArg List.length hat.rest

theorem ne_parenRight (h : Completes (·.simple) c (l :: ls) next e c') :
    l ≠ .delimiter .parenRight := by
  rintro rfl
  obtain ⟨hne, depth, s, hexec, hat, -⟩ := h
  cases depth with
  | zero => cases hexec
  | succ depth =>
    have hg := rounds_pos false depth
    have hstays : Reads (simpleRule (grammar false depth))
        (c, .delimiter .parenRight :: (ls ++ [next])) (Expr.unknown {}).retyped
        (c, .delimiter .parenRight :: (ls ++ [next])) :=
      .simpleRule rfl hg (.of_exec fun s hs => exec_applicationRule_shut (next_of_at hs) rfl)
        (.pipeline_none hg (by simp) _) rfl rfl
    obtain ⟨s₁, hexec', hat', -⟩ :=
      hstays (.on (c, .delimiter .parenRight :: (ls ++ [next]))) ⟨rfl, rfl⟩
    obtain rfl : s₁ = s := (Prod.mk.inj (hexec'.symm.trans hexec)).2
    simpa using congrArg List.length (hat'.rest.symm.trans hat.rest)

end Completes

/-! ## Calls -/

namespace Reads

theorem followers_none {item : ParseM α} {d : Delimiter} (hg : 0 < g.rounds)
    (h : i.2.head? ≠ some (.delimiter d)) : Reads (followers g d item) i [] i :=
  .of_exec fun s hs => exec_followers_ne hg (by rwa [next_of_at hs]) item

theorem name (f : Name) : Reads (atomRule g) (c, f.lexeme :: ls) f.ref (c, ls) := by
  refine here.bind (peekLexeme ?_)
  cases f with
  | ident word => exact advance.bind (pure _)
  | builtin b =>
    refine advance.bind (.bind (fun s hs => ⟨_, rfl, ⟨hs.settings, hs.rest⟩, rfl⟩) (pure _))

theorem reference (f : Name) (h : more.head? ≠ some (.delimiter .parenLeft)) :
    Reads (applicationRule g) (c, f.lexeme :: more) f.ref (c, more) :=
  here.bind ((name f).bind ((accept_ne h).bind (pure _)))

theorem call (f : Name) (hg : 0 < g.rounds)
    (harguments : Reads (argumentsRule g) (c, ls) es (c', more))
    (hmore : more.head? ≠ some (.delimiter .parenLeft)) :
    Reads (applicationRule g) (c, f.lexeme :: .delimiter .parenLeft :: ls) (f.call (some {}) es)
      (c', more) :=
  here.bind ((name f).bind (accept.bind ((typeOf rfl).bind (harguments.bind
    ((followers_none hg hmore).bind (pure _))))))

theorem argument {arg : List Lexeme} (h : Completes (·.simple) c arg (separator args) e c')
    (hn : (arg ++ (following args ++ .delimiter .parenRight :: more)).length < n) :
    Reads (grammar false n).simple (c, arg ++ (following args ++ .delimiter .parenRight :: more)) e
      (c', following args ++ .delimiter .parenRight :: more) := by
  obtain ⟨rest, hrest⟩ := separator_eq args more
  rw [hrest] at hn ⊢
  exact of_completes (·.simple) h (fun depth => (grammar_alike depth n).simple)
    (grammar_moves rfl n n).simple hn

theorem followers (h : ArgumentsRead c args es c') {rounds : Nat}
    (hn : (following args ++ .delimiter .parenRight :: more).length ≤ n)
    (hrounds : args.length < rounds) :
    Reads (itemsAfter .comma (grammar false n).simple rounds)
      (c, following args ++ .delimiter .parenRight :: more) es
      (c', .delimiter .parenRight :: more) := by
  induction h generalizing rounds with
  | nil c =>
    obtain ⟨rounds, rfl⟩ := Nat.exists_eq_succ_of_ne_zero (by omega : rounds ≠ 0)
    exact (accept_ne (by simp [following])).bind (pure _)
  | @cons c c₁ c₂ arg args e es first rest ih =>
    obtain ⟨rounds, rfl⟩ := Nat.exists_eq_succ_of_ne_zero (by omega : rounds ≠ 0)
    rw [following_eq, List.length_cons] at hn
    rw [following_eq]
    refine accept.bind ((argument first (by omega)).bind ((ih ?_ ?_).bind (pure _)))
    · rw [List.length_append] at hn
      omega
    · simpa using hrounds

/-- The first argument and those that follow it. -/
theorem argumentsRule {c₁ : Settings} (hl : l ≠ .delimiter .parenRight)
    (hfirst : Reads (grammar false n).simple
      (c, (l :: ls) ++ (following args ++ .delimiter .parenRight :: more)) e
      (c₁, following args ++ .delimiter .parenRight :: more))
    (h : ArgumentsRead c₁ args es c')
    (hn : (following args ++ .delimiter .parenRight :: more).length ≤ n) :
    Reads (argumentsRule (grammar false n))
      (c, (l :: ls) ++ (following args ++ .delimiter .parenRight :: more)) (e :: es)
        (c', more) := by
  have hrounds : args.length < (grammar false n).rounds := by
    have : args.length ≤ (following args).length := by
      simp [following, List.length_flatMap]
    rw [rounds_grammar]
    rw [List.length_append] at hn
    omega
  exact (accept_ne (by simpa using hl)).bind (hfirst.bind ((followers h hn hrounds).bind
    ((expect _).bind (pure _))))

end Reads

/-! ## Pipelines and nested calls -/

/-- Before any token of which `P` holds, the lexemes `ls` are read as the application `e`. -/
structure Applies (P : Option Lexeme → Prop) (c : Settings) (ls : List Lexeme) (e : Expr)
    (c' : Settings) : Prop where
  opens : ∃ l rest, ls = l :: rest ∧ opensAtom l = true
  typed : e.type?.isSome = true
  reads : ∀ n more, P more.head? → (ls ++ more).length ≤ n →
    Reads (applicationRule (grammar false n)) (c, ls ++ more) e (c', more)

/-- Not before an opening parenthesis, which would go on with the application. -/
abbrev NoParen (next : Option Lexeme) : Prop :=
  next ≠ some (.delimiter .parenLeft)

variable {c₀ : Settings} {head : List Lexeme} {P : Option Lexeme → Prop}
  {stage : Stage} {p : Expr}

theorem Completes.applies {next : Lexeme} (h : Completes applicationRule c ls next e c') :
    Applies (· = some next) c ls e c' where
  opens := h.opens
  typed := by
    obtain ⟨-, depth, s, hexec, -⟩ := h
    exact Noted.applicationRule _ _ _ _ hexec
  reads n more hmore hn := by
    obtain ⟨more, rfl⟩ : ∃ rest, more = next :: rest := by
      cases more with
      | nil => cases hmore
      | cons l more =>
        cases hmore
        exact ⟨more, rfl⟩
    exact .of_completes applicationRule (m := n + 1) h
      (fun depth => .applicationRule (grammar_alike depth n))
        (.applicationRule (grammar_moves rfl n n)) (by omega)

theorem Applies.call (h : Applies P c head e c₀) (hP : P (some (separator stage.list)))
    (hstage : ArgumentsRead c₀ stage.list es c') :
    Applies NoParen c (stage.call head) (stage.function.call (some {}) (e.retyped :: es)) c' where
  opens := ⟨_, _, rfl, by cases stage.function <;> rfl⟩
  typed := rfl
  reads n more hmore hn := by
    obtain ⟨l, rest, rfl, hl⟩ := h.opens
    have hlexemes : stage.call (l :: rest) ++ more = stage.function.lexeme ::
        .delimiter .parenLeft ::
          ((l :: rest) ++ (following stage.list ++ .delimiter .parenRight :: more)) := by
      simp [Stage.call]
    rw [hlexemes] at hn ⊢
    simp only [List.length_cons, List.length_append] at hn
    -- the arguments are read by the rules that nest one level less
    obtain ⟨n, rfl⟩ := Nat.exists_eq_succ_of_ne_zero (by omega : n ≠ 0)
    obtain ⟨rest', hrest'⟩ := separator_eq stage.list more
    have hg := rounds_pos false n
    have hfirst : Reads (simpleRule (grammar false n))
        (c, (l :: rest) ++ (following stage.list ++ .delimiter .parenRight :: more)) e.retyped
        (c₀, following stage.list ++ .delimiter .parenRight :: more) := by
      refine .simpleRule (isPlain_of_opensAtom hl) hg (h.reads n _ ?_ ?_)
        (.pipeline_none hg ?_ e) h.typed ?_
      · rwa [hrest']
      · simp only [List.length_cons, List.length_append]
        omega
      · rw [hrest']
        cases stage.list <;> simp [separator]
      · rw [hrest']
        cases stage.list <;> rfl
    refine .call _ (rounds_pos _ _) (.argumentsRule ?_ hfirst hstage ?_) hmore
    · rintro rfl
      cases hl
    · simp only [List.length_cons, List.length_append]
      omega

theorem Reads.of_stage (hstage : ArgumentsRead c stage.list es c') (hp : p.type?.isSome = true) :
    ∃ q position,
      (∀ n more, NoParen more.head? → (stage.lexemes ++ more).length ≤ n →
        Reads (applicationRule (grammar false n)) (c, stage.lexemes ++ more) q (c', more)) ∧
      ∀ i, Reads (pipeInto p q) i (stage.function.call position (p :: es)) i := by
  obtain ⟨f, arguments⟩ := stage
  cases arguments with
  | none =>
    change ArgumentsRead c [] es c' at hstage
    cases hstage
    cases p with
    | missing => cases hp
    | _ => exact ⟨f.ref, _, fun n more hmore _ => .reference f hmore, fun i => .pure _⟩
  | some arguments =>
    refine ⟨f.call (some {}) es, some {}, fun n more hmore hn => ?_, fun i => .pure _⟩
    change ArgumentsRead c arguments es c' at hstage
    cases hstage with
    | nil => exact .call f (rounds_pos _ _) (Reads.accept.bind (.pure _)) hmore
    | @cons c c₁ c₂ arg args e es first rest =>
      obtain ⟨l, ls, rfl⟩ := List.exists_cons_of_ne_nil first.1
      have hlexemes : Stage.lexemes ⟨f, some ((l :: ls) :: args)⟩ ++ more = f.lexeme ::
          .delimiter .parenLeft ::
            ((l :: ls) ++ (following args ++ .delimiter .parenRight :: more)) := by
        simp [Stage.lexemes]
      rw [hlexemes] at hn ⊢
      simp only [List.length_cons, List.length_append] at hn
      refine .call f (rounds_pos _ _)
        (.argumentsRule first.ne_parenRight (.argument first ?_) rest ?_) hmore
      all_goals
        simp only [List.length_cons, List.length_append]
        omega

theorem noParen_birds (stages : List Stage) : NoParen (birds stages).head? := by
  cases stages <;> simp [birds]

theorem birds_cons (stage : Stage) (stages : List Stage) :
    birds (stage :: stages) = .delimiter .bird :: (stage.lexemes ++ birds stages) := by
  simp [birds]

/-- Two calls of the same type: one is made along a pipeline, the other by nesting. -/
structure Twins (p q : Expr) : Prop where
  left : p.isCall = true
  right : q.isCall = true
  type : p.type? = q.type?

theorem Twins.calls (f : Name) (position position' : Option Position) (as bs : List Expr) :
    Twins (f.call position as) (f.call position' bs) :=
  ⟨rfl, rfl, rfl⟩

theorem blank_call {f : Name} {position position' : Option Position} {q : Expr} :
    (f.call position (p :: es)).blank = (f.call position' (q :: es)).blank ↔
    p.blank = q.blank := by
  simp [Name.call, Expr.blank, Expr.renote, renoteAll]

theorem Reads.pipeline_cons (hstage : ArgumentsRead c stage.list es c')
    (hp : p.type?.isSome = true) : ∃ position, ∀ n rounds stages p' j,
      (birds (stage :: stages)).length ≤ n →
      Reads (pipeline (grammar false n) (stage.function.call position (p :: es)) rounds)
        (c', birds stages) p' j →
      Reads (pipeline (grammar false n) p (rounds + 1)) (c, birds (stage :: stages)) p' j := by
  obtain ⟨q, position, hreads, hinto⟩ := Reads.of_stage hstage hp
  refine ⟨position, fun n rounds stages p' j hn hmore => ?_⟩
  rw [birds_cons, List.length_cons] at hn
  rw [birds_cons]
  exact Reads.accept.bind ((hreads n _ (noParen_birds stages) (by omega)).bind
    ((hinto _).bind hmore))

/-- Stages are read as calls inside of each other. -/
theorem stages_read {stages : List Stage} {ess : List (List Expr)} {q : Expr}
    (h : StagesRead c stages ess c') (hq : Applies NoParen c₀ head q c) (htwins : Twins p q) :
    ∃ p' q', Applies NoParen c₀ (nested head stages) q' c' ∧ Twins p' q' ∧
      (p'.blank = q'.blank ↔ p.blank = q.blank) ∧
      ∀ n rounds, (birds stages).length ≤ n → stages.length < rounds →
        Reads (pipeline (grammar false n) p rounds) (c, birds stages) p' (c', []) := by
  induction h generalizing head p q with
  | nil c =>
    refine ⟨p, q, hq, htwins, .rfl, fun n rounds _ hrounds => ?_⟩
    obtain ⟨rounds, rfl⟩ := Nat.exists_eq_succ_of_ne_zero (by omega : rounds ≠ 0)
    exact (Reads.accept_ne (by simp [birds])).bind (.pure _)
  | @cons c c₁ c₂ stage stages es ess first rest ih =>
    have hp : p.type?.isSome = true := htwins.type ▸ hq.typed
    obtain ⟨position, hcons⟩ := Reads.pipeline_cons first hp
    obtain ⟨p', q', hq', htwins', hblank, hreads⟩ :=
      ih (hq.call (by cases stage.list <;> simp [separator]) first)
        (.calls _ position _ (p :: es) _)
    refine ⟨p', q', hq', htwins', ?_, fun n rounds hn hrounds => ?_⟩
    · rw [hblank, blank_call, Expr.blank_retyped_iff.mpr (.inl htwins.right)]
    · obtain ⟨rounds, rfl⟩ := Nat.exists_eq_succ_of_ne_zero (by omega : rounds ≠ 0)
      refine hcons n rounds stages p' _ hn (hreads n rounds ?_ (by simpa using hrounds))
      rw [birds_cons, List.length_cons, List.length_append] at hn
      omega

/-! ## Whole programs -/

theorem Reads.expressionRule (hl : l.isPlain = true)
    (h : Reads (Parser.simpleRule g) (c, l :: ls) e (c', [])) :
    Reads (Parser.expressionRule g) (c, l :: ls) e (c', []) := by
  intro s hs
  obtain ⟨more, hexec⟩ := exec_expressionRule_plain (g := g) (next_of_at hs) hl
  rw [hexec]
  exact h.bind ((accept_ne (by simp)).bind (.pure e)) s hs

theorem Applies.program (stages : List Stage) (h : Applies P c head e c₀)
    (hP : P (birds stages).head?) (hn : (piped head stages).length ≤ n)
    (hpipeline : Reads (pipeline (grammar false n) e (grammar false n).rounds)
      (c₀, birds stages) p (c', []))
    (hp : p.type?.isSome = true) :
    Reads (grammar false (n + 1)).expression (c, piped head stages) p.retyped (c', []) := by
  obtain ⟨l, rest, rfl, hl⟩ := h.opens
  exact .expressionRule (isPlain_of_opensAtom hl) (.simpleRule (isPlain_of_opensAtom hl)
    (rounds_pos false n) (h.reads n _ hP hn) hpipeline hp rfl)

end Parser

section

variable {types : TypeStore} {tokens : List Token} {e : Expr} {c : Parser.Settings}

theorem parse_of_reads
    (h : Parser.Reads (Parser.grammar false (tokens.length + 2)).expression
      ((0, [], types), tokens.map (·.lexeme)) e (c, []))
    (debugging : Bool) (console : Console) :
    ∃ e' s, parse debugging tokens types console = (.ok e', s) ∧
      relocate (fun _ => {}) e' = e ∧ s.used = tokens.length ∧ s.console.hasErrors = false := by
  have hmoved : (start debugging types console tokens).MovedTo (fun _ => {}) 0
      { start debugging types console tokens with
        rest := (tokens.map (·.lexeme)).map (·.bare) } :=
    ⟨List.map_map, rfl, rfl⟩
  obtain ⟨t, hexec, hat, hconsole⟩ := h { start debugging types console tokens with
    rest := (tokens.map (·.lexeme)).map (·.bare) } ⟨rfl, rfl⟩
  obtain ⟨-, hresult, hafter⟩ :=
    (Parser.grammar_moves rfl (tokens.length + 2) 0).expression _ _ _ hmoved
  rw [hexec] at hresult hafter
  rcases hx : (Parser.grammar false (tokens.length + 2)).expression.exec
    (.start debugging types console tokens) with ⟨fault | e', s⟩
  · rw [hx] at hresult
    cases hresult
  rw [hx] at hresult hafter
  have hparse : parse debugging tokens types console = (.ok e', _) :=
    parse_ok_iff.mpr ⟨s, hx, rfl⟩
  have hsilent : ({ s with console := s.console.showTree e' } : ParseState).console.hasErrors =
      false := by
    have herrors := hafter.errors
    rw [hconsole] at herrors
    rw [Console.hasErrors, Console.showTree_log, List.length_eq_zero_iff.mp herrors]
    rfl
  refine ⟨e', _, hparse, (Except.ok.inj hresult).symm, ?_, hsilent⟩
  -- no token is left, so all of them are used
  obtain ⟨hused, hrest, -⟩ := parse_read hparse hsilent
  have hnone : s.rest = [] := by
    have hempty := hafter.rest.symm.trans hat.rest
    exact List.map_eq_nil_iff.mp hempty
  rw [hnone] at hrest
  exact hused.antisymm (List.drop_eq_nil_iff.mp hrest.symm)

end

open TableScript.Parser

/-- A head that is read to the same expression before `|>` and as the first argument, and stages
whose arguments are read without an error: the pipeline and the nested call are both read to the
end, without an error. They give the same tree, up to places and the types noted at inner calls, iff
the head is a call or has no function type. -/
theorem piped_same_iff {types : TypeStore} {head : List Lexeme} {e : Expr} {stage : Stage}
    {stages : List Stage} {ess : List (List Expr)} {c c' : Parser.Settings}
    (hpiped : Completes applicationRule (0, [], types) head (.delimiter .bird) e c)
    (hnested : Completes applicationRule (0, [], types) head (separator stage.list) e c)
    (hstages : StagesRead c (stage :: stages) ess c') {tokens tokens' : List Token}
    (htokens : tokens.map (·.lexeme) = piped head (stage :: stages))
    (htokens' : tokens'.map (·.lexeme) = nested head (stage :: stages)) (debugging : Bool)
    (console : Console) :
    ∃ p q s t, parse debugging tokens types console = (.ok p, s) ∧
      parse debugging tokens' types console = (.ok q, t) ∧
      (s.used = tokens.length ∧ s.console.hasErrors = false) ∧
      (t.used = tokens'.length ∧ t.console.hasErrors = false) ∧
      (p.Same q ↔ e.isCall = true ∨ e.isFunction = false) := by
  cases hstages with
  | @cons _ c₁ _ _ _ es ess first rest =>
    have hhead := hpiped.applies
    obtain ⟨position, hcons⟩ := Reads.pipeline_cons first hhead.typed
    obtain ⟨p, q, hq, htwins, hblank, hreads⟩ :=
      stages_read rest (hnested.applies.call rfl first) (.calls _ position _ (e :: es) _)
    have hp : p.type?.isSome = true := htwins.type ▸ hq.typed
    have hlength := congrArg List.length htokens
    have hlength' := congrArg List.length htokens'
    rw [List.length_map] at hlength hlength'
    have hpipeline : Reads (grammar false (tokens.length + 2)).expression
        ((0, [], types), tokens.map (·.lexeme)) p.retyped (c', []) := by
      rw [htokens]
      refine hhead.program _ (by simp [birds]) (by omega) ?_ hp
      have hbirds : (birds (stage :: stages)).length =
          (stage.lexemes ++ birds stages).length + 1 := by
        rw [birds_cons, List.length_cons]
      have hstages : stages.length ≤ (birds stages).length := by
        simp [birds, List.length_flatMap]
      rw [piped, List.length_append] at hlength
      rw [List.length_append] at hbirds
      rw [rounds_grammar]
      exact hcons _ _ stages p _ (by omega) (hreads _ _ (by omega) (by omega))
    have hcall : Reads (grammar false (tokens'.length + 2)).expression
        ((0, [], types), tokens'.map (·.lexeme)) q.retyped (c', []) := by
      rw [htokens', ← List.append_nil (nested _ _)]
      refine hq.program [] (by simp [birds]) ?_
        (.pipeline_none (rounds_pos _ _) (by simp [birds]) q) hq.typed
      rw [piped, birds, List.flatMap_nil, List.append_nil]
      exact hlength' ▸ Nat.le_succ _
    obtain ⟨p', s, hparse, hp', hs⟩ := parse_of_reads hpipeline debugging console
    obtain ⟨q', t, hparse', hq', ht⟩ := parse_of_reads hcall debugging console
    refine ⟨p', q', s, t, hparse, hparse', hs, ht, ?_⟩
    rw [Expr.Same, ← p'.blank_relocate, ← q'.blank_relocate, ← p'.type?_relocate,
      ← q'.type?_relocate, hp', hq', Expr.blank_retyped_iff.mpr (.inl htwins.left),
      Expr.blank_retyped_iff.mpr (.inl htwins.right), hblank, blank_call, eq_comm,
      Expr.blank_retyped_iff]
    exact and_iff_left (Expr.type?_retyped htwins.type hp)

/-- The program `1 |> f(2) |> g` and the program `g(f(1, 2))`. -/
theorem piped_same_twoStages :
    let one : Expr := .literal { type := .int, position := some {} } (.int 1)
    let f : Stage := ⟨.ident "f", some [[.value "2"]]⟩
    let g : Stage := ⟨.ident "g", none⟩
    Completes applicationRule (0, [], {}) [.value "1"] (.delimiter .bird) one (0, [], {}) ∧
      Completes applicationRule (0, [], {}) [.value "1"] (separator f.list) one (0, [], {}) ∧
      StagesRead (0, [], {}) [f, g]
        [[.literal { type := .int, position := some {} } (.int 2)], []] (0, [], {}) ∧
      ∃ p q s t, parse false ((piped [.value "1"] [f, g]).map (·.bare)) {} {} = (.ok p, s) ∧
        parse false ((nested [.value "1"] [f, g]).map (·.bare)) {} {} = (.ok q, t) ∧
          p.Same q := by
  intro one f g
  have hpiped : Completes applicationRule (0, [], {}) [.value "1"] (.delimiter .bird) one
      (0, [], {}) := ⟨by simp, 1, _, rfl, ⟨rfl, rfl⟩, rfl⟩
  have hnested : Completes applicationRule (0, [], {}) [.value "1"] (separator f.list) one
      (0, [], {}) := ⟨by simp, 1, _, rfl, ⟨rfl, rfl⟩, rfl⟩
  have hstages : StagesRead (0, [], {}) [f, g]
      [[.literal { type := .int, position := some {} } (.int 2)], []] (0, [], {}) :=
    .cons (.cons ⟨by simp, 2, _, rfl, ⟨rfl, rfl⟩, rfl⟩ (.nil _)) (.cons (.nil _) (.nil _))
  let tokens := (piped [.value "1"] [f, g]).map (·.bare)
  let tokens' := (nested [.value "1"] [f, g]).map (·.bare)
  have htokens : tokens.map (·.lexeme) = piped [.value "1"] [f, g] := rfl
  have htokens' : tokens'.map (·.lexeme) = nested [.value "1"] [f, g] := rfl
  obtain ⟨p, q, s, t, hp, hq, -, -, hsame⟩ :=
    piped_same_iff hpiped hnested hstages htokens htokens' false {}
  exact ⟨hpiped, hnested, hstages, p, q, s, t, hp, hq, hsame.mpr (.inr rfl)⟩

set_option maxRecDepth 2000 in
/-- `() |> f |> g(1)` is read without an error, but in `g(f(()), 1)` the head takes the parenthesis
that is meant to end the arguments of `f`. -/
theorem piped_unit_differs :
    let head : List Lexeme := [.delimiter .parenLeft, .delimiter .parenRight]
    let stages : List Stage := [⟨.ident "f", none⟩, ⟨.ident "g", some [[.value "1"]]⟩]
    ∃ p q s t, parse false ((piped head stages).map (·.bare)) {} {} = (.ok p, s) ∧
      parse false ((nested head stages).map (·.bare)) {} {} = (.ok q, t) ∧
      s.console.hasErrors = false ∧ t.console.hasErrors = true ∧ ¬ p.Same q := by
  intro head stages
  refine ⟨_, _, _, _, rfl, rfl, rfl, rfl, fun hsame => ?_⟩
  simpa [Expr.blank, Expr.renote, renoteAll] using hsame.1

end TableScript
