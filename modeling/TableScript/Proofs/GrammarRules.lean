import TableScript.Proofs.Places

/-!
# The rules of the grammar beside each other

A kinship is a relation between a rule and another one that is run beside it on the same tokens, at
the same places or at others. It is kept wherever rules are put together, so that one walk over the
grammar shows it of every rule.

* `Kinship` lists what a kinship has to keep: steps in a row, a look at the next token, a step over
  it, and loops. Whatever calls another rule has read a token before, so that this one has fewer.
* `Grammar.Akin` relates the rules of two grammars by name, and `Grammar.Akin.step` adds a level of
  nesting to both.
-/

namespace TableScript

variable {s₁ : ParseState}

namespace ParseM

variable {α β : Type}

/-- The outcome of a rule, and the state of the parser after it. -/
def exec (x : ParseM α) (s : ParseState) : Except Fault α × ParseState :=
  x.run.run s

variable {x : ParseM α} {f : α → ParseM β} {s : ParseState}

theorem exec_bind (x : ParseM α) (f : α → ParseM β) (s : ParseState) :
    (x >>= f).exec s =
      match x.exec s with
      | (.ok a, s₁) => (f a).exec s₁
      | (.error e, s₁) => (.error e, s₁) := by
  unfold exec
  rw [ExceptT.run_bind, StateT.run_bind]
  rcases StateT.run (ExceptT.run x) s with ⟨_ | a, s₁⟩ <;> rfl

theorem exec_bind_of {a : α} (h : x.exec s = (.ok a, s₁)) :
    (x >>= f).exec s = (f a).exec s₁ := by
  rw [exec_bind, h]

theorem exec_bind_error {e : Fault} (h : x.exec s = (.error e, s₁)) :
    (x >>= f).exec s = (.error e, s₁) := by
  rw [exec_bind, h]

theorem exec_bind_ok {s₂ : ParseState} {b : β} (h : (x >>= f).exec s = (.ok b, s₂)) :
    ∃ a s₁, x.exec s = (.ok a, s₁) ∧ (f a).exec s₁ = (.ok b, s₂) := by
  rw [exec_bind] at h
  rcases hx : x.exec s with ⟨e | a, s₁⟩
  · rw [hx] at h
    cases h
  · rw [hx] at h
    exact ⟨a, s₁, rfl, h⟩

end ParseM

/-- What the next token of a state is. -/
def ParseState.next? (s : ParseState) : Option Lexeme :=
  s.rest.head?.map (·.lexeme)

/-- What rules look at beside the tokens: the names made up so far, the names of types, and the
types. -/
abbrev Parser.Settings := Nat × List (Option String × TypeRef) × TypeStore

def ParseState.settings (s : ParseState) : Parser.Settings :=
  (s.dummies, s.aliases, s.types)

open ParseM Placed

namespace Parser

variable {α β : Type} {n m : Nat} {s : ParseState}

/-! ## Single steps -/

variable {l : Lexeme}

theorem exec_bind_peekLexeme {f : Option Lexeme → ParseM α} :
    (peekLexeme >>= f).exec s = (f s.next?).exec s := rfl

theorem exec_advance (s : ParseState) :
    advance.exec s = (.ok (), { s with rest := s.rest.tail, used := s.used + 1 }) := rfl

theorem exec_accept_of (h : s.next? = some l) :
    (accept l).exec s = (.ok true, { s with rest := s.rest.tail, used := s.used + 1 }) := by
  rw [accept, exec_bind_peekLexeme, if_pos h]
  rfl

theorem exec_accept_ne (h : s.next? ≠ some l) :
    (accept l).exec s = (.ok false, s) := by
  rw [accept, exec_bind_peekLexeme, if_neg h]
  rfl

theorem exec_refuses {α : Type} {x y : ParseM α} (h : s.next? ≠ some l) :
    (accept l >>= fun b => if b = true then x else y).exec s = y.exec s := by
  rw [exec_bind_of (exec_accept_ne h), if_neg Bool.false_ne_true]

theorem exec_nextOperator? (min : Nat) (s : ParseState) : (nextOperator? min).exec s =
    (.ok ((s.next?.bind Lexeme.operator?).filter (Operator.isBinary min)), s) := rfl

theorem rest_of_next? (h : s.next? = some l) : ∃ t rest, s.rest = t :: rest := by
  cases hs : s.rest with
  | nil => simp [ParseState.next?, hs] at h
  | cons t rest => exact ⟨t, rest, rfl⟩

/-! ## Items up to a delimiter -/

/-- A rule with the number of tokens that it takes away. -/
def counted (x : ParseM α) : ParseM (Nat × α) := do
  let before ← remaining
  let a ← x
  return (before - (← remaining), a)

theorem exec_counted_of {x : ParseM α} {a : α} (h : x.exec s = (.ok a, s₁)) :
    (counted x).exec s = (.ok (s.rest.length - s₁.rest.length, a), s₁) :=
  exec_bind_of h

/-- An item up to the delimiter `close`; `none` if the delimiter is there. -/
def itemOrClose (close : Delimiter) (item : ParseM α) : ParseM (Option α) := do
  if ← acceptDelimiter .comma then return some (← item)
  else if ← acceptDelimiter close then return none
  else return some (← item)

variable (patient : Bool)

theorem itemsUpTo_succ (close : Delimiter) (item : ParseM α) (k : Nat) :
    itemsUpTo patient close item (k + 1) = counted (itemOrClose close item) >>= fun
      | (_, none) => pure []
      | (count, some x) =>
        if patient = false ∧ count = 0 then throw .stalled
        else itemsUpTo patient close item k >>= fun more => pure (x :: more) := by
  have hthrow (f : PUnit → ParseM (List α)) : throw Fault.stalled >>= f = throw Fault.stalled :=
    rfl
  simp only [itemsUpTo, counted, itemOrClose, bind_assoc, pure_bind, hthrow]
  congr 1
  funext before
  congr 1
  funext comma
  cases comma with
  | true => simp [Nat.sub_eq_zero_iff_le]
  | false =>
    simp only [Bool.not_false, ↓reduceIte, Bool.false_eq_true, bind_assoc]
    congr 1
    funext closed
    cases closed with
    | true => rfl
    | false => simp [Nat.sub_eq_zero_iff_le]

/-! ## Kinships -/

/-- A relation `Holds n s x y` between the runs of two rules from the state `s`, as far as there are
fewer than `n` tokens. The first rule is of a grammar that is not patient; the second one finds its
tokens elsewhere. -/
structure Kinship where
  /-- Where the second rule finds what the first one finds at a place. -/
  place : Position → Position
  place_default : place {} = {}
  Holds {α : Type} [Placed α] (n : Nat) (s : ParseState) (x y : ParseM α) : Prop
  /-- Loops of so many rounds go round often enough on fewer than `n` tokens. -/
  Enough (n k k' : Nat) : Prop
  /-- Is the second grammar patient? -/
  patient : Bool
  mono {α : Type} [Placed α] {n m : Nat} {s : ParseState} {x y : ParseM α} :
    m ≤ n → Holds n s x y → Holds m s x y
  enough_mono {n m k k' : Nat} : m ≤ n → Enough n k k' → Enough m k k'
  enough_succ {n k k' : Nat} : Enough n k k' → Enough (n + 1) (k + 1) (k' + 1)
  pure {α : Type} [Placed α] {n : Nat} {s : ParseState} (a : α) :
    Holds n s (pure a) (pure (relocate place a))
  throw {α : Type} [Placed α] {n : Nat} {s : ParseState} {e : Fault} :
    e ≠ .tooDeep → Holds n s (throw e : ParseM α) (throw e)
  bind {α β : Type} [Placed α] [Placed β] {n : Nat} {s : ParseState} {x y : ParseM α}
    {f g : α → ParseM β} :
    Holds n s x y →
      (∀ a s₁, s₁.rest.length ≤ s.rest.length →
        Holds n s₁ (f a) (g (relocate place a))) → Holds n s (x >>= f) (y >>= g)
  peek {α : Type} [Placed α] {n : Nat} {s : ParseState} {f g : Option Token → ParseM α} :
    Holds n s (f s.rest.head?) (g (relocate place s.rest.head?)) →
      Holds n s (peek >>= f) (peek >>= g)
  /-- A rule after a step over the next token has one token less before it. -/
  advance {α : Type} [Placed α] {n : Nat} {s : ParseState} {l : Lexeme} {x y : ParseM α} :
    s.next? = some l → (∀ s₁, s₁.rest.length < s.rest.length → Holds (n - 1) s₁ x y) →
      Holds n s (advance >>= fun _ => x) (Parser.advance >>= fun _ => y)
  /-- A step that notes something beside the tokens and the console. -/
  aside {α : Type} [Placed α] {n : Nat} {s : ParseState} {f : ParseState → α × ParseState} :
    (∀ s, (f s).2.rest = s.rest ∧ (f s).2.used = s.used ∧ (f s).2.console = s.console ∧
      ∀ rest, f { s with rest } = ((f s).1, { (f s).2 with rest })) →
      (∀ s t, s.settings = t.settings →
        (f t).1 = relocate place (f s).1 ∧ (f s).2.settings = (f t).2.settings) →
        Holds n s (modifyGet f : ParseM α) (modifyGet f)
  report {n : Nat} {s : ParseState} (text : String) (position : Option Position) :
    Holds n s (report text position) (report text (relocate place position))
  /-- An error about the next token, which is stepped over. -/
  refuse {n : Nat} {s : ParseState} {l : Lexeme} (text : String) (position : Option Position) :
    s.next? = some l →
      Holds n s (Parser.report text position >>= fun _ => Parser.advance)
        (Parser.report text (relocate place position) >>= fun _ => Parser.advance)
  /-- A name of a type, after a step over it. Where the name stands for none, the token after it is
  stepped over too. -/
  aliasedType {n : Nat} {s : ParseState} {l : Lexeme} (name : String) (position : Option Position) :
    s.next? = some l →
      Holds n s (Parser.advance >>= fun _ => aliasedType name position)
        (Parser.advance >>= fun _ => Parser.aliasedType name (relocate place position))
  /-- A loop that reads a token in every round. One round of it is akin if the rounds after it are,
  on fewer tokens. -/
  rounds {ι α : Type} [Placed ι] [Placed α] {n k k' : Nat} {X Y : ι → Nat → ParseM α} :
    (∀ i, X i 0 = MonadExcept.throw Fault.tooDeep) →
    (∀ i, Y i 0 = MonadExcept.throw Fault.tooDeep) →
      (∀ m ≤ n, ∀ i k k' s,
        (∀ i' s₁, s₁.rest.length < s.rest.length →
          Holds (m - 1) s₁ (X i' k) (Y (relocate place i') k')) →
          Holds m s (X i (k + 1)) (Y (relocate place i) (k' + 1))) →
        Enough n k k' → ∀ i s, Holds n s (X i k) (Y (relocate place i) k')
  /-- Two rules in a row, of which the second is told how many tokens the first has read. -/
  bind_counted {α β : Type} [Placed α] [Placed β] {n : Nat} {s : ParseState} {x y : ParseM α}
    {f g : Nat × α → ParseM β} :
    Holds n s x y → (∀ a s₁ count, s₁.rest.length + count = s.rest.length →
      Holds (n - count) s₁ (f (count, a)) (g (count, relocate place a))) →
        Holds n s (counted x >>= f) (counted y >>= g)
  /-- A patient grammar goes on where the other one gives up. -/
  stalled {α : Type} [Placed α] {n : Nat} {s : ParseState} {y : ParseM α} :
    patient = true → Holds n s (MonadExcept.throw Fault.stalled) y

variable [Placed α] [Placed β]

/-- The rules are akin from every state. -/
def Akin (K : Kinship) (n : Nat) (x y : ParseM α) : Prop :=
  ∀ s, K.Holds n s x y

/-- The rules of two grammars are akin, each with the other's of its name. -/
structure Grammar.Akin (K : Kinship) (n : Nat) (g g' : Grammar) : Prop where
  expression : Parser.Akin K n g.expression g'.expression
  simple : Parser.Akin K n g.simple g'.simple
  operators : ∀ min, Parser.Akin K n (g.operators min) (g'.operators min)
  literal : Parser.Akin K n g.literal g'.literal
  type : Parser.Akin K n g.type g'.type
  rounds : K.Enough (n + 1) g.rounds g'.rounds
  impatient : g.patient = false
  patience : g'.patient = K.patient

variable {K : Kinship} {x y : ParseM α} {f g : α → ParseM β}

theorem Kinship.peekLexeme {f g : Option Lexeme → ParseM α}
    (h : K.Holds n s (f s.next?) (g s.next?)) :
    K.Holds n s (peekLexeme >>= f) (Parser.peekLexeme >>= g) := by
  simp only [Parser.peekLexeme, bind_assoc, pure_bind]
  refine K.peek ?_
  rw [ParseState.next?] at h
  cases hs : s.rest.head? with
  | none | some t => rwa [hs] at h

theorem Kinship.accept (l : Lexeme) {f g : Bool → ParseM α}
    (htrue : ∀ s₁, s₁.rest.length < s.rest.length → K.Holds (n - 1) s₁ (f true) (g true))
    (hfalse : K.Holds n s (f false) (g false)) :
    K.Holds n s (accept l >>= f) (Parser.accept l >>= g) := by
  simp only [Parser.accept, bind_assoc]
  refine peekLexeme ?_
  split
  · next hl =>
    simp only [bind_assoc, pure_bind]
    exact K.advance hl htrue
  · simpa only [pure_bind] using hfalse

theorem Kinship.aliased {position : Option Position} {f g : Option String → ParseM TypeRef}
    (hf : ∀ name, f (some name) = Parser.aliasedType name position)
    (hg : ∀ name, g (some name) = Parser.aliasedType name (relocate K.place position))
    (h : K.Holds n s (f none) (g none)) : K.Holds n s (acceptIdent >>= f) (acceptIdent >>= g) := by
  simp only [acceptIdent, bind_assoc]
  refine peekLexeme ?_
  cases hnext : s.next? with
  | none => exact K.throw (by simp)
  | some l =>
    cases l with
    | ident name =>
      simp only [bind_assoc, pure_bind, hf, hg]
      exact K.aliasedType name position hnext
    | keyword | delimiter | value => exact h

theorem Kinship.unknown : K.Holds n s (Pure.pure (Expr.unknown {}))
    (Pure.pure (Expr.unknown {})) := by
  have h := K.pure (n := n) (s := s) (Expr.unknown {})
  change K.Holds n s _ (Pure.pure (Expr.unknown { position := some (K.place {}) })) at h
  rwa [K.place_default] at h

namespace Akin

theorem holds (h : Akin K n x y) (s : ParseState) : K.Holds n s x y :=
  h s

theorem mono (h : Akin K n x y) (hm : m ≤ n) : Akin K m x y :=
  fun s => K.mono hm (h s)

theorem bind (hx : Akin K n x y) (hf : ∀ a, Akin K n (f a) (g (relocate K.place a))) :
    Akin K n (x >>= f) (y >>= g) :=
  fun s => K.bind (hx s) fun a s₁ _ => hf a s₁

theorem pure (a : α) : Akin K n (pure a) (pure (relocate K.place a)) :=
  fun _ => K.pure a

theorem pure_eq {a b : α} (h : relocate K.place a = b) : Akin K n (Pure.pure a) (Pure.pure b) :=
  h ▸ pure a

theorem throw {e : Fault} (he : e ≠ .tooDeep) : Akin K n (throw e : ParseM α) (throw e) :=
  fun _ => K.throw he

theorem ite (c : Prop) [Decidable c] {x' y' : ParseM α} (hx : Akin K n x x') (hy : Akin K n y y') :
    Akin K n (if c then x else y) (if c then x' else y') := by
  split
  · exact hx
  · exact hy

theorem accept (l : Lexeme) : Akin K n (accept l) (accept l) := by
  have h : Akin K n (Parser.accept l >>= Pure.pure) (Parser.accept l >>= Pure.pure) :=
    fun s => Kinship.accept l (fun _ _ => K.pure true) (K.pure false)
  simpa only [bind_pure] using h

theorem accept_if (l : Lexeme) {x' y' : ParseM α} (hx : Akin K n x x') (hy : Akin K (n + 1) y y') :
    Akin K (n + 1) (Parser.accept l >>= fun b => if b = true then x else y)
      (Parser.accept l >>= fun b => if b = true then x' else y') :=
  fun s => Kinship.accept l (fun s₁ _ => hx s₁) (hy s)

theorem peek : Akin K n peek peek := by
  have h : Akin K n (Parser.peek >>= Pure.pure) (Parser.peek >>= Pure.pure) :=
    fun s => K.peek (K.pure _)
  simpa only [bind_pure] using h

theorem here : Akin K n here here := by
  refine peek.bind fun t => ?_
  cases t with
  | none => exact pure none
  | some t => exact pure (some t.position)

theorem dummy : Akin K n dummy dummy :=
  fun _ => K.aside (fun _ => ⟨rfl, rfl, rfl, fun _ => rfl⟩) fun s t h => by
    cases s
    cases t
    cases h
    exact ⟨rfl, rfl⟩

theorem makeType (f : TypeStore → TypeRef × TypeStore) : Akin K n (makeType f) (makeType f) :=
  fun _ => K.aside (fun _ => ⟨rfl, rfl, rfl, fun _ => rfl⟩) fun s t h => by
    cases s
    cases t
    cases h
    exact ⟨rfl, rfl⟩

variable (e : Expr)

theorem typeOf : Akin K n (typeOf e) (typeOf (relocate K.place e)) := by
  cases e with
  | missing => exact throw nofun
  | _ => exact pure _

theorem placeOf : Akin K n (placeOf e) (placeOf (relocate K.place e)) := by
  cases e with
  | missing => exact throw nofun
  | _ => exact pure _

theorem report (text : String) (position : Option Position) :
    Akin K n (report text position) (report text (relocate K.place position)) :=
  fun _ => K.report text position

theorem expect (d : Delimiter) : Akin K n (expect d) (expect d) := by
  refine fun s => K.peek ?_
  cases hs : s.rest.head? with
  | none => exact K.report _ _
  | some t =>
    have hnext : s.next? = some t.lexeme := by rw [ParseState.next?, hs]; rfl
    change K.Holds n s (if t.lexeme ≠ .delimiter d then _ else _)
      (if t.lexeme ≠ .delimiter d then _ else _)
    by_cases ht : t.lexeme = .delimiter d
    · rw [if_neg (not_not.mpr ht), if_neg (not_not.mpr ht)]
      exact K.advance hnext fun s₁ _ => K.pure ()
    · rw [if_pos ht, if_pos ht]
      exact K.refuse _ (some t.position) hnext

theorem acceptIdent : Akin K n acceptIdent acceptIdent := by
  refine fun s => Kinship.peekLexeme ?_
  cases hs : s.next? with
  | none => exact K.throw nofun
  | some l =>
    cases l with
    | ident name => exact K.advance hs fun s₁ _ => K.pure _
    | keyword | delimiter | value => exact K.pure _

theorem expectIdent : Akin K n expectIdent expectIdent :=
  peek.bind fun token => acceptIdent.bind fun
    | some _ => pure _
    | none =>
      match token with
      | some _ => (report _ _).bind fun _ => pure _
      | none => pure _

theorem literalOf : Akin K n (literalOf e) (literalOf (relocate K.place e)) := by
  cases e with
  | literal => exact pure _
  | _ => exact here.bind fun _ => (report _ _).bind fun _ => pure _

theorem modify (f : ParseState → ParseState)
    (h : ∀ s, (f s).rest = s.rest ∧ (f s).used = s.used ∧ (f s).console = s.console ∧
      ∀ rest, f { s with rest } = { f s with rest })
    (hsettings : ∀ s t, s.settings = t.settings → (f s).settings = (f t).settings) :
    Akin K n (modify f : ParseM Unit) (modify f) :=
  fun _ => K.aside (f := fun s => ((), f s)) (fun s =>
    ⟨(h s).1, (h s).2.1, (h s).2.2.1, fun rest => congrArg (Prod.mk ()) ((h s).2.2.2 rest)⟩)
    fun s t hst => ⟨rfl, hsettings s t hst⟩

theorem pipeInto (stage : Expr) :
    Akin K n (pipeInto e stage) (pipeInto (relocate K.place e) (relocate K.place stage)) := by
  cases stage with
  | ref => exact (placeOf _).bind fun _ => pure _
  | _ => exact pure _

theorem resultTyped : Akin K n (resultTyped e) (resultTyped (relocate K.place e)) := by
  refine (typeOf e).bind fun t => ?_
  cases t with
  | func _ result =>
    exact pure_eq (relocate_withType ..)
  | _ => exact pure _

theorem setAlias (name : Option String) (t : TypeRef) :
    Akin K n (setAlias name t) (setAlias name t) :=
  modify _ (fun _ => ⟨rfl, rfl, rfl, fun _ => rfl⟩) fun s t h => by
    cases s
    cases t
    cases h
    rfl

section Rules

variable {g g' : Grammar} (h : g.Akin K n g')
include h

theorem followers [Placed (List α)] (d : Delimiter) {item item' : ParseM α}
    (hitem : Akin K n item item') (hnil : relocate K.place ([] : List α) = [])
    (hcons : ∀ (a : α) as, relocate K.place (a :: as) = relocate K.place a ::
      relocate K.place as) :
    Akin K n (followers g d item) (followers g' d item') := by
  refine K.rounds (X := fun _ : Unit => itemsAfter d item) (Y := fun _ => itemsAfter d item')
    (fun _ => rfl) (fun _ => rfl) (fun m hm _ k k' s hloop => ?_)
    (K.enough_mono (Nat.le_succ n) h.rounds) ()
  refine Kinship.accept _ (fun s₁ hs₁ => ?_) (pure_eq hnil s)
  refine K.bind (K.mono (by omega) (hitem s₁)) fun x s₂ hs₂ => ?_
  exact K.bind (hloop () s₂ (by omega)) fun more s₃ _ => pure_eq (hcons x more) s₃

theorem upTo [Placed (List α)] (close : Delimiter) {item item' : ParseM α}
    (hitem : Akin K n item item') (hnil : relocate K.place ([] : List α) = [])
    (hcons : ∀ (a : α) as, relocate K.place (a :: as) = relocate K.place a ::
      relocate K.place as) :
    Akin K n (upTo g close item) (upTo g' close item') := by
  have hround : Akin K n (itemOrClose close item) (itemOrClose close item') :=
    (accept _).bind fun _ => .ite _ (hitem.bind fun _ => pure _) <|
      (accept _).bind fun _ => .ite _ (pure _) (hitem.bind fun _ => pure _)
  rw [Parser.upTo, Parser.upTo, h.impatient, h.patience]
  refine K.rounds (X := fun _ : Unit => itemsUpTo false close item)
    (Y := fun _ => itemsUpTo K.patient close item') (fun _ => rfl) (fun _ => rfl)
    (fun m hm _ k k' s hloop => ?_) (K.enough_mono (Nat.le_succ n) h.rounds) ()
  rw [itemsUpTo_succ, itemsUpTo_succ]
  refine K.bind_counted (K.mono hm (hround s)) fun next s₁ count hcount => ?_
  cases next with
  | none => exact pure_eq hnil s₁
  | some x =>
    change K.Holds _ s₁ (if _ ∧ count = 0 then _ else _) (if _ ∧ count = 0 then _ else _)
    split_ifs with hstalled hstalled'
    · exact K.throw nofun
    · exact K.stalled (by simp_all)
    · simp_all
    · have hread : count ≠ 0 := by simpa using hstalled
      exact K.bind (K.mono (by omega) (hloop () s₁ (by omega))) fun more s₂ _ =>
        pure_eq (hcons x more) s₂

theorem bracketed : Akin K n (bracketed g) (bracketed g') :=
  (accept _).bind fun _ => h.type.bind fun _ =>
    (followers h _ h.type rfl fun _ _ => rfl).bind fun _ =>
    (accept _).bind fun _ => pure _

theorem parameterTypes : Akin K n (parameterTypes g) (parameterTypes g') :=
  (accept _).bind fun _ => .ite _ (pure _) <| h.type.bind fun _ =>
    (followers h _ h.type rfl fun _ _ => rfl).bind fun _ => (accept _).bind fun _ => pure _

theorem namedType : Akin K (n + 1) (namedType g) (namedType g') := by
  refine accept_if _ (pure _) <| accept_if _ (pure _) <| accept_if _ (pure _) <|
    accept_if _ (pure _) <| accept_if _ (pure _) <| accept_if _ ?union <| accept_if _ ?list <|
    accept_if _ ?dict <| accept_if _ ?tuple <| accept_if _ ?schema <| accept_if _ ?table <|
    accept_if _ ?func (pure _)
  case union => exact (bracketed h).bind fun _ => (makeType _).bind fun _ => pure _
  case list =>
    exact (accept _).bind fun _ => h.type.bind fun _ => (accept _).bind fun _ => pure _
  case dict =>
    exact (accept _).bind fun _ => h.type.bind fun _ => (accept _).bind fun _ =>
      h.type.bind fun _ => (accept _).bind fun _ => pure _
  case tuple => exact (bracketed h).bind fun _ => (makeType _).bind fun _ => pure _
  case schema => exact (makeType _).bind fun _ => pure _
  case table => exact (makeType _).bind fun _ => pure _
  case func =>
    exact (parameterTypes h).bind fun _ => (accept _).bind fun _ => h.type.bind fun _ => pure _

variable (min : Nat) (position : Option Position)

theorem arrowType (first : Option TypeRef) :
    Akin K (n + 1) (arrowType g position first)
      (arrowType g' (relocate K.place position) first) := by
  refine accept_if _ (h.type.bind fun _ => pure _) ?_
  cases first with
  | some t => exact pure _
  | none => exact (report _ _).bind fun _ => pure _

theorem typeRule : Akin K (n + 1) (typeRule g) (typeRule g') :=
  here.bind fun _ => (namedType h).bind fun
    | some _ => arrowType h _ _
    | none => fun s => Kinship.aliased (fun _ => rfl) (fun _ => rfl) (arrowType h _ _ s)

theorem denotedType : Akin K n (denotedType g) (denotedType g') :=
  (accept _).bind fun _ => (typeRule h).mono (Nat.le_succ n)

theorem literalRule : Akin K (n + 1) (literalRule g) (literalRule g') := by
  refine here.bind fun _ => accept_if _ (pure _) <| accept_if _ (pure _) <|
    accept_if _ (pure _) fun s => Kinship.peekLexeme ?_
  cases hs : s.next? with
  | none => exact K.throw nofun
  | some l =>
    cases l with
    | keyword | delimiter | ident => exact K.unknown
    | value text =>
      dsimp only
      split
      · exact K.advance hs fun s₁ _ => K.pure _
      · split
        · exact K.throw nofun
        · refine K.advance hs fun s₁ _ => ?_
          refine holds ((accept _).bind fun _ => .ite _ ?_ (pure _)) s₁
          exact h.literal.bind fun e => (literalOf e).bind fun _ => pure _

theorem parenthesized : Akin K n (parenthesized g) (parenthesized g') := by
  refine here.bind fun _ => (accept _).bind fun _ => .ite _ (pure _) <| h.simple.bind fun _ =>
    (typeOf _).bind fun _ => (followers h _ ?_ rfl fun _ _ => rfl).bind fun more => ?_
  · exact h.simple.bind fun _ => (typeOf _).bind fun _ => pure _
  · rw [isEmpty_relocate, map_snd_relocate, map_fst_relocate]
    exact .ite _ (pure _) <| (makeType _).bind fun _ => pure _

theorem atomRule : Akin K (n + 1) (atomRule g) (atomRule g') := by
  refine here.bind fun _ s => Kinship.peekLexeme ?_
  cases hs : s.next? with
  | none => exact K.throw nofun
  | some l =>
    cases l with
    | value => exact literalRule h s
    | ident => exact K.advance hs fun s₁ _ => K.pure _
    | keyword k =>
      cases k with
      | builtin b =>
        refine K.advance hs fun s₁ _ => holds (bind (modify _ ?_ ?_) fun _ => ?_) s₁
        · exact fun _ => ⟨rfl, rfl, rfl, fun _ => rfl⟩
        · exact fun _ _ => id
        · exact pure _
      | _ => exact literalRule h s
    | delimiter d =>
      cases d with
      | parenLeft =>
        refine K.advance hs fun s₁ _ => ?_
        exact holds ((parenthesized h).bind fun e => (accept _).bind fun _ => pure e) s₁
      | _ => exact literalRule h s

theorem argumentsRule : Akin K n (argumentsRule g) (argumentsRule g') :=
  (accept _).bind fun _ => .ite _ (pure _) <| h.simple.bind fun _ =>
    (followers h _ h.simple rfl fun _ _ => rfl).bind fun _ => (expect _).bind fun _ => pure _

theorem applicationRule :
    Akin K (n + 1) (applicationRule g) (applicationRule g') := by
  refine here.bind fun _ => (atomRule h).bind fun function => ?_
  cases function with
  | literal => exact pure _
  | _ =>
    refine accept_if _ ((typeOf _).bind fun _ => (argumentsRule h).bind fun _ =>
      (followers h _ (argumentsRule h) rfl fun _ _ => rfl).bind fun more => ?_) (pure _)
    exact pure_eq (relocate_calls ..)

theorem pipeline (e : Expr) :
    Akin K (n + 1) (pipeline g e g.rounds) (pipeline g' (relocate K.place e) g'.rounds) := by
  refine K.rounds (X := fun e => Parser.pipeline g e) (Y := fun e => Parser.pipeline g' e)
    (fun _ => rfl) (fun _ => rfl) (fun m hm e k k' s hloop => ?_) h.rounds e
  refine Kinship.accept _ (fun s₁ hs₁ => ?_) (K.pure _)
  refine K.bind (K.mono (by omega) (applicationRule h s₁)) fun stage s₂ hs₂ => ?_
  exact K.bind (pipeInto e stage s₂) fun e' s₃ hs₃ => hloop e' s₃ (by omega)

theorem collectionRule : Akin K n (collectionRule g) (collectionRule g') := by
  refine here.bind fun _ => (accept _).bind fun _ => .ite _ (pure _) <| h.simple.bind fun _ =>
    (accept _).bind fun _ => .ite _ ?list <| (accept _).bind fun _ => .ite _ ?dict ?single
  case list =>
    exact h.simple.bind fun _ => (followers h _ h.simple rfl fun _ _ => rfl).bind fun _ =>
        (accept _).bind fun _ =>
      (typeOf _).bind fun _ => pure _
  case dict =>
    refine h.simple.bind fun _ => (followers h _ ?_ rfl fun _ _ => rfl).bind fun _ =>
        (accept _).bind fun _ =>
      (typeOf _).bind fun _ => (typeOf _).bind fun _ => pure _
    exact h.simple.bind fun _ => (accept _).bind fun _ => h.simple.bind fun _ => pure _
  case single => exact (accept _).bind fun _ => (typeOf _).bind fun _ => pure _

theorem columnRule : Akin K n (columnRule g) (columnRule g') :=
  expectIdent.bind fun _ => (denotedType h).bind fun _ => pure _

theorem schemaRule : Akin K n (schemaRule g) (schemaRule g') :=
  here.bind fun _ => (accept _).bind fun _ => (upTo h _ (columnRule h) rfl fun _ _ => rfl).bind
    fun _ =>
    (makeType _).bind fun _ => pure _

theorem tightRule : Akin K (n + 1) (tightRule g) (tightRule g') := by
  refine fun s => Kinship.peekLexeme ?_
  have hpipeline : Akin K (n + 1)
      (Parser.applicationRule g >>= fun e => Parser.pipeline g e g.rounds >>= Parser.resultTyped)
      (Parser.applicationRule g' >>= fun e => Parser.pipeline g' e g'.rounds >>=
        Parser.resultTyped) :=
    (applicationRule h).bind fun e => (pipeline h e).bind fun e' => resultTyped e'
  cases hs : s.next? with
  | none => exact K.unknown
  | some l =>
    cases l with
    | value | ident | keyword => exact hpipeline s
    | delimiter d =>
      cases d with
      | bracketLeft => exact K.advance hs fun s₁ _ => collectionRule h s₁
      | braceLeft =>
        exact K.advance hs fun s₁ _ =>
          holds (h.expression.bind fun e => (accept _).bind fun _ => pure e) s₁
      | _ => exact hpipeline s

theorem operandRule : Akin K (n + 1) (operandRule g) (operandRule g') := by
  have htight := (tightRule h).mono (Nat.le_succ n)
  exact here.bind fun _ => accept_if _ (htight.bind fun _ => pure _) <|
    accept_if _ (htight.bind fun _ => pure _) (tightRule h)

theorem operatorsFrom (left : Expr) :
    Akin K (n + 1) (operatorsFrom g min position left g.rounds)
      (operatorsFrom g' min (relocate K.place position) (relocate K.place left) g'.rounds) := by
  refine K.rounds (X := fun left => Parser.operatorsFrom g min position left)
    (Y := fun left => Parser.operatorsFrom g' min (relocate K.place position) left) (fun _ => rfl)
    (fun _ => rfl) (fun m hm left k k' s hloop => ?_) h.rounds left
  simp only [Parser.operatorsFrom, nextOperator?, bind_assoc, pure_bind]
  refine Kinship.peekLexeme ?_
  cases hs : s.next? with
  | none => exact K.pure _
  | some l =>
    cases Option.filter (Operator.isBinary min) ((some l).bind Lexeme.operator?) with
    | none => exact K.pure _
    | some op =>
      refine K.advance hs fun s₁ hs₁ => ?_
      refine K.bind (K.mono (by omega) (h.operators _ s₁)) fun right s₂ hs₂ => ?_
      exact hloop _ s₂ (by omega)

theorem operatorsRule : Akin K (n + 1) (operatorsRule g min) (operatorsRule g' min) :=
  here.bind fun _ => (operandRule h).bind fun _ => operatorsFrom h _ _ _

theorem blockRule : Akin K n (blockRule g) (blockRule g') :=
  (expect _).bind fun _ => h.expression.bind fun _ => (expect _).bind fun _ => pure _

theorem branchRule : Akin K n (branchRule g) (branchRule g') := by
  refine here.bind fun _ => h.simple.bind fun _ => (blockRule h).bind fun _ =>
      (accept _).bind fun _ =>
    .ite _ ((blockRule h).bind fun no => ?_) (pure _)
  cases no <;> exact pure _

theorem restRule : Akin K n (restRule g) (restRule g') :=
  (accept _).bind fun _ => .ite _ (h.expression.bind fun _ => pure _) (pure _)

theorem loopRule : Akin K n (loopRule g) (loopRule g') :=
  here.bind fun _ => expectIdent.bind fun _ => (accept _).bind fun _ => h.simple.bind fun _ =>
    (accept _).bind fun _ => h.expression.bind fun _ => (accept _).bind fun _ =>
      (restRule h).bind fun _ => pure _

theorem valuePattern :
    Akin K n (valuePattern g position) (valuePattern g' (relocate K.place position)) := by
  have hliteral := (literalRule h).mono (Nat.le_succ n)
  have hvalue : Akin K n (Parser.literalRule g >>= Parser.literalOf)
      (Parser.literalRule g' >>= Parser.literalOf) :=
    hliteral.bind fun e => literalOf e
  refine hliteral.bind fun e => ?_
  cases e with
  | range => exact pure _
  | literal =>
    refine (accept _).bind fun _ => .ite _ ?_ (pure _)
    exact (literalOf _).bind fun _ => hliteral.bind fun _ => (literalOf _).bind fun _ =>
      (followers h _ hvalue rfl fun _ _ => rfl).bind fun _ => pure _
  | _ => exact (report _ _).bind fun _ => pure _

theorem patternRule : Akin K n (patternRule g) (patternRule g') := by
  refine here.bind fun position s => Kinship.peekLexeme ?_
  cases hs : s.next? with
  | none => exact K.throw nofun
  | some l =>
    cases l with
    | value => exact valuePattern h position s
    | keyword | delimiter => exact holds ((report _ _).bind fun _ => pure Pattern.missing) s
    | ident name =>
      by_cases hname : name = "_"
      · subst hname
        exact K.advance hs fun s₁ _ => K.pure _
      · simp only
        refine K.advance hs fun s₁ _ => K.mono (Nat.sub_le n 1) ?_
        refine holds ((denotedType h).bind fun _ => (accept _).bind fun _ => .ite _ ?_ (pure _))
          s₁
        exact h.simple.bind fun _ => pure _

theorem caseRule : Akin K n (caseRule g) (caseRule g') :=
  (accept _).bind fun _ => (patternRule h).bind fun _ => (accept _).bind fun _ =>
    h.simple.bind fun _ => pure _

theorem casesRule : Akin K n (casesRule g) (casesRule g') :=
  here.bind fun _ => ((atomRule h).mono (Nat.le_succ n)).bind fun _ => (accept _).bind fun _ =>
    (caseRule h).bind fun _ => (followers h _ (caseRule h) rfl fun _ _ => rfl).bind fun _ =>
      (accept _).bind fun _ =>
      (typeOf _).bind fun _ => pure _

theorem parameterRule : Akin K n (parameterRule g) (parameterRule g') :=
  here.bind fun _ => expectIdent.bind fun _ => (denotedType h).bind fun _ => pure _

theorem lambdaRule : Akin K n (lambdaRule g) (lambdaRule g') := by
  refine here.bind fun _ => (upTo h _ (parameterRule h) rfl fun _ _ => rfl).bind fun _ =>
      (accept _).bind fun _ =>
    ((typeRule h).mono (Nat.le_succ n)).bind fun _ => (accept _).bind fun _ =>
      h.expression.bind fun _ => (accept _).bind fun _ => ?_
  rw [map_type_relocate]
  exact pure _

theorem aliasRule : Akin K n (aliasRule g) (aliasRule g') := by
  refine here.bind fun _ => expectIdent.bind fun _ => (accept _).bind fun _ =>
    ((typeRule h).mono (Nat.le_succ n)).bind fun _ => (setAlias _ _).bind fun _ =>
      (restRule h).bind fun rest => ?_
  cases rest with
  | none => exact (typeOf .missing).bind fun _ => pure _
  | some e => exact (typeOf e).bind fun _ => pure _

theorem joinedRule : Akin K n (joinedRule g) (joinedRule g') :=
  (collectionRule h).bind fun _ => (accept _).bind fun _ => .ite _
    (((tightRule h).mono (Nat.le_succ n)).bind fun _ => here.bind fun _ => pure _) (pure _)

theorem simpleRule : Akin K (n + 1) (simpleRule g) (simpleRule g') := by
  refine fun s => Kinship.peekLexeme ?_
  cases hs : s.next? with
  | none => exact K.unknown
  | some l =>
    have hstart {x y : ParseM Expr} (hx : Akin K n x y) :
        K.Holds (n + 1) s (advance >>= fun _ => x) (advance >>= fun _ => y) :=
      K.advance hs fun s₁ _ => hx s₁
    cases l with
    | value | ident => exact operatorsRule h 0 s
    | keyword k =>
      cases k with
      | «if» => exact hstart (branchRule h)
      | «for» => exact hstart (loopRule h)
      | «match» => exact hstart (casesRule h)
      | typeAlias => exact hstart (aliasRule h)
      | _ => exact operatorsRule h 0 s
    | delimiter d =>
      cases d with
      | bracketLeft => exact hstart (joinedRule h)
      | schema => exact hstart (schemaRule h)
      | pipe => exact hstart (lambdaRule h)
      | _ => exact operatorsRule h 0 s

theorem binderRule : Akin K n (binderRule g) (binderRule g') :=
  expectIdent.bind fun
    | none => pure _
    | some _ => (accept _).bind fun _ => .ite _
        (((typeRule h).mono (Nat.le_succ n)).bind fun _ => pure _) (pure _)

theorem bindersRule :
    Akin K n (bindersRule g g.rounds) (bindersRule g' g'.rounds) := by
  refine K.rounds (X := fun _ : Unit => Parser.bindersRule g) (Y := fun _ => Parser.bindersRule g')
    (fun _ => rfl) (fun _ => rfl) (fun m hm _ k k' s hloop => ?_)
    (K.enough_mono (Nat.le_succ n) h.rounds) ()
  refine Kinship.accept _ (fun s₁ hs₁ => ?_) (K.pure _)
  refine K.bind (K.mono (by omega) (binderRule h s₁)) fun binder s₂ hs₂ => ?_
  cases binder with
  | none => exact K.pure _
  | some b => exact K.bind (hloop () s₂ (by omega)) fun _ s₃ _ => K.pure _

theorem bindRule (first : String × TypeRef) (more : List (String × TypeRef)) :
    Akin K n (bindRule g position first more)
      (bindRule g' (relocate K.place position) first more) := by
  have hsimple := (simpleRule h).mono (Nat.le_succ n)
  refine ite _ ((pure first.2).bind fun _ => ?_) ((makeType _).bind fun _ => ?_)
  all_goals
    refine (accept _).bind fun _ => hsimple.bind fun _ => (restRule h).bind fun rest => ?_
    cases rest with
    | none => exact pure _
    | some e =>
      cases e with
      | unknown => exact (report _ _).bind fun _ => pure _
      | _ => exact pure _

theorem letRule : Akin K n (letRule g) (letRule g') := by
  refine here.bind fun position => (binderRule h).bind fun binder => ?_
  cases binder with
  | none => exact pure _
  | some first =>
    refine (bindersRule h).bind fun more => ?_
    cases more with
    | none => exact pure _
    | some more => exact bindRule h position first more

theorem expressionRule :
    Akin K (n + 1) (expressionRule g) (expressionRule g') := by
  have hsimple : Akin K (n + 1)
      (Parser.simpleRule g >>= fun e => acceptDelimiter .semicolon >>= fun b => if b = true then do
        let position ← Parser.placeOf e
        let name ← Parser.dummy
        let type ← Parser.typeOf e
        let rest ← g.expression
        return .bind { type := ← Parser.typeOf rest, position } [name] type e (some rest)
        else Pure.pure e)
      (Parser.simpleRule g' >>= fun e => acceptDelimiter .semicolon >>= fun b => if b = true then do
        let position ← Parser.placeOf e
        let name ← Parser.dummy
        let type ← Parser.typeOf e
        let rest ← g'.expression
        return .bind { type := ← Parser.typeOf rest, position } [name] type e (some rest)
        else Pure.pure e) :=
    (simpleRule h).bind fun e => accept_if _ ((placeOf e).bind fun _ => dummy.bind fun _ =>
      (typeOf e).bind fun _ => h.expression.bind fun rest => (typeOf rest).bind fun _ => pure _)
        (pure e)
  refine fun s => Kinship.peekLexeme ?_
  cases hs : s.next? with
  | none => exact K.unknown
  | some l =>
    cases l with
    | keyword k =>
      cases k with
      | «let» => exact K.advance hs fun s₁ _ => letRule h s₁
      | _ => exact hsimple s
    | _ => exact hsimple s

end Rules

end Akin

/-- Rules that are akin have akin rules around them. -/
theorem Grammar.Akin.step {g g' : Grammar} (h : g.Akin K n g') :
    g.step.Akin K (n + 1) g'.step where
  expression := .expressionRule h
  simple := .simpleRule h
  operators := .operatorsRule h
  literal := .literalRule h
  type := .typeRule h
  rounds := K.enough_succ h.rounds
  impatient := h.impatient
  patience := h.patience

theorem rounds_grammar (n : Nat) : (grammar patient n).rounds = n + 1 := by
  induction n with
  | zero => rfl
  | succ n ih => exact congrArg (· + 1) ih

theorem rounds_pos (n : Nat) : 0 < (grammar patient n).rounds := by
  rw [rounds_grammar]
  omega

theorem patient_grammar (n : Nat) : (grammar patient n).patient = patient := by
  induction n with
  | zero => rfl
  | succ n ih => exact ih

end Parser
end TableScript
