import TableScript.Proofs.UnreadTokens

/-!
# Reading ends

The grammar is read with as many levels of nesting and rounds of its loops as there are tokens. This
module shows that they do not run out, so that the numbers are no part of what the parser does.

* `ParseState.On`: the parser stands at one of the tokens, behind the last one or one step further.
  A name that stands for no type takes the token after it along, which need not be there.
* `Settles` relates a run with a run of other levels and rounds, or of a patient grammar. Both end
  alike, unless the first one gives up on an item that reads nothing and the second does not.
* `settles_grammar`: whoever calls a rule has read a token, and every round of a loop reads one. So
  the induction is on the number of tokens that are left.
-/

namespace TableScript

open ParseM Placed

/-- The parser stands in a list of tokens, at most one step behind its end. -/
structure ParseState.On (tokens : List Token) (s : ParseState) : Prop where
  rest : s.rest = tokens.drop s.used
  used : s.used ≤ tokens.length + 1

namespace ParseState.On

variable {tokens : List Token} {s s₁ : ParseState}

theorem length_rest (h : s.On tokens) : s.rest.length = tokens.length - s.used := by
  rw [h.rest, List.length_drop]

theorem rest_le (h : s.On tokens) (h₁ : s₁.On tokens) (hused : s.used ≤ s₁.used) :
    s₁.rest.length ≤ s.rest.length := by
  rw [h.length_rest, h₁.length_rest]
  omega

theorem used_lt (h : s.On tokens) {l : Lexeme} (hl : s.next? = some l) :
    s.used < tokens.length := by
  obtain ⟨t, rest, hrest⟩ := Parser.rest_of_next? hl
  have hlength := h.length_rest
  rw [hrest, List.length_cons] at hlength
  omega

theorem advance (h : s.On tokens) (hused : s.used ≤ tokens.length) :
    { s with rest := s.rest.tail, used := s.used + 1 }.On tokens := by
  refine ⟨?_, Nat.succ_le_succ hused⟩
  rw [h.rest, List.tail_drop]

end ParseState.On

namespace Parser

variable {α β : Type} {tokens : List Token} {patient : Bool} {n : Nat} {s : ParseState}

/-- The rule `x`, called with fewer than `n` tokens left, ends without running out of levels and
rounds, and never steps back or beyond the end. The rule `y` ends alike, unless it is patient where
`x` gives up. -/
def Settles (tokens : List Token) (patient : Bool) (n : Nat) (s : ParseState) (x y : ParseM α) :
    Prop :=
  s.On tokens → s.rest.length < n →
    (x.exec s).2.On tokens ∧ s.used ≤ (x.exec s).2.used ∧ (x.exec s).1 ≠ .error .tooDeep ∧
      (y.exec s = x.exec s ∨ patient = true ∧ (x.exec s).1 = .error .stalled)

namespace Settles

variable {x y : ParseM α} {f g : α → ParseM β}

theorem of_stays (hrest : (x.exec s).2.rest = s.rest) (hused : (x.exec s).2.used = s.used)
    (hdeep : (x.exec s).1 ≠ .error .tooDeep) : Settles tokens patient n s x x :=
  fun hs _ => ⟨⟨by rw [hrest, hused, hs.rest], hused ▸ hs.used⟩, hused.ge,
    hdeep, .inl rfl⟩

theorem of_gives {a : α} {s₁ : ParseState} (h : x.exec s = (.ok a, s₁))
    (hrest : s₁.rest = s.rest) (hused : s₁.used = s.used) : Settles tokens patient n s x x :=
  .of_stays (by rw [h, hrest]) (by rw [h, hused]) (by simp [h])

theorem pure (a : α) : Settles tokens patient n s (pure a) (pure a) :=
  .of_gives rfl rfl rfl

theorem bind (hx : Settles tokens patient n s x y)
    (hf : ∀ a s₁, x.exec s = (.ok a, s₁) → s₁.rest.length ≤ s.rest.length →
      Settles tokens patient n s₁ (f a) (g a)) :
    Settles tokens patient n s (x >>= f) (y >>= g) := by
  intro hs hn
  obtain ⟨hon, hused, hdeep, hy⟩ := hx hs hn
  rcases hexec : x.exec s with ⟨e | a, s₁⟩
  · rw [hexec] at hon hused hdeep hy
    rw [exec_bind x, hexec]
    refine ⟨hon, hused, fun h => hdeep (by cases h; rfl), hy.imp (fun hy => ?_) (.imp_right ?_)⟩
    · rw [exec_bind, hy]
    · rintro ⟨⟩
      rfl
  · rw [hexec] at hon hused hy
    have hy : y.exec s = (.ok a, s₁) := hy.resolve_right nofun
    have hrest := hs.rest_le hon hused
    obtain ⟨hon₂, hused₂, hdeep₂, hy₂⟩ := hf a s₁ hexec hrest hon (hrest.trans_lt hn)
    rw [exec_bind_of hexec, exec_bind_of hy]
    exact ⟨hon₂, hused.trans hused₂, hdeep₂, hy₂⟩

theorem advance {l : Lexeme} (hl : s.next? = some l)
    (hx : ∀ s₁, s₁.On tokens → s₁.used ≤ tokens.length →
      s₁.rest.length < s.rest.length → Settles tokens patient (n - 1) s₁ x y) :
    Settles tokens patient n s (Parser.advance >>= fun _ => x) (Parser.advance >>= fun _ => y) := by
  intro hs hn
  have hlt := hs.used_lt hl
  obtain ⟨t, rest, hrest⟩ := rest_of_next? hl
  have hon := hs.advance hlt.le
  obtain ⟨hon₁, hused, hdeep, hy⟩ := hx _ hon hlt (by simp [hrest]) hon
    (by simp only [hrest, List.length_cons, List.tail_cons] at hn ⊢; omega)
  rw [exec_bind_of (exec_advance s), exec_bind_of (exec_advance s)]
  exact ⟨hon₁, (Nat.le_succ _).trans hused, hdeep, hy⟩

theorem aliasedType (name : String) (position : Option Position) (hs : s.used ≤ tokens.length) :
    Settles tokens patient n s (aliasedType name position) (aliasedType name position) := by
  intro hon _
  rw [Parser.aliasedType, exec_bind_of (x := get) rfl]
  cases s.aliases.lookup (some name) with
  | some t => exact ⟨hon, le_rfl, nofun, .inl rfl⟩
  | none =>
    have hafter := hon.advance hs
    exact ⟨⟨hafter.rest, hafter.used⟩, Nat.le_succ _, nofun, .inl rfl⟩

theorem rounds {ι : Type} {k k' : Nat} {X Y : ι → Nat → ParseM α}
    (hstep : ∀ m ≤ n, ∀ i k k' s,
      (∀ i' s₁, s₁.rest.length < s.rest.length →
        Settles tokens patient (m - 1) s₁ (X i' k) (Y i' k')) →
          Settles tokens patient m s (X i (k + 1)) (Y i (k' + 1)))
    (hk : n ≤ k ∧ n ≤ k') (i : ι) (s : ParseState) :
    Settles tokens patient n s (X i k) (Y i k') := by
  induction n generalizing k k' i s with
  | zero => exact fun _ hn => absurd hn (Nat.not_lt_zero _)
  | succ n ih =>
    obtain ⟨k, rfl⟩ : ∃ j, k = j + 1 := ⟨k - 1, by omega⟩
    obtain ⟨k', rfl⟩ : ∃ j, k' = j + 1 := ⟨k' - 1, by omega⟩
    refine hstep (n + 1) le_rfl i k k' s fun i' s₁ _ => ?_
    exact ih (fun m hm => hstep m (by omega)) (by omega) i' s₁

theorem bind_counted {f g : Nat × α → ParseM β} (h : Settles tokens patient n s x y)
    (hf : ∀ a s₁ count, s₁.rest.length + count = s.rest.length →
      Settles tokens patient (n - count) s₁ (f (count, a)) (g (count, a))) :
    Settles tokens patient n s (counted x >>= f) (counted y >>= g) := by
  have hcounted : Settles tokens patient n s (counted x) (counted y) := by
    refine .bind (.of_gives rfl rfl rfl) fun before s₁ hs _ => ?_
    cases hs
    exact h.bind fun a s₁ _ _ => .bind (.of_gives rfl rfl rfl) fun _ _ _ _ => .pure _
  intro hs hn
  refine hcounted.bind (fun (count, a) s₁ hexec hrest hs₁ _ => ?_) hs hn
  obtain ⟨_, s', _, hexec⟩ := exec_bind_ok (x := x) hexec
  cases hexec
  exact hf a s₁ _ (Nat.add_sub_cancel' hrest) hs₁ (by omega)

end Settles

theorem id_default : id ({} : Position) = {} :=
  rfl

/-- To settle, as a kinship. -/
def settling (tokens : List Token) (patient : Bool) : Kinship where
  place := id
  place_default := id_default
  Holds := Settles tokens patient
  Enough n k k' := n ≤ k ∧ n ≤ k'
  patient := patient
  mono hm h hs hn := h hs (Nat.lt_of_lt_of_le hn hm)
  enough_mono hm h := ⟨Nat.le_trans hm h.1, Nat.le_trans hm h.2⟩
  enough_succ h := ⟨Nat.succ_le_succ h.1, Nat.succ_le_succ h.2⟩
  pure a := by
    rw [relocate_id]
    exact .pure a
  throw he := .of_stays rfl rfl fun h => he (by cases h; rfl)
  bind h hf := by
    simp only [relocate_id] at hf
    exact h.bind fun a s₁ _ hrest => hf a s₁ hrest
  peek h := .bind (.of_gives rfl rfl rfl) fun _ _ hs _ => by
    rw [relocate_id] at h
    cases hs
    exact h
  advance hl hx := .advance hl fun s₁ _ _ hrest => hx s₁ hrest
  aside {α _ n s f} hf _ := .of_gives rfl (hf s).1 (hf s).2.1
  report _ _ := by
    rw [relocate_id]
    exact .of_gives rfl rfl rfl
  refuse text position hl hs hn := by
    rw [relocate_id]
    have hafter := hs.advance (Nat.le_of_lt (hs.used_lt hl))
    exact ⟨⟨hafter.rest, hafter.used⟩, Nat.le_succ _, (fun h => by cases h), .inl rfl⟩
  aliasedType name position hl := by
    rw [relocate_id]
    exact .advance hl fun _ _ hused _ => .aliasedType name position hused
  rounds _ _ hstep hk i s := by
    simp only [relocate_id] at hstep ⊢
    exact .rounds hstep hk i s
  bind_counted h hf := by
    simp only [relocate_id] at hf
    exact h.bind_counted hf
  stalled hpatient hs _ := ⟨hs, Nat.le_refl _, (fun h => by cases h), .inr ⟨hpatient, rfl⟩⟩

/-- With enough levels, one more makes no difference. -/
theorem settles_grammar (tokens : List Token) (patient : Bool) {n k k' : Nat} (hk : n ≤ k)
    (hk' : n ≤ k') : (grammar false k).Akin (settling tokens patient) n (grammar patient k') := by
  induction n generalizing k k' with
  | zero =>
    have hnone {α : Type} [Placed α] (x y : ParseM α) : Akin (settling tokens patient) 0 x y :=
      fun _ _ hn => absurd hn (Nat.not_lt_zero _)
    refine ⟨hnone _ _, hnone _ _, fun _ => hnone _ _, hnone _ _, hnone _ _, ?_,
      patient_grammar false k, patient_grammar patient k'⟩
    exact ⟨rounds_pos false k, rounds_pos patient k'⟩
  | succ n ih =>
    obtain ⟨k, rfl⟩ : ∃ j, k = j + 1 := ⟨k - 1, by omega⟩
    obtain ⟨k', rfl⟩ : ∃ j, k' = j + 1 := ⟨k' - 1, by omega⟩
    exact (ih (Nat.le_of_succ_le_succ hk) (Nat.le_of_succ_le_succ hk')).step

/-- The rule steps neither back nor further than one behind the end, wherever it may be called. -/
def Forward (tokens : List Token) (n : Nat) (x : ParseM α) : Prop :=
  ∀ s, s.On tokens → s.rest.length < n → s.used ≤ (x.exec s).2.used ∧
    (x.exec s).2.On tokens

/-- No rule of the grammar steps back or too far. -/
structure Grammar.Forward (tokens : List Token) (n : Nat) (g : Grammar) : Prop where
  expression : Parser.Forward tokens n g.expression
  simple : Parser.Forward tokens n g.simple
  operators : ∀ min, Parser.Forward tokens n (g.operators min)
  literal : Parser.Forward tokens n g.literal
  type : Parser.Forward tokens n g.type

theorem forward_grammar (tokens : List Token) (n : Nat) :
    (grammar false n).Forward tokens n := by
  have h := settles_grammar tokens false (le_refl n) (le_refl n)
  have hforward {α : Type} [Placed α] {x y : ParseM α}
      (hx : Akin (settling tokens false) n x y) :
      Parser.Forward tokens n x := fun s hs hn => ⟨(hx s hs hn).2.1, (hx s hs hn).1⟩
  exact ⟨hforward h.expression, hforward h.simple, fun min => hforward (h.operators min),
    hforward h.literal, hforward h.type⟩

end Parser

variable (debugging : Bool) (tokens : List Token) (types : TypeStore) (console : Console)

theorem fst_shown (o : Except Fault Expr × ParseState) : (shown o).1 = o.1 := by
  rcases o with ⟨f | root, s⟩ <;> rfl

theorem on_shown {tokens : List Token} {o : Except Fault Expr × ParseState} (h : o.2.On tokens) :
    (shown o).2.On tokens := by
  rcases o with ⟨f | root, s⟩
  · exact h
  · exact ⟨h.rest, h.used⟩

theorem settles_parse (patient : Bool) {n : Nat} (hn : tokens.length < n) :
    Parser.Settles tokens patient n (.start debugging types console tokens)
      (Parser.grammar false (tokens.length + 2)).expression
      (Parser.grammar patient n).expression := by
  have h := Parser.settles_grammar tokens patient (n := tokens.length + 1)
    (Nat.le_succ (tokens.length + 1)) hn
  exact fun hs _ => h.expression _ hs (Nat.lt_succ_self _)

/-- Reading ends. The levels and rounds that are set aside do not run out, and more of them change
nothing. No rule steps back, or further than one behind the last token. Where no item of a schema or
of a parameter list reads nothing, a patient parser, which never gives up, does the same. -/
theorem parse_ends :
    (parse debugging tokens types console).1 ≠ .error .tooDeep ∧
    (∀ n, tokens.length < n → parseBy (Parser.grammar false n) debugging tokens types console =
      parse debugging tokens types console) ∧
    (parse debugging tokens types console).2.On tokens ∧
    (∀ n, (Parser.grammar false n).Forward tokens n) ∧
    ((parse debugging tokens types console).1 ≠ .error .stalled → ∀ n, tokens.length < n →
      parseBy (Parser.grammar true n) debugging tokens types console =
        parse debugging tokens types console) := by
  have hstart : (ParseState.start debugging types console tokens).On tokens :=
    ⟨rfl, Nat.zero_le _⟩
  have hparse (patient : Bool) {n : Nat} (hn : tokens.length < n) :=
    settles_parse debugging tokens types console patient hn hstart hn
  simp only [parse, parseBy_eq, fst_shown]
  obtain ⟨hon, -, hdeep, -⟩ := hparse false (Nat.lt_succ_self tokens.length)
  refine ⟨hdeep, fun n hn => ?_, on_shown hon, Parser.forward_grammar tokens,
    fun hstalled n hn => ?_⟩
  · obtain ⟨-, -, -, hsame | ⟨⟨⟩, -⟩⟩ := hparse false hn
    rw [hsame]
  · obtain ⟨-, -, -, hsame | ⟨-, habort⟩⟩ := hparse true hn
    · rw [hsame]
    · exact absurd habort hstalled

/-- The tokens of `${a: int}`. -/
def oneColumn : List Token :=
  [.delimiter .schema, .delimiter .braceLeft, .ident "a", .delimiter .denote, .keyword .int,
    .delimiter .braceRight].map fun lexeme => { lexeme, position := {} }

/-- A schema whose column is read in one round: the patient parser ends as well. -/
theorem parse_ends_oneColumn : (parse false oneColumn {} {}).1 ≠ .error .stalled ∧
    oneColumn.length < 7 ∧ parseBy (Parser.grammar true 7) false oneColumn {} {} =
      parse false oneColumn {} {} := by
  have hread : ∃ e, (parse false oneColumn {} {}).1 = .ok e := ⟨_, rfl⟩
  have hstalled : (parse false oneColumn {} {}).1 ≠ .error .stalled := by
    obtain ⟨e, he⟩ := hread
    rw [he]
    exact nofun
  have hlevels : oneColumn.length < 7 := by decide
  exact ⟨hstalled, hlevels, (parse_ends false oneColumn {} {}).2.2.2.2 hstalled 7 hlevels⟩

/-- A number is no column, so that `${1` is given up, while a patient parser uses up any rounds. -/
example :
    let tokens : List Token := [.delimiter .schema, .delimiter .braceLeft, .value "1"].map
      fun lexeme => { lexeme, position := {} }
    (parse false tokens {} {}).1 = .error .stalled ∧
      (parseBy (Parser.grammar true 4) false tokens {} {}).1 = .error .tooDeep :=
  ⟨rfl, rfl⟩

end TableScript
