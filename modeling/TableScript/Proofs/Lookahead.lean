import TableScript.Proofs.GrammarRules

/-!
# What a rule of the grammar looks at

A rule that gives a result without an error has read some tokens from the front, and of the tokens
after them it has seen at most the next one. So the same rule reads the same from any tokens that
start alike, whatever comes later and however deep the rules may nest.

* `Follows n s x y` says this of the run of `x` from the state `s`: the rule `y` does the same on
  other tokens, of which there are fewer than `n`. Usually `y` is the rule `x` of a grammar that
  nests to another depth.
* `lookahead` is this relation as a kinship, and `Alike n x y` says it from every state.
* `grammar_alike` puts the levels together.
-/

namespace TableScript

open ParseM Placed

/-- The state `s₁` may stand after `s`: tokens are only taken away, and the console is as it was
unless an error has been added. -/
structure ParseState.Later (s s₁ : ParseState) : Prop where
  rest : s₁.rest.length ≤ s.rest.length
  console : s₁.console = s.console ∨
    s.console.log.errors.length < s₁.console.log.errors.length

namespace ParseState.Later

variable {s s₁ s₂ : ParseState}

theorem refl (s : ParseState) : s.Later s := ⟨le_rfl, .inl rfl⟩

theorem errors (h : s.Later s₁) :
    s.console.log.errors.length ≤ s₁.console.log.errors.length := by
  rcases h.console with heq | hlt
  · rw [heq]
  · exact hlt.le

theorem trans (h : s.Later s₁) (h' : s₁.Later s₂) : s.Later s₂ := by
  refine ⟨h'.rest.trans h.rest, ?_⟩
  rcases h.console with heq | hlt
  · exact heq ▸ h'.console
  · exact .inr (hlt.trans_le h'.errors)

theorem silent (h : s.Later s₁) (h' : s₁.Later s₂) (hs : s₂.console = s.console) :
    s₁.console = s.console := by
  rcases h.console with heq | hlt
  · exact heq
  · have := h'.errors
    rw [hs] at this
    omega

end ParseState.Later

namespace Parser

variable {α β : Type} {n m : Nat} {s : ParseState}

/-- If `x` gives a result from `s`, tokens were only taken away and errors only added. If no error
was added, the tokens taken away are those read, each of them was counted, and `y` reads the same
tokens to the same result if it finds the same token after them and fewer than `n` in all. -/
def Follows (n : Nat) (s : ParseState) (x y : ParseM α) : Prop :=
  ∀ a s₁, x.exec s = (.ok a, s₁) → s.Later s₁ ∧ (s₁.console = s.console →
    ∃ read, s.rest = read ++ s₁.rest ∧ s₁.used = s.used + read.length ∧
      ∀ rest, rest.head? = s₁.rest.head? → (read ++ rest).length < n →
        y.exec { s with rest := read ++ rest } = (.ok a, { s₁ with rest }))

namespace Follows

variable {x y : ParseM α} {f g : α → ParseM β}

theorem of_runs (h : Follows n s x y) {x' y' : ParseM α} (hx : x'.exec s = x.exec s)
    (hy : ∀ rest, rest.head? = s.rest.head? → rest.length < m →
      rest.length < n ∧ y'.exec { s with rest } = y.exec { s with rest }) :
    Follows m s x' y' := by
  intro a s₁ hxs
  obtain ⟨hlater, hread⟩ := h a s₁ (hx ▸ hxs)
  refine ⟨hlater, fun hsilent => ?_⟩
  obtain ⟨read, hrest, hused, hread⟩ := hread hsilent
  refine ⟨read, hrest, hused, fun rest hhead hlength => ?_⟩
  have hnext : (read ++ rest).head? = s.rest.head? := by
    rw [hrest, List.head?_append, List.head?_append, hhead]
  obtain ⟨hshort, hsame⟩ := hy _ hnext hlength
  rw [hsame]
  exact hread rest hhead hshort

theorem mono (h : Follows n s x y) (hm : m ≤ n) : Follows m s x y :=
  h.of_runs rfl fun _ _ hlength => ⟨hlength.trans_le hm, rfl⟩

theorem congr {y' : ParseM α} (h : Follows n s x y)
    (hy : ∀ s, s.rest.length < n → y'.exec s = y.exec s) : Follows n s x y' :=
  h.of_runs rfl fun _ _ hlength => ⟨hlength, hy _ hlength⟩

theorem zero {y' : ParseM α} (h : Follows n s x y) : Follows 0 s x y' :=
  (h.mono (Nat.zero_le n)).congr fun _ hs => absurd hs (Nat.not_lt_zero _)

theorem bind_shorter (hx : Follows n s x y)
    (hf : ∀ a s₁, x.exec s = (.ok a, s₁) → s.Later s₁ →
      Follows (n - (s.rest.length - s₁.rest.length)) s₁ (f a) (g a)) :
    Follows n s (x >>= f) (y >>= g) := by
  intro b s₂ h
  obtain ⟨a, s₁, hxs, hfs⟩ := exec_bind_ok h
  obtain ⟨hlater, hread⟩ := hx a s₁ hxs
  obtain ⟨hlater', hread'⟩ := hf a s₁ hxs hlater b s₂ hfs
  refine ⟨hlater.trans hlater', fun hsilent => ?_⟩
  have hsilent₁ := hlater.silent hlater' hsilent
  obtain ⟨read, hrest, hused, hy⟩ := hread hsilent₁
  obtain ⟨read', hrest', hused', hy'⟩ := hread' (hsilent.trans hsilent₁.symm)
  have hlengths : s.rest.length = read.length + s₁.rest.length := by
    rw [hrest, List.length_append]
  refine ⟨read ++ read', ?_, ?_, fun rest hhead hlength => ?_⟩
  · rw [hrest, hrest', List.append_assoc]
  · rw [hused', hused, List.length_append, Nat.add_assoc]
  · simp only [List.append_assoc, List.length_append] at hlength ⊢
    have hfirst := hy (read' ++ rest)
      (by rw [hrest', List.head?_append, List.head?_append, hhead])
      (by simpa only [List.length_append] using hlength)
    have hsecond := hy' rest hhead (by rw [List.length_append]; omega)
    exact (exec_bind_of hfirst).trans hsecond

theorem bind (hx : Follows n s x y) (hf : ∀ a s₁, s.Later s₁ → Follows n s₁ (f a) (g a)) :
    Follows n s (x >>= f) (y >>= g) :=
  hx.bind_shorter fun a s₁ _ hlater => (hf a s₁ hlater).mono (Nat.sub_le ..)

end Follows

/-! ## Single steps -/

theorem later_advance (s : ParseState) :
    s.Later { s with rest := s.rest.tail, used := s.used + 1 } :=
  ⟨by simp, .inl rfl⟩

namespace Follows

variable {x y : ParseM α} {f g : α → ParseM β}

theorem of_stays (h : ∀ a s₁, x.exec s = (.ok a, s₁) →
    s₁.rest = s.rest ∧ s₁.used = s.used ∧ s₁.console = s.console ∧
      ∀ rest, rest.head? = s.rest.head? →
        x.exec { s with rest } = (.ok a, { s₁ with rest })) :
    Follows n s x x := by
  intro a s₁ hx
  obtain ⟨hrest, hused, hconsole, hx'⟩ := h a s₁ hx
  refine ⟨⟨hrest ▸ le_rfl, .inl hconsole⟩,
    fun _ => ⟨[], by rw [hrest]; rfl, hused, ?_⟩⟩
  intro rest hhead _
  exact hx' rest (hrest ▸ hhead)

theorem advance {l : Lexeme} (h : s.next? = some l) : Follows n s advance advance := by
  intro a s₁ hx
  cases hx
  obtain ⟨t, rest, hrest⟩ := rest_of_next? h
  refine ⟨later_advance s, fun _ => ⟨[t], ?_, rfl, fun rest' _ _ => rfl⟩⟩
  simp [hrest]

theorem advance_then {l : Lexeme} (h : s.next? = some l) {x y : ParseM α}
    (hx : ∀ s₁, s₁.rest.length < s.rest.length → Follows (n - 1) s₁ x y) :
    Follows n s (Parser.advance >>= fun _ => x) (Parser.advance >>= fun _ => y) := by
  refine (advance h).bind_shorter fun a s₁ hs _ => ?_
  cases hs
  obtain ⟨t, rest, hrest⟩ := rest_of_next? h
  have := hx { s with rest := s.rest.tail, used := s.used + 1 } (by simp [hrest])
  exact this.mono (by simp [hrest])

theorem peek_bind {f g : Option Token → ParseM α}
    (h : Follows n s (f s.rest.head?) (g s.rest.head?)) :
    Follows n s (peek >>= f) (peek >>= g) := by
  refine h.of_runs rfl fun rest hhead hlength => ⟨hlength, ?_⟩
  rw [← hhead]
  rfl

theorem get_bind {f g : ParseState → ParseM α} (hg : ∀ rest, g { s with rest } = g s)
    (h : Follows n s (f s) (g s)) : Follows n s (get >>= f) (get >>= g) := by
  refine h.of_runs rfl fun rest _ hlength => ⟨hlength, ?_⟩
  rw [← hg rest]
  rfl

theorem report_bind (text : String) (position : Option Position) {f : Unit → ParseM α}
    {y : ParseM α} (hf : ∀ s a s₁, (f ()).exec s = (.ok a, s₁) → s.Later s₁) :
    Follows n s (Parser.report text position >>= f) y := by
  intro a s₂ h
  obtain ⟨_, s₁, hs, h⟩ := exec_bind_ok h
  cases hs
  have hlater := hf _ a s₂ h
  have herrors := hlater.errors
  simp only [Console.error, Console.printLine, Console.print, List.length_append,
    List.length_singleton] at herrors
  refine ⟨⟨hlater.rest, .inr (by omega)⟩, fun hsilent => ?_⟩
  rw [hsilent] at herrors
  omega

theorem report (text : String) (position : Option Position) :
    Follows n s (report text position) (report text position) := by
  have := report_bind (n := n) (s := s) text position (f := Pure.pure)
    (y := Parser.report text position) fun s a s₁ h => by cases h; exact .refl _
  rwa [bind_pure] at this

theorem pure (a : α) : Follows n s (pure a) (pure a) := .of_stays fun _ _ h => by
  cases h
  exact ⟨rfl, rfl, rfl, fun _ _ => rfl⟩

theorem throw (e : Fault) {y : ParseM α} : Follows n s (throw e) y := fun a s₁ h => by
  cases h

theorem aliasedType (name : String) (position : Option Position) :
    Follows n s (aliasedType name position) (aliasedType name position) := by
  refine .get_bind (fun _ => rfl) ?_
  split
  · exact pure _
  · exact report_bind _ _ fun s a s₁ h => by cases h; exact later_advance s

end Follows

/-! ## Loops -/

theorem Follows.rounds {ι : Type} {k k' : Nat} {X Y : ι → Nat → ParseM α}
    (hX : ∀ i, X i 0 = MonadExcept.throw Fault.tooDeep)
    (hstep : ∀ m ≤ n, ∀ i k k' s,
      (∀ i' s₁, s₁.rest.length < s.rest.length →
        Follows (m - 1) s₁ (X i' k) (Y i' k')) → Follows m s (X i (k + 1)) (Y i (k' + 1)))
    (hk : n ≤ k') (i : ι) (s : ParseState) : Follows n s (X i k) (Y i k') := by
  suffices h : ∀ m ≤ n, ∀ k' i s, m ≤ k' → Follows m s (X i k) (Y i k')
    from h n le_rfl k' i s hk
  induction k with
  | zero => exact fun m _ k' i s _ => hX i ▸ .throw _
  | succ k ih =>
    intro m hm k' i s hk'
    cases k' with
    | succ k' =>
      exact hstep m hm i k k' s fun i' s₁ _ => ih (m - 1) (by omega) k' i' s₁ (by omega)
    | zero =>
      obtain rfl := Nat.le_zero.mp hk'
      have hone := hstep 0 hm i k 0 s fun i' s₁ _ => ih 0 hm 0 i' s₁ le_rfl
      exact Follows.zero hone

theorem Follows.bind_counted {x y : ParseM α} {f g : Nat × α → ParseM β} (h : Follows n s x y)
    (hf : ∀ a s₁ count, s₁.rest.length + count = s.rest.length →
      Follows (n - count) s₁ (f (count, a)) (g (count, a))) :
    Follows n s (counted x >>= f) (counted y >>= g) := by
  have hcounted : Follows n s (counted x) (counted y) := by
    rintro ⟨count, a⟩ s₁ hx
    obtain ⟨a', s', hx', hcount⟩ := exec_bind_ok (x := x) hx
    cases hcount
    obtain ⟨hlater, hread⟩ := h a s₁ hx'
    refine ⟨hlater, fun hsilent => ?_⟩
    obtain ⟨read, hrest, hused, hy⟩ := hread hsilent
    refine ⟨read, hrest, hused, fun rest hhead hlength => ?_⟩
    rw [exec_counted_of (hy rest hhead hlength)]
    simp [hrest]
  refine hcounted.bind_shorter fun (count, a) s₁ hs hlater => ?_
  obtain ⟨_, s', _, hs⟩ := exec_bind_ok (x := x) hs
  cases hs
  exact hf a s₁ _ (Nat.add_sub_cancel' hlater.rest)

/-! ## The grammar -/

/-- To follow, as a kinship. -/
def lookahead : Kinship where
  place := id
  place_default := rfl
  Holds := Follows
  Enough n _ k' := n ≤ k'
  patient := false
  mono hm h := h.mono hm
  enough_mono := le_trans
  enough_succ := Nat.succ_le_succ
  pure a := by
    rw [relocate_id]
    exact .pure a
  throw _ := .throw _
  bind h hf := by
    simp only [relocate_id] at hf
    exact h.bind fun a s₁ hlater => hf a s₁ hlater.rest
  peek h := by
    rw [relocate_id] at h
    exact .peek_bind h
  advance h := .advance_then h
  aside hf _ := .of_stays fun _ _ h => by
    obtain ⟨hrest, hused, hconsole, hf⟩ := hf _
    cases h
    exact ⟨hrest, hused, hconsole, fun rest _ => congrArg (Prod.map Except.ok id) (hf rest)⟩
  report text position := by
    rw [relocate_id]
    exact .report text position
  refuse text position _ := .report_bind text position fun s a s₁ h => by
    cases h
    exact later_advance s
  aliasedType name position hl := by
    rw [relocate_id]
    exact .advance_then hl fun _ _ => .aliasedType name position
  rounds hX _ hstep hk i s := by
    simp only [relocate_id] at hstep ⊢
    exact .rounds hX hstep hk i s
  bind_counted h hf := by
    simp only [relocate_id] at hf
    exact h.bind_counted hf
  stalled := nofun

/-- The rule `y` follows `x` from every state. -/
abbrev Alike [Placed α] (n : Nat) (x y : ParseM α) : Prop :=
  Akin lookahead n x y

/-- Grammars of two depths read tokens that start alike in the same way. -/
theorem grammar_alike (k n : Nat) :
    (grammar false k).Akin lookahead n (grammar false n) := by
  induction k generalizing n with
  | zero =>
    exact ⟨fun _ => .throw _, fun _ => .throw _, fun _ _ => .throw _, fun _ => .throw _,
      fun _ => .throw _, (rounds_grammar false n).ge, rfl, patient_grammar false n⟩
  | succ k ih =>
    cases n with
    | succ n => exact (ih n).step
    | zero =>
      have hstep := (ih 0).step
      exact ⟨fun s => .zero (hstep.expression s), fun s => .zero (hstep.simple s),
        fun min s => .zero (hstep.operators min s), fun s => .zero (hstep.literal s),
        fun s => .zero (hstep.type s), le_rfl, hstep.impatient, rfl⟩

end Parser
end TableScript
