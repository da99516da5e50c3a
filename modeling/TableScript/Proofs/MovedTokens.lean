import TableScript.Proofs.GrammarRules

/-!
# The same tokens elsewhere

What a rule of the grammar reads does not depend on the places of the tokens: on the same tokens at
other places it does the same, and the places in its result are the other ones. It does not look at
the console, at the built-in functions that were named or at the number of tokens used either.

`Moves π s x y` says this of the run of `x` from the state `s`, and `moving` is this relation as a
kinship.
-/

namespace TableScript

open ParseM Placed

/-- The state `t` has the tokens of `s` at other places, the same settings, and `d` errors less. -/
structure ParseState.MovedTo (π : Position → Position) (d : Nat) (s t : ParseState) : Prop where
  rest : t.rest = relocate π s.rest
  settings : s.settings = t.settings
  errors : s.console.log.errors.length = t.console.log.errors.length + d

namespace ParseState.MovedTo

variable {π : Position → Position} {d : Nat} {s t : ParseState}

theorem length (h : s.MovedTo π d t) : t.rest.length = s.rest.length := by
  rw [h.rest]
  exact List.length_map _

theorem head (h : s.MovedTo π d t) : t.rest.head? = relocate π s.rest.head? := by
  rw [h.rest]
  exact List.head?_map

theorem advance (h : s.MovedTo π d t) : MovedTo π d
    { s with rest := s.rest.tail, used := s.used + 1 }
    { t with rest := t.rest.tail, used := t.used + 1 } where
  rest := by
    change t.rest.tail = relocate π s.rest.tail
    rw [h.rest]
    exact List.map_tail.symm
  settings := h.settings
  errors := h.errors

theorem error (h : s.MovedTo π d t) (text text' : String) : MovedTo π d
    { s with console := s.console.error text } { t with console := t.console.error text' } where
  rest := h.rest
  settings := h.settings
  errors := by
    have := h.errors
    simp only [Console.error, Console.printLine, Console.print, List.length_append,
      List.length_singleton]
    omega

end ParseState.MovedTo

namespace Parser

variable {α β : Type} [Placed α] [Placed β] {π : Position → Position} {s : ParseState}

/-- From `s` and from any state with the same tokens at other places, the two rules come to the same
end, and no token is put back. -/
def Moves (π : Position → Position) (s : ParseState) (x y : ParseM α) : Prop :=
  ∀ t d, s.MovedTo π d t → (x.exec s).2.rest.length ≤ s.rest.length ∧
    (y.exec t).1 = (x.exec s).1.map (relocate π) ∧ (x.exec s).2.MovedTo π d (y.exec t).2

namespace Moves

variable {x y : ParseM α} {f g : α → ParseM β}

theorem pure (a : α) : Moves π s (pure a) (pure (relocate π a)) :=
  fun _ _ h => ⟨le_rfl, rfl, h⟩

theorem throw (e : Fault) : Moves π s (throw e : ParseM α) (throw e) :=
  fun _ _ h => ⟨le_rfl, rfl, h⟩

theorem bind (hx : Moves π s x y)
    (hf : ∀ a s₁, s₁.rest.length ≤ s.rest.length → Moves π s₁ (f a)
      (g (relocate π a))) :
    Moves π s (x >>= f) (y >>= g) := by
  intro t d h
  obtain ⟨hlength, hresult, hmoved⟩ := hx t d h
  rw [exec_bind, exec_bind]
  rcases hxs : x.exec s with ⟨e | a, s₁⟩ <;> rcases hyt : y.exec t with ⟨r, t₁⟩ <;>
    rw [hxs] at hlength hresult hmoved <;> rw [hyt] at hresult hmoved <;> cases hresult
  · exact ⟨hlength, rfl, hmoved⟩
  · obtain ⟨hlength', hresult', hmoved'⟩ := hf a s₁ hlength t₁ d hmoved
    exact ⟨hlength'.trans hlength, hresult', hmoved'⟩

theorem peek {f g : Option Token → ParseM α}
    (h : Moves π s (f s.rest.head?) (g (relocate π s.rest.head?))) :
    Moves π s (peek >>= f) (peek >>= g) := by
  intro t d ht
  have hpeek : (Parser.peek >>= g).exec t = (g (relocate π s.rest.head?)).exec t := by
    rw [← ht.head]
    rfl
  rw [hpeek]
  exact h t d ht

theorem advance_then {x y : ParseM α} {l : Lexeme} (hl : s.next? = some l)
    (hx : ∀ s₁, s₁.rest.length < s.rest.length → Moves π s₁ x y) :
    Moves π s (advance >>= fun _ => x) (Parser.advance >>= fun _ => y) := by
  intro t d h
  obtain ⟨token, rest, hrest⟩ := rest_of_next? hl
  have hshorter : s.rest.tail.length < s.rest.length := by
    rw [hrest]
    exact Nat.lt_succ_self _
  rw [exec_bind_of (exec_advance s), exec_bind_of (exec_advance t)]
  obtain ⟨hlength, hresult, hmoved⟩ := hx _ hshorter _ d h.advance
  exact ⟨hlength.trans hshorter.le, hresult, hmoved⟩

theorem aside {f : ParseState → α × ParseState}
    (hf : ∀ s, (f s).2.rest = s.rest ∧ (f s).2.console = s.console)
    (hsettings : ∀ s t, s.settings = t.settings →
      (f t).1 = relocate π (f s).1 ∧ (f s).2.settings = (f t).2.settings) :
    Moves π s (modifyGet f : ParseM α) (modifyGet f) := by
  intro t d h
  obtain ⟨hresult, hsame⟩ := hsettings s t h.settings
  refine ⟨(congrArg List.length (hf s).1).le, congrArg Except.ok hresult, ?_, hsame, ?_⟩
  · exact (hf t).1.trans (h.rest.trans (congrArg _ (hf s).1.symm))
  · change (f s).2.console.log.errors.length = (f t).2.console.log.errors.length + d
    rw [(hf s).2, (hf t).2, h.errors]

theorem report (text : String) (position : Option Position) :
    Moves π s (report text position) (report text (relocate π position)) :=
  fun _ _ h => ⟨le_rfl, rfl, h.error _ _⟩

theorem refuse (text : String) (position : Option Position) :
    Moves π s (Parser.report text position >>= fun _ => Parser.advance)
      (Parser.report text (relocate π position) >>= fun _ => Parser.advance) :=
  fun _ _ h => ⟨List.length_tail ▸ Nat.sub_le .., rfl, (h.error _ _).advance⟩

theorem aliasedType (name : String) (position : Option Position) :
    Moves π s (aliasedType name position) (aliasedType name (relocate π position)) := by
  intro t d h
  unfold Parser.aliasedType
  rw [exec_bind_of (rfl : exec get s = (.ok s, s)), exec_bind_of (rfl : exec get t = (.ok t, t)),
    show s.aliases = t.aliases from congrArg (·.2.1) h.settings]
  cases t.aliases.lookup (some name) with
  | some type => exact ⟨le_rfl, rfl, h⟩
  | none => exact ⟨List.length_tail ▸ Nat.sub_le .., rfl, (h.error _ _).advance⟩

theorem rounds {ι : Type} [Placed ι] {n k : Nat} {X Y : ι → Nat → ParseM α}
    (hX : ∀ i, X i 0 = MonadExcept.throw Fault.tooDeep)
    (hY : ∀ i, Y i 0 = MonadExcept.throw Fault.tooDeep)
    (hstep : ∀ m ≤ n, ∀ i k k' s,
      (∀ i' s₁, s₁.rest.length < s.rest.length →
        Moves π s₁ (X i' k) (Y (relocate π i') k')) →
        Moves π s (X i (k + 1)) (Y (relocate π i) (k' + 1)))
    (i : ι) (s : ParseState) : Moves π s (X i k) (Y (relocate π i) k) := by
  induction k generalizing i s with
  | zero =>
    rw [hX, hY]
    exact throw _
  | succ k ih => exact hstep 0 (Nat.zero_le n) i k k s fun i' s₁ _ => ih i' s₁

theorem bind_counted {f g : Nat × α → ParseM β} (h : Moves π s x y)
    (hf : ∀ a s₁ count, s₁.rest.length + count = s.rest.length →
      Moves π s₁ (f (count, a)) (g (count, relocate π a))) :
    Moves π s (counted x >>= f) (counted y >>= g) := by
  intro t d ht
  obtain ⟨hlength, hresult, hmoved⟩ := h t d ht
  rcases hxs : x.exec s with ⟨e | a, s₁⟩ <;> rcases hyt : y.exec t with ⟨r, t₁⟩ <;>
    rw [hxs] at hlength hresult hmoved <;> rw [hyt] at hresult hmoved <;> cases hresult
  · have hfails {x : ParseM α} {s s₁ : ParseState} (hx : x.exec s = (.error e, s₁)) :
        (counted x).exec s = (.error e, s₁) := exec_bind_error (x := x) hx
    rw [exec_bind_error (hfails hxs), exec_bind_error (hfails hyt)]
    exact ⟨hlength, rfl, hmoved⟩
  · rw [exec_bind_of (exec_counted_of hxs), exec_bind_of (exec_counted_of hyt), ht.length,
      hmoved.length]
    obtain ⟨hlength', hend⟩ := hf a s₁ _ (Nat.add_sub_cancel' hlength) t₁ d hmoved
    exact ⟨hlength'.trans hlength, hend⟩

end Moves

/-- To do the same elsewhere, as a kinship. -/
def moving (π : Position → Position) (hπ : π {} = {}) : Kinship where
  place := π
  place_default := hπ
  Holds _ := Moves π
  Enough _ k k' := k = k'
  patient := false
  mono _ h := h
  enough_mono _ h := h
  enough_succ h := congrArg Nat.succ h
  pure := .pure
  throw _ := .throw _
  bind := .bind
  peek := .peek
  advance := .advance_then
  aside hf hsettings := .aside (fun s => ⟨(hf s).1, (hf s).2.2.1⟩) hsettings
  report := .report
  refuse text position _ := .refuse text position
  aliasedType name position hl := .advance_then hl fun _ _ => .aliasedType name position
  rounds hX hY hstep hk := hk ▸ .rounds hX hY hstep
  bind_counted := .bind_counted
  stalled := nofun

theorem grammar_moves (hπ : π {} = {}) (k n : Nat) :
    (grammar false k).Akin (moving π hπ) n (grammar false k) := by
  induction k generalizing n with
  | zero =>
    exact ⟨fun _ => .throw _, fun _ => .throw _, fun _ _ => .throw _, fun _ => .throw _,
      fun _ => .throw _, rfl, rfl, rfl⟩
  | succ k ih =>
    have hstep := (ih n).step
    exact ⟨hstep.expression, hstep.simple, hstep.operators, hstep.literal, hstep.type, rfl,
      hstep.impatient, hstep.patience⟩

end Parser
end TableScript
