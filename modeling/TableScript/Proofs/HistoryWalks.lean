import TableScript.Shell.Prompt

/-!
# Walks through the history

Whatever is typed, the prompt looks up entries of its history only where there are some
(`Prompt.InHistory`). From a fresh prompt, the walks go round: each step back or forward is one down
or up modulo the number of entries, so a step forward is undone by a step back.
-/

namespace TableScript.Prompt

variable {p : Prompt} {size cursor : Nat} {move : Nat → Nat → Nat}

/-- The responses to lines that are typed one after the other, and the prompt after them. -/
def typed (p : Prompt) : List String → List Response × Prompt
  | [] => ([], p)
  | line :: lines =>
    ((p.step line).1 :: ((p.step line).2.typed lines).1, ((p.step line).2.typed lines).2)

/-- The walk stands in the history or right behind its end. -/
def InHistory (p : Prompt) : Prop :=
  p.cursor ≤ p.history.length

theorem inHistory_fresh (p : Prompt) : p.fresh.InHistory :=
  Nat.le_refl _

/-! ## Steps -/

theorem before_lt (hsize : 0 < size) (h : cursor ≤ size) :
    before size cursor < size := by
  unfold before
  split <;> omega

theorem after_lt (hsize : 0 < size) : after size cursor < size := by
  unfold after
  split <;> omega

theorem before_eq_emod (hsize : 0 < size) (h : cursor ≤ size) :
    (before size cursor : Int) = ((cursor : Int) - 1) % size := by
  unfold before
  split
  · next hzero =>
    subst hzero
    rw [← Int.add_emod_right, Int.emod_eq_of_lt] <;> omega
  · rw [Int.emod_eq_of_lt] <;> omega

theorem after_eq_emod (h : cursor < size) :
    (after size cursor : Int) = ((cursor : Int) + 1) % size := by
  unfold after
  split
  · have hlast : (cursor : Int) + 1 = size := by omega
    rw [hlast, Int.emod_self]
    rfl
  · rw [Int.emod_eq_of_lt] <;> omega

theorem before_after (h : cursor < size) :
    before size (after size cursor) = cursor := by
  unfold before after
  split <;> split <;> omega

/-- The prompt when the entry at a place is offered. -/
def standingAt (p : Prompt) (place : Nat) : Prompt :=
  { p with cursor := place, offered := p.history[place]? }

theorem walk_eq {place : Nat} (hplace : place < p.history.length)
    (hmove : move p.history.length p.cursor = place) :
    p.walk move = (.offer (p.history[place]), p.standingAt place) := by
  have hentry := List.getElem?_eq_getElem hplace
  have hsome : p.history.isEmpty = false := by
    cases hp : p.history with
    | nil => rw [hp] at hplace; cases hplace
    | cons _ _ => rfl
  rw [walk, hsome, if_neg Bool.false_ne_true, offer, hmove, hentry, standingAt, hentry]

theorem walk_standingAt {place next : Nat} (hnext : next < p.history.length)
    (hmove : move p.history.length place = next) :
    (p.standingAt place).walk move = (.offer (p.history[next]), p.standingAt next) :=
  walk_eq (p := p.standingAt place) hnext hmove

theorem inHistory_walk (h : p.InHistory)
    (hmove : 0 < p.history.length → move p.history.length p.cursor < p.history.length) :
    (p.walk move).2.InHistory ∧ ∀ f, (p.walk move).1 ≠ .fault f := by
  cases hp : p.history.isEmpty with
  | true =>
    rw [walk, hp, if_pos rfl]
    exact ⟨h, fun _ hf => by cases hf⟩
  | false =>
    have hlt := hmove (List.length_pos_iff.mpr (by simpa using hp))
    rw [walk_eq hlt rfl]
    exact ⟨Nat.le_of_lt hlt, fun _ hf => by cases hf⟩

theorem inHistory_accept (p : Prompt) (line : String) :
    (p.accept line).2.InHistory ∧ ∀ f, (p.accept line).1 ≠ .fault f := by
  unfold accept
  split
  · exact ⟨inHistory_fresh _, fun _ hf => by cases hf⟩
  · split <;> exact ⟨inHistory_fresh _, fun _ hf => by cases hf⟩

theorem inHistory_step (h : p.InHistory) (line : String) :
    (p.step line).2.InHistory ∧ ∀ f, (p.step line).1 ≠ .fault f := by
  unfold step
  cases Command.ofLine? line with
  | some c =>
    cases c with
    | previous => exact inHistory_walk h fun hsize => before_lt hsize h
    | next => exact inHistory_walk h after_lt
    | clear => exact ⟨inHistory_fresh _, fun _ hf => by cases hf⟩
    | quit | help => exact ⟨h, fun _ hf => by cases hf⟩
    | history =>
      dsimp only [follow]
      split <;> exact ⟨h, fun _ hf => by cases hf⟩
  | none =>
    dsimp only
    split
    · cases p.offered with
      | some entry => exact inHistory_accept p entry
      | none => exact ⟨h, fun _ hf => by cases hf⟩
    · exact inHistory_accept p line

theorem inHistory_typed (h : p.InHistory) (lines : List String) :
    (p.typed lines).2.InHistory ∧ ∀ f, .fault f ∉ (p.typed lines).1 := by
  induction lines generalizing p with
  | nil => exact ⟨h, fun _ hf => by cases hf⟩
  | cons line lines ih =>
    obtain ⟨hin, hstep⟩ := inHistory_step h line
    obtain ⟨hafter, hrest⟩ := ih hin
    refine ⟨hafter, fun f hf => ?_⟩
    rcases List.mem_cons.mp hf with hf | hf
    · exact hstep f hf.symm
    · exact hrest f hf

/-! ## Walks from a fresh prompt -/

theorem typed_append (p : Prompt) (lines more : List String) :
    p.typed (lines ++ more) =
      ((p.typed lines).1 ++ ((p.typed lines).2.typed more).1,
        ((p.typed lines).2.typed more).2) := by
  induction lines generalizing p with
  | nil => rfl
  | cons line lines ih => simp only [List.cons_append, typed, ih]

theorem typed_replicate {command : String} (place : Nat → Nat)
    (hcommand : ∀ q : Prompt, q.step command = q.walk move)
    (hplace : ∀ k, place k < p.history.length)
    (hfirst : move p.history.length p.cursor = place 0)
    (hnext : ∀ k, move p.history.length (place k) = place (k + 1)) (k : Nat) :
    (p.typed (List.replicate (k + 1) command)).1.getLast? = p.history[place k]?.map .offer ∧
      (p.typed (List.replicate (k + 1) command)).2 = p.standingAt (place k) := by
  induction k with
  | zero => simp [typed, hcommand, walk_eq (hplace 0) hfirst, hplace 0]
  | succ k ih =>
    rw [List.replicate_succ', typed_append, ih.2]
    simp [typed, hcommand, walk_standingAt (hplace (k + 1)) (hnext k), hplace (k + 1)]

/-- The place in a history of `size` entries that a number comes to modulo its size. -/
def placeOf (size : Nat) (n : Int) : Nat :=
  (n % size).toNat

theorem coe_placeOf (h : 0 < size) (n : Int) : (placeOf size n : Int) = n % size :=
  Int.toNat_of_nonneg (Int.emod_nonneg _ (by omega))

theorem placeOf_lt (h : 0 < size) (n : Int) : placeOf size n < size := by
  have hlt := Int.emod_lt_of_pos n (show (0 : Int) < size by omega)
  have hplace := coe_placeOf h n
  omega

theorem before_placeOf (h : 0 < size) (n : Int) :
    before size (placeOf size n) = placeOf size (n - 1) := by
  have hplace := before_eq_emod h (Nat.le_of_lt (placeOf_lt h n))
  rw [coe_placeOf h, Int.emod_sub_emod, ← coe_placeOf h] at hplace
  exact Int.ofNat_inj.mp hplace

theorem after_placeOf (h : 0 < size) (n : Int) :
    after size (placeOf size n) = placeOf size (n + 1) := by
  have hplace := after_eq_emod (placeOf_lt h n)
  rw [coe_placeOf h, Int.emod_add_emod, ← coe_placeOf h] at hplace
  exact Int.ofNat_inj.mp hplace

theorem typed_prev (hcursor : p.cursor = p.history.length) (hsize : 0 < p.history.length)
    (k : Nat) :
    (p.typed (List.replicate (k + 1) "@prev")).1.getLast? =
      p.history[placeOf p.history.length (p.history.length - (k + 1))]?.map .offer := by
  refine (typed_replicate (fun k => placeOf p.history.length (p.history.length - (k + 1)))
    (fun _ => rfl) (fun _ => placeOf_lt hsize _) ?_ (fun k => ?_) k).1
  · have hfirst := before_eq_emod hsize (Nat.le_refl _)
    rw [← coe_placeOf hsize] at hfirst
    rw [hcursor]
    exact Int.ofNat_inj.mp hfirst
  · rw [before_placeOf hsize]
    congr 1
    omega

theorem typed_next (hcursor : p.cursor = p.history.length) (hsize : 0 < p.history.length)
    (k : Nat) :
    (p.typed (List.replicate (k + 1) "@next")).1.getLast? =
      p.history[placeOf p.history.length k]?.map .offer := by
  refine (typed_replicate (fun k => placeOf p.history.length k) (fun _ => rfl)
    (fun _ => placeOf_lt hsize _) ?_ (fun k => after_placeOf hsize k) k).1
  rw [hcursor, after, if_pos (Nat.sub_le ..)]
  exact (congrArg Int.toNat (Int.zero_emod _)).symm

theorem typed_idle {lines : List String}
    (h : ∀ line ∈ lines, line = "@help" ∨ line = "@history") :
    (p.typed lines).2 = p := by
  induction lines with
  | nil => rfl
  | cons line lines ih =>
    obtain ⟨hline, hlines⟩ := List.forall_mem_cons.mp h
    have hstep : (p.step line).2 = p := by
      rcases hline with rfl | rfl
      · rfl
      · change (if p.history.isEmpty then _ else _ : Response × Prompt).2 = p
        split <;> rfl
    rw [typed, hstep]
    exact ih hlines

theorem forward_back (move : Nat → Nat → Nat)
    (hmove : 0 < p.history.length → move p.history.length p.cursor < p.history.length) :
    (((p.walk move).2.step "@next").2.step "@prev").1 = (p.walk move).1 := by
  change (((p.walk move).2.walk after).2.walk before).1 = (p.walk move).1
  cases hp : p.history.isEmpty with
  | true => simp only [walk, hp, if_true]
  | false =>
    have hsize := List.length_pos_iff.mpr (by simpa using hp)
    have hplace := hmove hsize
    rw [walk_eq hplace rfl, walk_standingAt (after_lt hsize) rfl,
      walk_standingAt hplace (before_after hplace)]

/-- Whatever has been typed, every entry that is looked up is in the history. At a fresh prompt with
entries, steps back show the last entry, the one before it and so on, steps forward the first entry,
the one after it and so on, and both go round. A step forward that comes after another step is
undone by a step back. -/
theorem history_walks (lines : List String) :
    (∀ f, .fault f ∉ (typed {} lines).1) ∧
    ∀ p, (typed {} lines).2 = p →
      (p.fresh = p → 0 < p.history.length → ∀ k, 0 < k →
        (p.typed (List.replicate k "@prev")).1.getLast? =
            p.history[placeOf p.history.length (p.history.length - k)]?.map .offer ∧
          (p.typed (List.replicate k "@next")).1.getLast? =
            p.history[placeOf p.history.length (k - 1)]?.map .offer) ∧
      ∀ command ∈ ["@prev", "@next"], ∀ idle : List String,
        (∀ line ∈ idle, line = "@help" ∨ line = "@history") →
        ((p.step command).2.typed (idle ++ ["@next", "@prev"])).1.getLast? =
          some (p.step command).1 := by
  obtain ⟨hin, hfault⟩ := inHistory_typed (inHistory_fresh {}) lines
  refine ⟨hfault, fun p hp => ⟨fun hfresh hsize k hk => ?_,
    fun command hcommand idle hidle => ?_⟩⟩
  · obtain ⟨k, rfl⟩ : ∃ n, k = n + 1 := ⟨k - 1, by omega⟩
    have hcursor : p.cursor = p.history.length := by
      rw [← hfresh]
      rfl
    rw [typed_prev hcursor hsize, typed_next hcursor hsize]
    simp
  · have hcursor : p.InHistory := hp ▸ hin
    rw [typed_append, typed_idle hidle, List.getLast?_append]
    change some _ = some _
    rcases List.mem_cons.mp hcommand with rfl | hcommand
    · exact congrArg some (forward_back before fun hsize => before_lt hsize hcursor)
    · cases List.mem_singleton.mp hcommand
      exact congrArg some (forward_back after after_lt)

/-- With two entries, the third step back shows the last entry again. -/
theorem history_walks_two :
    ((typed {} ["1", "2", "@prev", "@prev", "@prev"]).1.getLast? = some (.offer "2")) ∧
      ∀ f, .fault f ∉ (typed {} ["1", "2"]).1 := by
  obtain ⟨hfault, hwalks⟩ := history_walks ["1", "2"]
  exact ⟨((hwalks _ rfl).1 rfl (by decide) 3 (by decide)).1, hfault⟩

end TableScript.Prompt
