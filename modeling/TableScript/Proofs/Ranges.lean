import TableScript.Proofs.ElementWise
import TableScript.Proofs.TableViews
import TableScript.Query.Eval

/-!
# What a range stands for

A range is written in three places: as a list, as a pattern, and after `in` in a query. The list and
the pattern count from one bound to the other, up or down, and neither is there for a range that is
too large. A query compares with the bounds as they stand. `range_agrees_iff` says where the three
say the same of a number.
-/

namespace TableScript

open EvalM

/-- A number lies between two bounds, whichever of them is the smaller one. -/
def Between (a b n : Int) : Prop :=
  min a b ≤ n ∧ n ≤ max a b

variable {n : Int} {size : Nat}

theorem mem_rangeElements {a b : Int} : n ∈ rangeElements a b ↔ Between a b n := by
  rw [rangeElements, Between]
  split
  · next hup =>
    simp only [List.mem_map, List.mem_range]
    constructor
    · rintro ⟨i, hi, rfl⟩
      omega
    · intro hn
      exact ⟨(n - a).toNat, by omega, by omega⟩
  · next hdown =>
    simp only [List.mem_map, List.mem_range]
    constructor
    · rintro ⟨i, hi, rfl⟩
      omega
    · intro hn
      exact ⟨(a - n).toNat, by omega, by omega⟩

theorem capacity_le : capacity ≤ Nat.pow 2 63 :=
  Nat.pow_le_pow_right (by decide) (by decide)

theorem small_lt_capacity (h : size < 8) : size < capacity :=
  Nat.lt_of_lt_of_le h (Nat.pow_le_pow_right Nat.zero_lt_two (by decide : 3 ≤ 36))

theorem exec_checkSize (h : size < capacity) (m : Machine) :
    (checkSize size).exec m = (.ok (), m) := by
  rw [checkSize, if_neg (Nat.not_le.mpr (Nat.lt_of_lt_of_le h capacity_le)),
    if_neg (Nat.not_le.mpr h)]
  rfl

theorem exec_checkSize_halt (h : ¬ size < capacity) (m : Machine) :
    ∃ halt, (checkSize size).exec m = (.error halt, m) := by
  rw [checkSize, if_pos (Nat.not_lt.mp h)]
  split <;> exact ⟨_, rfl⟩

/-! ## The list -/

/-- The value that a step gives is a list with a number among its elements. -/
def Lists (x : EvalM Ref) (m : Machine) (n : Int) : Prop :=
  ∃ r m' elements, x.exec m = (.ok r, m') ∧ m'.store.IsListOf r elements ∧
    ∃ e ∈ elements, m'.store.content e = .int n

theorem exec_mapM_newInt (ns : List Int) (m : Machine) :
    ∃ refs m', (ns.mapM newInt).exec m = (.ok refs, m') ∧
      refs.map m'.store.content = ns.map .int := by
  induction ns generalizing m with
  | nil => exact ⟨[], m, rfl, rfl⟩
  | cons n ns ih =>
    let m₁ := { m with store := (m.store.add ⟨.int, .int n⟩).2 }
    let r := (m.store.add ⟨.int, .int n⟩).1
    have hnew : (newInt n).exec m = (.ok r, m₁) := rfl
    have hr : m₁.store.content r = .int n :=
      Store.content_of_getElem? (o := ⟨.int, .int n⟩) (by simp [m₁, r, Store.add])
    obtain ⟨refs, m', hrest, hrefs⟩ := ih m₁
    have hext : m₁.store.Extends m'.store :=
      Moves.of_exec (.mapM fun n => moves_new .int (.int n)) hrest
    refine ⟨r :: refs, m', ?_, ?_⟩
    · rw [List.mapM_cons, exec_bind_of hnew, exec_bind_of hrest]
      rfl
    · rw [List.map_cons, List.map_cons, hrefs, hext.content_eq (by simp [hr]), hr]

section

variable {m : Machine} {expected : TypeRef} (note : Note) (a b : Nat)

theorem lists_evalRange_iff (hexpected : m.store.types.Fits (.list .int) expected) (n : Int) :
    Lists (evalRange note (some (.int a)) (some (.int b)) expected) m n ↔
      rangeSize a b < capacity ∧ Between a b n := by
  have hstart : (evalRange note (some (.int a)) (some (.int b)) expected).exec m =
      (checkSize (rangeSize a b) >>= fun _ =>
        (rangeElements a b).mapM newInt >>= newList (.list .int)).exec m := by
    rw [evalRange, if_neg (by omega), exec_bind_of (exec_conforms_of_fits hexpected), if_pos rfl]
  unfold Lists
  rw [hstart]
  by_cases hsize : rangeSize a b < capacity
  · obtain ⟨refs, m₁, hrefs, hcontents⟩ := exec_mapM_newInt (rangeElements a b) m
    obtain ⟨r, m', place, hnew, hobject, hplace⟩ := exec_newList (.list .int) refs m₁
    have hext : m₁.store.Extends m'.store := Moves.of_exec (moves_newList _ _) hnew
    rw [exec_bind_of (exec_checkSize hsize m), exec_bind_of hrefs, hnew,
      ← mem_rangeElements, and_iff_right hsize]
    have hint : ∀ e ∈ refs, m'.store.content e = m₁.store.content e := by
      intro e he
      obtain ⟨k, -, hk⟩ := List.mem_map.mp (hcontents ▸ List.mem_map_of_mem he)
      exact hext.content_eq (by simp [← hk])
    have hmem : n ∈ rangeElements a b ↔ ∃ e ∈ refs, m'.store.content e = .int n := by
      rw [← List.mem_map_of_injective (f := Content.int) fun _ _ h => Content.int.inj h,
        ← hcontents, ← List.map_congr_left hint, List.mem_map]
    rw [hmem]
    constructor
    · rintro ⟨r', m'', elements, heq, ⟨type', place', hobject', hplace'⟩, hn⟩
      cases heq
      cases hobject.symm.trans hobject'
      cases hplace.symm.trans hplace'
      exact hn
    · intro hn
      exact ⟨r, m', refs, rfl, ⟨_, place, hobject, hplace⟩, hn⟩
  · obtain ⟨halt, hhalt⟩ := exec_checkSize_halt hsize m
    rw [exec_bind_halt hhalt]
    constructor
    · rintro ⟨_, _, _, heq, -⟩
      cases heq
    · exact fun h => absurd h.1 hsize

theorem exec_matchPattern_range_iff (evaluate : Primitive.Evaluator) (body : Expr) {r : Ref}
    (hr : m.store.content r = .int n) :
    (matchPattern evaluate r body (.range note (some (.int a)) (some (.int b)))).exec m =
        (.ok true, m) ↔ rangeSize a b < capacity ∧ Between a b n := by
  by_cases hsize : rangeSize a b < capacity
  · rw [matchPattern, exec_bind_of (exec_checkSize hsize m), exec_bind_content, hr,
      ← mem_rangeElements, ← List.contains_iff_mem, and_iff_right hsize]
    dsimp only
    rw [exec_pure]
    simp
  · obtain ⟨halt, hhalt⟩ := exec_checkSize_halt hsize m
    rw [matchPattern, exec_bind_halt hhalt]
    constructor
    · intro h
      cases h
    · exact fun h => absurd h.1 hsize

end

/-! ## The query -/

theorem answer_in_range_iff {bindings : Query.Bindings} {e : Query.Expr}
    (he : Query.eval bindings e .unknown = .ok (some (.int n))) (type : Query.Ty) (a b : Nat) :
    Query.answer bindings (.prim type .in e (.range (.int a) (.int b))) = .holds (some true) ↔
      (a : Int) ≤ n ∧ n ≤ b := by
  have hrange : Query.eval bindings (.range (.int a) (.int b)) .unknown =
      .ok (some (.range a b)) := by
    rw [Query.eval, if_neg (by omega)]
  have heval : Query.eval bindings (.prim type .in e (.range (.int a) (.int b))) .bool =
      .ok (some (.bool ((a : Int) ≤ n && n ≤ b))) := by
    rw [Query.eval, he, hrange]
    rfl
  rw [Query.answer, heval]
  simp

/-- A pattern matches the numbers of the list. A query finds them in the range iff the range counts
up exactly where it is small enough to be a list, or the number is not between the bounds. -/
theorem range_agrees_iff {m : Machine} {expected : TypeRef} {r : Ref} {e : Query.Expr} {n : Int}
    (bindings : Query.Bindings) (evaluate : Primitive.Evaluator) (note : Note) (body : Expr)
    (type : Query.Ty) (a b : Nat) (hexpected : m.store.types.Fits (.list .int) expected)
    (hr : m.store.content r = .int n) (he : Query.eval bindings e .unknown = .ok (some (.int n))) :
    let listed := Lists (step evaluate (.range note (some (.int a)) (some (.int b))) expected) m n
    let matched := (matchPattern evaluate r body
      (.range note (some (.int a)) (some (.int b)))).exec m = (.ok true, m)
    let found := Query.answer bindings (.prim type .in e (.range (.int a) (.int b))) =
      .holds (some true)
    (matched ↔ listed) ∧
      ((found ↔ listed) ↔ (a ≤ b ↔ rangeSize a b < capacity) ∨ ¬ Between a b n) := by
  intro listed matched found
  have hlisted : listed ↔ _ := lists_evalRange_iff note a b hexpected n
  have hmatched : matched ↔ _ := exec_matchPattern_range_iff note a b evaluate body hr
  have hfound : found ↔ _ := answer_in_range_iff he type a b
  refine ⟨hmatched.trans hlisted.symm, ?_⟩
  rw [hlisted, hfound]
  -- the query holds iff the bounds go up and the number is between them
  have hup : (a : Int) ≤ n ∧ n ≤ b ↔ a ≤ b ∧ Between a b n := by
    unfold Between
    omega
  rw [hup]
  by_cases hbetween : Between a b n <;> simp [hbetween]

/-- A machine that knows the number three. -/
def threeOnly : Machine :=
  { store := (({} : Store).add ⟨.int, .int 3⟩).2 }

theorem threeOnly_fits : threeOnly.store.types.Fits (.list .int) .any :=
  ⟨.list .int, rfl, fun h => by cases h⟩

/-- Three is in the range from one to five, wherever that is written. -/
theorem range_agrees_up :
    Lists (step (eval 0) (.range {} (some (.int 1)) (some (.int 5))) .any) threeOnly 3 ∧
      (matchPattern (eval 0) ⟨0⟩ (.unknown {})
        (.range {} (some (.int 1)) (some (.int 5)))).exec threeOnly = (.ok true, threeOnly) ∧
      Query.answer [] (.prim .unknown .in (.literal (.int 3)) (.range (.int 1) (.int 5))) =
        .holds (some true) := by
  obtain ⟨hmatched, hfound⟩ := range_agrees_iff (m := threeOnly) (r := ⟨0⟩)
    (e := .literal (.int 3)) [] (eval 0) {} (.unknown {}) .unknown 1 5 threeOnly_fits rfl rfl
  have hsize : rangeSize 1 5 < capacity := small_lt_capacity (by decide)
  have hlisted := (hfound.mpr (.inl (iff_of_true (by decide) hsize))).mp rfl
  exact ⟨hlisted, hmatched.mpr hlisted, rfl⟩

/-- Three is in the list from five down to one and matches the pattern, and no query finds it. -/
theorem range_down_differs :
    Lists (step (eval 0) (.range {} (some (.int 5)) (some (.int 1))) .any) threeOnly 3 ∧
      (matchPattern (eval 0) ⟨0⟩ (.unknown {})
        (.range {} (some (.int 5)) (some (.int 1)))).exec threeOnly = (.ok true, threeOnly) ∧
      Query.answer [] (.prim .unknown .in (.literal (.int 3)) (.range (.int 5) (.int 1))) =
        .holds (some false) := by
  have hsize : rangeSize 5 1 < capacity := small_lt_capacity (by decide)
  have hbetween : Between 5 1 3 := by unfold Between; decide
  refine ⟨(lists_evalRange_iff {} 5 1 threeOnly_fits 3).mpr ⟨hsize, hbetween⟩, ?_, rfl⟩
  exact (exec_matchPattern_range_iff {} 5 1 (eval 0) (.unknown {}) rfl).mpr ⟨hsize, hbetween⟩

end TableScript
