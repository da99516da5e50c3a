import TableScript.Proofs.BlockScope
import TableScript.Proofs.Extension

/-!
# Loops, turn by turn

A loop takes the elements of a sequence in turn. An element is looked up when its turn comes, so the
turns that are taken (`Turns`) are those of the elements that are there then.

* `Turns.elements_eq_iff`: the turns are those of given elements iff each of these stands at its
  index when its turn comes and there is none behind them (`Undisturbed`);
* `exec_visit`: the elements are then taken like those of a list;
* `loop_once_each`: a loop runs its body once for each element and goes on with what follows it iff
  the elements are undisturbed and, should there be none, what follows it does no more than give
  none. A loop over nothing gives none, whatever follows it.
-/

namespace TableScript

namespace Store

/-- Is it a text, a list, a tuple or a table? -/
def isSequence (s : Store) (r : Ref) : Bool :=
  match s.object r with
  | ⟨.string, .string _⟩ => true
  | ⟨.list _, .list _⟩ => true
  | ⟨.tuple _, .tuple _⟩ => true
  | ⟨.table _, .table _ _⟩ => true
  | _ => false

/-- The elements of a text, a list, a tuple or a table lie at a place of a store. Those of a text
are put there, in a store that has them besides. -/
inductive Lays (s : Store) (r : Ref) (place : Nat) : Store → Prop
  | text {t : String} {s' : Store} (h : s.object r = ⟨.string, .string t⟩)
    (hextends : s.Extends s') (hchars : (s'.sequence place).map s'.object =
      t.toList.map fun c => ⟨.char, .char (String.singleton c)⟩) : Lays s r place s'
  | list {t : TypeRef} (h : s.object r = ⟨.list t, .list place⟩) : Lays s r place s
  | tuple {c : Nat} (h : s.object r = ⟨.tuple c, .tuple place⟩) : Lays s r place s
  | table {columns : Nat} {schema : Ref}
    (h : s.object r = ⟨.table columns, .table schema place⟩) :
    Lays s r place s

theorem Lays.of_list {s s' : Store} {r : Ref} {t : TypeRef} {place i : Nat}
    (h : s.Lays r place s') (hr : s.object r = ⟨.list t, .list i⟩) : place = i ∧ s' = s := by
  cases h with
  | list h =>
    cases hr.symm.trans h
    exact ⟨rfl, rfl⟩
  | text h | tuple h | table h => cases hr.symm.trans h

theorem element?_eq (s : Store) (place index : Nat) :
    s.element? place index = (s.sequence place)[index]? := by
  rw [element?, sequence, Array.getElem?_toList]

end Store

namespace EvalM

open Primitive

variable {α : Type}

/-! ## The elements of a collection -/

theorem exists_newChars (cs : List Char) (s : Store) :
    ∃ refs s', s.Extends s' ∧
      refs.map s'.object = cs.map (fun c => ⟨.char, .char (String.singleton c)⟩) ∧
      ∀ m : Machine, m.store = s →
        (cs.mapM fun c => newChar (String.singleton c)).exec m =
          (.ok refs, { m with store := s' }) := by
  induction cs generalizing s with
  | nil => exact ⟨[], s, .refl s, rfl, by rintro m rfl; rfl⟩
  | cons c cs ih =>
    let o : Object := ⟨.char, .char (String.singleton c)⟩
    obtain ⟨refs, s', hextends, hobjects, hexec⟩ := ih (s.add o).2
    have hnew := s.object_add o
    -- the new character is there afterwards, since a character is not none
    have hkept : s'.object (s.add o).1 = o :=
      (hextends.object_eq (by rw [Store.content, hnew]; simp [o])).trans hnew
    refine ⟨(s.add o).1 :: refs, s', (Store.extends_add s o).trans hextends, ?_, ?_⟩
    · rw [List.map_cons, hkept, hobjects]
      rfl
    · rintro m rfl
      have hmake : (newChar (String.singleton c)).exec m =
          (.ok (m.store.add o).1, { m with store := (m.store.add o).2 }) := rfl
      rw [List.mapM_cons, exec_bind_of hmake, exec_bind_of (hexec _ rfl)]
      rfl

theorem exists_elements {s : Store} {r : Ref} (h : s.isSequence r = true) :
    ∃ place s', s.Lays r place s' ∧
      ∀ (name : String) (position : Option Position) (m : Machine),
      m.store = s → (elements name r position).exec m = (.ok place, { m with store := s' }) := by
  unfold Store.isSequence at h
  split at h
  · next t hr =>
    obtain ⟨refs, s', hextends, hobjects, hexec⟩ := exists_newChars t.toList s
    refine ⟨(s'.addSequence refs).1, (s'.addSequence refs).2,
      .text hr (hextends.trans (Store.extends_addSequence s' refs)) ?_, ?_⟩
    · rw [Store.sequence_addSequence]
      exact hobjects
    · rintro name position m rfl
      rw [elements, exec_bind_object, hr]
      exact (exec_bind_of (hexec m rfl)).trans (exec_make _ _)
  -- a list, a tuple and a table have their elements already
  case h_2 hr | h_3 hr | h_4 hr =>
    refine ⟨_, s, by first | exact .list hr | exact .tuple hr | exact .table hr, ?_⟩
    rintro name position m rfl
    rw [elements, exec_bind_object, hr, exec_pure]
  · cases h

/-! ## Turns -/

/-- A turn: the machine in which it comes, and the element. -/
structure Turn where
  before : Machine
  element : Ref

/-- The turns that are taken for the elements of the sequence at a place, from an index on. -/
inductive Turns (f : Ref → EvalM α) (place : Nat) : Nat → Machine → List Turn →
    Machine → Prop
  | done {index : Nat} {m : Machine} (hnone : m.store.element? place index = none) :
    Turns f place index m [] m
  | turn {index : Nat} {x : Ref} {a : α} {turns : List Turn} {m m₁ m' : Machine}
    (hsome : m.store.element? place index = some x) (hf : (f x).exec m = (.ok a, m₁))
    (hrest : Turns f place (index + 1) m₁ turns m') :
    Turns f place index m (⟨m, x⟩ :: turns) m'

/-- As long as turns come for the elements `xs`, each of them stands at its index of the sequence at
a place when its turn comes, and there is none behind them in the end. -/
def Undisturbed (f : Ref → EvalM α) (place : Nat) : Nat → List Ref → Machine → Prop
  | index, [], m => m.store.element? place index = none
  | index, x :: xs, m => m.store.element? place index = some x ∧
      ∀ a m₁, (f x).exec m = (.ok a, m₁) → Undisturbed f place (index + 1) xs m₁

variable {f : Ref → EvalM α} {place index : Nat} {m m' : Machine}

/-- The elements are visited in order iff no turn disturbs the rest. -/
theorem Turns.elements_eq_iff {turns : List Turn} (h : Turns f place index m turns m')
    (xs : List Ref) :
    turns.map (·.element) = xs ↔ Undisturbed f place index xs m := by
  induction h generalizing xs with
  | done hnone => cases xs <;> simp [Undisturbed, hnone]
  | @turn index x a turns m m₁ m' hsome hf hrest ih =>
    cases xs with
    | nil => simp [Undisturbed, hsome]
    | cons y ys =>
      -- what the turn leads to is determined, so the condition on the rest speaks about `m₁`
      have hnext : (∀ b m₂, (f x).exec m = (.ok b, m₂) →
          Undisturbed f place (index + 1) ys m₂) ↔ Undisturbed f place (index + 1) ys m₁ := by
        refine ⟨fun h => h a m₁ hf, fun h b m₂ hb => ?_⟩
        cases hf.symm.trans hb
        exact h
      rw [List.map_cons, List.cons.injEq, ih, Undisturbed, hsome, Option.some.injEq]
      constructor
      · rintro ⟨rfl, hys⟩
        exact ⟨rfl, hnext.mpr hys⟩
      · rintro ⟨rfl, hys⟩
        exact ⟨rfl, hnext.mp hys⟩

theorem Turns.invariant {P : Machine → Prop}
    (hP : ∀ x m a m₁, P m → (f x).exec m = (.ok a, m₁) → P m₁) {turns : List Turn}
    (h : Turns f place index m turns m') (hm : P m) :
    (∀ t ∈ turns, P t.before ∧ ∃ a m₁, (f t.element).exec t.before = (.ok a, m₁)) ∧
    P m' := by
  induction h with
  | done => exact ⟨nofun, hm⟩
  | turn hsome hf hrest ih =>
    obtain ⟨hturns, hend⟩ := ih (hP _ _ _ _ hm hf)
    exact ⟨List.forall_mem_cons.mpr ⟨⟨hm, _, _, hf⟩, hturns⟩, hend⟩

theorem turns_of_visitFrom {room : Nat} {done result : Array α}
    (h : (visitFrom place f room index done).exec m = (.ok result, m')) :
    ∃ turns, Turns f place index m turns m' := by
  induction room generalizing index done m with
  | zero => cases h
  | succ room ih =>
    obtain ⟨_, _, helement, h⟩ := exec_bind_ok h
    cases helement
    cases hx : m.store.element? place index with
    | none =>
      rw [hx] at h
      cases h
      exact ⟨[], .done hx⟩
    | some x =>
      rw [hx] at h
      obtain ⟨a, m₁, hf, h⟩ := exec_bind_ok h
      obtain ⟨turns, hturns⟩ := ih h
      exact ⟨⟨m, x⟩ :: turns, .turn hx hf hturns⟩

theorem capacity_pos : 0 < capacity := Nat.two_pow_pos 36

theorem exists_room (f : Ref → EvalM α) (place : Nat) (m : Machine) :
    ∃ room, (m.store.sequence place).length < room ∧
      (visit place f).exec m = (Array.toList <$> visitFrom place f room 0 #[]).exec m :=
  ⟨_, Nat.lt_add_of_pos_right capacity_pos, exec_bind_sequence⟩

theorem turns_of_visit {results : List α} (h : (visit place f).exec m = (.ok results, m')) :
    ∃ turns, Turns f place 0 m turns m' := by
  obtain ⟨room, -, hvisit⟩ := exists_room f place m
  obtain ⟨_, hfrom, -⟩ := exec_map_ok (hvisit.symm.trans h)
  exact turns_of_visitFrom hfrom

theorem exec_visitFrom {xs : List Ref} {room : Nat} (hroom : xs.length < room)
    (h : Undisturbed f place index xs m) (done : Array α) :
    (visitFrom place f room index done).exec m =
      (do return done ++ (← xs.mapM f).toArray : EvalM (Array α)).exec m := by
  obtain ⟨room, rfl⟩ : ∃ n, room = n + 1 :=
    Nat.exists_eq_add_one.mpr (Nat.zero_lt_of_lt hroom)
  have helement : (element? place index).exec m = (.ok (m.store.element? place index), m) := rfl
  induction xs generalizing room index done m with
  | nil =>
    rw [Undisturbed] at h
    rw [visitFrom, exec_bind_of helement, h]
    simp
  | cons x xs ih =>
    obtain ⟨hx, hrest⟩ := h
    rw [visitFrom, exec_bind_of helement, hx, List.mapM_cons, bind_assoc, exec_bind, exec_bind]
    rcases hf : (f x).exec m with ⟨halt | a, m₁⟩
    · rfl
    · have hlater : ∀ n, xs.length < n →
          (visitFrom place f n (index + 1) (done.push a)).exec m₁ =
          (do return done.push a ++ (← xs.mapM f).toArray : EvalM (Array α)).exec m₁ := by
        intro n hn
        obtain ⟨n, rfl⟩ : ∃ k, n = k + 1 := Nat.exists_eq_add_one.mpr (Nat.zero_lt_of_lt hn)
        exact ih (hrest a m₁ hf) _ _ hn rfl
      simp only [hlater room (Nat.lt_of_succ_lt_succ hroom), bind_assoc, pure_bind]
      simp

/-- An undisturbed visit is a map over the elements. -/
theorem exec_visit (h : Undisturbed f place 0 (m.store.sequence place) m) :
    (visit place f).exec m = ((m.store.sequence place).mapM f).exec m := by
  obtain ⟨room, hroom, hvisit⟩ := exists_room f place m
  rw [hvisit, ← bind_pure_comp, exec_bind, exec_visitFrom hroom h, exec_bind]
  rcases ((m.store.sequence place).mapM f).exec m with ⟨halt | as, m'⟩
  · rfl
  · simp [exec_pure]

/-! ## Loops -/

/-- The machine in which a loop runs its body for an element: everything that has a name is copied,
and the name of the loop stands for the element. -/
def forElement (name : String) (x : Ref) (m : Machine) : Machine :=
  { m with
    store := (m.store.copyScope m.scope).2
    scope := (m.store.copyScope m.scope).1.add name x }

theorem exec_runBody (eval : Evaluator) (name : String) (body : Expr) (x : Ref) (m : Machine) :
    (runBody eval name body x).exec m =
      match (eval body .any).exec (forElement name x m) with
      | (.ok _, m') => (.ok (), { m' with scope := m.scope })
      | (.error halt, m') => (.error halt, { m' with scope := m.scope }) := by
  rw [runBody, exec_bind_get, exec_bind_of (exec_make _ m), exec_bind]
  have hrun : ∀ y : EvalM Ref, (inScope ((m.store.copyScope m.scope).1.add name x) y).exec
      { m with store := (m.store.copyScope m.scope).2 } =
        ((y.exec (forElement name x m)).1,
          { (y.exec (forElement name x m)).2 with scope := m.scope }) := fun _ => rfl
  rw [hrun]
  rcases (eval body .any).exec (forElement name x m) with ⟨halt | r, m'⟩ <;> rfl

theorem runBody_ok {eval : Evaluator} {name : String} {body : Expr} {x : Ref} {a : Unit}
    (h : (runBody eval name body x).exec m = (.ok a, m')) :
    m'.scope = m.scope ∧
      ∃ w m₁, (eval body .any).exec (forElement name x m) = (.ok w, m₁) := by
  rw [exec_runBody] at h
  split at h
  · next w m₁ hw =>
    cases h
    exact ⟨rfl, w, m₁, hw⟩
  · cases h

/-- What follows a loop. -/
def goOn (eval : Evaluator) (rest : Option Expr) (expected : TypeRef) : EvalM Ref :=
  match rest with
  | some e => eval e expected
  | none => newNone

/-- Ends an evaluation. -/
def ending (x : EvalM Ref) : EvalM Ref := do
  let r ← x
  ascend
  return r

theorem exec_ending_congr {x y : EvalM α} (h : x.exec m = y.exec m) (z : EvalM Ref) :
    (ending (do let _ ← x; z)).exec m = (ending (do let _ ← y; z)).exec m := by
  rw [ending, ending, bind_assoc, bind_assoc, exec_bind, exec_bind, h]

theorem exec_ending_ok {x : EvalM α} {z : EvalM Ref} {v : Ref}
    (h : (ending (do let _ ← x; z)).exec m = (.ok v, m')) :
    ∃ a m₁, x.exec m = (.ok a, m₁) ∧ (ending z).exec m₁ = (.ok v, m') := by
  rw [ending, bind_assoc] at h
  exact exec_bind_ok h

variable {levels : Nat} {note : Note} {name : Option String} {iterable body : Expr}
  {rest : Option Expr} {expected : TypeRef} {r : Ref} {m m₁ : Machine}

theorem evalLoop_eq (eval : Evaluator) :
    evalLoop eval note name iterable body rest expected = (do
      let r ← eval iterable .unknown
      let place ← elements "for" r note.position
      let xs ← sequence place
      if xs = [] then newNone else do
        let _ ← visit place (runBody eval (name.getD "") body)
        goOn eval rest expected) := by
  cases rest <;> simp only [evalLoop, goOn, List.isEmpty_iff]

theorem exec_loop (hm : m.depth < depthLimit)
    (hiterable : (eval levels iterable .unknown).exec (deeper m) = (.ok r, m₁)) {s : Store}
    (helements : (elements "for" r note.position).exec m₁ =
      (.ok place, { m₁ with store := s })) :
    (eval (levels + 1) (.loop note name iterable body rest) expected).exec m =
      (ending (if s.sequence place = [] then newNone else do
        let _ ← visit place (runBody (eval levels) (name.getD "") body)
        goOn (eval levels) rest expected)).exec { m₁ with store := s } := by
  rw [eval, exec_bind_of (exec_descend hm _), ending, exec_bind, exec_bind, step, evalLoop_eq,
    exec_bind_of hiterable, exec_bind_of helements, exec_bind_sequence]

/-- A loop over a text, a list, a tuple or a table whose elements are `xs`. Unless there are none,
and as long as nothing disturbs them, it runs its body for each of them in order and goes on with
what follows it, whether this gives a value or halts. If it gives a value, then its turns have each
run the body in a copy of the scope around the loop, with the name of the loop standing for the
element; they were those of `xs`, and what follows the loop was evaluated after them in the scope
around it, iff nothing has disturbed the elements and, should there be none, what follows the loop
comes to the none that it gives. -/
theorem loop_once_each (levels : Nat) (note : Note) (name : Option String) (iterable body : Expr)
    (rest : Option Expr) (expected : TypeRef) {r : Ref} {m m₁ : Machine}
    (hm : m.depth < depthLimit)
    (hiterable : (eval levels iterable .unknown).exec (deeper m) = (.ok r, m₁))
    (hr : m₁.store.isSequence r = true) :
    ∃ place s, m₁.store.Lays r place s ∧
      let xs := s.sequence place
      let before : Machine := { m₁ with store := s }
      let turn := runBody (eval levels) (name.getD "") body
      let result := (eval (levels + 1) (.loop note name iterable body rest) expected).exec m
      (xs ≠ [] → Undisturbed turn place 0 xs before → result =
        (ending (do let _ ← xs.mapM turn; goOn (eval levels) rest expected)).exec before) ∧
      (xs = [] → result = (ending newNone).exec before) ∧
      ∀ v m', result = (.ok v, m') → ∃ turns after,
        Turns turn place 0 before turns after ∧ after.scope = m₁.scope ∧
        (∀ t ∈ turns, t.before.scope = m₁.scope ∧ ∃ w m₂,
          (eval levels body .any).exec (forElement (name.getD "") t.element t.before) =
            (.ok w, m₂)) ∧
        (turns.map (·.element) = xs ∧
            (ending (goOn (eval levels) rest expected)).exec after = (.ok v, m') ↔
          Undisturbed turn place 0 xs before ∧ (xs = [] →
            (ending (goOn (eval levels) rest expected)).exec before =
              (ending newNone).exec before)) := by
  obtain ⟨place, s, hlays, hexec⟩ := exists_elements hr
  refine ⟨place, s, hlays, ?_⟩
  intro xs before turn result
  have hloop : result = _ := exec_loop hm hiterable (hexec "for" note.position m₁ rfl)
  refine ⟨fun hne hundisturbed => ?_, fun hnil => ?_, fun v m' hv => ?_⟩
  · rw [hloop, if_neg hne]
    exact exec_ending_congr (exec_visit hundisturbed) _
  · rw [hloop, if_pos hnil]
  · by_cases hnil : xs = []
    · -- there is no turn, and what is given is the none of the loop
      have hnone : before.store.element? place 0 = none := by
        rw [Store.element?_eq]
        exact List.getElem?_eq_none (Nat.le_of_eq (congrArg List.length hnil))
      have hgiven : (ending newNone).exec before = (.ok v, m') := by
        rwa [hloop, if_pos hnil] at hv
      refine ⟨[], before, .done hnone, rfl, nofun,
        fun h => ⟨?_, fun _ => h.2.trans hgiven.symm⟩,
          fun h => ⟨hnil.symm, (h.2 hnil).trans hgiven⟩⟩
      rw [hnil]
      exact hnone
    · rw [hloop, if_neg hnil] at hv
      obtain ⟨units, after, hvisit, hrest⟩ := exec_ending_ok hv
      obtain ⟨turns, hturns⟩ := turns_of_visit hvisit
      obtain ⟨hall, hend⟩ := hturns.invariant
        (fun _ _ _ _ hscope hturn => (runBody_ok hturn).1.trans hscope) (rfl : _ = m₁.scope)
      refine ⟨turns, after, hturns, hend, fun t ht => ?_, ?_⟩
      · obtain ⟨hbefore, _, _, hturn⟩ := hall t ht
        exact ⟨hbefore, (runBody_ok hturn).2⟩
      · rw [hturns.elements_eq_iff]
        exact ⟨fun h => ⟨h.1, fun h' => absurd h' hnil⟩, fun h => ⟨h.1, hrest⟩⟩

/-- A list of two numbers. -/
def twoNumbers : Expr :=
  .list { type := .list .int }
    [.literal { type := .int } (.int 1), .literal { type := .int } (.int 2)]

/-- The machine in which the list has been evaluated. -/
def numbered : Machine :=
  ((eval 4 twoNumbers .unknown).exec (deeper {})).2

/-- What the loop does with a number. -/
def numberTurn : Ref → EvalM Unit :=
  runBody (eval 4) "x" (.ref {} (.ident "x"))

theorem undisturbed_numbered : Undisturbed numberTurn 0 0 [⟨0⟩, ⟨1⟩] numbered := by
  refine ⟨by decide +kernel, fun a m₁ h => ?_⟩
  obtain rfl : _ = m₁ := congrArg Prod.snd h
  refine ⟨by decide +kernel, fun a m₂ h => ?_⟩
  obtain rfl : _ = m₂ := congrArg Prod.snd h
  show Store.element? _ _ _ = none
  decide +kernel

/-- The body is run for both numbers, and the loop goes on. -/
theorem loop_once_each_twoNumbers :
    (eval (4 + 1) (.loop {} (some "x") twoNumbers (.ref {} (.ident "x")) (some twoNumbers))
        .any).exec {} =
      (ending (do
        let _ ← [⟨0⟩, ⟨1⟩].mapM numberTurn
        eval 4 twoNumbers .any)).exec numbered := by
  have hiterable : (eval 4 twoNumbers .unknown).exec (deeper {}) = (.ok ⟨2⟩, numbered) := rfl
  obtain ⟨place, s, hlays, hinOrder, -⟩ := loop_once_each 4 {} (some "x") twoNumbers
    (.ref {} (.ident "x")) (some twoNumbers) .any (by decide) hiterable (by decide +kernel)
  obtain ⟨rfl, rfl⟩ := hlays.of_list (i := 0) rfl
  exact hinOrder (by decide +kernel) undisturbed_numbered

/-- What follows a loop over nothing is left out. -/
theorem empty_loop_skips_rest :
    (executeDirect "for x in \"\" \x7b x \x7d; 5" .initial).1.toOption = some {} := by
  decide +kernel

end EvalM

end TableScript
