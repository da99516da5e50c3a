import Mathlib.Logic.Function.Basic
import TableScript.Proofs.ServiceSteps

/-!
# Changes of a session that overlap

A change of a session reads the session, and later writes back what it has made of it. Nothing keeps
another change from coming between these two steps. `interleaved_serial_iff` tells when two changes
that take their steps in any order leave what they leave one after the other:

* If one of them has written before the other reads (the schedule does not overlap), they do.
* Otherwise both start from the same session, and what is written last stays. That is what one after
  the other leaves if one of the changes cannot be made, or if both take the same item out of a list
  that has it once. In all other cases one change is lost (`Collide`), also if the two are about
  different lists of the session.
-/

namespace TableScript

namespace Session

variable {s after : Session} {c : Change}

theorem get_set (s : Session) (items : List String) (field other : Field) :
    (s.set items field).get other = if other = field then items else s.get other := by
  cases field <;> cases other <;> rfl

/-- The number of items in both lists. -/
def size (s : Session) : Nat :=
  s.history.length + s.files.length

/-- What a change does to the number of items. -/
def Change.growth : Change → Int
  | .add _ _ => 1
  | .remove _ _ => -1

theorem size_set (s : Session) (items : List String) (field : Field) :
    ((s.set items field).size : Int) = s.size + items.length - (s.get field).length := by
  cases field <;> simp only [set, get, size] <;> omega

theorem size_apply (h : s.apply c = .ok after) : (after.size : Int) = s.size + c.growth := by
  cases c with
  | add field item =>
    cases h
    rw [size_set, List.length_append, List.length_singleton, Change.growth]
    omega
  | remove field item =>
    rw [apply] at h
    split at h
    · next hmem =>
      cases h
      rw [size_set, List.length_erase_of_mem hmem, Change.growth]
      have hpos := List.length_pos_of_mem hmem
      omega
    · cases h

theorem apply_error_iff :
    (∃ f, s.apply c = .error f) ↔ ∃ field item, c = .remove field item ∧
    item ∉ s.get field := by
  cases c with
  | add field item => simp [apply]
  | remove field item =>
    rw [apply]
    split <;> simp_all

variable {field : Field} {item : String}

theorem get_of_apply_remove (h : s.apply (.remove field item) = .ok after) :
    item ∈ s.get field ∧ after.get field = (s.get field).erase item := by
  rw [apply] at h
  split at h
  · next hmem =>
    cases h
    exact ⟨hmem, by rw [get_set, if_pos rfl]⟩
  · cases h

theorem mem_get_of_apply (h : s.apply c = .ok after) (hmem : item ∈ s.get field)
    (hne : c ≠ .remove field item) : item ∈ after.get field := by
  cases c with
  | add other new =>
    cases h
    rw [get_set]
    split
    · next hfield => exact List.mem_append_left _ (hfield ▸ hmem)
    · exact hmem
  | remove other old =>
    rw [apply] at h
    split at h
    · cases h
      rw [get_set]
      split
      · next hfield =>
        subst hfield
        have hitem : item ≠ old := fun hitem => hne (hitem ▸ rfl)
        exact (List.mem_erase_of_ne hitem).mpr hmem
      · exact hmem
    · cases h

theorem apply_error_after_iff {a b : Change} {sa sb : Session} (ha : s.apply a = .ok sa)
    (hb : s.apply b = .ok sb) :
    (∃ f, sa.apply b = .error f) ↔
      ∃ field item, a = .remove field item ∧ b = .remove field item ∧
        (s.get field).count item = 1 := by
  rw [apply_error_iff]
  constructor
  · rintro ⟨field, item, rfl, hgone⟩
    obtain ⟨hmem, -⟩ := get_of_apply_remove hb
    -- the item was there, so it is the first change that has taken it away
    obtain rfl : a = .remove field item := by
      by_contra hne
      exact hgone (mem_get_of_apply ha hmem hne)
    obtain ⟨-, hget⟩ := get_of_apply_remove ha
    rw [hget, ← List.count_eq_zero, List.count_erase_self] at hgone
    have hpos := List.count_pos_iff.mpr hmem
    exact ⟨field, item, rfl, rfl, by omega⟩
  · rintro ⟨field, item, rfl, rfl, hcount⟩
    obtain ⟨-, hget⟩ := get_of_apply_remove ha
    refine ⟨field, item, rfl, ?_⟩
    rw [hget, ← List.count_eq_zero, List.count_erase_self, hcount]

end Session

namespace Sessions

open Session

variable {σ : Type} [SessionStore σ] {ss : Sessions σ} {key : String}

theorem write_write (ss : Sessions σ) (key : String) (s t : Session) :
    (ss.write key s).write key t = ss.write key t := by
  rw [write, write, write, SessionStore.put_put]

theorem write_inj {s t : Session} : ss.write key s = ss.write key t ↔ s = t := by
  constructor
  · intro h
    have hread : (ss.write key s).read key = (ss.write key t).read key := by rw [h]
    rw [read_write, read_write] at hread
    exact Except.ok.inj hread
  · exact fun h => h ▸ rfl

/-- The sessions after a change that is made if it can be. -/
def attempt (ss : Sessions σ) (key : String) (c : Change) : Sessions σ :=
  match ss.change key c with
  | .ok after => after
  | .error _ => ss

/-- The sessions after a change of a session that was read before is written, if it can be made. -/
def put (ss : Sessions σ) (key : String) (session : Session) (c : Change) : Sessions σ :=
  match session.apply c with
  | .ok after => ss.write key after
  | .error _ => ss

variable {session : Session} {f : Fault} {x : Bool} {schedule : Schedule}

theorem attempt_of_read (h : ss.read key = .ok session) (c : Change) :
    ss.attempt key c = ss.put key session c := by
  rw [attempt, put, change, h]
  show (match (session.apply c >>= fun after => pure (ss.write key after)) with
    | .ok after => after | .error _ => ss) = _
  cases session.apply c <;> rfl

theorem attempt_of_error (h : ss.read key = .error f) (c : Change) : ss.attempt key c = ss := by
  rw [attempt, change, h]
  rfl

/-! ## Calls that take turns -/

/-- How far a change of a session has come. -/
inductive Progress where
  | waiting
  | holding (session : Session)
  | ended (outcome : Except Fault Unit)

/-- The next step of a change: the session is read, or it is changed and written. -/
def Progress.step (key : String) (c : Change) : Progress → Sessions σ → Progress × Sessions σ
  | .waiting, ss =>
    match ss.read key with
    | .ok session => (.holding session, ss)
    | .error f => (.ended (.error f), ss)
  | .holding session, ss =>
    match session.apply c with
    | .ok after => (.ended (.ok ()), ss.write key after)
    | .error f => (.ended (.error f), ss)
  | .ended outcome, ss => (.ended outcome, ss)

/-- Two changes under way, told apart by a truth value, and the sessions. -/
structure Calls (σ : Type) [SessionStore σ] where
  progress : Bool → Progress
  sessions : Sessions σ

/-- One of the calls takes its next step. -/
def Calls.turn (key : String) (c : Bool → Change) (calls : Calls σ) (x : Bool) : Calls σ :=
  let next := (calls.progress x).step key (c x) calls.sessions
  { progress := Function.update calls.progress x next.1, sessions := next.2 }

/-- An order in which two calls take their turns, enough for both of them to come to an end. -/
structure Schedule where
  turns : List Bool
  complete (x : Bool) : 2 ≤ turns.count x

/-- The sessions after two changes that take their turns. -/
def interleaved (ss : Sessions σ) (key : String) (c : Bool → Change) (schedule : Schedule) :
    Sessions σ :=
  (schedule.turns.foldl (Calls.turn key c) { progress := fun _ => .waiting, sessions :=
    ss }).sessions

/-- Both calls read before either of them writes. -/
def Schedule.Overlaps (schedule : Schedule) : Prop :=
  ∃ x rest, schedule.turns = x :: (!x) :: rest

/-- Both changes can be made, and it is not the case that both take the same item away, which is in
the list once. -/
def Collide (ss : Sessions σ) (key : String) (c : Bool → Change) : Prop :=
  ∃ session, ss.read key = .ok session ∧ (∀ x, ∃ after, session.apply (c x) = .ok after) ∧
    ∀ field item, (∀ x, c x = .remove field item) → (session.get field).count item ≠ 1

/-! ## One call after the other -/

namespace Progress

/-- The turns that a call still needs. -/
def needs : Progress → Nat
  | .waiting => 2
  | .holding _ => 1
  | .ended _ => 0

/-- The sessions after a call has come to an end without another one between its steps. -/
def finish (key : String) (c : Change) : Progress → Sessions σ → Sessions σ
  | .waiting, ss => ss.attempt key c
  | .holding session, ss => ss.put key session c
  | .ended _, ss => ss

theorem finish_step (c : Change) (p : Progress) (ss : Sessions σ) :
    (p.step key c ss).1.needs ≤ p.needs - 1 ∧
      (p.step key c ss).1.finish key c (p.step key c ss).2 = p.finish key c ss := by
  cases p with
  | waiting =>
    rw [step, finish]
    cases h : ss.read key with
    | error f => exact ⟨Nat.zero_le _, (attempt_of_error h c).symm⟩
    | ok session => exact ⟨le_rfl, (attempt_of_read h c).symm⟩
  | holding session =>
    rw [step, finish, put]
    cases session.apply c <;> exact ⟨le_rfl, rfl⟩
  | ended outcome => exact ⟨le_rfl, rfl⟩

theorem finish_of_needs {p : Progress} (h : p.needs ≤ 0) {c : Change} :
    p.finish key c ss = ss := by
  cases p with
  | waiting => cases h
  | holding => cases h
  | ended => rfl

end Progress

variable {c : Bool → Change} {calls : Calls σ}

theorem Calls.turn_other (calls : Calls σ) (key : String) (c : Bool → Change) (x : Bool) :
    (calls.turn key c x).progress (!x) = calls.progress (!x) :=
  Function.update_of_ne (Bool.not_ne_self x) _ _

theorem Calls.finish_turn (calls : Calls σ) (key : String) (c : Bool → Change) (x : Bool) :
    ((calls.turn key c x).progress x).needs ≤ (calls.progress x).needs - 1 ∧
      ((calls.turn key c x).progress x).finish key (c x) (calls.turn key c x).sessions =
        (calls.progress x).finish key (c x) calls.sessions := by
  have hself : (calls.turn key c x).progress x =
      ((calls.progress x).step key (c x) calls.sessions).1 := Function.update_self _ _ _
  rw [hself]
  exact Progress.finish_step (c x) (calls.progress x) calls.sessions

theorem Calls.sessions_foldl (hended : (calls.progress x).needs ≤ 0) {turns : List Bool}
    (hneeds : (calls.progress (!x)).needs ≤ turns.count (!x)) :
    (turns.foldl (Calls.turn key c) calls).sessions =
      (calls.progress (!x)).finish key (c !x) calls.sessions := by
  induction turns generalizing calls with
  | nil =>
    rw [List.count_nil] at hneeds
    rw [List.foldl_nil, Progress.finish_of_needs hneeds]
  | cons y turns ih =>
    rw [List.foldl_cons]
    obtain ⟨hfewer, hfinish⟩ := calls.finish_turn key c y
    have hother := calls.turn_other key c y
    by_cases hy : y = x
    · -- a call at its end lets its turn pass
      subst hy
      rw [Progress.finish_of_needs hended, Progress.finish_of_needs (by omega)] at hfinish
      rw [ih (by omega), hother, hfinish]
      rwa [hother, ← List.count_cons_of_ne (Bool.not_ne_self y).symm]
    · obtain rfl : y = !x := Bool.eq_not_of_ne hy
      rw [Bool.not_not] at hother
      rw [List.count_cons_self] at hneeds
      rw [ih (by rwa [hother]) (by omega), hfinish]

/-! ## Orders of the turns -/

theorem Schedule.exists_cons (schedule : Schedule) :
    ∃ x y rest, schedule.turns = x :: y :: rest := by
  have hlength := (schedule.complete true).trans List.count_le_length
  rcases hturns : schedule.turns with _ | ⟨x, _ | ⟨y, rest⟩⟩
  · simp [hturns] at hlength
  · simp [hturns] at hlength
  · exact ⟨x, y, rest, rfl⟩

theorem interleaved_of_first {rest : List Bool} (h : schedule.turns = x :: x :: rest) :
    ss.interleaved key c schedule = (ss.attempt key (c x)).attempt key (c !x) := by
  have hcount := schedule.complete (!x)
  rw [h, List.count_cons_of_ne (Bool.not_ne_self x).symm,
    List.count_cons_of_ne (Bool.not_ne_self x).symm] at hcount
  rw [interleaved, h, List.foldl_cons, List.foldl_cons]
  generalize hstart : ({ progress := fun _ => .waiting, sessions := ss } : Calls σ) = start
  have hwaiting : ∀ z, start.progress z = .waiting := fun z => hstart ▸ rfl
  -- the two turns bring the first call to its end
  obtain ⟨hfewer, hfinish⟩ := start.finish_turn key c x
  obtain ⟨hnone, hfinish'⟩ := (start.turn key c x).finish_turn key c x
  rw [hwaiting] at hfewer hfinish
  have hended : (((start.turn key c x).turn key c x).progress x).needs ≤ 0 :=
    hnone.trans (Nat.sub_le_of_le_add hfewer)
  have hother : ((start.turn key c x).turn key c x).progress (!x) = .waiting := by
    rw [Calls.turn_other, Calls.turn_other, hwaiting]
  rw [Progress.finish_of_needs hended, hfinish] at hfinish'
  rw [Calls.sessions_foldl hended (by rwa [hother]), hother, hfinish', ← hstart]
  rfl

theorem interleaved_of_overlap (hread : ss.read key = .ok session) (h : schedule.Overlaps) :
    ∃ x, ss.interleaved key c schedule = (ss.put key session (c x)).put key session (c !x) := by
  obtain ⟨x, rest, hturns⟩ := h
  have hcount : ∀ z, 1 ≤ rest.count z := by
    intro z
    have hz := schedule.complete z
    rw [hturns] at hz
    cases x <;> cases z <;> simp at hz ⊢ <;> omega
  rw [interleaved, hturns, List.foldl_cons, List.foldl_cons]
  generalize hboth : Calls.turn (σ := σ) key c (Calls.turn key c _ x) (!x) = both
  have hholding : ∀ z, both.progress z = .holding session := by
    intro z
    rw [← hboth]
    cases x <;> cases z <;> simp [Calls.turn, Progress.step, hread, Function.update]
  have hsessions : both.sessions = ss := by
    rw [← hboth]
    simp [Calls.turn, Progress.step, hread, Function.update]
  rcases rest with _ | ⟨y, rest⟩
  · exact absurd (hcount true) (by simp)
  · -- whoever is next writes, and is overwritten by the other
    refine ⟨y, ?_⟩
    obtain ⟨hfewer, hfinish⟩ := both.finish_turn key c y
    have hother := both.turn_other key c y
    rw [hholding] at hfewer hfinish hother
    have hlast := hcount (!y)
    rw [List.count_cons_of_ne (Bool.not_ne_self y).symm] at hlast
    rw [Progress.finish_of_needs hfewer, hsessions] at hfinish
    rw [List.foldl_cons, Calls.sessions_foldl hfewer (by rwa [hother]), hother, hfinish]
    rfl

theorem interleaved_of_error (hread : ss.read key = .error f) (schedule : Schedule) :
    ss.interleaved key c schedule = ss := by
  obtain ⟨x, y, rest, hturns⟩ := schedule.exists_cons
  have hcount := schedule.complete (!x)
  rw [hturns, List.count_cons_of_ne (Bool.not_ne_self x).symm] at hcount
  rw [interleaved, hturns, List.foldl_cons]
  generalize hfirst : Calls.turn key c { progress := fun _ => .waiting, sessions := ss } x = calls
  have hended : (calls.progress x).needs ≤ 0 := by
    rw [← hfirst]
    simp [Calls.turn, Progress.step, hread, Progress.needs]
  have hother : calls.progress (!x) = .waiting := by rw [← hfirst, Calls.turn_other]
  have hsessions : calls.sessions = ss := by
    rw [← hfirst]
    simp [Calls.turn, Progress.step, hread]
  rw [Calls.sessions_foldl hended (by rwa [hother]), hother, hsessions]
  exact attempt_of_error hread (c !x)

/-! ## Changes that are lost -/

section

variable {session : Session} {made : Bool → Session}

theorem put_of_apply {c : Change} {after : Session} (h : session.apply c = .ok after) :
    ss.put key session c = ss.write key after := by
  rw [put, h]

theorem put_of_error {c : Change} (h : session.apply c = .error f) : ss.put key session c = ss := by
  rw [put, h]

section

variable (hread : ss.read key = .ok session)
include hread

section

variable (hmade : ∀ x, session.apply (c x) = .ok (made x))
include hmade

theorem attempt_attempt_eq_iff (x y : Bool) :
    (ss.attempt key (c x)).attempt key (c !x) = ss.write key (made y) ↔
      (∃ f, (made x).apply (c !x) = .error f) ∧ made x = made y := by
  rw [attempt_of_read hread, put_of_apply (hmade x), attempt_of_read (read_write _ _ _)]
  cases h : (made x).apply (c !x) with
  | error f => simp [put_of_error h, write_inj]
  | ok after =>
    rw [put_of_apply h, write_write, write_inj]
    refine iff_of_false ?_ (by simp)
    rintro rfl
    -- the number of items has changed twice on one side, and once on the other
    have hx := size_apply (hmade x)
    have hy := size_apply (hmade y)
    have hafter := size_apply h
    have hgrowth : ∀ z, (c z).growth = 1 ∨ (c z).growth = -1 := by
      intro z
      cases c z
      · exact .inl rfl
      · exact .inr rfl
    rcases Bool.eq_or_eq_not y x with rfl | rfl
    · have := hgrowth !y
      omega
    · have := hgrowth x
      omega

theorem not_collide_iff :
    ¬ Collide ss key c ↔
      ∃ field item, (∀ x, c x = .remove field item) ∧ (session.get field).count item = 1 := by
  rw [Collide]
  simp only [hread, Except.ok.injEq, exists_eq_left']
  rw [and_iff_right fun x => ⟨made x, hmade x⟩]
  push Not
  rfl

theorem overlap_serial_iff (y : Bool) :
    (∃ x, ss.write key (made y) = (ss.attempt key (c x)).attempt key (c !x)) ↔
      ¬ Collide ss key c := by
  rw [not_collide_iff hread hmade]
  constructor
  · rintro ⟨x, hx⟩
    obtain ⟨herror, -⟩ := (attempt_attempt_eq_iff hread hmade x y).mp hx.symm
    obtain ⟨field, item, hfirst, hsecond, hcount⟩ :=
      (apply_error_after_iff (hmade x) (hmade !x)).mp herror
    refine ⟨field, item, fun z => ?_, hcount⟩
    rcases Bool.eq_or_eq_not z x with rfl | rfl
    · exact hfirst
    · exact hsecond
  · rintro ⟨field, item, hboth, hcount⟩
    refine ⟨y, ((attempt_attempt_eq_iff hread hmade y y).mpr ⟨?_, rfl⟩).symm⟩
    exact (apply_error_after_iff (hmade y) (hmade !y)).mpr
      ⟨field, item, hboth y, hboth !y, hcount⟩

end

theorem put_put_of_error (h : ∃ z f, session.apply (c z) = .error f) :
    ∃ y, (ss.put key session (c x)).put key session (c !x) =
      (ss.attempt key (c y)).attempt key (c !y) := by
  obtain ⟨z, f, hz⟩ := h
  refine ⟨z, ?_⟩
  rw [attempt_of_read hread, put_of_error hz, attempt_of_read hread]
  rcases Bool.eq_or_eq_not x z with rfl | rfl
  · rw [put_of_error hz]
  · rw [Bool.not_not, put_of_error hz]

theorem put_put_serial_iff (c : Bool → Change) (x : Bool) :
    ((∃ y, (ss.put key session (c x)).put key session (c !x) =
          (ss.attempt key (c y)).attempt key (c !y)) ↔ ¬ Collide ss key c) ∧
      (Collide ss key c →
        ∃ y, (ss.put key session (c x)).put key session (c !x) = ss.attempt key (c y)) := by
  by_cases hall : ∀ z, ∃ after, session.apply (c z) = .ok after
  · choose made hmade using hall
    have hstays : (ss.put key session (c x)).put key session (c !x) = ss.write key (made !x) := by
      rw [put_of_apply (hmade x), put_of_apply (hmade !x), write_write]
    rw [hstays]
    refine ⟨overlap_serial_iff hread hmade !x, fun _ => ⟨!x, ?_⟩⟩
    rw [attempt_of_read hread, put_of_apply (hmade !x)]
  · have hapart : ¬ Collide ss key c := by
      rintro ⟨other, hother, hmade, -⟩
      obtain rfl := Except.ok.inj (hread.symm.trans hother)
      exact hall hmade
    refine ⟨iff_of_true (put_put_of_error hread ?_) hapart, fun h => absurd h hapart⟩
    obtain ⟨z, hz⟩ := not_forall.mp hall
    refine ⟨z, ?_⟩
    cases happly : session.apply (c z) with
    | error f => exact ⟨f, rfl⟩
    | ok after => exact absurd ⟨after, happly⟩ hz

end

end

/-- Two changes of a session that take their steps in any order leave what they leave one after the
other, in one order or the other, exactly if they do not both overlap and collide. If they do, only
one of the two changes is there in the end. -/
theorem interleaved_serial_iff (ss : Sessions σ) (key : String) (c : Bool → Change)
    (schedule : Schedule) :
    ((∃ x, ss.interleaved key c schedule = (ss.attempt key (c x)).attempt key (c !x)) ↔
        ¬ (schedule.Overlaps ∧ Collide ss key c)) ∧
      (schedule.Overlaps ∧ Collide ss key c →
        ∃ x, ss.interleaved key c schedule = ss.attempt key (c x)) := by
  by_cases hoverlaps : schedule.Overlaps
  · cases hread : ss.read key with
    | error f =>
      have hapart : ¬ Collide ss key c := by
        rintro ⟨session, hsession, -⟩
        rw [hread] at hsession
        cases hsession
      refine ⟨iff_of_true ⟨true, ?_⟩ fun h => hapart h.2, fun h => absurd h.2 hapart⟩
      rw [interleaved_of_error hread, attempt_of_error hread, attempt_of_error hread]
    | ok session =>
      obtain ⟨x, hlast⟩ := interleaved_of_overlap (c := c) hread hoverlaps
      rw [hlast, and_iff_right hoverlaps]
      exact put_put_serial_iff hread c x
  · -- the second turn is that of the same call again
    refine ⟨iff_of_true ?_ fun h => hoverlaps h.1, fun h => absurd h.1 hoverlaps⟩
    obtain ⟨x, y, rest, hturns⟩ := schedule.exists_cons
    obtain rfl : y = x := by
      by_contra hy
      exact hoverlaps ⟨x, rest, by rw [hturns, Bool.eq_not_of_ne hy]⟩
    exact ⟨y, interleaved_of_first hturns⟩

/-- Two calls that take turns. -/
def takingTurns : Schedule where
  turns := [false, true, false, true]
  complete x := by cases x <;> decide

/-- A program that is added to the history is lost when a file is added to the list of files. -/
theorem not_serial_takingTurns :
    ¬ ∃ x, (⟨[("S", {})]⟩ : Sessions).interleaved "S"
        (fun x => if x then .add .files "a.csv" else .add .history "1") takingTurns =
      ((⟨[("S", {})]⟩ : Sessions).attempt "S"
        (if x then .add .files "a.csv" else .add .history "1")).attempt "S"
        (if !x then .add .files "a.csv" else .add .history "1") := by
  rintro ⟨x, hx⟩
  cases x <;> exact absurd hx (by decide +kernel)

end Sessions

end TableScript
