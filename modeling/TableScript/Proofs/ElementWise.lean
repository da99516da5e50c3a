import TableScript.Proofs.Application
import TableScript.Proofs.Turns

/-!
# Maps and filters, element by element

`Applies` says that a function gives a value on each of some elements in turn, where the elements
stand in a sequence as they did and the function stays what it is. A map or a filter then takes the
same values (`Applies.visited`), so that it gives the list of them, or of the elements on which they
are true (`map_filter_elementwise`). Only where there are no elements is there no list either.
-/

namespace TableScript

/-- A reference stands for the list of some elements. -/
def Store.IsListOf (s : Store) (r : Ref) (elements : List Ref) : Prop :=
  ∃ type place, s.object r = ⟨type, .list place⟩ ∧ s.sequence place = elements

namespace EvalM

open Primitive

variable {α : Type} {levels : Nat} {p : Position} {f r : Ref} {ts : List TypeRef}
  {result u : TypeRef} {c : Closure} {parameter : String} {place : Nat} {m m' : Machine}
  {scope : Scope Ref TypeRef}

/-- A function gives values on the elements of the sequence at a place, from an index on, one after
the other: each value, and what it is. -/
inductive Applies (levels : Nat) (p : Position) (f : Ref) (ts : List TypeRef) (result : TypeRef)
    (c : Closure) (u : TypeRef) (place : Nat) :
    Nat → List Ref → Machine → List (Ref × Content) → Machine → Prop
  | done {index : Nat} {m : Machine} (hnone : m.store.element? place index = none) :
    Applies levels p f ts result c u place index [] m [] m
  | next {index : Nat} {x v : Ref} {xs : List Ref} {values : List (Ref × Content)}
    {m m₁ m' : Machine} (hsome : m.store.element? place index = some x)
    (hfunction : m.store.object f = ⟨.func ts result, .func c⟩) (hx : m.store.Accepts x u)
    (happlied : (applied levels p f [x]).exec m = (.ok v, m₁))
    (hrest : Applies levels p f ts result c u place (index + 1) xs m₁ values m') :
    Applies levels p f ts result c u place index (x :: xs) m ((v, m₁.store.content v) :: values)
      m'

variable {index : Nat} {xs : List Ref} {values : List (Ref × Content)} {v : Ref}

theorem Applies.length_eq (h : Applies levels p f ts result c u place index xs m values m') :
    values.length = xs.length := by
  induction h with
  | done => rfl
  | next _ _ _ _ _ ih => exact congrArg (· + 1) ih

theorem callable_of_applied {values : List Ref} (hlength : values.length ≤ 2)
    (hfunction : m.store.object f = ⟨.func ts result, .func c⟩)
    (hvalues : List.Forall₂ (fun v q => m.store.Accepts v q.2) values c.parameters)
    (h : (applied (levels + 1) p f values).exec m = (.ok v, m')) :
    Callable m f ts result c values := by
  rw [applied, exec_bind_get, exec_inScope] at h
  let n : Machine := { m with scope := named m.scope f values }
  have hfst : ((step (eval (levels + 1)) (.apply { position := some p } (nameAt p "f")
      ((["x", "y"].take values.length).map (nameAt p))) .any).exec n).1 = .ok v :=
    congrArg Prod.fst h
  obtain ⟨g, m₁, hname, hcall⟩ := exec_bind_ok (Prod.ext hfst rfl)
  obtain ⟨hdeep, haccepts | hnone⟩ := accepts_of_nameAt (get?_named m.scope f hlength).1 hname
  · exact ⟨hdeep, hfunction, haccepts, hvalues⟩
  · -- a none cannot be called
    rw [exec_bind_object, show (m₁.store.object g).content = .none from hnone]
      at hcall
    obtain ⟨_, _, -, hreport⟩ := exec_bind_ok hcall
    exact absurd hreport report_ne_ok

/-- What a built-in function does with an element, if it takes the value of the function there, it
does with all. -/
theorem Applies.visited (scope : Scope Ref TypeRef) (g : Ref → EvalM α)
    (take : Ref → Ref → Content → α)
    (hg : ∀ x v m m₁, m.store.object f =
      ⟨.func ts result, .func c⟩ → m.store.Accepts x u →
      (applied levels p f [x]).exec m = (.ok v, m₁) →
        (g x).exec (inside p scope m) = (.ok (take x v (m₁.store.content v)),
          inside p scope m₁))
    (h : Applies levels p f ts result c u place index xs m values m') :
    Undisturbed g place index xs (inside p scope m) ∧
      (xs.mapM g).exec (inside p scope m) =
        (.ok (List.zipWith (fun x v => take x v.1 v.2) xs values), inside p scope m') := by
  induction h with
  | done hnone => exact ⟨hnone, rfl⟩
  | next hsome hfunction hx happlied hrest ih =>
    have hturn := hg _ _ _ _ hfunction hx happlied
    refine ⟨⟨hsome, fun a m₂ ha => ?_⟩, ?_⟩
    · cases hturn.symm.trans ha
      exact ih.1
    · rw [List.mapM_cons, exec_bind_of hturn, exec_bind_of ih.2]
      rfl

theorem exec_mapTurn (hc : c.builtin = none) (hparameters : c.parameters = [(parameter, u)])
    (hfunction : m.store.object f = ⟨.func ts result, .func c⟩) {x : Ref}
    (hx : m.store.Accepts x u) (happlied : (applied (levels + 1) p f [x]).exec m = (.ok v, m')) :
    (callWith (eval (levels + 1)) c c.scope [x] result).exec (inside p scope m) =
      (.ok v, inside p scope m') := by
  have hvalues : List.Forall₂ (fun v q => m.store.Accepts v q.2) [x] c.parameters := by
    rw [hparameters]
    exact .cons hx .nil
  have hcallable := callable_of_applied (show [x].length ≤ 2 from Nat.le_succ 1) hfunction
    hvalues happlied
  rw [exec_callWith hvalues, bodyIn_of_applied hcallable hc (Nat.le_succ 1) happlied]
  rfl

/-- Is it the truth value true? -/
def holds : Content → Bool
  | .bool b => b
  | _ => false

/-- The elements on which the values are true. -/
def chosen (xs : List Ref) (values : List (Ref × Content)) : List Ref :=
  (List.zipWith (fun x v => if holds v.2 then some x else none) xs values).filterMap id

theorem exec_newList (type : TypeRef) (elements : List Ref) (m : Machine) :
    ∃ r m' place, (newList type elements).exec m = (.ok r, m') ∧
      m'.store.object r = ⟨type, .list place⟩ ∧ m'.store.sequence place = elements :=
  ⟨_, _, _, rfl, Store.object_add _ _, m.store.sequence_addSequence elements⟩

theorem exec_runElements {iterable : Ref} (hiterable : scope.get? "iterable" = some iterable)
    (hnamed : scope.get? "function_value" = some f)
    (hfunction : m.store.object f = ⟨.func ts result, .func c⟩) {word : String} {s : Store}
    (helements : (elements word iterable (some p)).exec (inside p scope m) =
      (.ok place, inside p scope { m with store := s }))
    (k : Closure → List TypeRef → TypeRef → Nat → EvalM Ref) :
    (runElements word (some p) k).exec (inside p scope m) =
      (if s.sequence place = [] then newNone else k c ts result place).exec
        (inside p scope { m with store := s }) := by
  have hobject : (object f).exec (inside p scope m) =
      (.ok ⟨.func ts result, .func c⟩, inside p scope m) := by
    rw [← hfunction]
    rfl
  rw [runElements, argument, argument,
    exec_bind_of (exec_lookup (m := inside p scope m) hiterable _ _),
    exec_bind_of (exec_lookup (m := inside p scope m) hnamed _ _), exec_bind_of hobject]
  dsimp only
  rw [exec_bind_of helements, exec_bind_sequence]
  simp only [List.isEmpty_iff]
  rfl

/-- What is given is the list of some elements, or none if there is nothing to take them from. -/
def GivesList (o : Except Halt Ref × Machine) (xs elements : List Ref) : Prop :=
  ∃ v m', o = (.ok v, m') ∧ (m'.store.IsListOf v elements ↔ xs ≠ []) ∧
    (xs = [] → m'.store.content v = .none)

theorem givesList_outside {elements : List Ref} (type : TypeRef) (n : Machine)
    {o : Except Halt Ref × Machine}
    (ho : o = (if xs = [] then newNone else newList type elements : EvalM Ref).exec n)
    (m : Machine) : GivesList (outside m o) xs elements := by
  by_cases hxs : xs = []
  · rw [ho, if_pos hxs]
    have hnone := n.store.object_add ⟨.none, .none⟩
    refine ⟨_, _, rfl, iff_of_false ?_ (not_not.mpr hxs),
      fun _ => congrArg Object.content hnone⟩
    rintro ⟨t, place, hlist, -⟩
    cases hnone.symm.trans hlist
  · rw [ho, if_neg hxs]
    obtain ⟨r, m', place, hnew, hlist⟩ := exec_newList type elements n
    rw [hnew]
    exact ⟨r, _, rfl, iff_of_true ⟨type, place, hlist⟩ hxs, fun h => absurd h hxs⟩

theorem givesList_call {b : Builtin} {x y : EvalM Ref} {elements : List Ref} {n : Machine}
    (type : TypeRef) (hb : run (eval levels) (some p) b = x)
    (hx : x.exec (inside p scope m) = (if xs = [] then newNone else y).exec (inside p scope n))
    (hend : xs = [] → m' = n)
    (hy : y.exec (inside p scope n) = (newList type elements).exec (inside p scope m')) :
    GivesList ((inCall p (inScope scope (run (eval levels) (some p) b))).exec m) xs elements := by
  rw [exec_call, hb, hx]
  refine givesList_outside type (inside p scope m') ?_ m
  by_cases hnil : xs = []
  · rw [if_pos hnil, if_pos hnil, hend hnil]
  · rw [if_neg hnil, if_neg hnil, hy]

theorem exec_filterTurn (hc : c.builtin = none) (hparameters : c.parameters = [(parameter, u)])
    (hfunction : m.store.object f = ⟨.func ts .bool, .func c⟩) {x : Ref}
    (hx : m.store.Accepts x u) (happlied : (applied (levels + 1) p f [x]).exec m = (.ok v, m')) :
    (do match ← content (← callWith (eval (levels + 1)) c c.scope [x] .bool) with
        | .bool true => return some x
        | _ => return none : EvalM (Option Ref)).exec (inside p scope m) =
      (.ok (if holds (m'.store.content v) then some x else none), inside p scope m') := by
  have hcontent : (content v).exec (inside p scope m') =
      (.ok (m'.store.content v), inside p scope m') := rfl
  rw [exec_bind_of (exec_mapTurn hc hparameters hfunction hx happlied), exec_bind_of hcontent]
  cases m'.store.content v with
  | bool b => cases b <;> rfl
  | _ => rfl

/-- A map and a filter of a text, a list, a tuple or a table, by a function with one parameter that
is made in the program. If the function gives a value on each of the elements in turn, the map gives
the list of these values, and the filter that of the elements on which they are true, iff there are
elements; on nothing, both give none. -/
theorem map_filter_elementwise (levels : Nat) {iterable : Ref} {t : TypeRef}
    (hiterable : scope.get? "iterable" = some iterable)
    (hsequence : m.store.isSequence iterable = true) (hnamed : scope.get? "function_value" = some f)
    (hfunction : m.store.object f = ⟨.func [t] result, .func c⟩) (hc : c.builtin = none)
    (hparameters : c.parameters = [(parameter, u)]) :
    ∃ place s, m.store.Lays iterable place s ∧ ∀ values m',
      Applies (levels + 1) p f [t] result c u place 0 (s.sequence place) { m with store := s }
        values m' →
      let call := fun b => (inCall p (inScope scope (run (eval (levels + 1)) (some p) b))).exec m
      values.length = (s.sequence place).length ∧
      GivesList (call .map) (s.sequence place) (values.map (·.1)) ∧
      (result = .bool →
        GivesList (call .filter) (s.sequence place) (chosen (s.sequence place) values)) := by
  obtain ⟨place, s, hlays, hexec⟩ := exists_elements hsequence
  refine ⟨place, s, hlays, fun values m' happlies => ?_⟩
  intro call
  -- where there are no elements, nothing has been applied
  have hend : s.sequence place = [] → m' = { m with store := s } := by
    intro hnil
    rw [hnil] at happlies
    cases happlies
    rfl
  have hgives : ∀ {b word k elements} (type : TypeRef),
      run (eval (levels + 1)) (some p) b = runElements word (some p) k →
      (k c [t] result place).exec (inside p scope { m with store := s }) =
        (newList type elements).exec (inside p scope m') →
      GivesList (call b) (s.sequence place) elements := fun type hb hk =>
    givesList_call type hb (exec_runElements hiterable hnamed hfunction
      (hexec _ (some p) (inside p scope m) rfl) _) hend hk
  refine ⟨happlies.length_eq, hgives (.list result) rfl ?_,
    fun hbool => hgives (.list t) rfl ?_⟩
  · obtain ⟨hundisturbed, hvalues⟩ := happlies.visited scope _ (fun _ v _ => v)
      fun x v n n₁ hn hx ha => exec_mapTurn hc hparameters hn hx ha
    have hsnd : values.map (·.1) =
        List.zipWith (fun (_ : Ref) (v : Ref × Content) => v.1) (s.sequence place) values := by
      rw [← List.map_uncurry_zip_eq_zipWith]
      exact (congrArg _ (List.map_snd_zip happlies.length_eq.le).symm).trans (List.map_map ..)
    rw [hsnd]
    exact exec_bind_of ((exec_visit hundisturbed).trans hvalues)
  · subst hbool
    obtain ⟨hundisturbed, hvalues⟩ := happlies.visited scope _
      (fun x _ content => if holds content then some x else none)
      fun x v n n₁ hn hx ha => exec_filterTurn hc hparameters hn hx ha
    exact exec_bind_of ((exec_visit hundisturbed).trans hvalues)

/-- A function that gives what it is applied to. -/
def identity (t : TypeRef) : Closure where
  builtin := none
  parameters := [("c", t)]
  body := nameAt {} "c"
  scope := {}

/-- A list of two truth values and an empty text, with functions on their elements. -/
def collections : Machine where
  store :=
    { objects := #[⟨.bool, .bool false⟩, ⟨.bool, .bool true⟩, ⟨.list .bool, .list 0⟩,
        ⟨.func [.bool] .bool, .func (identity .bool)⟩, ⟨.string, .string ""⟩,
        ⟨.func [.char] .char, .func (identity .char)⟩]
      sequences := #[#[⟨0⟩, ⟨1⟩]] }

/-- The scope of a call of a map or a filter. -/
def elementScope (iterable f : Ref) : Scope Ref TypeRef :=
  (({} : Scope Ref TypeRef).add "iterable" iterable).add "function_value" f

/-- The outcome of a call of a map or a filter. -/
def elementCall (iterable f : Ref) (b : Builtin) : Except Halt Ref × Machine :=
  (inCall {} (inScope (elementScope iterable f) (run (eval 3) (some {}) b))).exec collections

theorem applies_identity : Applies 3 {} ⟨3⟩ [.bool] .bool (identity .bool) .bool
    0 0 [⟨0⟩, ⟨1⟩]
    collections [(⟨0⟩, .bool false), (⟨1⟩, .bool true)] collections := by
  have haccepts : ∀ {r b}, collections.store.object r = ⟨.bool, .bool b⟩ →
      collections.store.Accepts r .bool := by
    intro r b h
    rw [Store.Accepts, Store.content, h]
    exact ⟨rfl, .bool, rfl, by decide⟩
  have hnext : Applies 3 {} ⟨3⟩ [.bool] .bool (identity .bool) .bool 0 1 [⟨1⟩] collections
      [(⟨1⟩, collections.store.content ⟨1⟩)] collections :=
    .next rfl rfl (haccepts rfl) rfl (.done rfl)
  exact .next rfl rfl (haccepts rfl) rfl hnext

/-- Two truth values are mapped to themselves, and the filter takes the second one. -/
theorem map_filter_elementwise_twoBools :
    GivesList (elementCall ⟨2⟩ ⟨3⟩ .map) [⟨0⟩, ⟨1⟩] [⟨0⟩, ⟨1⟩] ∧
      GivesList (elementCall ⟨2⟩ ⟨3⟩ .filter) [⟨0⟩, ⟨1⟩] [⟨1⟩] := by
  have hiterable : (elementScope ⟨2⟩ ⟨3⟩).get? "iterable" = some ⟨2⟩ := rfl
  have hfunction : collections.store.object ⟨3⟩ =
      ⟨.func [.bool] .bool, .func (identity .bool)⟩ := rfl
  obtain ⟨place, s, hlays, h⟩ :=
    map_filter_elementwise (p := {}) 2 hiterable rfl rfl hfunction rfl rfl
  obtain ⟨rfl, rfl⟩ := hlays.of_list (i := 0) rfl
  obtain ⟨-, hmap, hfilter⟩ := h _ _ applies_identity
  exact ⟨hmap, hfilter rfl⟩

/-- On nothing, a map gives none. -/
theorem map_nothing_gives_none : ∃ v m', elementCall ⟨4⟩ ⟨5⟩ .map = (.ok v, m') ∧
    collections.store.object ⟨4⟩ = ⟨.string, .string ""⟩ ∧
      m'.store.object v = ⟨.none, .none⟩ :=
  ⟨_, _, rfl, rfl, rfl⟩

end EvalM

end TableScript
