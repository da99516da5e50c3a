import TableScript.Proofs.SteadySteps
import TableScript.Script

/-!
# Types that do not go together

Wherever a type is expected, the type that is found is checked. A mismatch is reported with both
types and halts the run; but the elements of lists and dictionaries are checked by a check of their
own, for which a mismatch is a fault, and a message needs a place and the texts of both types.

* `Form`: what one level of evaluation does, with its checks and its evaluations. Every expression
  has a form (`exists_form`), and the fault of mixed elements comes from nothing but a check of
  elements.
* `ComesTo`: a run comes to a check, through the forms of all expressions that are evaluated.

`mismatch_reported_iff` says which of the checks that fail are reported as mismatches.
-/

namespace TableScript.EvalM

open Primitive

/-- A check of the type that is found against the type that is expected. -/
inductive Check where
  /-- A mismatch is reported at a place. -/
  | value (position : Option Position) (found expected : PlacedType)
  /-- Elements of a collection, for which a mismatch is a fault. -/
  | elements (found expected : PlacedType)

namespace Check

def found : Check → PlacedType
  | value _ found _ => found
  | elements found _ => found

def expected : Check → PlacedType
  | value _ _ expected | elements _ expected => expected

def run : Check → EvalM (Option PlacedType)
  | value position found expected => checkWith (report · position) found expected
  | elements found expected => checkElements found expected

/-- The types do not go together. -/
def Fails (c : Check) : Prop :=
  c.found.conform? c.expected = none

def message (c : Check) : Except Fault String :=
  c.found.mismatch c.expected

def isElements : Check → Bool
  | value _ _ _ => false
  | elements _ _ => true

/-- Can a mismatch be reported? It takes a place, and both types have to have texts. -/
def reports (c : Check) : Bool :=
  match c with
  | value position _ _ => position.isSome && c.message.isOk
  | elements _ _ => false

/-- The mismatch is the first error that is logged after the check, and the run has halted because
an error was reported. -/
def Reported {α : Type} (c : Check) (before : Machine) (outcome : Except Halt α × Machine) :
    Prop :=
  outcome.1 = .error .reported ∧ ∃ text places rest, c.message = .ok text ∧
    outcome.2.console.log.errors =
      before.console.log.errors ++ (text ++ "\n" ++ places) :: rest

end Check

/-! ## How runs end after a check that fails -/

/-- The outcomes of a run that has come to a check that fails, in a machine `m`. What is reported
instead of a mismatch does not begin like one. -/
inductive Ends (c : Check) (m : Machine) {α : Type} : Except Halt α × Machine → Prop
  | reported {m' : Machine} {text places : String} {rest : List String} (hc : c.reports = true)
    (htext : c.message = .ok text) (herrors : m'.console.log.errors =
      m.console.log.errors ++ (text ++ "\n" ++ places) :: rest) :
    Ends c m (.error .reported, m')
  | fault {f : Fault} {m' : Machine} (hc : c.reports = false)
    (herrors : m'.console.log.errors = m.console.log.errors) : Ends c m (.error (.fault f), m')
  | other {m' : Machine} {text : String} {rest : List String} (hc : c.reports = false)
    (htext : text.toList.head? ≠ some 'T')
    (herrors : m'.console.log.errors = m.console.log.errors ++ text :: rest) :
    Ends c m (.error .reported, m')

theorem exec_report_some {α : Type} (text : String) (position : Position) (m : Machine) :
    ∃ places m', (report text (some position) : EvalM α).exec m = (.error .reported, m') ∧
      m'.console.log.errors = m.console.log.errors ++ [text ++ "\n" ++ places] :=
  ⟨_, _, rfl, rfl⟩

theorem readFailure_eq (position : Position) (name : String) (path : Path) (halt : Halt) :
    ∃ text : String, (text.toList.head? = some 'C' ∨ text.toList.head? = some 'F') ∧
      readFailure (some position) name path halt = report text (some position) := by
  unfold readFailure
  split
  · exact ⟨_, .inl (by simp), rfl⟩
  · exact ⟨_, .inr (by simp), rfl⟩
  · exact ⟨_, .inr (by simp), rfl⟩

theorem Shape.head?_mismatch {a b : PlacedType} {text : String} (h : a.mismatch b = .ok text) :
    text.toList.head? = some 'T' := by
  obtain ⟨found, -, h⟩ := Except.ok_of_bind h
  obtain ⟨wanted, -, h⟩ := Except.ok_of_bind h
  cases h
  simp

variable {m' : Machine} {levels : Nat}

namespace Ends

variable {α β : Type} {c : Check} {m : Machine} {outcome : Except Halt α × Machine}

theorem exists_halt (h : Ends c m outcome) : ∃ halt, outcome.1 = .error halt := by
  cases h <;> exact ⟨_, rfl⟩

theorem congr (h : Ends c m outcome) {halt : Halt} (hhalt : outcome.1 = .error halt)
    (herrors : m'.console.log.errors = outcome.2.console.log.errors) :
    Ends c m ((.error halt, m') : Except Halt β × Machine) := by
  cases h <;> cases hhalt
  case reported hc htext h => exact .reported hc htext (herrors.trans h)
  case fault hc h => exact .fault hc (herrors.trans h)
  case other hc htext h => exact .other hc htext (herrors.trans h)

theorem reported_iff (h : Ends c m outcome) : c.Reported m outcome ↔ c.reports = true := by
  cases h with
  | reported hc htext herrors =>
    exact ⟨fun _ => hc, fun _ => ⟨rfl, _, _, _, htext, herrors⟩⟩
  | fault hc herrors => simp [Check.Reported, hc]
  | @other m' text rest hc htext herrors =>
    refine ⟨?_, fun h => absurd (hc.symm.trans h) Bool.false_ne_true⟩
    -- A mismatch would be the error that was logged, which does not begin like one.
    rintro ⟨-, text', places, rest', hmessage, herrors'⟩
    have hsame := List.append_cancel_left (herrors.symm.trans herrors')
    injection hsame with hsame
    exact absurd (by simp [hsame, Shape.head?_mismatch hmessage]) htext

variable {m₁ : Machine}

theorem bind {x : EvalM α} {f : α → EvalM β} (h : Ends c m (x.exec m₁)) :
    Ends c m ((x >>= f).exec m₁) := by
  obtain ⟨halt, hhalt⟩ := h.exists_halt
  have hx : x.exec m₁ = (.error halt, (x.exec m₁).2) := Prod.ext hhalt rfl
  rw [exec_bind_halt hx]
  exact h.congr hhalt rfl

theorem tryCatch {x : EvalM Ref} (h : Ends c m (x.exec m₁)) (position : Position) (name : String)
    (path : Path) : Ends c m ((tryCatch x (readFailure (some position) name path)).exec m₁) := by
  rw [exec_tryCatch]
  generalize x.exec m₁ = outcome at h ⊢
  obtain ⟨halt, hhalt⟩ := h.exists_halt
  obtain ⟨result, n⟩ := outcome
  cases hhalt
  obtain ⟨text, hhead, hhandler⟩ := readFailure_eq position name path halt
  obtain ⟨places, n', hreport, hlog⟩ := exec_report_some (α := Ref) text position n
  dsimp only
  rw [hhandler, hreport]
  cases h with
  | reported hc htext herrors =>
    rw [herrors, List.append_assoc, List.cons_append] at hlog
    exact .reported hc htext hlog
  | fault hc herrors =>
    refine .other hc ?_ (herrors ▸ hlog)
    rw [String.toList_append, String.toList_append, List.append_assoc, List.head?_append]
    rcases hhead with hhead | hhead <;> simp [hhead]
  | other hc htext herrors =>
    rw [herrors, List.append_assoc, List.cons_append] at hlog
    exact .other hc htext hlog

end Ends

variable {c : Check}

theorem Check.ends (h : c.Fails) (m : Machine) : Ends c m (c.run.exec m) := by
  cases c with
  | value position found expected =>
    replace h : found.conform? expected = none := h
    rw [run, checkWith, h]
    dsimp only
    cases htext : found.mismatch expected with
    | error f =>
      exact .fault (by simp [reports, message, Check.found, Check.expected, htext, Except.isOk,
        Except.toBool]) rfl
    | ok text =>
      cases position with
      | none => exact .fault rfl rfl
      | some p =>
        exact .reported (by simp [reports, message, Check.found, Check.expected, htext, Except.isOk,
          Except.toBool]) htext rfl
  | elements found expected =>
    replace h : found.conform? expected = none := h
    rw [run, checkElements, checkWith, h]
    dsimp only
    cases found.mismatch expected <;> exact .fault rfl rfl

/-! ## Forms of evaluation -/

/-- What one level of evaluation does. No step but a check of elements has the fault of mixed
elements. -/
inductive Form : Type → Type 1
  /-- A look at the machine, or a change of it. -/
  | turn {α : Type} (f : Machine → α × Machine) : Form α
  | fault {α : Type} (f : Fault) (unmixed : f ≠ .mixedElements) : Form α
  | report {α : Type} (text : String) (position : Option Position) : Form α
  | check (c : Check) : Form (Option PlacedType)
  | eval (e : Expr) (type : TypeRef) : Form Ref
  | bind {α β : Type} (p : Form α) (q : α → Form β) : Form β
  | inScope {α : Type} (scope : Scope Ref TypeRef) (p : Form α) : Form α
  | inCall {α : Type} (position : Position) (p : Form α) : Form α
  /-- Whatever halts the reading of a file is reported. -/
  | reading (position : Position) (name : String) (path : Path) (p : Form Ref) : Form Ref

variable {m : Machine}

namespace Form

variable {α β : Type}

/-- The step that a form stands for, if `ev` evaluates the expressions. -/
def run (ev : Evaluator) {α : Type} : Form α → EvalM α
  | turn f => modifyGet f
  | fault f _ => EvalM.fault f
  | report text position => EvalM.report text position
  | check c => c.run
  | eval e type => ev e type
  | bind p q => p.run ev >>= fun a => (q a).run ev
  | inScope scope p => EvalM.inScope scope (p.run ev)
  | inCall position p => EvalM.inCall position (p.run ev)
  | reading position name path p => tryCatch (p.run ev) (readFailure (some position) name path)

/-- No elements are checked. -/
def Reporting {α : Type} : Form α → Prop
  | turn _ | fault _ _ | report _ _ | eval _ _ => True
  | check c => c.isElements = false
  | bind p q => p.Reporting ∧ ∀ a, (q a).Reporting
  | inScope _ p | inCall _ p | reading _ _ _ p => p.Reporting

/-- A run of a form comes to a check, in a machine. Where it evaluates an expression, `within` says
to which checks that comes. -/
inductive Comes (ev : Evaluator) (within : Expr → TypeRef → Machine → Check →
    Machine → Prop) :
    {α : Type} → Form α → Machine → Check → Machine → Prop
  | check {c : Check} {m : Machine} : Comes ev within (.check c) m c m
  | eval {e : Expr} {type : TypeRef} {c : Check} {m m' : Machine} (h : within e type m c m') :
    Comes ev within (.eval e type) m c m'
  | first {α β : Type} {p : Form α} {q : α → Form β} {c : Check} {m m' : Machine}
    (h : Comes ev within p m c m') : Comes ev within (.bind p q) m c m'
  | next {α β : Type} {p : Form α} {q : α → Form β} {a : α} {c : Check}
    {m m₁ m' : Machine}
    (hp : (p.run ev).exec m = (.ok a, m₁)) (h : Comes ev within (q a) m₁ c m') :
    Comes ev within (.bind p q) m c m'
  | inScope {α : Type} {scope : Scope Ref TypeRef} {p : Form α} {c : Check} {m m' : Machine}
    (h : Comes ev within p { m with scope } c m') : Comes ev within (.inScope scope p) m c m'
  | inCall {α : Type} {position : Position} {p : Form α} {c : Check} {m m' : Machine}
    (h : Comes ev within p { m with trace := position :: m.trace } c m') :
    Comes ev within (.inCall position p) m c m'
  | reading {position : Position} {name : String} {path : Path} {p : Form Ref} {c : Check}
    {m m' : Machine} (h : Comes ev within p m c m') :
    Comes ev within (.reading position name path p) m c m'

section

variable {ev : Evaluator} {within : Expr → TypeRef → Machine → Check → Machine → Prop}

theorem Comes.ends {p : Form α} (h : p.Comes ev within m c m') (hc : c.Fails)
    (hwithin : ∀ e type m c m', within e type m c m' → c.Fails →
      Ends c m' ((ev e type).exec m)) :
    Ends c m' ((p.run ev).exec m) := by
  induction h with
  | check => exact Check.ends hc _
  | eval h => exact hwithin _ _ _ _ _ h hc
  | first h ih => exact (ih hc).bind
  | next hp h ih =>
    rw [run, exec_bind_of hp]
    exact ih hc
  | inScope h ih =>
    obtain ⟨halt, hhalt⟩ := (ih hc).exists_halt
    rw [run, exec_inScope, hhalt]
    exact (ih hc).congr hhalt rfl
  | @inCall _ position p c m m' h ih =>
    obtain ⟨halt, hhalt⟩ := (ih hc).exists_halt
    have hp : (p.run ev).exec { m with trace := position :: m.trace } = (.error halt, _) :=
      Prod.ext hhalt rfl
    rw [run, exec_inCall, hp]
    exact (ih hc).congr hhalt rfl
  | reading h ih => exact (ih hc).tryCatch _ _ _

theorem exists_comes (hwithin : ∀ e type m m',
      (ev e type).exec m = (.error (.fault .mixedElements), m') →
      ∃ c m₁, within e type m c m₁ ∧ c.isElements = true ∧ c.Fails) {p : Form α}
    (h : (p.run ev).exec m = (.error (.fault .mixedElements), m')) :
    ∃ c m₁, p.Comes ev within m c m₁ ∧ c.isElements = true ∧ c.Fails := by
  induction p generalizing m m' with
  | turn f => cases h
  | fault f unmixed =>
    cases h
    exact absurd rfl unmixed
  | report text position =>
    cases position <;> cases h
  | check c =>
    cases c with
    | value position found expected =>
      rw [run, Check.run, checkWith] at h
      split at h
      · cases h
      · cases h
      · have hunmixed := found.unmixed_mismatch expected
        cases htext : found.mismatch expected with
        | error f =>
          rw [htext] at h hunmixed
          cases h
          exact absurd rfl hunmixed
        | ok text => rw [htext] at h; cases position <;> cases h
    | elements found expected =>
      refine ⟨_, m, .check, rfl, ?_⟩
      rw [run, Check.run, checkElements, checkWith] at h
      split at h
      · cases h
      · cases h
      · assumption
  | eval e type =>
    obtain ⟨c, m₁, hcomes, hc⟩ := hwithin e type m m' h
    exact ⟨c, m₁, .eval hcomes, hc⟩
  | bind p q ihp ihq =>
    rw [run] at h
    rcases hp : (p.run ev).exec m with ⟨halt | a, m₁⟩
    · rw [exec_bind_halt hp] at h
      cases h
      obtain ⟨c, m₂, hcomes, hc⟩ := ihp hp
      exact ⟨c, m₂, .first hcomes, hc⟩
    · rw [exec_bind_of hp] at h
      obtain ⟨c, m₂, hcomes, hc⟩ := ihq a h
      exact ⟨c, m₂, .next hp hcomes, hc⟩
  | inScope scope p ih =>
    rw [run, exec_inScope] at h
    obtain ⟨c, m₁, hcomes, hc⟩ := ih (Prod.ext (Prod.mk.inj h).1 rfl)
    exact ⟨c, m₁, .inScope hcomes, hc⟩
  | inCall position p ih =>
    rw [run, exec_inCall] at h
    rcases hp : (p.run ev).exec { m with trace := position :: m.trace } with ⟨halt | a, m₁⟩
    · rw [hp] at h
      cases h
      obtain ⟨c, m₂, hcomes, hc⟩ := ih hp
      exact ⟨c, m₂, .inCall hcomes, hc⟩
    · rw [hp] at h
      cases h
  | reading position name path p ih =>
    -- The handler reports, so it leaves no fault.
    rw [run, exec_tryCatch] at h
    rcases hp : (p.run ev).exec m with ⟨halt | a, m₁⟩
    · obtain ⟨text, -, hhandler⟩ := readFailure_eq position name path halt
      rw [hp] at h
      dsimp only at h
      rw [hhandler] at h
      cases h
    · rw [hp] at h
      cases h

end

end Form

/-! ## Every expression has a form -/

/-- A step is that of a form, in which elements are checked only if they may be. -/
def Formed (ev : Evaluator) (elements : Bool) {α : Type} (x : EvalM α) : Prop :=
  ∃ p : Form α, p.run ev = x ∧ (elements = false → p.Reporting)

namespace Formed

variable {ev : Evaluator} {elements : Bool} {α β : Type}

theorem turn (f : Machine → α × Machine) : Formed ev elements (modifyGet f) :=
  ⟨.turn f, rfl, fun _ => trivial⟩

theorem fault {f : Fault} (hf : f ≠ .mixedElements) : Formed ev elements (fault f : EvalM α) :=
  ⟨.fault f hf, rfl, fun _ => trivial⟩

theorem report (text : String) (position : Option Position) :
    Formed ev elements (report text position : EvalM α) :=
  ⟨.report text position, rfl, fun _ => trivial⟩

theorem bind {x : EvalM α} {f : α → EvalM β} (hx : Formed ev elements x)
    (hf : ∀ a, Formed ev elements (f a)) : Formed ev elements (x >>= f) := by
  obtain ⟨p, rfl, hp⟩ := hx
  choose q hq hreporting using hf
  exact ⟨.bind p q, congrArg _ (funext hq), fun h => ⟨hp h, fun a => hreporting a h⟩⟩

theorem get {f : Machine → EvalM β} (hf : ∀ m, Formed ev elements (f m)) :
    Formed ev elements (get >>= f) :=
  bind (turn fun m => (m, m)) hf

theorem ofExcept {r : Except Fault α} (h : Unmixed r) : Formed ev elements (ofExcept r) := by
  cases r with
  | error f => exact fault fun hf => h (congrArg _ hf)
  | ok a => exact turn fun m => (a, m)

theorem readingFile {rest : String → EvalM Ref} (position : Position) (name : String)
    (h : ∀ file, Formed ev elements (rest file)) :
    Formed ev elements (readingFile position name rest) := by
  refine get fun m => ?_
  obtain ⟨p, hp, hreporting⟩ := @get ev elements _ _ fun n : Machine =>
    bind (ofExcept (n.disk.unmixed_read (csvPath m.confinement name))) h
  refine ⟨.reading position name (csvPath m.confinement name) p, ?_, hreporting⟩
  rw [Form.run, hp]

theorem writingFile (position : Option Position) (name : String) (lines : List (List Csv.Item)) :
    Formed ev elements (writingFile position name lines) := by
  refine get fun m => ?_
  split
  · exact report _ _
  · generalize Csv.write lines = written
    refine get fun n => ?_
    split
    · refine bind (turn _) fun _ => ?_
      split
      · exact turn _
      · exact report _ _
    · exact report _ _

end Formed

/-- Steps are those of forms if their parts are. -/
def forming (ev : Evaluator) (elements : Bool) : Congruence where
  Holds x _ := Formed ev elements x
  Binds _ := True
  Inside := True
  Edits := True
  Elements := elements = true
  holds_pure a := .turn fun m => (a, m)
  holds_bind := .bind
  holds_fault := .fault
  holds_report := .report
  holds_get _ := .get
  holds_make _ := .turn _
  holds_aside _ _ := .turn _
  holds_bindName _ _ := .turn _
  holds_inScope := by
    rintro α x y scope h
    obtain ⟨p, rfl, hp⟩ := h trivial
    exact ⟨.inScope scope p, rfl, hp⟩
  holds_inCall := by
    rintro α x y position ⟨p, rfl, hp⟩
    exact ⟨.inCall position p, rfl, hp⟩
  holds_check position found expected :=
    ⟨.check (.value position found expected), rfl, fun _ => rfl⟩
  holds_checkElements h found expected :=
    ⟨.check (.elements found expected), rfl, fun h' => by rw [h] at h'; cases h'⟩
  holds_readingFile position name _ _ := .readingFile position name
  holds_writingFile position name lines _ _ := .writingFile position name lines

/-- Every evaluation is one of the forms. -/
theorem exists_form (levels : Nat) (e : Expr) (expected : TypeRef) :
    ∃ p : Form Ref, p.run (eval levels) = eval (levels + 1) e expected ∧
      (e.isCollection = false → p.Reporting) := by
  have hparts : ∀ d, (forming (eval levels) e.isCollection).Akin (eval levels) (eval levels) d :=
    fun d t => ⟨.eval d t, rfl, fun _ => trivial⟩
  have hdescend : Formed (eval levels) e.isCollection (descend e) :=
    Congruence.steady_descend (K := forming (eval levels) e.isCollection) (Formed.turn _) e
  have hstep : Formed (eval levels) e.isCollection (step (eval levels) e expected) :=
    Congruence.together_step expected trivial (fun _ => hparts) (fun d _ => hparts d)
      (fun _ _ => trivial) id
  exact hdescend.bind fun _ => hstep.bind fun r => .bind (.turn _) fun _ => .turn fun m => (r, m)

/-- The evaluation of an expression comes to a check, in a machine: by its form, or by the forms of
the expressions that are evaluated for it. -/
def ComesTo : Nat → Expr → TypeRef → Machine → Check → Machine → Prop
  | 0, _, _, _, _, _ => False
  | levels + 1, e, expected, m, c, m' =>
    ∃ p : Form Ref, p.run (eval levels) = eval (levels + 1) e expected ∧
      (e.isCollection = false → p.Reporting) ∧ p.Comes (eval levels) (ComesTo levels) m c m'

theorem ComesTo.ends {e : Expr} {expected : TypeRef} (h : ComesTo levels e expected m c m')
    (hc : c.Fails) : Ends c m' ((eval levels e expected).exec m) := by
  induction levels generalizing e expected c m m' with
  | zero => cases h
  | succ levels ih =>
    obtain ⟨p, hp, -, hcomes⟩ := h
    rw [← hp]
    exact hcomes.ends hc fun _ _ _ _ _ => ih

theorem exists_comesTo {e : Expr} {expected : TypeRef}
    (h : (eval levels e expected).exec m = (.error (.fault .mixedElements), m')) :
    ∃ c m₁, ComesTo levels e expected m c m₁ ∧ c.isElements = true ∧ c.Fails := by
  induction levels generalizing e expected m m' with
  | zero => cases h
  | succ levels ih =>
    obtain ⟨p, hp, hreporting⟩ := exists_form levels e expected
    rw [← hp] at h
    obtain ⟨c, m₁, hcomes, hc⟩ := p.exists_comes (fun _ _ _ _ => ih) h
    exact ⟨c, m₁, ⟨p, hp, hreporting, hcomes⟩, hc⟩

/-- Every expression has a form, and a run that comes to a check that fails halts. It halts with the
mismatch reported iff the check is not one of elements, has a place and is of types with texts. The
fault of mixed elements arises from a check of elements only. -/
theorem mismatch_reported_iff (levels : Nat) (e : Expr) (expected : TypeRef) (m : Machine) :
    (∃ p : Form Ref, p.run (eval levels) = eval (levels + 1) e expected ∧
      (e.isCollection = false → p.Reporting)) ∧
    (∀ c m', ComesTo levels e expected m c m' → c.Fails →
      (∃ halt, ((eval levels e expected).exec m).1 = .error halt) ∧
        (c.Reported m' ((eval levels e expected).exec m) ↔ c.reports = true)) ∧
    (((eval levels e expected).exec m).1 = .error (.fault .mixedElements) →
      ∃ c m', ComesTo levels e expected m c m' ∧ c.isElements = true ∧ c.Fails) := by
  refine ⟨exists_form levels e expected, fun c m' hcomes hc => ?_, fun h =>
    exists_comesTo (Prod.ext h rfl)⟩
  have hends := hcomes.ends hc
  exact ⟨hends.exists_halt, hends.reported_iff⟩

/-- A list with one number. -/
def oneElement : Expr :=
  .list { type := .list .int } [.literal { type := .int } (.int 1)]

/-- A list where a number is expected: the run comes to a check that fails and is not reported. -/
theorem mismatch_oneElement :
    ((eval 2 oneElement .int).exec {}).1 = .error (.fault .mixedElements) ∧
      ∃ c m', ComesTo 2 oneElement .int {} c m' ∧ c.Fails ∧
        ¬c.Reported m' ((eval 2 oneElement .int).exec {}) := by
  have hfault : ((eval 2 oneElement .int).exec {}).1 = .error (.fault .mixedElements) := rfl
  obtain ⟨-, hchecks, hmixed⟩ := mismatch_reported_iff 2 oneElement .int {}
  obtain ⟨c, m', hcomes, helements, hc⟩ := hmixed hfault
  refine ⟨hfault, c, m', hcomes, hc, fun hreported => ?_⟩
  have hreports := (hchecks c m' hcomes hc).2.mp hreported
  cases c with
  | value _ _ _ => cases helements
  | elements _ _ => cases hreports

/-- No mismatch is reported for a list where a number is expected, but a fault that nothing in the
program handles. -/
theorem list_mismatch_unhandled :
    (executeDirect "let x: int = [1]; x" .initial).1.toOption =
      some { before := [("Unhandled exception while interpreting: ", .fault .mixedElements)],
             tail := "\n" } := by
  decide +kernel

end TableScript.EvalM
