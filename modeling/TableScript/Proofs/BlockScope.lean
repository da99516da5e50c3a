import TableScript.Proofs.SteadySteps
import TableScript.Script

/-!
# Names bound in blocks

The blocks of an expression have no scope of their own: the branches of an `if`, the guards and the
bodies of the cases of a `match` and the names in its patterns bind names in the scope around the
expression.

* `Expr.binds` says which names an expression can bind in the scope around it. Bodies of functions
  and of loops have scopes of their own, and everything else is evaluated where it stands.
* `Keeps name x` says that the step `x` leaves what a name stands for as it is. An expression keeps
  every name that it does not bind (`keeps_eval`), whether it gives a value or halts.
* `Reaches` leads from an expression to the expressions that are evaluated last, in whose place its
  own scope ends: the statements after a `let`, the branch that is taken, the body of a case.

`scope_after_blocks` puts the two together: after an `if` or a `match`, a name stands for what it
stood for before its blocks unless a block binds it, and a name that a block has bound stands for
the value that it was given there.
-/

namespace TableScript

/-! ## The names that an expression binds -/

variable {alternatives : List (Pattern Expr × Expr)}

namespace Expr

mutual

/-- Can an expression bind a name in the scope around it? -/
def binds (name : String) : Expr → Bool
  | missing | unknown _ | literal _ _ | lambda _ _ _ _ | ref _ _ | range _ _ _ | schema _ _ => false
  | bind _ names _ bound rest =>
    names.contains name || binds name bound || bindsOption name rest
  | typeAlias _ _ _ rest => binds name rest
  | apply _ function arguments => binds name function || bindsAny name arguments
  | cases _ subject alternatives => binds name subject || bindsCases name alternatives
  | prim _ _ left right => binds name left || binds name right
  | branch _ condition yes no => binds name condition || binds name yes || bindsOption name no
  | loop _ _ iterable _ rest => binds name iterable || bindsOption name rest
  | list _ elements | tuple _ elements => bindsAny name elements
  | dict _ entries => bindsEntries name entries

/-- Can an expression bind a name that may be left out? -/
def bindsOption (name : String) : Option Expr → Bool
  | none => false
  | some e => binds name e

/-- Can one of the expressions bind a name? -/
def bindsAny (name : String) : List Expr → Bool
  | [] => false
  | e :: es => binds name e || bindsAny name es

/-- Can a key or a value of a dictionary bind a name? -/
def bindsEntries (name : String) : List (Expr × Expr) → Bool
  | [] => false
  | (k, v) :: es => binds name k || binds name v || bindsEntries name es

/-- Can a pattern bind a name, or its guard? -/
def bindsPattern (name : String) : Pattern Expr → Bool
  | .type n _ guard => n == name || bindsOption name guard
  | .literal _ | .literals _ | .range _ _ _ | .any | .missing => false

/-- Can one of the cases bind a name? -/
def bindsCases (name : String) : List (Pattern Expr × Expr) → Bool
  | [] => false
  | (pattern, body) :: rest =>
    bindsPattern name pattern || binds name body || bindsCases name rest

end

variable {name : String}

theorem bindsOption_eq_false {e : Option Expr} :
    bindsOption name e = false ↔ ∀ d ∈ e, d.binds name = false := by
  cases e <;> simp [bindsOption]

theorem bindsAny_eq_false {es : List Expr} :
    bindsAny name es = false ↔ ∀ e ∈ es, e.binds name = false := by
  induction es with
  | nil => simp [bindsAny]
  | cons e es ih => simp [bindsAny, ih]

theorem bindsEntries_eq_false {es : List (Expr × Expr)} :
    bindsEntries name es = false ↔ ∀ e ∈ es, e.1.binds name = false ∧
      e.2.binds name = false := by
  induction es with
  | nil => simp [bindsEntries]
  | cons e es ih => simp [bindsEntries, ih]

theorem bindsPattern_eq_false {pattern : Pattern Expr} : bindsPattern name pattern = false ↔
    (∀ n ∈ patternNames pattern, name ≠ n) ∧ ∀ d ∈ guards pattern,
      d.binds name = false := by
  cases pattern with
  | type n type guard =>
    simp [bindsPattern, patternNames, guards, bindsOption_eq_false, eq_comm (a := n)]
  | _ => simp [bindsPattern, patternNames, guards]

theorem bindsCases_eq_false :
    bindsCases name alternatives = false ↔
      (∀ a ∈ alternatives, ∀ n ∈ patternNames a.1, name ≠ n) ∧
        ∀ a ∈ alternatives, ∀ d ∈ a.2 :: guards a.1, d.binds name = false := by
  induction alternatives with
  | nil => simp [bindsCases]
  | cons a alternatives ih =>
    simp only [bindsCases, Bool.or_eq_false_iff, bindsPattern_eq_false, ih, List.forall_mem_cons]
    tauto

theorem binds_eq_false {e : Expr} (h : e.binds name = false) :
    (∀ d ∈ e.parts, d.binds name = false) ∧ ∀ n ∈ e.names, name ≠ n := by
  cases e with
  | bind note names type bound rest =>
    simp only [binds, Bool.or_eq_false_iff, bindsOption_eq_false] at h
    refine ⟨List.forall_mem_cons.mpr ⟨h.1.2, by simpa using h.2⟩, ?_⟩
    rintro n hn rfl
    exact Bool.false_ne_true (h.1.1.symm.trans (List.contains_iff_mem.mpr hn))
  | cases note subject alternatives =>
    simp only [binds, Bool.or_eq_false_iff, bindsCases_eq_false] at h
    refine ⟨List.forall_mem_cons.mpr ⟨h.1, ?_⟩, ?_⟩
    · intro d hd
      obtain ⟨a, ha, hd⟩ := List.mem_flatMap.mp hd
      exact h.2.2 a ha d hd
    · intro n hn
      obtain ⟨a, ha, hn⟩ := List.mem_flatMap.mp hn
      exact h.2.1 a ha n hn
  | branch note condition yes no =>
    cases no <;> simp_all [binds, bindsOption, parts, names]
  | dict note entries =>
    refine ⟨fun d hd => ?_, by simp [names]⟩
    obtain ⟨e, he, hd⟩ := List.mem_flatMap.mp hd
    have h := bindsEntries_eq_false.mp h e he
    rcases List.mem_pair.mp hd with rfl | rfl
    · exact h.1
    · exact h.2
  | _ => simp_all [binds, parts, names, bindsOption_eq_false, bindsAny_eq_false]

end Expr

/-! ## Names that a scope keeps -/

namespace Scope

variable {α τ : Type}

theorem get?_add (s : Scope α τ) (name n : String) (a : α) :
    (s.add name a).get? n = if n = name then some a else s.get? n :=
  lookup_rebind name a n s.names

theorem alias?_addAlias (s : Scope α τ) (name n : String) (t : τ) :
    (s.addAlias name t).alias? n = if n = name then some t else s.alias? n :=
  lookup_rebind name t n s.aliases

end Scope

namespace EvalM

variable {α β : Type} {name : String}

/-- A step leaves what a name stands for as it is, whatever its outcome. -/
def Keeps (name : String) (x : EvalM α) : Prop :=
  ∀ m, (x.exec m).2.scope.get? name = m.scope.get? name

variable {m' : Machine}

namespace Keeps

variable {x : EvalM α} {f : α → EvalM β}

theorem of_exec (h : x.Keeps name) {m : Machine} {r : Except Halt α} (hx : x.exec m = (r, m')) :
    m'.scope.get? name = m.scope.get? name := by
  have := h m
  rwa [hx] at this

theorem bind (hx : x.Keeps name) (hf : ∀ a, (f a).Keeps name) : (x >>= f).Keeps name := by
  intro m
  rcases h : x.exec m with ⟨halt | a, m₁⟩
  · rw [exec_bind_halt h]
    exact hx.of_exec h
  · rw [exec_bind_of h, hf a m₁]
    exact hx.of_exec h

theorem after_bind (x : EvalM α) (hf : ∀ a, (f a).Keeps name) (m : Machine) :
    ((x >>= f).exec m).2.scope.get? name = (x.exec m).2.scope.get? name := by
  rcases h : x.exec m with ⟨halt | a, m₁⟩
  · rw [exec_bind_halt h]
  · rw [exec_bind_of h, hf a m₁]

theorem ite (c : Prop) [Decidable c] {y : EvalM α} (hx : x.Keeps name) (hy : y.Keeps name) :
    (if c then x else y).Keeps name := by
  split
  · exact hx
  · exact hy

theorem pure (a : α) : (pure a : EvalM α).Keeps name := fun _ => rfl

theorem fault (f : Fault) : (fault f : EvalM α).Keeps name := fun _ => rfl

theorem report (text : String) (position : Option Position) :
    (report text position : EvalM α).Keeps name := by
  cases position with
  | none => exact fault _
  | some p => exact fun _ => rfl

theorem bindName {n : String} (hn : name ≠ n) (r : Ref) : (bindName n r).Keeps name := by
  intro m
  exact (Scope.get?_add m.scope n name r).trans (if_neg hn)

theorem inCall (position : Position) (hx : x.Keeps name) : (inCall position x).Keeps name := by
  intro m
  have h := hx { m with trace := position :: m.trace }
  rw [exec_inCall]
  generalize x.exec { m with trace := position :: m.trace } = outcome at h ⊢
  obtain ⟨_ | a, m'⟩ := outcome <;> exact h

theorem ofExcept (r : Except Fault α) : (ofExcept r).Keeps name := by
  cases r with
  | error f => exact fault f
  | ok a => exact pure a

theorem checkWith {mismatch : String → EvalM Unit} (h : ∀ text, (mismatch text).Keeps name)
    (found expected : PlacedType) : (checkWith mismatch found expected).Keeps name := by
  unfold EvalM.checkWith
  split
  · exact pure _
  · exact pure _
  · exact (ofExcept _).bind fun text => (h text).bind fun _ => pure _

end Keeps

/-- A name is kept by steps whose parts keep it. Nothing that is done in a scope of its own changes
what the name stands for outside. -/
def keeping (name : String) : Congruence where
  Holds x _ := x.Keeps name
  Binds n := name ≠ n
  Inside := False
  Edits := True
  Elements := True
  holds_pure := .pure
  holds_bind := .bind
  holds_fault _ := .fault _
  holds_report := .report
  holds_get _ h := .bind (fun _ => rfl) h
  holds_make _ := fun _ => rfl
  holds_aside := by
    intro α f _ hf m
    obtain ⟨console, input, random, aliases, h⟩ := hf m
    exact congrArg (·.scope.get? name) h
  holds_bindName h := .bindName h
  holds_inScope _ _ := fun _ => rfl
  holds_inCall := .inCall
  holds_check position := .checkWith fun text => .report text position
  holds_checkElements _ := .checkWith fun _ => .fault _
  holds_readingFile _ _ h := h.elim
  holds_writingFile _ _ _ h := h.elim

/-- Does a value have the type of a pattern? -/
def patternFits (r : Ref) (body : Expr) (type : TypeRef) : EvalM Bool := do
  needPlace body
  fits (← typeOf r) type

/-- The answer of a guard; without one it is yes. -/
def askGuard (eval : Primitive.Evaluator) : Option Expr → EvalM Bool
  | none => return true
  | some g => do
    match ← content (← eval g .bool) with
    | .bool b => return b
    | _ => return false

variable {e : Expr} {m : Machine} {levels : Nat}

theorem matchPattern_type (eval : Primitive.Evaluator) (r : Ref) (body : Expr) (n : String)
    (type : TypeRef) (guard : Option Expr) :
    matchPattern eval r body (.type n type guard) = (do
      if ← patternFits r body type then
        bindName n r
        askGuard eval guard
      else return false) := by
  rw [patternFits, bind_assoc]
  simp only [bind_assoc]
  cases guard <;> rfl

theorem keeps_askGuard {eval : Primitive.Evaluator} {guard : Option Expr}
    (hg : ∀ g ∈ guard, (eval g .bool).Keeps name) : (askGuard eval guard).Keeps name := by
  cases guard with
  | none => exact .pure true
  | some g =>
    refine .bind (hg g rfl) fun b => .bind (fun _ => rfl) fun c => ?_
    cases c <;> exact .pure _

/-! ## Runs -/

theorem keeps_ascend : ascend.Keeps name := fun _ => rfl

/-- A name that an expression does not bind is what it was before. -/
theorem keeps_eval (levels : Nat) (he : e.binds name = false) (expected : TypeRef) :
    (eval levels e expected).Keeps name :=
  Congruence.steady_eval (K := keeping name) trivial trivial (fun _ => rfl) (fun _ => rfl)
    (fun _ h => (Expr.binds_eq_false h).1) (fun _ h => (Expr.binds_eq_false h).2) False.elim levels
    he expected

theorem keeps_evalAlternatives (levels : Nat) (ha : Expr.bindsCases name alternatives = false)
    (note : Note) (r : Ref) (expected : TypeRef) :
    (evalAlternatives (eval levels) note r expected alternatives).Keeps name := by
  obtain ⟨hnames, hparts⟩ := Expr.bindsCases_eq_false.mp ha
  exact @Congruence.together_evalAlternatives (keeping name) note expected (eval levels)
    (eval levels) r _ hnames fun a hm d hd t => keeps_eval levels (hparts a hm d hd) t

theorem scope_eval_succ (hm : m.depth < depthLimit) (levels : Nat) (e : Expr) (expected : TypeRef) :
    ((eval (levels + 1) e expected).exec m).2.scope =
      ((step (eval levels) e expected).exec (deeper m)).2.scope := by
  rw [eval, exec_bind_of (exec_descend hm e), exec_bind]
  rcases (step (eval levels) e expected).exec (deeper m) with ⟨halt | r, m'⟩
  · rfl
  · rfl

/-! ## Where a scope ends -/

/-- Cases that are tried in turn and do not match, and the cases that are left then. -/
inductive Refuses (levels : Nat) (r : Ref) :
    List (Pattern Expr × Expr) → Machine → List (Pattern Expr × Expr) → Machine → Prop
  | here {alternatives : List (Pattern Expr × Expr)} {m : Machine} :
    Refuses levels r alternatives m alternatives m
  | next {pattern : Pattern Expr} {body : Expr} {rest left : List (Pattern Expr × Expr)}
    {m m₁ m' : Machine}
    (hpattern : (matchPattern (eval levels) r body pattern).exec m = (.ok false, m₁))
    (hrest : Refuses levels r rest m₁ left m') :
    Refuses levels r ((pattern, body) :: rest) m left m'

/-- The evaluation of the one expression, in a machine and with levels left, comes to that of the
other one and ends with it: as the statement after a statement, the branch that is taken or the body
of the case that matches. -/
inductive Reaches (expected : TypeRef) : Nat → Expr → Machine → Nat → Expr →
    Machine → Prop
  | here {levels : Nat} {e : Expr} {m : Machine} : Reaches expected levels e m levels e m
  | bind {levels levels' : Nat} {note : Note} {names : List String} {type : TypeRef}
    {bound rest e : Expr} {r : Ref} {m m₁ m₂ m' : Machine} (hm : m.depth < depthLimit)
    (hbound : (eval levels bound type).exec (deeper m) = (.ok r, m₁))
    (hnames : (bindNames note.position names r).exec m₁ = (.ok (), m₂))
    (hrest : Reaches expected levels rest m₂ levels' e m') :
    Reaches expected (levels + 1) (.bind note names type bound (some rest)) m levels' e m'
  | typeAlias {levels levels' : Nat} {note : Note} {given : Option String} {type : TypeRef}
    {rest e : Expr} {m m' : Machine} (hm : m.depth < depthLimit)
    (hrest : Reaches expected levels rest
      { deeper m with scope := m.scope.addAlias (given.getD "") type } levels' e m') :
    Reaches expected (levels + 1) (.typeAlias note given type rest) m levels' e m'
  | loop {levels levels' place : Nat} {note : Note} {element : Option String}
    {iterable body rest e : Expr} {r : Ref} {results : List Unit} {m m₁ m₂ m₃ m' : Machine}
    (hm : m.depth < depthLimit)
    (hiterable : (eval levels iterable .unknown).exec (deeper m) = (.ok r, m₁))
    (helements : (elements "for" r note.position).exec m₁ = (.ok place, m₂))
    (hne : (m₂.store.sequence place).isEmpty = false)
    (hloop : (visit place (runBody (eval levels) (element.getD "") body)).exec m₂ =
      (.ok results, m₃))
    (hrest : Reaches expected levels rest m₃ levels' e m') :
    Reaches expected (levels + 1) (.loop note element iterable body (some rest)) m levels' e m'
  | branch {levels levels' : Nat} {note : Note} {condition yes e : Expr}
    {no : Option Expr} {r : Ref} {b : Bool} {m m₁ m' : Machine} (hm : m.depth < depthLimit)
    (hcondition : (eval levels condition .bool).exec (deeper m) = (.ok r, m₁))
    (hb : m₁.store.content r = .bool b)
    (htaken : Reaches expected levels (if b then yes else no.getD .missing) m₁ levels' e m') :
    Reaches expected (levels + 1) (.branch note condition yes no) m levels' e m'
  | case {levels levels' : Nat} {note : Note} {subject body e : Expr}
    {alternatives rest : List (Pattern Expr × Expr)} {pattern : Pattern Expr} {r : Ref}
    {m m₁ m₂ m₃ m' : Machine} (hm : m.depth < depthLimit)
    (hsubject : (eval levels subject .any).exec (deeper m) = (.ok r, m₁))
    (hrefused : Refuses levels r alternatives m₁ ((pattern, body) :: rest) m₂)
    (hpattern : (matchPattern (eval levels) r body pattern).exec m₂ = (.ok true, m₃))
    (htaken : Reaches expected levels body m₃ levels' e m') :
    Reaches expected (levels + 1) (.cases note subject alternatives) m levels' e m'

theorem Refuses.exec_eq {r : Ref} {left : List (Pattern Expr × Expr)}
    (h : Refuses levels r alternatives m left m') (note : Note) (expected : TypeRef) :
    (evalAlternatives (eval levels) note r expected alternatives).exec m =
      (evalAlternatives (eval levels) note r expected left).exec m' := by
  induction h with
  | here => rfl
  | next hpattern hrest ih =>
    rw [evalAlternatives, exec_bind_of hpattern]
    exact ih

theorem Reaches.scope_eq {expected : TypeRef} {levels' : Nat} {e' : Expr}
    (h : Reaches expected levels e m levels' e' m') :
    ((eval levels e expected).exec m).2.scope = ((eval levels' e' expected).exec m').2.scope := by
  induction h with
  | here => rfl
  | bind hm hbound hnames hrest ih =>
    rw [scope_eval_succ hm, step, evalBind, exec_bind_of hbound, exec_bind_of hnames]
    exact ih
  | typeAlias hm hrest ih =>
    rw [scope_eval_succ hm]
    exact ih
  | @loop _ _ place _ _ _ _ _ _ _ _ _ _ m₂ _ _ hm hiterable helements hne hloop hrest ih =>
    rw [scope_eval_succ hm, step, evalLoop, exec_bind_of hiterable, exec_bind_of helements,
      exec_bind_sequence, hne, if_neg Bool.false_ne_true, exec_bind_of hloop]
    exact ih
  | @branch levels _ _ _ yes _ no _ b _ m₁ _ hm hcondition hb htaken ih =>
    rw [scope_eval_succ hm, step, evalBranch, exec_bind_of hcondition,
      exec_bind_content, hb, ← ih]
    cases b <;> rfl
  | case hm hsubject hrefused hpattern htaken ih =>
    rw [scope_eval_succ hm, step, evalCases, exec_bind_of hsubject, hrefused.exec_eq,
      evalAlternatives, exec_bind_of hpattern]
    exact ih

/-- An evaluation leaves a name standing for a value that one of its blocks has bound it to, since
nothing that is evaluated afterwards binds the name again. -/
inductive Leaves (expected : TypeRef) (levels : Nat) (e : Expr) (m : Machine) (name : String) :
    Ref → Prop
  /-- The name is bound by a `let`. -/
  | bound {levels' : Nat} {note : Note} {type : TypeRef} {bound : Expr}
    {rest : Option Expr} {r : Ref} {m₁ m₂ : Machine}
    (hreaches : Reaches expected levels e m (levels' + 1) (.bind note [name] type bound rest) m₁)
    (hm : m₁.depth < depthLimit)
    (hbound : (eval levels' bound type).exec (deeper m₁) = (.ok r, m₂))
    (hrest : Expr.bindsOption name rest = false) :
    Leaves expected levels e m name r
  /-- The name is bound by a type pattern, whether its case is taken or not. -/
  | pattern {levels' : Nat} {note : Note} {subject body : Expr} {type : TypeRef}
    {guard : Option Expr} {alternatives rest : List (Pattern Expr × Expr)} {r : Ref}
    {m₁ m₂ m₃ m₄ : Machine}
    (hreaches : Reaches expected levels e m (levels' + 1) (.cases note subject alternatives) m₁)
    (hm : m₁.depth < depthLimit)
    (hsubject : (eval levels' subject .any).exec (deeper m₁) = (.ok r, m₂))
    (hrefused : Refuses levels' r alternatives m₂ ((.type name type guard, body) :: rest) m₃)
    (hfits : (patternFits r body type).exec m₃ = (.ok true, m₄))
    (hguard : Expr.bindsOption name guard = false) (hbody : body.binds name = false)
    (hrest : Expr.bindsCases name rest = false) :
    Leaves expected levels e m name r

theorem get?_of_keeps {x : EvalM α} (hx : x.Keeps name) (m : Machine) (r : Ref) :
    (x.exec { m with scope := m.scope.add name r }).2.scope.get? name = some r := by
  rw [hx]
  exact (Scope.get?_add m.scope name name r).trans (if_pos rfl)

theorem Leaves.get?_eq {expected : TypeRef} {r : Ref} (h : Leaves expected levels e m name r) :
    ((eval levels e expected).exec m).2.scope.get? name = some r := by
  cases h with
  | @bound levels' note type bound rest _ m₁ m₂ hreaches hm hbound hrest =>
    rw [hreaches.scope_eq, scope_eval_succ hm, step]
    cases rest with
    | none =>
      rw [evalBind, exec_bind_of hbound]
      exact get?_of_keeps (x := newNone) (fun _ => rfl) m₂ r
    | some e =>
      rw [evalBind, exec_bind_of hbound]
      exact get?_of_keeps (keeps_eval levels' hrest expected) m₂ r
  | @pattern levels' note subject body type guard alternatives rest _ m₁ m₂ m₃
      m₄ hreaches hm hsubject hrefused hfits hguard hbody hrest =>
      have heval : ∀ e t, e.binds name = false → (eval levels' e t).Keeps name :=
        fun e t he => keeps_eval levels' he t
      -- The pattern binds the name before its guard is asked, and nothing after that binds it.
      have hafter : (do
          if ← askGuard (eval levels') guard then eval levels' body expected
          else evalAlternatives (eval levels') note r expected rest : EvalM Ref).Keeps name :=
        .bind (keeps_askGuard fun g hg => heval g .bool (Expr.bindsOption_eq_false.mp hguard g hg))
          fun _ => .ite _ (heval body expected hbody)
            (keeps_evalAlternatives levels' hrest note r _)
      rw [hreaches.scope_eq, scope_eval_succ hm, step, evalCases, exec_bind_of hsubject,
        hrefused.exec_eq, evalAlternatives, matchPattern_type, bind_assoc, exec_bind_of hfits,
        if_pos rfl, bind_assoc]
      exact get?_of_keeps hafter m₄ r

/-- Names after an `if` or a `match`. A name that no block binds stands for what it stood for when
the condition, or the subject, had been evaluated; this is so whether a value is given or not. A
name that a block has bound stands for the value that it was given there. -/
theorem scope_after_blocks (levels : Nat) (expected : TypeRef) (m : Machine) (name : String) :
    (∀ note condition yes no, yes.binds name = false → Expr.bindsOption name no = false →
      ((eval (levels + 1) (.branch note condition yes no) expected).exec m).2.scope.get? name =
        ((do
          descend (.branch note condition yes no)
          eval levels condition .bool : EvalM Ref).exec m).2.scope.get? name) ∧
    (∀ note subject alternatives, Expr.bindsCases name alternatives = false →
      ((eval (levels + 1) (.cases note subject alternatives) expected).exec m).2.scope.get? name =
        ((do
          descend (.cases note subject alternatives)
          eval levels subject .any : EvalM Ref).exec m).2.scope.get? name) ∧
    ∀ e r, Leaves expected levels e m name r →
      ((eval levels e expected).exec m).2.scope.get? name = some r := by
  have hend : ∀ r, (do ascend; return r : EvalM Ref).Keeps name :=
    fun r => .bind keeps_ascend fun _ => .pure r
  refine ⟨fun note condition yes no hyes hno => ?_, fun note subject alternatives ha => ?_,
    fun e r h => h.get?_eq⟩
  · rw [eval, step, evalBranch, bind_assoc, ← bind_assoc]
    have hblock : ∀ t, (eval levels (no.getD .missing) t).Keeps name := by
      intro t
      cases no with
      | some e => exact keeps_eval levels hno t
      | none => exact keeps_eval levels rfl t
    exact Keeps.after_bind _ (fun r => .bind (@Congruence.together_blocks (keeping name) expected
      (eval levels) (eval levels) _ (fun t => keeps_eval levels hyes t) _ hblock r) hend) m
  · rw [eval, step, evalCases, bind_assoc, ← bind_assoc]
    exact Keeps.after_bind _
      (fun r => .bind (keeps_evalAlternatives levels ha note r expected) hend) m

/-- A case whose pattern binds a name and whose guard says no, and one that matches everything. -/
def refusedCase : List (Pattern Expr × Expr) :=
  [(.type "b" .int (some (.literal { type := .bool } (.bool false))),
      .literal { type := .int } (.int 0)),
    (.any, .literal { type := .int } (.int 7))]

/-- A block that binds a name anew and asks for a case that is not taken. -/
def rebindingBlock : Expr :=
  .bind {} ["a"] .int (.literal { type := .int } (.int 5))
    (some (.cases {} (.ref {} (.ident "a")) refusedCase))

/-- A condition that holds. -/
def holding : Expr :=
  .literal { type := .bool } (.bool true)

/-- A name that stands for a number. -/
def oneName : Machine where
  store := { objects := #[⟨.int, .int 1⟩] }
  scope := ({} : Scope Ref TypeRef).add "a" ⟨0⟩

/-- The outer name stands for another value afterwards, and the name in the refused case is there; a
name that no block binds is as it was. -/
theorem scope_after_blocks_rebindingBlock :
    ((eval (4 + 1) (.branch {} holding rebindingBlock none) .any).exec oneName).2.scope.get? "a" =
        some ⟨2⟩ ∧
      ((eval (4 + 1) (.branch {} holding rebindingBlock none) .any).exec oneName).2.scope.get? "b" =
        some ⟨2⟩ ∧
      ((eval (4 + 1) (.branch {} holding rebindingBlock none) .any).exec oneName).2.scope.get? "c" =
        none := by
  have hbound : Leaves .any (4 + 1) (.branch {} holding rebindingBlock none) oneName "a" ⟨2⟩ :=
    .bound (.branch (b := true) (by decide) rfl rfl .here) (by decide) rfl (by decide)
  have hpattern : Leaves .any (4 + 1) (.branch {} holding rebindingBlock none)
    oneName "b" ⟨2⟩ :=
    .pattern (.branch (b := true) (by decide) rfl rfl (.bind (by decide) rfl rfl .here)) (by decide)
      rfl .here rfl (by decide) (by decide) (by decide)
  have hkept := (scope_after_blocks 4 .any oneName "c").1 {} holding rebindingBlock none (by decide)
    (by decide)
  refine ⟨(scope_after_blocks (4 + 1) .any oneName "a").2.2 _ _ hbound,
    (scope_after_blocks (4 + 1) .any oneName "b").2.2 _ _ hpattern, ?_⟩
  rw [hkept]
  decide +kernel

/-- What is bound inside the branch is what the name stands for behind it. -/
theorem branch_rebinds_outer_name :
    (executeDirect "let a = 1; let r = if (true) { let a = 5; a } else { 0 }; a"
      .initial).1.toOption = some { tail := "5" } := by
  decide +kernel

end EvalM

end TableScript
