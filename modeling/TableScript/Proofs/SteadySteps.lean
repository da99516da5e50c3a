import TableScript.Proofs.SteadyBuiltins

/-!
# Expressions and congruences

A congruence holds of one level of evaluation if it holds of the evaluations of the parts
(`together_step`). There is a lemma for each form of expression; what a form does besides evaluating
its parts is steady.

* `Expr.parts`: the expressions that are evaluated in the scope around an expression. The bodies of
  functions and loops are not among them.
* `Expr.names`: the names that an expression binds itself.
-/

namespace TableScript

namespace Expr

/-- The guard of a pattern, if it has one. -/
def guards : Pattern Expr → List Expr
  | .type _ _ guard => guard.toList
  | _ => []

/-- The name that a pattern binds. -/
def patternNames : Pattern Expr → List String
  | .type name _ _ => [name]
  | _ => []

/-- The parts of an expression that are evaluated in the scope around it. -/
def parts : Expr → List Expr
  | bind _ _ _ bound rest => bound :: rest.toList
  | typeAlias _ _ _ rest => [rest]
  | apply _ function arguments => function :: arguments
  | cases _ subject alternatives => subject :: alternatives.flatMap fun a => a.2 :: guards a.1
  | prim _ _ left right => [left, right]
  | branch _ condition yes no => [condition, yes, no.getD .missing]
  | loop _ _ iterable _ rest => iterable :: rest.toList
  | list _ elements | tuple _ elements => elements
  | dict _ entries => entries.flatMap fun e => [e.1, e.2]
  | _ => []

/-- The names that an expression binds in the scope around it, those of its parts left aside. -/
def names : Expr → List String
  | bind _ names _ _ _ => names
  | cases _ _ alternatives => alternatives.flatMap fun a => patternNames a.1
  | _ => []

/-- Does an expression define a list or a dictionary? -/
def isCollection : Expr → Bool
  | list _ _ | dict _ _ => true
  | _ => false

end Expr

namespace EvalM.Congruence

open Primitive TableScript.Expr

variable {K : Congruence}

/-- The congruence holds of the evaluations of an expression. -/
def Akin (K : Congruence) (eval eval' : Evaluator) (e : Expr) : Prop :=
  ∀ t, K.Together (eval e t) (eval' e t)

/-! ## Forms without parts -/

theorem steady_noteOf (e : Expr) : K.Steady (noteOf e) := by
  unfold noteOf
  split
  · exact .pure _
  · exact .fault _ rfl

theorem steady_expecting (position : Option Position) (expected : TypeRef) (r : Ref) :
    K.Steady (expecting position expected r) := by
  refine .bind (.typeOf r) fun t => .bind (.conforms position t expected) fun fits => ?_
  split
  · exact .pure r
  · exact .newNone

variable (note : Note) (expected : TypeRef)

theorem steady_evalLiteral (l : Literal) : K.Steady (evalLiteral note l expected) := by
  refine .bind (.conforms _ _ _) fun fits => ?_
  split
  · cases l <;> exact .new _ _
  · exact .report _ _

theorem steady_bindNames (position : Option Position) {names : List String}
    (h : ∀ n ∈ names, K.Binds n) (r : Ref) : K.Steady (bindNames position names r) := by
  unfold bindNames
  split
  · exact .bindName (h _ List.mem_cons_self) r
  · refine .bind (.content r) fun c => ?_
    split
    · exact .bind (.sequence _) fun refs => .forM fun p hp =>
        .bindName (h p.1 (List.of_mem_zip hp).1) p.2
    · exact .report _ _

theorem steady_evalLambda (hedits : K.Edits) (parameters : List Parameter) (body : Expr) :
    K.Steady (evalLambda note parameters body expected) := by
  refine .bind (.check _ _ _) fun found => ?_
  split
  · exact .newNone
  · refine .bind (steady_noteOf body) fun bodyNote => .bind (.readType _) fun bodyType =>
      .bind (K.holds_check _ _ bodyType) fun checked => ?_
    split
    · exact .newNone
    · exact .bind (.intern hedits _) fun type => .bind (.edit hedits _) fun body =>
        .get (fun _ _ => rfl) fun m => .new _ _
  · exact .newNone

theorem steady_evalRef (name : Name) : K.Steady (evalRef note name expected) :=
  .bind (.lookup _ _ _) fun r => steady_expecting _ _ r

theorem steady_evalRange (start stop : Option Literal) :
    K.Steady (evalRange note start stop expected) := by
  unfold evalRange
  split
  · split
    · exact .report _ _
    · refine .bind (.conforms _ _ _) fun fits => ?_
      split
      · exact .bind (.checkSize _) fun _ => .bind (.mapM .newInt _) fun refs => .newList _ refs
      · exact .newNone
  · exact .newNone

theorem steady_evalSchema (columns : List (Option String × TypeRef)) :
    K.Steady (evalSchema note columns expected) := by
  refine .bind (.conforms _ _ _) fun fits => ?_
  split
  · exact .bind (steady_newMembers _) fun members => steady_newSchema members _
  · exact .newNone

/-! ## Names and calls -/

section

variable {eval eval' : Evaluator} {rest : Option Expr} {elements : List Expr}

theorem together_evalBind {names : List String} (hn : ∀ n ∈ names, K.Binds n) (type : TypeRef)
    {bound : Expr} (hbound : K.Akin eval eval' bound)
    (hrest : ∀ e ∈ rest, K.Akin eval eval' e) :
    K.Together (evalBind eval note names type bound rest expected)
      (evalBind eval' note names type bound rest expected) := by
  refine .bind (hbound type) fun r => .bind (steady_bindNames _ hn r) fun _ => ?_
  cases rest with
  | some e => exact hrest e rfl expected
  | none => exact Steady.newNone

theorem together_evalAlias (name : Option String) (type : TypeRef) {rest : Expr}
    (hrest : K.Akin eval eval' rest) :
    K.Together (evalAlias eval name type rest expected) (evalAlias eval' name type rest expected) :=
  .bind (Steady.aside (fun _ _ => rfl) fun _ => ⟨_, _, _, _, rfl⟩) fun _ => hrest expected

theorem together_enter (hinside : K.Inside) (hedits : K.Edits) (h : ∀ e, K.Akin eval eval' e)
    (p : Position) (function : Ref) (c : Closure) :
    K.Together (enter eval (some p) function c) (enter eval' (some p) function c) := by
  unfold enter
  cases c.builtin with
  | some b => exact together_run hinside hedits h p b
  | none =>
    refine .bind (Steady.object function) fun o => ?_
    cases o.type with
    | func _ result => exact h c.body result
    | _ => exact Steady.fault _ rfl

theorem together_callFunction (hedits : K.Edits) (hi : K.Inside → ∀ e, K.Akin eval eval' e)
    (function : Ref) (type : TypeRef) (c : Closure) {arguments : List Expr}
    (ha : ∀ a ∈ arguments, K.Akin eval eval' a) :
    K.Together (callFunction eval note function type c arguments expected)
      (callFunction eval' note function type c arguments expected) := by
  unfold callFunction
  refine .ite _ ?_ ?_
  · exact Steady.bind (.mapM (fun p : String × TypeRef => .typeText p.2) _) fun _ => .report _ _
  cases type with
  | func _ _ =>
    refine .get (fun _ _ => rfl) fun m => .bind (.mapM fun p hp => ?_) fun values => ?_
    · exact .bind (ha p.1 (List.of_mem_zip hp).1 p.2.2) fun r => Steady.pure _
    · cases note.position with
      | none => exact Steady.fault _ rfl
      | some p =>
        -- The body is evaluated in the scope of the closure.
        exact .inCall p (.bind (.inScope _ fun h => together_enter h hedits (hi h) p function c)
          fun r => Steady.bind (.typeOf r) fun t => .bind (.conforms _ t expected) fun _ => .pure r)
  | _ => exact Steady.newNone

section

variable {arguments : List Expr} (ha : ∀ a ∈ arguments, K.Akin eval eval' a)
include ha

theorem together_indexArgument (kind : String) :
    K.Together (indexArgument eval note kind arguments)
      (indexArgument eval' note kind arguments) := by
  cases arguments with
  | nil => exact Steady.report _ _
  | cons a rest =>
    cases rest with
    | nil => exact .bind (ha a List.mem_cons_self .int) fun r => Steady.content r
    | cons _ _ => exact Steady.report _ _

theorem together_indexString (s : String) :
    K.Together (indexString eval note s arguments expected)
      (indexString eval' note s arguments expected) := by
  refine .bind (together_indexArgument note ha _) fun c => ?_
  cases c with
  | int i =>
    -- Nothing is evaluated any more, so from here on both are the same step.
    change K.Steady _
    dsimp only
    generalize (ite (i < 0) _ _ : Option Char) = c
    cases c with
    | some c => exact .bind (.newChar _) fun r => steady_expecting _ _ r
    | none => exact .report _ _
  | _ => exact Steady.newNone

theorem together_indexSequence (kind : String) (place : Nat) :
    K.Together (indexSequence eval note kind place arguments expected)
      (indexSequence eval' note kind place arguments expected) := by
  refine .bind (together_indexArgument note ha _) fun c => ?_
  cases c with
  | int i =>
    -- Nothing is evaluated any more, so from here on both are the same step.
    change K.Steady _
    dsimp only
    split
    · exact .bind (.pure none) (.option (fun r => steady_expecting _ _ r) (.report _ _))
    · exact .bind (.element? place _) (.option (fun r => steady_expecting _ _ r) (.report _ _))
  | _ => exact Steady.newNone

theorem together_indexDict (type : TypeRef) (entries : List (Ref × Ref)) :
    K.Together (indexDict eval note type entries arguments expected)
      (indexDict eval' note type entries arguments expected) := by
  cases arguments with
  | nil => exact Steady.report _ _
  | cons a rest =>
    cases rest with
    | cons _ _ => exact Steady.report _ _
    | nil =>
      cases type with
      | dict keyType _ =>
        refine .bind (ha a List.mem_cons_self keyType) fun key => .bind Steady.store fun s => ?_
        change K.Steady _
        dsimp only
        split
        · refine .bind (.typeOf _) fun t => .bind (.conforms _ t expected) fun fits => ?_
          split
          · exact .pure _
          · exact .bind (steady_noteOf a) fun _ => .report _ _
        · exact .bind (steady_noteOf a) fun _ => .report _ _
      | _ => exact Steady.newNone

theorem together_evalApply (hedits : K.Edits) (hi : K.Inside → ∀ e, K.Akin eval eval' e)
    {function : Expr} (hf : K.Akin eval eval' function) :
    K.Together (evalApply eval note function arguments expected)
      (evalApply eval' note function arguments expected) := by
  refine .bind (hf .unknown) fun r => .bind (Steady.object r) fun o => ?_
  cases o.content with
  | func c => exact together_callFunction note expected hedits hi r o.type c ha
  | string s => exact together_indexString note expected ha s
  | list place | tuple place => exact together_indexSequence note expected ha _ place
  | dict entries => exact together_indexDict note expected ha o.type entries
  | _ => exact Steady.bind (.typeText _) fun _ => .report _ _

end

theorem together_evalPrim (op : Operator) {left right : Expr} (hl : K.Akin eval eval' left)
    (hr : K.Akin eval eval' right) :
    K.Together (evalPrim eval note op left right expected)
      (evalPrim eval' note op left right expected) :=
  .bind (hl .any) fun a => .bind (hr .any) fun b =>
    Steady.bind (steady_operate _ op a b) fun r => steady_expecting _ _ r

/-! ## Cases, branches and loops -/

theorem steady_needPlace (body : Expr) : K.Steady (needPlace body) := by
  refine .bind (steady_noteOf body) fun note => ?_
  split
  · exact .fault _ rfl
  · exact .pure _

theorem steady_matchesLiteral (v : Value) (ls : List (Option Literal)) :
    K.Steady (matchesLiteral v ls) := by
  induction ls with
  | nil => exact .pure false
  | cons l rest ih =>
    cases l with
    | none => exact .fault _ rfl
    | some l =>
      unfold matchesLiteral
      split
      · exact .pure true
      · exact ih

theorem together_matchPattern (r : Ref) (body : Expr) {pattern : Pattern Expr}
    (hn : ∀ n ∈ patternNames pattern, K.Binds n)
    (hg : ∀ g ∈ guards pattern, K.Akin eval eval' g) :
    K.Together (matchPattern eval r body pattern) (matchPattern eval' r body pattern) := by
  cases pattern with
  | type name type guard =>
    refine .bind (steady_needPlace body) fun _ => .bind (Steady.typeOf r) fun t =>
      .bind (Steady.fits t type) fun fits => .ite _ ?_ (Steady.pure false)
    refine .bind (Steady.bindName (hn name List.mem_cons_self) r) fun _ => ?_
    cases guard with
    | none => exact Steady.pure true
    | some g =>
      refine .bind (hg g List.mem_cons_self .bool) fun b => Steady.bind (.content b) fun c => ?_
      cases c <;> exact .pure _
  | literal l | literals ls =>
    exact Steady.bind (steady_needPlace body) fun _ => .bind .store fun s =>
      steady_matchesLiteral _ _
  | range note start stop =>
    cases start with
    | none => exact Steady.pure false
    | some start =>
      cases start with
      | int a =>
        cases stop with
        | none => exact Steady.pure false
        | some stop =>
          cases stop with
          | int b =>
            refine Steady.bind (.checkSize _) fun _ => .bind (.content r) fun c => ?_
            cases c <;> exact .pure _
          | _ => exact Steady.pure false
      | _ => exact Steady.pure false
  | any => exact Steady.pure true
  | missing => exact Steady.bind (steady_noteOf body) fun _ => .report _ _

theorem together_evalAlternatives (r : Ref) {alternatives : List (Pattern Expr × Expr)}
    (hn : ∀ a ∈ alternatives, ∀ n ∈ patternNames a.1, K.Binds n)
    (hp : ∀ a ∈ alternatives, ∀ d ∈ a.2 :: guards a.1, K.Akin eval eval' d) :
    K.Together (evalAlternatives eval note r expected alternatives)
      (evalAlternatives eval' note r expected alternatives) := by
  induction alternatives with
  | nil => exact Steady.report _ _
  | cons alternative rest ih =>
    obtain ⟨hn, hns⟩ := List.forall_mem_cons.mp hn
    obtain ⟨hp, hps⟩ := List.forall_mem_cons.mp hp
    obtain ⟨hbody, hguard⟩ := List.forall_mem_cons.mp hp
    exact .bind (together_matchPattern r alternative.2 hn hguard) fun matched =>
      .ite _ (hbody expected) (ih hns hps)

theorem together_blocks {yes : Expr} (hyes : K.Akin eval eval' yes) {no : Option Expr}
    (hno : K.Akin eval eval' (no.getD .missing)) (r : Ref) :
    let blocks (eval : Evaluator) : EvalM Ref := do
      match ← content r with
      | .bool true => eval yes expected
      | .bool false => eval (no.getD .missing) expected
      | _ => newNone
    K.Together (blocks eval) (blocks eval') := by
  refine .bind (Steady.content r) fun c => ?_
  cases c with
  | bool b =>
    cases b with
    | true => exact hyes expected
    | false => exact hno expected
  | _ => exact Steady.newNone

theorem together_runBody (hedits : K.Edits) (hi : K.Inside → ∀ e, K.Akin eval eval' e)
    (name : String) (body : Expr) (r : Ref) :
    K.Together (runBody eval name body r) (runBody eval' name body r) :=
  .get (fun _ _ => rfl) fun _ => .bind (Steady.edit hedits _) fun _ =>
    .bind (.inScope _ fun h => hi h body .any) fun _ => Steady.pure ()

theorem together_evalLoop (hedits : K.Edits) (hi : K.Inside → ∀ e, K.Akin eval eval' e)
    (name : Option String) {iterable : Expr} (hiterable : K.Akin eval eval' iterable)
    (body : Expr) (hrest : ∀ e ∈ rest, K.Akin eval eval' e) :
    K.Together (evalLoop eval note name iterable body rest expected)
      (evalLoop eval' note name iterable body rest expected) := by
  refine .bind (hiterable .unknown) fun r => .bind (Steady.elements _ r _) fun place =>
    .bind (Steady.sequence place) fun refs => .ite _ Steady.newNone ?_
  refine .bind (.visit (together_runBody hedits hi _ body) place) fun _ => ?_
  cases rest with
  | some e => exact hrest e rfl expected
  | none => exact Steady.newNone

/-! ## Collections -/

theorem steady_allConform (position : Option Position) (first : TypeRef) (refs : List Ref) :
    K.Steady (allConform position first refs) := by
  induction refs with
  | nil => exact .pure true
  | cons r rest ih =>
    refine .bind (.typeOf r) fun t => .bind (.conforms position t first) fun fits => ?_
    split
    · exact ih
    · exact .pure false

theorem steady_commonType (position : Option Position) (refs : List Ref) :
    K.Steady (commonType position refs) := by
  cases refs with
  | nil => exact .pure _
  | cons first rest =>
    refine .bind (.typeOf first) fun t => .bind (steady_allConform position t _) fun fits => ?_
    split <;> exact .pure _

section

variable (he : ∀ e ∈ elements, K.Akin eval eval' e)

include he

theorem together_evalList (hedits : K.Edits) (hchecks : K.Elements) :
    K.Together (evalList eval note elements expected) (evalList eval' note elements expected) := by
  unfold evalList
  cases note.type with
  | list element =>
    refine .bind (.mapM fun e hm => he e hm element) fun refs =>
      Steady.bind (steady_commonType _ refs) fun t => .bind (.readType _) fun found =>
      .bind (.readType expected) fun wanted =>
      .bind (.checkElements hchecks found wanted) fun checked => ?_
    cases checked with
    | some t => exact .bind (.intern hedits t) fun type => .newList type refs
    | none => exact .newNone
  | _ => exact Steady.newNone

theorem together_evalMembers (place index : Nat) :
    K.Together (evalMembers eval place index elements)
      (evalMembers eval' place index elements) := by
  induction elements generalizing index with
  | nil => exact Steady.pure []
  | cons e rest ih =>
    obtain ⟨he, hrest⟩ := List.forall_mem_cons.mp he
    refine .bind Steady.store fun s => ?_
    cases (s.types.list place)[index]? with
    | none => exact Steady.pure []
    | some t => exact .bind (he t) fun r => .bind (ih hrest (index + 1)) fun refs => Steady.pure _

theorem together_evalTuple :
    K.Together (evalTuple eval note elements expected)
      (evalTuple eval' note elements expected) := by
  unfold evalTuple
  cases note.type with
  | tuple c =>
    refine .bind Steady.store fun s => .bind (together_evalMembers he _ 0) fun refs =>
      Steady.bind (.mapM (fun r => .bind (.typeOf r) fun t => .readType t) refs) fun types =>
      .bind (.readType expected) fun wanted =>
      .bind (K.holds_check _ _ wanted) fun checked => ?_
    cases checked with
    | some _ => exact .newTuple _ refs
    | none => exact .newNone
  | _ => exact Steady.newNone

end

theorem steady_allAlign (hchecks : K.Elements) (first : TypeRef) (refs : List Ref) :
    K.Steady (allAlign first refs) := by
  induction refs with
  | nil => exact .pure true
  | cons r rest ih =>
    refine .bind (.typeOf r) fun t => .bind (.readType t) fun found =>
      .bind (.readType first) fun wanted =>
      .bind (.checkElements hchecks found wanted) fun checked => ?_
    cases checked with
    | some _ => exact ih
    | none => exact .pure false

theorem steady_entryType (hchecks : K.Elements) (keys values : List Ref) :
    K.Steady (entryType keys values) := by
  unfold entryType
  split
  · refine .bind (.typeOf _) fun k => .bind (.typeOf _) fun v =>
      .bind (steady_allAlign hchecks k _) fun aligned => ?_
    split
    · refine .bind (steady_allAlign hchecks v _) fun aligned => ?_
      split <;> exact .pure _
    · exact .pure _
  · exact .pure _

theorem together_evalDict (hedits : K.Edits) (hchecks : K.Elements) {entries : List (Expr × Expr)}
    (he : ∀ e ∈ entries, K.Akin eval eval' e.1 ∧ K.Akin eval eval' e.2) :
    K.Together (evalDict eval note entries expected) (evalDict eval' note entries expected) := by
  unfold evalDict
  cases note.type with
  | dict keyType valueType =>
    refine .bind (.mapM fun e hm => (he e hm).1 keyType) fun keys =>
      .bind (.mapM fun e hm => (he e hm).2 valueType) fun values =>
      Steady.bind (steady_entryType hchecks keys values) fun t => .bind (.readType t) fun found =>
      .bind (.readType expected) fun wanted =>
      .bind (.checkElements hchecks found wanted) fun checked => ?_
    cases checked with
    | some t => exact .bind (.intern hedits t) fun type => .new type _
    | none => exact .newNone
  | _ => exact Steady.newNone

/-- Evaluation follows every congruence that its parts follow. -/
theorem together_step (hedits : K.Edits) (hi : K.Inside → ∀ e, K.Akin eval eval' e) {e : Expr}
    (hp : ∀ d ∈ e.parts, K.Akin eval eval' d) (hn : ∀ n ∈ e.names, K.Binds n)
    (hc : e.isCollection = true → K.Elements) :
    K.Together (step eval e expected) (step eval' e expected) := by
  cases e with
  | missing => exact Steady.fault _ rfl
  | unknown note => exact Steady.report _ _
  | literal note l => exact steady_evalLiteral note expected l
  | bind note names type bound rest =>
    obtain ⟨hbound, hrest⟩ := List.forall_mem_cons.mp hp
    exact together_evalBind note expected hn type hbound
      fun e he => hrest e (Option.mem_toList.mpr he)
  | typeAlias _ name type rest => exact together_evalAlias _ name type (hp rest List.mem_cons_self)
  | lambda note parameters _ body => exact steady_evalLambda note expected hedits parameters body
  | apply note function arguments =>
    obtain ⟨hf, ha⟩ := List.forall_mem_cons.mp hp
    exact together_evalApply note expected ha hedits hi hf
  | cases note subject alternatives =>
    obtain ⟨hsubject, ha⟩ := List.forall_mem_cons.mp hp
    exact .bind (hsubject .any) fun r => together_evalAlternatives note expected r
      (fun a hm n h => hn n (List.mem_flatMap_of_mem hm h))
      fun a hm d h => ha d (List.mem_flatMap_of_mem hm h)
  | prim note op left right =>
    exact together_evalPrim note expected op (hp left (by simp [parts]))
      (hp right (by simp [parts]))
  | ref note name => exact steady_evalRef note expected name
  | branch _ condition yes no =>
    exact .bind (hp condition (by simp [parts]) .bool) fun r =>
      together_blocks expected (hp yes (by simp [parts])) (hp (no.getD .missing) (by simp [parts]))
        r
  | loop note name iterable body rest =>
    obtain ⟨hiterable, hrest⟩ := List.forall_mem_cons.mp hp
    exact together_evalLoop note expected hedits hi name hiterable body
      fun e he => hrest e (Option.mem_toList.mpr he)
  | list note elements => exact together_evalList note expected hp hedits (hc rfl)
  | range note start stop => exact steady_evalRange note expected start stop
  | tuple note elements => exact together_evalTuple note expected hp
  | dict note entries =>
    refine together_evalDict note expected hedits (hc rfl) fun e hm => ⟨?_, ?_⟩
    · exact hp e.1 (List.mem_flatMap_of_mem hm List.mem_cons_self)
    · exact hp e.2 (List.mem_flatMap_of_mem hm (by simp))
  | schema note columns => exact steady_evalSchema note expected columns

end

/-! ## Runs -/

theorem steady_descend (hup : K.Steady (modify fun m => { m with depth := m.depth + 1 }))
    (e : Expr) : K.Steady (descend e) := by
  refine .bind hup fun _ => .get (fun _ _ => rfl) fun m => ?_
  split
  · exact .bind (steady_noteOf e) fun note => .report _ _
  · exact .pure _

theorem steady_eval {P : Expr → Prop} (hedits : K.Edits) (hchecks : K.Elements)
    (hup : K.Steady (modify fun m => { m with depth := m.depth + 1 })) (hdown : K.Steady ascend)
    (hparts : ∀ e, P e → ∀ d ∈ e.parts, P d)
    (hnames : ∀ e, P e → ∀ n ∈ e.names, K.Binds n)
    (hi : K.Inside → ∀ e, P e) (levels : Nat) {e : Expr} (he : P e) (expected : TypeRef) :
    K.Steady (eval levels e expected) := by
  induction levels generalizing e expected with
  | zero => exact .fault _ rfl
  | succ levels ih =>
    exact .bind (steady_descend hup e) fun _ => .bind (together_step expected
      hedits (fun h e => ih (hi h e)) (fun d hd => ih (hparts e he d hd)) (hnames e he)
      fun _ => hchecks) fun r => .bind hdown fun _ => .pure r

end EvalM.Congruence

end TableScript
