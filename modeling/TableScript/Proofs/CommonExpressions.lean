import TableScript.Proofs.Balance
import TableScript.Proofs.Extension
import TableScript.Value.Query

/-!
# Expressions that programs and queries share

Programs and queries are evaluated apart from each other: programs on a machine, with objects that
carry their types, and queries over the cells of a row. Both know literals, names and the operators
on single numbers, truth values and texts. On expressions made of these alone, evaluation where a
truth value is expected comes to the same in both (`eval_bool_iff_query`).

* `Matches` tells which expression of a query is that of a program.
* `Stands` tells which object is a value of a query. It has its own type.
* `Agree` are the two outcomes: both give a value that is the same, or both fail.
-/

namespace TableScript

/-! ## The same expressions -/

/-- The literal of a query. -/
def Literal.query? : Literal → Option Query.Literal
  | .int n => some (.int n)
  | .bool b => some (.bool b)
  | .char s => some (.char s)
  | .string s => some (.string s)
  | .none => Option.none

/-- The operator of queries. -/
def Operator.query? : Operator → Option Query.Operator
  | .plus => some .plus
  | .minus => some .minus
  | .times => some .times
  | .divide => some .divide
  | .modulo => some .modulo
  | .greater => some .greater
  | .less => some .less
  | .greaterEq => some .greaterEq
  | .lessEq => some .lessEq
  | .equal => some .equal
  | .notEqual => some .notEqual
  | .and => some .and
  | .or => some .or
  | .not | .concat => none

/-- An expression of a program and an expression of a query are the same. Before an operand, a minus
is one after zero in both. -/
inductive Matches : Expr → Query.Expr → Prop
  | literal {note : Note} {l : Literal} {l' : Query.Literal} (type : note.type = l.type)
    (same : l.query? = some l') : Matches (.literal note l) (.literal l')
  | ref (note : Note) (name : String) : Matches (.ref note (.ident name)) (.ref name)
  | prim {note : Note} {type : Query.Ty} {op : Operator} {op' : Query.Operator}
    {left right : Expr} {left' right' : Query.Expr} (same : op.query? = some op')
    (hleft : Matches left left') (hright : Matches right right') :
    Matches (.prim note op left right) (.prim type op' left' right')

namespace Query.Expr

/-- The names in an expression. -/
def names : Query.Expr → List String
  | .ref name => [name]
  | .prim _ _ left right => left.names ++ right.names
  | _ => []

/-- How deep the evaluations of an expression nest. -/
def height : Query.Expr → Nat
  | .prim _ _ left right => max left.height right.height + 1
  | _ => 1

end Query.Expr

/-! ## The same values -/

/-- Is it a number, a truth value or a text, and has its own type? -/
def Object.IsPlain (o : Object) : Prop :=
  match o.content with
  | .int _ => o.type = .int
  | .bool _ => o.type = .bool
  | .char _ => o.type = .char
  | .string _ => o.type = .string
  | _ => False

/-- An object and a value of a query are the same. -/
inductive Stands : Object → Query.Value → Prop
  | int (n : Int) : Stands ⟨.int, .int n⟩ (.int n)
  | bool (b : Bool) : Stands ⟨.bool, .bool b⟩ (.bool b)
  | char (s : String) : Stands ⟨.char, .char s⟩ (.char s)
  | string (s : String) : Stands ⟨.string, .string s⟩ (.string s)

namespace Stands

variable {s : Store} {a b r : Ref} {v w : Query.Value}

theorem content_ne (h : Stands (s.object r) v) : s.content r ≠ .none := by
  rw [Store.content]
  generalize s.object r = o at h ⊢
  cases h <;> simp

theorem mono {s' : Store} (h : Stands (s.object r) v) (hs : s.Extends s') :
    Stands (s'.object r) v := by
  rw [hs.object_eq h.content_ne]
  exact h

theorem of_toQuery (hplain : (s.object r).IsPlain) (h : (s.value r).toQuery = .ok v) :
    Stands (s.object r) v := by
  unfold Object.IsPlain at hplain
  unfold Store.value Store.valueTo Store.valueWith at h
  generalize s.object r = o at hplain h ⊢
  obtain ⟨type, content⟩ := o
  cases content with
  | int n => cases hplain; cases h; exact .int n
  | bool b => cases hplain; cases h; exact .bool b
  | char t => cases hplain; cases h; exact .char t
  | string t => cases hplain; cases h; exact .string t
  | _ => exact absurd hplain id

theorem same_eq (ha : Stands (s.object a) v) (hb : Stands (s.object b) w) :
    (s.value a).same (s.value b) = v.same w := by
  unfold Store.value Store.valueTo Store.valueWith
  generalize s.object a = o at ha ⊢
  generalize s.object b = o' at hb ⊢
  cases ha <;> cases hb <;> rfl

end Stands

/-! ## The same operators -/

/-- The value of an operator of a query, which is an error if there is none. -/
def Query.operateOn (op : Query.Operator) (v w : Query.Value) :
    Except Query.EvalError (Option Query.Value) := do
  match ← Query.operate op (some v) (some w) with
  | none => throw .noValue
  | some u => return some u

/-- A value where a type is expected in a query. -/
def Query.expecting (type : Query.Ty) : Option Query.Value →
    Except Query.EvalError (Option Query.Value)
  | none => throw .noValue
  | some v => do
    let _ ← Query.conform v.type type
    return some v

theorem Query.eval_prim (bindings : Query.Bindings) (noted : Query.Ty) (op : Query.Operator)
    (left right : Query.Expr) (type : Query.Ty) :
    Query.eval bindings (.prim noted op left right) type =
      Query.eval bindings left .unknown >>= fun a =>
        Query.eval bindings right .unknown >>= fun b =>
          Query.operate op a b >>= Query.expecting type := by
  rw [Query.eval]
  refine congrArg _ (funext fun a => congrArg _ (funext fun b => congrArg _ (funext ?_)))
  intro result
  cases result <;> rfl

theorem Query.operate_bind (op : Query.Operator) (v w : Query.Value) (type : Query.Ty) :
    Query.operate op (some v) (some w) >>= Query.expecting type =
      Query.operateOn op v w >>= Query.expecting type := by
  unfold Query.operateOn
  cases Query.operate op (some v) (some w) with
  | error err => rfl
  | ok result => cases result <;> rfl

namespace EvalM

/-- What a step of a program and an evaluation of a query come to: values that are the same, with
nothing else changed but what was added to the store, or a failure of both. -/
inductive Agree (m : Machine) :
    Except Halt Ref × Machine → Except Query.EvalError (Option Query.Value) → Prop
  | value {r : Ref} {store : Store} {v : Query.Value} (added : m.store.Extends store)
    (stands : Stands (store.object r) v) : Agree m (.ok r, { m with store }) (.ok (some v))
  | fails {halt : Halt} {m' : Machine} {err : Query.EvalError} :
    Agree m (.error halt, m') (.error err)

section

variable {m : Machine} {position : Option Position} {op : Operator} {op' : Query.Operator}
  {a b : Ref} {v w : Query.Value}

/-- The step of a program that the outcome of an operator of a query stands for. -/
def resultOf (position : Option Position) (op : Operator) :
    Except Query.EvalError (Option Query.Value) → EvalM Ref
  | .ok (some (.int n)) => newInt n
  | .ok (some (.bool b)) => newBool b
  | .ok (some (.char s)) => newChar s
  | .ok (some (.string s)) => newString s
  | .ok _ => report ("Invalid types for operator '" ++ op.text ++ "'") position
  | .error .divisionByZero => report "Division by zero" position
  | .error .quotientTooLarge => fault .quotientTooLarge
  | .error _ => fault .moduloByZero

theorem operate_ne_range (op' : Query.Operator) (v w : Option Query.Value) (start stop : Int) :
    Query.operate op' v w ≠ .ok (some (.range start stop)) := by
  unfold Query.operate
  split
  case h_8 a b =>
    split
    · simp
    · cases roundedQuotient a b <;> simp
  case h_9 => split <;> simp
  all_goals simp

variable {y : Except Query.EvalError (Option Query.Value)} {bindings : Query.Bindings}
  {name : String}

namespace Agree

theorem new {type : TypeRef} {content : Content} (h : Stands ⟨type, content⟩ v) :
    Agree m ((new type content).exec m) (.ok (some v)) := by
  rw [← m.store.object_add ⟨type, content⟩] at h
  exact .value (m.store.extends_add _) h

theorem report (text : String) (position : Option Position) (err : Query.EvalError) :
    Agree m ((report text position).exec m) (.error err) := by
  obtain ⟨halt, m', h, -⟩ := exec_report (α := Ref) text position m
  rw [h]
  exact .fails

theorem bind {x : EvalM Ref} {f : Ref → EvalM Ref}
    {g : Option Query.Value → Except Query.EvalError (Option Query.Value)}
    (h : Agree m (x.exec m) y)
    (hf : ∀ r store v, m.store.Extends store → Stands (store.object r) v →
      Agree { m with store } ((f r).exec { m with store }) (g (some v))) :
    Agree m ((x >>= f).exec m) (y >>= g) := by
  generalize hx : x.exec m = outcome at h
  cases h with
  | @value r store v added stands =>
    have hrest := hf r store v added stands
    rw [exec_bind_of hx]
    show Agree m _ (g (some v))
    generalize (f r).exec { m with store } = outcome at hrest ⊢
    generalize g (some v) = answer at hrest ⊢
    cases hrest with
    | value added' stands' => exact .value (added.trans added') stands'
    | fails => exact .fails
  | fails =>
    rw [exec_bind_halt hx]
    exact .fails

end Agree

section

variable (hsame : op.query? = some op') (ha : Stands (m.store.object a) v)
  (hb : Stands (m.store.object b) w)
include hsame ha hb

theorem exec_operate_arithmetic (hop : op.isArithmetic = true) :
    (operate position op a b).exec m =
      (resultOf position op (Query.operate op' (some v) (some w))).exec m := by
  have hcontent : m.store.content a = (m.store.object a).content := rfl
  have hcontent' : m.store.content b = (m.store.object b).content := rfl
  rw [operate, if_pos hop, exec_bind_content, exec_bind_content, hcontent, hcontent']
  generalize m.store.object a = o at ha ⊢
  generalize m.store.object b = o' at hb ⊢
  cases op with
  | plus | minus | times => cases hsame; cases ha <;> cases hb <;> rfl
  | divide =>
    cases hsame
    cases ha with
    | int x =>
      cases hb with
      | int y =>
        dsimp only
        rw [arithmetic, Query.operate]
        -- both look for zero before they look at the size of the quotient
        by_cases hy : y = 0
        · rw [if_pos hy, if_pos hy]
          cases position <;> rfl
        · rw [if_neg hy, if_neg hy]
          cases roundedQuotient x y <;> rfl
      | _ => rfl
    | _ => cases hb <;> rfl
  | modulo =>
    cases hsame
    cases ha with
    | int x =>
      cases hb with
      | int y =>
        dsimp only
        rw [arithmetic, Query.operate]
        by_cases hy : y = 0
        · rw [if_pos hy, if_pos hy]
          rfl
        · rw [if_neg hy, if_neg hy]
          rfl
      | _ => rfl
    | _ => cases hb <;> rfl
  | _ => cases hop

theorem exec_boolean (hop : op.isBoolean = true) :
    ∃ truth : Option Bool, (boolean op a b).exec m = (.ok truth, m) ∧
      Query.operate op' (some v) (some w) = .ok (truth.map .bool) := by
  cases op with
  | equal =>
    cases hsame
    exact ⟨some ((m.store.value a).same (m.store.value b)), rfl, by rw [ha.same_eq hb]; rfl⟩
  | notEqual =>
    cases hsame
    exact ⟨some !((m.store.value a).same (m.store.value b)), rfl, by rw [ha.same_eq hb]; rfl⟩
  | greater | less | greaterEq | lessEq | and | or =>
    cases hsame
    refine ⟨comparison _ (m.store.object a).content (m.store.object b).content, rfl, ?_⟩
    generalize m.store.object a = o at ha ⊢
    generalize m.store.object b = o' at hb ⊢
    cases ha <;> cases hb <;> rfl
  | _ => cases hop

theorem exec_operate_boolean (hop : op.isBoolean = true) :
    (operate position op a b).exec m =
      (resultOf position op (Query.operate op' (some v) (some w))).exec m := by
  have harithmetic : ¬ op.isArithmetic = true := by
    cases op <;> simp_all [Operator.isArithmetic, Operator.isBoolean]
  obtain ⟨truth, hboolean, hquery⟩ := exec_boolean hsame ha hb hop
  rw [operate, if_neg harithmetic, if_pos hop, exec_bind_of hboolean, hquery]
  cases truth <;> rfl

theorem agree_operate :
    Agree m ((operate position op a b).exec m) (Query.operateOn op' v w) := by
  have hexec : (operate position op a b).exec m =
      (resultOf position op (Query.operate op' (some v) (some w))).exec m := by
    by_cases hop : op.isArithmetic = true
    · exact exec_operate_arithmetic hsame ha hb hop
    · refine exec_operate_boolean hsame ha hb ?_
      cases op <;> simp_all [Operator.isArithmetic, Operator.isBoolean, Operator.query?]
  rw [hexec, Query.operateOn]
  cases hquery : Query.operate op' (some v) (some w) with
  | error err =>
    cases err with
    | divisionByZero => exact .report _ _ _
    | _ => exact .fails
  | ok result =>
    cases result with
    | none => exact .report _ _ _
    | some u =>
      cases u with
      | int n => exact .new (.int n)
      | bool t => exact .new (.bool t)
      | char t => exact .new (.char t)
      | string t => exact .new (.string t)
      | range start stop => exact absurd hquery (operate_ne_range _ _ _ _ _)

end

/-! ## The same types -/

/-- Where anything is expected in a program, nothing is expected in a query. -/
inductive Expects : TypeRef → Query.Ty → Prop
  | any : Expects .any .unknown
  | bool : Expects .bool .bool

variable {expected : TypeRef} {type : Query.Ty}

theorem exec_conforms (m : Machine) (position : Option Position) {o : Object} (ho : Stands o v)
    (h : Expects expected type) :
    ((conforms position o.type expected).exec m = (.ok true, m) ∧
        ∃ t, Query.conform v.type type = .ok t) ∨
      (∃ halt m', (conforms position o.type expected).exec m = (.error halt, m')) ∧
        ∃ err, Query.conform v.type type = .error err := by
  cases h with
  | any => cases ho <;> exact .inl ⟨rfl, _, rfl⟩
  | bool =>
    cases ho with
    | bool t => exact .inl ⟨rfl, _, rfl⟩
    | _ => cases position <;> exact .inr ⟨⟨_, _, rfl⟩, _, rfl⟩

theorem agree_expecting {r : Ref} (hr : Stands (m.store.object r) v) (h : Expects expected type) :
    Agree m ((expecting position expected r).exec m) (do
      let _ ← Query.conform v.type type
      return some v) := by
  have htype : (typeOf r).exec m = (.ok (m.store.object r).type, m) := by
    rw [typeOf, exec_bind_object]
    generalize m.store.object r = o at hr ⊢
    cases hr <;> rfl
  rw [expecting, exec_bind_of htype]
  rcases exec_conforms m position hr h with
    ⟨hconforms, t, ht⟩ | ⟨⟨halt, m', hconforms⟩, err, herr⟩
  · rw [exec_bind_of hconforms, ht]
    exact .value (.refl _) hr
  · rw [exec_bind_halt hconforms, herr]
    exact .fails

theorem agree_literal {note : Note} {l : Literal} {l' : Query.Literal} (htype : note.type = l.type)
    (hsame : l.query? = some l') (h : Expects expected type) :
    Agree m ((evalLiteral note l expected).exec m) (do
      let _ ← Query.conform l'.type type
      return some l'.value) := by
  have hstands : ∃ content, Stands ⟨l.type, content⟩ l'.value ∧
      newLiteral l = EvalM.new l.type content ∧ l'.type = l'.value.type := by
    cases l with
    | none => cases hsame
    | int n => cases hsame; exact ⟨_, .int n, rfl, rfl⟩
    | bool t => cases hsame; exact ⟨_, .bool t, rfl, rfl⟩
    | char t => cases hsame; exact ⟨_, .char t, rfl, rfl⟩
    | string t => cases hsame; exact ⟨_, .string t, rfl, rfl⟩
  obtain ⟨content, hcontent, hnew, hvalue⟩ := hstands
  rw [evalLiteral, htype, hnew, hvalue]
  rcases exec_conforms m note.position hcontent h with
    ⟨hconforms, t, ht⟩ | ⟨⟨halt, m', hconforms⟩, err, herr⟩
  · rw [exec_bind_of hconforms, ht]
    exact .new hcontent
  · rw [exec_bind_halt hconforms, herr]
    exact .fails

/-! ## The same evaluations -/

/-- A name stands for a plain value, and a cell by this name is that value in a query. -/
def Bound (m : Machine) (bindings : Query.Bindings) (name : String) : Prop :=
  ∃ r v, m.scope.get? name = some r ∧ (m.store.object r).IsPlain ∧
    (m.store.value r).toQuery = .ok v ∧ bindings.get name = .ok v

/-- A name and a cell are the same, on every store that goes on from this one. -/
def Named (scope : Scope Ref TypeRef) (store : Store) (bindings : Query.Bindings) (name : String) :
    Prop :=
  ∃ r v, scope.get? name = some r ∧ Stands (store.object r) v ∧ bindings.get name = .ok v

theorem Bound.named (h : Bound m bindings name) : Named m.scope m.store bindings name := by
  obtain ⟨r, v, hscope, hplain, hquery, hget⟩ := h
  exact ⟨r, v, hscope, .of_toQuery hplain hquery, hget⟩

theorem Named.mono {scope : Scope Ref TypeRef} {store store' : Store}
    (h : Named scope store bindings name) (hstore : store.Extends store') :
    Named scope store' bindings name := by
  obtain ⟨r, v, hscope, hstands, hget⟩ := h
  exact ⟨r, v, hscope, hstands.mono hstore, hget⟩

theorem Agree.counted {levels : Nat} {e : Expr} (hdepth : m.depth < depthLimit)
    (h : Agree { m with depth := m.depth + 1 }
      ((step (eval levels) e expected).exec { m with depth := m.depth + 1 }) y) :
    Agree m ((eval (levels + 1) e expected).exec m) y := by
  rw [eval, exec_bind_of (exec_descend hdepth e), deeper]
  generalize hstep : (step (eval levels) e expected).exec _ = outcome at h
  cases h with
  | value added stands =>
    rw [exec_bind_of hstep]
    exact .value added stands
  | fails =>
    rw [exec_bind_halt hstep]
    exact .fails

theorem agree_eval {e : Expr} {q : Query.Expr} (h : Matches e q) (m : Machine) (levels : Nat)
    (hexpects : Expects expected type)
    (hnames : ∀ name ∈ q.names, Named m.scope m.store bindings name)
    (hlevels : q.height ≤ levels) (hdepth : m.depth + q.height ≤ depthLimit) :
    Agree m ((eval levels e expected).exec m) (Query.eval bindings q type) := by
  induction h generalizing m levels expected type with
  | literal htype hsame =>
    obtain ⟨levels, rfl⟩ : ∃ k, levels = k + 1 := Nat.exists_eq_add_of_le' hlevels
    exact .counted hdepth (agree_literal htype hsame hexpects)
  | ref note name =>
    obtain ⟨levels, rfl⟩ : ∃ k, levels = k + 1 := Nat.exists_eq_add_of_le' hlevels
    refine .counted hdepth ?_
    obtain ⟨r, v, hscope, hstands, hget⟩ := hnames name List.mem_cons_self
    have hlookup : (lookup name name note.position).exec { m with depth := m.depth + 1 } =
        (.ok r, { m with depth := m.depth + 1 }) := by
      rw [lookup, exec_bind_get]
      dsimp only
      rw [hscope]
      rfl
    show Agree _ ((evalRef note (.ident name) expected).exec _) _
    rw [evalRef, Name.word, Name.label, exec_bind_of hlookup, Query.eval, hget]
    exact agree_expecting hstands hexpects
  | @prim note noted op op' left right left' right' hsame hleft hright ihleft ihright =>
    rw [Query.Expr.height] at hlevels hdepth
    rw [Query.Expr.names] at hnames
    obtain ⟨levels, rfl⟩ : ∃ k, levels = k + 1 := ⟨levels - 1, by omega⟩
    refine .counted (by omega) ?_
    show Agree _ ((evalPrim (eval levels) note op left right expected).exec _) _
    rw [evalPrim, Query.eval_prim]
    refine .bind (ihleft _ levels .any
      (fun name hname => hnames name (List.mem_append_left _ hname)) (by omega)
      (by dsimp only; omega)) fun a store v hadded hv => ?_
    -- the names still stand for the same values after the left operand
    refine .bind (ihright _ levels .any
      (fun name hname => (hnames name (List.mem_append_right _ hname)).mono hadded)
      (by omega) (by dsimp only; omega)) fun b store' w hadded' hw => ?_
    rw [Query.operate_bind]
    refine .bind (agree_operate hsame (hv.mono hadded') hw) fun r store'' u _ hu => ?_
    exact agree_expecting hu hexpects

end

/-- Where a truth value is expected, an expression of a program gives it exactly if the same
expression gives it in a query over the same values, and the one fails exactly if the other does. -/
theorem eval_bool_iff_query {e : Expr} {q : Query.Expr} {m : Machine} {bindings : Query.Bindings}
    {levels : Nat} (h : Matches e q) (hnames : ∀ name ∈ q.names, Bound m bindings name)
    (hlevels : q.height ≤ levels) (hdepth : m.depth + q.height ≤ depthLimit) :
    (∀ b, (∃ r m', (eval levels e .bool).exec m = (.ok r, m') ∧
      m'.store.content r = .bool b) ↔
        Query.eval bindings q .bool = .ok (some (.bool b))) ∧
      ((∃ halt m', (eval levels e .bool).exec m = (.error halt, m')) ↔
        ∃ err, Query.eval bindings q .bool = .error err) := by
  have hagree := agree_eval h m levels .bool (fun name hname => (hnames name hname).named) hlevels
    hdepth
  generalize (eval levels e .bool).exec m = outcome at hagree ⊢
  generalize Query.eval bindings q .bool = answer at hagree ⊢
  cases hagree with
  | @value r store v _ stands =>
    refine ⟨fun b => ⟨?_, ?_⟩, by simp⟩
    · rintro ⟨_, _, ⟨⟩, hcontent⟩
      change (store.object r).content = .bool b at hcontent
      generalize store.object r = o at stands hcontent
      cases stands <;> cases hcontent
      rfl
    · intro hanswer
      cases hanswer
      refine ⟨r, _, rfl, ?_⟩
      show (store.object r).content = .bool b
      generalize store.object r = o at stands ⊢
      cases stands
      rfl
  | fails => simp

/-- A number and a character by their names, with room for four more evaluations. -/
def twoNames : Machine where
  store := { objects := #[⟨.int, .int 5⟩, ⟨.char, .char "a"⟩] }
  scope := (({} : Scope Ref TypeRef).add "x" ⟨0⟩).add "c" ⟨1⟩
  depth := 996

/-- The expression `-x < 3 and c + "b" == "ab"`. -/
theorem eval_bool_twoNames :
    let e : Expr := .prim {} .and
      (.prim {} .less
        (.prim { type := .int } .minus (.literal { type := .int } (.int 0)) (.ref {} (.ident "x")))
        (.literal { type := .int } (.int 3)))
      (.prim {} .equal
        (.prim {} .plus (.ref {} (.ident "c")) (.literal { type := .string } (.string "b")))
        (.literal { type := .string } (.string "ab")))
    let q : Query.Expr := .prim .unknown .and
      (.prim .unknown .less (.prim .int .minus (.literal (.int 0)) (.ref "x")) (.literal (.int 3)))
      (.prim .unknown .equal (.prim .unknown .plus (.ref "c") (.literal (.string "b")))
        (.literal (.string "ab")))
    let bindings : Query.Bindings := [("x", .int 5), ("c", .char "a")]
    Matches e q ∧ (∀ name ∈ q.names, Bound twoNames bindings name) ∧
      twoNames.depth + q.height ≤ depthLimit ∧
      Query.eval bindings q .bool = .ok (some (.bool true)) ∧
      ∃ r m', (eval 4 e .bool).exec twoNames = (.ok r, m') ∧
        m'.store.content r = .bool true := by
  intro e q bindings
  have hmatches : Matches e q :=
    .prim rfl (.prim rfl (.prim rfl (.literal rfl rfl) (.ref _ _)) (.literal rfl rfl))
      (.prim rfl (.prim rfl (.ref _ _) (.literal rfl rfl)) (.literal rfl rfl))
  have hnames : ∀ name ∈ q.names, Bound twoNames bindings name := by
    intro name hname
    obtain rfl | rfl : name = "x" ∨ name = "c" := by simpa [q, Query.Expr.names] using hname
    · exact ⟨⟨0⟩, .int 5, by decide, rfl, rfl, by decide⟩
    · exact ⟨⟨1⟩, .char "a", by decide, rfl, rfl, by decide⟩
  have hdepth : twoNames.depth + q.height ≤ depthLimit := by decide
  have hquery : Query.eval bindings q .bool = .ok (some (.bool true)) := by decide
  exact ⟨hmatches, hnames, hdepth, hquery,
    ((eval_bool_iff_query hmatches hnames (le_refl 4) hdepth).1 true).mpr hquery⟩

end EvalM

end TableScript
