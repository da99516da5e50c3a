import TableScript.Eval.Operator
import TableScript.Primitive.Run
import TableScript.Range

/-!
One level of evaluation: the value of an expression from the values of its parts. `eval` stands for
the evaluation of the parts.
-/

namespace TableScript

def Literal.value : Literal → Value
  | .int n => .int .int n
  | .bool b => .bool .bool b
  | .char s => .char .char s
  | .string s => .string .string s
  | .none => .none .none

namespace EvalM

open Primitive

def newLiteral : Literal → EvalM Ref
  | .int n => newInt n
  | .bool b => newBool b
  | .char s => newChar s
  | .string s => newString s
  | .none => newNone

def invalidExpression : String := "Invalid expression found"

/-- The note of an expression that is asked for its place. -/
def noteOf (e : Expr) : EvalM Note :=
  match e.note? with
  | some n => return n
  | none => fault (.missing .place)

/-- A value where a type is expected; it gives none if it has no type. -/
def expecting (position : Option Position) (expected : TypeRef) (r : Ref) : EvalM Ref := do
  if ← conforms position (← typeOf r) expected then return r else newNone

/-! ## Names and functions -/

def evalLiteral (note : Note) (l : Literal) (expected : TypeRef) : EvalM Ref := do
  if ← conforms note.position note.type expected then newLiteral l
  else report invalidExpression note.position

/-- The values of names, which the elements of a tuple are if there are several. -/
def bindNames (position : Option Position) (names : List String) (r : Ref) : EvalM Unit := do
  match names with
  | [name] => bindName name r
  | names =>
    match ← content r with
    | .tuple place => (names.zip (← sequence place)).forM fun (name, e) => bindName name e
    | _ => report "Cannot unpack, requires tuple value" position

def evalBind (eval : Evaluator) (note : Note) (names : List String) (type : TypeRef) (bound : Expr)
    (rest : Option Expr) (expected : TypeRef) : EvalM Ref := do
  bindNames note.position names (← eval bound type)
  match rest with
  | some e => eval e expected
  | none => newNone

def evalAlias (eval : Evaluator) (name : Option String) (type : TypeRef) (rest : Expr)
    (expected : TypeRef) : EvalM Ref := do
  modify fun m => { m with scope := m.scope.addAlias (name.getD "") type }
  eval rest expected

/-- A function, whose body takes the type of its result and is its own. -/
def evalLambda (note : Note) (parameters : List Parameter) (body : Expr) (expected : TypeRef) :
    EvalM Ref := do
  match ← check note.position note.type expected with
  | some (.func _ .absent) => newNone
  | some (.func _ result) =>
    let bodyNote ← noteOf body
    match ← checkWith (report · bodyNote.position) result (← readType bodyNote.type) with
    | none => newNone
    | some _ =>
      let type ← intern result
      let body ← make (·.copyExpr body)
      let parameters := parameters.map fun p => (p.name.getD "", p.type)
      let scope := (← get).scope
      new note.type (.func { builtin := none, parameters, body := body.withType type, scope })
  | _ => newNone

def evalRef (note : Note) (name : Name) (expected : TypeRef) : EvalM Ref := do
  let r ← lookup name.word name.label note.position
  expecting note.position expected r

/-! ## Calls -/

/-- Runs a function's body, or a built-in function, in a scope with the arguments. The result that
the body is to have is that of the function's type now, which the arguments may have changed. -/
def enter (eval : Evaluator) (position : Option Position) (function : Ref) (c : Closure) :
    EvalM Ref := do
  match c.builtin with
  | some b => run eval position b
  | none =>
    match (← object function).type with
    | .func _ result => eval c.body result
    | _ => fault .noResult

/-- Calls a function. The arguments are evaluated where the call stands; a built-in function sees
the names that were bound there before them. -/
def callFunction (eval : Evaluator) (note : Note) (function : Ref) (type : TypeRef) (c : Closure)
    (arguments : List Expr) (expected : TypeRef) : EvalM Ref := do
  if arguments.length ≠ c.parameters.length then
    let types ← c.parameters.mapM fun p => typeText p.2
    report ("Invalid argument count for function, requires: " ++ ", ".intercalate types)
      note.position
  else
    match type with
    | .func _ _ =>
      let here := (← get).scope
      let outer := if c.builtin.isSome then here else c.scope
      let values ← (arguments.zip c.parameters).mapM fun (a, p) => return (p.1, ← eval a p.2)
      let scope := values.foldl (fun s v => s.add v.1 v.2) outer
      match note.position with
      | none => fault (.missing .position)
      | some p =>
        inCall p do
          let r ← inScope scope (enter eval note.position function c)
          let _ ← conforms note.position (← typeOf r) expected
          return r
    | _ => newNone

def indexArgument (eval : Evaluator) (note : Note) (kind : String) (arguments : List Expr) :
    EvalM Content := do
  match arguments with
  | [a] => content (← eval a .int)
  | _ => report ("Argument count must be 1 for " ++ kind ++ " access") note.position

def badIndex (kind : String) : String :=
  "Invalid argument value for " ++ kind ++ " access"

def indexString (eval : Evaluator) (note : Note) (s : String) (arguments : List Expr)
    (expected : TypeRef) : EvalM Ref := do
  match ← indexArgument eval note "string" arguments with
  | .int i =>
    match if i < 0 then none else s.toList[i.toNat]? with
    | some c => expecting note.position expected (← newChar (String.singleton c))
    | none => report (badIndex "string") note.position
  | _ => newNone

def indexSequence (eval : Evaluator) (note : Note) (kind : String) (place : Nat)
    (arguments : List Expr) (expected : TypeRef) : EvalM Ref := do
  match ← indexArgument eval note kind arguments with
  | .int i =>
    match ← if i < 0 then pure none else element? place i.toNat with
    | some r => expecting note.position expected r
    | none => report (badIndex kind) note.position
  | _ => newNone

def indexDict (eval : Evaluator) (note : Note) (type : TypeRef) (entries : List (Ref × Ref))
    (arguments : List Expr) (expected : TypeRef) : EvalM Ref := do
  match arguments with
  | [a] =>
    match type with
    | .dict keyType _ =>
      let key ← eval a keyType
      let s ← store
      let missing {α : Type} : EvalM α := do
        report "Key does not exist in dictionary" (← noteOf a).position
      match entries.find? fun e => (s.value e.1).same (s.value key) with
      | some (_, v) =>
        if ← conforms note.position (← typeOf v) expected then return v else missing
      | none => missing
    | _ => newNone
  | _ => report "Argument count must be 1 for dictionary access" note.position

def evalApply (eval : Evaluator) (note : Note) (function : Expr) (arguments : List Expr)
    (expected : TypeRef) : EvalM Ref := do
  let r ← eval function .unknown
  let o ← object r
  match o.content with
  | .func c => callFunction eval note r o.type c arguments expected
  | .string s => indexString eval note s arguments expected
  | .list place => indexSequence eval note "list" place arguments expected
  | .tuple place => indexSequence eval note "tuple" place arguments expected
  | .dict entries => indexDict eval note o.type entries arguments expected
  | _ => report ("Invalid type for application: " ++ (← typeText o.type)) note.position

def evalPrim (eval : Evaluator) (note : Note) (op : Operator) (left right : Expr)
    (expected : TypeRef) : EvalM Ref := do
  let a ← eval left .any
  let b ← eval right .any
  expecting note.position expected (← operate note.position op a b)

/-! ## Cases -/

/-- A case needs a place, whether it is shown or not. -/
def needPlace (body : Expr) : EvalM Unit := do
  if (← noteOf body).position.isNone then fault (.missing .position)

def matchesLiteral (v : Value) : List (Option Literal) → EvalM Bool
  | [] => return false
  | none :: _ => fault .placeless
  | some l :: rest => if v.same l.value then return true else matchesLiteral v rest

/-- Does a pattern match a value? A type pattern binds its name before it asks its guard. -/
def matchPattern (eval : Evaluator) (r : Ref) (body : Expr) : Pattern Expr → EvalM Bool
  | .type name type guard => do
    needPlace body
    if ← fits (← typeOf r) type then
      bindName name r
      match guard with
      | none => return true
      | some g =>
        match ← content (← eval g .bool) with
        | .bool b => return b
        | _ => return false
    else return false
  | .literal l => do
    needPlace body
    matchesLiteral ((← store).value r) [l]
  | .literals ls => do
    needPlace body
    matchesLiteral ((← store).value r) ls
  | .range _ (some (.int a)) (some (.int b)) => do
    checkSize (rangeSize a b)
    match ← content r with
    | .int n => return (rangeElements a b).contains n
    | _ => return false
  | .range _ _ _ => return false
  | .any => return true
  | .missing => do report "Invalid pattern found" (← noteOf body).position

def evalAlternatives (eval : Evaluator) (note : Note) (r : Ref) (expected : TypeRef) :
    List (Pattern Expr × Expr) → EvalM Ref
  | [] => report "Reached end of pattern-match, add catch-all case" note.position
  | (pattern, body) :: rest => do
    if ← matchPattern eval r body pattern then eval body expected
    else evalAlternatives eval note r expected rest

def evalCases (eval : Evaluator) (note : Note) (subject : Expr)
    (alternatives : List (Pattern Expr × Expr)) (expected : TypeRef) : EvalM Ref := do
  evalAlternatives eval note (← eval subject .any) expected alternatives

/-! ## Branches and loops -/

def evalBranch (eval : Evaluator) (condition yes : Expr) (no : Option Expr) (expected : TypeRef) :
    EvalM Ref := do
  match ← content (← eval condition .bool) with
  | .bool true => eval yes expected
  | .bool false => eval (no.getD .missing) expected
  | _ => newNone

/-- Runs the body of a loop for an element, in a copy of everything that has a name. -/
def runBody (eval : Evaluator) (name : String) (body : Expr) (r : Ref) : EvalM Unit := do
  let scope := (← get).scope
  let copy ← make (·.copyScope scope)
  let _ ← inScope (copy.add name r) (eval body .any)

/-- Runs a loop, and goes on with the rest. An empty collection gives none at once; elements that
are added meanwhile have their turn too. -/
def evalLoop (eval : Evaluator) (note : Note) (name : Option String) (iterable body : Expr)
    (rest : Option Expr) (expected : TypeRef) : EvalM Ref := do
  let place ← elements "for" (← eval iterable .unknown) note.position
  if (← sequence place).isEmpty then newNone
  else
    let _ ← visit place (runBody eval (name.getD "") body)
    match rest with
    | some e => eval e expected
    | none => newNone

/-! ## Collections -/

/-- Do values have types that go with the type of the first one? -/
def allConform (position : Option Position) (first : TypeRef) : List Ref → EvalM Bool
  | [] => return true
  | r :: rest => do
    if ← conforms position (← typeOf r) first then allConform position first rest
    else return false

/-- The type of the elements of a list: that of the first one. -/
def commonType (position : Option Position) (refs : List Ref) : EvalM TypeRef := do
  match refs with
  | [] => return .unknown
  | first :: _ =>
    let type ← typeOf first
    if ← allConform position type refs then return type else return .unknown

def evalList (eval : Evaluator) (note : Note) (elements : List Expr) (expected : TypeRef) :
    EvalM Ref := do
  match note.type with
  | .list element =>
    let refs ← elements.mapM fun e => eval e element
    let type ← commonType note.position refs
    match ← checkElements (← readType (.list type)) (← readType expected) with
    | some t => newList (← intern t) refs
    | none => newNone
  | _ => newNone

def evalRange (note : Note) (start stop : Option Literal) (expected : TypeRef) : EvalM Ref := do
  match start, stop with
  | some (.int a), some (.int b) =>
    if a < 0 ∨ b < 0 then report "Range bounds cannot be negative" note.position
    else if ← conforms note.position (.list .int) expected then
      checkSize (rangeSize a b)
      newList (.list .int) (← (rangeElements a b).mapM newInt)
    else newNone
  | _, _ => newNone

/-- The values of the elements of a tuple, from an index on, each where the member at its index in
the list at a place is expected. An element without a member is left out. -/
def evalMembers (eval : Evaluator) (place : Nat) : Nat → List Expr → EvalM (List Ref)
  | _, [] => return []
  | index, e :: rest => do
    match ((← store).types.list place)[index]? with
    | none => return []
    | some t =>
      let r ← eval e t
      return r :: (← evalMembers eval place (index + 1) rest)

/-- A tuple, which takes the type of the expression. -/
def evalTuple (eval : Evaluator) (note : Note) (elements : List Expr) (expected : TypeRef) :
    EvalM Ref := do
  match note.type with
  | .tuple c =>
    let refs ← evalMembers eval ((← store).types.cell c) 0 elements
    let types ← refs.mapM fun r => do readType (← typeOf r)
    match ← checkWith (report · note.position) (.tuple none types) (← readType expected) with
    | some _ => newTuple note.type refs
    | none => newNone
  | _ => newNone

/-- Do values have types that go with the type of the first one? If not, that is a fault. -/
def allAlign (first : TypeRef) : List Ref → EvalM Bool
  | [] => return true
  | r :: rest => do
    match ← checkElements (← readType (← typeOf r)) (← readType first) with
    | some _ => allAlign first rest
    | none => return false

/-- The type of the entries of a dictionary: that of the first one. -/
def entryType (keys values : List Ref) : EvalM TypeRef := do
  match keys, values with
  | k :: _, v :: _ =>
    let keyType ← typeOf k
    let valueType ← typeOf v
    if ← allAlign keyType keys then
      if ← allAlign valueType values then return .dict keyType valueType
      else return .dict .unknown .unknown
    else return .dict .unknown .unknown
  | _, _ => return .dict .unknown .unknown

/-- A dictionary. All keys are evaluated before all values. -/
def evalDict (eval : Evaluator) (note : Note) (entries : List (Expr × Expr)) (expected : TypeRef) :
    EvalM Ref := do
  match note.type with
  | .dict keyType valueType =>
    let keys ← entries.mapM fun e => eval e.1 keyType
    let values ← entries.mapM fun e => eval e.2 valueType
    let type ← entryType keys values
    match ← checkElements (← readType type) (← readType expected) with
    | some t => new (← intern t) (.dict (keys.zip values))
    | none => newNone
  | _ => newNone

def evalSchema (note : Note) (columns : List (Option String × TypeRef)) (expected : TypeRef) :
    EvalM Ref := do
  if ← conforms note.position note.type expected then
    let members ← newMembers (columns.map (·.2))
    newSchema members (columns.map fun c => (c.1.getD "", c.2))
  else newNone

/-! ## All expressions -/

/-- The value of an expression, if `eval` are the values of its parts. -/
def step (eval : Evaluator) (e : Expr) (expected : TypeRef) : EvalM Ref :=
  match e with
  | .missing => fault (.missing .place)
  | .unknown note => report invalidExpression note.position
  | .literal note l => evalLiteral note l expected
  | .bind note names type bound rest => evalBind eval note names type bound rest expected
  | .typeAlias _ name type rest => evalAlias eval name type rest expected
  | .lambda note parameters _ body => evalLambda note parameters body expected
  | .apply note function arguments => evalApply eval note function arguments expected
  | .cases note subject alternatives => evalCases eval note subject alternatives expected
  | .prim note op left right => evalPrim eval note op left right expected
  | .ref note name => evalRef note name expected
  | .branch _ condition yes no => evalBranch eval condition yes no expected
  | .loop note name iterable body rest => evalLoop eval note name iterable body rest expected
  | .list note elements => evalList eval note elements expected
  | .range note start stop => evalRange note start stop expected
  | .tuple note elements => evalTuple eval note elements expected
  | .dict note entries => evalDict eval note entries expected
  | .schema note columns => evalSchema note columns expected

end EvalM

end TableScript
