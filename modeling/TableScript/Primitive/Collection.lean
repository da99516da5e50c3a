import TableScript.Primitive.Basic

/-!
Built-in functions on collections of every kind: pairs and sizes, maps, filters and folds.
-/

namespace TableScript.Primitive

open EvalM

/-! ## Pairs and sizes -/

/-- The elements of two collections of one length in pairs. An empty collection gives none. -/
def runZip (position : Option Position) : EvalM Ref := do
  let first ← argument "iterable1" position
  let second ← argument "iterable2" position
  let as ← sequence (← elements "zip" first position)
  let bs ← sequence (← elements "zip" second position)
  if as.isEmpty || bs.isEmpty then newNone
  else if as.length ≠ bs.length then report "Zip requires iterables of equal length" position
  else
    let firstType ← elementType first
    let secondType ← elementType second
    let type ← makeType (·.addTuple [firstType, secondType])
    let pairs ← (as.zip bs).mapM fun p => newTuple type [p.1, p.2]
    newList (.list type) pairs

def runLen (position : Option Position) : EvalM Ref := do
  let refs ← sequence (← elements "len" (← argument "iterable" position) position)
  newInt refs.length

def runIsEmpty (position : Option Position) : EvalM Ref := do
  let refs ← sequence (← elements "len" (← argument "iterable" position) position)
  newBool refs.isEmpty

/-! ## Maps and filters -/

/-- The values of a function on the elements of the sequence at a place. -/
def mapElements (eval : Evaluator) (c : Closure) (result : TypeRef) (place : Nat) :
    EvalM Ref := do
  let values ← visit place fun r => callWith eval c c.scope [r] result
  newList (.list result) values

/-- The elements of the sequence at a place on which a function holds. -/
def filterElements (eval : Evaluator) (c : Closure) (parameters : List TypeRef) (place : Nat) :
    EvalM Ref := do
  match parameters with
  | [] => fault .outOfRange
  | first :: _ =>
    let tested ← visit place fun r => do
      match ← content (← callWith eval c c.scope [r] .bool) with
      | .bool true => return some r
      | _ => return none
    newList (.list first) (tested.filterMap id)

/-- Maps or filters; an empty collection gives none. -/
def runElements (name : String) (position : Option Position)
    (f : Closure → List TypeRef → TypeRef → Nat → EvalM Ref) : EvalM Ref := do
  let iterable ← argument "iterable" position
  let function ← object (← argument "function_value" position)
  match function.type, function.content with
  | .func parameters result, .func c =>
    let place ← elements name iterable position
    if (← sequence place).isEmpty then newNone else f c parameters result place
  | _, _ => newNone

def runMap (eval : Evaluator) (position : Option Position) : EvalM Ref :=
  runElements "map" position fun c _ result place => mapElements eval c result place

def runFilter (eval : Evaluator) (position : Option Position) : EvalM Ref :=
  runElements "filter" position fun c parameters _ place => filterElements eval c parameters place

/-! ## Folds -/

/-- Do the types of a fold go together? Characters may be folded into a text. -/
def foldConforms (position : Option Position) (start first second result : TypeRef) :
    EvalM Bool := do
  match start, first, second, result with
  | .char, .char, .char, .string => return true
  | _, _, _, _ =>
    if ← conforms position start first then
      if ← conforms position first second then conforms position second result
      else return false
    else return false

/-- Folds a list from the left or, if `reverse`, from the right. The result takes the type of the
function's result. -/
def runFold (eval : Evaluator) (reverse : Bool) (position : Option Position) : EvalM Ref := do
  let iterable ← argument "iterable" position
  let start ← argument "initial_value" position
  let function ← object (← argument "fold_function" position)
  match function.type, ← content iterable with
  | .func parameters result, .list place =>
    match parameters with
    | first :: second :: _ =>
      if ← foldConforms position (← typeOf start) first second result then
        match function.content with
        | .func c =>
          let refs ← sequence place
          let copies ← make (·.copyAll refs)
          let scope := (← get).scope
          let r ← (if reverse then copies.reverse else copies).foldlM
            (fun acc r => callWith eval c scope [acc, r] result) start
          change (·.retype r result)
          return r
        | _ => newNone
      else newNone
    | _ => fault .outOfRange
  | _, _ => newNone

end TableScript.Primitive
