import TableScript.Primitive.Basic

/-!
Built-in functions on lists. The elements of a new list are copies of those of the old one.
-/

namespace TableScript

/-! ## Positions in lists -/

/-- Can the number be a position at all? -/
def isIndexSized (i : Int) : Bool :=
  -Int.pow 2 63 ≤ i && i < Int.pow 2 63

/-- Where an insertion at `i` goes in a list of length `n`: negative positions count from the end,
and positions beyond an end stand for it. -/
def insertionPoint (n : Nat) (i : Int) : Nat :=
  if i < 0 then (i + n).toNat else min i.toNat n

/-- The element that `i` means in a list of length `n`: negative positions count from the end. -/
def elementIndex? (n : Nat) (i : Int) : Option Nat :=
  let j := if i < 0 then i + n else i
  if 0 ≤ j ∧ j < n then some j.toNat else none

namespace Primitive

open EvalM

/-- The list of a parameter: its type and the place of its elements. -/
def listArgument? (name : String) (position : Option Position) :
    EvalM (Option (TypeRef × Nat)) := do
  let o ← object (← argument name position)
  match o.content with
  | .list place => return some (o.type, place)
  | _ => return none

/-- A list with copied elements, changed by `f`. -/
def editList (type : TypeRef) (place : Nat) (f : List Ref → EvalM (List Ref)) : EvalM Ref := do
  let refs ← sequence place
  let copies ← make (·.copyAll refs)
  newList type (← f copies)

def runInsert (position : Option Position) : EvalM Ref := do
  let list ← listArgument? "list" position
  let value ← argument "value" position
  let index ← argumentContent "index" position
  match list, index with
  | some (type, place), .int i =>
    editList type place fun refs =>
      if isIndexSized i then return refs.insertIdx (insertionPoint refs.length i) value
      else fault .tooLarge
  | _, _ => newNone

def runRemove (position : Option Position) : EvalM Ref := do
  let list ← listArgument? "list" position
  let index ← argumentContent "index" position
  match list, index with
  | some (type, place), .int i =>
    editList type place fun refs =>
      if isIndexSized i then
        match elementIndex? refs.length i with
        | some j => return refs.eraseIdx j
        | none => fault .outOfRange
      else fault .tooLarge
  | _, _ => newNone

def runReplace (position : Option Position) : EvalM Ref := do
  let list ← listArgument? "list" position
  let index ← argumentContent "index" position
  let value ← argument "new_value" position
  match list, index with
  | some (type, place), .int i =>
    editList type place fun refs =>
      match elementIndex? refs.length i with
      | some j => return refs.set j value
      | none => fault .outOfRange
  | _, _ => newNone

/-- The element of a list that `pick` takes, or none if there is none. -/
def runPick (pick : List Ref → Option Ref) (position : Option Position) : EvalM Ref := do
  match ← listArgument? "list" position with
  | some (_, place) =>
    match pick (← sequence place) with
    | some r => return r
    | none => newNone
  | none => newNone

def runFront (position : Option Position) : EvalM Ref :=
  runPick List.head? position

def runBack (position : Option Position) : EvalM Ref :=
  runPick List.getLast? position

/-- A list cut by `cut`, or none if it is empty. -/
def runCut (cut : List Ref → List Ref) (position : Option Position) : EvalM Ref := do
  match ← listArgument? "list" position with
  | some (type, place) =>
    if (← sequence place).isEmpty then newNone
    else editList type place fun refs => return cut refs
  | none => newNone

def runHead (position : Option Position) : EvalM Ref :=
  runCut List.tail position

def runTail (position : Option Position) : EvalM Ref :=
  runCut List.dropLast position

/-- A part of a list. Both bounds are taken from the name `string_value`, and equal bounds have no
order, so there is never a part. -/
def runSlice (position : Option Position) : EvalM Ref := do
  let list ← listArgument? "list" position
  let start ← argumentContent "string_value" position
  let stop ← argumentContent "string_value" position
  match list, start, stop with
  | some (_, place), .int a, .int b =>
    let n := (← sequence place).length
    if a < 0 ∨ b < 0 ∨ n ≤ a ∨ n ≤ b then report "Invalid slice range value(s)" position
    else fault .unordered
  | _, _, _ => newNone

def runContains (position : Option Position) : EvalM Ref := do
  let list ← listArgument? "list" position
  let value ← argument "value" position
  match list with
  | some (_, place) =>
    let s ← store
    newBool ((s.values place).any (·.same (s.value value)))
  | none => newBool false

/-- Where a value is in a list, or -1. -/
def runFind (position : Option Position) : EvalM Ref := do
  let list ← listArgument? "list" position
  let value ← argument "value" position
  match list with
  | some (_, place) =>
    let s ← store
    match (s.values place).findIdx? (·.same (s.value value)) with
    | some i => newInt i
    | none => newInt (-1)
  | none => newInt (-1)

def runFill (position : Option Position) : EvalM Ref := do
  let count ← argumentContent "count" position
  let value ← argument "value" position
  match count with
  | .int n =>
    if n ≤ 0 then
      report "Fill requires positive non-zero integer value for 'count'" position
    else
      checkSize n.toNat
      newList (.list (← typeOf value)) (List.replicate n.toNat value)
  | _ => newNone

def runReverse (position : Option Position) : EvalM Ref := do
  match ← listArgument? "list" position with
  | some (type, place) => editList type place fun refs => return refs.reverse
  | none => newNone

/-- The references whose values are not the same as an earlier one's. -/
def distinct (s : Store) (seen : List Ref) : List Ref → List Ref
  | [] => seen
  | r :: rest =>
    if seen.any fun q => (s.value r).same (s.value q) then distinct s seen rest
    else distinct s (seen ++ [r]) rest

/-- Two lists whose types go together. -/
def twoLists (position : Option Position)
    (f : TypeRef → List Ref → List Ref → EvalM Ref) : EvalM Ref := do
  let first ← object (← argument "list1" position)
  let second ← object (← argument "list2" position)
  if ← conforms position first.type second.type then
    match first.content, second.content with
    | .list p, .list q => f first.type (← sequence p) (← sequence q)
    | _, _ => newNone
  else newNone

/-- The values of two lists, without those that are the same as an earlier one. -/
def runSet (position : Option Position) : EvalM Ref :=
  twoLists position fun type as bs => do
    let copies ← make (·.copyAll as)
    newList type (distinct (← store) [] (copies ++ bs))

/-- The values of the first list that are in the second. A value is a candidate for each value of
the second list that it is the same as, and is taken unless one that is the same has been taken.
So a value that is the same as itself is taken at most once; one that is not, such as a list that
holds a function, is taken for each of its matches. -/
def runIntersect (position : Option Position) : EvalM Ref :=
  twoLists position fun type as bs => do
    let firsts ← make (·.copyAll as)
    let seconds ← make (·.copyAll bs)
    let s ← store
    let common := firsts.flatMap fun a =>
      (seconds.filter fun b => (s.value a).same (s.value b)).map fun _ => a
    newList type (distinct s [] common)

end Primitive

end TableScript
