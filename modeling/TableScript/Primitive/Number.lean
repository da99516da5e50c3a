import TableScript.Primitive.Basic

/-!
Built-in functions on lists of numbers. Elements that are no numbers count for nothing.
-/

namespace TableScript.Primitive

open EvalM

def numbers (s : Store) (refs : List Ref) : List Int :=
  refs.filterMap fun r =>
    match s.content r with
    | .int n => some n
    | _ => none

/-- The numbers of a list folded; an empty list gives none. -/
def runTotal (f : Int → Int → Int) (start : Int) (position : Option Position) : EvalM Ref := do
  match ← argumentContent "list" position with
  | .list place =>
    let refs ← sequence place
    if refs.isEmpty then newNone else newInt ((numbers (← store) refs).foldl f start)
  | _ => newNone

/-- The number that no other one beats; the first element has to be a number. -/
def best (s : Store) (beats : Int → Int → Bool) (first : Ref) (n : Int) : List Ref → Ref
  | [] => first
  | r :: rest =>
    match s.content r with
    | .int m => if beats m n then best s beats r m rest else best s beats first n rest
    | _ => best s beats first n rest

def runBest (beats : Int → Int → Bool) (position : Option Position) : EvalM Ref := do
  match ← argumentContent "list" position with
  | .list place =>
    let s ← store
    match s.sequence place with
    | [] => newNone
    | first :: rest =>
      match s.content first with
      | .int n => return best s beats first n rest
      | _ => newNone
  | _ => newNone

inductive SortKey where
  | number (n : Int)
  | text (s : String)
  | nothing
  deriving DecidableEq, Inhabited, Repr

/-- What a value is sorted by. Collections have no content. -/
def sortKey (r : Ref) : EvalM SortKey := do
  match ← content r with
  | .int n => return .number n
  | .bool b => return .number (if b then 1 else 0)
  | .char s => return .text s
  | .string s => return .text s
  | .none => return .nothing
  | .entry _ _ => fault (.entry .content)
  | _ => fault .noContent

def SortKey.number? : SortKey → Option Int
  | .number n => some n
  | _ => none

def SortKey.text? : SortKey → Option String
  | .text s => some s
  | _ => none

/-- Things in the order of their keys; equal keys keep their order. -/
def sortBy {α κ : Type} (lt : κ → κ → Bool) (items : List (α × κ)) : List α :=
  (items.mergeSort fun a b => !lt b.2 a.2).map (·.1)

/-- Keyed values in order. There is an order among numbers and among texts only. -/
def ordered (items : List (Ref × SortKey)) : Option (List Ref) :=
  match items.mapM fun i => (i.2.number?).map (i.1, ·) with
  | some numbered => some (sortBy (fun a b => decide (a < b)) numbered)
  | none =>
    match items.mapM fun i => (i.2.text?).map (i.1, ·) with
    | some texted => some (sortBy (fun a b => decide (a < b)) texted)
    | none => if items.length ≤ 1 then some (items.map (·.1)) else none

def runSort (position : Option Position) : EvalM Ref := do
  let list ← argument "list" position
  match ← content list with
  | .list place =>
    let refs ← sequence place
    if refs.isEmpty then return list
    else
      let items ← refs.mapM fun r => do return (r, ← sortKey r)
      match ordered items with
      | some sorted => newList (.list .int) sorted
      | none => fault .unordered
  | _ => newNone

end TableScript.Primitive
