import TableScript.Console
import TableScript.Disk.Basic
import TableScript.Store.Copy
import TableScript.Store.Text
import TableScript.Type.Conform
import TableScript.Type.Text

/-!
The machine that programs run on, and its single steps.

A step ends with a result or halts the run: an error that is reported is printed with the places of
the calls in progress, and a fault goes up to whoever started the run.
-/

namespace TableScript

/-- Why a run ends without a result. -/
inductive Halt where
  /-- An error has been reported. -/
  | reported
  | fault (f : Fault)
  deriving DecidableEq, Repr

structure Machine where
  store : Store := {}
  scope : Scope Ref TypeRef := {}
  /-- The number of evaluations in progress. -/
  depth : Nat := 0
  /-- The places of the calls in progress, innermost first. -/
  trace : List Position := []
  console : Console := {}
  input : List Char := []
  disk : Disk := {}
  /-- The directory that files are confined to. -/
  confinement : Option Path := none
  random : StdGen := mkStdGen
  deriving Inhabited

abbrev EvalM (α : Type) := ExceptT Halt (StateM Machine) α

namespace EvalM

def fault {α : Type} (f : Fault) : EvalM α :=
  throw (.fault f)

def ofExcept {α : Type} : Except Fault α → EvalM α
  | .ok a => return a
  | .error f => fault f

def store : EvalM Store := do
  return (← get).store

def make {α : Type} (f : Store → α × Store) : EvalM α :=
  modifyGet fun m =>
    let before := m.store
    let m := { m with store := {} }
    let (a, after) := f before
    (a, { m with store := after })

def change (f : Store → Store) : EvalM Unit :=
  make fun s => ((), f s)

def makeType {α : Type} (f : TypeStore → α × TypeStore) : EvalM α :=
  make fun s =>
    let before := s.types
    let s := { s with types := {} }
    let (a, after) := f before
    (a, { s with types := after })

def print (text : String) : EvalM Unit :=
  modify fun m => { m with console := m.console.print text }

def printCodes (codes : List Nat) : EvalM Unit :=
  modify fun m => { m with console := m.console.printCodes codes }

/-- Reports an error at a place, and halts. An error without a place is a fault. -/
def report {α : Type} (text : String) : Option Position → EvalM α
  | none => fault (.missing .position)
  | some p => do
    modify fun m =>
      let trace := if m.trace.head? = some p then m.trace else p :: m.trace
      { m with
        trace
        console := m.console.error
          (text ++ "\n" ++ "\n\tin\n".intercalate (trace.map Position.text)) }
    throw .reported

/-- Runs a step in a scope, and comes back to the scope outside, whether the step halts or not. -/
def inScope {α : Type} (scope : Scope Ref TypeRef) (x : EvalM α) : EvalM α :=
  ExceptT.mk do
    let outer := (← get).scope
    modify fun m => { m with scope }
    let r ← x.run
    modify fun m => { m with scope := outer }
    return r

/-- Runs a step of a call that is made at a place. -/
def inCall {α : Type} (position : Position) (x : EvalM α) : EvalM α := do
  modify fun m => { m with trace := position :: m.trace }
  let a ← x
  modify fun m => { m with trace := m.trace.tail }
  return a

/-! ## Objects -/

def object (r : Ref) : EvalM Object := do
  return (← store).object r

def content (r : Ref) : EvalM Content := do
  return (← store).content r

/-- The type of a value. An entry of a dictionary has none. -/
def typeOf (r : Ref) : EvalM TypeRef := do
  let o ← object r
  match o.content with
  | .entry _ _ => fault (.entry .type)
  | _ => return o.type

def sequence (place : Nat) : EvalM (List Ref) := do
  return (← store).sequence place

def element? (place index : Nat) : EvalM (Option Ref) := do
  return (← store).element? place index

def new (type : TypeRef) (content : Content) : EvalM Ref :=
  make (·.add ⟨type, content⟩)

def newInt (n : Int) : EvalM Ref := new .int (.int n)

def newBool (b : Bool) : EvalM Ref := new .bool (.bool b)

def newChar (s : String) : EvalM Ref := new .char (.char s)

def newString (s : String) : EvalM Ref := new .string (.string s)

def newNone : EvalM Ref := new .none .none

/-- There is room for fewer elements than this in a sequence. -/
def capacity : Nat := Nat.pow 2 36

/-- Is there room for a list of so many elements? A size is a position, below `2 ^ 63`. -/
def checkSize (size : Nat) : EvalM Unit := do
  if Nat.pow 2 63 ≤ size then fault .tooLarge
  else if capacity ≤ size then fault .outOfMemory

def newList (type : TypeRef) (elements : List Ref) : EvalM Ref := do
  let place ← make (·.addSequence elements)
  new type (.list place)

def newTuple (type : TypeRef) (elements : List Ref) : EvalM Ref := do
  let place ← make (·.addSequence elements)
  new type (.tuple place)

def same (a b : Ref) : EvalM Bool := do
  let s ← store
  return (s.value a).same (s.value b)

def text (r : Ref) : EvalM String := do
  ofExcept ((← store).text r)

/-! ## Types -/

/-- The type behind a handle. A type that lies within itself is too deep to be read. -/
def readType (t : TypeRef) : EvalM PlacedType := do
  let types := (← store).types
  if types.ends t then return types.read t else fault .tooDeep

def typeText (t : TypeRef) : EvalM String := do
  ofExcept (← readType t).text

def intern (t : PlacedType) : EvalM TypeRef :=
  makeType (·.intern t)

/-- The type that a value of type `found` has where `expected` is expected. Where they do not go
together, `mismatch` takes the message. -/
def checkWith (mismatch : String → EvalM Unit) (found expected : PlacedType) :
    EvalM (Option PlacedType) := do
  match found.conform? expected with
  | some .absent => return none
  | some t => return some t
  | none =>
    mismatch (← ofExcept (found.mismatch expected))
    return none

/-- The type that a value of type `found` has where `expected` is expected, or an error. -/
def check (position : Option Position) (found expected : TypeRef) : EvalM (Option PlacedType) := do
  checkWith (report · position) (← readType found) (← readType expected)

/-- Does a value of type `found` go where `expected` is expected? If not, that is an error. -/
def conforms (position : Option Position) (found expected : TypeRef) : EvalM Bool := do
  return (← check position found expected).isSome

/-- Like `check` for elements of a collection, where the error itself is a fault. -/
def checkElements (found expected : PlacedType) : EvalM (Option PlacedType) :=
  checkWith (fun _ => fault .mixedElements) found expected

/-- Does a value of type `found` go where `expected` is expected? -/
def fits (found expected : TypeRef) : EvalM Bool := do
  match (← readType found).conform? (← readType expected) with
  | some .absent => return false
  | some _ => return true
  | none => return false

/-! ## Names -/

def lookup (word label : String) (position : Option Position) : EvalM Ref := do
  match (← get).scope.get? word with
  | some r => return r
  | none => report (Scope.unboundMessage label) position

def bindName (name : String) (r : Ref) : EvalM Unit :=
  modify fun m => { m with scope := m.scope.add name r }

/-! ## Collections -/

/-- The place of the elements of a collection. The characters of a text and the entries of a
dictionary are put in a sequence of their own. -/
def elements (name : String) (r : Ref) (position : Option Position) : EvalM Nat := do
  let o ← object r
  match o.content, o.type with
  | .string s, .string =>
    let refs ← s.toList.mapM fun c => newChar (String.singleton c)
    make (·.addSequence refs)
  | .list place, .list _ => return place
  | .tuple place, .tuple _ => return place
  | .dict entries, .dict _ _ =>
    let refs ← entries.mapM fun e => new .absent (.entry e.1 e.2)
    make (·.addSequence refs)
  | .table _ rows, .table _ => return rows
  | _, t => report ("'" ++ name ++ "' requires iterable type, not " ++ (← typeText t)) position

/-- Takes the elements of the sequence at a place in turn, from an index on, and puts what `f`
gives after what is `done`. An element is looked up when its turn comes, so whatever `f` adds to
the sequence is taken too; a sequence with more turns than `room` counts as endless. -/
def visitFrom {α : Type} (place : Nat) (f : Ref → EvalM α) : Nat → Nat → Array α →
    EvalM (Array α)
  | 0, _, _ => fault .endless
  | room + 1, index, done => do
    match ← element? place index with
    | none => return done
    | some r =>
      let a ← f r
      visitFrom place f room (index + 1) (done.push a)

/-- What `f` gives on the elements of the sequence at a place, each taken as it is when its turn
comes. -/
def visit {α : Type} (place : Nat) (f : Ref → EvalM α) : EvalM (List α) := do
  let size := (← sequence place).length
  return (← visitFrom place f (size + capacity) 0 #[]).toList

/-- The type of the elements of a collection, `absent` if it is none. -/
def elementType (r : Ref) : EvalM TypeRef := do
  match (← object r).type with
  | .string => return .char
  | .list t => return t
  | .tuple c => return .union ((← store).types.cell c)
  | .dict k _ => makeType (·.addTuple [k, k])
  | .table place => return .union place
  | _ => return .absent

end EvalM

end TableScript
