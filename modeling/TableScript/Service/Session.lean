import TableScript.Fault
import TableScript.Scope

/-!
Sessions: for everyone who uses the service, the programs that were run and the files that were
made, in order.

A change of a session is a step from the session that was read to the one that is written back. The
sessions are kept under keys in a `SessionStore`, of which nothing is known but its laws; a session
that does not exist cannot be read.
-/

namespace TableScript

/-- What is kept about one user. -/
structure Session where
  history : List String := []
  /-- The paths of the files that were made. -/
  files : List String := []
  deriving DecidableEq, Inhabited, Repr

namespace Session

/-- The lists of a session. -/
inductive Field where
  | history | files
  deriving DecidableEq, Inhabited, Repr

def get (s : Session) : Field → List String
  | .history => s.history
  | .files => s.files

def set (s : Session) (items : List String) : Field → Session
  | .history => { s with history := items }
  | .files => { s with files := items }

inductive Change where
  /-- Adds an item at the end of a list. -/
  | add (field : Field) (item : String)
  /-- Takes the first occurrence of an item out of a list. -/
  | remove (field : Field) (item : String)
  deriving DecidableEq, Repr

def apply (s : Session) : Change → Except Fault Session
  | .add field item => .ok (s.set (s.get field ++ [item]) field)
  | .remove field item =>
    if item ∈ s.get field then .ok (s.set ((s.get field).erase item) field)
    else .error .notListed

end Session

/-- A store of sessions under keys. No key expires: a session stays until another one is written. -/
class SessionStore (σ : Type) where
  empty : σ
  find? : σ → String → Option Session
  put : σ → String → Session → σ
  isEmpty : σ → Bool
  find?_empty (k : String) : find? empty k = none
  isEmpty_iff (ss : σ) : isEmpty ss ↔ ∀ k, find? ss k = none
  /-- What was written last under a key is read there, and a write is seen under no other key. -/
  find?_put (ss : σ) (key : String) (s : Session) (k : String) :
    find? (put ss key s) k = if k = key then some s else find? ss k
  /-- A second write replaces the first. -/
  put_put (ss : σ) (key : String) (s t : Session) : put (put ss key s) key t = put ss key t

instance : SessionStore (List (String × Session)) where
  empty := []
  find? entries key := entries.lookup key
  put entries key s := rebind key s entries
  isEmpty := List.isEmpty
  find?_empty _ := rfl
  isEmpty_iff entries := by
    rw [List.isEmpty_iff]
    refine ⟨fun h k => by rw [h, List.lookup_nil], fun h => ?_⟩
    cases entries with
    | nil => rfl
    | cons e entries => simpa using h e.1
  find?_put entries key s k := lookup_rebind key s k entries
  put_put entries key s t := rebind_rebind key s t entries

/-- The sessions in a store, which is a list unless another one is named. -/
structure Sessions (σ : Type := List (String × Session)) [SessionStore σ] where
  entries : σ := SessionStore.empty
  deriving DecidableEq

namespace Sessions

variable {σ : Type} [SessionStore σ]

def read (ss : Sessions σ) (key : String) : Except Fault Session :=
  match SessionStore.find? ss.entries key with
  | some s => .ok s
  | none => .error .noSession

def write (ss : Sessions σ) (key : String) (s : Session) : Sessions σ :=
  { entries := SessionStore.put ss.entries key s }

/-- Changes the session of a key: it is read, changed and written back. -/
def change (ss : Sessions σ) (key : String) (c : Session.Change) : Except Fault (Sessions σ) := do
  let s ← ss.read key
  return ss.write key (← s.apply c)

end Sessions

end TableScript
