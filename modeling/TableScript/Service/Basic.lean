import TableScript.Script
import TableScript.Service.Session

/-!
The service: sessions, and the machine on which their programs run and whose disk holds their files.

A request ends with an answer or fails, and what it did before it failed stays done. It fails with a
rejection, which has a status and tells why, or with a fault.
-/

namespace TableScript

structure Limits where
  files : Nat := 5
  size : Nat := 10000
  deriving DecidableEq, Inhabited, Repr

inductive Rejection where
  | noCookie
  | incomplete
  | tooLarge
  | badName
  | tooManyFiles
  | writing (f : Fault)
  | deleting (f : Fault)
  | interpreting (f : Fault)
  deriving DecidableEq, Repr

namespace Rejection

def status : Rejection → Nat
  | noCookie => 401
  | incomplete | tooLarge | badName | tooManyFiles => 400
  | writing _ | deleting _ | interpreting _ => 500

def detail : Rejection → String
  | noCookie => "Unauthorized: No session cookie found."
  | incomplete => "CSV name and content must be provided."
  | tooLarge => "CSV content exceeds maximum allowed size."
  | badName => "CSV name contains invalid characters."
  | tooManyFiles => "Too many CSV files exist. Please delete some before creating new ones."
  | writing f => "Error writing CSV: " ++ f.message
  | deleting f => "Error deleting CSV: " ++ f.message
  | interpreting f => "Interpretation error: " ++ f.message

end Rejection

inductive Failure where
  | rejected (r : Rejection)
  | fault (f : Fault)
  deriving DecidableEq, Repr

/-- The service, with its sessions in a store. -/
structure Service (σ : Type := List (String × Session)) [SessionStore σ] where
  limits : Limits := {}
  /-- The directory with a directory for every session. -/
  directory : Path := {}
  sessions : Sessions σ := {}
  machine : Machine := Machine.initial

/-- A step of the service with a store. -/
abbrev ServiceOn (σ : Type) [SessionStore σ] (α : Type) :=
  ExceptT Failure (StateM (Service σ)) α

/-- A step of the service with a list of sessions. -/
abbrev ServiceM (α : Type) := ServiceOn (List (String × Session)) α

namespace ServiceM

variable {σ α : Type} [SessionStore σ]

def reject (r : Rejection) : ServiceOn σ α :=
  throw (.rejected r)

def ofExcept : Except Fault α → ServiceOn σ α
  | .ok a => return a
  | .error f => throw (.fault f)

def rejecting (r : Fault → Rejection) (x : ServiceOn σ α) : ServiceOn σ α :=
  tryCatch x fun
    | .fault f => reject (r f)
    | e => throw e

def disk : ServiceOn σ Disk := do
  return (← get).machine.disk

def changeDisk (f : Disk → Except Fault Disk) : ServiceOn σ Unit := do
  let after ← ofExcept (f (← disk))
  modify fun s => { s with machine := { s.machine with disk := after } }

def changeSession (key : String) (c : Session.Change) : ServiceOn σ Unit := do
  let after ← ofExcept ((← get).sessions.change key c)
  modify fun s => { s with sessions := after }

def session (key : String) : ServiceOn σ Session := do
  ofExcept ((← get).sessions.read key)

end ServiceM

end TableScript
