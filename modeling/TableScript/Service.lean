import TableScript.Service.Files

/-!
The requests to the service. Whoever uses it is known by a cookie, which is the key of their
session, and has a directory by that name.
-/

namespace TableScript.Service

open ServiceM

variable {σ : Type} [SessionStore σ]

def newCookie : String := "TEST_COOKIE"

/-- Starts a session for a request that has no cookie. The answer is the new cookie. -/
def start (cookie : Option String) : ServiceOn σ (Option String) :=
  match cookie.getD "" with
  | "" => do
    modify fun s => { s with sessions := s.sessions.write newCookie {} }
    return some newCookie
  | _ => return none

/-- The cookie of a request that has to have one. -/
def verify (cookie : Option String) : ServiceOn σ String :=
  match cookie.getD "" with
  | "" => reject .noCookie
  | key => return key

def directoryOf (key : String) : ServiceOn σ Path := do
  return Path.ofString ((← get).directory.text ++ "/" ++ key)

/-- Runs a program that is confined to a directory. -/
def runIn (directory : Path) (text : String) : ServiceOn σ Transcript := do
  let s ← get
  let (result, machine) := executeDirect text { s.machine with confinement := some directory }
  set { s with machine }
  ofExcept result

/-- Runs a program of a session. It is in the history whatever comes of it. The request is rejected
if the program breaks down; as long as it goes on there is no answer. -/
def interpret (cookie : Option String) (text : String) : ServiceOn σ Transcript := do
  let key ← verify cookie
  changeSession key (.add .history text)
  let directory ← directoryOf key
  tryCatch (runIn directory text) fun
    | .fault f => if f.ends then reject (.interpreting f) else throw (.fault f)
    | e => throw e

def history (cookie : Option String) : ServiceOn σ (List String) := do
  return (← session (← verify cookie)).history

/-- The names in a directory, in alphabetical order. -/
def listing (directory : Path) : ServiceOn σ (List String) := do
  return (← ofExcept ((← disk).list directory)).mergeSort fun a b => decide (a ≤ b)

/-- Creates a file of a session. The answer tells what its directory holds. -/
def create (cookie : Option String) (name : String) (sheet : Sheet) (headers : Bool) :
    ServiceOn σ (List String) := do
  let key ← verify cookie
  let directory ← directoryOf key
  createFile directory key name sheet headers
  listing directory

/-- Deletes a file of a session. The answer tells what its directory holds. -/
def delete (cookie : Option String) (name : String) : ServiceOn σ (List String) := do
  let key ← verify cookie
  let directory ← directoryOf key
  deleteFile directory key name
  listing directory

/-- Looks for sessions that have come to an end. It breaks down on the first key that there is. -/
def cleanUp : ServiceOn σ Unit := do
  let s ← get
  unless SessionStore.isEmpty s.sessions.entries do throw (.fault .decodedKey)
  let _ ← ofExcept (s.machine.disk.list s.directory)

/-- Ends the service: the files of all sessions are removed. -/
def close : ServiceOn σ Unit :=
  changeDisk fun d => return d.removeDirectory (d.homePath.join { parts := ["csvs"] })

end TableScript.Service
