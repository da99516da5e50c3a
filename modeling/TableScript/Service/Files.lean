import TableScript.Csv
import TableScript.Service.Basic

/-!
The files of a session. They hold comma-separated values and lie in a directory of the session; its
list of files gets a path for every file that is written.
-/

namespace TableScript.Service

open ServiceM

variable {σ : Type} [SessionStore σ]

/-- Rows of fields, as they are sent. -/
abbrev Sheet := List (List Csv.Item)

/-- The file of a name in a directory. The ending may be left out of the name. -/
def filePath (directory : Path) (name : String) : Path :=
  directory.join (Path.ofString
    (if Csv.ending.toList.isSuffixOf name.toList then name else name ++ Csv.ending))

/-- May a name not hold the character? -/
def isBadInName (c : Char) : Bool :=
  c == ',' || c == '/' || c == '\\'

/-- The reason to reject a file that is sent. Its size is that of its first row times the number of
rows. -/
def checkSheet (limits : Limits) (name : String) (sheet : Sheet) : Option Rejection :=
  match sheet with
  | [] => some .incomplete
  | first :: _ =>
    if name.isEmpty then some .incomplete
    else if limits.size < first.length * sheet.length then some .tooLarge
    else if name.toList.any isBadInName then some .badName
    else none

/-- Gets ready for a file: the directory is there and holds no such file. The number of files counts
only after that. -/
def prepareFile (directory : Path) (key name : String) (sheet : Sheet) : ServiceOn σ Unit := do
  if let some r := checkSheet (← get).limits name sheet then reject r
  unless ← ofExcept ((← disk).probe directory) do
    changeDisk (·.makeDirectory directory)
  let path := directory.join { parts := [name ++ Csv.ending] }
  if ← ofExcept ((← disk).probe path) then
    changeDisk (·.removeFile path)
  if (← get).limits.files ≤ (← session key).files.length then reject .tooManyFiles

/-- Writes a file, with its first row or without it. -/
def writeFile (path : Path) (key : String) (sheet : Sheet) (headers : Bool) : ServiceOn σ Unit :=
  rejecting .writing do
    let rows := if headers then sheet else sheet.tail
    let (text, outcome) := Csv.write rows
    changeDisk (·.write path text)
    ofExcept outcome
    changeSession key (.add .files path.text)

def createFile (directory : Path) (key name : String) (sheet : Sheet) (headers : Bool) :
    ServiceOn σ Unit := do
  prepareFile directory key name sheet
  writeFile (filePath directory name) key sheet headers

/-- Deletes the file of a name in a directory, if it is there. -/
def deleteFile (directory : Path) (key name : String) : ServiceOn σ Unit := do
  let path := filePath directory name
  if (← disk).holds path then
    rejecting .deleting do
      changeDisk (·.removeFile path)
      changeSession key (.remove .files path.text)

end TableScript.Service
