import TableScript.Config.Yaml
import TableScript.Disk.Basic

/-!
The configuration of the service. It is read from a file below the directory from which relative
paths start. A section that is left out has defaults; one that is there has to have all its entries.
-/

namespace TableScript

structure ModelConfig where
  core : Yaml
  embed : Yaml
  host : Yaml
  port : Yaml

/-- Where the files of the sessions are, and how many there may be of what size. -/
structure FileConfig where
  directory : Path
  maxFiles : Yaml
  maxSize : Yaml

/-- Where the sessions are kept, and for how long. -/
structure StoreConfig where
  host : Yaml
  port : Yaml
  database : Yaml
  expiry : Yaml

structure Config where
  models : ModelConfig
  files : FileConfig
  /-- The seconds between two looks for sessions that have come to an end. -/
  interval : Yaml
  store : StoreConfig

namespace Config

/-- Why there is no configuration. -/
inductive Problem where
  | unreadable (path : Path) (f : Fault)
  /-- The file holds a number that cannot be read. -/
  | badNumber (path : Path) (p : Yaml.NumberProblem)
  /-- The file says nothing, or is no mapping. -/
  | noMapping
  /-- An entry is asked of something that has none. -/
  | noEntries
  | noEntry (key : String)
  /-- The directory of the files is no text. -/
  | noDirectory
  deriving DecidableEq, Repr

def loadFailure (path : Path) (reason : String) : String :=
  "Error loading configuration file " ++ path.text ++ ": " ++ reason

def Problem.message : Problem → String
  | unreadable path f => loadFailure path f.message
  | badNumber path p => loadFailure path p.message
  | noMapping => "no mapping"
  | noEntries => "no entries"
  | noEntry key => Text.quote key
  | noDirectory => "no directory"

def entry (key : String) : Yaml → Except Problem Yaml
  | .mapping entries =>
    match Yaml.find? entries key with
    | some v => .ok v
    | none => .error (.noEntry key)
  | _ => .error .noEntries

/-- A section of the configuration, with the entries it has when it is left out. -/
def sectionOf (root : List (String × Yaml)) (key : String) (otherwise : List (String × Yaml)) :
    Yaml :=
  (Yaml.find? root key).getD (.mapping otherwise)

def readModels (root : List (String × Yaml)) : Except Problem ModelConfig := do
  let models := sectionOf root "models" [("core", .text "qwen2.5:7b"),
    ("embed", .text "nomic-embed-text"), ("url", .text "http://localhost"), ("port", .int 11434)]
  return { core := ← entry "core" models, embed := ← entry "embed" models
           host := ← entry "url" models, port := ← entry "port" models }

def readFiles (home : Path) (root : List (String × Yaml)) : Except Problem FileConfig := do
  let directory ← match ← entry "directory"
      (sectionOf root "csv" [("directory", .text "csvs")]) with
    | .text s => pure (home.join (Path.ofString s))
    | _ => throw .noDirectory
  let files := sectionOf root "csv" [("max", .mapping [("files", .int 5), ("size", .int 10000)])]
  return { directory
           maxFiles := ← entry "files" (← entry "max" files)
           maxSize := ← entry "size" (← entry "max" files) }

def readStore (root : List (String × Yaml)) : Except Problem StoreConfig := do
  let store := sectionOf root "redis"
    [("host", .text "localhost"), ("port", .int 6379), ("db", .int 0)]
  return { host := ← entry "host" store, port := ← entry "port" store
           database := ← entry "db" store, expiry := ← entry "expire_seconds" store }

def ofYaml (home : Path) : Yaml → Except Problem Config
  | .mapping root => do
    return { models := ← readModels root
             files := ← readFiles home root
             interval := ← entry "interval_seconds"
               (sectionOf root "cleanup" [("interval_seconds", .int 900)])
             store := ← readStore root }
  | _ => .error .noMapping

/-- The file with the configuration. There is one for the service in a container of its own. -/
def filePath (home : Path) (contained : Bool) : Path :=
  home.join { parts := ["resources", "server",
    if contained then "server_config.yaml" else "server_config_local.yaml"] }

def load (d : Disk) (contained : Bool) : Except Problem Config := do
  let path := filePath d.homePath contained
  let raw ← (d.read path).mapError (.unreadable path)
  ofYaml d.homePath (← (Yaml.parse raw).mapError (.badNumber path))

end Config

def Yaml.shown : Yaml → String
  | .null => "None"
  | .int n => toString n
  | .text s => s
  | .mapping _ => ""

def ModelConfig.url (m : ModelConfig) : String :=
  "http://" ++ m.host.shown ++ ":" ++ m.port.shown

end TableScript
