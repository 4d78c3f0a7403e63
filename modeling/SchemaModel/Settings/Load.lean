import SchemaModel.Json.Reader
import SchemaModel.Settings.Basic
import SchemaModel.Workspace

/-!
# Settings files

Settings are read from a named file, or from the nearest `.schemashape.json` at or above the working
directory.  Where there is no such file the defaults hold.
-/

namespace SchemaModel.Settings

def fileName : String := ".schemashape.json"

/-- Why a file cannot be looked up: its name cannot be written, or is too long. -/
inductive LookupError where
  | nullCharacter
  | nameTooLong (path : String)
  deriving DecidableEq, Inhabited

def LookupError.message : LookupError → String
  | .nullCharacter => "embedded null byte"
  | .nameTooLong path => "[Errno 36] File name too long: " ++ Text.quoted path

def searchStart (workspace : Workspace) (start : Option String) : Location :=
  match start with
  | none => .inside workspace.here
  | some text => workspace.place (FilePath.ofText text)

/-- Searches the settings file from a directory upward and gives its absolute text with it. -/
def findFile (workspace : Workspace) (start : Option String) :
    Except LookupError (Option (String × FileNode)) :=
  if start.any fun text => !FilePath.isNameable text then .error .nullCharacter
  else
    match searchStart workspace start with
    | .outside => .ok none
    | .inside names =>
      let nearest := workspace.absolute (names ++ [fileName])
      if FilePath.maxText < nearest.utf8ByteSize || workspace.meetsLongName (.inside []) names then
        .error (.nameTooLong nearest)
      else
        .ok do
          let found ← workspace.searchUpward? fileName names
          let node ← workspace.node? found
          return (workspace.absolute found, node)

/-- What stands where settings are looked for, with the text of its path: at the named path, or at
the place that a search finds. -/
def lookUp (workspace : Workspace) (path : Option String) :
    Except LookupError (Option (String × FileNode)) :=
  match path with
  | none => findFile workspace none
  | some text => do
    let path := FilePath.ofText text
    let node ← (workspace.find path).mapError fun long => .nameTooLong long.path
    .ok (node.map fun node => (path.text, node))

inductive DocumentError where
  | directory
  | invalid (error : Json.ReadError)
  deriving DecidableEq, Inhabited

inductive LoadError where
  | lookup (error : LookupError)
  | directory
  | invalid (path : String) (error : Json.ReadError)
  | notObject (path typeName : String)
  | rejected (path : String) (complaints : List Complaint)
  deriving DecidableEq, Inhabited

variable [Platform]

def readFile : FileNode → Except DocumentError Value
  | .directory => .error .directory
  | .file text =>
    let text := String.ofList (Text.unifyLineEnds text.toList)
    (Json.read text).mapError .invalid

variable [Coercion]

def LoadError.message : LoadError → String
  | .lookup error => error.message
  | .directory => ""
  | .invalid path error =>
    match error.defect with
    | .longInteger .. => error.message
    | _ => "Invalid JSON in config file " ++ path ++ ": " ++ error.message
  | .notObject path typeName =>
    "Failed to load config from " ++ path ++
      ": schemashape.config.SchemaShapeConfig() argument after ** must be a mapping, not " ++
      typeName
  | .rejected path complaints =>
    "Failed to load config from " ++ path ++ ": " ++ Coercion.report complaints

def ofFile (path : String) (node : FileNode) : Except LoadError Settings :=
  match readFile node with
  | .error .directory => .error .directory
  | .error (.invalid error) => .error (.invalid path error)
  | .ok (.mapping _ entries) => (read entries).mapError (.rejected path)
  | .ok value => .error (.notObject path value.typeName)

/-- The settings of a named file, or of the one that is found. -/
def load (workspace : Workspace) (path : Option String) : Except LoadError Settings := do
  match ← (lookUp workspace path).mapError .lookup with
  | none => .ok {}
  | some (path, node) => ofFile path node

end SchemaModel.Settings
