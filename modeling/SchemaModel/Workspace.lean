import SchemaModel.Text.Split

/-!
# Files

A workspace is a tree of files below a root, seen from a working directory.  A path is read part
by part from there; what lies above the root is a directory about whose other contents nothing is
known.
-/

namespace SchemaModel

/-- A file with its text, or a directory. -/
inductive FileNode where
  | file (text : String)
  | directory
  deriving DecidableEq, Inhabited

/-- A place reached by a path: below the root, or above it. -/
inductive Location where
  | inside (names : List String)
  | outside
  deriving DecidableEq, Inhabited

/-- A tree of files.  `root` is how the root is written in an absolute path, `here` the working
directory and `top` the place at which absolute paths start. -/
structure Workspace where
  nodes : List (List String × FileNode) := []
  here : List String := []
  root : String := ""
  top : Location := .inside []
  deriving Inhabited

/-- A path: the slashes in front of an absolute one, and its parts without empty ones and dots. -/
structure FilePath where
  anchor : String
  parts : List String
  deriving DecidableEq, Inhabited

namespace FilePath

/-- The path written by a text.  Two slashes in front are kept, more count as one. -/
def ofText (text : String) : FilePath :=
  let chars := text.toList
  let slashes := (chars.takeWhile (· = '/')).length
  let anchor := if slashes = 0 then "" else if slashes = 2 then "//" else "/"
  let parts := (Text.split (· = '/') chars).map String.ofList
  ⟨anchor, parts.filter fun part => part ≠ "" && part ≠ "."⟩

def text (path : FilePath) : String :=
  if path.anchor = "" && path.parts.isEmpty then "."
  else path.anchor ++ "/".intercalate path.parts

/-- Whether a text can name a file at all: the null character stands in no name. -/
def isNameable (text : String) : Bool :=
  !text.toList.contains '\x00'

def maxName : Nat := 255

def maxText : Nat := 4095

end FilePath

/-- A path that is too long to be looked up, by its text. -/
structure NameTooLong where
  path : String
  deriving DecidableEq, Inhabited

namespace Workspace

/-- What stands at a place below the root.  A name on the way to another is a directory. -/
def node? (workspace : Workspace) (names : List String) : Option FileNode :=
  match workspace.nodes.lookup names with
  | some node => some node
  | none =>
    if names.isPrefixOf workspace.here ||
        workspace.nodes.any fun node => names.isPrefixOf node.1 then
      some .directory
    else none

def at? (workspace : Workspace) : Location → Option FileNode
  | .inside names => workspace.node? names
  | .outside => some .directory

def step (workspace : Workspace) (place : Location) (part : String) : Location :=
  match place with
  | .outside => .outside
  | .inside names =>
    if part = ".." then if names.isEmpty then workspace.top else .inside names.dropLast
    else .inside (names ++ [part])

/-- Where a path leads, if every part but the last is a directory on the way.  Above the root only
the way further up is known. -/
def walk? (workspace : Workspace) : Location → List String → Option Location
  | place, [] => some place
  | .outside, part :: parts => if part = ".." then workspace.walk? .outside parts else none
  | .inside names, part :: parts =>
    if workspace.node? names = some .directory then
      workspace.walk? (workspace.step (.inside names) part) parts
    else none

def start (workspace : Workspace) (path : FilePath) : Location :=
  if path.anchor = "" then .inside workspace.here else workspace.top

def find? (workspace : Workspace) (path : FilePath) : Option FileNode :=
  (workspace.walk? (workspace.start path) path.parts).bind workspace.at?

/-- Whether a name that is too long is looked up on the way along a path. -/
def meetsLongName (workspace : Workspace) : Location → List String → Bool
  | _, [] => false
  | .outside, part :: parts =>
    if part = ".." then workspace.meetsLongName .outside parts
    else FilePath.maxName < part.utf8ByteSize
  | .inside names, part :: parts =>
    workspace.node? names = some .directory &&
      (FilePath.maxName < part.utf8ByteSize ||
        workspace.meetsLongName (workspace.step (.inside names) part) parts)

/-- What a path leads to, unless the path or a name on the way is too long to be looked up. -/
def find (workspace : Workspace) (path : FilePath) : Except NameTooLong (Option FileNode) :=
  if FilePath.isNameable path.text && (FilePath.maxText < path.text.utf8ByteSize ||
      workspace.meetsLongName (workspace.start path) path.parts) then
    .error ⟨path.text⟩
  else .ok (workspace.find? path)

def place (workspace : Workspace) (path : FilePath) : Location :=
  path.parts.foldl workspace.step (workspace.start path)

def absolute (workspace : Workspace) (names : List String) : String :=
  workspace.root ++ "/" ++ "/".intercalate names

def upward (name : String) (names : List String) : List (List String) :=
  (List.range (names.length + 1)).reverse.map fun count => names.take count ++ [name]

def searchUpward? (workspace : Workspace) (name : String) (names : List String) :
    Option (List String) :=
  (upward name names).find? fun candidate => (workspace.node? candidate).isSome

/-- The places below the root that a path passes on its way. -/
def passed (workspace : Workspace) (path : FilePath) : List (List String) :=
  (List.range (path.parts.length + 1)).filterMap fun count =>
    match workspace.place { path with parts := path.parts.take count } with
    | .inside names => some names
    | .outside => none

end Workspace

end SchemaModel
