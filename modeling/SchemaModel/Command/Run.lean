import SchemaModel.Command.Order
import SchemaModel.Console.Terminal
import SchemaModel.Json.Writer
import SchemaModel.Model.Outline
import SchemaModel.Settings.Load

/-!
# The commands

`resolve` prints the model of a schema, `validate` checks a document against one.  A run starts
from the files of a workspace and the arguments, and ends with an exit code, what was printed and
the log level; it may also end in a crash, which leaves what was printed before.  How arguments are
read, settings coerced and texts printed is given from outside.
-/

namespace SchemaModel

def ResolutionResult.toValue [Platform] (result : ResolutionResult) : Except Fault Value := do
  let model ← result.model.toValue
  .ok (Value.object
    [("model", model), ("issues", .list (result.issues.map SchemaIssue.toValue))])

namespace Command

/-- What can end a run from within. -/
inductive Crash where
  | directory
  | nameTooLong
  | print (fault : PrintFault)
  | document (error : Json.ReadError)
  | fault (cause : Fault)
  deriving Inhabited

/-- How a run ends early. -/
inductive Ending where
  | exit (code : Nat)
  | crash (cause : Crash)
  deriving Inhabited

/-- What a run has shown and set. -/
structure Screen where
  output : String := ""
  logLevel : Nat := Settings.LogLevel.warn.number
  deriving Inhabited

abbrev Run := ExceptT Ending (StateM Screen)

namespace Run

def emit (text : String) : Run Unit :=
  modify fun screen => { screen with output := screen.output ++ text }

def exit {α : Type} (code : Nat) : Run α :=
  throw (.exit code)

def crash {α : Type} (cause : Crash) : Run α :=
  throw (.crash cause)

/-- Shows what a terminal prints. -/
def put (printed : Except PrintFault String) : Run Unit :=
  match printed with
  | .ok text => emit text
  | .error fault => crash (.print fault)

/-- A result that may be at fault. -/
def ofFault {α : Type} : Except Fault α → Run α
  | .ok a => pure a
  | .error cause => crash (.fault cause)

variable [Platform] [Terminal]

def say (markup : Text) : Run Unit :=
  Run.put (Terminal.line markup)

def sayTable (header : List String) (rows : List (List Text)) : Run Unit :=
  Run.put (Terminal.table header rows)

def sayJson (value : Value) : Run Unit := do
  let text ← ofFault (Fault.ofWritten (Json.write value))
  Run.put (Terminal.json text)

def fail {α : Type} (markup : Text) : Run α := do
  say ("[red]Error:[/red] " ++ markup)
  exit 1

end Run

open Terminal (escape)

inductive Format where
  | json
  | table
  | markdown
  deriving DecidableEq, Inhabited

def Format.name : Format → String
  | .json => "json"
  | .table => "table"
  | .markdown => "markdown"

variable [Platform] [Terminal]

def chooseFormat (known : List Format) (name : String) : Run Format :=
  match known.find? fun format => format.name = name with
  | some format => pure format
  | none =>
    Run.fail ("Invalid format '" ++ name ++ "'. Must be one of: " ++
      commaSeparated (known.map Format.name) : String)

def loadSettings [Settings.Coercion] (workspace : Workspace) (path : Option String) :
    Run Settings :=
  match Settings.load workspace path with
  | .ok settings => do
    modify fun screen => { screen with logLevel := settings.logging.number }
    pure settings
  | .error .directory => Run.crash .directory
  | .error (.lookup (.nameTooLong _)) => Run.crash .nameTooLong
  | .error error => Run.fail (escape error.message)

def loadDocument (workspace : Workspace) (path : FilePath) (label : String) : Run Value :=
  match workspace.find path with
  | .error _ => Run.crash .nameTooLong
  | .ok none => Run.fail (label ++ " file not found: " ++ path.text : String)
  | .ok (some node) =>
    match Settings.readFile node with
    | .ok value => pure value
    | .error .directory => Run.crash .directory
    | .error (.invalid error) =>
      match error.defect with
      | .longInteger .. => Run.crash (.document error)
      | _ =>
        Run.fail
          ("Invalid JSON in " ++ label ++ " file " ++ path.text ++ ": " ++ error.message : String)

def loadSchema (workspace : Workspace) (path : FilePath) (settings : Settings) :
    Run ResolutionResult := do
  let schema ← loadDocument workspace path "schema"
  match resolve schema settings.resolver with
  | .ok result => pure result
  | .error (.fault cause) => Run.crash (.fault cause)
  | .error stop => Run.fail (escape stop.message)

def issueCells (issue : SchemaIssue) : List Text :=
  let colour := if issue.severity = .warning then "yellow" else "dim"
  [.plain issue.code.name,
   .plain ("[" ++ colour ++ "]" ++ issue.severity.capitals ++ "[/" ++ colour ++ "]"),
   escape issue.message,
   escape issue.path]

def saySchemaIssues (result : ResolutionResult) : Run Unit :=
  if result.issues.isEmpty then pure ()
  else do
    Run.say "\n[blue]Schema Issues:[/blue]"
    Run.sayTable ["Code", "Severity", "Message", "Location"] (result.issues.map issueCells)

def sayResolution (result : ResolutionResult) : Run Unit := do
  let report ← Run.ofFault result.toValue
  Run.sayJson report

def sayModel (result : ResolutionResult) (schema : FilePath) : Run Unit := do
  Run.say ("[green]Resolved:[/green] " ++ schema.text : String)
  let words ← Run.ofFault result.model.describe
  Run.say ("Model: " ++ words : String)
  saySchemaIssues result

variable [Settings.Coercion]

def runResolve (workspace : Workspace) (request : Request) (schema : FilePath) : Run Unit := do
  let format ← chooseFormat [.json, .table] request.format
  let settings ← loadSettings workspace request.settings
  let result ← loadSchema workspace schema settings
  if format = .json then sayResolution result
  else sayModel result schema

def sayMarkdown (result : ValidationResult) : Run Unit := do
  Run.say "# Validation Report"
  Run.say ("**Accepted:** " ++ shownFlag result.accepted : String)
  Run.say ("**Exit Code:** " ++ wholeText result.exitCode : String)
  Run.say ""
  if result.issues.isEmpty then pure ()
  else
    Run.say "## Issues"
    result.issues.forM fun issue =>
      Run.say ("- \x60" ++ escape issue.path ++ "\x60: " ++ escape issue.reason)

def sayStatus (result : ValidationResult) (resolution : ResolutionResult) : Run Unit := do
  let colour := if result.accepted then "green" else "red"
  let status := if result.accepted then "ACCEPTED" else "REJECTED"
  Run.say ("[" ++ colour ++ "]Validation Status: " ++ status ++ "[/" ++ colour ++ "]" : String)
  Run.say ("Exit Code: " ++ wholeText result.exitCode : String)
  if result.issues.isEmpty then Run.say "\n[green]No issues found![/green]"
  else
    Run.say "\n[blue]Issues Found:[/blue]"
    Run.sayTable ["Path", "Reason"] (result.issues.map fun issue =>
      [escape issue.path, escape issue.reason])
  saySchemaIssues resolution

def runValidate (workspace : Workspace) (request : Request) (schema data : FilePath) :
    Run Unit := do
  let format ← chooseFormat [.table, .json, .markdown] request.format
  let settings ← loadSettings workspace request.settings
  let resolution ← loadSchema workspace schema settings
  let value ← loadDocument workspace data "data"
  let result ← Run.ofFault (resolution.model.validate value settings.validator)
  match format with
  | .json => Run.sayJson result.toValue
  | .markdown => sayMarkdown result
  | .table => sayStatus result resolution
  Run.exit result.exitCode

def carryOut (workspace : Workspace) : Order → Run Unit
  | .usage => Run.exit 2
  | .help => Run.exit 0
  | .version => do
    Run.say "schemashape version 0.1.0"
    Run.exit 0
  | .resolve request schema => runResolve workspace request schema
  | .validate request schema data => runValidate workspace request schema data

/-- How a run ended, what it printed and the log level it left. -/
structure Outcome where
  exitCode : Nat
  output : String
  logLevel : Nat
  crash : Option Crash := none
  deriving Inhabited

def run [ArgumentReader] (workspace : Workspace) (arguments : List String) : Outcome :=
  match (carryOut workspace (ArgumentReader.read arguments)).run.run {} with
  | (.ok (), screen) => ⟨0, screen.output, screen.logLevel, none⟩
  | (.error (.exit code), screen) => ⟨code, screen.output, screen.logLevel, none⟩
  | (.error (.crash cause), screen) => ⟨1, screen.output, screen.logLevel, some cause⟩

end Command

end SchemaModel
