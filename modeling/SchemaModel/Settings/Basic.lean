import SchemaModel.Model.Check
import SchemaModel.Schema.Resolve
import SchemaModel.Settings.Coercion

/-!
# Settings

The settings have three sections: how schemas are read, how values are validated and how much is
logged. A field is given under its short name or its long one; the short one wins.  All problems
are gathered, in the order of the fields, and the keys that belong to no section come last.
-/

namespace SchemaModel

namespace Settings

inductive LogLevel where
  | error
  | warn
  | info
  | debug
  | trace
  deriving DecidableEq, Inhabited

namespace LogLevel

def name : LogLevel → String
  | .error => "error"
  | .warn => "warn"
  | .info => "info"
  | .debug => "debug"
  | .trace => "trace"

/-- The number of a level; the finest two share one. -/
def number : LogLevel → Nat
  | .error => 40
  | .warn => 30
  | .info => 20
  | .debug => 10
  | .trace => 10

def all : List LogLevel :=
  [.error, .warn, .info, .debug, .trace]

def read : Value → Except Problem LogLevel
  | .str text =>
    match all.find? fun level => level.name = text with
    | some level => .ok level
    | none => .error .level
  | _ => .error .level

end LogLevel

/-- A result, or all the complaints about its parts. -/
abbrev Checked (α : Type) := Except (List Complaint) α

def Checked.both {α β : Type} : Checked α → Checked β → Checked (α × β)
  | .ok a, .ok b => .ok (a, b)
  | .ok _, .error complaints => .error complaints
  | .error complaints, .ok _ => .error complaints
  | .error first, .error second => .error (first ++ second)

/-- A field under the first of its names that is given, or its default. -/
def field {α : Type} (entries : List (Key × Value)) (place names : List Text)
    (default : α) (read : Value → Except Problem α) : Checked α :=
  match names.findSome? fun name => (Entries.get? entries name).map fun value => (name, value) with
  | none => .ok default
  | some (name, value) => (read value).mapError fun problem => [⟨place ++ [name], problem⟩]

variable [Coercion]

def readDepth (value : Value) : Except Problem Nat := do
  let depth ← Coercion.whole value
  if depth < 1 then .error (.outOfRange "max_depth must be >= 1")
  else if 128 < depth then
    .error (.outOfRange "max_depth must be <= 128 to stay within the interpreter recursion limit")
  else .ok depth.toNat

def readIssueLimit (value : Value) : Except Problem Nat := do
  let limit ← Coercion.whole value
  if limit < 1 then .error (.outOfRange "max_issues must be >= 1") else .ok limit.toNat

def readResolver (place : List Text) (entries : List (Key × Value)) :
    Checked ResolverSettings :=
  let depth := field entries place ["maxDepth", "max_depth"] 64 readDepth
  let strict := field entries place ["strict"] false Coercion.flag
  let report := field entries place ["reportUnsupported", "report_unsupported"] true Coercion.flag
  (depth.both (strict.both report)).map fun (depth, strict, report) => ⟨depth, strict, report⟩

def readValidator (place : List Text) (entries : List (Key × Value)) :
    Checked ValidatorSettings :=
  let failFast := field entries place ["failFast", "fail_fast"] false Coercion.flag
  let limit := field entries place ["maxIssues", "max_issues"] 100 readIssueLimit
  (failFast.both limit).map fun (failFast, limit) => ⟨failFast, limit⟩

def readLogging (place : List Text) (entries : List (Key × Value)) : Checked LogLevel :=
  field entries place ["level"] .warn LogLevel.read

end Settings

structure Settings where
  resolver : ResolverSettings := {}
  validator : ValidatorSettings := {}
  logging : Settings.LogLevel := .warn
  deriving DecidableEq, Inhabited

namespace Settings

def readSection {α : Type} (entries : List (Key × Value)) (name owner : String) (default : α)
    (read : List Text → List (Key × Value) → Checked α) : Checked α :=
  match Entries.get? entries name with
  | none => .ok default
  | some (.mapping _ fields) => read [name] fields
  | some _ => .error [⟨[name], .notSection owner⟩]

def sectionNames : List String :=
  ["resolver", "validator", "logging"]

def checkKeys (entries : List (Key × Value)) : Checked Unit :=
  let unknown := (entries.map fun entry => entry.1.text).filter fun (name : Text) =>
    !sectionNames.any fun known => name = known
  if unknown.isEmpty then .ok ()
  else .error (unknown.map fun name => ⟨[name], .unknownKey⟩)

def read [Coercion] (entries : List (Key × Value)) : Checked Settings :=
  let resolver := readSection entries "resolver" "ResolverConfig" {} readResolver
  let validator := readSection entries "validator" "ValidatorConfig" {} readValidator
  let logging := readSection entries "logging" "LoggingConfig" .warn readLogging
  (resolver.both (validator.both (logging.both (checkKeys entries)))).map
    fun (resolver, validator, logging, _) => ⟨resolver, validator, logging⟩

end Settings

end SchemaModel
