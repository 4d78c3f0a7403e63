import SchemaModel.Text.Quoted
import SchemaModel.Value.Basic

/-!
# Issues of a schema document
-/

namespace SchemaModel

/-- How serious an issue is. -/
inductive Severity where
  | info
  | warning
  deriving DecidableEq, Inhabited

/-- What an issue is about. -/
inductive IssueCode where
  | unsupportedKeyword
  | malformedSchema
  deriving DecidableEq, Inhabited

def Severity.name : Severity → String
  | .info => "info"
  | .warning => "warning"

def Severity.capitals : Severity → String
  | .info => "INFO"
  | .warning => "WARNING"

def Severity.ofName? (name : Text) : Option Severity :=
  [Severity.info, .warning].find? fun severity => severity.name = name

def IssueCode.name : IssueCode → String
  | .unsupportedKeyword => "unsupported_keyword"
  | .malformedSchema => "malformed_schema"

def IssueCode.ofName? (name : Text) : Option IssueCode :=
  [IssueCode.unsupportedKeyword, .malformedSchema].find? fun code => code.name = name

/-- A name that no code has, or no severity. -/
inductive UnknownName where
  | code (name : Text)
  | severity (name : Text)
  deriving DecidableEq, Inhabited

def UnknownName.message : UnknownName → String
  | .code name => Text.quoted name ++ " is not a valid IssueCode"
  | .severity name => Text.quoted name ++ " is not a valid Severity"

/-- A problem at a place of a schema document. -/
structure SchemaIssue where
  code : IssueCode
  severity : Severity
  message : Text
  path : Text := "#"
  deriving DecidableEq, Inhabited

namespace SchemaIssue

/-- An issue whose code and severity are given by name; the code is looked up first. -/
def ofNames (code severity message : Text) (path : Text := "#") :
    Except UnknownName SchemaIssue :=
  match IssueCode.ofName? code, Severity.ofName? severity with
  | none, _ => .error (.code code)
  | some _, none => .error (.severity severity)
  | some code, some severity => .ok ⟨code, severity, message, path⟩

def text (issue : SchemaIssue) : Text :=
  "[" ++ issue.severity.capitals ++ "] " ++ issue.code.name ++ ": " ++ issue.message ++ " at " ++
    issue.path

def toValue (issue : SchemaIssue) : Value :=
  Value.object
    [("code", .str issue.code.name), ("severity", .str issue.severity.name),
     ("message", .str issue.message), ("path", .str issue.path)]

end SchemaIssue

end SchemaModel
