import SchemaModel.Model.Accepts
import SchemaModel.Value.Path

/-!
# Traced checks

`Model.check` decides the same question as `Model.accepts` and writes the places where a value
fails into a trail.  A trail takes no more issues than its limit, and a check that stops at the
first failure writes no more than one.  Whether a branch of a union matches is always decided
silently.
-/

namespace SchemaModel

/-- A place inside a value and why the value fails there. -/
structure ValueIssue where
  path : String
  reason : String
  deriving DecidableEq, Inhabited

def ValueIssue.text (issue : ValueIssue) : String :=
  issue.path ++ ": " ++ issue.reason

/-- The issues met so far, at most `limit` of them. -/
structure Trail where
  limit : Nat
  issues : List ValueIssue := []
  deriving DecidableEq, Inhabited

def Trail.add (trail : Trail) (path : ValuePath) (reason : String) : Trail :=
  if trail.issues.length < trail.limit then
    { trail with issues := trail.issues ++ [⟨path.text, reason⟩] }
  else trail

/-- The verdict of a traced check and the trail it leaves. -/
abbrev Verdict := Bool × Trail

def Trail.reject (trail : Trail) (path : ValuePath) (reason : String) : Verdict :=
  (false, trail.add path reason)

/-- Checks one thing after another and accepts when all are accepted.  A halting check ends at the
first rejection. -/
def checkEach {α ε : Type} (halting : Bool) (step : α → Trail → Except ε Verdict)
    (accepted : Bool) : List α → Trail → Except ε Verdict
  | [], trail => .ok (accepted, trail)
  | x :: xs, trail => do
    let (fine, trail) ← step x trail
    if fine then checkEach halting step accepted xs trail
    else if halting then .ok (false, trail)
    else checkEach halting step false xs trail

def countOk {α ε : Type} (test : α → Except ε Bool) : List α → Except ε Nat
  | [] => .ok 0
  | x :: xs => do
    let fine ← test x
    let count ← countOk test xs
    .ok (if fine then count + 1 else count)

namespace Model

open Datum (look)

variable [Platform] {α : Type} [Datum α]

def wrongKind (expected : Kind) (value : α) : String :=
  "expected " ++ expected.name ++ ", got " ++ (look value).label

def checkKind (expected : Kind) (value : α) (path : ValuePath) (trail : Trail) : Verdict :=
  if (look value).kind? = some expected then (true, trail)
  else trail.reject path (wrongKind expected value)

def noBranch (branches : List Model) (keyword : String) : String :=
  "value matches none of the " ++ wholeText branches.length ++ " " ++ keyword ++ " branches"

def severalBranches (branches : List Model) (matched : Nat) : String :=
  "value matches " ++ wholeText matched ++ " of the " ++ wholeText branches.length ++
    " oneOf branches; exactly one is required"

/-- Accepts the data that pass a test and puts the model into words for the others. -/
def checkTest (model : Model) (fine : Bool) (path : ValuePath) (trail : Trail) :
    Except Fault Verdict :=
  if fine then .ok (true, trail)
  else do
    let words ← model.describe
    .ok (trail.reject path ("expected " ++ words))

/-- Checks a datum against a model and traces its failures. -/
def check (halting : Bool) (model : Model) (value : α) (path : ValuePath) (trail : Trail) :
    Except Fault Verdict :=
  match model with
  | .unknown => .ok (true, trail)
  | .never => .ok (trail.reject path "no value is permitted here")
  | .null => .ok (checkKind .null value path trail)
  | .boolean => .ok (checkKind .boolean value path trail)
  | .number => .ok (checkKind .number value path trail)
  | .string => .ok (checkKind .string value path trail)
  | .literal mark expected =>
    (literal mark expected).checkTest (Datum.equals value expected) path trail
  | .enum mark values =>
    (enum mark values).checkTest (values.any (Datum.equals value)) path trail
  | .array items =>
    match (look value).items? with
    | none => .ok (trail.reject path (wrongKind .array value))
    | some elements =>
      checkEach halting
        (fun (element, index) trail =>
          items.check halting element (path.child (.int index)) trail)
        true elements.zipIdx trail
  | .object properties required additional =>
    match (look value).fields? with
    | none => .ok (trail.reject path (wrongKind .object value))
    | some fields => do
      let (complete, trail) ←
        checkEach halting
          (fun name trail => .ok (trail.reject (path.child name) "missing required property"))
          true (missing properties required fields) trail
      if halting && !complete then .ok (false, trail)
      else
        checkEach halting
          (fun field trail =>
            match _h : Entries.findLast? properties field.1 with
            | some property => property.check halting field.2 (path.child field.1) trail
            | none =>
              if additional then .ok (true, trail)
              else .ok (trail.reject (path.child field.1) "additional property is not allowed"))
          complete fields trail
  | .oneOf _ branches => do
    let matched ← countOk (·.accepts value) branches
    if matched = 1 then .ok (true, trail)
    else if matched = 0 then .ok (trail.reject path (noBranch branches "oneOf"))
    else .ok (trail.reject path (severalBranches branches matched))
  | .anyOf branches => do
    if ← branches.anyM (·.accepts value) then .ok (true, trail)
    else .ok (trail.reject path (noBranch branches "anyOf"))
  | .allOf branches =>
    checkEach halting (fun ⟨branch, _⟩ trail => branch.check halting value path trail)
      true branches.attach trail
  | .stray part => .error (unsupported part)
termination_by sizeOf model
decreasing_by
  · simp_wf
  · have smaller := sizeOf_findLast?_lt _h
    simp_wf
    omega
  · have smaller := List.sizeOf_lt_of_mem ‹_ ∈ _›
    simp_wf
    omega

end Model

structure ValidatorSettings where
  failFast : Bool := false
  maxIssues : Nat := 100
  deriving DecidableEq, Inhabited

structure ValidationResult where
  accepted : Bool
  issues : List ValueIssue
  deriving DecidableEq, Inhabited

namespace ValidationResult

def exitCode (result : ValidationResult) : Nat :=
  if result.accepted then 0 else 1

def toValue (result : ValidationResult) : Value :=
  Value.object
    [("accepted", .bool result.accepted),
     ("exit_code", .int result.exitCode),
     ("issues", .list (result.issues.map fun issue =>
       Value.object [("path", .str issue.path), ("reason", .str issue.reason)]))]

end ValidationResult

def Model.validate [Platform] {α : Type} [Datum α] (model : Model) (value : α)
    (settings : ValidatorSettings := {}) :
    Except Fault ValidationResult := do
  let trail : Trail := { limit := settings.maxIssues }
  let (accepted, trail) ← model.check settings.failFast value [] trail
  .ok ⟨accepted, trail.issues⟩

end SchemaModel
