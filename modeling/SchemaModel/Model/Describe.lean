import SchemaModel.Json.Writer
import SchemaModel.Model.Basic

/-!
# Models in one line
-/

namespace SchemaModel.Model

variable [Platform]

/-- A short text for a model; the values in it must be written. -/
def describe : Model → Except Fault String
  | .literal _ value => Fault.ofWritten (Json.write value)
  | .enum _ values => do
    let texts ← values.mapM fun value => Fault.ofWritten (Json.write value)
    .ok ("one of " ++ commaSeparated texts)
  | .oneOf _ branches => .ok ("exactly one of " ++ wholeText branches.length ++ " branches")
  | .anyOf branches => .ok ("at least one of " ++ wholeText branches.length ++ " branches")
  | .allOf branches => .ok ("all of " ++ wholeText branches.length ++ " branches")
  | .stray value => .error (.noMember value.typeName "describe")
  | model => .ok model.kindName

/-- The fault of using a stray value as a model, which shows the value. -/
def unsupported (part : Value) : Fault :=
  if part.canShow then .unsupportedModel part else .refused (.longInteger Platform.refusal)

end SchemaModel.Model
