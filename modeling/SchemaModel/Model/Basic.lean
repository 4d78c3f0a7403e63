import SchemaModel.Text.Names
import SchemaModel.Value.Display
import SchemaModel.Value.Equality
import SchemaModel.Value.Writable

/-!
# Type models

A type model describes the values that a schema permits.  Models are made by the functions
`Model.ofLiteral`, `Model.ofEnum`, `Model.ofObject` and `Model.combine`, which refuse what would
be no model; arrays and objects take any part, so a model may hold a stray value where a model
belongs, and using such a part is a `Fault`.

A model that holds values, or whose branches are overlapped on demand, carries a `Mark`.  The mark
says where the model was made and permits nothing by itself.
-/

namespace SchemaModel

/-- Where a model was made: at a numbered start, at the place of a schema node, or as a numbered
part of something made elsewhere. -/
inductive Mark where
  | start (number : Nat)
  | node (place : List Text)
  | inside (outer : Mark) (index : Nat)
  deriving DecidableEq

instance : Inhabited Mark := ⟨.start 0⟩

/-- A description of the values that are permitted somewhere. -/
inductive Model where
  | unknown
  | never
  | null
  | boolean
  | number
  | string
  | literal (mark : Mark) (value : Value)
  | enum (mark : Mark) (values : List Value)
  | array (items : Model)
  | object (properties : List (Key × Model)) (required : List Text) (additional : Bool)
  | oneOf (mark : Mark) (branches : List Model)
  | anyOf (branches : List Model)
  | allOf (branches : List Model)
  | stray (value : Value)
  deriving Inhabited

inductive Combinator where
  | oneOf
  | anyOf
  | allOf
  deriving DecidableEq, Inhabited

def Combinator.variantName : Combinator → String
  | .oneOf => "UnionExclusive"
  | .anyOf => "UnionInclusive"
  | .allOf => "Intersection"

/-- What can go wrong in making or using a model. -/
inductive Fault where
  | literalNotJson (typeName : String)
  | enumNotJson (typeName : String)
  | enumEmpty
  | undeclared (names : List Text)
  | noBranches (combinator : Combinator)
  | branchNotModel (combinator : Combinator) (typeName : String)
  | nothingToReduce
  | unsupportedModel (part : Value)
  | noMember (owner member : String)
  | refused (refusal : Refusal)
  deriving Inhabited

def Fault.message : Fault → String
  | .literalNotJson typeName => "Literal requires a JSON value, got " ++ typeName
  | .enumNotJson typeName => "EnumOf requires JSON values, got " ++ typeName
  | .enumEmpty => "EnumOf requires at least one value"
  | .undeclared names =>
    "Required properties not declared: [" ++ commaSeparated (names.map Text.quoted) ++ "]"
  | .noBranches combinator => combinator.variantName ++ " requires at least one branch"
  | .branchNotModel combinator typeName =>
    combinator.variantName ++ " branches must be type models, got " ++ typeName
  | .nothingToReduce => "Cannot reduce an empty sequence of type models"
  | .unsupportedModel part => "Unsupported type model: " ++ part.shown
  | .noMember owner member =>
    "'" ++ owner ++ "' object has no attribute '" ++ member ++ "'"
  | .refused refusal => refusal.message

def Fault.ofWritten {α : Type} (written : Except Refusal α) : Except Fault α :=
  written.mapError .refused

/-- What is shown in a message, or the fault of a whole number that is too long for it. -/
def Fault.unlessLong [Platform] {α : Type} (short : Bool) (shown : α) : Except Fault α :=
  if short then .ok shown else .error (.refused (.longInteger Platform.refusal))

/-- The values of a list without those equal to an earlier one or to one already seen. -/
def distinctValues (seen : List Value) : List Value → List Value
  | [] => []
  | value :: values =>
    if seen.any (value.jsonEqual ·) then distinctValues seen values
    else value :: distinctValues (seen ++ [value]) values

namespace Model

def ofLiteral (value : Value) (mark : Mark := default) : Except Fault Model :=
  if value.isJson then .ok (.literal mark value) else .error (.literalNotJson value.typeName)

/-- The model of the JSON values of a list, each kept once. -/
def ofEnum (values : List Value) (mark : Mark := default) : Except Fault Model :=
  match values.find? fun value => !value.isJson with
  | some value => .error (.enumNotJson value.typeName)
  | none =>
    if values.isEmpty then .error .enumEmpty else .ok (.enum mark (distinctValues [] values))

/-- The model of objects; what is required must be declared. -/
def ofObject (properties : List (Key × Model)) (required : List Text) (additional : Bool) :
    Except Fault Model :=
  let undeclared := required.filter fun name => !Entries.has properties (.str name)
  if undeclared.isEmpty then .ok (.object properties required additional)
  else .error (.undeclared (Text.sortNames undeclared))

def wrap (mark : Mark) : Combinator → List Model → Model
  | .oneOf, branches => .oneOf mark branches
  | .anyOf, branches => .anyOf branches
  | .allOf, branches => .allOf branches

/-- The value that stands where a model belongs. -/
def stray? : Model → Option Value
  | .stray value => some value
  | _ => none

/-- A combination of branches, at least one and all of them models. -/
def combine (combinator : Combinator) (branches : List Model) (mark : Mark := default) :
    Except Fault Model :=
  if branches.isEmpty then .error (.noBranches combinator)
  else
    match branches.findSome? stray? with
    | some value => .error (.branchNotModel combinator value.typeName)
    | none => .ok (wrap mark combinator branches)

def kindName : Model → String
  | .unknown => "unknown"
  | .never => "never"
  | .null => "null"
  | .boolean => "boolean"
  | .number => "number"
  | .string => "string"
  | .literal .. => "literal"
  | .enum .. => "enum"
  | .array _ => "array"
  | .object .. => "object"
  | .oneOf .. => "one_of"
  | .anyOf _ => "any_of"
  | .allOf _ => "all_of"
  | .stray value => value.typeName

def variantName : Model → String
  | .unknown => "Unknown"
  | .never => "Never"
  | .null => "Null"
  | .boolean => "Boolean"
  | .number => "Number"
  | .string => "String"
  | .literal .. => "Literal"
  | .enum .. => "EnumOf"
  | .array _ => "ArrayOf"
  | .object .. => "ObjectOf"
  | .oneOf .. => Combinator.oneOf.variantName
  | .anyOf _ => Combinator.anyOf.variantName
  | .allOf _ => Combinator.allOf.variantName
  | .stray value => value.typeName

def isNever : Model → Bool
  | .never => true
  | _ => false

end Model

end SchemaModel
