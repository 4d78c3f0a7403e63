import SchemaModel.Value.Basic

/-!
# Settings in several spellings

A setting may be spelled in several ways: a whole number also as a flag or a text, a flag also as a
number or a word.  Which spellings there are is a `Coercion`, and so is the report on what cannot be
read.  The bounds of a setting are checked after it has been coerced, whatever its spelling was.
-/

namespace SchemaModel.Settings

inductive Problem where
  | wholeNumber
  | numeral
  | fraction
  | notFinite
  | tooLarge
  | flag
  | flagWord
  | level
  | notSection (owner : String)
  | unknownKey
  | outOfRange (rule : String)
  deriving DecidableEq, Inhabited

namespace Problem

def code : Problem → String
  | .wholeNumber => "int_type"
  | .numeral => "int_parsing"
  | .fraction => "int_from_float"
  | .notFinite => "finite_number"
  | .tooLarge => "int_parsing_size"
  | .flag => "bool_type"
  | .flagWord => "bool_parsing"
  | .level => "enum"
  | .notSection _ => "model_type"
  | .unknownKey => "extra_forbidden"
  | .outOfRange _ => "value_error"

def message : Problem → String
  | .wholeNumber => "Input should be a valid integer"
  | .numeral => "Input should be a valid integer, unable to parse string as an integer"
  | .fraction => "Input should be a valid integer, got a number with a fractional part"
  | .notFinite => "Input should be a finite number"
  | .tooLarge => "Unable to parse input string as an integer, exceeded maximum size"
  | .flag => "Input should be a valid boolean"
  | .flagWord => "Input should be a valid boolean, unable to interpret input"
  | .level => "Input should be 'error', 'warn', 'info', 'debug' or 'trace'"
  | .notSection owner => "Input should be a valid dictionary or instance of " ++ owner
  | .unknownKey => "Extra inputs are not permitted"
  | .outOfRange rule => "Value error, " ++ rule

end Problem

/-- A problem and the keys that lead to it. -/
structure Complaint where
  place : List Text
  problem : Problem
  deriving DecidableEq, Inhabited

/-- How settings are coerced, and how the complaints about them are put into words. -/
class Coercion where
  whole : Value → Except Problem Int
  flag : Value → Except Problem Bool
  report : List Complaint → String

end SchemaModel.Settings
