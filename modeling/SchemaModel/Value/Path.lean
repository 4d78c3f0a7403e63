import SchemaModel.Text.Identifier
import SchemaModel.Value.Display

/-!
# Paths into values

A place inside a value is the list of keys and indices that lead to it.  Its text starts at `$`; an
identifier is appended after a dot, any other key in square brackets.
-/

namespace SchemaModel

def namedPath (path : String) (name : Text) : String :=
  match name.identifier? with
  | some word => path ++ "." ++ word
  | none => path ++ "[" ++ name.quoted ++ "]"

/-- The text of a path extended by one step. -/
def childPath (path : String) (step : Key) : String :=
  match step with
  | .str name => namedPath path name
  | step => path ++ "[" ++ step.shown ++ "]"

/-- The text of a path extended by any value, one that is no key of a mapping included. -/
def valuePath (path : String) (step : Value) : String :=
  match step with
  | .str name => namedPath path name
  | step => path ++ "[" ++ step.shown ++ "]"

/-- The steps that lead from a value to one inside it, outermost first. -/
abbrev ValuePath := List Key

def ValuePath.text (path : ValuePath) : String :=
  path.foldl childPath "$"

def ValuePath.child (path : ValuePath) (step : Key) : ValuePath :=
  path ++ [step]

end SchemaModel
