import SchemaModel.Text.Basic

/-!
# Terminals

What a terminal prints is marked up: words in square brackets may be tags, which style what follows
and print nothing.  `Terminal.escape` writes a text so that no part of it is taken for a tag.
-/

namespace SchemaModel

/-- Why something is not printed, by the name of the exception. -/
structure PrintFault where
  exception : String
  deriving DecidableEq, Inhabited

/-- What prints a marked-up text and a line end, a table with a header and rows of marked-up cells,
or JSON text over several lines. -/
class Terminal where
  escape : Text → Text
  line : Text → Except PrintFault String
  table : List String → List (List Text) → Except PrintFault String
  json : String → Except PrintFault String

end SchemaModel
