import SchemaModel.Number.Whole
import SchemaModel.Text.Basic

/-!
# Places in a schema document

A place is the list of tokens that lead to it from the root.  Its text is a JSON pointer after
`#`, in which `~` is written `~0` and `/` is written `~1`.
-/

namespace SchemaModel

def escapeToken (token : Text) : Text :=
  .ofPoints (token.points.flatMap fun
    | .char '~' => [.char '~', .char '0']
    | .char '/' => [.char '~', .char '1']
    | point => [point])

/-- A pointer extended by tokens. -/
def extendPointer (path : Text) (tokens : List Text) : Text :=
  tokens.foldl (fun path token => path ++ "/" ++ escapeToken token) path

/-- The tokens that lead from the root of a document to a place, outermost first. -/
abbrev Pointer := List Text

def Pointer.text (place : Pointer) : Text :=
  extendPointer "#" place

/-- The place one token further in. -/
def Pointer.child (place : Pointer) (token : Text) : Pointer :=
  place ++ [token]

def Pointer.item (place : Pointer) (index : Nat) : Pointer :=
  place.child (wholeText index)

end SchemaModel
