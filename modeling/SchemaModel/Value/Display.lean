import SchemaModel.Number.Shortest
import SchemaModel.Number.Whole
import SchemaModel.Text.Quoted
import SchemaModel.Value.Basic

/-!
# Values in messages

The text by which a value or a key is shown inside a message: texts are quoted, lists stand in
square brackets, tuples in round ones (a tuple of one part keeps its comma) and mappings in
braces.
-/

namespace SchemaModel

def commaSeparated (parts : List String) : String :=
  ", ".intercalate parts

def shownTuple (parts : List String) : String :=
  match parts with
  | [part] => "(" ++ part ++ ",)"
  | _ => "(" ++ commaSeparated parts ++ ")"

def shownDictionary (entries : List String) : String :=
  "\x7b" ++ commaSeparated entries ++ "\x7d"

def Foreign.shown : Foreign → String
  | .object _ => "<object object>"
  | .set => "set()"
  | .frozenset => "frozenset()"
  | .bytes => "b''"

def shownFlag (flag : Bool) : String :=
  if flag then "True" else "False"

mutual

def Key.shown : Key → String
  | .str text => Text.quoted text
  | .int n => wholeText n
  | .bool b => shownFlag b
  | .float x => NumberText.plain.text x
  | .null => "None"
  | .tuple parts => shownTuple (shownKeys parts)
  | .foreign thing => thing.shown

def shownKeys : List Key → List String
  | [] => []
  | key :: keys => key.shown :: shownKeys keys

end

/-- The bare text of a key: a text stands for itself. -/
def Key.text : Key → Text
  | .str text => text
  | key => key.shown

mutual

/-- A value in a message. -/
def Value.shown : Value → String
  | .null => "None"
  | .bool b => shownFlag b
  | .int n => wholeText n
  | .float x => NumberText.plain.text x
  | .str text => Text.quoted text
  | .list items => "[" ++ commaSeparated (shownItems items) ++ "]"
  | .tuple items => shownTuple (shownItems items)
  | .mapping .dict entries => shownDictionary (shownEntries entries)
  | .mapping (.other typeName) entries =>
    typeName ++ "(" ++ shownDictionary (shownEntries entries) ++ ")"
  | .foreign thing => thing.shown

def shownItems : List Value → List String
  | [] => []
  | item :: items => item.shown :: shownItems items

def shownEntries : List (Key × Value) → List String
  | [] => []
  | (key, value) :: entries => (key.shown ++ ": " ++ value.shown) :: shownEntries entries

end

/-- The bare text of a value: a text stands for itself. -/
def Value.text : Value → Text
  | .str text => text
  | value => value.shown

end SchemaModel
