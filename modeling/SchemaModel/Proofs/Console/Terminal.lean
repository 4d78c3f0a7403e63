import SchemaModel.Console.Terminal
import SchemaModel.Json.Reader
import SchemaModel.Json.Writer

/-!
# What is relied on of a terminal

Nothing is said about the look of what a terminal prints, only that it prints: a text without an
opening bracket, words in one of a few colours, a text that has been escaped, and a table of such
cells.  JSON text is parsed and laid out anew.  About texts with halves of pairs nothing is said.
-/

namespace SchemaModel

/-- The colours in which words of a report are printed. -/
def headingColours : List String :=
  ["green", "red", "blue", "yellow", "dim"]

/-- A marked-up text is printed. -/
def Prints [Terminal] (markup : Text) : Prop :=
  ∃ shown, Terminal.line markup = .ok shown

/-- Neither a backslash nor an opening bracket stands in a text. -/
def IsBare (text : List Char) : Prop :=
  '\\' ∉ text ∧ '[' ∉ text

instance (text : List Char) : Decidable (IsBare text) :=
  inferInstanceAs (Decidable (_ ∧ _))

/-- A terminal that takes words in square brackets for tags and keeps to the rules of escaping. -/
class LawfulTerminal [Platform] [Terminal] : Prop where
  unmarked : ∀ text : String, '[' ∉ text.toList → Prints text
  styled : ∀ name before inside after : String, name ∈ headingColours →
    IsBare before.toList → IsBare inside.toList → '[' ∉ after.toList →
    Prints (before ++ "[" ++ name ++ "]" ++ inside ++ "[/" ++ name ++ "]" ++ after : String)
  escaped : ∀ text : String, Prints (Terminal.escape text)
  table : ∀ {header : List String} {rows : List (List Text)},
    (∀ name ∈ header, '[' ∉ name.toList) → (∀ row ∈ rows, ∀ cell ∈ row, Prints cell) →
    ∃ shown, Terminal.table header rows = .ok shown
  json : ∀ {text : String} {value : Value}, Json.read text = .ok value → value.isPlain = true →
    Terminal.json text = .ok (Json.pageText value ++ "\n")

end SchemaModel
