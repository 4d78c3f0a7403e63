import SchemaModel.Console.Markup
import SchemaModel.Console.Table
import SchemaModel.Console.Terminal
import SchemaModel.Json.Reader
import SchemaModel.Json.Writer

/-!
# The plain terminal

A terminal without colours and with room for every line.  What it shows is encoded at last, and a
half of a surrogate pair cannot be.
-/

namespace SchemaModel.Console

def MarkupFault.exception : MarkupFault → String
  | .number => "ValueError"
  | _ => "MarkupError"

def escapeText : Text → Text
  | .plain text => .plain (escape text)
  | text => text

def render : Text → Except PrintFault String
  | .plain markup => (plain markup).mapError fun fault => ⟨fault.exception⟩
  | .broken .. => .error ⟨"UnicodeEncodeError"⟩

/-- The page form of the data in a JSON text. -/
def renderJson [Platform] (text : String) : Except PrintFault String :=
  match Json.read text with
  | .error _ => .error ⟨"JSONDecodeError"⟩
  | .ok value =>
    if value.isPlain then .ok (Json.pageText value) else .error ⟨"UnicodeEncodeError"⟩

@[reducible] def plainTerminal [Platform] : Terminal where
  escape := escapeText
  line markup := do
    let text ← render markup
    .ok (String.ofList (expandTabs 0 text.toList) ++ "\n")
  table header rows := do
    let rows ← rows.mapM fun row => row.mapM render
    .ok (Table.text ⟨header, rows⟩)
  json text := do .ok ((← renderJson text) ++ "\n")

end SchemaModel.Console
