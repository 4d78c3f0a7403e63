import SchemaModel.Text.Basic
import SchemaModel.Text.Printable

/-!
# Quoted text

A text is quoted in apostrophes, or in double quotes when it holds an apostrophe and no double
quote. A backslash, the quote in use, tab, line feed, carriage return and every character that is
not printable are written as escapes, so that the quoted form stays on one line and reads back
uniquely.
-/

namespace SchemaModel.Text

def hexDigit (n : Nat) : Char :=
  Nat.digitChar (n % 16)

/-- The last `width` hexadecimal digits of a number. -/
def hexDigits : Nat → Nat → List Char
  | 0, _ => []
  | width + 1, n => hexDigits width (n / 16) ++ [hexDigit n]

/-- The quote in which a text is written. -/
def quoteMark (points : List Point) : Char :=
  if points.contains (.char '\'') && !points.contains (.char '"') then '"' else '\''

/-- A character inside a quoted text. -/
def quotedChar (quote c : Char) : List Char :=
  if c = '\\' ∨ c = quote then ['\\', c]
  else if c = '\t' then ['\\', 't']
  else if c = '\n' then ['\\', 'n']
  else if c = '\r' then ['\\', 'r']
  else if isPrintable c then [c]
  else if c.toNat < 0x100 then ['\\', 'x'] ++ hexDigits 2 c.toNat
  else if c.toNat < 0x10000 then ['\\', 'u'] ++ hexDigits 4 c.toNat
  else ['\\', 'U'] ++ hexDigits 8 c.toNat

def quotedPoint (quote : Char) : Point → List Char
  | .char c => quotedChar quote c
  | .half index => ['\\', 'u'] ++ hexDigits 4 (Point.half index).code

def quotedPoints (points : List Point) : List Char :=
  let quote := quoteMark points
  quote :: points.flatMap (quotedPoint quote) ++ [quote]

def quoted (text : Text) : String :=
  String.ofList (quotedPoints text.points)

end SchemaModel.Text
