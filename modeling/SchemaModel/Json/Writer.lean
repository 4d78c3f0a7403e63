import SchemaModel.Number.Shortest
import SchemaModel.Number.Whole
import SchemaModel.Text.Quoted
import SchemaModel.Value.Writable

/-!
# JSON text

JSON data are written in one of two layouts.  On a line there is a blank after every comma and colon
and all that is not printable ASCII is escaped; this is the layout used inside messages.  On a page
every element has a line of its own, two blanks further in than its container, and every character
above the controls is kept.
-/

namespace SchemaModel.Json

def shortEscape? : Char → Option Char
  | '"' => some '"'
  | '\\' => some '\\'
  | '\n' => some 'n'
  | '\r' => some 'r'
  | '\t' => some 't'
  | '\x08' => some 'b'
  | '\x0c' => some 'f'
  | _ => none

def unitEscape (unit : Nat) : List Char :=
  ['\\', 'u'] ++ Text.hexDigits 4 unit

def numberEscape (c : Char) : List Char :=
  let code := c.toNat
  if code < 0x10000 then unitEscape code
  else
    let offset := code - 0x10000
    unitEscape (0xd800 + offset / 0x400) ++ unitEscape (0xdc00 + offset % 0x400)

/-- A character of a string; `raw` tells which characters stand for themselves. -/
def charText (raw : Char → Bool) (c : Char) : List Char :=
  match shortEscape? c with
  | some short => ['\\', short]
  | none => if raw c then [c] else numberEscape c

def rawInLine (c : Char) : Bool :=
  0x20 ≤ c.toNat && c.toNat ≤ 0x7e

def rawInPage (c : Char) : Bool :=
  0x20 ≤ c.toNat

/-- A code point of a string.  A half of a pair is always escaped. -/
def pointText (raw : Char → Bool) : Point → List Char
  | .char c => charText raw c
  | .half index => unitEscape (Point.half index).code

def stringText (raw : Char → Bool) (text : Text) : List Char :=
  '"' :: text.points.flatMap (pointText raw) ++ ['"']

/-- The name under which a key is written. -/
def keyName : Key → Text
  | .str text => text
  | .int n => wholeText n
  | .bool b => if b then "true" else "false"
  | .float x => NumberText.json.text x
  | _ => "null"

def scalarText (raw : Char → Bool) : Value → List Char
  | .bool true => "true".toList
  | .bool false => "false".toList
  | .int n => wholeDigits n
  | .float x => (NumberText.json.text x).toList
  | .str text => stringText raw text
  | _ => "null".toList

/-- How data are laid out: which characters of a text stand for themselves, and what comes before
the first part of a container, before any other part and after the last one, by the number of the
containers around it. -/
structure Layout where
  raw : Char → Bool
  first : Nat → List Char
  next : Nat → List Char
  last : Nat → List Char

def newLine (depth : Nat) : List Char :=
  '\n' :: List.replicate (2 * depth) ' '

def lineLayout : Layout where
  raw := rawInLine
  first _ := []
  next _ := [' ']
  last _ := []

def pageLayout : Layout where
  raw := rawInPage
  first := newLine
  next := newLine
  last := newLine

variable (layout : Layout)

def entryText (key : Key) (value : List Char) : List Char :=
  stringText layout.raw (keyName key) ++ ':' :: ' ' :: value

mutual

/-- The form of a value inside `depth` containers. -/
def form (depth : Nat) : Value → List Char
  | .list [] => ['[', ']']
  | .tuple [] => ['[', ']']
  | .mapping _ [] => ['{', '}']
  | .list items =>
    '[' :: layout.first (depth + 1) ++ formItems (depth + 1) items ++ layout.last depth ++ [']']
  | .tuple items =>
    '[' :: layout.first (depth + 1) ++ formItems (depth + 1) items ++ layout.last depth ++ [']']
  | .mapping _ entries =>
    '{' :: layout.first (depth + 1) ++ formEntries (depth + 1) entries ++ layout.last depth ++ ['}']
  | value => scalarText layout.raw value

def formItems (depth : Nat) : List Value → List Char
  | [] => []
  | [item] => form depth item
  | item :: items => form depth item ++ ',' :: layout.next depth ++ formItems depth items

def formEntries (depth : Nat) : List (Key × Value) → List Char
  | [] => []
  | [(key, value)] => entryText layout key (form depth value)
  | (key, value) :: entries =>
    entryText layout key (form depth value) ++ ',' :: layout.next depth ++
      formEntries depth entries

end

def lineText (value : Value) : String :=
  String.ofList (form lineLayout 0 value)

/-- JSON text on one line, unless something in it is refused. -/
def write [Platform] (value : Value) : Except Refusal String :=
  match value.refusal? with
  | some refusal => .error refusal
  | none => .ok (lineText value)

def pageText (value : Value) : String :=
  String.ofList (form pageLayout 0 value)

end SchemaModel.Json
