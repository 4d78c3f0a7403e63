import SchemaModel.Number.Binary64
import SchemaModel.Platform
import SchemaModel.Value.Basic

/-!
# Reading JSON text

`Json.read` turns a text into a value or says what is wrong with it and where.  Besides the
standard it accepts the words `NaN`, `Infinity` and `-Infinity`; a key that occurs again replaces
the earlier value at the earlier position.

A failure inside the reader is measured by the characters that are still unread, so that the
position is known without counting along the way.
-/

namespace SchemaModel.Json

inductive Defect where
  | value
  | name
  | colon
  | comma
  | extra
  | unterminated
  | control
  | escape
  | unicodeEscape
  | byteOrderMark
  | longInteger (limit digits : Nat)
  deriving DecidableEq, Inhabited

/-- A defect and the number of characters that were unread when it was found. -/
structure Failure where
  defect : Defect
  unread : Nat
  deriving DecidableEq, Inhabited

/-- A defect and its place: the number of characters before it, and its line and column. -/
structure ReadError where
  defect : Defect
  offset : Nat
  line : Nat
  column : Nat
  deriving DecidableEq, Inhabited

abbrev Reading (α : Type) := Except Failure (α × List Char)

def failBefore {α : Type} (defect : Defect) (rest : List Char) : Except Failure α :=
  .error ⟨defect, rest.length⟩

def isBlank (c : Char) : Bool :=
  c = ' ' || c = '\t' || c = '\n' || c = '\r'

def skipBlanks (text : List Char) : List Char :=
  text.dropWhile isBlank

def hexValue? (c : Char) : Option Nat :=
  if '0' ≤ c ∧ c ≤ '9' then some (c.toNat - 48)
  else if 'a' ≤ c ∧ c ≤ 'f' then some (c.toNat - 87)
  else if 'A' ≤ c ∧ c ≤ 'F' then some (c.toNat - 55)
  else none

def unitValue? (a b c d : Char) : Option Nat := do
  let a ← hexValue? a
  let b ← hexValue? b
  let c ← hexValue? c
  let d ← hexValue? d
  return ((a * 16 + b) * 16 + c) * 16 + d

def unescape? : Char → Option Char
  | '"' => some '"'
  | '\\' => some '\\'
  | '/' => some '/'
  | 'b' => some '\x08'
  | 'f' => some '\x0c'
  | 'n' => some '\n'
  | 'r' => some '\r'
  | 't' => some '\t'
  | _ => none

def isHighSurrogate (unit : Nat) : Bool :=
  0xd800 ≤ unit && unit ≤ 0xdbff

def isLowSurrogate (unit : Nat) : Bool :=
  0xdc00 ≤ unit && unit ≤ 0xdfff

def pairChar (high low : Nat) : Char :=
  Char.ofNat (0x10000 + (high - 0xd800) * 0x400 + (low - 0xdc00))

def Reading.push (point : Point) (reading : Reading (List Point)) : Reading (List Point) :=
  reading.map fun found => (point :: found.1, found.2)

/-- The code points of a string after its opening quote; `opening` counts the characters from that
quote on.  A `\u` escape needs a character after its four digits. -/
def readString (opening : Nat) : List Char → Reading (List Point)
  | [] => .error ⟨.unterminated, opening⟩
  | '"' :: rest => .ok ([], rest)
  | '\\' :: 'u' :: a :: b :: c :: d :: '\\' :: 'u' :: e :: f :: g :: h :: after :: rest =>
    match unitValue? a b c d with
    | none =>
      failBefore .unicodeEscape
        ('u' :: a :: b :: c :: d :: '\\' :: 'u' :: e :: f :: g :: h :: after :: rest)
    | some unit =>
      if isHighSurrogate unit then
        match unitValue? e f g h with
        | none => failBefore .unicodeEscape ('u' :: e :: f :: g :: h :: after :: rest)
        | some second =>
          if isLowSurrogate second then
            (readString opening (after :: rest)).push (.char (pairChar unit second))
          else
            (readString opening ('\\' :: 'u' :: e :: f :: g :: h :: after :: rest)).push
              (.ofCode unit)
      else
        (readString opening ('\\' :: 'u' :: e :: f :: g :: h :: after :: rest)).push (.ofCode unit)
  | '\\' :: 'u' :: a :: b :: c :: d :: after :: rest =>
    match unitValue? a b c d with
    | none => failBefore .unicodeEscape ('u' :: a :: b :: c :: d :: after :: rest)
    | some unit => (readString opening (after :: rest)).push (.ofCode unit)
  | '\\' :: 'u' :: rest => failBefore .unicodeEscape ('u' :: rest)
  | '\\' :: c :: rest =>
    match unescape? c with
    | some meant => (readString opening rest).push (.char meant)
    | none => failBefore .escape ('\\' :: c :: rest)
  | ['\\'] => .error ⟨.unterminated, opening⟩
  | c :: rest =>
    if c.toNat < 0x20 then failBefore .control (c :: rest)
    else (readString opening rest).push (.char c)
termination_by text => text.length

def spanDigits (text : List Char) : List Char × List Char :=
  (text.takeWhile Char.isDigit, text.dropWhile Char.isDigit)

/-- The digits before the point: a single zero, or digits that do not start with one. -/
def wholePart? : List Char → Option (List Char × List Char)
  | '0' :: rest => some (['0'], rest)
  | c :: rest =>
    if c.isDigit then
      let (digits, rest) := spanDigits rest
      some (c :: digits, rest)
    else none
  | [] => none

def fractionPart : List Char → List Char × List Char
  | '.' :: c :: rest =>
    if c.isDigit then
      let (digits, rest) := spanDigits rest
      (c :: digits, rest)
    else ([], '.' :: c :: rest)
  | rest => ([], rest)

def exponentPart (text : List Char) : Option Int × List Char :=
  match text with
  | mark :: rest =>
    if mark = 'e' ∨ mark = 'E' then
      let (negative, digits) :=
        match rest with
        | '+' :: rest => (false, rest)
        | '-' :: rest => (true, rest)
        | rest => (false, rest)
      match spanDigits digits with
      | ([], _) => (none, text)
      | (digits, rest) =>
        let size : Int := digitsValue digits
        (some (if negative then -size else size), rest)
    else (none, text)
  | [] => (none, text)

variable [Platform]

/-- A number: an integer, or a binary64 number when it has a point or an exponent. -/
def readNumber (text : List Char) : Reading Value :=
  let (negative, unsigned) :=
    match text with
    | '-' :: rest => (true, rest)
    | rest => (false, rest)
  match wholePart? unsigned with
  | none => failBefore .value text
  | some (whole, rest) =>
    let (fraction, rest) := fractionPart rest
    let (exponent, rest) := exponentPart rest
    if fraction.isEmpty && exponent.isNone then
      match Platform.exceeded? whole.length with
      | some limit => failBefore (.longInteger limit whole.length) text
      | none =>
        let size : Int := digitsValue whole
        .ok (.int (if negative then -size else size), rest)
    else
      let exponent := exponent.getD 0 - fraction.length
      .ok (.float (Binary64.ofDecimal negative (digitsValue (whole ++ fraction)) exponent), rest)

mutual

/-- A value.  The first argument bounds the nesting and is never reached when it exceeds twice the
length of the text. -/
def readValue : Nat → List Char → Reading Value
  | 0, text => failBefore .value text
  | fuel + 1, text =>
    match text with
    | '"' :: rest => (readString text.length rest).map fun found =>
        (.str (Text.ofPoints found.1), found.2)
    | '{' :: rest =>
      match skipBlanks rest with
      | '}' :: rest => .ok (.mapping .dict [], rest)
      | rest =>
        (readMembers fuel rest).map fun found => (.mapping .dict (Entries.ofPairs found.1), found.2)
    | '[' :: rest =>
      match skipBlanks rest with
      | ']' :: rest => .ok (.list [], rest)
      | rest => (readItems fuel rest).map fun found => (.list found.1, found.2)
    | 'n' :: 'u' :: 'l' :: 'l' :: rest => .ok (.null, rest)
    | 't' :: 'r' :: 'u' :: 'e' :: rest => .ok (.bool true, rest)
    | 'f' :: 'a' :: 'l' :: 's' :: 'e' :: rest => .ok (.bool false, rest)
    | 'N' :: 'a' :: 'N' :: rest => .ok (.float (.nan 0), rest)
    | 'I' :: 'n' :: 'f' :: 'i' :: 'n' :: 'i' :: 't' :: 'y' :: rest =>
      .ok (.float (.infinite false), rest)
    | '-' :: 'I' :: 'n' :: 'f' :: 'i' :: 'n' :: 'i' :: 't' :: 'y' :: rest =>
      .ok (.float (.infinite true), rest)
    | _ => readNumber text

def readItems : Nat → List Char → Except Failure (List Value × List Char)
  | 0, text => failBefore .value text
  | fuel + 1, text => do
    let (item, rest) ← readValue fuel text
    match skipBlanks rest with
    | ']' :: rest => .ok ([item], rest)
    | ',' :: rest =>
      let (items, rest) ← readItems fuel (skipBlanks rest)
      .ok (item :: items, rest)
    | rest => failBefore .comma rest

def readMembers : Nat → List Char → Except Failure (List (Key × Value) × List Char)
  | 0, text => failBefore .value text
  | fuel + 1, text =>
    match text with
    | '"' :: rest => do
      let (name, rest) ← readString text.length rest
      match skipBlanks rest with
      | ':' :: rest =>
        let (value, rest) ← readValue fuel (skipBlanks rest)
        let entry := (Key.str (Text.ofPoints name), value)
        match skipBlanks rest with
        | '}' :: rest => .ok ([entry], rest)
        | ',' :: rest =>
          let (entries, rest) ← readMembers fuel (skipBlanks rest)
          .ok (entry :: entries, rest)
        | rest => failBefore .comma rest
      | rest => failBefore .colon rest
    | _ => failBefore .name text

end

def readDocument (text : List Char) : Except Failure Value :=
  if text.head? = some '\ufeff' then failBefore .byteOrderMark text
  else do
    let start := skipBlanks text
    let (value, rest) ← readValue (2 * start.length + 2) start
    match skipBlanks rest with
    | [] => .ok value
    | rest => failBefore .extra rest

def Failure.locate (failure : Failure) (text : List Char) : ReadError :=
  let offset := text.length - failure.unread
  let before := text.take offset
  { defect := failure.defect
    offset := offset
    line := before.count '\n' + 1
    column := (before.reverse.takeWhile (· ≠ '\n')).length + 1 }

def read (text : String) : Except ReadError Value :=
  (readDocument text.toList).mapError fun failure => failure.locate text.toList

def Defect.wording : Defect → String
  | .value => "Expecting value"
  | .name => "Expecting property name enclosed in double quotes"
  | .colon => "Expecting ':' delimiter"
  | .comma => "Expecting ',' delimiter"
  | .extra => "Extra data"
  | .unterminated => "Unterminated string starting at"
  | .control => "Invalid control character at"
  | .escape => "Invalid \\escape"
  | .unicodeEscape => "Invalid \\uXXXX escape"
  | .byteOrderMark => "Unexpected UTF-8 BOM (decode using utf-8-sig)"
  | .longInteger limit digits =>
    digitLimitWording limit ++ ": value has " ++ wholeText digits ++ " digits" ++ digitLimitAdvice

def ReadError.message (error : ReadError) : String :=
  match error.defect with
  | .longInteger .. => error.defect.wording
  | defect =>
    defect.wording ++ ": line " ++ wholeText error.line ++ " column " ++ wholeText error.column ++
      " (char " ++ wholeText error.offset ++ ")"

end SchemaModel.Json
