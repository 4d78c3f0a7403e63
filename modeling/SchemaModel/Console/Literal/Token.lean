/-!
# Tokens of literals

The blanks, numbers and quoted texts of which literals are made.  A reader takes a token off the
front of a text and gives what follows it, or fails when the token is malformed.
-/

namespace SchemaModel.Console.Literal

/-- What is known of a literal: a number that is real, imaginary, or real with a sign, anything else
that is fixed for good, or something that can change. -/
inductive Nature where
  | real
  | imaginary
  | signedReal
  | fixed
  | mutable
  deriving DecidableEq, Inhabited

def Nature.isFixed (nature : Nature) : Bool :=
  nature ≠ .mutable

def isGap (c : Char) : Bool :=
  c = ' ' || c = '\t' || c = '\x0c'

/-- What follows blanks.  Inside brackets line ends and comments are blanks too; a backslash joins
two lines. -/
def dropGap? (nested comment : Bool) : List Char → Option (List Char)
  | [] => some []
  | '\\' :: '\n' :: rest => dropGap? nested false rest
  | c :: rest =>
    if comment then dropGap? nested (c ≠ '\n') rest
    else if isGap c || (nested && c = '\n') then dropGap? nested false rest
    else if nested && c = '#' then dropGap? nested true rest
    else if c = '\\' then none
    else some (c :: rest)

/-- A run of digits with single underscores between them: the digits, and what follows. -/
def digitRun? (isDigit : Char → Bool) : List Char → Option (List Char × List Char)
  | [] => none
  | [c] => if isDigit c then some ([c], []) else none
  | c :: '_' :: rest =>
    if isDigit c then (digitRun? isDigit rest).map fun run => (c :: run.1, run.2) else none
  | c :: d :: rest =>
    if isDigit c then
      if isDigit d then (digitRun? isDigit (d :: rest)).map fun run => (c :: run.1, run.2)
      else some ([c], d :: rest)
    else none

def continuesWord (c : Char) : Bool :=
  c.isAlphanum || c = '_' || 0x80 ≤ c.toNat

def finished? (nature : Nature) (rest : List Char) : Option (Nature × List Char) :=
  match rest with
  | [] => some (nature, [])
  | c :: _ => if continuesWord c then none else some (nature, rest)

def hexValue? (c : Char) : Option Nat :=
  if c.isDigit then some (c.toNat - 48)
  else if 'a' ≤ c && c ≤ 'f' then some (c.toNat - 87)
  else if 'A' ≤ c && c ≤ 'F' then some (c.toNat - 55)
  else none

/-- The digits of a base that a letter after a zero announces. -/
def baseDigits? (letter : Char) : Option (Char → Bool) :=
  if letter = 'x' ∨ letter = 'X' then some fun c => (hexValue? c).isSome
  else if letter = 'o' ∨ letter = 'O' then some fun c => '0' ≤ c && c ≤ '7'
  else if letter = 'b' ∨ letter = 'B' then some fun c => c = '0' || c = '1'
  else none

def maxDigits : Nat := 4300

def isWhole (digits : List Char) : Bool :=
  digits.all (· = '0') || (digits.head? ≠ some '0' && digits.length ≤ maxDigits)

def startsDigit : List Char → Bool
  | [] => false
  | c :: _ => c.isDigit

def fraction? (text : List Char) : Option (Bool × List Char) :=
  match text with
  | '.' :: rest =>
    if startsDigit rest then (digitRun? Char.isDigit rest).map fun run => (true, run.2)
    else some (true, rest)
  | rest => some (false, rest)

def dropSign : List Char → List Char
  | '+' :: rest => rest
  | '-' :: rest => rest
  | rest => rest

def exponent? (text : List Char) : Option (Bool × List Char) :=
  match text with
  | [] => some (false, [])
  | c :: rest =>
    if c = 'e' ∨ c = 'E' then (digitRun? Char.isDigit (dropSign rest)).map fun run => (true, run.2)
    else some (false, text)

/-- A decimal number: digits, a fraction, an exponent and the mark of an imaginary one. -/
def decimal? (text : List Char) : Option (Nature × List Char) := do
  let (digits, rest) ← if startsDigit text then digitRun? Char.isDigit text else some ([], text)
  let (pointed, rest) ← fraction? rest
  let (scaled, rest) ← exponent? rest
  match rest with
  | 'j' :: rest => finished? .imaginary rest
  | 'J' :: rest => finished? .imaginary rest
  | rest => if pointed || scaled || isWhole digits then finished? .real rest else none

def number? (text : List Char) : Option (Nature × List Char) :=
  match text with
  | '0' :: letter :: rest =>
    match baseDigits? letter with
    | none => decimal? text
    | some isDigit => do
      let digits := if rest.head? = some '_' then rest.drop 1 else rest
      let (_, rest) ← digitRun? isDigit digits
      finished? .real rest
  | '.' :: rest => if startsDigit rest then decimal? text else none
  | text => decimal? text

/-- How a text is quoted: by which quote, by three of them or by one, with or without escapes, and
whether it holds bytes. -/
structure Quoting where
  quote : Char
  triple : Bool
  raw : Bool
  bytes : Bool
  deriving DecidableEq, Inhabited

/-- The letters that may stand before a quote: whether they take away escapes and whether they
announce bytes. -/
def quotingLetters? (letters : List Char) : Option (Bool × Bool) :=
  match letters.map Char.toLower with
  | [] => some (false, false)
  | ['u'] => some (false, false)
  | ['r'] => some (true, false)
  | ['b'] => some (false, true)
  | ['b', 'r'] => some (true, true)
  | ['r', 'b'] => some (true, true)
  | _ => none

/-- The quoting that a text starts with, and what follows the opening quotes. -/
def quoting? (text : List Char) : Option (Quoting × List Char) := do
  let letters := text.takeWhile Char.isAlpha
  let (raw, bytes) ← quotingLetters? letters
  match text.drop letters.length with
  | [] => none
  | quote :: rest =>
    if quote = '\x27' ∨ quote = '\x22' then
      if rest.take 2 = [quote, quote] then some (⟨quote, true, raw, bytes⟩, rest.drop 2)
      else some (⟨quote, false, raw, bytes⟩, rest)
    else none

/-- The number of hexadecimal digits that an escape asks for; an escape by a character's name is not
read. -/
def escapeDigits? (bytes : Bool) (letter : Char) : Option Nat :=
  if letter = 'x' then some 2
  else if bytes then some 0
  else if letter = 'u' then some 4
  else if letter = 'U' then some 8
  else if letter = 'N' then none
  else some 0

def maxCodePoint : Nat := 0x10ffff

/-- What follows a quoted text.  An escape under way needs more hexadecimal digits, and has a value
so far. -/
def afterQuoted? (form : Quoting) (need value : Nat) : List Char → Option (List Char)
  | [] => none
  | c :: rest =>
    if 0 < need then
      match hexValue? c with
      | none => none
      | some digit =>
        let value := 16 * value + digit
        if need = 1 && maxCodePoint < value then none
        else afterQuoted? form (need - 1) value rest
    else if c = form.quote && (!form.triple || rest.take 2 = [c, c]) then
      some (if form.triple then rest.drop 2 else rest)
    else if (c = '\n' && !form.triple) || (form.bytes && 0x80 ≤ c.toNat) then none
    else if c = '\\' then
      match rest with
      | [] => none
      | letter :: rest =>
        if form.bytes && 0x80 ≤ letter.toNat then none
        else if form.raw then afterQuoted? form 0 0 rest
        else
          match escapeDigits? form.bytes letter with
          | none => none
          | some need => afterQuoted? form need 0 rest
    else afterQuoted? form 0 0 rest

def afterStrings? (nested : Bool) (fuel : Nat) (bytes : Bool) (text : List Char) :
    Option (List Char) :=
  match fuel with
  | 0 => none
  | fuel + 1 => do
    let next ← dropGap? nested false text
    match quoting? next with
    | none => some next
    | some (form, body) =>
      if form.bytes = bytes then
        let rest ← afterQuoted? form 0 0 body
        afterStrings? nested fuel bytes rest
      else none

end SchemaModel.Console.Literal
