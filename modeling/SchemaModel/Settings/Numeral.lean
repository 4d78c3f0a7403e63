import SchemaModel.Number.Whole
import SchemaModel.Text.Blank

/-!
# Numerals

A plain numeral is an optional minus sign and digits without a leading zero.  Any other text is
tidied first: blanks around it, one plus sign, leading zeros, a point with zeros behind it and
single underscores are dropped.  The underscores among leading zeros are dropped with them, and a
minus sign may stand behind them.
-/

namespace SchemaModel.Settings

inductive NumeralFault where
  | form
  | size
  deriving DecidableEq, Inhabited

def maxNumeralLength : Nat := 4300

def isLeadingDigit (c : Char) : Bool :=
  c.isDigit && c ≠ '0'

def plainDigits (room : Nat) (unsigned : List Char) : Except NumeralFault Nat :=
  match unsigned with
  | ['0'] => .ok 0
  | [] => .error .form
  | c :: rest =>
    if isLeadingDigit c then
      let digits := c :: rest.takeWhile Char.isDigit
      if maxNumeralLength < room + digits.length then .error .size
      else if (rest.dropWhile Char.isDigit).isEmpty then .ok (digitsValue digits)
      else .error .form
    else .error .form

/-- The number that a plain numeral denotes.  Too long a run of digits is reported before what
follows it. -/
def plainNumeral (text : List Char) : Except NumeralFault Int :=
  match text with
  | '-' :: unsigned => do .ok (-(← plainDigits 1 unsigned))
  | unsigned => do .ok (← plainDigits 0 unsigned)

def dropPlus? : List Char → Option (List Char)
  | '+' :: '-' :: _ => none
  | '+' :: rest => some rest
  | text => some text

/-- What follows leading zeros, the last of which is given.  It stays where nothing or a point
follows. -/
def afterZeros? (last : Char) : List Char → Option (List Char)
  | [] => some [last]
  | c :: rest =>
    if c = '0' ∨ c = '_' then afterZeros? c rest
    else if isLeadingDigit c ∨ c = '-' then some (c :: rest)
    else if c = '.' then some (last :: c :: rest)
    else none

/-- A text without leading zeros; it must start with a digit or a minus sign. -/
def dropZeros? : List Char → Option (List Char)
  | [] => none
  | c :: rest =>
    if c = '0' then afterZeros? c rest
    else if isLeadingDigit c ∨ c = '-' then some (c :: rest)
    else none

def dropFraction (text : List Char) : List Char :=
  match text.dropWhile (· ≠ '.') with
  | _ :: '0' :: zeros => if zeros.all (· = '0') then text.takeWhile (· ≠ '.') else text
  | _ => text

def underscoresSingle : List Char → Bool
  | [] => true
  | ['_'] => false
  | '_' :: '_' :: _ => false
  | _ :: rest => underscoresSingle rest

/-- A text without its underscores, if none of them is first, last or beside another. -/
def dropUnderscores (text : List Char) : List Char :=
  if text.head? ≠ some '_' ∧ underscoresSingle text then text.filter (· ≠ '_') else text

def tidied? (text : List Char) : Option (List Char) := do
  let unsigned ← dropPlus? (Text.trim text)
  let significant ← dropZeros? unsigned
  some (dropUnderscores (dropFraction significant))

/-- The number that a numeral denotes.  Only a text that is too long as it stands is reported for
its size. -/
def readNumeral (text : List Char) : Except NumeralFault Int :=
  match plainNumeral text with
  | .ok n => .ok n
  | .error .size => .error .size
  | .error .form =>
    match (tidied? text).map plainNumeral with
    | some (.ok n) => .ok n
    | _ => .error .form

end SchemaModel.Settings
