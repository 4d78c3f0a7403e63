import SchemaModel.Number.Binary64

/-!
# Shortest decimal text of a binary64 number

A finite number is written with the fewest decimal digits that read back as the same number and,
among those, with the digits nearest to it.  `shortest?` finds the digits by testing, for one digit,
two digits and so on, the two neighbours of the number on that decimal grid against the interval of
reals that round to it.  `NumberText` holds the decisions about the layout.
-/

namespace SchemaModel

/-- The decimal `digits * 10 ^ exponent`. -/
structure Decimal where
  digits : Nat
  exponent : Int
  deriving DecidableEq, Inhabited

namespace Decimal

/-- The exponent of the first digit of `num / den`, for positive `num` and `den`. -/
def leadingExponent (num den : Nat) : Int :=
  if den ≤ num then ((Nat.toDigits 10 (num / den)).length : Int) - 1
  else -((Nat.toDigits 10 ((den + num - 1) / num - 1)).length : Int)

/-- The reals that round to a number: `low` to `high` around `middle`, all over `scale`, where the
ends belong to the interval when `closed`. -/
structure Interval where
  low : Nat
  middle : Nat
  high : Nat
  scale : Nat
  closed : Bool

/-- The interval of a finite number.  Below a power of two the neighbour is only half as far. -/
def Interval.ofFinite (mantissa shift : Nat) : Interval where
  low := (4 * mantissa - if mantissa = Nat.pow 2 52 ∧ 0 < shift then 1 else 2) * Nat.pow 2 shift
  middle := 4 * mantissa * Nat.pow 2 shift
  high := (4 * mantissa + 2) * Nat.pow 2 shift
  scale := 4 * unitsOfOne
  closed := mantissa % 2 = 0

/-- The decimal with `count` digits inside the interval that lies nearest to its middle. -/
def Interval.nearest? (range : Interval) (leading : Int) (count : Nat) : Option Decimal :=
  let grid : Int := leading + 1 - count
  let up := Nat.pow 10 (-grid).toNat
  let step := range.scale * Nat.pow 10 grid.toNat
  let below := range.middle * up / step
  let before (a b : Nat) : Bool := if range.closed then a ≤ b else a < b
  let hitsBelow := before (range.low * up) (below * step)
  let hitsAbove := before ((below + 1) * step) (range.high * up)
  let twice := 2 * (range.middle * up - below * step)
  let chosen : Option Nat :=
    if hitsBelow then
      if hitsAbove ∧ (step < twice ∨ (twice = step ∧ below % 2 = 1)) then some (below + 1)
      else some below
    else if hitsAbove then some (below + 1)
    else none
  chosen.map fun digits =>
    if digits = Nat.pow 10 count then ⟨1, grid + count⟩ else ⟨digits, grid⟩

/-- The shortest decimal of a positive finite number; seventeen digits are always enough. -/
def shortest? (mantissa shift : Nat) : Option Decimal :=
  let range := Interval.ofFinite mantissa shift
  let leading := leadingExponent range.middle range.scale
  (List.range 17).findSome? fun extra => range.nearest? leading (extra + 1)

end Decimal

/-- How a number is laid out: the exponents written positionally, the least width of a written
exponent and the words for the numbers that have no digits. -/
structure NumberText where
  positionalFrom : Int := -4
  positionalBelow : Int := 16
  exponentWidth : Nat := 2
  infinity : String
  nan : String

namespace NumberText

def plain : NumberText where
  infinity := "inf"
  nan := "nan"

def json : NumberText where
  infinity := "Infinity"
  nan := "NaN"

def zeros (count : Nat) : List Char :=
  List.replicate count '0'

def layout (format : NumberText) (decimal : Decimal) : List Char :=
  let digits := Nat.toDigits 10 decimal.digits
  let leading : Int := decimal.exponent + digits.length - 1
  if format.positionalFrom ≤ leading ∧ leading < format.positionalBelow then
    if 0 ≤ decimal.exponent then digits ++ zeros decimal.exponent.toNat ++ ['.', '0']
    else if 0 ≤ leading then
      digits.take (leading.toNat + 1) ++ '.' :: digits.drop (leading.toNat + 1)
    else ['0', '.'] ++ zeros ((-leading).toNat - 1) ++ digits
  else
    let fraction := if digits.length = 1 then [] else '.' :: digits.drop 1
    let size := Nat.toDigits 10 leading.natAbs
    digits.take 1 ++ fraction ++ ['e', if leading < 0 then '-' else '+'] ++
      zeros (format.exponentWidth - size.length) ++ size

def text (format : NumberText) : Binary64 → String
  | .finite negative mantissa shift =>
    let sign := if negative then "-" else ""
    if mantissa = 0 then sign ++ "0.0"
    else
      let decimal := (Decimal.shortest? mantissa shift).getD ⟨0, 0⟩
      sign ++ String.ofList (format.layout decimal)
  | .infinite negative => (if negative then "-" else "") ++ format.infinity
  | .nan _ => format.nan

end NumberText

end SchemaModel
