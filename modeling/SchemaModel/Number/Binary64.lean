/-!
# Binary64 numbers

A finite binary64 number is a whole number of units of `2 ^ (-1074)`, the least positive
subnormal.  The type keeps the mantissa and the power of two by which it counts those units, so
every comparison and every rounding below is exact arithmetic on natural numbers.

What is not a number carries a mark.  The mark has no size and no text; it tells one such thing from
another where a value is looked for by what it is and not by its size.
-/

namespace SchemaModel

/-- A binary64 number: `finite negative m s` is `± m * 2 ^ s` units of `2 ^ (-1074)`. -/
inductive Binary64 where
  | finite (negative : Bool) (mantissa shift : Nat)
  | infinite (negative : Bool)
  | nan (mark : Nat)
  deriving DecidableEq, Inhabited

/-- The exact size of a number: a whole number of units of `2 ^ (-1074)`, or an infinity. -/
inductive Exact where
  | units (count : Int)
  | infinite (negative : Bool)
  deriving DecidableEq, Inhabited

def unitsOfOne : Nat :=
  Nat.pow 2 1074

/-- An integer counted in units of `2 ^ (-1074)`. -/
def Exact.ofInt (n : Int) : Exact :=
  .units (n * unitsOfOne)

namespace Binary64

def signedUnits (negative : Bool) (mantissa shift : Nat) : Int :=
  let count : Nat := mantissa * Nat.pow 2 shift
  if negative then -count else count

/-- The exact size of a number, which only `nan` lacks. -/
def measure? : Binary64 → Option Exact
  | .finite negative mantissa shift => some (.units (signedUnits negative mantissa shift))
  | .infinite negative => some (.infinite negative)
  | .nan _ => none

/-- The quotient `num / den` rounded to the nearest whole number, a tie to the even one. -/
def roundQuotient (num den : Nat) : Nat :=
  let whole := num / den
  let twice := 2 * (num % den)
  if den < twice ∨ (twice = den ∧ whole % 2 = 1) then whole + 1 else whole

/-- The binary64 number nearest to `num / den` units, a tie to the even mantissa.  A mantissa has
at most 53 bits, and a number whose mantissa would have to be shifted further than 2045 places is
infinite. -/
def ofUnits (negative : Bool) (num den : Nat) : Binary64 :=
  let shift := (num / den).log2 + 1 - 53
  let mantissa := roundQuotient num (den * Nat.pow 2 shift)
  let carried := mantissa = Nat.pow 2 53
  let mantissa := if carried then Nat.pow 2 52 else mantissa
  let shift := if carried then shift + 1 else shift
  if 2045 < shift then .infinite negative else .finite negative mantissa shift

/-- The binary64 number nearest to `digits * 10 ^ exponent`.  Sizes far outside the range are
settled by the count of their digits, before any power is formed. -/
def ofDecimal (negative : Bool) (digits : Nat) (exponent : Int) : Binary64 :=
  let magnitude := ((Nat.toDigits 10 digits).length : Int) + exponent
  if digits = 0 then .finite negative 0 0
  else if 310 < magnitude then .infinite negative
  else if magnitude < -330 then .finite negative 0 0
  else if 0 ≤ exponent then ofUnits negative (digits * Nat.pow 10 exponent.toNat * unitsOfOne) 1
  else ofUnits negative (digits * unitsOfOne) (Nat.pow 10 (-exponent).toNat)

def toInt? : Binary64 → Option Int
  | .finite negative mantissa shift =>
    let count := signedUnits negative mantissa shift
    if count % unitsOfOne = 0 then some (count / unitsOfOne) else none
  | _ => none

def isFinite : Binary64 → Bool
  | .finite .. => true
  | _ => false

end Binary64

/-- Equality of sizes; a missing size, that of `nan`, equals nothing. -/
def Exact.agree : Option Exact → Option Exact → Bool
  | some a, some b => a = b
  | _, _ => false

end SchemaModel
