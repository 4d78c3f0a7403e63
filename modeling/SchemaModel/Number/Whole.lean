/-!
# Decimal text of whole numbers
-/

namespace SchemaModel

def wholeDigits (n : Int) : List Char :=
  if n < 0 then '-' :: Nat.toDigits 10 n.natAbs else Nat.toDigits 10 n.natAbs

def wholeText (n : Int) : String :=
  String.ofList (wholeDigits n)

/-- The number denoted by decimal digits, first digit first. -/
def digitsValue (digits : List Char) : Nat :=
  digits.foldl (fun value digit => 10 * value + (digit.toNat - 48)) 0

theorem toList_wholeText (n : Nat) : (wholeText n).toList = Nat.toDigits 10 n := by
  rw [wholeText, String.toList_ofList, wholeDigits, if_neg (by omega), Int.natAbs_natCast]

theorem digitsValue_wholeText (n : Nat) : digitsValue (wholeText n).toList = n := by
  rw [toList_wholeText]
  exact Nat.ofDigitChars_toDigits (by decide) (by decide)

end SchemaModel
