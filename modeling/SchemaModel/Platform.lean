import SchemaModel.Number.Whole

/-!
# Platforms

A platform turns whole numbers into text and back.  It may refuse numbers with more digits than a
bound, which is never set below 640.  It also knows which types of mapping are dictionaries: these
are the ones that it writes.
-/

namespace SchemaModel

/-- The bound on the digits of whole numbers, and the types that derive from the dictionaries, by
their names. -/
class Platform where
  maxDigits : Option Nat
  least : ∀ limit ∈ maxDigits, 640 ≤ limit
  isDictionary : String → Bool

structure LongInteger where
  limit : Nat
  deriving DecidableEq, Inhabited

namespace Platform

@[reducible] def unlimited : Platform where
  maxDigits := none
  least := by simp
  isDictionary _ := true

/-- The platform with the bound that is set unless another is asked for, and without types that
derive from the dictionaries. -/
@[reducible] def standard : Platform where
  maxDigits := some 4300
  least := by simp
  isDictionary _ := false

variable [Platform]

/-- The bound that a number of digits exceeds. -/
def exceeded? (digits : Nat) : Option Nat :=
  maxDigits.filter (· < digits)

def writes (n : Int) : Bool :=
  (exceeded? (Nat.toDigits 10 n.natAbs).length).isNone

def refusal : LongInteger :=
  ⟨maxDigits.getD 0⟩

end Platform

def digitLimitWording (limit : Nat) : String :=
  "Exceeds the limit (" ++ wholeText limit ++ " digits) for integer string conversion"

def digitLimitAdvice : String :=
  "; use sys.set_int_max_str_digits() to increase the limit"

def LongInteger.message (number : LongInteger) : String :=
  digitLimitWording number.limit ++ digitLimitAdvice

end SchemaModel
