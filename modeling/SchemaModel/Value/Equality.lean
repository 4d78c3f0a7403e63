import SchemaModel.Value.Basic

/-!
# Equality of values

`Value.jsonEqual` is equality of JSON data: a flag is no number, numbers are compared by size, an
array is equal to another with equal elements, and an object to another with the same keys and
equal values in any order.  Values without a kind are compared by `Value.looseEqual`, which knows
no kinds: a flag counts as a number there, and a list differs from a tuple.

What is not a number equals nothing, with one exception: inside a container that is compared loosely
it equals what has the same mark, since there the parts are asked first whether they are one thing.
-/

namespace SchemaModel

namespace Value

/-- The exact size of a number or a flag. -/
def looseMeasure? : Value → Option Exact
  | .bool b => some (Exact.ofInt (if b then 1 else 0))
  | value => value.measure?

def sameMark : Value → Value → Bool
  | .float (.nan a), .float (.nan b) => a = b
  | _, _ => false

mutual

/-- Equality of values regardless of their kinds. -/
def looseEqual : Value → Value → Bool
  | .null, .null => true
  | .str a, .str b => a = b
  | .list as, .list bs => looseItems as bs
  | .tuple as, .tuple bs => looseItems as bs
  | .mapping _ as, .mapping _ bs => as.length = bs.length && looseEntries as bs
  | .foreign a, .foreign b => a.same b
  | a, b => Exact.agree a.looseMeasure? b.looseMeasure?

def looseItems : List Value → List Value → Bool
  | [], [] => true
  | a :: as, b :: bs => (sameMark a b || looseEqual a b) && looseItems as bs
  | _, _ => false

def looseEntries : List (Key × Value) → List (Key × Value) → Bool
  | [], _ => true
  | (key, a) :: as, bs =>
    (match Entries.find? bs key with
      | some b => sameMark a b || looseEqual a b
      | none => false) && looseEntries as bs

end

/-- Whether two values are one thing or loosely equal. -/
def alike (a b : Value) : Bool :=
  sameMark a b || looseEqual a b

mutual

/-- Equality of JSON data. -/
def jsonEqual : Value → Value → Bool
  | .null, .null => true
  | .bool a, .bool b => a = b
  | .str a, .str b => a = b
  | .list as, .list bs => equalItems as bs
  | .list as, .tuple bs => equalItems as bs
  | .tuple as, .list bs => equalItems as bs
  | .tuple as, .tuple bs => equalItems as bs
  | .mapping form as, .mapping other bs =>
    if Entries.textual as && Entries.textual bs then as.length = bs.length && equalEntries as bs
    else if Entries.textual as || Entries.textual bs then false
    else looseEqual (.mapping form as) (.mapping other bs)
  | .foreign a, .foreign b => a.same b
  | a, b => Exact.agree a.measure? b.measure?

def equalItems : List Value → List Value → Bool
  | [], [] => true
  | a :: as, b :: bs => jsonEqual a b && equalItems as bs
  | _, _ => false

def equalEntries : List (Key × Value) → List (Key × Value) → Bool
  | [], _ => true
  | (key, a) :: as, bs =>
    (match Entries.find? bs key with
      | some b => jsonEqual a b
      | none => false) && equalEntries as bs

end

end Value

end SchemaModel
