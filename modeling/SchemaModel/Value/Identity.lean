import SchemaModel.Value.Basic

/-!
# Identity of values

Two values are identical when they are built alike throughout, the marks of what is not a number
included.  `Key.identical` and `Value.identical` decide it, so identity is decidable equality.
-/

namespace SchemaModel

mutual

def Key.identical : Key → Key → Bool
  | .str a, .str b => a = b
  | .int a, .int b => a = b
  | .bool a, .bool b => a = b
  | .float a, .float b => a = b
  | .null, .null => true
  | .tuple as, .tuple bs => identicalKeys as bs
  | .foreign a, .foreign b => a = b
  | _, _ => false

def identicalKeys : List Key → List Key → Bool
  | [], [] => true
  | a :: as, b :: bs => a.identical b && identicalKeys as bs
  | _, _ => false

end

mutual

/-- Whether two values are built alike. -/
def Value.identical : Value → Value → Bool
  | .null, .null => true
  | .bool a, .bool b => a = b
  | .int a, .int b => a = b
  | .float a, .float b => a = b
  | .str a, .str b => a = b
  | .list as, .list bs => identicalItems as bs
  | .tuple as, .tuple bs => identicalItems as bs
  | .mapping form as, .mapping other bs => form = other && identicalEntries as bs
  | .foreign a, .foreign b => a = b
  | _, _ => false

def identicalItems : List Value → List Value → Bool
  | [], [] => true
  | a :: as, b :: bs => a.identical b && identicalItems as bs
  | _, _ => false

def identicalEntries : List (Key × Value) → List (Key × Value) → Bool
  | [], [] => true
  | (k, a) :: as, (l, b) :: bs => k.identical l && a.identical b && identicalEntries as bs
  | _, _ => false

end

mutual

theorem Key.identical_iff : ∀ a b : Key, a.identical b = true ↔ a = b
  | .str a, b => by cases b <;> simp [Key.identical]
  | .int a, b => by cases b <;> simp [Key.identical]
  | .bool a, b => by cases b <;> simp [Key.identical]
  | .float a, b => by cases b <;> simp [Key.identical]
  | .null, b => by cases b <;> simp [Key.identical]
  | .tuple as, b => by cases b <;> simp [Key.identical, identicalKeys_iff as]
  | .foreign a, b => by cases b <;> simp [Key.identical]

theorem identicalKeys_iff : ∀ as bs : List Key, identicalKeys as bs = true ↔ as = bs
  | [], bs => by cases bs <;> simp [identicalKeys]
  | a :: as, bs => by cases bs <;> simp [identicalKeys, a.identical_iff, identicalKeys_iff as]

end

mutual

/-- Values that are built alike are equal. -/
theorem Value.identical_iff : ∀ a b : Value, a.identical b = true ↔ a = b
  | .null, b => by cases b <;> simp [Value.identical]
  | .bool a, b => by cases b <;> simp [Value.identical]
  | .int a, b => by cases b <;> simp [Value.identical]
  | .float a, b => by cases b <;> simp [Value.identical]
  | .str a, b => by cases b <;> simp [Value.identical]
  | .list as, b => by cases b <;> simp [Value.identical, identicalItems_iff as]
  | .tuple as, b => by cases b <;> simp [Value.identical, identicalItems_iff as]
  | .mapping _ as, b => by cases b <;> simp [Value.identical, identicalEntries_iff as]
  | .foreign a, b => by cases b <;> simp [Value.identical]

theorem identicalItems_iff : ∀ as bs : List Value, identicalItems as bs = true ↔ as = bs
  | [], bs => by cases bs <;> simp [identicalItems]
  | a :: as, bs => by cases bs <;> simp [identicalItems, a.identical_iff, identicalItems_iff as]

theorem identicalEntries_iff :
    ∀ as bs : List (Key × Value), identicalEntries as bs = true ↔ as = bs
  | [], bs => by cases bs <;> simp [identicalEntries]
  | (k, a) :: as, bs => by
    cases bs <;>
      simp [identicalEntries, k.identical_iff, a.identical_iff, identicalEntries_iff as,
        Prod.ext_iff, and_assoc]

end

instance : DecidableEq Key := fun a b => decidable_of_iff _ (Key.identical_iff a b)

instance : DecidableEq Value := fun a b => decidable_of_iff _ (Value.identical_iff a b)

end SchemaModel
