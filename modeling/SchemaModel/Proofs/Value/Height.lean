import SchemaModel.Value.Basic

/-!
# The height of a value

The height of a value counts the lists, tuples and mappings inside one another; an empty one counts
nothing.  A value that stands at a depth reaches down by its height, so it nests no deeper than a
limit when depth and height together stay within it.
-/

namespace SchemaModel

namespace Value

mutual

/-- The number of filled containers inside one another. -/
def height : Value → Nat
  | .list items => heightOfItems items
  | .tuple items => heightOfItems items
  | .mapping _ entries => heightOfEntries entries
  | _ => 0

/-- The height of a container with the given elements. -/
def heightOfItems : List Value → Nat
  | [] => 0
  | item :: items => max (height item + 1) (heightOfItems items)

/-- The height of a mapping with the given entries. -/
def heightOfEntries : List (Key × Value) → Nat
  | [] => 0
  | (_, value) :: entries => max (height value + 1) (heightOfEntries entries)

end

mutual

/-- A value fits below a depth when its height does. -/
theorem fits_iff (limit depth : Nat) :
    ∀ value : Value, fits limit depth value = true ↔ depth + value.height ≤ limit
  | .list items => by
      have hitems := itemsFit_iff limit (depth + 1) items
      simp only [fits, height, Bool.and_eq_true, decide_eq_true_eq, hitems]
      omega
  | .tuple items => by
      have hitems := itemsFit_iff limit (depth + 1) items
      simp only [fits, height, Bool.and_eq_true, decide_eq_true_eq, hitems]
      omega
  | .mapping _ entries => by
      have hentries := entriesFit_iff limit (depth + 1) entries
      simp only [fits, height, Bool.and_eq_true, decide_eq_true_eq, hentries]
      omega
  | .null => by simp [fits, height]
  | .bool _ => by simp [fits, height]
  | .int _ => by simp [fits, height]
  | .float _ => by simp [fits, height]
  | .str _ => by simp [fits, height]
  | .foreign _ => by simp [fits, height]

theorem itemsFit_iff (limit depth : Nat) :
    ∀ items : List Value, itemsFit limit depth items = true ↔
      heightOfItems items = 0 ∨ depth + heightOfItems items ≤ limit + 1
  | [] => by simp [itemsFit, heightOfItems]
  | item :: items => by
      have hitem := fits_iff limit depth item
      have hitems := itemsFit_iff limit depth items
      simp only [itemsFit, heightOfItems, Bool.and_eq_true, hitem, hitems]
      omega

theorem entriesFit_iff (limit depth : Nat) :
    ∀ entries : List (Key × Value), entriesFit limit depth entries = true ↔
      heightOfEntries entries = 0 ∨ depth + heightOfEntries entries ≤ limit + 1
  | [] => by simp [entriesFit, heightOfEntries]
  | (_, value) :: entries => by
      have hvalue := fits_iff limit depth value
      have hentries := entriesFit_iff limit depth entries
      simp only [entriesFit, heightOfEntries, Bool.and_eq_true, hvalue, hentries]
      omega

end

theorem heightOfItems_le_iff {items : List Value} {limit : Nat} :
    heightOfItems items ≤ limit ↔ ∀ item ∈ items, item.height + 1 ≤ limit := by
  induction items with
  | nil => simp [heightOfItems]
  | cons item items ih => rw [heightOfItems, Nat.max_le, ih, List.forall_mem_cons]

theorem heightOfEntries_le_iff {entries : List (Key × Value)} {limit : Nat} :
    heightOfEntries entries ≤ limit ↔ ∀ entry ∈ entries, entry.2.height + 1 ≤ limit := by
  induction entries with
  | nil => simp [heightOfEntries]
  | cons entry entries ih => rw [heightOfEntries, Nat.max_le, ih, List.forall_mem_cons]

theorem not_fits_iff {limit depth : Nat} {value : Value} :
    (!fits limit depth value) = true ↔ limit < depth + value.height := by
  rw [Bool.not_eq_true', ← Bool.not_eq_true, fits_iff, Nat.not_le]

end Value

end SchemaModel
