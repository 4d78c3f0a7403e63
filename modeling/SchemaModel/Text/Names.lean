import SchemaModel.Text.Basic

/-!
# Sorted names

Names are listed by code point, each once.
-/

namespace SchemaModel.Text

def insertName (name : Text) : List Text → List Text
  | [] => [name]
  | other :: rest =>
    if name < other then name :: other :: rest
    else if name = other then other :: rest
    else other :: insertName name rest

/-- The names sorted, each once. -/
def sortNames (names : List Text) : List Text :=
  names.foldr insertName []

@[simp] theorem mem_insertName {name other : Text} {names : List Text} :
    other ∈ insertName name names ↔ other = name ∨ other ∈ names := by
  induction names with
  | nil => simp [insertName]
  | cons head rest ih =>
    rw [insertName]
    split
    · simp
    · split
      · next same => subst same; simp
      · simp only [List.mem_cons, ih]
        constructor <;> rintro (h | h | h) <;> simp [h]

@[simp] theorem mem_sortNames {name : Text} {names : List Text} :
    name ∈ sortNames names ↔ name ∈ names := by
  induction names with
  | nil => simp [sortNames]
  | cons head rest ih =>
    have step : sortNames (head :: rest) = insertName head (sortNames rest) := rfl
    rw [step, mem_insertName, ih, List.mem_cons]

end SchemaModel.Text
