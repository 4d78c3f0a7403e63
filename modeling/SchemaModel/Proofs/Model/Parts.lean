import SchemaModel.Proofs.Model.Good

/-!
# The parts of a model

`Model.parts` lists a model and every model inside it, the declarations of an object that a later
one hides included.  A condition holds throughout a model when it holds of all its parts; it is
taken apart along the models directly inside, as inductions over good models need it.
-/

namespace SchemaModel

namespace Model

mutual

/-- A model and all models inside it. -/
def parts : Model → List Model
  | .array items => .array items :: parts items
  | .object properties required additional =>
    .object properties required additional :: partsOfProperties properties
  | .oneOf mark branches => .oneOf mark branches :: partsOfBranches branches
  | .anyOf branches => .anyOf branches :: partsOfBranches branches
  | .allOf branches => .allOf branches :: partsOfBranches branches
  | model => [model]

def partsOfBranches : List Model → List Model
  | [] => []
  | branch :: branches => parts branch ++ partsOfBranches branches

def partsOfProperties : List (Key × Model) → List Model
  | [] => []
  | (_, model) :: properties => parts model ++ partsOfProperties properties

end

theorem mem_parts_self (model : Model) : model ∈ model.parts := by
  cases model <;> simp [parts]

theorem mem_partsOfBranches {branches : List Model} {part : Model} :
    part ∈ partsOfBranches branches ↔ ∃ branch ∈ branches, part ∈ branch.parts := by
  induction branches with
  | nil => simp [partsOfBranches]
  | cons branch branches ih => simp [partsOfBranches, ih]

theorem mem_partsOfProperties {properties : List (Key × Model)} {part : Model} :
    part ∈ partsOfProperties properties ↔ ∃ entry ∈ properties, part ∈ entry.2.parts := by
  induction properties with
  | nil => simp [partsOfProperties]
  | cons entry properties ih => simp [partsOfProperties, ih]

/-- The models directly inside a model. -/
def inner : Model → List Model
  | .array items => [items]
  | .object properties _ _ => properties.map Prod.snd
  | .oneOf _ branches => branches
  | .anyOf branches => branches
  | .allOf branches => branches
  | _ => []

theorem inner_wrap (mark : Mark) (combinator : Combinator) (branches : List Model) :
    (wrap mark combinator branches).inner = branches := by
  cases combinator <;> rfl

theorem mem_parts_iff {model part : Model} :
    part ∈ model.parts ↔ part = model ∨ ∃ within ∈ model.inner, part ∈ within.parts := by
  cases model <;> simp [parts, inner, mem_partsOfBranches, mem_partsOfProperties, -Prod.exists]

theorem sizeOf_inner_lt {model part : Model} (h : part ∈ model.inner) :
    sizeOf part < sizeOf model := by
  cases model with
  | array items =>
      cases List.mem_singleton.mp h
      simp only [array.sizeOf_spec]
      omega
  | object properties required additional =>
      obtain ⟨⟨name, part⟩, hmem, rfl⟩ := List.mem_map.mp h
      have hsize := List.sizeOf_lt_of_mem hmem
      simp only [Prod.mk.sizeOf_spec] at hsize
      simp only [object.sizeOf_spec]
      omega
  | oneOf mark branches =>
      have hsize := List.sizeOf_lt_of_mem h
      simp only [oneOf.sizeOf_spec]
      exact Nat.lt_of_lt_of_le hsize (Nat.le_add_left _ _)
  | anyOf branches =>
      have hsize := List.sizeOf_lt_of_mem h
      simp only [anyOf.sizeOf_spec]
      exact Nat.lt_of_lt_of_le hsize (Nat.le_add_left _ _)
  | allOf branches =>
      have hsize := List.sizeOf_lt_of_mem h
      simp only [allOf.sizeOf_spec]
      exact Nat.lt_of_lt_of_le hsize (Nat.le_add_left _ _)
  | _ => cases h

theorem mem_parts_trans {model part within : Model} (h : part ∈ model.parts)
    (hwithin : within ∈ part.parts) : within ∈ model.parts := by
  rcases mem_parts_iff.mp h with rfl | ⟨inside, hinside, hpart⟩
  · exact hwithin
  · have hsmaller := sizeOf_inner_lt hinside
    exact mem_parts_iff.mpr (.inr ⟨inside, hinside, mem_parts_trans hpart hwithin⟩)
termination_by sizeOf model

theorem Good.inner {model part : Model} (h : Good model) (hpart : part ∈ model.inner) :
    Good part := by
  cases h with
  | array good => exact List.mem_singleton.mp hpart ▸ good
  | object good =>
      obtain ⟨entry, hmem, rfl⟩ := List.mem_map.mp hpart
      exact good entry hmem
  | oneOf _ good | anyOf _ good | allOf _ good => exact good part hpart
  | _ => cases hpart

/-- A condition that holds of a model and of all models inside it. -/
def Throughout (p : Model → Prop) (model : Model) : Prop :=
  ∀ part ∈ model.parts, p part

section Throughout

variable {p : Model → Prop}

theorem Throughout.self {model : Model} (h : model.Throughout p) : p model :=
  h model (mem_parts_self model)

/-- A condition holds throughout a model when it holds of the model itself and throughout the models
directly inside. -/
theorem throughout_iff {model : Model} :
    model.Throughout p ↔ p model ∧ ∀ part ∈ model.inner, part.Throughout p := by
  constructor
  · intro h
    refine ⟨h.self, fun within hwithin part hpart => ?_⟩
    exact h part (mem_parts_iff.mpr (.inr ⟨within, hwithin, hpart⟩))
  · rintro ⟨hself, hinner⟩ part hpart
    rcases mem_parts_iff.mp hpart with rfl | ⟨within, hwithin, hmem⟩
    · exact hself
    · exact hinner within hwithin part hmem

theorem Throughout.inner {model part : Model} (h : model.Throughout p)
    (hpart : part ∈ model.inner) : part.Throughout p :=
  (throughout_iff.mp h).2 part hpart

theorem Throughout.part {model part : Model} (h : model.Throughout p)
    (hpart : part ∈ model.parts) : part.Throughout p :=
  fun within hwithin => h within (mem_parts_trans hpart hwithin)

theorem Throughout.items {items : Model} (h : (array items).Throughout p) : items.Throughout p :=
  h.inner List.mem_cons_self

theorem Throughout.property {properties : List (Key × Model)} {required : List Text}
    {additional : Bool} (h : (object properties required additional).Throughout p)
    {entry : Key × Model} (hentry : entry ∈ properties) : entry.2.Throughout p :=
  h.inner (List.mem_map_of_mem hentry)

theorem Throughout.of_mem_ofPairs {properties : List (Key × Model)} {required : List Text}
    {additional : Bool} (h : (object properties required additional).Throughout p)
    {entry : Key × Model} (hmem : entry ∈ Entries.ofPairs properties) : entry.2.Throughout p := by
  obtain ⟨key, hpair⟩ := Entries.mem_of_mem_ofPairs hmem
  have hpart := h.property hpair
  exact hpart

theorem Throughout.branch (mark : Mark) (combinator : Combinator) {branches : List Model}
    (h : (wrap mark combinator branches).Throughout p) {branch : Model}
    (hbranch : branch ∈ branches) : branch.Throughout p :=
  h.inner (by rwa [inner_wrap])

end Throughout

end Model

end SchemaModel
