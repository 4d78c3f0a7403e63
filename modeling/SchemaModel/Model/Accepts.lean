import SchemaModel.Model.Describe
import SchemaModel.Model.Equality
import SchemaModel.Value.Datum

/-!
# Acceptance

`Model.accepts` decides whether a model permits a datum.  It looks at branches and elements in
order and stops as soon as the answer is settled, so a stray part behind that point is never
touched.  A literal or an enumeration that rejects a datum is put into words even when nobody reads
them, and that fails when the platform refuses an integer in it.
-/

namespace SchemaModel

/-- Whether exactly one test succeeds, asking no further after the second success. -/
def exactlyOne {α ε : Type} (test : α → Except ε Bool) (found : Bool) : List α → Except ε Bool
  | [] => .ok found
  | x :: xs => do
    if ← test x then
      if found then .ok false else exactlyOne test true xs
    else exactlyOne test found xs

theorem exactlyOne_map {α β ε : Type} (test : β → Except ε Bool) (f : α → β) (found : Bool)
    (xs : List α) : exactlyOne test found (xs.map f) = exactlyOne (test ∘ f) found xs := by
  induction xs generalizing found with
  | nil => rfl
  | cons x xs ih => simp only [List.map_cons, exactlyOne, ih, Function.comp_apply]

theorem anyM_map {α β ε : Type} (test : β → Except ε Bool) (f : α → β) (xs : List α) :
    (xs.map f).anyM test = xs.anyM (test ∘ f) := by
  induction xs with
  | nil => rfl
  | cons x xs ih => simp only [List.map_cons, List.anyM, ih, Function.comp_apply]

theorem allM_map {α β ε : Type} (test : β → Except ε Bool) (f : α → β) (xs : List α) :
    (xs.map f).allM test = xs.allM (test ∘ f) := by
  induction xs with
  | nil => rfl
  | cons x xs ih => simp only [List.map_cons, List.allM, ih, Function.comp_apply]

namespace Model

/-- The required names that no entry carries, once for every declaration, in the order of the
declarations. -/
def missing {α : Type} (properties : List (Key × Model)) (required : List Text)
    (fields : List (Key × α)) : List Key :=
  (properties.map Prod.fst).filter fun name =>
    required.any (fun needed => name.same (.str needed)) && !Entries.has fields name

theorem sizeOf_findLast?_lt {properties : List (Key × Model)} {name : Key} {model : Model}
    (h : Entries.findLast? properties name = some model) : sizeOf model < sizeOf properties := by
  obtain ⟨key, member⟩ := Entries.mem_of_findLast? h
  have bound := List.sizeOf_lt_of_mem member
  simp only [Prod.mk.sizeOf_spec] at bound
  omega

open Datum (look)

variable [Platform] {α : Type} [Datum α]

/-- The answer of a test that a rejecting model must put into words. -/
def answer (model : Model) (fine : Bool) : Except Fault Bool :=
  if fine then .ok true
  else do
    let _ ← model.describe
    .ok false

/-- Whether a model permits a datum. -/
def accepts (model : Model) (value : α) : Except Fault Bool :=
  match model with
  | .unknown => .ok true
  | .never => .ok false
  | .null => .ok ((look value).kind? = some .null)
  | .boolean => .ok ((look value).kind? = some .boolean)
  | .number => .ok ((look value).kind? = some .number)
  | .string => .ok ((look value).kind? = some .string)
  | .literal mark expected => (literal mark expected).answer (Datum.equals value expected)
  | .enum mark values => (enum mark values).answer (values.any (Datum.equals value))
  | .array items =>
    match (look value).items? with
    | none => .ok false
    | some elements => elements.allM fun element => items.accepts element
  | .object properties required additional =>
    match (look value).fields? with
    | none => .ok false
    | some fields =>
      if (missing properties required fields).isEmpty then
        fields.allM fun field =>
          match _h : Entries.findLast? properties field.1 with
          | some property => property.accepts field.2
          | none => .ok additional
      else .ok false
  | .oneOf _ branches => exactlyOne (fun ⟨branch, _⟩ => branch.accepts value) false branches.attach
  | .anyOf branches => branches.attach.anyM fun ⟨branch, _⟩ => branch.accepts value
  | .allOf branches => branches.attach.allM fun ⟨branch, _⟩ => branch.accepts value
  | .stray part => .error (unsupported part)
termination_by sizeOf model
decreasing_by
  · simp_wf
  · have smaller := sizeOf_findLast?_lt _h
    simp_wf
    omega
  all_goals
    have smaller := List.sizeOf_lt_of_mem ‹_ ∈ _›
    simp_wf
    omega

/-- An exclusive union permits what exactly one branch permits. -/
theorem accepts_oneOf (mark : Mark) (branches : List Model) (value : α) :
    (oneOf mark branches).accepts value = exactlyOne (·.accepts value) false branches := by
  have step := exactlyOne_map (fun branch => branch.accepts value) Subtype.val false
    branches.attach
  rw [List.attach_map_subtype_val] at step
  rw [accepts, step]
  rfl

/-- An inclusive union permits what some branch permits. -/
theorem accepts_anyOf (branches : List Model) (value : α) :
    (anyOf branches).accepts value = branches.anyM (·.accepts value) := by
  have step := anyM_map (fun branch => branch.accepts value) Subtype.val branches.attach
  rw [List.attach_map_subtype_val] at step
  rw [accepts, step]
  rfl

/-- An intersection permits what all branches permit. -/
theorem accepts_allOf (branches : List Model) (value : α) :
    (allOf branches).accepts value = branches.allM (·.accepts value) := by
  have step := allM_map (fun branch => branch.accepts value) Subtype.val branches.attach
  rw [List.attach_map_subtype_val] at step
  rw [accepts, step]
  rfl

end Model

end SchemaModel
