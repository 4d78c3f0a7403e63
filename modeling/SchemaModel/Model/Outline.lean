import SchemaModel.Model.Layers

/-!
# Outlines

The outline of a model is its tree with the shared overlap of every exclusive union written out,
that of the unions inside the overlap included.  It ends because an overlap nests no deeper than
the branches from which it is formed and has fewer layers than their union.
-/

namespace SchemaModel

/-- A model written out in full. -/
inductive Outline where
  | plain (kind : String)
  | literal (value : Value)
  | enum (values : List Value)
  | array (items : Outline)
  | object (properties : List (Key × Outline)) (required : List Text) (additional : Bool)
  | oneOf (branches : List Outline) (shared : Outline)
  | anyOf (branches : List Outline)
  | allOf (branches : List Outline)
  deriving Inhabited

/-- The order in which outlines are formed: by nesting, then by layers, then by size. -/
def Simpler : Nat × Nat × Nat → Nat × Nat × Nat → Prop :=
  Prod.Lex (· < ·) (Prod.Lex (· < ·) (· < ·))

theorem simpler_of_layers {n n' l l' s s' : Nat} (hn : n ≤ n') (hl : l < l') :
    Simpler (n, l, s) (n', l', s') := by
  rcases Nat.lt_or_eq_of_le hn with hn | rfl
  · exact .left _ _ hn
  · exact .right _ (.left _ _ hl)

theorem simpler_of_size {n n' l l' s s' : Nat} (hn : n ≤ n') (hl : l ≤ l') (hs : s < s') :
    Simpler (n, l, s) (n', l', s') := by
  rcases Nat.lt_or_eq_of_le hn with hn | rfl
  · exact .left _ _ hn
  · rcases Nat.lt_or_eq_of_le hl with hl | rfl
    · exact .right _ (.left _ _ hl)
    · exact .right _ (.right _ hs)

namespace Model

def outline [Platform] (model : Model) : Except Fault Outline :=
  match model with
  | .literal _ value => .ok (.literal value)
  | .enum _ values => .ok (.enum values)
  | .array items => do .ok (.array (← items.outline))
  | .object properties required additional => do
    let outlines ← properties.attach.mapM fun ⟨entry, _⟩ => do
      .ok (entry.1, ← entry.2.outline)
    .ok (.object (Entries.ofPairs outlines) (Text.sortNames required) additional)
  | .oneOf mark branches => do
    let outlines ← branches.attach.mapM fun ⟨branch, _⟩ => branch.outline
    match _h : reduce branches (.inside mark 0) with
    | .error fault => .error fault
    | .ok common => do .ok (.oneOf outlines (← common.outline))
  | .anyOf branches => do
    .ok (.anyOf (← branches.attach.mapM fun ⟨branch, _⟩ => branch.outline))
  | .allOf branches => do
    .ok (.allOf (← branches.attach.mapM fun ⟨branch, _⟩ => branch.outline))
  | .stray value => .error (.noMember value.typeName "to_dict")
  | model => .ok (.plain model.kindName)
termination_by (nesting model, layers model, sizeOf model)
decreasing_by
  · exact .left _ _ (Nat.lt_succ_self _)
  · have bound := nestingOfProperties_le.1 (Nat.le_refl _) _ ‹_ ∈ properties›
    exact .left _ _ (Nat.lt_succ_of_le bound)
  · have bound := within_branch ‹_ ∈ branches›
    exact simpler_of_layers bound.nesting_le (Nat.lt_succ_of_le bound.layers_le)
  · have bound := within_reduce _h
    exact simpler_of_layers bound.nesting_le (Nat.lt_succ_of_le bound.layers_le)
  all_goals
    have bound := within_branch ‹_ ∈ branches›
    have smaller := List.sizeOf_lt_of_mem ‹_ ∈ branches›
    refine simpler_of_size bound.nesting_le bound.layers_le ?_
    simp_wf
    omega

end Model

namespace Outline

/-- The members that name a kind and come first. -/
def withKind (kind : String) (members : List (String × Value)) : Value :=
  Value.object (("kind", .str kind) :: members)

mutual

def toValue : Outline → Value
  | .plain kind => withKind kind []
  | .literal value => withKind "literal" [("value", value)]
  | .enum values => withKind "enum" [("values", .list values)]
  | .array items => withKind "array" [("items", toValue items)]
  | .object properties required additional =>
    withKind "object"
      [("properties", .mapping .dict (entryValues properties)),
       ("required", .list (required.map .str)),
       ("additionalAllowed", .bool additional)]
  | .oneOf branches shared =>
    withKind "one_of" [("branches", .list (itemValues branches)), ("shared", toValue shared)]
  | .anyOf branches => withKind "any_of" [("branches", .list (itemValues branches))]
  | .allOf branches => withKind "all_of" [("branches", .list (itemValues branches))]

def itemValues : List Outline → List Value
  | [] => []
  | item :: items => toValue item :: itemValues items

def entryValues : List (Key × Outline) → List (Key × Value)
  | [] => []
  | (name, outline) :: entries => (name, toValue outline) :: entryValues entries

end

end Outline

def Model.toValue [Platform] (model : Model) : Except Fault Value :=
  model.outline.map Outline.toValue

end SchemaModel
