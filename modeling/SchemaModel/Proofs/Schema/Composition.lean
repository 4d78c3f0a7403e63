import SchemaModel.Proofs.Model.Listed
import SchemaModel.Proofs.Schema.Reading

/-!
# Models out of the models below

A node that has a model stands above the ceiling, and its model is made in one of a few ways: it is
a model without parts, or an array or object around models of the schemas below the node, or what
a combinator joins out of one model for each of its variants.  `Composed` lists these ways and
`composed_of_resolveNode` says that they are all.
-/

namespace SchemaModel

namespace Resolution

/-- Every result meets a condition; nothing is said of a stop. -/
def Gives {α : Type} (post : α → Prop) (x : Resolution α) : Prop :=
  ∀ found, x = .ok found → post found.1

variable {α β : Type}

theorem gives_self (x : Resolution α) : Gives (fun a => ∃ issues, x = .ok (a, issues)) x :=
  fun found h => ⟨found.2, h⟩

theorem gives_pure {post : α → Prop} {a : α} (h : post a) : Gives post (pure a) := by
  intro found hfound
  cases hfound
  exact h

theorem Gives.mono {x : Resolution α} {post post' : α → Prop} (h : Gives post x)
    (himp : ∀ a, post a → post' a) : Gives post' x :=
  fun found hfound => himp _ (h found hfound)

theorem Gives.bind {x : Resolution α} {f : α → Resolution β} {mid : α → Prop} {post : β → Prop}
    (hx : Gives mid x) (hf : ∀ a, mid a → Gives post (f a)) : Gives post (x >>= f) := by
  intro found h
  cases x with
  | error stop => cases h
  | ok first =>
      obtain ⟨a, before⟩ := first
      have hnext := hf a (hx (a, before) rfl)
      simp only [Bind.bind] at h
      cases hfa : f a with
      | error stop =>
          rw [hfa] at h
          cases h
      | ok next =>
          rw [hfa] at h hnext
          cases h
          exact hnext next rfl

/-- What comes after a step whose result does not matter. -/
theorem gives_after {x : Resolution α} {f : α → Resolution β} {post : β → Prop}
    (hf : ∀ a, Gives post (f a)) : Gives post (x >>= f) :=
  (gives_self x).bind fun a _ => hf a

theorem gives_each (rel : α → β → Prop) {f : α → Resolution β} {xs : List α}
    (h : ∀ x ∈ xs, Gives (rel x) (f x)) : Gives (List.Forall₂ rel xs) (each f xs) := by
  induction xs with
  | nil => exact gives_pure .nil
  | cons x xs ih =>
      obtain ⟨hx, hxs⟩ := List.forall_mem_cons.mp h
      rw [each]
      refine hx.bind fun y hy => (ih hxs).bind fun ys hys => ?_
      exact gives_pure (.cons hy hys)

theorem gives_ofFault {made : Except Fault α} {post : α → Prop}
    (h : ∀ a, made = .ok a → post a) : Gives post (ofFault made) := by
  cases made with
  | error cause =>
      intro found hfound
      cases hfound
  | ok a => exact gives_pure (h a rfl)

end Resolution

/-- A model without parts. -/
def Model.isAtom : Model → Bool
  | .array _ | .object .. | .oneOf .. | .anyOf _ | .allOf _ | .stray _ => false
  | _ => true

/-- The names of the properties that a node declares. -/
def Value.declaredNames : Value → List Key
  | .mapping _ entries => (declaredSchemas entries).map Prod.fst
  | _ => []

/-- The ways in which the model of a node is made, given what holds between the schemas below it and
their models. -/
inductive Composed [Platform] (part : Value → Model → Prop) (node : Value) : Model → Prop
  | atom {model : Model} (plain : model.isAtom = true)
      (listed : ∀ value ∈ model.ownValues, value.isJson = true ∧ value ∈ node.literals) :
      Composed part node model
  | anyArray : Composed part node (.array .unknown)
  | array {items : Value} {model : Model} (below : items ∈ node.subschemas)
      (items_model : part items model) : Composed part node (.array model)
  | object {properties : List (Key × Model)} (required : List Text) (additional : Bool)
      (declared : ∀ property ∈ properties, property.1 ∈ node.declaredNames ∧
        ∃ sub ∈ node.subschemas, part sub property.2) :
      Composed part node (.object properties required additional)
  | variants {form : MappingForm} {entries : List (Key × Value)} {combinator : Combinator}
      {variants : List Value} {models : List Model} {mark : Mark} {joint : Model}
      (decides : directive entries = .combine combinator (.list variants))
      (entries_eq : node = .mapping form entries)
      (variants_models : List.Forall₂ part variants models)
      (joined : joinVariants mark combinator models = .ok joint) : Composed part node joint

/-- A model without values and parts may stand for any node. -/
theorem Composed.bare [Platform] {part : Value → Model → Prop} {node : Value} {model : Model}
    (plain : model.isAtom = true) (hvalues : model.ownValues = []) : Composed part node model :=
  .atom plain (by rw [hvalues]; exact List.forall_mem_nil _)

open Resolution

section Composition

variable (settings : ResolverSettings)

theorem gives_bounded {α : Type} {post : α → Prop} {x : Resolution α} (place : Pointer)
    (depth : Nat) (h : depth ≤ settings.maxDepth → Gives post x) :
    Gives post (settings.bounded place depth x) := by
  rw [ResolverSettings.bounded]
  split
  · intro found hfound
    cases hfound
  · next hbelow => exact h (Nat.not_lt.mp hbelow)

variable [Platform] {form : MappingForm} {entries : List (Key × Value)}
  {part : Value → Model → Prop}

/-- A literal is taken over as it is, and what is no JSON data gives a model without values. -/
theorem composed_resolveConst {value : Value} (hdirective : directive entries = .const value)
    (place : Pointer) (depth : Nat) :
    Gives (Composed part (.mapping form entries)) (resolveConst settings value place depth) := by
  rw [resolveConst_eq]
  apply gives_bounded
  intro _
  split
  · next hjson =>
    apply gives_ofFault
    intro model hmodel
    cases Model.ofLiteral_eq_ok hmodel
    refine .atom rfl (List.forall_mem_singleton.mpr ⟨hjson, ?_⟩)
    rw [literals_eq, hdirective]
    exact List.mem_singleton_self value
  · exact gives_after fun _ => gives_pure (.bare rfl rfl)

theorem composed_resolveEnum {values : Value} (hdirective : directive entries = .enum values)
    (place : Pointer) (depth : Nat) :
    Gives (Composed part (.mapping form entries)) (resolveEnum settings values place depth) := by
  cases values with
  | list members =>
      cases members with
      | nil => exact gives_after fun _ => gives_pure (.bare rfl rfl)
      | cons first rest =>
          rw [resolveEnum_eq _ _ _ (List.cons_ne_nil first rest)]
          apply gives_bounded
          intro _
          split
          · next hjson =>
            apply gives_ofFault
            intro model hmodel
            cases Model.ofEnum_eq_ok hmodel
            refine .atom rfl fun value hmem => ?_
            have hvalue := (Model.distinctValues_sublist _ _).mem hmem
            refine ⟨List.all_eq_true.mp hjson value hvalue, ?_⟩
            rw [literals_eq, hdirective]
            exact hvalue
          · exact gives_after fun _ => gives_pure (.bare rfl rfl)
  | _ => exact gives_after fun _ => gives_pure (.bare rfl rfl)

section Readers

variable {read : Reader} {depth : Nat}
  (h : ∀ sub ∈ (Value.mapping form entries).subschemas, ∀ place,
    Gives (part sub) (read sub place (depth + 1)))

include h

/-- The branches come from the variants, one by one. -/
theorem composed_readVariants {combinator : Combinator} {variants : Value}
    (hdirective : directive entries = .combine combinator variants) (place : Pointer) :
    Gives (Composed part (.mapping form entries))
      (readVariants settings read combinator variants place depth) := by
  unfold readVariants
  split
  · next first rest =>
    rw [subschemas_variants hdirective] at h
    refine (gives_each (fun x model => part x.1 model) ?_).bind fun models hmodels =>
      gives_ofFault fun joint hjoint => ?_
    · intro x hx
      exact h x.1 (List.fst_mem_of_mem_zipIdx hx) _
    · have hparts : List.Forall₂ part (first :: rest) models := by
        rw [← List.zipIdx_map_fst 0 (first :: rest)]
        exact List.forall₂_map_left_iff.mpr hmodels
      exact .variants hdirective rfl hparts hjoint
  · exact gives_after fun _ => gives_pure (.bare rfl rfl)

theorem composed_readItems {name : Text} (hdirective : directive entries = .type (.str name))
    (hname : TypeName.ofName? name = some .array) (place : Pointer) :
    Gives (Composed part (.mapping form entries))
      (readItems settings read entries place depth) := by
  unfold readItems
  split
  · exact gives_pure .anyArray
  · exact gives_after fun _ => gives_pure .anyArray
  · next items hother hitems =>
    have hbelow : items ∈ (Value.mapping form entries).subschemas := by
      rw [subschemas_items hdirective hname hitems hother]
      exact List.mem_singleton_self items
    exact (h items hbelow _).bind fun model hmodel => gives_pure (.array hbelow hmodel)

/-- Every property has a declared name and the model of a subschema. -/
theorem composed_readProperties {name : Text}
    (hdirective : directive entries = .type (.str name))
    (hname : TypeName.ofName? name = some .object) (place : Pointer) :
    Gives (fun properties => ∀ property ∈ properties,
        property.1 ∈ (Value.mapping form entries).declaredNames ∧
          ∃ sub ∈ (Value.mapping form entries).subschemas, part sub property.2)
      (readProperties settings read entries place depth) := by
  unfold readProperties
  split
  · exact gives_pure (by simp)
  · next inner properties hfound =>
    rw [subschemas_properties hdirective hname hfound] at h ⊢
    have hstep : ∀ entry ∈ properties,
        Gives (fun property => property.1 = entry.1 ∧ part entry.2 property.2) (do
          let place := (place.child "properties").child (← keyText entry.1)
          let model ← read entry.2 place (depth + 1)
          pure (entry.1, model)) := by
      intro entry hentry
      refine gives_after fun text => ?_
      exact (h entry.2 (List.mem_map_of_mem hentry) _).bind fun model hmodel =>
        gives_pure ⟨rfl, hmodel⟩
    refine (gives_each (fun entry property => property.1 = entry.1 ∧ part entry.2 property.2)
      hstep).mono ?_
    intro models hmodels property hproperty
    obtain ⟨entry, hentry, hname, hpart⟩ := exists_mem_of_forall₂ hmodels.flip property hproperty
    refine ⟨?_, entry.2, List.mem_map_of_mem hentry, hpart⟩
    rw [hname, Value.declaredNames, declaredSchemas, hfound]
    exact List.mem_map_of_mem hentry
  · exact gives_after fun _ => gives_pure (by simp)

/-- Arrays and objects are composed of subschemas, every other type is an atom. -/
theorem composed_readType {name : Value} (hdirective : directive entries = .type name)
    (place : Pointer) :
    Gives (Composed part (.mapping form entries))
      (readType settings read entries name place depth) := by
  unfold readType
  split
  · next name =>
    split
    · exact gives_pure (.bare rfl rfl)
    · exact gives_pure (.bare rfl rfl)
    · exact gives_pure (.bare rfl rfl)
    · exact gives_pure (.bare rfl rfl)
    · next hname => exact composed_readItems settings h hdirective hname place
    · next hname =>
      refine (composed_readProperties settings h hdirective hname place).bind
        fun properties hproperties => gives_after fun required => gives_ofFault ?_
      intro model hmodel
      rw [Model.eq_of_ofObject hmodel]
      exact .object required _ hproperties
    · exact gives_after fun _ => gives_pure (.bare rfl rfl)
  · exact gives_after fun _ => gives_pure (.bare rfl rfl)

theorem composed_readDirective (place : Pointer) :
    Gives (Composed part (.mapping form entries))
      (readDirective settings read entries place depth (directive entries)) := by
  cases hdirective : directive entries with
  | const value => exact composed_resolveConst settings hdirective _ depth
  | enum values => exact composed_resolveEnum settings hdirective _ depth
  | combine combinator variants => exact composed_readVariants settings h hdirective place
  | type name => exact composed_readType settings h hdirective place
  | absent => exact gives_pure (.bare rfl rfl)

end Readers

/-- A node that has a model is not below the ceiling, and its model is composed of those of the
schemas below, read one deeper. -/
theorem composed_of_resolveNode {node : Value} {model : Model} {place : Pointer} {depth : Nat}
    {issues : List SchemaIssue} (h : resolveNode settings node place depth = .ok (model, issues)) :
    depth ≤ settings.maxDepth ∧
      Composed (fun sub model =>
        ∃ place issues, resolveNode settings sub place (depth + 1) = .ok (model, issues))
        node model := by
  have hgives : Gives (fun model => depth ≤ settings.maxDepth ∧ Composed (fun sub model =>
      ∃ place issues, resolveNode settings sub place (depth + 1) = .ok (model, issues)) node model)
      (resolveNode settings node place depth) := by
    cases node with
    | mapping form entries =>
        rw [resolveNode_mapping]
        apply gives_bounded
        intro hdepth
        refine gives_after fun _ => (composed_readDirective settings ?_ place).mono
          fun model hmodel => ⟨hdepth, hmodel⟩
        intro sub _ place
        exact (gives_self _).mono fun model hmodel => ⟨place, hmodel⟩
    | bool flag =>
        rw [resolveNode]
        apply gives_bounded
        intro hdepth
        refine gives_pure ⟨hdepth, ?_⟩
        cases flag <;> exact .bare rfl rfl
    | _ =>
        rw [resolveNode]
        · apply gives_bounded
          intro hdepth
          exact gives_after fun _ => gives_pure ⟨hdepth, .bare rfl rfl⟩
        all_goals
          intros
          simp_all
  exact hgives _ h

theorem resolveNode_of_resolve {schema : Value} {result : ResolutionResult}
    (h : resolve schema settings = .ok result) :
    resolveNode settings schema [] 0 = .ok (result.model, result.issues) := by
  rw [resolve] at h
  cases hnode : resolveNode settings schema [] 0 with
  | error stop =>
      rw [hnode] at h
      cases h
  | ok found =>
      rw [hnode] at h
      cases h
      rfl

end Composition

end SchemaModel
