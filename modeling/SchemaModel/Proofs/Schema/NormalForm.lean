import SchemaModel.Proofs.Model.NormalForm
import SchemaModel.Proofs.Schema.Composition

/-!
# Intersections in resolved models

No keyword makes an intersection by itself: `allOf` overlaps its members, and the other keywords
put models side by side or below one another.  So all intersections that a schema leads to come out
of overlaps, and they are in normal form.
-/

namespace SchemaModel

open Model

section Bounded

variable [Platform]

theorem normal_joinVariants {mark : Mark} {combinator : Combinator} {models : List Model}
    {joint : Model} (hmodels : ∀ model ∈ models, model.Normal)
    (h : joinVariants mark combinator models = .ok joint) : joint.Normal := by
  cases combinator with
  | oneOf =>
      obtain ⟨union, hunion, h⟩ := bind_eq_ok h
      obtain ⟨common, -, h⟩ := bind_eq_ok h
      obtain ⟨words, -, h⟩ := bind_eq_ok h
      cases h
      rw [combine_eq_ok hunion]
      exact normal_wrap (by decide : Combinator.oneOf ≠ .allOf) hmodels mark
  | anyOf =>
      rw [combine_eq_ok h]
      exact normal_wrap (by decide : Combinator.anyOf ≠ .allOf) hmodels mark
  | allOf => exact normal_reduce hmodels h

/-- Overlaps of normal models are normal, so a node passes normality on from its subschemas. -/
theorem normal_composed {part : Value → Model → Prop} {node : Value} {model : Model}
    (hpart : ∀ sub ∈ node.subschemas, ∀ model, part sub model → model.Normal)
    (h : Composed part node model) : model.Normal := by
  cases h with
  | atom plain => cases model <;> cases plain <;> exact normal_of_inner_eq_nil nofun rfl
  | anyArray => exact normal_array (normal_of_inner_eq_nil nofun rfl)
  | array below items_model => exact normal_array (hpart _ below _ items_model)
  | object required additional declared =>
      refine normal_object required additional fun property hproperty => ?_
      obtain ⟨-, sub, hsub, hmodel⟩ := declared property hproperty
      exact hpart sub hsub property.2 hmodel
  | variants decides entries_eq variants_models joined =>
      subst entries_eq
      rw [subschemas_variants decides] at hpart
      refine normal_joinVariants (fun model hmodel => ?_) joined
      obtain ⟨sub, hsub, hmade⟩ := exists_mem_of_forall₂ variants_models.flip model hmodel
      exact hpart sub hsub model hmade

theorem normal_resolveNode {settings : ResolverSettings} (node : Value) :
    ∀ {place : Pointer} {depth : Nat} {model : Model} {issues : List SchemaIssue},
      resolveNode settings node place depth = .ok (model, issues) → model.Normal := by
  induction node using schemaInduction with
  | step node ih =>
      intro place depth model issues h
      refine normal_composed ?_ (composed_of_resolveNode settings h).2
      rintro sub hsub model ⟨place, issues, hmodel⟩
      exact ih sub hsub hmodel

/-- Every intersection in the model of a schema, or in what the exclusive unions in it share, has at
least two branches that are exclusive unions, and no branch that is an intersection, an inclusive
union, a literal, an enumeration or one of the two extremes. -/
theorem intersections_resolve_irreducible {schema : Value} {settings : ResolverSettings}
    {result : ResolutionResult} (h : resolve schema settings = .ok result) {branches : List Model}
    (hshows : Shows result.model (.allOf branches)) :
    2 ≤ branches.length ∧ 2 ≤ branches.countP isOneOf ∧
      ∀ branch ∈ branches, branch.isMember = true := by
  have hnormal := normal_resolveNode schema (resolveNode_of_resolve settings h)
  have hirreducible := (hnormal.of_shows hshows).self branches rfl
  refine ⟨?_, hirreducible.exclusive, hirreducible.members⟩
  exact Nat.le_trans hirreducible.exclusive List.countP_le_length

end Bounded

/-- A choice between two types. -/
def choice (first second : Text) : Value :=
  .mapping .dict [(.str "oneOf", .list
    [.mapping .dict [(.str "type", .str first)], .mapping .dict [(.str "type", .str second)]])]

/-- Two choices that must both be made, or else a third. -/
def crossedChoices : Value :=
  .mapping .dict [(.str "oneOf", .list
    [.mapping .dict [(.str "allOf", .list [choice "string" "null", choice "string" "number"])],
      choice "boolean" "string"])]

attribute [local instance] Platform.standard in
theorem intersections_of_crossedChoices :
    ∃ result branches, resolve crossedChoices = .ok result ∧
      Shows result.model (.allOf branches) ∧ branches.length = 3 ∧
      2 ≤ branches.countP isOneOf ∧ ∀ branch ∈ branches, branch.isMember = true := by
  let union := fun (place : List Text) (first second : Model) =>
    Model.oneOf (.node (place ++ [.plain "oneOf"])) [first, second]
  let left := union ["oneOf", "0", "allOf", "0"] .string .null
  let right := union ["oneOf", "0", "allOf", "1"] .string .number
  let other := union ["oneOf", "1"] .boolean .string
  have hindices : wholeText 0 = "0" ∧ wholeText 1 = "1" := by decide
  have hresolve : resolve crossedChoices = .ok ⟨union [] (.allOf [left, right]) other, []⟩ := by
    simp [crossedChoices, choice, resolve, resolveNode, reportKeywords, isKnownKeyword,
      supportedKeywords, directive, Entries.get?, TypeName.ofName?, Combinator.keyword,
      Pointer.child, Pointer.item, hindices, Resolution.each, Resolution.ofFault, joinVariants,
      exclusiveUnion, shared, describe, reduce, reduceFrom, overlap_eq, same, sameBranches, isSelf,
      rule, follow, clash, members, combine, List.findSome?, stray?, wrap, bind, pure, Except.bind,
      Except.map, union, left, right, other]
  have hshared : (union [] (.allOf [left, right]) other).shared =
      .ok (.allOf [left, right, other]) := by
    simp [shared, reduce, reduceFrom, overlap_eq, same, rule, follow, members, combine,
      List.findSome?, stray?, wrap, bind, Except.bind, union, left, right, other]
  have hshows := Shows.shared (mem_parts_self _) hshared (.part (mem_parts_self _))
  exact ⟨_, _, hresolve, hshows, rfl, (intersections_resolve_irreducible hresolve hshows).2⟩

end SchemaModel
