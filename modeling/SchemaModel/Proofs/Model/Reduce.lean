import SchemaModel.Proofs.Model.Overlap

/-!
# Overlaps of several models

The overlap of a list of models is formed from left to right.  Each step is an overlap of two good
models, so the whole is a good model of the values that every member permits, and the order of the
members does not matter to it.  An exclusive union of good models can always be formed, since the
overlap of its branches can.
-/

namespace SchemaModel

attribute [local instance] Platform.unlimited

namespace Model

/-- Overlaps taken from left to right permit what all of the models permit. -/
theorem yields_reduceFrom {model : Model} {models : List Model} (h : Good model)
    (hall : ∀ other ∈ models, Good other) (mark : Mark) (step : Nat) :
    Yields (reduceFrom mark step model models) fun v =>
      (model :: models).all (·.permits v) := by
  induction models generalizing model step with
  | nil =>
      refine h.yields.congr fun v _ => ?_
      rw [List.all_cons, List.all_nil, Bool.and_true]
  | cons other models ih =>
      obtain ⟨hother, hrest⟩ := List.forall_mem_cons.mp hall
      obtain ⟨joint, hjoint, hgood, hexact⟩ := yields_overlap h hother (partMark mark step)
      rw [reduceFrom, hjoint]
      refine (ih hgood hrest (step + 1)).congr fun v hv => ?_
      rw [List.all_cons, List.all_cons, List.all_cons, hexact v hv, Bool.and_assoc]

theorem yields_reduce {models : List Model} (hne : models ≠ [])
    (hall : ∀ model ∈ models, Good model) (mark : Mark) :
    Yields (reduce models mark) fun v => models.all (·.permits v) := by
  cases models with
  | nil => exact absurd rfl hne
  | cons model models =>
      obtain ⟨hmodel, hrest⟩ := List.forall_mem_cons.mp hall
      exact yields_reduceFrom hmodel hrest mark 0

/-- Good branches have an overlap that can be put into words, so the union is made. -/
theorem yields_exclusiveUnion {branches : List Model} (hne : branches ≠ [])
    (hall : ∀ branch ∈ branches, Good branch) (mark : Mark) :
    Yields (exclusiveUnion branches mark) fun v =>
      Combinator.holds .oneOf (branches.map (·.permits v)) := by
  obtain ⟨union, hunion, hgood, hexact⟩ := yields_combine hne hall .oneOf mark
  obtain ⟨joint, hjoint, hgood', -⟩ := yields_reduce hne hall (.inside mark 0)
  obtain rfl := combine_eq_ok hunion
  refine ⟨_, ?_, hgood, hexact⟩
  rw [exclusiveUnion, hunion]
  simp only [bind, Except.bind]
  rw [wrap, shared, hjoint]
  simp only [hgood'.describe_eq]

end Model

end SchemaModel
