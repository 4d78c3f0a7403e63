import SchemaModel.Proofs.Model.Congruence
import SchemaModel.Proofs.Model.CurtailedOverlap
import SchemaModel.Proofs.Model.Equivalence

/-!
# Equal models in the place of one another

Whatever is formed of models by overlap does not change, up to equality, when the models are
replaced by equal ones: the overlap of two, the overlap of several and what the branches of an
exclusive union share.  Nor does it matter at which mark an overlap is formed.
-/

namespace SchemaModel

attribute [local instance] Platform.unlimited

namespace Model

/-- Both ways of making a model give models that are the same, each unless it is refused because not
everything at hand can be written. -/
def SameResult (writable writable' : Prop) (x x' : Except Fault Model) : Prop :=
  ∃ joint joint', Delivers writable x joint ∧ Delivers writable' x' joint' ∧
    joint.same joint' = true

theorem Agree.sameResult {writable writable' : Prop} {x x' free free' : Except Fault Model}
    (h : Agree free free') (hx : Curtailed .refused writable x free)
    (hx' : Curtailed .refused writable' x' free') : SameResult writable writable' x x' := by
  obtain ⟨joint, joint', rfl, rfl, halike⟩ := h
  exact ⟨joint, joint', hx, hx', halike.same⟩

theorem forall₂_alike_of_same {as bs : List Comparable}
    (h : List.Forall₂ (fun a b => a.1.same b.1 = true) as bs) :
    List.Forall₂ Alike (as.map Subtype.val) (bs.map Subtype.val) := by
  rw [List.forall₂_map_left_iff, List.forall₂_map_right_iff]
  exact h.imp fun a b hab => (a.same_iff b).mp hab

theorem agree_shared {a b : Model} (h : Alike a b) {mark : Mark} {branches : List Model}
    (ha : a = .oneOf mark branches) : Agree a.shared b.shared := by
  subst ha
  cases h with
  | oneOf nonempty length parts =>
      exact agree_reduce nonempty (forall₂_iff_getElem?.mpr ⟨length, parts⟩) (.inside _ 0)
        (.inside _ 0)

theorem good_of_mem_models {models : List Comparable} {model : Model}
    (h : model ∈ models.map Subtype.val) : Good model := by
  obtain ⟨comparable, -, rfl⟩ := List.mem_map.mp h
  exact comparable.2.1

end Model

end SchemaModel
