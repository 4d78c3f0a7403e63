import SchemaModel.Proofs.Model.Parts
import SchemaModel.Proofs.Model.Rules

/-!
# Intersections in normal form

Overlap makes an intersection only where two exclusive unions meet, and adds to it only what its
earlier rules leave: unions are distributed, values tested, the two extremes dropped and other
intersections flattened before.  So if the intersections in two models hold at least two exclusive
unions and nothing that an earlier rule would take, this is so in their overlap as well, and in
whatever an exclusive union shares.
-/

namespace SchemaModel

namespace Model

/-- Whether a model may stand in an intersection. -/
def isMember : Model → Bool
  | .unknown | .never | .literal .. | .enum .. | .anyOf _ | .allOf _ => false
  | _ => true

def isOneOf : Model → Bool
  | .oneOf .. => true
  | _ => false

/-- Branches that no rule of overlap brings closer together. -/
structure Irreducible (branches : List Model) : Prop where
  members : ∀ branch ∈ branches, branch.isMember = true
  exclusive : 2 ≤ branches.countP isOneOf

/-- A model that is an intersection of irreducible branches, if it is one at all. -/
def IsNormal (model : Model) : Prop :=
  ∀ branches, model = .allOf branches → Irreducible branches

/-- A model whose intersections are all in normal form. -/
abbrev Normal (model : Model) : Prop :=
  model.Throughout IsNormal

theorem normal_of_inner {model : Model} (hform : ∀ branches, model ≠ .allOf branches)
    (h : ∀ part ∈ model.inner, part.Normal) : model.Normal :=
  throughout_iff.mpr ⟨fun branches heq => absurd heq (hform branches), h⟩

theorem normal_of_inner_eq_nil {model : Model} (hform : ∀ branches, model ≠ .allOf branches)
    (h : model.inner = []) : model.Normal :=
  normal_of_inner hform (h ▸ List.forall_mem_nil _)

theorem normal_never : Normal .never :=
  normal_of_inner_eq_nil nofun rfl

theorem normal_array {items : Model} (h : items.Normal) : (array items).Normal :=
  normal_of_inner nofun (List.forall_mem_singleton.mpr h)

theorem normal_object {properties : List (Key × Model)} (required : List Text)
    (additional : Bool) (h : ∀ entry ∈ properties, entry.2.Normal) :
    (object properties required additional).Normal :=
  normal_of_inner nofun (List.forall_mem_map.mpr h)

theorem normal_wrap {branches : List Model} {combinator : Combinator} (hunion : combinator ≠ .allOf)
    (h : ∀ branch ∈ branches, branch.Normal) (mark : Mark) :
    (wrap mark combinator branches).Normal := by
  cases combinator with
  | oneOf => exact normal_of_inner nofun h
  | anyOf => exact normal_of_inner nofun h
  | allOf => exact absurd rfl hunion

theorem normal_allOf {branches : List Model} (hirreducible : Irreducible branches)
    (h : ∀ branch ∈ branches, branch.Normal) : (allOf branches).Normal := by
  refine throughout_iff.mpr ⟨fun others heq => ?_, h⟩
  cases heq
  exact hirreducible

/-! ## The rules of overlap -/

section Rules

variable {a b : Model}

theorem ne_allOf_of_rule_spread {combinator : Combinator} {pairs : List (Model × Model)}
    (h : rule a b = .spread combinator pairs) : combinator ≠ .allOf := by
  unfold rule at h
  split at h <;> cases h <;> decide

/-- Where models are joined, one of them is an intersection or both are exclusive unions, and
neither has a form that an earlier rule takes. -/
theorem joined_of_rule_join {members : List Model} (h : rule a b = .join members) :
    members = a.members ++ b.members ∧
      (a.isMember = true ∨ ∃ branches, a = .allOf branches) ∧
      (b.isMember = true ∨ ∃ branches, b = .allOf branches) ∧
      ((∃ branches, a = .allOf branches) ∨ (∃ branches, b = .allOf branches) ∨
        a.isOneOf = true ∧ b.isOneOf = true) := by
  unfold rule at h
  split at h <;> cases h
  · refine ⟨rfl, .inr ⟨_, rfl⟩, ?_, .inl ⟨_, rfl⟩⟩
    cases b <;> simp_all [isMember]
  · refine ⟨rfl, ?_, .inr ⟨_, rfl⟩, .inr (.inl ⟨_, rfl⟩)⟩
    cases a <;> simp_all [isMember]
  · exact ⟨rfl, .inl rfl, .inl rfl, .inr (.inr ⟨rfl, rfl⟩)⟩

/-- Members of an intersection in normal form are no intersections themselves. -/
theorem isMember_of_mem_members {model member : Model} (h : model.Normal)
    (hform : model.isMember = true ∨ ∃ branches, model = .allOf branches)
    (hmem : member ∈ model.members) : member.isMember = true := by
  rcases hform with hmember | ⟨branches, rfl⟩
  · cases model with
    | allOf => cases hmember
    | _ => exact List.mem_singleton.mp hmem ▸ hmember
  · exact (h.self branches rfl).members member hmem

/-- Two exclusive unions meet, or one side is an intersection that holds two already. -/
theorem irreducible_of_rule_join {members : List Model} (ha : a.Normal) (hb : b.Normal)
    (h : rule a b = .join members) : Irreducible members := by
  obtain ⟨rfl, hleft, hright, hunions⟩ := joined_of_rule_join h
  constructor
  · intro member hmem
    rcases List.mem_append.mp hmem with hmem | hmem
    · exact isMember_of_mem_members ha hleft hmem
    · exact isMember_of_mem_members hb hright hmem
  · -- An intersection brings two exclusive unions along; without one, the two sides are such.
    rw [List.countP_append]
    rcases hunions with ⟨branches, rfl⟩ | ⟨branches, rfl⟩ | ⟨hone, hother⟩
    · exact Nat.le_add_right_of_le (ha.self branches rfl).exclusive
    · exact Nat.le_add_left_of_le (hb.self branches rfl).exclusive
    · cases a <;> cases hone
      cases b <;> cases hother
      exact Nat.le_refl 2

end Rules

/-- The overlap of models whose intersections are in normal form is such a model. -/
theorem normal_overlap [Platform] {a b joint : Model} {mark : Mark} (ha : a.Normal) (hb : b.Normal)
    (h : overlap a b mark = .ok joint) : joint.Normal := by
  refine overlapInduction (motive := fun a b joint => a.Normal → b.Normal → joint.Normal)
    (fun {a b joint} come ha hb => ?_) h ha hb
  have hinner : ∀ model : Model, model.Normal → ∀ part ∈ model.inner, part.Normal :=
    fun _ hmodel _ hpart => hmodel.inner hpart
  cases come with
  | left => exact ha
  | right => exact hb
  | never => exact normal_never
  | literal | enum => exact normal_of_inner_eq_nil nofun rfl
  | part spread mem met =>
      obtain ⟨hfirst, hsecond⟩ := forall_of_rule_spread hinner ha hb spread _ mem
      exact met hfirst hsecond
  | union spread met =>
      refine normal_wrap (ne_allOf_of_rule_spread spread) (fun part hpart => ?_) _
      obtain ⟨pair, hmem, hmet⟩ := met part hpart
      obtain ⟨hfirst, hsecond⟩ := forall_of_rule_spread hinner ha hb spread pair hmem
      exact hmet hfirst hsecond
  | intersection joined =>
      exact normal_allOf (irreducible_of_rule_join ha hb joined)
        (forall_of_rule_join hinner ha hb joined)
  | array left right met =>
      subst left right
      exact normal_array (met ha.items hb.items)
  | object left right met =>
      subst left right
      refine normal_object _ _ fun entry hentry => ?_
      rcases met entry hentry with hown | hother | ⟨own, hown, other, hother, -, hmet⟩
      · exact ha.of_mem_ofPairs hown
      · exact hb.of_mem_ofPairs hother
      · exact hmet (ha.of_mem_ofPairs hown) (hb.of_mem_ofPairs hother)

theorem normal_reduceFrom [Platform] {models : List Model} {mark : Mark} {step : Nat}
    {model joint : Model}
    (hmodel : model.Normal) (hmodels : ∀ other ∈ models, other.Normal)
    (h : reduceFrom mark step model models = .ok joint) : joint.Normal := by
  induction models generalizing model step with
  | nil =>
      cases h
      exact hmodel
  | cons other models ih =>
      obtain ⟨hother, hrest⟩ := List.forall_mem_cons.mp hmodels
      obtain ⟨met, hmet, h⟩ := bind_eq_ok h
      exact ih (normal_overlap hmodel hother hmet) hrest h

theorem normal_reduce [Platform] {models : List Model} {mark : Mark} {joint : Model}
    (hmodels : ∀ model ∈ models, model.Normal) (h : reduce models mark = .ok joint) :
    joint.Normal := by
  cases models with
  | nil => cases h
  | cons model models =>
      obtain ⟨hmodel, hrest⟩ := List.forall_mem_cons.mp hmodels
      exact normal_reduceFrom hmodel hrest h

/-! ## What exclusive unions share -/

/-- The models that are met in writing a model out: its parts, and what is met in the overlap that
an exclusive union among its parts shares. -/
inductive Shows [Platform] : Model → Model → Prop
  | part {model part : Model} (h : part ∈ model.parts) : Shows model part
  | shared {model union common part : Model} (h : union ∈ model.parts)
      (overlaps : union.shared = .ok common) (shows_part : Shows common part) : Shows model part

theorem normal_shared [Platform] {union common : Model} (h : union.Normal)
    (hcommon : union.shared = .ok common) : common.Normal := by
  unfold shared at hcommon
  split at hcommon
  · exact normal_reduce (fun branch hmem => h.inner hmem) hcommon
  · cases hcommon

theorem Normal.of_shows [Platform] {model part : Model} (h : model.Normal)
    (hshows : Shows model part) : part.Normal := by
  induction hshows with
  | part hpart => exact h.part hpart
  | shared hunion hcommon _ ih => exact ih (normal_shared (h.part hunion) hcommon)

end Model

end SchemaModel
