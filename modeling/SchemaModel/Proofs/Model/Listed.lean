import SchemaModel.Proofs.Model.Curtailed
import SchemaModel.Proofs.Model.Rules

/-!
# The values and names in an overlap

Overlap makes up no values and no names: what the literals and the enumerations of an overlap list
and what its objects declare is already in its operands.  A condition on all listed values and one
on all names are therefore kept, by one rule and then by the whole overlap.
-/

namespace SchemaModel

namespace Model

/-- The names of the properties that a model declares at its top. -/
def propertyNames : Model → List Key
  | .object properties _ _ => properties.map Prod.fst
  | _ => []

/-- A model of which every listed value meets one condition and every declared name another, down to
its last part. -/
def Carries (ok : Value → Prop) (named : Key → Prop) (model : Model) : Prop :=
  model.Throughout fun part =>
    (∀ value ∈ part.ownValues, ok value) ∧ ∀ name ∈ part.propertyNames, named name

variable {ok : Value → Prop} {named : Key → Prop}

theorem lists_iff_carries {model : Model} :
    model.Lists ok ↔ model.Carries ok fun _ => True := by
  simp only [Lists, Carries, implies_true, and_true]

theorem Carries.lists {model : Model} (h : model.Carries ok named) : model.Lists ok :=
  fun part hpart => (h part hpart).1

theorem carries_of_own {model : Model} (hvalues : ∀ value ∈ model.ownValues, ok value)
    (hnames : ∀ name ∈ model.propertyNames, named name)
    (hinner : ∀ part ∈ model.inner, part.Carries ok named) : model.Carries ok named :=
  throughout_iff.mpr ⟨⟨hvalues, hnames⟩, hinner⟩

theorem carries_never : never.Carries ok named :=
  carries_of_own nofun nofun nofun

theorem carries_array {items : Model} (h : items.Carries ok named) :
    (array items).Carries ok named :=
  carries_of_own nofun nofun (List.forall_mem_singleton.mpr h)

theorem carries_object {properties : List (Key × Model)}
    (h : ∀ entry ∈ properties, named entry.1 ∧ entry.2.Carries ok named) (required : List Text)
    (additional : Bool) : (object properties required additional).Carries ok named :=
  carries_of_own nofun (List.forall_mem_map.mpr fun entry hmem => (h entry hmem).1)
    (List.forall_mem_map.mpr fun entry hmem => (h entry hmem).2)

theorem carries_wrap {branches : List Model} (h : ∀ branch ∈ branches, branch.Carries ok named)
    (mark : Mark) (combinator : Combinator) :
    (wrap mark combinator branches).Carries ok named := by
  refine carries_of_own ?_ ?_ (by rwa [inner_wrap])
  all_goals cases combinator <;> exact nofun

theorem carries_combine {mark : Mark} {model : Model} {combinator : Combinator}
    {branches : List Model} (h : combine combinator branches mark = .ok model)
    (hbranches : ∀ branch ∈ branches, branch.Carries ok named) : model.Carries ok named := by
  rw [combine_eq_ok h]
  exact carries_wrap hbranches mark combinator

/-! ## The rules of overlap -/

section Rules

variable {a b : Model}

theorem of_rule_select {p : Model → Prop} (ha : p a) (hb : p b) {value : Value}
    {chosen other : Model} (h : rule a b = .select value chosen other) : p chosen ∧ p other := by
  unfold rule at h
  split at h <;> cases h
  · exact ⟨ha, hb⟩
  · exact ⟨hb, ha⟩

theorem of_rule_narrow {p : Model → Prop} (ha : p a) (hb : p b) {values : List Value}
    {other : Model} (h : rule a b = .narrow values other) :
    p other ∧ ∃ mark, p (.enum mark values) := by
  unfold rule at h
  split at h <;> cases h
  · exact ⟨hb, _, ha⟩
  · exact ⟨ha, _, hb⟩

end Rules

theorem Carries.of_mem_ofPairs {properties : List (Key × Model)} {required : List Text}
    {additional : Bool} (h : (object properties required additional).Carries ok named)
    {entry : Key × Model} (hmem : entry ∈ Entries.ofPairs properties) :
    named entry.1 ∧ entry.2.Carries ok named :=
  ⟨Entries.forall_key_ofPairs (fun pair hpair => h.self.2 pair.1 (List.mem_map_of_mem hpair))
    entry hmem, Throughout.of_mem_ofPairs h hmem⟩

/-- An overlap carries what its operands carry. -/
theorem carries_overlap [Platform] {a b joint : Model} {mark : Mark} (ha : a.Carries ok named)
    (hb : b.Carries ok named) (h : overlap a b mark = .ok joint) : joint.Carries ok named := by
  refine overlapInduction (motive := fun a b joint => a.Carries ok named → b.Carries ok named →
    joint.Carries ok named) (fun {a b joint} come ha hb => ?_) h ha hb
  have hlisted : ∀ {own values}, a = .enum own values ∨ b = .enum own values →
      ∀ value ∈ values, ok value := by
    rintro own values (rfl | rfl)
    · exact ha.self.1
    · exact hb.self.1
  have hinner : ∀ model : Model, model.Carries ok named →
      ∀ part ∈ model.inner, part.Carries ok named := fun _ hmodel _ hpart => hmodel.inner hpart
  cases come with
  | left => exact ha
  | right => exact hb
  | never => exact carries_never
  | literal given kept =>
      exact carries_of_own (List.forall_mem_singleton.mpr (hlisted given _ kept)) nofun nofun
  | enum given kept =>
      exact carries_of_own (fun value hmem => hlisted given value (kept value hmem)) nofun nofun
  | part spread mem met =>
      obtain ⟨hfirst, hsecond⟩ := forall_of_rule_spread hinner ha hb spread _ mem
      exact met hfirst hsecond
  | union spread met =>
      refine carries_wrap (fun part hpart => ?_) _ _
      obtain ⟨pair, hmem, hmet⟩ := met part hpart
      obtain ⟨hfirst, hsecond⟩ := forall_of_rule_spread hinner ha hb spread pair hmem
      exact hmet hfirst hsecond
  | intersection joined =>
      exact carries_wrap (forall_of_rule_join hinner ha hb joined) default .allOf
  | array left right met =>
      subst left right
      exact carries_array (met ha.items hb.items)
  | object left right met =>
      subst left right
      refine carries_object (fun entry hentry => ?_) _ _
      rcases met entry hentry with hown | hother | ⟨own, hown, other, hother, hname, hmet⟩
      · exact ha.of_mem_ofPairs hown
      · exact hb.of_mem_ofPairs hother
      · obtain ⟨hnamed, hleft⟩ := ha.of_mem_ofPairs hown
        exact ⟨hname ▸ hnamed, hmet hleft (hb.of_mem_ofPairs hother).2⟩

theorem carries_reduceFrom [Platform] {models : List Model} {mark : Mark} {step : Nat}
    {model joint : Model} (hmodel : model.Carries ok named)
    (hmodels : ∀ other ∈ models, other.Carries ok named)
    (h : reduceFrom mark step model models = .ok joint) : joint.Carries ok named := by
  induction models generalizing model step with
  | nil =>
      cases h
      exact hmodel
  | cons other models ih =>
      obtain ⟨hother, hrest⟩ := List.forall_mem_cons.mp hmodels
      obtain ⟨met, hmet, h⟩ := bind_eq_ok h
      exact ih (carries_overlap hmodel hother hmet) hrest h

theorem carries_reduce [Platform] {models : List Model} {mark : Mark} {joint : Model}
    (hmodels : ∀ model ∈ models, model.Carries ok named) (h : reduce models mark = .ok joint) :
    joint.Carries ok named := by
  cases models with
  | nil => cases h
  | cons model models =>
      obtain ⟨hmodel, hrest⟩ := List.forall_mem_cons.mp hmodels
      exact carries_reduceFrom hmodel hrest h

/-! ## Values alone -/

section Values

theorem lists_wrap {branches : List Model} (h : ∀ branch ∈ branches, branch.Lists ok) (mark : Mark)
    (combinator : Combinator) : (wrap mark combinator branches).Lists ok :=
  lists_iff_carries.mpr
    (carries_wrap (fun branch hmem => lists_iff_carries.mp (h branch hmem)) mark combinator)

variable [Platform] {mark : Mark} {joint : Model}

theorem lists_overlap {a b : Model} (ha : a.Lists ok) (hb : b.Lists ok)
    (h : overlap a b mark = .ok joint) : joint.Lists ok :=
  lists_iff_carries.mpr (carries_overlap (lists_iff_carries.mp ha) (lists_iff_carries.mp hb) h)

theorem lists_reduce {models : List Model} (hmodels : ∀ model ∈ models, model.Lists ok)
    (h : reduce models mark = .ok joint) : joint.Lists ok :=
  lists_iff_carries.mpr
    (carries_reduce (fun model hmem => lists_iff_carries.mp (hmodels model hmem)) h)

end Values

end Model

end SchemaModel
