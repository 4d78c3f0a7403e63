import SchemaModel.Model.Rules

/-!
# Nesting and layers of an overlap

The nesting of a model counts the arrays and objects inside one another, its layers the exclusive
unions stacked at one place.  Neither grows under `Model.overlap`: distribution keeps a union at
its place, and two exclusive unions at one place are joined side by side.  Hence the overlap
shared by the branches of an exclusive union has fewer layers than the union itself.
-/

namespace SchemaModel

theorem max_mono_right {a b c : Nat} (h : b ≤ c) : max a b ≤ max a c := by
  omega

theorem max_mono_left {a b c : Nat} (h : a ≤ c) : max a b ≤ max c b := by
  omega

/-- An exclusive union is a layer itself. -/
def Combinator.ownLayers : Combinator → Nat
  | .oneOf => 1
  | .anyOf | .allOf => 0

namespace Model

mutual

/-- The number of arrays and objects inside one another. -/
def nesting : Model → Nat
  | .array items => nesting items + 1
  | .object properties _ _ => nestingOfProperties properties + 1
  | .oneOf _ branches => nestingOfBranches branches
  | .anyOf branches => nestingOfBranches branches
  | .allOf branches => nestingOfBranches branches
  | _ => 0

def nestingOfBranches : List Model → Nat
  | [] => 0
  | branch :: branches => max (nesting branch) (nestingOfBranches branches)

def nestingOfProperties : List (Key × Model) → Nat
  | [] => 0
  | (_, model) :: properties => max (nesting model) (nestingOfProperties properties)

end

mutual

/-- The number of exclusive unions stacked at the place of a model. -/
def layers : Model → Nat
  | .oneOf _ branches => layersOfBranches branches + 1
  | .anyOf branches => layersOfBranches branches
  | .allOf branches => layersOfBranches branches
  | _ => 0

def layersOfBranches : List Model → Nat
  | [] => 0
  | branch :: branches => max (layers branch) (layersOfBranches branches)

end

theorem nestingOfBranches_le {branches : List Model} {n : Nat} :
    nestingOfBranches branches ≤ n ↔ ∀ branch ∈ branches, nesting branch ≤ n := by
  induction branches with
  | nil => simp [nestingOfBranches]
  | cons branch branches ih => rw [nestingOfBranches, Nat.max_le, ih, List.forall_mem_cons]

theorem nestingOfProperties_le {properties : List (Key × Model)} {n : Nat} :
    nestingOfProperties properties ≤ n ↔ ∀ entry ∈ properties, nesting entry.2 ≤ n := by
  induction properties with
  | nil => simp [nestingOfProperties]
  | cons entry properties ih => rw [nestingOfProperties, Nat.max_le, ih, List.forall_mem_cons]

theorem layersOfBranches_le {branches : List Model} {n : Nat} :
    layersOfBranches branches ≤ n ↔ ∀ branch ∈ branches, layers branch ≤ n := by
  induction branches with
  | nil => simp [layersOfBranches]
  | cons branch branches ih => rw [layersOfBranches, Nat.max_le, ih, List.forall_mem_cons]

/-- A model that stays within bounds on nesting and layers. -/
structure Within (n l : Nat) (model : Model) : Prop where
  nesting_le : nesting model ≤ n
  layers_le : layers model ≤ l

theorem Within.mono {n n' l l' : Nat} {model : Model} (h : Within n l model) (hn : n ≤ n')
    (hl : l ≤ l') : Within n' l' model :=
  ⟨Nat.le_trans h.nesting_le hn, Nat.le_trans h.layers_le hl⟩

theorem within_self (model : Model) : Within (nesting model) (layers model) model :=
  ⟨Nat.le_refl _, Nat.le_refl _⟩

theorem within_branch {branches : List Model} {branch : Model} (h : branch ∈ branches) :
    Within (nestingOfBranches branches) (layersOfBranches branches) branch :=
  ⟨nestingOfBranches_le.1 (Nat.le_refl _) branch h, layersOfBranches_le.1 (Nat.le_refl _) branch h⟩

theorem within_wrap (mark : Mark) (combinator : Combinator) {branches : List Model} {n l : Nat}
    (h : ∀ branch ∈ branches, Within n l branch) :
    Within n (l + combinator.ownLayers) (wrap mark combinator branches) := by
  have nests := nestingOfBranches_le.2 fun branch m => (h branch m).nesting_le
  have layered := layersOfBranches_le.2 fun branch m => (h branch m).layers_le
  cases combinator with
  | oneOf => exact ⟨nests, Nat.succ_le_succ layered⟩
  | anyOf | allOf => exact ⟨nests, layered⟩

theorem nesting_le_of_mem_ofPairs {properties : List (Key × Model)} {entry : Key × Model}
    (h : entry ∈ Entries.ofPairs properties) :
    nesting entry.2 ≤ nestingOfProperties properties := by
  obtain ⟨key, member⟩ := Entries.mem_of_mem_ofPairs h
  exact nestingOfProperties_le.1 (Nat.le_refl _) (key, entry.2) member

theorem members_within {model : Model} {n l : Nat} (h : Within n l model) :
    ∀ branch ∈ members model, Within n l branch := by
  intro branch member
  match model, h, member with
  | .allOf branches, h, member =>
    exact ⟨nestingOfBranches_le.1 h.nesting_le _ member, layersOfBranches_le.1 h.layers_le _ member⟩
  | .unknown, h, member | .never, h, member | .null, h, member | .boolean, h, member
  | .number, h, member | .string, h, member | .literal .., h, member | .enum .., h, member
  | .array _, h, member | .object .., h, member | .oneOf .., h, member | .anyOf _, h, member
  | .stray _, h, member =>
    cases List.mem_singleton.1 member
    exact h

/-- Going into the branches of an exclusive union leaves its layer behind. -/
theorem bounds_of_rule_spread {a b : Model} {combinator : Combinator}
    {pairs : List (Model × Model)} (h : rule a b = .spread combinator pairs) :
    ∃ l, l + combinator.ownLayers ≤ max (layers a) (layers b) ∧ ∀ pair ∈ pairs,
      max (nesting pair.1) (nesting pair.2) ≤ max (nesting a) (nesting b) ∧
        max (layers pair.1) (layers pair.2) ≤ l := by
  unfold rule at h
  split at h <;> cases h
  · next branches _ _ _ _ =>
    refine ⟨max (layersOfBranches branches) (layers b), Nat.le_refl _, fun pair member => ?_⟩
    obtain ⟨branch, inside, rfl⟩ := List.mem_map.1 member
    have bound := within_branch inside
    exact ⟨max_mono_left bound.nesting_le, max_mono_left bound.layers_le⟩
  · next branches _ _ _ _ _ =>
    refine ⟨max (layers a) (layersOfBranches branches), Nat.le_refl _, fun pair member => ?_⟩
    obtain ⟨branch, inside, rfl⟩ := List.mem_map.1 member
    have bound := within_branch inside
    exact ⟨max_mono_right bound.nesting_le, max_mono_right bound.layers_le⟩
  -- Every form with layers is taken before an exclusive union is, two of these apart.
  · next branches _ _ _ _ _ _ _ =>
    have flat : layers b = 0 := by
      cases b <;> simp_all [layers]
    refine ⟨layersOfBranches branches, Nat.le_max_left .., fun pair member => ?_⟩
    obtain ⟨branch, inside, rfl⟩ := List.mem_map.1 member
    have bound := within_branch inside
    exact ⟨max_mono_left bound.nesting_le,
      Nat.max_le.2 ⟨bound.layers_le, Nat.le_trans (Nat.le_of_eq flat) (Nat.zero_le _)⟩⟩
  · next branches _ _ _ _ _ _ _ =>
    have flat : layers a = 0 := by
      cases a <;> simp_all [layers]
    refine ⟨layersOfBranches branches, Nat.le_max_right .., fun pair member => ?_⟩
    obtain ⟨branch, inside, rfl⟩ := List.mem_map.1 member
    have bound := within_branch inside
    exact ⟨max_mono_right bound.nesting_le,
      Nat.max_le.2 ⟨Nat.le_trans (Nat.le_of_eq flat) (Nat.zero_le _), bound.layers_le⟩⟩

theorem within_members_append (a b : Model) :
    ∀ member ∈ a.members ++ b.members,
      Within (max (nesting a) (nesting b)) (max (layers a) (layers b)) member := by
  intro member inside
  rcases List.mem_append.1 inside with inside | inside
  · exact (members_within (within_self a) member inside).mono (Nat.le_max_left ..)
      (Nat.le_max_left ..)
  · exact (members_within (within_self b) member inside).mono (Nat.le_max_right ..)
      (Nat.le_max_right ..)

theorem within_overlap [Platform] {a b model : Model} {mark : Mark}
    (h : overlap a b mark = .ok model) :
    Within (max (nesting a) (nesting b)) (max (layers a) (layers b)) model := by
  refine overlapInduction (motive := fun a b model =>
    Within (max (nesting a) (nesting b)) (max (layers a) (layers b)) model)
    (fun {a b model} come => ?_) h
  cases come with
  | left => exact (within_self a).mono (Nat.le_max_left ..) (Nat.le_max_left ..)
  | right => exact (within_self b).mono (Nat.le_max_right ..) (Nat.le_max_right ..)
  | never | literal | enum => exact ⟨Nat.zero_le _, Nat.zero_le _⟩
  | part spread mem met =>
    obtain ⟨l, layered, bounds⟩ := bounds_of_rule_spread spread
    obtain ⟨nests, fits⟩ := bounds _ mem
    exact met.mono nests (by omega)
  | union spread met =>
    obtain ⟨l, layered, bounds⟩ := bounds_of_rule_spread spread
    refine (within_wrap _ _ fun part inside => ?_).mono (Nat.le_refl _) layered
    obtain ⟨pair, mem, within⟩ := met part inside
    exact within.mono (bounds pair mem).1 (bounds pair mem).2
  | intersection joined =>
    rw [eq_of_rule_join joined]
    exact within_wrap default .allOf (within_members_append a b)
  | array left right met =>
    subst left right
    exact ⟨Nat.le_trans (Nat.succ_le_succ met.nesting_le) (by simp only [nesting]; omega),
      Nat.zero_le _⟩
  | @object as bs properties _ _ _ _ _ _ left right met =>
    subst left right
    have merged : nestingOfProperties properties ≤
        max (nestingOfProperties as) (nestingOfProperties bs) := by
      refine nestingOfProperties_le.2 fun entry inside => ?_
      rcases met entry inside with own | other | ⟨own, left, other, right, name, bound⟩
      · exact Nat.le_trans (nesting_le_of_mem_ofPairs own) (Nat.le_max_left ..)
      · exact Nat.le_trans (nesting_le_of_mem_ofPairs other) (Nat.le_max_right ..)
      · have hown := nesting_le_of_mem_ofPairs left
        have hother := nesting_le_of_mem_ofPairs right
        have hmet := bound.nesting_le
        omega
    exact ⟨by simp only [nesting]; omega, Nat.zero_le _⟩

theorem within_reduceFrom [Platform] {models : List Model} {mark : Mark} {step : Nat}
    {start model : Model} {n l : Nat} (h : reduceFrom mark step start models = .ok model)
    (first : Within n l start)
    (rest : ∀ other ∈ models, Within n l other) : Within n l model := by
  induction models generalizing start step with
  | nil =>
    cases h
    exact first
  | cons other models ih =>
    obtain ⟨joint, joined, h⟩ := bind_eq_ok h
    have second := rest other (by simp)
    refine ih h ((within_overlap joined).mono ?_ ?_) fun m inside =>
      rest m (List.mem_cons_of_mem _ inside)
    · exact Nat.max_le.2 ⟨first.nesting_le, second.nesting_le⟩
    · exact Nat.max_le.2 ⟨first.layers_le, second.layers_le⟩

/-- The shared overlap of branches nests no deeper and has no more layers than they have. -/
theorem within_reduce [Platform] {branches : List Model} {mark : Mark} {model : Model}
    (h : reduce branches mark = .ok model) :
    Within (nestingOfBranches branches) (layersOfBranches branches) model := by
  cases branches with
  | nil => cases h
  | cons first rest =>
    exact within_reduceFrom h (within_branch (by simp)) fun other inside =>
      within_branch (List.mem_cons_of_mem _ inside)

end Model

end SchemaModel
