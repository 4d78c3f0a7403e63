import SchemaModel.Proofs.Model.Rules

/-!
# The height of an overlap

The height of a model is the length of the longest chain of models inside one another.  An overlap
is no higher than its operands on top of each other, and that is as high as it can get: where a
union is spread over another one, each branch of the first ends up with a copy of the second below
it.  A chain of overlaps is bounded by their number times the greatest height, not by that height.
-/

namespace SchemaModel

namespace Model

mutual

/-- The number of models on the longest way from a model down through its parts. -/
def height : Model → Nat
  | .array items => height items + 1
  | .object properties _ _ => heightOfProperties properties + 1
  | .oneOf _ branches => heightOfBranches branches + 1
  | .anyOf branches => heightOfBranches branches + 1
  | .allOf branches => heightOfBranches branches + 1
  | _ => 1

/-- The greatest height among branches. -/
def heightOfBranches : List Model → Nat
  | [] => 0
  | branch :: branches => max (height branch) (heightOfBranches branches)

/-- The greatest height among properties. -/
def heightOfProperties : List (Key × Model) → Nat
  | [] => 0
  | (_, model) :: properties => max (height model) (heightOfProperties properties)

end

theorem heightOfBranches_le {branches : List Model} {n : Nat} :
    heightOfBranches branches ≤ n ↔ ∀ branch ∈ branches, height branch ≤ n := by
  induction branches with
  | nil => simp [heightOfBranches]
  | cons branch branches ih => rw [heightOfBranches, Nat.max_le, ih, List.forall_mem_cons]

theorem heightOfProperties_le {properties : List (Key × Model)} {n : Nat} :
    heightOfProperties properties ≤ n ↔ ∀ entry ∈ properties, height entry.2 ≤ n := by
  induction properties with
  | nil => simp [heightOfProperties]
  | cons entry properties ih => rw [heightOfProperties, Nat.max_le, ih, List.forall_mem_cons]

theorem height_le_of_mem {branches : List Model} {branch : Model} (h : branch ∈ branches) :
    height branch ≤ heightOfBranches branches :=
  heightOfBranches_le.mp (Nat.le_refl _) branch h

theorem height_le_of_mem_ofPairs {properties : List (Key × Model)} {entry : Key × Model}
    (h : entry ∈ Entries.ofPairs properties) :
    height entry.2 ≤ heightOfProperties properties := by
  obtain ⟨key, hmem⟩ := Entries.mem_of_mem_ofPairs h
  exact heightOfProperties_le.mp (Nat.le_refl _) (key, entry.2) hmem

theorem one_le_height (model : Model) : 1 ≤ height model := by
  cases model <;> simp [height]

theorem height_wrap (mark : Mark) (combinator : Combinator) (branches : List Model) :
    height (wrap mark combinator branches) = heightOfBranches branches + 1 := by
  cases combinator <;> simp [wrap, height]

/-! ## The ways of making a model -/

theorem height_combine_le {combinator : Combinator} {branches : List Model} {mark : Mark}
    {model : Model} {n : Nat} (h : combine combinator branches mark = .ok model)
    (hle : ∀ branch ∈ branches, height branch ≤ n) : height model ≤ n + 1 := by
  rw [combine_eq_ok h, height_wrap]
  exact Nat.succ_le_succ (heightOfBranches_le.mpr hle)

/-! ## The rules of overlap -/

section Rules

variable {a b : Model}

/-- Going into the branches of one side lowers the sum of the heights. -/
theorem height_lt_of_rule_spread {combinator : Combinator} {pairs : List (Model × Model)}
    (h : rule a b = .spread combinator pairs) :
    ∀ pair ∈ pairs, height pair.1 + height pair.2 < height a + height b := by
  intro pair hmem
  unfold rule at h
  split at h <;> cases h
  all_goals
    obtain ⟨branch, hbranch, rfl⟩ := List.mem_map.mp hmem
    have hlower := height_le_of_mem hbranch
    simp only [height]
    omega

theorem height_members_le {model member : Model} (h : member ∈ model.members) :
    height member ≤ height model := by
  unfold members at h
  split at h
  · simp only [height]
    exact Nat.le_succ_of_le (height_le_of_mem h)
  · cases List.mem_singleton.mp h
    exact Nat.le_refl _

/-- The members of a joined intersection stay below the sum of both heights. -/
theorem height_lt_of_rule_join {members : List Model} (h : rule a b = .join members) :
    ∀ member ∈ members, height member < height a + height b := by
  have ha := one_le_height a
  have hb := one_le_height b
  rw [eq_of_rule_join h]
  intro member hmem
  rcases List.mem_append.mp hmem with hmem | hmem
  · have hlower := height_members_le hmem
    omega
  · have hlower := height_members_le hmem
    omega

end Rules

/-- An overlap is no higher than its operands together. -/
theorem height_overlap_le [Platform] {a b joint : Model} {mark : Mark}
    (h : overlap a b mark = .ok joint) :
    height joint ≤ height a + height b := by
  refine overlapInduction (motive := fun a b joint => height joint ≤ height a + height b)
    (fun {a b joint} come => ?_) h
  have ha := one_le_height a
  cases come with
  | left => exact Nat.le_add_right _ _
  | right => exact Nat.le_add_left _ _
  | never | literal | enum =>
      simp only [height]
      omega
  | part spread mem met =>
      have hlower := height_lt_of_rule_spread spread _ mem
      omega
  | @union combinator pairs parts mark spread met =>
      have hparts : heightOfBranches parts ≤ height a + height b - 1 := by
        refine heightOfBranches_le.mpr fun part hpart => ?_
        obtain ⟨pair, hmem, hmet⟩ := met part hpart
        have hlower := height_lt_of_rule_spread spread pair hmem
        omega
      rw [height_wrap]
      omega
  | @intersection members joined =>
      have hmembers : heightOfBranches members ≤ height a + height b - 1 :=
        heightOfBranches_le.mpr fun member hmem =>
          Nat.le_sub_one_of_lt (height_lt_of_rule_join joined member hmem)
      simp only [height]
      omega
  | array left right met =>
      subst left right
      simp only [height]
      omega
  | @object as bs properties _ _ _ _ _ _ left right met =>
      subst left right
      have hmerged : heightOfProperties properties ≤
          heightOfProperties as + heightOfProperties bs := by
        refine heightOfProperties_le.mpr fun entry hentry => ?_
        rcases met entry hentry with hown | hother | ⟨own, hown, other, hother, -, hmet⟩
        · exact Nat.le_add_right_of_le (height_le_of_mem_ofPairs hown)
        · exact Nat.le_add_left_of_le (height_le_of_mem_ofPairs hother)
        · have hleft := height_le_of_mem_ofPairs hown
          have hright := height_le_of_mem_ofPairs hother
          omega
      simp only [height]
      omega

/-- Every further model adds its own height at most. -/
theorem height_reduceFrom_le [Platform] {models : List Model} {mark : Mark} {step : Nat}
    {model joint : Model}
    {n : Nat} (h : reduceFrom mark step model models = .ok joint)
    (hle : ∀ other ∈ models, height other ≤ n) :
    height joint ≤ height model + models.length * n := by
  induction models generalizing model step with
  | nil =>
      cases h
      simp
  | cons other models ih =>
      obtain ⟨hother, hmodels⟩ := List.forall_mem_cons.mp hle
      obtain ⟨met, hmet, h⟩ := bind_eq_ok h
      have hfirst := height_overlap_le hmet
      have hrest := ih h hmodels
      rw [List.length_cons, Nat.succ_mul]
      omega

/-- The overlap of several models is no higher than as many models of their greatest height. -/
theorem height_reduce_le [Platform] {models : List Model} {mark : Mark} {joint : Model} {n : Nat}
    (h : reduce models mark = .ok joint) (hle : ∀ model ∈ models, height model ≤ n) :
    height joint ≤ models.length * n := by
  cases models with
  | nil => cases h
  | cons model models =>
      obtain ⟨hmodel, hmodels⟩ := List.forall_mem_cons.mp hle
      have hrest := height_reduceFrom_le h hmodels
      rw [List.length_cons, Nat.succ_mul]
      omega

end Model

end SchemaModel
