import SchemaModel.Proofs.Model.Overlap

/-!
# Overlap part by part

What a rule of overlap meets and joins are its operands or parts of them, so a condition that
passes from a model to its parts passes to all of it.  Two objects meet name by name: declarations
of one name meet, and a name that one side declares alone stays if the other side is open to it.
-/

namespace SchemaModel

namespace Model

/-! ## The parts of a rule -/

section Rules

variable {a b : Model} {p : Model → Prop}

/-- What holds of both operands and of the parts of what it holds of, holds of all that a rule
meets. -/
theorem forall_of_rule_spread (hinner : ∀ m, p m → ∀ part ∈ m.inner, p part)
    (ha : p a) (hb : p b) {combinator : Combinator} {pairs : List (Model × Model)}
    (h : rule a b = .spread combinator pairs) : ∀ pair ∈ pairs, p pair.1 ∧ p pair.2 := by
  unfold rule at h
  split at h <;> cases h
  · exact List.forall_mem_map.mpr fun branch hmem => ⟨hinner _ ha branch hmem, hb⟩
  · exact List.forall_mem_map.mpr fun branch hmem => ⟨ha, hinner _ hb branch hmem⟩
  · exact List.forall_mem_map.mpr fun branch hmem => ⟨hinner _ ha branch hmem, hb⟩
  · exact List.forall_mem_map.mpr fun branch hmem => ⟨ha, hinner _ hb branch hmem⟩

theorem forall_mem_members (hinner : ∀ m, p m → ∀ part ∈ m.inner, p part) {model : Model}
    (h : p model) : ∀ member ∈ model.members, p member := by
  cases model with
  | allOf branches => exact hinner _ h
  | _ => exact List.forall_mem_singleton.mpr h

theorem forall_of_rule_join (hinner : ∀ m, p m → ∀ part ∈ m.inner, p part) (ha : p a) (hb : p b)
    {members : List Model} (h : rule a b = .join members) : ∀ member ∈ members, p member := by
  rw [eq_of_rule_join h, List.forall_mem_append]
  exact ⟨forall_mem_members hinner ha, forall_mem_members hinner hb⟩

end Rules

/-! ## Objects name by name -/

/-- Whether a settled property refuses every item though its name is required. -/
def blocks (required : List Text) (part : Key × Option Model) : Bool :=
  required.any (fun name => part.1.same (.str name)) && part.2.all isNever

/-- The settled properties that are not left out. -/
def keptParts (parts : List (Key × Option Model)) : List (Key × Model) :=
  parts.filterMap fun part => part.2.map (part.1, ·)

/-- The object of settled properties, or nothing when one of them blocks it. -/
def mergeParts (required : List Text) (additional : Bool) (parts : List (Key × Option Model)) :
    Model :=
  if parts.any (blocks required) then .never else .object (keptParts parts) required additional

/-- With all parts at hand, the early end of the collection is no different from a test of each
part. -/
theorem collectProperties_eq {α : Type} {required : List Text}
    {part : α → Except Fault (Key × Option Model)} {xs : List α}
    {parts : List (Key × Option Model)}
    (h : List.Forall₂ (fun x found => part x = .ok found) xs parts) :
    collectProperties required part xs =
      .ok (if parts.any (blocks required) then none else some (keptParts parts)) := by
  induction h with
  | nil => rfl
  | @cons x found xs parts hpart _ ih =>
      obtain ⟨name, settled⟩ := found
      rw [collectProperties, hpart, List.any_cons]
      simp only [bind, Except.bind, ih]
      cases settled with
      | none =>
          by_cases hneeded : required.any (fun other => name.same (.str other)) = true
          · simp [blocks, hneeded]
          · simp only [blocks, hneeded, Option.all_none, Bool.and_true, Bool.false_eq_true,
              if_false, Bool.false_or]
            rfl
      | some model =>
          by_cases hblock : (required.any (fun other => name.same (.str other)) &&
              model.isNever) = true
          · simp [blocks, hblock]
          · simp only [blocks, hblock, Option.all_some, Bool.false_eq_true, if_false,
              Bool.false_or]
            split <;> rfl

/-- How a name is settled, given its declarations on both sides: declarations meet, and one alone
stays if the other side is open to it. -/
inductive Merged [Platform] (x y : Bool) :
    Option Model → Option Model → Option (Option Model) → Prop
  | both {a b joint : Model} (mark : Mark) (h : overlap a b mark = .ok joint) :
      Merged x y (some a) (some b) (some (some joint))
  | left (a : Model) : Merged x y (some a) none (some (if y then some a else none))
  | right (b : Model) : Merged x y none (some b) (some (if x then some b else none))
  | neither : Merged x y none none none

section Objects

variable {as bs : List (Key × Model)} {r s : List Text} {x y : Bool}

/-- The settled properties that only the right side declares. -/
def rightParts (as : List (Key × Model)) (x : Bool) (bs : List (Key × Model)) :
    List (Key × Option Model) :=
  (rightOnly as bs).map fun entry => (entry.1, if x then some entry.2 else none)

/-- A merged object that was made is made of the parts of both sides. -/
theorem eq_mergeParts_of_follow [Platform] {meet : Meet} {mark : Mark}
    {parts : List (Key × Option Model)}
    (hparts : List.Forall₂ (fun entry part =>
      meetProperty meet mark (Entries.ofPairs bs) y entry = .ok part)
      (Entries.ofPairs as).zipIdx parts)
    {joint : Model} (h : follow meet mark (.objects as r x bs s y) = .ok joint) :
    joint = mergeParts (joinNames r s) (x && y) (parts ++ rightParts as x bs) := by
  have hright : List.Forall₂ (fun entry part =>
      (.ok (entry.1, if x then some entry.2 else none) : Except Fault _) = .ok part)
      (rightOnly as bs) (rightParts as x bs) := by
    rw [rightParts, List.forall₂_map_right_iff]
    exact List.forall₂_same.mpr fun entry _ => rfl
  rw [follow, collectProperties_eq hparts] at h
  simp only [collectProperties_eq hright, bind, Except.bind] at h
  rw [mergeParts, List.any_append]
  by_cases hleft : parts.any (blocks (joinNames r s)) = true
  · simp only [hleft, if_true] at h
    simp [hleft, (Except.ok.inj h).symm]
  · by_cases hother : (rightParts as x bs).any (blocks (joinNames r s)) = true
    · simp only [hleft, hother, if_true, Bool.false_eq_true, if_false] at h
      simp [hother, (Except.ok.inj h).symm]
    · simp only [hleft, hother, Bool.false_eq_true, if_false] at h
      simp [hleft, hother, eq_of_ofObject h, keptParts]

attribute [local instance] Platform.unlimited

/-- Between good objects every declaration of the left one meets its counterpart. -/
theorem exists_leftParts (ha : Good (.object as r x)) (hb : Good (.object bs s y)) (mark : Mark) :
    ∃ parts : List (Key × Option Model),
      List.Forall₂ (fun entry part => meetProperty (fun a b mark => overlap a b mark) mark
        (Entries.ofPairs bs) y entry = .ok part) (Entries.ofPairs as).zipIdx parts ∧
      List.Forall₂ (fun entry part => entry.1 = part.1 ∧
        Merged x y (some entry.2) (Entries.findLast? bs entry.1) (some part.2))
        (Entries.ofPairs as) parts := by
  have hparts : ∀ entry ∈ (Entries.ofPairs as).zipIdx, ∃ part : Key × Option Model,
      meetProperty (fun a b mark => overlap a b mark) mark (Entries.ofPairs bs) y entry = .ok part ∧
      entry.1.1 = part.1 ∧
      Merged x y (some entry.1.2) (Entries.findLast? bs entry.1.1) (some part.2) := by
    rintro ⟨⟨key, a⟩, index⟩ hmem
    have hgood : Good a := ha.of_mem_ofPairs (List.fst_mem_of_mem_zipIdx hmem)
    simp only [meetProperty, Entries.find?_ofPairs]
    cases hfound : Entries.findLast? bs key with
    | none => exact ⟨_, rfl, rfl, .left a⟩
    | some b =>
        obtain ⟨other, hmem'⟩ := Entries.mem_of_findLast? hfound
        have hgood' : Good b := by
          cases hb with
          | object good declared => exact good _ hmem'
        obtain ⟨joint, hjoint, -⟩ := yields_overlap hgood hgood' (partMark mark index)
        exact ⟨(key, some joint), by simp only [hjoint]; rfl, rfl, .both _ hjoint⟩
  obtain ⟨parts, hall⟩ := exists_forall₂ hparts
  refine ⟨parts, hall.imp fun entry part h => h.1, ?_⟩
  have hmap : List.Forall₂ (fun entry part => entry.1 = part.1 ∧
      Merged x y (some entry.2) (Entries.findLast? bs entry.1) (some part.2))
      ((Entries.ofPairs as).zipIdx.map Prod.fst) parts :=
    List.forall₂_map_left_iff.mpr (hall.imp fun entry part h => h.2)
  rwa [List.zipIdx_map_fst] at hmap

/-- What only the right side declares stays, unless the left side forbids it. -/
theorem findLast?_rightParts (key : Key) :
    Entries.findLast? (rightParts as x bs) key =
      if Entries.has as key then none
      else (Entries.findLast? bs key).map fun b => if x then some b else none := by
  have hhas : ∀ key, Entries.has (Entries.ofPairs as) key = Entries.has as key := by
    intro key
    rw [Bool.eq_iff_iff, Entries.has_iff, Entries.has_iff, Entries.mem_classes_ofPairs]
  have hkeep : ∀ {key other : Key}, key.keyClass = other.keyClass →
      (!Entries.has (Entries.ofPairs as) key) = !Entries.has (Entries.ofPairs as) other := by
    intro key other hclass
    rw [Bool.eq_iff_iff, Bool.not_eq_true', Bool.not_eq_true', ← Bool.not_eq_true,
      ← Bool.not_eq_true, Entries.has_iff, Entries.has_iff, hclass]
  rw [rightParts, Entries.findLast?_map fun b => if x then some b else none, rightOnly,
    Entries.findLast?_filter hkeep, hhas, Entries.findLast?_ofPairs]
  cases Entries.has as key <;> rfl

theorem distinct_mergedParts {left : List (Key × Option Model)}
    (hleft : Entries.classes (Entries.ofPairs as) = Entries.classes left) :
    Entries.distinct (left ++ rightParts as x bs) = true := by
  have hright : Entries.classes (rightParts as x bs) = Entries.classes (rightOnly as bs) := by
    rw [rightParts, Entries.classes, List.map_map]
    rfl
  have happend : Entries.classes (left ++ rightParts as x bs) =
      Entries.classes (Entries.ofPairs as) ++ Entries.classes (rightOnly as bs) := by
    rw [hleft, ← hright]
    exact List.map_append
  rw [Entries.distinct_iff, happend, List.nodup_append']
  refine ⟨Entries.distinct_iff.mp (Entries.distinct_ofPairs as), ?_, ?_⟩
  · exact (List.filter_sublist.map _).nodup (Entries.distinct_iff.mp (Entries.distinct_ofPairs bs))
  · intro c hc hc'
    obtain ⟨entry, hmem, rfl⟩ := List.mem_map.mp hc'
    exact (mem_rightOnly.mp hmem).2 ((Entries.mem_classes_ofPairs as entry.1).mp hc)

/-- The parts of both sides together settle every key. -/
theorem merged_append {left : List (Key × Option Model)} {key : Key}
    (hleft : Option.Rel (fun a part => Merged x y (some a) (Entries.findLast? bs key) (some part))
      (Entries.findLast? as key) (Entries.findLast? left key)) :
    Merged x y (Entries.findLast? as key) (Entries.findLast? bs key)
      (Entries.findLast? (left ++ rightParts as x bs) key) := by
  rw [Entries.findLast?_append, findLast?_rightParts]
  have hhas : Entries.has as key = (Entries.findLast? as key).isSome := by
    rw [Bool.eq_iff_iff, Entries.has_iff, Option.isSome_iff_ne_none, ne_eq,
      Entries.findLast?_eq_none_iff, not_not]
  rw [hhas]
  generalize Entries.findLast? as key = declared at hleft
  generalize Entries.findLast? left key = part at hleft
  cases hleft with
  | some h => exact h
  | none =>
      cases Entries.findLast? bs key with
      | none => exact .neither
      | some b => exact .right b

/-- The overlap of two objects settles every name by its declarations on both sides. -/
theorem exists_mergedParts (ha : Good (.object as r x)) (hb : Good (.object bs s y))
    (hdiffer : ¬ same (.object as r x) (.object bs s y) = true) (mark : Mark) :
    ∃ parts,
      overlap (.object as r x) (.object bs s y) mark =
        .ok (mergeParts (joinNames r s) (x && y) parts) ∧
      Entries.distinct parts = true ∧
      ∀ key, Merged x y (Entries.findLast? as key) (Entries.findLast? bs key)
        (Entries.findLast? parts key) := by
  obtain ⟨left, hsteps, hsettled⟩ := exists_leftParts ha hb mark
  obtain ⟨joint, hjoint, -⟩ := yields_overlap ha hb mark
  have hfollow := hjoint
  rw [overlap_eq, if_neg hdiffer, rule] at hfollow
  have hmerge := eq_mergeParts_of_follow hsteps hfollow
  refine ⟨left ++ rightParts as x bs, by rw [hjoint, hmerge], ?_, fun key => merged_append ?_⟩
  · exact distinct_mergedParts (Entries.classes_eq_of_forall₂
      (hsettled.imp fun _ _ h => congrArg Key.keyClass h.1))
  · have hfound := Entries.findLast?_rel_of_forall₂ (fun key a part =>
      Merged x y (some a) (Entries.findLast? bs key) (some part))
      (fun hclass h => findLast?_congr hclass ▸ h) hsettled key
    rwa [Entries.findLast?_ofPairs] at hfound

end Objects

end Model

end SchemaModel
