import SchemaModel.Model.Overlap

/-!
# The rules of overlap

The overlap of two models that differ follows one rule, which the forms of the models decide.  A
`Rule` is what is left to do then: to keep a model, to test the values of one side on the other, to
meet parts and to put the results together.  `Model.follow` does it with the way of meeting parts as
a parameter, and `overlap_eq` says that `Model.overlap` follows its rule with itself.

`Followed` lists all that can come of a rule.  What holds of an overlap is shown for each of these,
given that it holds of the smaller overlaps on the way: `overlapInduction`.
-/

namespace SchemaModel

theorem bind_eq_ok {α β ε : Type} {x : Except ε α} {f : α → Except ε β} {z : β}
    (h : (x >>= f) = .ok z) : ∃ y, x = .ok y ∧ f y = .ok z := by
  cases x with
  | error e => cases h
  | ok y => exact ⟨y, rfl, h⟩

theorem exists_of_mem_mapM {α β ε : Type} {f : α → Except ε β} {xs : List α} {ys : List β}
    (h : xs.mapM f = .ok ys) {y : β} (hy : y ∈ ys) : ∃ x ∈ xs, f x = .ok y := by
  induction xs generalizing ys with
  | nil =>
    cases h
    cases hy
  | cons x xs ih =>
    rw [List.mapM_cons] at h
    cases first : f x with
    | error e => simp [first, bind, Except.bind] at h
    | ok z =>
      cases rest : xs.mapM f with
      | error e => simp [first, rest, bind, Except.bind] at h
      | ok zs =>
        simp only [first, rest, bind, Except.bind, pure, Except.pure, Except.ok.injEq] at h
        subst h
        rcases List.mem_cons.1 hy with rfl | hy
        · exact ⟨x, by simp, first⟩
        · obtain ⟨x', member, found⟩ := ih rest hy
          exact ⟨x', List.mem_cons_of_mem _ member, found⟩

theorem mem_of_filterM {α ε : Type} {test : α → Except ε Bool} {xs ys : List α}
    (h : xs.filterM test = .ok ys) : ∀ y ∈ ys, y ∈ xs := by
  have hscan : ∀ kept ys, xs.filterAuxM test kept = .ok ys → ∀ y ∈ ys, y ∈ kept ∨ y ∈ xs := by
    clear h
    induction xs with
    | nil =>
        intro kept ys h y hy
        cases h
        exact .inl hy
    | cons x xs ih =>
        intro kept ys h y hy
        obtain ⟨fine, -, h⟩ := bind_eq_ok h
        rcases ih _ _ h y hy with hkept | hxs
        · cases fine with
          | false => exact .inl hkept
          | true => exact (List.mem_cons.mp hkept).elim (fun heq => .inr (by simp [heq])) .inl
        · exact .inr (List.mem_cons_of_mem x hxs)
  obtain ⟨kept, hkept, h⟩ := bind_eq_ok h
  cases h
  intro y hy
  simpa using hscan [] kept hkept y (List.mem_reverse.mp hy)

namespace Model

/-! ## The ways of making a model -/

theorem combine_eq_ok {combinator : Combinator} {branches : List Model} {mark : Mark}
    {model : Model} (h : combine combinator branches mark = .ok model) :
    model = wrap mark combinator branches := by
  unfold combine at h
  split at h
  · cases h
  · split at h
    · cases h
    · exact (Except.ok.inj h).symm

/-- A union is nothing, one of its parts or a combination of some of them. -/
theorem gather_cases {combinator : Combinator} {parts : List Model} {mark : Mark} {model : Model}
    (h : gather combinator parts mark = .ok model) :
    model = .never ∨ model ∈ parts ∨
      ∃ kept, (∀ part ∈ kept, part ∈ parts) ∧ model = wrap mark combinator kept := by
  have hkept : ∀ part ∈ parts.filter fun part => !part.isNever, part ∈ parts :=
    fun part hpart => (List.mem_filter.mp hpart).1
  unfold gather at h
  split at h
  · exact .inl (Except.ok.inj h).symm
  · next part hsingle =>
    cases h
    exact .inr (.inl (hkept _ (by simp [hsingle])))
  · exact .inr (.inr ⟨_, hkept, combine_eq_ok h⟩)

theorem ofLiteral_eq_ok {value : Value} {mark : Mark} {model : Model}
    (h : ofLiteral value mark = .ok model) : model = .literal mark value := by
  unfold ofLiteral at h
  split at h
  · exact (Except.ok.inj h).symm
  · cases h

theorem ofEnum_eq_ok {values : List Value} {mark : Mark} {model : Model}
    (h : ofEnum values mark = .ok model) : model = .enum mark (distinctValues [] values) := by
  unfold ofEnum at h
  split at h
  · cases h
  · split at h
    · cases h
    · exact (Except.ok.inj h).symm

/-- Of equal values the first one stays where it is. -/
theorem distinctValues_sublist (seen values : List Value) :
    (distinctValues seen values).Sublist values := by
  induction values generalizing seen with
  | nil => exact .slnil
  | cons value values ih =>
      rw [distinctValues]
      split
      · exact (ih seen).cons value
      · exact (ih _).cons_cons value

theorem eq_of_ofObject {properties : List (Key × Model)} {required : List Text}
    {additional : Bool} {model : Model} (h : ofObject properties required additional = .ok model) :
    model = .object properties required additional := by
  rw [ofObject] at h
  split at h
  · exact (Except.ok.inj h).symm
  · cases h

/-- Narrowing leaves nothing, one of the values or an enumeration of some of them. -/
theorem narrow_cases [Platform] {values : List Value} {other model : Model} {mark : Mark}
    (h : narrow values other mark = .ok model) :
    model = .never ∨ (∃ value ∈ values, model = .literal mark value) ∨
      ∃ kept, (∀ value ∈ kept, value ∈ values) ∧ model = .enum mark kept := by
  obtain ⟨kept, hkept, h⟩ := bind_eq_ok h
  have hmem := mem_of_filterM hkept
  split at h
  · exact .inl (Except.ok.inj h).symm
  · exact .inr (.inl ⟨_, hmem _ List.mem_cons_self, ofLiteral_eq_ok h⟩)
  · refine .inr (.inr ⟨_, fun value hvalue => hmem value ?_, ofEnum_eq_ok h⟩)
    exact (distinctValues_sublist _ _).subset hvalue

theorem eq_never_of_clash {a b model : Model} (h : clash a b = .ok model) : model = .never := by
  unfold clash at h
  split at h <;> cases h
  rfl

theorem exists_of_mem_collectProperties {α : Type} {required : List Text}
    {part : α → Except Fault (Key × Option Model)} {xs : List α} {properties : List (Key × Model)}
    (h : collectProperties required part xs = .ok (some properties)) {entry : Key × Model}
    (member : entry ∈ properties) : ∃ x ∈ xs, part x = .ok (entry.1, some entry.2) := by
  induction xs generalizing properties with
  | nil =>
    cases h
    cases member
  | cons x xs ih =>
    unfold collectProperties at h
    cases first : part x with
    | error e => simp [first, bind, Except.bind] at h
    | ok found =>
      obtain ⟨name, found⟩ := found
      simp only [first, bind, Except.bind] at h
      cases found with
      | none =>
        simp only at h
        split at h
        · cases h
        · obtain ⟨y, my, hy⟩ := ih h member
          exact ⟨y, List.mem_cons_of_mem _ my, hy⟩
      | some model =>
        simp only at h
        split at h
        · cases h
        · cases rest : collectProperties required part xs with
          | error e => simp [rest] at h
          | ok others =>
            cases others with
            | none => simp [rest] at h
            | some others =>
              simp only [rest, Option.map_some, Except.ok.injEq, Option.some.injEq] at h
              subst h
              rcases List.mem_cons.1 member with rfl | member
              · exact ⟨x, by simp, first⟩
              · obtain ⟨y, my, hy⟩ := ih rest member
                exact ⟨y, List.mem_cons_of_mem _ my, hy⟩

/-! ## The rule of two models -/

/-- What is left to do once the forms of two models are known. -/
inductive Rule where
  | settled (result : Except Fault Model)
  | select (value : Value) (chosen other : Model)
  | narrow (values : List Value) (other : Model)
  | spread (combinator : Combinator) (pairs : List (Model × Model))
  | join (members : List Model)
  | arrays (a b : Model)
  | objects (as : List (Key × Model)) (r : List Text) (x : Bool)
      (bs : List (Key × Model)) (s : List Text) (y : Bool)

/-- The rule for two models that differ. -/
def rule : Model → Model → Rule
  | .unknown, b => .settled (.ok b)
  | a, .unknown => .settled (.ok a)
  | .never, _ => .settled (.ok .never)
  | _, .never => .settled (.ok .never)
  | .literal own value, b => .select value (.literal own value) b
  | a, .literal own value => .select value (.literal own value) a
  | .enum _ values, b => .narrow values b
  | a, .enum _ values => .narrow values a
  | .anyOf branches, b => .spread .anyOf (branches.map (·, b))
  | a, .anyOf branches => .spread .anyOf (branches.map (a, ·))
  | .allOf branches, b => .join (branches ++ b.members)
  | a, .allOf branches => .join (a.members ++ branches)
  | .oneOf m as, .oneOf n bs => .join [.oneOf m as, .oneOf n bs]
  | .oneOf _ branches, b => .spread .oneOf (branches.map (·, b))
  | a, .oneOf _ branches => .spread .oneOf (branches.map (a, ·))
  | .array a, .array b => .arrays a b
  | .object as r x, .object bs s y => .objects as r x bs s y
  | a, b => .settled (clash a b)

/-- A way of meeting two models at a mark. -/
abbrev Meet := Model → Model → Mark → Except Fault Model

/-- What becomes of a property of the left side: it meets that of the right, or stays if the right
is open to it. -/
def meetProperty (meet : Meet) (mark : Mark) (right : List (Key × Model)) (y : Bool)
    (entry : (Key × Model) × Nat) : Except Fault (Key × Option Model) :=
  match Entries.find? right entry.1.1 with
  | some other => do .ok (entry.1.1, some (← meet entry.1.2 other (partMark mark entry.2)))
  | none => .ok (entry.1.1, if y then some entry.1.2 else none)

/-- The properties that only the right side declares. -/
def rightOnly (as bs : List (Key × Model)) : List (Key × Model) :=
  (Entries.ofPairs bs).filter fun entry => !Entries.has (Entries.ofPairs as) entry.1

/-- Follows a rule at a mark. -/
def follow [Platform] (meet : Meet) (mark : Mark) : Rule → Except Fault Model
  | .settled result => result
  | .select value chosen other => do if ← other.accepts value then .ok chosen else .ok .never
  | .narrow values other => Model.narrow values other mark
  | .spread combinator pairs => do
    let parts ← pairs.zipIdx.mapM fun x => meet x.1.1 x.1.2 (partMark mark x.2)
    gather combinator parts mark
  | .join members => combine .allOf members
  | .arrays a b => do .ok (.array (← meet a b mark))
  | .objects as r x bs s y => do
    let required := joinNames r s
    match ← collectProperties required (meetProperty meet mark (Entries.ofPairs bs) y)
        (Entries.ofPairs as).zipIdx with
    | none => .ok .never
    | some shared =>
      match ← collectProperties required
          (fun entry => .ok (entry.1, if x then some entry.2 else none)) (rightOnly as bs) with
      | none => .ok .never
      | some rest => ofObject (shared ++ rest) required (x && y)

/-! ## Overlap follows its rule -/

theorem mapM_attach_zipIdx {α β γ ε : Type} (f : β × Nat → Except ε γ) (g : α → β) (xs : List α) :
    (xs.attach.zipIdx.mapM fun x => f (g x.1.1, x.2)) = (xs.map g).zipIdx.mapM f := by
  have hmap := List.zipIdx_map (f := fun x => g x.1) (l := xs.attach) (k := 0)
  rw [List.attach_map_val] at hmap
  rw [hmap, List.mapM_map]
  rfl

theorem collectProperties_map {α β : Type} (required : List Text)
    (part : β → Except Fault (Key × Option Model)) (g : α → β) (xs : List α) :
    collectProperties required part (xs.map g) =
      collectProperties required (fun x => part (g x)) xs := by
  induction xs with
  | nil => rfl
  | cons x xs ih => simp only [List.map_cons, collectProperties, ih]

theorem collectProperties_attach_zipIdx {α : Type} (required : List Text)
    (part : α × Nat → Except Fault (Key × Option Model)) (xs : List α) :
    collectProperties required (fun x => part (x.1.1, x.2)) xs.attach.zipIdx =
      collectProperties required part xs.zipIdx := by
  have hmap := List.zipIdx_map (f := Subtype.val) (l := xs.attach) (k := 0)
  rw [List.attach_map_subtype_val] at hmap
  rw [hmap, collectProperties_map]
  rfl

/-- A rule is found from the forms of both models and then followed into smaller overlaps. -/
theorem overlap_eq [Platform] (a b : Model) (mark : Mark) :
    overlap a b mark =
      if a.same b then .ok a else follow (fun a b mark => overlap a b mark) mark (rule a b) := by
  have hspread := fun branches (pair : Model → Model × Model) => mapM_attach_zipIdx
    (fun x => overlap x.1.1 x.1.2 (partMark mark x.2)) pair branches
  fun_cases overlap a b mark
  case case1 hsame => rw [if_pos hsame]
  all_goals rw [if_neg ‹_›, rule]
  -- What a rule asks of the forms is what its case knows.
  all_goals try assumption
  case case10 branches _ _ _ _ _ => exact congrArg (· >>= _) (hspread branches (·, b))
  case case11 branches _ _ _ _ _ _ => exact congrArg (· >>= _) (hspread branches (a, ·))
  case case15 branches _ _ _ _ _ _ _ _ => exact congrArg (· >>= _) (hspread branches (·, b))
  case case16 branches _ _ _ _ _ _ _ _ => exact congrArg (· >>= _) (hspread branches (a, ·))
  case case18 as r x bs s y required left right _ =>
    have hshared := collectProperties_attach_zipIdx required
      (meetProperty (fun a b mark => overlap a b mark) mark right y) left
    rw [follow, ← hshared]
    congr 1
    congr 1
    funext p
    obtain ⟨⟨entry, hmem⟩, index⟩ := p
    simp only [meetProperty]
    split
    · next other hother => rw [hother]
    · next hnone => rw [hnone]
  all_goals rfl

theorem sizeOf_lt_of_spread {a b : Model} {combinator : Combinator} {pairs : List (Model × Model)}
    (h : rule a b = .spread combinator pairs) :
    ∀ pair ∈ pairs, sizeOf pair.1 + sizeOf pair.2 < sizeOf a + sizeOf b := by
  intro pair hmem
  unfold rule at h
  split at h <;> cases h
  all_goals
    obtain ⟨branch, hbranch, rfl⟩ := List.mem_map.mp hmem
    have hsmaller := List.sizeOf_lt_of_mem hbranch
    simp only [anyOf.sizeOf_spec, oneOf.sizeOf_spec]
    omega

theorem eq_of_rule_arrays {a b x y : Model} (h : rule a b = .arrays x y) :
    a = .array x ∧ b = .array y := by
  unfold rule at h
  split at h <;> cases h
  exact ⟨rfl, rfl⟩

theorem eq_of_rule_objects {a b : Model} {as bs : List (Key × Model)} {r s : List Text}
    {x y : Bool} (h : rule a b = .objects as r x bs s y) :
    a = .object as r x ∧ b = .object bs s y := by
  unfold rule at h
  split at h <;> cases h
  exact ⟨rfl, rfl⟩

/-! ## What comes of a rule -/

section Cases

variable {a b : Model}

/-- What is settled at once is one of both sides or nothing. -/
theorem settled_cases {result : Except Fault Model} {model : Model}
    (h : rule a b = .settled result) (hresult : result = .ok model) :
    model = a ∨ model = b ∨ model = .never := by
  unfold rule at h
  split at h <;> cases h
  · exact .inr (.inl (Except.ok.inj hresult).symm)
  · exact .inl (Except.ok.inj hresult).symm
  · exact .inr (.inr (Except.ok.inj hresult).symm)
  · exact .inr (.inr (Except.ok.inj hresult).symm)
  · exact .inr (.inr (eq_never_of_clash hresult))

theorem select_cases {value : Value} {chosen other : Model}
    (h : rule a b = .select value chosen other) : chosen = a ∨ chosen = b := by
  unfold rule at h
  split at h <;> cases h
  · exact .inl rfl
  · exact .inr rfl

theorem enum_of_rule_narrow {values : List Value} {other : Model}
    (h : rule a b = .narrow values other) :
    ∃ own, a = .enum own values ∨ b = .enum own values := by
  unfold rule at h
  split at h <;> cases h
  · exact ⟨_, .inl rfl⟩
  · exact ⟨_, .inr rfl⟩

theorem eq_of_rule_join {members : List Model} (h : rule a b = .join members) :
    members = a.members ++ b.members := by
  unfold rule at h
  split at h <;> cases h <;> rfl

end Cases

/-- A property of a merged object is one of either side, or what two of one name meet in. -/
theorem property_cases_of_follow [Platform] {as bs : List (Key × Model)} {r s : List Text}
    {x y : Bool} {meet : Meet} {mark : Mark} {joint : Model}
    (h : follow meet mark (.objects as r x bs s y) = .ok joint) :
    joint = .never ∨ ∃ properties required additional,
      joint = .object properties required additional ∧ ∀ entry ∈ properties,
        entry ∈ Entries.ofPairs as ∨ entry ∈ Entries.ofPairs bs ∨
          ∃ own ∈ Entries.ofPairs as, ∃ other ∈ Entries.ofPairs bs,
            entry.1 = own.1 ∧ ∃ mark, meet own.2 other.2 mark = .ok entry.2 := by
  obtain ⟨shared, hshared, h⟩ := bind_eq_ok h
  cases shared with
  | none =>
      cases h
      exact .inl rfl
  | some shared =>
      obtain ⟨rest, hrest, h⟩ := bind_eq_ok h
      cases rest with
      | none =>
          cases h
          exact .inl rfl
      | some rest =>
          refine .inr ⟨_, _, _, eq_of_ofObject h, ?_⟩
          rintro ⟨key, model⟩ hmem
          rcases List.mem_append.mp hmem with hmem | hmem
          · obtain ⟨⟨⟨name, a⟩, index⟩, hpair, hpart⟩ :=
              exists_of_mem_collectProperties hshared hmem
            have ha := List.fst_mem_of_mem_zipIdx hpair
            unfold meetProperty at hpart
            split at hpart
            · next b hfound =>
              obtain ⟨other, hb⟩ := Entries.mem_of_find? hfound
              obtain ⟨met, hmet, heq⟩ := bind_eq_ok hpart
              cases heq
              exact .inr (.inr ⟨_, ha, _, hb, rfl, _, hmet⟩)
            · cases y with
              | false => cases hpart
              | true =>
                  cases hpart
                  exact .inl ha
          · obtain ⟨⟨name, b⟩, hpair, hpart⟩ := exists_of_mem_collectProperties hrest hmem
            cases x with
            | false => cases hpart
            | true =>
                cases hpart
                exact .inr (.inl (List.mem_filter.mp hpair).1)

/-- All that can come of the rule for two models, if `met` says what comes of smaller ones. -/
inductive Followed (a b : Model) (met : Model → Model → Model → Prop) : Model → Prop
  | left : Followed a b met a
  | right : Followed a b met b
  | never : Followed a b met .never
  | literal {own mark : Mark} {values : List Value} {value : Value}
      (given : a = .enum own values ∨ b = .enum own values) (kept : value ∈ values) :
      Followed a b met (.literal mark value)
  | enum {own mark : Mark} {values rest : List Value}
      (given : a = .enum own values ∨ b = .enum own values)
      (kept : ∀ value ∈ rest, value ∈ values) :
      Followed a b met (.enum mark rest)
  | part {combinator : Combinator} {pairs : List (Model × Model)} {pair : Model × Model}
      {model : Model} (spread : rule a b = .spread combinator pairs) (mem : pair ∈ pairs)
      (part_met : met pair.1 pair.2 model) : Followed a b met model
  | union {combinator : Combinator} {pairs : List (Model × Model)} {parts : List Model}
      {mark : Mark} (spread : rule a b = .spread combinator pairs)
      (parts_met : ∀ part ∈ parts, ∃ pair ∈ pairs, met pair.1 pair.2 part) :
      Followed a b met (wrap mark combinator parts)
  | intersection {members : List Model} (joined : rule a b = .join members) :
      Followed a b met (.allOf members)
  | array {x y items : Model} (left : a = .array x) (right : b = .array y)
      (items_met : met x y items) : Followed a b met (.array items)
  | object {as bs properties : List (Key × Model)} {r s required : List Text}
      {x y additional : Bool} (left : a = .object as r x) (right : b = .object bs s y)
      (properties_met : ∀ entry ∈ properties,
        entry ∈ Entries.ofPairs as ∨ entry ∈ Entries.ofPairs bs ∨
          ∃ own ∈ Entries.ofPairs as, ∃ other ∈ Entries.ofPairs bs,
            entry.1 = own.1 ∧ met own.2 other.2 entry.2) :
      Followed a b met (.object properties required additional)

theorem followed_of_follow [Platform] {a b joint : Model} {meet : Meet} {mark : Mark}
    {met : Model → Model → Model → Prop}
    (hmeet : ∀ x y mark model, sizeOf x + sizeOf y < sizeOf a + sizeOf b →
      meet x y mark = .ok model → met x y model)
    (h : follow meet mark (rule a b) = .ok joint) : Followed a b met joint := by
  cases hrule : rule a b with
  | settled result =>
      rw [hrule] at h
      rcases settled_cases hrule h with rfl | rfl | rfl
      · exact .left
      · exact .right
      · exact .never
  | select value chosen other =>
      rw [hrule] at h
      obtain ⟨answer, -, h⟩ := bind_eq_ok h
      split at h <;> cases h
      · rcases select_cases hrule with rfl | rfl
        · exact .left
        · exact .right
      · exact .never
  | narrow values other =>
      rw [hrule] at h
      obtain ⟨own, hgiven⟩ := enum_of_rule_narrow hrule
      rcases narrow_cases h with rfl | ⟨value, hmem, rfl⟩ | ⟨kept, hkept, rfl⟩
      · exact .never
      · exact .literal hgiven hmem
      · exact .enum hgiven hkept
  | spread combinator pairs =>
      rw [hrule] at h
      obtain ⟨parts, hparts, h⟩ := bind_eq_ok h
      have hmet : ∀ part ∈ parts, ∃ pair ∈ pairs, met pair.1 pair.2 part := by
        intro part hpart
        obtain ⟨⟨pair, index⟩, hpair, hmet⟩ := exists_of_mem_mapM hparts hpart
        have hmem := List.fst_mem_of_mem_zipIdx hpair
        exact ⟨pair, hmem, hmeet _ _ _ _ (sizeOf_lt_of_spread hrule pair hmem) hmet⟩
      rcases gather_cases h with rfl | hpart | ⟨kept, hkept, rfl⟩
      · exact .never
      · obtain ⟨pair, hmem, hpair⟩ := hmet joint hpart
        exact .part hrule hmem hpair
      · exact .union hrule fun part hpart => hmet part (hkept part hpart)
  | join members =>
      rw [hrule] at h
      rw [combine_eq_ok h]
      exact .intersection hrule
  | arrays x y =>
      obtain ⟨rfl, rfl⟩ := eq_of_rule_arrays hrule
      rw [hrule] at h
      obtain ⟨items, hitems, h⟩ := bind_eq_ok h
      cases h
      exact .array rfl rfl (hmeet x y mark items (by simp only [array.sizeOf_spec]; omega) hitems)
  | objects as r x bs s y =>
      obtain ⟨rfl, rfl⟩ := eq_of_rule_objects hrule
      rw [hrule] at h
      rcases property_cases_of_follow h with rfl | ⟨properties, required, additional, rfl, hmerged⟩
      · exact .never
      · refine .object rfl rfl fun entry hentry => ?_
        refine (hmerged entry hentry).imp_right (Or.imp_right ?_)
        rintro ⟨own, hown, other, hother, hname, mark, hmet⟩
        have hsize := sizeOf_lt_of_mem_ofPairs hown
        have hsize' := sizeOf_lt_of_mem_ofPairs hother
        refine ⟨own, hown, other, hother, hname, hmeet _ _ _ _ ?_ hmet⟩
        simp only [object.sizeOf_spec]
        omega

/-- What follows from every rule, given that it holds of smaller overlaps, holds of all overlaps. -/
theorem overlapInduction [Platform] {motive : Model → Model → Model → Prop}
    (step : ∀ {a b joint}, Followed a b motive joint → motive a b joint) {a b joint : Model}
    {mark : Mark} (h : overlap a b mark = .ok joint) : motive a b joint := by
  rw [overlap_eq] at h
  split at h
  · cases h
    exact step .left
  · exact step (followed_of_follow
      (fun x y mark model hsize hmet => overlapInduction step hmet) h)
termination_by sizeOf a + sizeOf b

end Model

end SchemaModel
