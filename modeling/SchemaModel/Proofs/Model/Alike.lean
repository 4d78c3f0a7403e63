import SchemaModel.Proofs.Model.Equality

/-!
# Models that are alike

`Model.Alike` is equality of good models read as a relation: the same form, with equal values, and
with parts that are alike under every position and every name.  It is symmetric and transitive.  A
model that holds what is not a number is like nothing, itself included; between models that are like
themselves, to be alike is to be the same.
-/

namespace SchemaModel

/-- Elements of which no two share a partner are no more than the partners. -/
theorem length_le_of_partner {α β : Type} {r : α → β → Prop} {as : List α} {bs : List β}
    (hpartner : ∀ a ∈ as, ∃ b ∈ bs, r a b)
    (hdistinct : as.Pairwise fun a a' => ∀ b ∈ bs, r a b → ¬ r a' b) :
    as.length ≤ bs.length := by
  by_contra hlonger
  cases as with
  | nil => exact hlonger (Nat.zero_le _)
  | cons a as =>
      -- The partner of the first element would be left over for one of the others.
      obtain ⟨b, hb, hab⟩ := hpartner a List.mem_cons_self
      obtain ⟨hfirst, hrest⟩ := List.pairwise_cons.mp hdistinct
      have hlen : bs.length ≤ as.length := by
        rw [List.length_cons] at hlonger
        omega
      have hothers : ∀ a' ∈ as, ∃ b' ∈ bs, r a' b' := fun a' ha' =>
        hpartner a' (List.mem_cons_of_mem a ha')
      obtain ⟨a', ha', hab'⟩ := exists_partner_of_length_le hlen hothers hrest b hb
      exact hfirst a' ha' b hb hab hab'

namespace Model

/-- Equality of good models, part by part. -/
inductive Alike : Model → Model → Prop
  | unknown : Alike .unknown .unknown
  | never : Alike .never .never
  | null : Alike .null .null
  | boolean : Alike .boolean .boolean
  | number : Alike .number .number
  | string : Alike .string .string
  | literal {m n : Mark} {a b : Value} (left : a.IsData) (right : b.IsData)
      (equal : a.jsonEqual b = true) : Alike (.literal m a) (.literal n b)
  | enum {m n : Mark} {as bs : List Value} (left : Good (.enum m as)) (right : Good (.enum n bs))
      (forth : ∀ a ∈ as, ∃ b ∈ bs, a.jsonEqual b = true)
      (back : ∀ b ∈ bs, ∃ a ∈ as, a.jsonEqual b = true) : Alike (.enum m as) (.enum n bs)
  | array {a b : Model} (items : Alike a b) : Alike (.array a) (.array b)
  | object {as bs : List (Key × Model)} {r s : List Text} {x : Bool}
      (left : Good (.object as r x)) (right : Good (.object bs s x))
      (names : ∀ name, name ∈ r ↔ name ∈ s)
      (keys : ∀ key, Entries.findLast? as key = none ↔ Entries.findLast? bs key = none)
      (parts : ∀ key a b, Entries.findLast? as key = some a → Entries.findLast? bs key = some b →
        Alike a b) : Alike (.object as r x) (.object bs s x)
  | oneOf {m n : Mark} {as bs : List Model} (nonempty : as ≠ []) (length : as.length = bs.length)
      (parts : ∀ (i : Nat) a b, as[i]? = some a → bs[i]? = some b → Alike a b) :
      Alike (.oneOf m as) (.oneOf n bs)
  | anyOf {as bs : List Model} (nonempty : as ≠ []) (length : as.length = bs.length)
      (parts : ∀ (i : Nat) a b, as[i]? = some a → bs[i]? = some b → Alike a b) :
      Alike (.anyOf as) (.anyOf bs)
  | allOf {as bs : List Model} (nonempty : as ≠ []) (length : as.length = bs.length)
      (parts : ∀ (i : Nat) a b, as[i]? = some a → bs[i]? = some b → Alike a b) :
      Alike (.allOf as) (.allOf bs)

/-! ## Enumerations -/

section Enumerations

variable {m n : Mark} {as bs : List Value}

theorem data_of_good_enum (h : Good (.enum m as)) : ∀ a ∈ as, a.IsData := by
  cases h with
  | enum nonempty data distinct => exact data

/-- No two values of an enumeration equal the same value. -/
theorem apart_of_good_enum (h : Good (.enum m as)) (hbs : ∀ b ∈ bs, b.IsData) :
    as.Pairwise fun a a' => ∀ b ∈ bs, a.jsonEqual b = true → ¬ a'.jsonEqual b = true := by
  cases h with
  | enum nonempty data distinct =>
      apply distinct.imp_of_mem
      intro a a' ha ha' hne b hb hab hab'
      have hback := (data a' ha').jsonEqual_symm (hbs b hb) hab'
      have heq := (data a ha).jsonEqual_trans (hbs b hb) (data a' ha') hab hback
      rw [hne.1] at heq
      cases heq

variable (left : Good (.enum m as)) (right : Good (.enum n bs))

include left right

theorem jsonEqual_back (back : ∀ b ∈ bs, ∃ a ∈ as, a.jsonEqual b = true) :
    ∀ b ∈ bs, ∃ a ∈ as, b.jsonEqual a = true := by
  intro b hb
  obtain ⟨a, ha, hab⟩ := back b hb
  have hdata := data_of_good_enum left a ha
  exact ⟨a, ha, hdata.jsonEqual_symm (data_of_good_enum right b hb) hab⟩

theorem length_eq_of_partners (forth : ∀ a ∈ as, ∃ b ∈ bs, a.jsonEqual b = true)
    (back : ∀ b ∈ bs, ∃ a ∈ as, a.jsonEqual b = true) : as.length = bs.length := by
  apply Nat.le_antisymm
  · exact length_le_of_partner forth (apart_of_good_enum left (data_of_good_enum right))
  · exact length_le_of_partner (jsonEqual_back left right back)
      (apart_of_good_enum right (data_of_good_enum left))

/-- Between good enumerations equality is covering in both directions. -/
theorem same_enum_iff :
    same (.enum m as) (.enum n bs) = true ↔
      (∀ a ∈ as, ∃ b ∈ bs, a.jsonEqual b = true) ∧ ∀ b ∈ bs, ∃ a ∈ as, a.jsonEqual b = true := by
  simp only [same, Bool.and_eq_true, decide_eq_true_eq, List.all_eq_true, enumerates,
    List.any_eq_true]
  constructor
  · rintro ⟨hlen, forth⟩
    have hapart := apart_of_good_enum left (data_of_good_enum right)
    exact ⟨forth, exists_partner_of_length_le (Nat.le_of_eq hlen.symm) forth hapart⟩
  · rintro ⟨forth, back⟩
    exact ⟨length_eq_of_partners left right forth back, forth⟩

end Enumerations

/-! ## Symmetry and transitivity -/

theorem ne_nil_of_length_eq {as bs : List Model} (hne : as ≠ []) (hlen : as.length = bs.length) :
    bs ≠ [] := by
  rintro rfl
  exact hne (List.eq_nil_of_length_eq_zero hlen)

theorem Alike.symm {a b : Model} (h : Alike a b) : Alike b a := by
  induction h with
  | unknown => exact .unknown
  | never => exact .never
  | null => exact .null
  | boolean => exact .boolean
  | number => exact .number
  | string => exact .string
  | literal left right equal => exact .literal right left (left.jsonEqual_symm right equal)
  | enum left right forth back =>
      refine .enum right left (jsonEqual_back left right back) fun a ha => ?_
      obtain ⟨b, hb, hab⟩ := forth a ha
      have hdata := data_of_good_enum left a ha
      exact ⟨b, hb, hdata.jsonEqual_symm (data_of_good_enum right b hb) hab⟩
  | array _ ih => exact .array ih
  | object left right names keys _ ih =>
      exact .object right left (fun name => (names name).symm) (fun key => (keys key).symm)
        fun key b a hb ha => ih key a b ha hb
  | oneOf nonempty length _ ih =>
      exact .oneOf (ne_nil_of_length_eq nonempty length) length.symm
        fun i b a hb ha => ih i a b ha hb
  | anyOf nonempty length _ ih =>
      exact .anyOf (ne_nil_of_length_eq nonempty length) length.symm
        fun i b a hb ha => ih i a b ha hb
  | allOf nonempty length _ ih =>
      exact .allOf (ne_nil_of_length_eq nonempty length) length.symm
        fun i b a hb ha => ih i a b ha hb

/-- Branches are chained position by position, properties through the last declaration of a key. -/
theorem Alike.trans {a b c : Model} (hab : Alike a b) (hbc : Alike b c) : Alike a c := by
  induction hab generalizing c with
  | unknown | never | null | boolean | number | string => exact hbc
  | literal left right equal =>
      cases hbc with
      | literal right' last equal' =>
          exact .literal left last (left.jsonEqual_trans right last equal equal')
  | enum left right forth back =>
      cases hbc with
      | enum right' last forth' back' =>
          have hdata := data_of_good_enum left
          have hdata' := data_of_good_enum right
          have hdata'' := data_of_good_enum last
          refine .enum left last (fun a ha => ?_) fun c hc => ?_
          · obtain ⟨b, hb, hab⟩ := forth a ha
            obtain ⟨c, hc, hbc⟩ := forth' b hb
            exact ⟨c, hc, (hdata a ha).jsonEqual_trans (hdata' b hb) (hdata'' c hc) hab hbc⟩
          · obtain ⟨b, hb, hbc⟩ := back' c hc
            obtain ⟨a, ha, hab⟩ := back b hb
            exact ⟨a, ha, (hdata a ha).jsonEqual_trans (hdata' b hb) (hdata'' c hc) hab hbc⟩
  | array _ ih =>
      cases hbc with
      | array items => exact .array (ih items)
  | object left right names keys _ ih =>
      cases hbc with
      | object right' last names' keys' parts' =>
          refine .object left last (fun name => (names name).trans (names' name))
            (fun key => (keys key).trans (keys' key)) fun key a c ha hc => ?_
          -- A name that both ends declare is declared in the middle too.
          obtain ⟨b, hb⟩ := Option.ne_none_iff_exists'.mp fun hnone =>
            Option.some_ne_none a (ha.symm.trans ((keys key).mpr hnone))
          exact ih key a b ha hb (parts' key b c hb hc)
  | oneOf nonempty length _ ih =>
      cases hbc with
      | oneOf nonempty' length' parts' =>
          refine .oneOf nonempty (length.trans length') fun i a c ha hc => ?_
          obtain ⟨b, hb⟩ := exists_getElem?_of_length_eq length ha
          exact ih i a b ha hb (parts' i b c hb hc)
  | anyOf nonempty length _ ih =>
      cases hbc with
      | anyOf nonempty' length' parts' =>
          refine .anyOf nonempty (length.trans length') fun i a c ha hc => ?_
          obtain ⟨b, hb⟩ := exists_getElem?_of_length_eq length ha
          exact ih i a b ha hb (parts' i b c hb hc)
  | allOf nonempty length _ ih =>
      cases hbc with
      | allOf nonempty' length' parts' =>
          refine .allOf nonempty (length.trans length') fun i a c ha hc => ?_
          obtain ⟨b, hb⟩ := exists_getElem?_of_length_eq length ha
          exact ih i a b ha hb (parts' i b c hb hc)

theorem Alike.self_left {a b : Model} (h : Alike a b) : Alike a a :=
  h.trans h.symm

theorem Alike.self_right {a b : Model} (h : Alike a b) : Alike b b :=
  h.symm.trans h

theorem good_of_branches {as bs : List Model} (length : as.length = bs.length)
    (h : ∀ (i : Nat) a b, as[i]? = some a → bs[i]? = some b → Good a) :
    ∀ branch ∈ as, Good branch := by
  intro branch hmem
  obtain ⟨i, hi⟩ := List.mem_iff_getElem?.mp hmem
  obtain ⟨mate, hmate⟩ := exists_getElem?_of_length_eq length hi
  exact h i branch mate hi hmate

theorem Alike.good_left {a b : Model} (h : Alike a b) : Good a := by
  induction h with
  | unknown => exact .unknown
  | never => exact .never
  | null => exact .null
  | boolean => exact .boolean
  | number => exact .number
  | string => exact .string
  | literal left => exact .literal left
  | enum left => exact left
  | array _ ih => exact .array ih
  | object left => exact left
  | oneOf nonempty length _ ih => exact .oneOf nonempty (good_of_branches length ih)
  | anyOf nonempty length _ ih => exact .anyOf nonempty (good_of_branches length ih)
  | allOf nonempty length _ ih => exact .allOf nonempty (good_of_branches length ih)

theorem Alike.good_right {a b : Model} (h : Alike a b) : Good b :=
  h.symm.good_left

/-! ## To be alike and to be the same -/

theorem sameBranches_of_alike {as bs : List Model} (length : as.length = bs.length)
    (h : ∀ (i : Nat) a b, as[i]? = some a → bs[i]? = some b → same a b = true) :
    sameBranches as bs = true := by
  rw [sameBranches_iff, forall₂_iff_getElem?]
  exact ⟨length, fun i a b ha hb => .inr (h i a b ha hb)⟩

theorem mem_classes_iff_of_keys {as bs : List (Key × Model)}
    (keys : ∀ key, Entries.findLast? as key = none ↔ Entries.findLast? bs key = none)
    (c : KeyClass) : c ∈ Entries.classes as ↔ c ∈ Entries.classes bs := by
  have hsub : ∀ {as bs : List (Key × Model)},
      (∀ key, Entries.findLast? as key = none ↔ Entries.findLast? bs key = none) →
      Entries.classes as ⊆ Entries.classes bs := by
    intro as bs keys c hc
    obtain ⟨entry, hmem, rfl⟩ := List.mem_map.mp hc
    by_contra hnone
    have habsent := (keys entry.1).mpr (Entries.findLast?_eq_none_iff.mpr hnone)
    exact Entries.findLast?_eq_none_iff.mp habsent (Entries.mem_classes_of_mem hmem)
  exact ⟨fun hc => hsub keys hc, fun hc => hsub (fun key => (keys key).symm) hc⟩

/-- Objects that declare the same keys declare equally many. -/
theorem keyCount_eq_of_keys {as bs : List (Key × Model)}
    (keys : ∀ key, Entries.findLast? as key = none ↔ Entries.findLast? bs key = none) :
    Entries.keyCount as = Entries.keyCount bs := by
  classical
  rw [Entries.keyCount_eq, Entries.keyCount_eq]
  apply List.Perm.length_eq
  rw [List.perm_ext_iff_of_nodup (List.nodup_dedup _) (List.nodup_dedup _)]
  intro c
  rw [List.mem_dedup, List.mem_dedup]
  exact mem_classes_iff_of_keys keys c

/-- Equality as it is computed finds models that are alike equal. -/
theorem Alike.same {a b : Model} (h : Alike a b) : a.same b = true := by
  induction h with
  | unknown | never | null | boolean | number | string => rw [Model.same]
  | literal left right equal => rw [Model.same, equal]
  | enum left right forth back => exact (same_enum_iff left right).mpr ⟨forth, back⟩
  | array _ ih => rw [Model.same, ih, Bool.or_true]
  | object left right names keys _ ih =>
      have hprops : sameProperties _ _ = true := sameProperties_iff.mpr fun key a ha => by
        obtain ⟨b, hb⟩ := Option.ne_none_iff_exists'.mp fun hnone =>
          Option.some_ne_none a (ha.symm.trans ((keys key).mpr hnone))
        exact ⟨b, hb, .inr (ih key a b ha hb)⟩
      simp only [Model.same, keyCount_eq_of_keys keys, hprops, sameNames_iff.mpr names,
        decide_true, Bool.and_self]
  | oneOf nonempty length _ ih => rw [Model.same, sameBranches_of_alike length ih]
  | anyOf nonempty length _ ih => rw [Model.same, sameBranches_of_alike length ih]
  | allOf nonempty length _ ih => rw [Model.same, sameBranches_of_alike length ih]

theorem alike_of_sameBranches {as bs : List Model}
    (has : ∀ (i : Nat) a a', as[i]? = some a → as[i]? = some a' → Alike a a')
    (hbs : ∀ (i : Nat) b b', bs[i]? = some b → bs[i]? = some b' → Alike b b')
    (h : sameBranches as bs = true)
    (ih : ∀ a ∈ as, Alike a a → ∀ {b}, Alike b b → same a b = true → Alike a b) :
    as.length = bs.length ∧ ∀ (i : Nat) a b, as[i]? = some a → bs[i]? = some b → Alike a b := by
  obtain ⟨hlen, hparts⟩ := forall₂_iff_getElem?.mp (sameBranches_iff.mp h)
  refine ⟨hlen, fun i a b ha hb => ?_⟩
  rcases hparts i a b ha hb with hself | hsame
  · obtain rfl := eq_of_isSelf hself
    exact has i a a ha ha
  · exact ih a (List.mem_of_getElem? ha) (has i a a ha ha) (hbs i b b hb hb) hsame

/-- Models that are like themselves and the same are alike. -/
theorem alike_of_same {a b : Model} (ha : Alike a a) (hb : Alike b b) (h : a.same b = true) :
    Alike a b := by
  have hgood := ha.good_left
  have hgood' := hb.good_left
  induction hgood generalizing b with
  | unknown | never | null | boolean | number | string =>
      cases hgood' <;> first | exact ha | simp [Model.same] at h
  | literal data =>
      cases hgood' with
      | literal data' =>
          rw [Model.same] at h
          exact .literal data data' h
      | _ => simp [Model.same] at h
  | enum nonempty data distinct =>
      cases hgood' with
      | enum nonempty' data' distinct' =>
          obtain ⟨forth, back⟩ := (same_enum_iff ha.good_left hb.good_left).mp h
          exact .enum ha.good_left hb.good_left forth back
      | _ => simp [Model.same] at h
  | array good ih =>
      cases hgood' with
      | array good' =>
          cases ha with
          | array ha =>
              cases hb with
              | array hb =>
                  rw [Model.same, Bool.or_eq_true] at h
                  rcases h with hself | hsame
                  · obtain rfl := eq_of_isSelf hself
                    exact .array ha
                  · exact .array (ih ha hb hsame good')
      | _ => simp [Model.same] at h
  | object good declared ih =>
      cases hgood' with
      | @object bs s y good' declared' =>
          cases ha with
          | object left _ _ _ parts =>
              cases hb with
              | object right _ _ _ parts' =>
                  simp only [Model.same, Bool.and_eq_true, decide_eq_true_eq] at h
                  obtain ⟨⟨⟨hcount, hprops⟩, hnames⟩, rfl⟩ := h
                  refine .object left right (sameNames_iff.mp hnames) (fun key => ?_) ?_
                  · rw [Entries.findLast?_eq_none_iff, Entries.findLast?_eq_none_iff,
                      mem_classes_iff_of_sameProperties hcount hprops]
                  · intro key a b ha hb
                    obtain ⟨found, hfound, hpart⟩ := sameProperties_iff.mp hprops key a ha
                    cases hb.symm.trans hfound
                    have hself := parts key a a ha ha
                    rcases hpart with hone | hsame
                    · obtain rfl := eq_of_isSelf hone
                      exact hself
                    · obtain ⟨other, hmem⟩ := Entries.mem_of_findLast? ha
                      obtain ⟨other', hmem'⟩ := Entries.mem_of_findLast? hb
                      exact ih _ hmem hself (parts' key b b hb hb) hsame (good' _ hmem')
      | _ => simp [Model.same] at h
  | oneOf nonempty good ih =>
      cases hgood' with
      | oneOf nonempty' good' =>
          cases ha with
          | oneOf _ _ parts =>
              cases hb with
              | oneOf _ _ parts' =>
                  obtain ⟨length, hparts⟩ := alike_of_sameBranches parts parts'
                    (by simpa [Model.same] using h)
                    fun a hmem ha b hb hsame => ih a hmem ha hb hsame hb.good_left
                  exact .oneOf nonempty length hparts
      | _ => simp [Model.same] at h
  | anyOf nonempty good ih =>
      cases hgood' with
      | anyOf nonempty' good' =>
          cases ha with
          | anyOf _ _ parts =>
              cases hb with
              | anyOf _ _ parts' =>
                  obtain ⟨length, hparts⟩ := alike_of_sameBranches parts parts'
                    (by simpa [Model.same] using h)
                    fun a hmem ha b hb hsame => ih a hmem ha hb hsame hb.good_left
                  exact .anyOf nonempty length hparts
      | _ => simp [Model.same] at h
  | allOf nonempty good ih =>
      cases hgood' with
      | allOf nonempty' good' =>
          cases ha with
          | allOf _ _ parts =>
              cases hb with
              | allOf _ _ parts' =>
                  obtain ⟨length, hparts⟩ := alike_of_sameBranches parts parts'
                    (by simpa [Model.same] using h)
                    fun a hmem ha b hb hsame => ih a hmem ha hb hsame hb.good_left
                  exact .allOf nonempty length hparts
      | _ => simp [Model.same] at h

/-- Whether two models are equal depends on them only up to likeness. -/
theorem Alike.same_congr {a a' b b' : Model} (ha : Alike a a') (hb : Alike b b') :
    a.same b = a'.same b' := by
  rw [Bool.eq_iff_iff]
  constructor
  · intro h
    have hab := alike_of_same ha.self_left hb.self_left h
    exact (ha.symm.trans (hab.trans hb)).same
  · intro h
    have hab := alike_of_same ha.self_right hb.self_right h
    exact (ha.trans (hab.trans hb.symm)).same

theorem Alike.permits_eq {a b : Model} (h : Alike a b) {value : Value}
    (hv : value.distinctKeys = true) : a.permits value = b.permits value :=
  permits_eq_of_same h.good_left h.good_right h.same hv

/-! ## Parts in step -/

theorem Alike.wrap {as bs : List Model} (nonempty : as ≠ []) (h : List.Forall₂ Alike as bs)
    (m n : Mark) (combinator : Combinator) :
    Alike (wrap m combinator as) (wrap n combinator bs) := by
  obtain ⟨length, parts⟩ := forall₂_iff_getElem?.mp h
  cases combinator with
  | oneOf => exact .oneOf nonempty length parts
  | anyOf => exact .anyOf nonempty length parts
  | allOf => exact .allOf nonempty length parts

theorem good_of_forall₂_alike {as bs : List Model} (h : List.Forall₂ Alike as bs) :
    ∀ a ∈ as, Good a := by
  induction h with
  | nil => exact List.forall_mem_nil _
  | cons hab _ ih => exact List.forall_mem_cons.mpr ⟨hab.good_left, ih⟩

section Objects

variable {as bs : List (Key × Model)} {r s : List Text} {x : Bool}

/-- Objects that are alike declare the same keys, with last declarations that are alike. -/
theorem Alike.findLast?_rel (h : Alike (.object as r x) (.object bs s x)) (key : Key) :
    Option.Rel Alike (Entries.findLast? as key) (Entries.findLast? bs key) := by
  cases h with
  | object left right names keys parts =>
      cases ha : Entries.findLast? as key with
      | none =>
          rw [(keys key).mp ha]
          exact .none
      | some a =>
          cases hb : Entries.findLast? bs key with
          | none => exact absurd ((keys key).mpr hb) (by simp [ha])
          | some b => exact .some (parts key a b ha hb)

theorem alike_object (left : Good (.object as r x)) (right : Good (.object bs s x))
    (names : ∀ name, name ∈ r ↔ name ∈ s)
    (h : ∀ key, Option.Rel Alike (Entries.findLast? as key) (Entries.findLast? bs key)) :
    Alike (.object as r x) (.object bs s x) := by
  refine .object left right names (fun key => ?_) fun key a b ha hb => ?_
  · rcases optionRel_cases (h key) with ⟨ha, hb⟩ | ⟨a, b, ha, hb, -⟩
    · simp [ha, hb]
    · simp [ha, hb]
  · obtain ⟨found, hfound, hab⟩ := optionRel_some_left (h key) ha
    cases hb.symm.trans hfound
    exact hab

end Objects

end Model

end SchemaModel
