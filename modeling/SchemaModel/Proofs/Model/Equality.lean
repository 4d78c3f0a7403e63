import Mathlib.Data.List.Forall2
import SchemaModel.Proofs.Model.Curtailed

/-!
# Acceptance respects equality

Equal models permit the same values, and a model permits both of two equal values or neither.  For
models the induction follows the left one; an enumeration and the properties of an object need a
count, since their equality is inclusion on one side and equal size.
-/

namespace SchemaModel

/-- Distinct elements that all find a partner in a list no longer than theirs leave no element of
it without a partner. -/
theorem exists_partner_of_length_le {α β : Type} {r : α → β → Prop} {as : List α} {bs : List β}
    (hlen : bs.length ≤ as.length) (hpartner : ∀ a ∈ as, ∃ b ∈ bs, r a b)
    (hdistinct : as.Pairwise fun a a' => ∀ b ∈ bs, r a b → ¬ r a' b) :
    ∀ b ∈ bs, ∃ a ∈ as, r a b := by
  induction as generalizing bs with
  | nil =>
      intro b hb
      rw [List.length_eq_zero_iff.mp (Nat.le_zero.mp hlen)] at hb
      cases hb
  | cons a as ih =>
      obtain ⟨b, hb, hab⟩ := hpartner a List.mem_cons_self
      obtain ⟨hfirst, hrest⟩ := List.pairwise_cons.mp hdistinct
      obtain ⟨before, after, rfl⟩ := List.append_of_mem hb
      -- The partner of the first element is used up, so the others find theirs among the rest.
      have hothers : ∀ a' ∈ as, ∃ b' ∈ before ++ after, r a' b' := by
        intro a' ha'
        obtain ⟨b', hb', hab'⟩ := hpartner a' (List.mem_cons_of_mem a ha')
        rcases List.mem_append.mp hb' with hmem | hmem
        · exact ⟨b', List.mem_append_left _ hmem, hab'⟩
        · rcases List.mem_cons.mp hmem with rfl | hmem
          · exact absurd hab' (hfirst a' ha' b' hb hab)
          · exact ⟨b', List.mem_append_right _ hmem, hab'⟩
      have hshort : (before ++ after).length ≤ as.length := by
        simp only [List.length_append, List.length_cons] at hlen ⊢
        omega
      have hkept : ∀ b' ∈ before ++ after, b' ∈ before ++ b :: after := fun b' hb' =>
        (List.mem_append.mp hb').elim (List.mem_append_left _)
          fun hmem => List.mem_append_right _ (List.mem_cons_of_mem b hmem)
      have hmatched := ih hshort hothers
        (hrest.imp fun hne b' hb' => hne b' (hkept b' hb'))
      intro b' hb'
      rcases List.mem_append.mp hb' with hmem | hmem
      · obtain ⟨a', ha', hab'⟩ := hmatched b' (List.mem_append_left _ hmem)
        exact ⟨a', List.mem_cons_of_mem a ha', hab'⟩
      · rcases List.mem_cons.mp hmem with rfl | hmem
        · exact ⟨a, List.mem_cons_self, hab⟩
        · obtain ⟨a', ha', hab'⟩ := hmatched b' (List.mem_append_right _ hmem)
          exact ⟨a', List.mem_cons_of_mem a ha', hab'⟩

namespace Model

/-! ## Equality form by form -/

/-- Equality of parts: the very same part, or an equal one. -/
def samePart (a b : Model) : Prop :=
  isSelf a b = true ∨ same a b = true

theorem eq_of_isSelf {a b : Model} (h : isSelf a b = true) : a = b := by
  cases a <;> cases b <;> simp_all [isSelf]

theorem sameBranches_iff {as bs : List Model} :
    sameBranches as bs = true ↔ List.Forall₂ samePart as bs := by
  induction as generalizing bs with
  | nil => cases bs <;> simp [sameBranches]
  | cons a as ih =>
      cases bs with
      | nil => simp [sameBranches]
      | cons b bs => simp [sameBranches, samePart, ih]

theorem findLast?_congr {properties : List (Key × Model)} {key other : Key}
    (h : key.keyClass = other.keyClass) :
    Entries.findLast? properties key = Entries.findLast? properties other := by
  rw [← Entries.find?_ofPairs, ← Entries.find?_ofPairs, Entries.find?_congr h]

theorem sameProperties_cons_iff {key : Key} {a : Model} {as bs : List (Key × Model)} :
    sameProperties ((key, a) :: as) bs = true ↔
      (Entries.has as key = true ∨ ∃ b, Entries.findLast? bs key = some b ∧ samePart a b) ∧
        sameProperties as bs = true := by
  rw [sameProperties]
  cases Entries.findLast? bs key <;> simp [samePart]

/-- Every property has an equal last declaration on the other side. -/
theorem sameProperties_iff {as bs : List (Key × Model)} :
    sameProperties as bs = true ↔
      ∀ key a, Entries.findLast? as key = some a →
        ∃ b, Entries.findLast? bs key = some b ∧ samePart a b := by
  induction as with
  | nil => simp [sameProperties, Entries.findLast?]
  | cons entry as ih =>
      obtain ⟨key, a⟩ := entry
      rw [sameProperties_cons_iff, ih]
      constructor
      · rintro ⟨hfirst, hrest⟩ other x hfound
        rw [Entries.findLast?] at hfound
        split at hfound
        · next later hlater =>
          cases hfound
          exact hrest other x hlater
        · next hnone =>
          obtain ⟨hsame, hx⟩ := Option.ite_none_right_eq_some.mp hfound
          cases hx
          have hclass := (Key.same_iff _ _).mp hsame
          have hnew : ¬ Entries.has as key = true := by
            rw [Entries.has_iff, hclass]
            exact Entries.findLast?_eq_none_iff.mp hnone
          rw [← findLast?_congr hclass]
          exact hfirst.resolve_left hnew
      · intro h
        refine ⟨?_, fun other x hfound => h other x (by rw [Entries.findLast?, hfound])⟩
        by_cases hold : Entries.has as key = true
        · exact .inl hold
        · have hnone : Entries.findLast? as key = none :=
            Entries.findLast?_eq_none_iff.mpr fun hc => hold (Entries.has_iff.mpr hc)
          refine .inr (h key a ?_)
          rw [Entries.findLast?, hnone]
          simp [Key.same_iff]

theorem sameNames_iff {as bs : List Text} :
    sameNames as bs = true ↔ ∀ name, name ∈ as ↔ name ∈ bs := by
  simp only [sameNames, Bool.and_eq_true, List.all_eq_true, List.contains_iff_mem]
  exact ⟨fun h name => ⟨h.1 name, h.2 name⟩,
    fun h => ⟨fun name hname => (h name).mp hname, fun name hname => (h name).mpr hname⟩⟩

/-! ## Equal models permit the same values -/

/-- As many distinct values, each with an equal one on the other side, leave none uncovered. -/
theorem any_eq_of_sameValues {as bs : List Value} (has : ∀ a ∈ as, a.IsData)
    (hdistinct : as.Pairwise fun a b => a.jsonEqual b = false ∧ b.jsonEqual a = false)
    (hbs : ∀ b ∈ bs, b.IsData) (hlen : as.length = bs.length)
    (hsub : ∀ a ∈ as, ∃ b ∈ bs, a.jsonEqual b = true) {value : Value}
    (hv : value.distinctKeys = true) :
    as.any (value.jsonEqual ·) = bs.any (value.jsonEqual ·) := by
  have hapart : as.Pairwise fun a a' =>
      ∀ b ∈ bs, a.jsonEqual b = true → ¬ a'.jsonEqual b = true := by
    refine hdistinct.imp_of_mem fun {a a'} ha ha' hne b hb hab hab' => ?_
    have hback := (has a' ha').jsonEqual_symm (hbs b hb) hab'
    have heq := (has a ha).jsonEqual_trans (hbs b hb) (has a' ha') hab hback
    rw [hne.1] at heq
    cases heq
  have hcover := exists_partner_of_length_le (Nat.le_of_eq hlen.symm) hsub hapart
  rw [Bool.eq_iff_iff, List.any_eq_true, List.any_eq_true]
  constructor
  · rintro ⟨a, ha, hva⟩
    obtain ⟨b, hb, hab⟩ := hsub a ha
    exact ⟨b, hb, by rwa [← Value.jsonEqual_congr_right (has a ha) (hbs b hb) hv hab]⟩
  · rintro ⟨b, hb, hvb⟩
    obtain ⟨a, ha, hab⟩ := hcover b hb
    exact ⟨a, ha, by rwa [Value.jsonEqual_congr_right (has a ha) (hbs b hb) hv hab]⟩

theorem map_permits_eq_of_samePart {as bs : List Model} {value : Value}
    (h : List.Forall₂ samePart as bs) (hbs : ∀ b ∈ bs, Good b)
    (ih : ∀ a ∈ as, ∀ b, Good b → same a b = true → a.permits value = b.permits value) :
    as.map (·.permits value) = bs.map (·.permits value) := by
  induction h with
  | nil => rfl
  | @cons a b as bs hab hrest ihrest =>
      have hfirst : a.permits value = b.permits value := by
        rcases hab with hself | hsame
        · rw [eq_of_isSelf hself]
        · exact ih a List.mem_cons_self b (hbs b List.mem_cons_self) hsame
      have hothers := ihrest (fun b hb => hbs b (List.mem_cons_of_mem _ hb))
        fun a ha => ih a (List.mem_cons_of_mem _ ha)
      rw [List.map_cons, List.map_cons, hfirst, hothers]

theorem permits_wrap_congr {as bs : List Model} {v w : Value} (has : ∀ a ∈ as, Good a)
    (hbs : ∀ b ∈ bs, Good b) (h : as.map (·.permits v) = bs.map (·.permits w)) (m n : Mark)
    (combinator : Combinator) :
    permits (wrap m combinator as) v = permits (wrap n combinator bs) w := by
  rw [permits_wrap has, permits_wrap hbs, h]

theorem permits_wrap_eq_of_same {as bs : List Model} {value : Value} (has : ∀ a ∈ as, Good a)
    (hbs : ∀ b ∈ bs, Good b) (h : sameBranches as bs = true)
    (ih : ∀ a ∈ as, ∀ b, Good b → same a b = true → a.permits value = b.permits value)
    (m n : Mark) (combinator : Combinator) :
    permits (wrap m combinator as) value = permits (wrap n combinator bs) value := by
  have hmap := map_permits_eq_of_samePart (sameBranches_iff.mp h) hbs ih
  exact permits_wrap_congr has hbs hmap m n combinator

/-- As many keys, each declared on the other side, are the same keys. -/
theorem mem_classes_iff_of_sameProperties {as bs : List (Key × Model)}
    (hcount : Entries.keyCount as = Entries.keyCount bs) (h : sameProperties as bs = true)
    (c : KeyClass) : c ∈ Entries.classes as ↔ c ∈ Entries.classes bs := by
  refine Entries.mem_classes_iff_of_keyCount hcount (fun c hc => ?_) c
  obtain ⟨entry, hmem, rfl⟩ := List.mem_map.mp hc
  by_contra hnone
  have hmissing := Entries.findLast?_eq_none_iff.mpr hnone
  have hfound : Entries.findLast? as entry.1 ≠ none := fun hnone' =>
    Entries.findLast?_eq_none_iff.mp hnone' (Entries.mem_classes_of_mem hmem)
  obtain ⟨a, ha⟩ := Option.ne_none_iff_exists'.mp hfound
  obtain ⟨b, hb, -⟩ := sameProperties_iff.mp h entry.1 a ha
  rw [hmissing] at hb
  cases hb

/-- Both sides declare a field or neither does, so it is judged alike. -/
theorem permitsField_eq_of_same {as bs : List (Key × Model)} {field : Key × Value}
    (hbs : ∀ entry ∈ bs, Good entry.2) (hcount : Entries.keyCount as = Entries.keyCount bs)
    (h : sameProperties as bs = true) (additional : Bool)
    (ih : ∀ entry ∈ as, ∀ b, Good b → same entry.2 b = true →
      entry.2.permits field.2 = b.permits field.2) :
    permitsField as additional field = permitsField bs additional field := by
  cases ha : Entries.findLast? as field.1 with
  | none =>
      have hb : Entries.findLast? bs field.1 = none := by
        rw [Entries.findLast?_eq_none_iff] at ha ⊢
        rwa [← mem_classes_iff_of_sameProperties hcount h]
      rw [permitsField, permitsField, ha, hb]
  | some a =>
      obtain ⟨b, hb, hab⟩ := sameProperties_iff.mp h field.1 a ha
      rw [permitsField, permitsField, ha, hb]
      obtain ⟨key, hmem⟩ := Entries.mem_of_findLast? ha
      obtain ⟨key', hmem'⟩ := Entries.mem_of_findLast? hb
      rcases hab with hself | hsame
      · rw [eq_of_isSelf hself]
      · exact ih _ hmem b (hbs _ hmem') hsame

theorem permits_object_eq_of_same {as bs : List (Key × Model)} {r s : List Text} {x : Bool}
    (ha : Good (.object as r x)) (hb : Good (.object bs s x))
    (hcount : Entries.keyCount as = Entries.keyCount bs) (hprops : sameProperties as bs = true)
    (hnames : sameNames r s = true) {value : Value} (hv : value.distinctKeys = true)
    (ih : ∀ entry ∈ as, ∀ b, Good b → same entry.2 b = true → ∀ item : Value,
      item.distinctKeys = true → entry.2.permits item = b.permits item) :
    permits (.object as r x) value = permits (.object bs s x) value := by
  rw [Bool.eq_iff_iff, permits_object_iff ha hv, permits_object_iff hb hv]
  refine exists_congr fun fields => and_congr_right fun hfields => and_congr ?_ ?_
  · exact forall_congr' fun name => imp_congr_left (sameNames_iff.mp hnames name)
  · refine forall₂_congr fun name item => imp_congr_right fun hfound => ?_
    obtain ⟨hdistinct, hparts⟩ := Value.distinct_of_fields hv hfields
    have hitem := hparts _ ((Entries.mem_iff_find?_str hdistinct).mpr hfound)
    cases hb with
    | object good' declared' =>
        rw [permitsField_eq_of_same good' hcount hprops x fun entry hmem b hb hsame =>
          ih entry hmem b hb hsame item hitem]

/-- Equal models permit the same values. -/
theorem permits_eq_of_same {a b : Model} (ha : Good a) (hb : Good b) (h : a.same b = true)
    {value : Value} (hv : value.distinctKeys = true) : a.permits value = b.permits value := by
  induction ha generalizing b value with
  | unknown | never | null | boolean | number | string =>
      cases hb <;> first | rfl | simp [same] at h
  | literal data =>
      cases hb with
      | literal data' =>
          rw [same] at h
          rw [permits_literal, permits_literal, Value.jsonEqual_congr_right data data' hv h]
      | _ => simp [same] at h
  | enum nonempty data distinct =>
      cases hb with
      | enum nonempty' data' distinct' =>
          simp only [same, Bool.and_eq_true, decide_eq_true_eq, List.all_eq_true, enumerates,
            List.any_eq_true] at h
          rw [permits_enum, permits_enum]
          exact any_eq_of_sameValues data distinct data' h.1 h.2 hv
      | _ => simp [same] at h
  | array good ih =>
      cases hb with
      | @array items' good' =>
          rw [same, Bool.or_eq_true] at h
          rcases h with hself | hsame
          · rw [eq_of_isSelf hself]
          · rw [Bool.eq_iff_iff, permits_array_iff good, permits_array_iff good']
            refine exists_congr fun elements => and_congr_right fun helements => ?_
            refine forall₂_congr fun i element => imp_congr_right fun hi => ?_
            rw [ih good' hsame (Value.distinctKeys_of_mem_items hv helements element
              (List.mem_of_getElem? hi))]
      | _ => simp [same] at h
  | object good declared ih =>
      cases hb with
      | object good' declared' =>
          simp only [same, Bool.and_eq_true, decide_eq_true_eq] at h
          obtain ⟨⟨⟨hcount, hprops⟩, hnames⟩, rfl⟩ := h
          refine permits_object_eq_of_same (.object good declared) (.object good' declared') hcount
            hprops hnames hv fun entry hmem b hb hsame item hitem => ?_
          exact ih entry hmem hb hsame hitem
      | _ => simp [same] at h
  | oneOf nonempty good ih =>
      cases hb with
      | oneOf nonempty' good' =>
          exact permits_wrap_eq_of_same good good' (by simpa [same] using h)
            (fun a hmem b hb hsame => ih a hmem hb hsame hv) _ _ .oneOf
      | _ => simp [same] at h
  | anyOf nonempty good ih =>
      cases hb with
      | anyOf nonempty' good' =>
          exact permits_wrap_eq_of_same good good' (by simpa [same] using h)
            (fun a hmem b hb hsame => ih a hmem hb hsame hv) default default .anyOf
      | _ => simp [same] at h
  | allOf nonempty good ih =>
      cases hb with
      | allOf nonempty' good' =>
          exact permits_wrap_eq_of_same good good' (by simpa [same] using h)
            (fun a hmem b hb hsame => ih a hmem hb hsame hv) default default .allOf
      | _ => simp [same] at h

/-! ## A model permits both of two equal values or neither -/

section EqualValues

variable {v w : Value} (hv : v.distinctKeys = true) (hw : w.distinctKeys = true)
  (heq : v.jsonEqual w = true)

include hv hw heq

theorem permits_array_of_jsonEqual {items : Model} (good : Good items)
    (ih : ∀ {x y : Value}, x.distinctKeys = true → y.distinctKeys = true →
      x.jsonEqual y = true → items.permits x = items.permits y) :
    permits (.array items) v = permits (.array items) w := by
  rw [Bool.eq_iff_iff, permits_array_iff good, permits_array_iff good]
  rcases optionRel_cases (Value.items?_rel_of_jsonEqual heq) with
    ⟨hvs, hws⟩ | ⟨vs, ws, hvs, hws, hparts⟩
  · simp [hvs, hws]
  · simp only [hvs, hws, Option.some.injEq, exists_eq_left']
    refine forall_congr' fun i => optionRel_forall_iff (hparts i) fun x y hx hy hxy => ?_
    rw [ih (Value.distinctKeys_of_mem_items hv hvs x (List.mem_of_getElem? hx))
      (Value.distinctKeys_of_mem_items hw hws y (List.mem_of_getElem? hy)) hxy]

/-- Equal objects carry the same names with equal values, in any order. -/
theorem permits_object_of_jsonEqual {properties : List (Key × Model)} {required : List Text}
    {additional : Bool} (good : Good (.object properties required additional))
    (ih : ∀ entry ∈ properties, ∀ {x y : Value}, x.distinctKeys = true → y.distinctKeys = true →
      x.jsonEqual y = true → entry.2.permits x = entry.2.permits y) :
    permits (.object properties required additional) v =
      permits (.object properties required additional) w := by
  rw [Bool.eq_iff_iff, permits_object_iff good hv, permits_object_iff good hw]
  rcases optionRel_cases (Value.fields?_rel_of_jsonEqual hv hw heq) with
    ⟨hvs, hws⟩ | ⟨vs, ws, hvs, hws, hparts⟩
  · simp [hvs, hws]
  · obtain ⟨hvd, hvk⟩ := Value.distinct_of_fields hv hvs
    obtain ⟨hwd, hwk⟩ := Value.distinct_of_fields hw hws
    simp only [hvs, hws, Option.some.injEq, exists_eq_left']
    refine and_congr (forall₂_congr fun name _ => ?_) (forall_congr' fun name => ?_)
    · rw [Entries.has_iff_exists_find?, Entries.has_iff_exists_find?]
      exact ⟨fun ⟨x, hx⟩ => (optionRel_some_left (hparts name) hx).imp fun _ h => h.1,
        fun ⟨y, hy⟩ => (optionRel_some_right (hparts name) hy).imp fun _ h => h.1⟩
    · refine optionRel_forall_iff (hparts name) fun x y hx hy hxy => ?_
      have hx' := hvk _ ((Entries.mem_iff_find?_str hvd).mpr hx)
      have hy' := hwk _ ((Entries.mem_iff_find?_str hwd).mpr hy)
      cases hfound : Entries.findLast? properties (.str name) with
      | none => simp only [permitsField, hfound]
      | some property =>
          obtain ⟨key, hmem⟩ := Entries.mem_of_findLast? hfound
          have hprop : property.permits x = property.permits y := ih _ hmem hx' hy' hxy
          simp only [permitsField, hfound, hprop]

end EqualValues

/-- Equal values are permitted by the same models. -/
theorem permits_eq_of_jsonEqual {model : Model} (h : Good model) {v w : Value}
    (hv : v.distinctKeys = true) (hw : w.distinctKeys = true) (heq : v.jsonEqual w = true) :
    model.permits v = model.permits w := by
  induction h generalizing v w with
  | unknown => rw [permits_unknown, permits_unknown]
  | never => rw [permits_never, permits_never]
  | null | boolean | number | string =>
      rw [permits_of_primitive rfl, permits_of_primitive rfl, Value.kind?_eq_of_jsonEqual heq]
  | literal data =>
      rw [permits_literal, permits_literal, Value.jsonEqual_congr_left hv hw data heq]
  | enum nonempty data distinct =>
      rw [permits_enum, permits_enum, Bool.eq_iff_iff, List.any_eq_true, List.any_eq_true]
      refine exists_congr fun x => and_congr_right fun hx => ?_
      rw [Value.jsonEqual_congr_left hv hw (data x hx) heq]
  | array good ih => exact permits_array_of_jsonEqual hv hw heq good ih
  | object good declared ih =>
      exact permits_object_of_jsonEqual hv hw heq (.object good declared) ih
  | oneOf nonempty good ih =>
      have hmap := List.map_congr_left fun branch hmem => ih branch hmem hv hw heq
      exact permits_wrap_congr good good hmap _ _ .oneOf
  | anyOf nonempty good ih =>
      have hmap := List.map_congr_left fun branch hmem => ih branch hmem hv hw heq
      exact permits_wrap_congr good good hmap default default .anyOf
  | allOf nonempty good ih =>
      have hmap := List.map_congr_left fun branch hmem => ih branch hmem hv hw heq
      exact permits_wrap_congr good good hmap default default .allOf

end Model

end SchemaModel
