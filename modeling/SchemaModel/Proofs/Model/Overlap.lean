import SchemaModel.Model.Layers
import SchemaModel.Proofs.Model.Equality

/-!
# Overlap is intersection

Every function that makes a model out of good parts succeeds, makes a good model, and makes one
that permits exactly the values it should: `Model.Yields` says so in one word.  The lemmas go
through the ways of making a model one after another, and `Model.yields_overlap` puts them together
along the rules of `Model.overlap`.
-/

namespace SchemaModel

attribute [local instance] Platform.unlimited

namespace Combinator

theorem holds_singleton (combinator : Combinator) (x : Bool) : combinator.holds [x] = x := by
  cases combinator <;> cases x <;> rfl

/-- A union does not notice a branch that permits nothing. -/
theorem holds_map_filter {α : Type} {combinator : Combinator} (hunion : combinator ≠ .allOf)
    {xs : List α} {keep f : α → Bool} (h : ∀ x ∈ xs, keep x = false → f x = false) :
    combinator.holds ((xs.filter keep).map f) = combinator.holds (xs.map f) := by
  have hkeep : ∀ x ∈ xs, keep x = true ∧ f x = true ↔ f x = true := fun x hx =>
    and_iff_right_of_imp fun hf => by
      by_contra hdrop
      rw [Bool.not_eq_true] at hdrop
      rw [h x hx hdrop] at hf
      cases hf
  cases combinator with
  | oneOf =>
      rw [holds, holds, List.countP_map, List.countP_map, List.countP_filter]
      refine congrArg (fun n => decide (n = 1)) (List.countP_congr fun x hx => ?_)
      simpa [and_comm] using hkeep x hx
  | anyOf =>
      rw [holds, holds, List.any_map, List.any_map, List.any_filter, Bool.eq_iff_iff,
        List.any_eq_true, List.any_eq_true]
      refine exists_congr fun x => and_congr_right fun hx => ?_
      simpa using hkeep x hx
  | allOf => exact absurd rfl hunion

/-- A union distributes over what all of its branches share. -/
theorem holds_map_and {α : Type} {combinator : Combinator} (hunion : combinator ≠ .allOf)
    (xs : List α) (f : α → Bool) (y : Bool) :
    combinator.holds (xs.map fun x => f x && y) = (combinator.holds (xs.map f) && y) := by
  cases y with
  | true => simp
  | false =>
      cases combinator with
      | oneOf => simp [holds, List.countP_replicate]
      | anyOf => simp [holds]
      | allOf => exact absurd rfl hunion

end Combinator

namespace Model

/-- A good model of the values that pass a test. -/
def Denotes (model : Model) (test : Value → Bool) : Prop :=
  Good model ∧ ∀ value, value.distinctKeys = true → model.permits value = test value

/-- A way of making a model succeeds with a good model of the values that pass a test. -/
def Yields (made : Except Fault Model) (test : Value → Bool) : Prop :=
  ∃ model, made = .ok model ∧ Denotes model test

theorem Yields.congr {made : Except Fault Model} {test other : Value → Bool}
    (h : Yields made test) (heq : ∀ value, value.distinctKeys = true → test value = other value) :
    Yields made other := by
  obtain ⟨model, hmade, hgood, hexact⟩ := h
  exact ⟨model, hmade, hgood, fun value hv => (hexact value hv).trans (heq value hv)⟩

theorem Good.yields {model : Model} (h : Good model) : Yields (.ok model) model.permits :=
  ⟨model, rfl, h, fun _ _ => rfl⟩

/-! ## Literals and enumerations -/

theorem yields_ofLiteral {value : Value} (h : value.IsData) (mark : Mark) :
    Yields (ofLiteral value mark) (·.jsonEqual value) := by
  refine ⟨.literal mark value, ?_, .literal h, fun v _ => permits_literal mark value v⟩
  rw [ofLiteral, if_pos (Value.isData_iff.mp h).1]

/-- No value that is kept equals one already seen. -/
theorem jsonEqual_seen_of_mem_distinctValues {seen values : List Value} {value : Value}
    (h : value ∈ distinctValues seen values) : ∀ old ∈ seen, value.jsonEqual old = false := by
  induction values generalizing seen with
  | nil => cases h
  | cons first values ih =>
      rw [distinctValues] at h
      split at h
      · exact ih h
      · next hnew =>
        simp only [List.any_eq_true, not_exists, not_and, Bool.not_eq_true] at hnew
        rcases List.mem_cons.mp h with rfl | hmem
        · exact hnew
        · exact fun old hold => ih hmem old (List.mem_append_left _ hold)

theorem pairwise_distinctValues {values : List Value} (h : ∀ value ∈ values, value.IsData)
    (seen : List Value) :
    (distinctValues seen values).Pairwise fun a b =>
      a.jsonEqual b = false ∧ b.jsonEqual a = false := by
  induction values generalizing seen with
  | nil => exact .nil
  | cons value values ih =>
      have hrest : ∀ value ∈ values, value.IsData := fun x hx => h x (List.mem_cons_of_mem _ hx)
      rw [distinctValues]
      split
      · exact ih hrest seen
      · refine List.pairwise_cons.mpr ⟨fun later hlater => ?_, ih hrest _⟩
        have hback := jsonEqual_seen_of_mem_distinctValues hlater value (by simp)
        have hdata := hrest later ((distinctValues_sublist _ _).subset hlater)
        refine ⟨?_, hback⟩
        by_contra heq
        rw [Bool.not_eq_false] at heq
        rw [(h value List.mem_cons_self).jsonEqual_symm hdata heq] at hback
        cases hback

/-- Dropping repetitions keeps the first of the values that something equals. -/
theorem find?_distinctValues {values : List Value} (h : ∀ value ∈ values, value.IsData)
    (seen : List Value) (hseen : ∀ value ∈ seen, value.IsData) {v : Value}
    (hv : v.distinctKeys = true) :
    (seen ++ distinctValues seen values).find? (v.jsonEqual ·) =
      (seen ++ values).find? (v.jsonEqual ·) := by
  induction values generalizing seen with
  | nil => rfl
  | cons value values ih =>
      have hdata := h value List.mem_cons_self
      have hrest : ∀ value ∈ values, value.IsData := fun x hx => h x (List.mem_cons_of_mem _ hx)
      rw [distinctValues]
      split
      · next hold =>
        rw [ih hrest seen hseen, List.find?_append, List.find?_append]
        cases hfound : seen.find? (v.jsonEqual ·) with
        | some first => rfl
        | none =>
            -- A value that is dropped equals an earlier one, which is found in its place.
            obtain ⟨old, hmem, heq⟩ := List.any_eq_true.mp hold
            have hsame := Value.jsonEqual_congr_right hdata (hseen old hmem) hv heq
            have hmissed := List.find?_eq_none.mp hfound old hmem
            rw [List.find?_cons_of_neg (by rwa [hsame])]
      · have hboth : ∀ x ∈ seen ++ [value], x.IsData :=
          List.forall_mem_append.mpr ⟨hseen, List.forall_mem_singleton.mpr hdata⟩
        simpa using ih hrest (seen ++ [value]) hboth

theorem any_distinctValues {values : List Value} (h : ∀ value ∈ values, value.IsData) {v : Value}
    (hv : v.distinctKeys = true) :
    (distinctValues [] values).any (v.jsonEqual ·) = values.any (v.jsonEqual ·) := by
  have hfind := find?_distinctValues h [] (List.forall_mem_nil _) hv
  rw [List.nil_append, List.nil_append] at hfind
  rw [← List.isSome_find?, hfind, List.isSome_find?]

/-- Dropping repeated values permits no less, as equality is transitive. -/
theorem yields_ofEnum {values : List Value} (hne : values ≠ [])
    (h : ∀ value ∈ values, value.IsData) (mark : Mark) :
    Yields (ofEnum values mark) fun v => values.any (v.jsonEqual ·) := by
  have hjson : values.find? (fun value => !value.isJson) = none := by
    rw [List.find?_eq_none]
    intro value hmem
    simp [(Value.isData_iff.mp (h value hmem)).1]
  refine ⟨.enum mark (distinctValues [] values), ?_, .enum ?_ ?_ ?_, fun v hv => ?_⟩
  · rw [ofEnum, hjson]
    simp [hne]
  · obtain ⟨first, rest, rfl⟩ := List.exists_cons_of_ne_nil hne
    simp [distinctValues]
  · exact fun value hmem => h value ((distinctValues_sublist _ _).subset hmem)
  · exact pairwise_distinctValues h []
  · rw [permits_enum]
    exact any_distinctValues h hv

/-- Keeping the values that a model permits keeps what both permit. -/
theorem any_filter_permits {values : List Value} (h : ∀ value ∈ values, value.IsData)
    {other : Model} (hother : Good other) {v : Value} (hv : v.distinctKeys = true) :
    (values.filter other.permits).any (v.jsonEqual ·) =
      (values.any (v.jsonEqual ·) && other.permits v) := by
  have hagree : ∀ value ∈ values, v.jsonEqual value = true →
      other.permits v = other.permits value := fun value hmem heq =>
    permits_eq_of_jsonEqual hother hv (h value hmem).distinctKeys heq
  rw [Bool.eq_iff_iff, Bool.and_eq_true, List.any_eq_true, List.any_eq_true]
  constructor
  · rintro ⟨value, hmem, heq⟩
    obtain ⟨hmem, hpermits⟩ := List.mem_filter.mp hmem
    exact ⟨⟨value, hmem, heq⟩, by rw [hagree value hmem heq, hpermits]⟩
  · rintro ⟨⟨value, hmem, heq⟩, hpermits⟩
    exact ⟨value, List.mem_filter.mpr ⟨hmem, by rw [← hagree value hmem heq, hpermits]⟩, heq⟩

/-- The values that are left are those of the enumeration that the other model permits. -/
theorem yields_narrow {values : List Value} (h : ∀ value ∈ values, value.IsData) {other : Model}
    (hother : Good other) (mark : Mark) :
    Yields (narrow values other mark) fun v =>
      values.any (v.jsonEqual ·) && other.permits v := by
  have hkept : ∀ value ∈ values.filter other.permits, value.IsData := fun value hmem =>
    h value (List.mem_filter.mp hmem).1
  have hfilter : values.filterM (other.accepts ·) = .ok (values.filter other.permits) :=
    filterM_eq_ok fun value _ => hother.accepts_eq value
  refine Yields.congr ?_ fun v hv => any_filter_permits h hother hv
  rw [narrow, hfilter]
  simp only [bind, Except.bind]
  generalize values.filter other.permits = kept at hkept
  match kept with
  | [] => exact Good.never.yields.congr fun v _ => permits_never v
  | [value] =>
      refine (yields_ofLiteral (hkept value List.mem_cons_self) mark).congr fun v _ => ?_
      simp
  | first :: second :: rest => exact yields_ofEnum (List.cons_ne_nil _ _) hkept mark

/-- A single value narrowed by a model stays, or nothing does. -/
theorem yields_literal_if {own : Mark} {value : Value} (h : value.IsData) {other : Model}
    (hother : Good other) :
    Yields (do if ← other.accepts value then .ok (literal own value) else .ok never) fun v =>
      permits (literal own value) v && other.permits v := by
  rw [hother.accepts_eq]
  have hagree : ∀ v : Value, v.distinctKeys = true → v.jsonEqual value = true →
      other.permits v = other.permits value := fun v hv heq =>
    permits_eq_of_jsonEqual hother hv h.distinctKeys heq
  cases hpermits : other.permits value with
  | true =>
      refine (Good.literal h).yields.congr fun v hv => ?_
      rw [permits_literal]
      cases heq : v.jsonEqual value with
      | false => rfl
      | true => rw [hagree v hv heq, hpermits]; rfl
  | false =>
      refine Good.never.yields.congr fun v hv => ?_
      rw [permits_never, permits_literal]
      cases heq : v.jsonEqual value with
      | false => rfl
      | true => rw [hagree v hv heq, hpermits]; rfl

/-! ## Combinations -/

theorem Good.stray?_eq_none {model : Model} (h : Good model) : model.stray? = none := by
  cases h <;> rfl

theorem yields_combine {branches : List Model} (hne : branches ≠ [])
    (h : ∀ branch ∈ branches, Good branch) (combinator : Combinator) (mark : Mark) :
    Yields (combine combinator branches mark) fun v =>
      combinator.holds (branches.map (·.permits v)) := by
  refine ⟨wrap mark combinator branches, ?_, .wrap hne h mark combinator, fun v _ =>
    permits_wrap h mark combinator v⟩
  have hmodels : branches.findSome? stray? = none := by
    rw [List.findSome?_eq_none_iff]
    exact fun branch hmem => (h branch hmem).stray?_eq_none
  rw [combine, hmodels]
  simp [hne]

/-- A part that permits nothing adds nothing to a union of either kind. -/
theorem yields_gather {combinator : Combinator} (hunion : combinator ≠ .allOf)
    {parts : List Model} (h : ∀ part ∈ parts, Good part) (mark : Mark) :
    Yields (gather combinator parts mark) fun v =>
      combinator.holds (parts.map (·.permits v)) := by
  have hkept : ∀ part ∈ parts.filter (fun part => !part.isNever), Good part := fun part hmem =>
    h part (List.mem_filter.mp hmem).1
  have hdropped : ∀ v : Value, combinator.holds
      ((parts.filter fun part => !part.isNever).map (·.permits v)) =
        combinator.holds (parts.map (·.permits v)) := by
    intro v
    refine Combinator.holds_map_filter hunion fun part _ hnever => ?_
    cases part <;> simp_all [isNever]
  refine Yields.congr ?_ fun v _ => hdropped v
  rw [gather]
  generalize parts.filter (fun part => !part.isNever) = kept at hkept
  match kept with
  | [] =>
      refine Good.never.yields.congr fun v _ => ?_
      cases combinator with
      | oneOf | anyOf => simp [Combinator.holds]
      | allOf => exact absurd rfl hunion
  | [part] =>
      refine (hkept part List.mem_cons_self).yields.congr fun v _ => ?_
      exact (combinator.holds_singleton _).symm
  | first :: second :: rest => exact yields_combine (List.cons_ne_nil _ _) hkept combinator mark

/-- Models made one after another are good together, and permit what each was made for. -/
theorem yields_mapM {α : Type} {xs : List α} {f : α → Except Fault Model}
    {test : α → Value → Bool} (h : ∀ x ∈ xs, Yields (f x) (test x)) :
    ∃ parts, xs.mapM f = .ok parts ∧ (∀ part ∈ parts, Good part) ∧
      ∀ v, v.distinctKeys = true → parts.map (·.permits v) = xs.map (test · v) := by
  induction xs with
  | nil => exact ⟨[], rfl, by simp, fun _ _ => rfl⟩
  | cons x xs ih =>
      obtain ⟨part, hpart, hgood, hexact⟩ := h x List.mem_cons_self
      obtain ⟨parts, hparts, hgoods, hexacts⟩ := ih fun y hy => h y (List.mem_cons_of_mem x hy)
      refine ⟨part :: parts, ?_, List.forall_mem_cons.mpr ⟨hgood, hgoods⟩, fun v hv => ?_⟩
      · rw [List.mapM_cons, hpart, hparts]
        rfl
      · rw [List.map_cons, List.map_cons, hexact v hv, hexacts v hv]

theorem map_attach_zipIdx {α β : Type} (xs : List α) (g : α → β) :
    xs.attach.zipIdx.map (fun x => g x.1.1) = xs.map g := by
  have hfst := congrArg (List.map fun x : {x // x ∈ xs} => g x.1) (List.zipIdx_map_fst 0 xs.attach)
  rw [List.map_map] at hfst
  exact hfst.trans (List.attach_map_val ..)

/-- A union is met branch by branch. -/
theorem yields_distributed {combinator : Combinator} (hunion : combinator ≠ .allOf)
    {branches : List Model} (hgood : ∀ branch ∈ branches, Good branch) (own : Mark) (other : Model)
    {f : {branch // branch ∈ branches} × Nat → Except Fault Model}
    (h : ∀ x, Yields (f x) fun v => x.1.1.permits v && other.permits v) (mark : Mark) :
    Yields (do gather combinator (← branches.attach.zipIdx.mapM f) mark) fun v =>
      (wrap own combinator branches).permits v && other.permits v := by
  obtain ⟨parts, hparts, hgoods, hexact⟩ :=
    yields_mapM fun x (_ : x ∈ branches.attach.zipIdx) => h x
  rw [hparts]
  refine (yields_gather hunion hgoods mark).congr fun v hv => ?_
  rw [permits_wrap hgood, hexact v hv, ← Combinator.holds_map_and hunion]
  apply congrArg combinator.holds
  exact map_attach_zipIdx branches fun branch => branch.permits v && other.permits v

theorem Good.members_ne_nil {model : Model} (h : Good model) : model.members ≠ [] := by
  cases h with
  | allOf nonempty good => exact nonempty
  | _ => exact List.cons_ne_nil _ _

theorem Good.of_mem_members {model : Model} (h : Good model) :
    ∀ member ∈ model.members, Good member := by
  intro member hmem
  cases h with
  | allOf nonempty good => exact good member hmem
  | _ =>
      cases List.mem_singleton.mp hmem
      constructor <;> assumption

theorem Good.permits_iff_members {model : Model} (h : Good model) (v : Value) :
    model.permits v = true ↔ ∀ member ∈ model.members, member.permits v = true := by
  cases h with
  | allOf nonempty good => exact permits_allOf_iff good v
  | _ => simp [members]

/-- An intersection is met member by member. -/
theorem yields_members {a b : Model} (ha : Good a) (hb : Good b) (mark : Mark) :
    Yields (combine .allOf (a.members ++ b.members) mark) fun v => a.permits v && b.permits v := by
  have hne : a.members ++ b.members ≠ [] := fun hnil =>
    ha.members_ne_nil (List.append_eq_nil_iff.mp hnil).1
  have hgood : ∀ member ∈ a.members ++ b.members, Good member := fun member hmem =>
    (List.mem_append.mp hmem).elim (ha.of_mem_members member) (hb.of_mem_members member)
  refine (yields_combine hne hgood .allOf mark).congr fun v _ => ?_
  rw [Combinator.holds, List.all_map, Bool.eq_iff_iff, List.all_eq_true, List.forall_mem_append,
    Bool.and_eq_true, ha.permits_iff_members, hb.permits_iff_members]
  rfl

/-! ## Arrays -/

theorem denotes_array {items : Model} {test : Value → Bool} (h : Denotes items test) :
    Denotes (.array items) fun v =>
      match v.items? with
      | none => false
      | some elements => elements.all test := by
  obtain ⟨hgood, hexact⟩ := h
  refine ⟨.array hgood, fun v hv => ?_⟩
  rw [permits_array hgood]
  cases hitems : v.items? with
  | none => simp only [hitems]
  | some elements =>
      have hkeys := Value.distinctKeys_of_mem_items hv hitems
      simp only [hitems]
      rw [Bool.eq_iff_iff, List.all_eq_true, List.all_eq_true]
      refine forall₂_congr fun element hmem => ?_
      rw [hexact element (hkeys element hmem)]

theorem yields_array {a b : Model} (ha : Good a) (hb : Good b) {made : Except Fault Model}
    (h : Yields made fun v => a.permits v && b.permits v) :
    Yields (do .ok (.array (← made))) fun v =>
      permits (.array a) v && permits (.array b) v := by
  obtain ⟨items, hmade, hitems⟩ := h
  have hyields : Yields (do .ok (.array (← made))) _ :=
    ⟨.array items, by rw [hmade]; rfl, denotes_array hitems⟩
  refine hyields.congr fun v _ => ?_
  rw [permits_array ha, permits_array hb]
  cases v.items? with
  | none => rfl
  | some elements =>
      rw [Bool.eq_iff_iff]
      simp only [Bool.and_eq_true, List.all_eq_true]
      exact ⟨fun hall => ⟨fun x hx => (hall x hx).1, fun x hx => (hall x hx).2⟩,
        fun hall x hx => ⟨hall.1 x hx, hall.2 x hx⟩⟩

/-! ## Objects -/

theorem ofObject_eq_ok {properties : List (Key × Model)} {required : List Text}
    (h : ∀ name ∈ required, Entries.has properties (.str name) = true) (additional : Bool) :
    ofObject properties required additional = .ok (.object properties required additional) := by
  have hnone : required.filter (fun name => !Entries.has properties (.str name)) = [] := by
    rw [List.filter_eq_nil_iff]
    intro name hname
    simp [h name hname]
  rw [ofObject, hnone]
  rfl

/-- How a merged object settles a property: by a model of the items that pass a test, or, when
none does, by leaving it out of a closed object. -/
inductive Settled (additional : Bool) (test : Value → Bool) : Option Model → Prop
  | kept {model : Model} (good : Good model)
      (exact : ∀ item, item.distinctKeys = true → model.permits item = test item) :
      Settled additional test (some model)
  | dropped (closed : additional = false) (refused : ∀ item, test item = false) :
      Settled additional test none

/-- The properties collected from settled ones under the given keys. -/
structure Collected (required : List Text) (additional : Bool) (test : Key × Value → Bool)
    (keys : List Key) (properties : List (Key × Model)) : Prop where
  good : ∀ entry ∈ properties, Good entry.2
  declared : ∀ name ∈ required, .str name ∈ keys → Entries.has properties (.str name) = true
  inside : Entries.classes properties ⊆ keys.map Key.keyClass
  exact : ∀ key ∈ keys, ∀ item, item.distinctKeys = true →
    permitsField properties additional (key, item) = test (key, item)

theorem findLast?_cons_self {properties : List (Key × Model)} {key : Key}
    (h : key.keyClass ∉ Entries.classes properties) (model : Model) :
    Entries.findLast? ((key, model) :: properties) key = some model := by
  rw [Entries.findLast?, Entries.findLast?_eq_none_iff.mpr h]
  simp [Key.same_iff]

theorem findLast?_cons_ne {properties : List (Key × Model)} {key other : Key}
    (h : key.keyClass ≠ other.keyClass) (model : Model) :
    Entries.findLast? ((key, model) :: properties) other = Entries.findLast? properties other := by
  have hdiffers : ¬ key.same other = true := fun hsame => h ((Key.same_iff _ _).mp hsame)
  rw [Entries.findLast?]
  cases Entries.findLast? properties other <;> simp [hdiffers]

section Collect

variable {required : List Text} {additional : Bool} {test : Key × Value → Bool} {key : Key}
  {keys : List Key} {properties : List (Key × Model)}

theorem Collected.nil : Collected required additional test [] [] :=
  ⟨by simp, by simp, by simp, by simp⟩

/-- A property that is kept answers for its key. -/
theorem Collected.keep (h : Collected required additional test keys properties)
    (hnew : key.keyClass ∉ keys.map Key.keyClass) {model : Model} (good : Good model)
    (exact : ∀ item, item.distinctKeys = true → model.permits item = test (key, item)) :
    Collected required additional test (key :: keys) ((key, model) :: properties) where
  good := List.forall_mem_cons.mpr ⟨good, h.good⟩
  declared := by
    intro name hname hmem
    rw [Entries.has_iff, Entries.classes_cons]
    rcases List.mem_cons.mp hmem with rfl | hmem
    · exact List.mem_cons_self
    · exact List.mem_cons_of_mem _ (Entries.has_iff.mp (h.declared name hname hmem))
  inside := List.cons_subset_cons _ h.inside
  exact := by
    intro other hmem item hitem
    rcases List.mem_cons.mp hmem with rfl | hmem
    · rw [permitsField, findLast?_cons_self fun hc => hnew (h.inside hc)]
      exact exact item hitem
    · have hne : key.keyClass ≠ other.keyClass := fun heq =>
        hnew (heq ▸ List.mem_map_of_mem hmem)
      rw [permitsField, findLast?_cons_ne hne]
      exact h.exact other hmem item hitem

/-- In a closed object no property is needed for a key that permits nothing. -/
theorem Collected.drop (h : Collected required additional test keys properties)
    (hnew : key.keyClass ∉ keys.map Key.keyClass)
    (hneeded : ¬ required.any (fun name => key.same (.str name)) = true)
    (closed : additional = false) (refused : ∀ item, test (key, item) = false) :
    Collected required additional test (key :: keys) properties where
  good := h.good
  declared := by
    intro name hname hmem
    rcases List.mem_cons.mp hmem with rfl | hmem
    · exact absurd (List.any_eq_true.mpr ⟨name, hname, by simp⟩) hneeded
    · exact h.declared name hname hmem
  inside := List.subset_cons_of_subset _ h.inside
  exact := by
    intro other hmem item hitem
    rcases List.mem_cons.mp hmem with rfl | hmem
    · have hnone := Entries.findLast?_eq_none_iff.mpr fun hc => hnew (h.inside hc)
      rw [permitsField, hnone, refused item, closed]
    · exact h.exact other hmem item hitem

/-- Settled properties are collected, or a required one refuses every item. -/
theorem collectProperties_cases {α : Type} (required : List Text)
    (part : α → Except Fault (Key × Option Model)) {name : α → Key} {xs : List α}
    (hnodup : (xs.map fun x => (name x).keyClass).Nodup)
    (h : ∀ x ∈ xs, ∃ found, part x = .ok (name x, found) ∧
      Settled additional (fun item => test (name x, item)) found) :
    (collectProperties required part xs = .ok none ∧ ∃ needed ∈ required,
      ∀ item, item.distinctKeys = true → test (.str needed, item) = false) ∨
    ∃ properties, collectProperties required part xs = .ok (some properties) ∧
      Collected required additional test (xs.map name) properties := by
  induction xs with
  | nil => exact .inr ⟨[], rfl, .nil⟩
  | cons x xs ih =>
      obtain ⟨hnew, hrest⟩ := List.nodup_cons.mp hnodup
      have hnew' : (name x).keyClass ∉ (xs.map name).map Key.keyClass := by
        rwa [List.map_map]
      obtain ⟨found, hpart, hsettled⟩ := h x List.mem_cons_self
      have hothers := ih hrest fun y hy => h y (List.mem_cons_of_mem x hy)
      rw [collectProperties, hpart]
      simp only [bind, Except.bind]
      -- A property that refuses every item stops the collection only when its name is required.
      cases hsettled with
      | dropped closed refused =>
          by_cases hneeded : required.any (fun other => (name x).same (.str other)) = true
          · obtain ⟨other, hother, hsame⟩ := List.any_eq_true.mp hneeded
            rw [Key.same_str_iff] at hsame
            exact .inl ⟨by simp only [hneeded, if_true],
              other, hother, fun item _ => hsame ▸ refused item⟩
          · simp only [hneeded, Bool.false_eq_true, if_false]
            rcases hothers with hblocked | ⟨properties, hcollect, hall⟩
            · exact .inl hblocked
            · exact .inr ⟨properties, hcollect, hall.drop hnew' hneeded closed refused⟩
      | @kept model good exact =>
          by_cases hblock : (required.any (fun other => (name x).same (.str other)) &&
              model.isNever) = true
          · obtain ⟨hneeded, hnever⟩ := (Bool.and_eq_true _ _).mp hblock
            obtain ⟨other, hother, hsame⟩ := List.any_eq_true.mp hneeded
            rw [Key.same_str_iff] at hsame
            refine .inl ⟨by simp only [hblock, if_true], other, hother, fun item hitem => ?_⟩
            cases model <;> simp [isNever] at hnever
            rw [← hsame, ← exact item hitem, permits_never]
          · simp only [hblock, Bool.false_eq_true, if_false]
            rcases hothers with ⟨hnone, hblocked⟩ | ⟨properties, hcollect, hall⟩
            · exact .inl ⟨by rw [hnone]; rfl, hblocked⟩
            · exact .inr ⟨(name x, model) :: properties, by rw [hcollect]; rfl,
                hall.keep hnew' good exact⟩

end Collect

theorem mem_joinNames {as bs : List Text} {name : Text} :
    name ∈ joinNames as bs ↔ name ∈ as ∨ name ∈ bs := by
  simp only [joinNames, List.mem_append, List.mem_filter, Bool.not_eq_true', List.contains_eq_mem,
    decide_eq_false_iff_not]
  tauto

section Merge

variable {as bs : List (Key × Model)} {r s : List Text} {x y : Bool}

/-- The test that a field passes on both sides. -/
def permitsBoth (as : List (Key × Model)) (x : Bool) (bs : List (Key × Model)) (y : Bool)
    (field : Key × Value) : Bool :=
  permitsField as x field && permitsField bs y field

/-- Two objects together ask for the names of either and judge each field by both. -/
theorem permits_both_iff (ha : Good (.object as r x)) (hb : Good (.object bs s y)) {v : Value}
    (hv : v.distinctKeys = true) :
    (permits (.object as r x) v && permits (.object bs s y) v) = true ↔
      ∃ fields, v.fields? = some fields ∧
        (∀ name ∈ joinNames r s, Entries.has fields (.str name) = true) ∧
        ∀ name item, Entries.find? fields (.str name) = some item →
          permitsBoth as x bs y (.str name, item) = true := by
  rw [Bool.and_eq_true, permits_object_iff ha hv, permits_object_iff hb hv]
  simp only [mem_joinNames, permitsBoth, Bool.and_eq_true]
  constructor
  · rintro ⟨⟨fields, hfields, hr, hx⟩, ⟨fields', hfields', hs, hy⟩⟩
    rw [hfields] at hfields'
    cases hfields'
    exact ⟨fields, hfields, fun name hname => hname.elim (hr name) (hs name),
      fun name item hfound => ⟨hx name item hfound, hy name item hfound⟩⟩
  · rintro ⟨fields, hfields, hnames, hall⟩
    exact ⟨⟨fields, hfields, fun name hname => hnames name (.inl hname),
        fun name item hfound => (hall name item hfound).1⟩,
      ⟨fields, hfields, fun name hname => hnames name (.inr hname),
        fun name item hfound => (hall name item hfound).2⟩⟩

/-- A required property that refuses every item leaves nothing. -/
theorem yields_never_of_refused (ha : Good (.object as r x)) (hb : Good (.object bs s y))
    (h : ∃ name ∈ joinNames r s, ∀ item, item.distinctKeys = true →
      permitsBoth as x bs y (.str name, item) = false) :
    Yields (.ok .never) fun v => permits (.object as r x) v && permits (.object bs s y) v := by
  obtain ⟨name, hname, hrefused⟩ := h
  refine Good.never.yields.congr fun v hv => ?_
  rw [permits_never, eq_comm, ← Bool.not_eq_true, permits_both_iff ha hb hv]
  rintro ⟨fields, hfields, hnames, hall⟩
  obtain ⟨item, hfound⟩ := Entries.has_iff_exists_find?.mp (hnames name hname)
  obtain ⟨hdistinct, hkeys⟩ := Value.distinct_of_fields hv hfields
  have hitem := hkeys _ ((Entries.mem_iff_find?_str hdistinct).mpr hfound)
  have htest := hall name item hfound
  rw [hrefused item hitem] at htest
  cases htest

theorem str_mem_keys_iff {entries : List (Key × Model)} {name : Text} :
    .str name ∈ entries.map Prod.fst ↔ .text name ∈ Entries.classes entries := by
  simp only [Entries.classes, List.mem_map, Key.keyClass_eq_text_iff]

theorem mem_rightOnly {entry : Key × Model} :
    entry ∈ rightOnly as bs ↔
      entry ∈ Entries.ofPairs bs ∧ entry.1.keyClass ∉ Entries.classes as := by
  rw [rightOnly, List.mem_filter, Bool.not_eq_true', ← Bool.not_eq_true, Entries.has_iff,
    Entries.mem_classes_ofPairs]

theorem text_mem_rightOnly_iff {name : Text} :
    .text name ∈ Entries.classes (rightOnly as bs) ↔
      .text name ∈ Entries.classes bs ∧ .text name ∉ Entries.classes as := by
  have hpairs := Entries.mem_classes_ofPairs bs (.str name)
  rw [Key.keyClass_str] at hpairs
  rw [← hpairs]
  simp only [Entries.classes, List.mem_map, mem_rightOnly]
  constructor
  · rintro ⟨entry, ⟨hmem, hnot⟩, hclass⟩
    exact ⟨⟨entry, hmem, hclass⟩, fun hc => hnot (by rwa [hclass])⟩
  · rintro ⟨⟨entry, hmem, hclass⟩, hnot⟩
    exact ⟨entry, ⟨hmem, fun hc => hnot (by rwa [hclass] at hc)⟩, hclass⟩

variable {shared rest : List (Key × Model)}

theorem permitsField_append_of_not_mem_right {field : Key × Value}
    (h : field.1.keyClass ∉ Entries.classes rest) (additional : Bool) :
    permitsField (shared ++ rest) additional field = permitsField shared additional field := by
  rw [permitsField, permitsField, Entries.findLast?_append, Entries.findLast?_eq_none_iff.mpr h,
    Option.none_or]

theorem permitsField_append_of_not_mem_left {field : Key × Value}
    (h : field.1.keyClass ∉ Entries.classes shared) (additional : Bool) :
    permitsField (shared ++ rest) additional field = permitsField rest additional field := by
  rw [permitsField, permitsField, Entries.findLast?_append, Entries.findLast?_eq_none_iff.mpr h,
    Option.or_none]

theorem permitsField_of_not_mem {properties : List (Key × Model)} {field : Key × Value}
    (h : field.1.keyClass ∉ Entries.classes properties) (additional : Bool) :
    permitsField properties additional field = additional := by
  rw [permitsField, Entries.findLast?_eq_none_iff.mpr h]

theorem Collected.mem_classes {required : List Text} {additional : Bool}
    {test : Key × Value → Bool} {entries properties : List (Key × Model)}
    (h : Collected required additional test (entries.map Prod.fst) properties) {c : KeyClass}
    (hc : c ∈ Entries.classes properties) : c ∈ Entries.classes entries := by
  have hin := h.inside hc
  rwa [List.map_map] at hin

section Collected

variable (hshared : Collected (joinNames r s) (x && y) (permitsBoth as x bs y)
    ((Entries.ofPairs as).map Prod.fst) shared)
  (hrest : Collected (joinNames r s) (x && y) (permitsBoth as x bs y)
    ((rightOnly as bs).map Prod.fst) rest)

include hshared hrest

/-- A field is judged by the merged properties as by both sides. -/
theorem permitsField_merged (name : Text) {item : Value} (hitem : item.distinctKeys = true) :
    permitsField (shared ++ rest) (x && y) (.str name, item) =
      permitsBoth as x bs y (.str name, item) := by
  have hpairs := Entries.mem_classes_ofPairs as (.str name)
  rw [Key.keyClass_str] at hpairs
  by_cases hl : .text name ∈ Entries.classes as
  · have hnot : .text name ∉ Entries.classes rest := fun hc =>
      (text_mem_rightOnly_iff.mp (hrest.mem_classes hc)).2 hl
    rw [permitsField_append_of_not_mem_right hnot]
    exact hshared.exact _ (str_mem_keys_iff.mpr (hpairs.mpr hl)) item hitem
  · have hnot : .text name ∉ Entries.classes shared := fun hc =>
      hl (hpairs.mp (hshared.mem_classes hc))
    rw [permitsField_append_of_not_mem_left hnot]
    by_cases hr : .text name ∈ Entries.classes bs
    · have hkey := text_mem_rightOnly_iff.mpr ⟨hr, hl⟩
      exact hrest.exact _ (str_mem_keys_iff.mpr hkey) item hitem
    · have hnone : .text name ∉ Entries.classes rest := fun hc =>
        hr (text_mem_rightOnly_iff.mp (hrest.mem_classes hc)).1
      rw [permitsField_of_not_mem hnone, permitsBoth, permitsField_of_not_mem hl,
        permitsField_of_not_mem hr]

/-- Each name that either side requires is declared in the merged object. -/
theorem has_merged (ha : Good (.object as r x)) (hb : Good (.object bs s y)) {name : Text}
    (hname : name ∈ joinNames r s) : Entries.has (shared ++ rest) (.str name) = true := by
  have hdeclared : .text name ∈ Entries.classes as ∨ .text name ∈ Entries.classes bs := by
    cases ha with
    | object _ hr =>
        cases hb with
        | object _ hs =>
            exact (mem_joinNames.mp hname).imp (fun h => Entries.has_iff.mp (hr name h))
              fun h => Entries.has_iff.mp (hs name h)
  rw [Entries.has, List.any_append, Bool.or_eq_true]
  by_cases hl : .text name ∈ Entries.classes as
  · have hkey := (Entries.mem_classes_ofPairs as (.str name)).mpr hl
    exact .inl (hshared.declared name hname (str_mem_keys_iff.mpr hkey))
  · have hkey := text_mem_rightOnly_iff.mpr ⟨hdeclared.resolve_left hl, hl⟩
    exact .inr (hrest.declared name hname (str_mem_keys_iff.mpr hkey))

/-- The properties of both sides, the shared ones first, make up the merged object. -/
theorem yields_merged (ha : Good (.object as r x)) (hb : Good (.object bs s y)) :
    Yields (ofObject (shared ++ rest) (joinNames r s) (x && y)) fun v =>
      permits (.object as r x) v && permits (.object bs s y) v := by
  have hdeclared : ∀ name ∈ joinNames r s, Entries.has (shared ++ rest) (.str name) = true :=
    fun name hname => has_merged hshared hrest ha hb hname
  have hgood : Good (.object (shared ++ rest) (joinNames r s) (x && y)) := by
    refine .object (fun entry hmem => ?_) hdeclared
    exact (List.mem_append.mp hmem).elim (hshared.good entry) (hrest.good entry)
  refine ⟨_, ofObject_eq_ok hdeclared _, hgood, fun v hv => ?_⟩
  rw [Bool.eq_iff_iff, permits_object_iff hgood hv, permits_both_iff ha hb hv]
  refine exists_congr fun fields => and_congr_right fun hfields => and_congr_right fun _ => ?_
  -- Both sides now ask the same of every field, so the fields can be compared one by one.
  obtain ⟨hdistinct, hkeys⟩ := Value.distinct_of_fields hv hfields
  refine forall₂_congr fun name item => imp_congr_right fun hfound => ?_
  have hitem := hkeys _ ((Entries.mem_iff_find?_str hdistinct).mpr hfound)
  rw [permitsField_merged hshared hrest name hitem]

end Collected

theorem permitsField_of_mem_ofPairs {properties : List (Key × Model)} {entry : Key × Model}
    (h : entry ∈ Entries.ofPairs properties) (additional : Bool) (item : Value) :
    permitsField properties additional (entry.1, item) = entry.2.permits item := by
  have hfound := Entries.find?_eq_some_of_mem (Entries.distinct_ofPairs properties) h
  rw [Entries.find?_ofPairs] at hfound
  rw [permitsField, hfound]

theorem permitsField_of_find?_ofPairs {properties : List (Key × Model)} {key : Key} {model : Model}
    (h : Entries.find? (Entries.ofPairs properties) key = some model) (additional : Bool)
    (item : Value) : permitsField properties additional (key, item) = model.permits item := by
  rw [Entries.find?_ofPairs] at h
  rw [permitsField, h]

theorem Good.of_mem_ofPairs {required : List Text} {additional : Bool}
    {properties : List (Key × Model)} (h : Good (.object properties required additional))
    {entry : Key × Model} (hmem : entry ∈ Entries.ofPairs properties) : Good entry.2 := by
  obtain ⟨key, hpair⟩ := Entries.mem_of_mem_ofPairs hmem
  cases h with
  | object good declared => exact good (key, entry.2) hpair

/-- A property of one side alone is kept when the other side is open, and otherwise left out. -/
theorem settled_of_one_side {model : Model} (h : Good model) {test : Value → Bool}
    {other additional : Bool} (hclosed : other = false → additional = false)
    (htest : ∀ item, test item = (model.permits item && other)) :
    Settled additional test (if other then some model else none) := by
  cases other with
  | true => exact .kept h fun item _ => by rw [htest, Bool.and_true]
  | false => exact .dropped (hclosed rfl) fun item => by rw [htest, Bool.and_false]

/-- Merging object models whose shared properties have been settled. -/
theorem yields_object (ha : Good (.object as r x)) (hb : Good (.object bs s y))
    {part : {entry // entry ∈ Entries.ofPairs as} × Nat → Except Fault (Key × Option Model)}
    (hpart : ∀ p, ∃ found, part p = .ok (p.1.1.1, found) ∧
      Settled (x && y) (fun item => permitsBoth as x bs y (p.1.1.1, item)) found) :
    Yields (do
      match ← collectProperties (joinNames r s) part (Entries.ofPairs as).attach.zipIdx with
      | none => .ok .never
      | some shared =>
        match ← collectProperties (joinNames r s)
            (fun entry => .ok (entry.1, if x then some entry.2 else none)) (rightOnly as bs) with
        | none => .ok .never
        | some rest => ofObject (shared ++ rest) (joinNames r s) (x && y)) fun v =>
      permits (.object as r x) v && permits (.object bs s y) v := by
  have hleft : ((Entries.ofPairs as).attach.zipIdx.map fun p => p.1.1.1.keyClass).Nodup := by
    rw [map_attach_zipIdx (Entries.ofPairs as) fun entry => entry.1.keyClass]
    exact Entries.distinct_iff.mp (Entries.distinct_ofPairs as)
  have hright : ((rightOnly as bs).map fun entry => entry.1.keyClass).Nodup :=
    (List.filter_sublist.map _).nodup (Entries.distinct_iff.mp (Entries.distinct_ofPairs bs))
  have hothers : ∀ entry ∈ rightOnly as bs,
      Settled (x && y) (fun item => permitsBoth as x bs y (entry.1, item))
        (if x then some entry.2 else none) := by
    intro entry hmem
    obtain ⟨hin, hnot⟩ := mem_rightOnly.mp hmem
    refine settled_of_one_side (hb.of_mem_ofPairs hin) (fun hx => by rw [hx]; rfl) fun item => ?_
    rw [permitsBoth, permitsField_of_not_mem hnot, permitsField_of_mem_ofPairs hin, Bool.and_comm]
  rcases collectProperties_cases (joinNames r s) part hleft fun p _ => hpart p with
    ⟨hnone, hblocked⟩ | ⟨shared, hshared, hcollected⟩
  · rw [hnone]
    exact yields_never_of_refused ha hb hblocked
  · rw [hshared]
    rcases collectProperties_cases (joinNames r s)
      (fun entry => .ok (entry.1, if x then some entry.2 else none)) hright
      fun entry hmem => ⟨_, rfl, hothers entry hmem⟩ with
      ⟨hnone, hblocked⟩ | ⟨rest, hrest, hcollected'⟩
    · simp only [bind, Except.bind, hnone]
      exact yields_never_of_refused ha hb hblocked
    · simp only [bind, Except.bind, hrest]
      refine yields_merged ?_ hcollected' ha hb
      rwa [map_attach_zipIdx (Entries.ofPairs as) Prod.fst] at hcollected

end Merge

/-! ## The rules of overlap -/

theorem yields_clash {a b : Model} (ha : Good a) (hb : Good b)
    (h : ∀ v, (a.permits v && b.permits v) = false) :
    Yields (clash a b) fun v => a.permits v && b.permits v := by
  rw [clash, ha.stray?_eq_none, hb.stray?_eq_none]
  exact Good.never.yields.congr fun v _ => by rw [permits_never, h]

/-- The kind of all values that a model permits by its form. -/
def form? : Model → Option Kind
  | .array _ => some .array
  | .object .. => some .object
  | model => model.primitive?

/-- A model of one kind permits data of that kind only. -/
theorem kind?_eq_of_permits {model : Model} (h : Good model) {kind : Kind}
    (hform : model.form? = some kind) {v : Value} (hv : model.permits v = true) :
    v.kind? = some kind := by
  cases h with
  | array good =>
      cases hform
      obtain ⟨elements, helements, -⟩ := (permits_array_iff good v).mp hv
      exact Value.exists_items_iff.mp ⟨elements, helements⟩
  | @object properties required additional good declared =>
      cases hform
      rw [permits_eq_of_accepts (accepts_object_eq (fun entry hmem => (good entry hmem).answers)
        required additional v)] at hv
      cases hfields : v.fields? with
      | none => simp [hfields] at hv
      | some fields => exact Value.exists_fields_iff.mp ⟨fields, hfields⟩
  | null | boolean | number | string =>
      cases hform
      rw [permits_of_primitive rfl] at hv
      exact of_decide_eq_true hv
  | _ => cases hform

/-- Models of one form are the same, unless the form has parts. -/
theorem same_of_form?_eq {a b : Model} {kind : Kind} (ha : a.form? = some kind)
    (hb : b.form? = some kind) :
    a.same b = true ∨ (∃ x y, a = .array x ∧ b = .array y) ∨
      ∃ as r x bs s y, a = .object as r x ∧ b = .object bs s y := by
  cases a <;> cases ha <;> cases b <;> cases hb
  case array.refl.array.refl x y => exact .inr (.inl ⟨x, y, rfl, rfl⟩)
  case object.refl.object.refl as r x bs s y => exact .inr (.inr ⟨as, r, x, bs, s, y, rfl, rfl⟩)
  all_goals exact .inl (by rw [same])

/-- The overlap of good models is a good model of the values that both permit. -/
theorem yields_overlap {a b : Model} (ha : Good a) (hb : Good b) (mark : Mark) :
    Yields (overlap a b mark) fun v => a.permits v && b.permits v := by
  fun_induction overlap a b mark with
  | case1 a b mark hsame =>
      refine ha.yields.congr fun v hv => ?_
      rw [permits_eq_of_same ha hb hsame hv, Bool.and_self]
  | case2 mark b => exact hb.yields.congr fun v _ => by rw [permits_unknown, Bool.true_and]
  | case3 mark a => exact ha.yields.congr fun v _ => by rw [permits_unknown, Bool.and_true]
  | case4 => exact Good.never.yields.congr fun v _ => by rw [permits_never, Bool.false_and]
  | case5 => exact Good.never.yields.congr fun v _ => by rw [permits_never, Bool.and_false]
  | case6 mark own value b =>
      cases ha with
      | literal data => exact yields_literal_if data hb
  | case7 mark a own value =>
      cases hb with
      | literal data => exact (yields_literal_if data ha).congr fun v _ => Bool.and_comm ..
  | case8 mark own values b =>
      cases ha with
      | enum nonempty data distinct =>
          exact (yields_narrow data hb mark).congr fun v _ => by rw [permits_enum]
  | case9 mark a own values =>
      cases hb with
      | enum nonempty data distinct =>
          exact (yields_narrow data ha mark).congr fun v _ => by rw [permits_enum, Bool.and_comm]
  | case10 mark branches b _ _ _ _ _ ih =>
      cases ha with
      | anyOf nonempty good =>
          exact yields_distributed (by decide) good default b
            (fun x => ih x.1.1 x.1.2 x.2 (good x.1.1 x.1.2) hb) mark
  | case11 mark a branches _ _ _ _ _ _ ih =>
      cases hb with
      | anyOf nonempty good =>
          refine (yields_distributed (by decide) good default a (fun x => ?_) mark).congr
            fun v _ => Bool.and_comm ..
          exact (ih x.1.1 x.1.2 x.2 ha (good x.1.1 x.1.2)).congr fun v _ => Bool.and_comm ..
  | case12 mark branches b => exact yields_members ha hb default
  | case13 mark a branches => exact yields_members ha hb default
  | case14 mark m as n bs => exact yields_members ha hb default
  | case15 mark own branches b _ _ _ _ _ _ _ _ ih =>
      cases ha with
      | oneOf nonempty good =>
          exact yields_distributed (by decide) good own b
            (fun x => ih x.1.1 x.1.2 x.2 (good x.1.1 x.1.2) hb) mark
  | case16 mark a own branches _ _ _ _ _ _ _ _ ih =>
      cases hb with
      | oneOf nonempty good =>
          refine (yields_distributed (by decide) good own a (fun x => ?_) mark).congr
            fun v _ => Bool.and_comm ..
          exact (ih x.1.1 x.1.2 x.2 ha (good x.1.1 x.1.2)).congr fun v _ => Bool.and_comm ..
  | case17 mark a b _ ih =>
      cases ha with
      | array good =>
          cases hb with
          | array good' => exact yields_array good good' (ih good good')
  | case18 mark as r x bs s y required left right differs ih =>
      refine yields_object ha hb fun p => ?_
      obtain ⟨⟨entry, hmem⟩, index⟩ := p
      have hentry := ha.of_mem_ofPairs hmem
      simp only
      split
      · next other hother =>
        obtain ⟨key, hmem'⟩ := Entries.mem_of_find? hother
        obtain ⟨model, hmodel, hgood, hexact⟩ :=
          ih entry hmem index other hother hentry (hb.of_mem_ofPairs hmem')
        refine ⟨some model, by rw [hmodel]; rfl, .kept hgood fun item hitem => ?_⟩
        rw [hexact item hitem, permitsBoth, permitsField_of_mem_ofPairs hmem,
          permitsField_of_find?_ofPairs hother]
      · next hnone =>
        refine ⟨_, rfl, settled_of_one_side hentry (fun hy => by rw [hy, Bool.and_false]) ?_⟩
        intro item
        rw [Entries.find?_eq_none_iff, Entries.mem_classes_ofPairs] at hnone
        rw [permitsBoth, permitsField_of_mem_ofPairs hmem, permitsField_of_not_mem hnone]
  -- No rule is left, so both sides have a form; the forms differ, for otherwise an earlier rule
  -- would have applied.
  | case19 mark a b _ _ _ _ _ _ _ _ _ _ _ _ _ _ _ harrays hobjects hdiffer =>
      obtain ⟨k, hk⟩ : ∃ k, a.form? = some k := by
        cases ha <;> first | exact ⟨_, rfl⟩ | grind
      obtain ⟨l, hl⟩ : ∃ l, b.form? = some l := by
        cases hb <;> first | exact ⟨_, rfl⟩ | grind
      have hne : k ≠ l := by
        rintro rfl
        rcases same_of_form?_eq hk hl with hsame | ⟨x, y, rfl, rfl⟩ | ⟨as, r, x, bs, s, y, rfl, rfl⟩
        · exact hdiffer hsame
        · exact harrays x y rfl rfl
        · exact hobjects as r x bs s y rfl rfl
      refine yields_clash ha hb fun v => ?_
      by_contra hboth
      rw [Bool.not_eq_false, Bool.and_eq_true] at hboth
      have hkind := kind?_eq_of_permits ha hk hboth.1
      rw [kind?_eq_of_permits hb hl hboth.2] at hkind
      exact hne (Option.some.inj hkind.symm)

end Model

end SchemaModel
