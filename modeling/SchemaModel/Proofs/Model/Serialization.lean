import SchemaModel.Proofs.Model.Alike
import SchemaModel.Proofs.Model.Outline

/-!
# The tree of a model determines the model

`Model.Spelled` says which data tell a model: one form of data for each form of model, marked by its
kind, with the data of the parts inside.  Only the overlap of an exclusive union is left open, since
the branches determine it.  When the data of two good models are equal, their kinds are equal, hence
their forms, and the parts follow position by position and name by name.
-/

namespace SchemaModel

theorem forall₂_of_mapM {α β ε : Type} {f : α → Except ε β} {xs : List α} {ys : List β}
    (h : xs.mapM f = .ok ys) : List.Forall₂ (fun x y => f x = .ok y) xs ys := by
  induction xs generalizing ys with
  | nil =>
      cases h
      exact .nil
  | cons x xs ih =>
      rw [List.mapM_cons] at h
      obtain ⟨y, hx, h⟩ := bind_eq_ok h
      obtain ⟨rest, hxs, h⟩ := bind_eq_ok h
      cases h
      exact .cons hx (ih hxs)

theorem forall₂_of_mapM_attach {α β ε : Type} {f : α → Except ε β} {xs : List α} {ys : List β}
    (h : (xs.attach.mapM fun x => f x.1) = .ok ys) :
    List.Forall₂ (fun x y => f x = .ok y) xs ys := by
  rw [List.mapM_subtype (g := f) fun _ _ => rfl, List.unattach_attach] at h
  exact forall₂_of_mapM h

namespace Outline

theorem itemValues_eq (items : List Outline) : itemValues items = items.map toValue := by
  induction items with
  | nil => rfl
  | cons item items ih => rw [itemValues, ih, List.map_cons]

theorem entryValues_eq (entries : List (Key × Outline)) :
    entryValues entries = entries.map fun entry => (entry.1, entry.2.toValue) := by
  induction entries with
  | nil => rfl
  | cons entry entries ih => rw [entryValues, ih, List.map_cons]

end Outline

namespace Model

open Outline (withKind)

/-- The data `value` tell the model `model`. -/
inductive Spelled : Model → Value → Prop
  | unknown : Spelled .unknown (withKind "unknown" [])
  | never : Spelled .never (withKind "never" [])
  | null : Spelled .null (withKind "null" [])
  | boolean : Spelled .boolean (withKind "boolean" [])
  | number : Spelled .number (withKind "number" [])
  | string : Spelled .string (withKind "string" [])
  | literal {mark : Mark} (value : Value) :
      Spelled (.literal mark value) (withKind "literal" [("value", value)])
  | enum {mark : Mark} (values : List Value) :
      Spelled (.enum mark values) (withKind "enum" [("values", .list values)])
  | array {items : Model} {value : Value} (inner : Spelled items value) :
      Spelled (.array items) (withKind "array" [("items", value)])
  | object {properties : List (Key × Model)} {required : List Text} {additional : Bool}
      {fields : List (Key × Value)} (distinct : Entries.distinct fields = true)
      (textual : Entries.textual fields = true)
      (keys : ∀ key, Entries.findLast? properties key = none ↔ Entries.find? fields key = none)
      (parts : ∀ key part value, Entries.findLast? properties key = some part →
        Entries.find? fields key = some value → Spelled part value) :
      Spelled (.object properties required additional) (withKind "object"
        [("properties", .mapping .dict fields),
          ("required", .list ((Text.sortNames required).map .str)),
          ("additionalAllowed", .bool additional)])
  | oneOf {mark : Mark} {branches : List Model} {values : List Value} (shared : Value)
      (length : branches.length = values.length)
      (parts : ∀ (i : Nat) branch value, branches[i]? = some branch → values[i]? = some value →
        Spelled branch value) :
      Spelled (.oneOf mark branches)
        (withKind "one_of" [("branches", .list values), ("shared", shared)])
  | anyOf {branches : List Model} {values : List Value} (length : branches.length = values.length)
      (parts : ∀ (i : Nat) branch value, branches[i]? = some branch → values[i]? = some value →
        Spelled branch value) :
      Spelled (.anyOf branches) (withKind "any_of" [("branches", .list values)])
  | allOf {branches : List Model} {values : List Value} (length : branches.length = values.length)
      (parts : ∀ (i : Nat) branch value, branches[i]? = some branch → values[i]? = some value →
        Spelled branch value) :
      Spelled (.allOf branches) (withKind "all_of" [("branches", .list values)])

/-- A model whose objects name their properties by texts. -/
def TextNames (model : Model) : Prop :=
  model.Throughout fun part => ∀ name ∈ part.propertyNames, name.isText = true

theorem TextNames.textual {properties : List (Key × Model)} {required : List Text}
    {additional : Bool} (h : (object properties required additional).TextNames) :
    Entries.textual properties = true :=
  List.all_eq_true.mpr fun _ hmem => h.self _ (List.mem_map_of_mem hmem)

/-! ## The data of a model tell it -/

theorem textual_of_classes {α β : Type} {as : List (Key × α)} {bs : List (Key × β)}
    (has : Entries.textual as = true) (h : Entries.classes bs ⊆ Entries.classes as) :
    Entries.textual bs = true := by
  refine List.all_eq_true.mpr fun entry hmem => Key.isText_iff.mpr ?_
  obtain ⟨other, hother, hclass⟩ := List.mem_map.mp (h (Entries.mem_classes_of_mem hmem))
  obtain ⟨name, hname⟩ := Value.exists_str_of_textual has hother
  rw [hname, Key.keyClass_str] at hclass
  exact ⟨name, Key.keyClass_eq_text_iff.mp hclass.symm⟩

theorem classes_entryValues (entries : List (Key × Outline)) :
    Entries.classes (Outline.entryValues entries) = Entries.classes entries := by
  rw [Outline.entryValues_eq]
  exact List.map_map

theorem distinct_entryValues (outlines : List (Key × Outline)) :
    Entries.distinct (Outline.entryValues (Entries.ofPairs outlines)) = true := by
  rw [Entries.distinct_iff, classes_entryValues, ← Entries.distinct_iff]
  exact Entries.distinct_ofPairs outlines

theorem find?_entryValues (outlines : List (Key × Outline)) (key : Key) :
    Entries.find? (Outline.entryValues (Entries.ofPairs outlines)) key =
      (Entries.findLast? outlines key).map Outline.toValue := by
  rw [← Entries.findLast?_eq_find? (distinct_entryValues outlines), Outline.entryValues_eq,
    Entries.findLast?_map, Entries.findLast?_ofPairs]

section Spelling

variable [Platform] {properties : List (Key × Model)} {outlines : List (Key × Outline)}

theorem findLast?_outlines
    (h : List.Forall₂ (fun entry pair =>
      entry.1 = pair.1 ∧ entry.2.outline = .ok pair.2) properties outlines) (key : Key) :
    Option.Rel (fun part tree => part.outline = .ok tree) (Entries.findLast? properties key)
      (Entries.findLast? outlines key) :=
  Entries.findLast?_rel_of_forall₂ (fun _ (part : Model) tree => part.outline = .ok tree)
    (fun _ houtline => houtline) h key

/-- The tree of an object spells its properties by name, the last declaration of each. -/
theorem spelled_object {required : List Text} {additional : Bool}
    (htext : Entries.textual properties = true)
    (houtlines : List.Forall₂ (fun entry pair =>
      entry.1 = pair.1 ∧ entry.2.outline = .ok pair.2) properties outlines)
    (hparts : ∀ entry ∈ properties, ∀ tree, entry.2.outline = .ok tree →
      Spelled entry.2 tree.toValue) :
    Spelled (.object properties required additional)
      (Outline.object (Entries.ofPairs outlines) (Text.sortNames required) additional).toValue := by
  have hclasses : Entries.classes (Outline.entryValues (Entries.ofPairs outlines)) ⊆
      Entries.classes properties := by
    intro c hc
    rw [classes_entryValues] at hc
    obtain ⟨entry, hmem, rfl⟩ := List.mem_map.mp hc
    rw [Entries.classes_eq_of_forall₂ (houtlines.imp fun _ _ h => congrArg Key.keyClass h.1)]
    exact (Entries.mem_classes_ofPairs outlines entry.1).mp (Entries.mem_classes_of_mem hmem)
  refine .object (distinct_entryValues outlines) (textual_of_classes htext hclasses)
    (fun key => ?_) fun key part value hpart hvalue => ?_
  · rw [find?_entryValues, Option.map_eq_none_iff]
    rcases optionRel_cases (findLast?_outlines houtlines key) with ⟨ha, hb⟩ | ⟨_, _, ha, hb, -⟩
    · simp [ha, hb]
    · simp [ha, hb]
  · obtain ⟨tree, htree, houtline⟩ :=
      optionRel_some_left (findLast?_outlines houtlines key) hpart
    rw [find?_entryValues, htree] at hvalue
    cases hvalue
    obtain ⟨name, hmem⟩ := Entries.mem_of_findLast? hpart
    exact hparts (name, part) hmem tree houtline

end Spelling

theorem spelled_branches [Platform] {branches : List Model} {trees : List Outline}
    (h : (branches.attach.mapM fun branch => branch.1.outline) = .ok trees)
    (hparts : ∀ branch ∈ branches, ∀ tree, branch.outline = .ok tree →
      Spelled branch tree.toValue) :
    branches.length = (Outline.itemValues trees).length ∧
      ∀ (i : Nat) branch value, branches[i]? = some branch →
        (Outline.itemValues trees)[i]? = some value → Spelled branch value := by
  have hspelled : List.Forall₂ Spelled branches (Outline.itemValues trees) := by
    rw [Outline.itemValues_eq, List.forall₂_map_right_iff]
    exact forall₂_imp_of_mem (forall₂_of_mapM_attach h) hparts
  exact forall₂_iff_getElem?.mp hspelled

/-- The tree of an outline says of a model all that equality looks at. -/
theorem spelled_of_outline [Platform] {model : Model} {tree : Outline} (htext : model.TextNames)
    (h : model.outline = .ok tree) : Spelled model tree.toValue := by
  induction model using outline.induct generalizing tree with
  | case1 mark value =>
      rw [outline] at h
      cases h
      exact .literal value
  | case2 mark values =>
      rw [outline] at h
      cases h
      exact .enum values
  | case3 items ih =>
      rw [outline] at h
      obtain ⟨inner, hinner, h⟩ := bind_eq_ok h
      cases h
      exact .array (ih (Throughout.items htext) hinner)
  | case4 properties required additional ih =>
      rw [outline] at h
      obtain ⟨outlines, houtlines, h⟩ := bind_eq_ok h
      cases h
      have hentries := forall₂_of_mapM_attach
        (f := fun entry : Key × Model => do .ok (entry.1, ← entry.2.outline)) houtlines
      refine spelled_object htext.textual (hentries.imp fun entry pair hpair => ?_)
        fun entry hmem tree => ih entry hmem (Throughout.property htext hmem)
      obtain ⟨tree, htree, hpair⟩ := bind_eq_ok hpair
      cases hpair
      exact ⟨rfl, htree⟩
  | case5 mark branches ih ihcommon =>
      rw [outline] at h
      obtain ⟨trees, htrees, h⟩ := bind_eq_ok h
      obtain ⟨length, parts⟩ := spelled_branches htrees fun branch hmem tree =>
        ih branch hmem (Throughout.branch mark .oneOf htext hmem)
      split at h
      · cases h
      · obtain ⟨shared, -, h⟩ := bind_eq_ok h
        cases h
        exact .oneOf shared.toValue length parts
  | case6 branches ih =>
      rw [outline] at h
      obtain ⟨trees, htrees, h⟩ := bind_eq_ok h
      obtain ⟨length, parts⟩ := spelled_branches htrees fun branch hmem tree =>
        ih branch hmem (Throughout.branch default .anyOf htext hmem)
      cases h
      exact .anyOf length parts
  | case7 branches ih =>
      rw [outline] at h
      obtain ⟨trees, htrees, h⟩ := bind_eq_ok h
      obtain ⟨length, parts⟩ := spelled_branches htrees fun branch hmem tree =>
        ih branch hmem (Throughout.branch default .allOf htext hmem)
      cases h
      exact .allOf length parts
  | case8 value =>
      rw [outline] at h
      cases h
  | case9 model =>
      rw [outline] at h <;> try assumption
      cases h
      cases model with
      | unknown => exact .unknown
      | never => exact .never
      | null => exact .null
      | boolean => exact .boolean
      | number => exact .number
      | string => exact .string
      | _ => simp_all

/-! ## The data of a model can be written -/

section Writing

variable [Platform]

theorem refusal?_object {members : List (String × Value)}
    (h : ∀ member ∈ members, member.2.refusal? = none) :
    (Value.object members).refusal? = none := by
  rw [Value.object, Value.refusal?, entriesRefusal?_eq_none_iff]
  exact List.forall_mem_map.mpr fun member hmem => ⟨rfl, h member hmem⟩

theorem refusal?_withKind (kind : String) {members : List (String × Value)}
    (h : ∀ member ∈ members, member.2.refusal? = none) :
    (withKind kind members).refusal? = none :=
  refusal?_object (List.forall_mem_cons.mpr ⟨rfl, h⟩)

theorem refusal?_listOf {items : List Value} (h : ∀ item ∈ items, item.refusal? = none) :
    (Value.list items).refusal? = none := by
  rwa [Value.refusal?, itemsRefusal?_eq_none_iff]

theorem refusal?_branches {branches : List Model} {trees : List Outline}
    (h : (branches.attach.mapM fun branch => branch.1.outline) = .ok trees)
    (hparts : ∀ branch ∈ branches, ∀ tree, branch.outline = .ok tree →
      tree.toValue.refusal? = none) :
    (Value.list (Outline.itemValues trees)).refusal? = none := by
  rw [Outline.itemValues_eq]
  refine refusal?_listOf (List.forall_mem_map.mpr fun tree htree => ?_)
  have htrees := forall₂_imp_of_mem (forall₂_of_mapM_attach h) hparts
  obtain ⟨-, -, hwritable⟩ := exists_mem_of_forall₂ htrees.flip tree htree
  exact hwritable

/-- A model that lists only what can be written and names its properties by texts is written out as
data that can be written. -/
theorem refusal?_of_outline {model : Model} {tree : Outline}
    (hmodel : model.Carries (·.isWritable = true) (·.isText = true))
    (h : model.outline = .ok tree) : tree.toValue.refusal? = none := by
  induction model using outline.induct generalizing tree with
  | case1 mark value =>
      rw [outline] at h
      cases h
      have hvalue := hmodel.self.1 value List.mem_cons_self
      exact refusal?_withKind _ (List.forall_mem_singleton.mpr (Value.isWritable_iff.mp hvalue))
  | case2 mark values =>
      rw [outline] at h
      cases h
      refine refusal?_withKind _ (List.forall_mem_singleton.mpr (refusal?_listOf ?_))
      exact fun value hmem => Value.isWritable_iff.mp (hmodel.self.1 value hmem)
  | case3 items ih =>
      rw [outline] at h
      obtain ⟨inner, hinner, h⟩ := bind_eq_ok h
      cases h
      exact refusal?_withKind _ (List.forall_mem_singleton.mpr (ih hmodel.items hinner))
  | case4 properties required additional ih =>
      rw [outline] at h
      obtain ⟨outlines, houtlines, h⟩ := bind_eq_ok h
      cases h
      have hentries := forall₂_of_mapM_attach
        (f := fun entry : Key × Model => do .ok (entry.1, ← entry.2.outline)) houtlines
      have hpairs : ∀ pair ∈ outlines, pair.1.isText = true ∧ pair.2.toValue.refusal? = none := by
        intro pair hpair
        obtain ⟨entry, hmem, hentry⟩ := exists_mem_of_forall₂ hentries.flip pair hpair
        obtain ⟨tree, htree, hentry⟩ := bind_eq_ok hentry
        cases hentry
        exact ⟨hmodel.self.2 entry.1 (List.mem_map_of_mem hmem),
          ih entry hmem (hmodel.property hmem) htree⟩
      have hkeys := Entries.forall_key_ofPairs (p := (·.isText = true)) fun pair hpair =>
        (hpairs pair hpair).1
      have hproperties : (Value.mapping .dict
          (Outline.entryValues (Entries.ofPairs outlines))).refusal? = none := by
        rw [Value.refusal?, entriesRefusal?_eq_none_iff, Outline.entryValues_eq]
        refine List.forall_mem_map.mpr fun pair hpair => ?_
        obtain ⟨key, hmem⟩ := Entries.mem_of_mem_ofPairs hpair
        obtain ⟨name, hname⟩ := Key.isText_iff.mp (hkeys pair hpair)
        exact ⟨by rw [hname]; rfl, (hpairs (key, pair.2) hmem).2⟩
      have hrequired : (Value.list ((Text.sortNames required).map .str)).refusal? = none :=
        refusal?_listOf (List.forall_mem_map.mpr fun _ _ => rfl)
      refine refusal?_withKind _ ?_
      simp only [List.forall_mem_cons]
      exact ⟨hproperties, hrequired, rfl, List.forall_mem_nil _⟩
  | case5 mark branches ih ihcommon =>
      rw [outline] at h
      obtain ⟨trees, htrees, h⟩ := bind_eq_ok h
      have hbranch : ∀ branch ∈ branches,
          branch.Carries (·.isWritable = true) (·.isText = true) :=
        fun branch hmem => Throughout.branch mark .oneOf hmodel hmem
      have hitems := refusal?_branches htrees fun branch hmem tree =>
        ih branch hmem (hbranch branch hmem)
      split at h
      · cases h
      · next common hcommon =>
        obtain ⟨shared, hshared, h⟩ := bind_eq_ok h
        cases h
        have hwritten := ihcommon common hcommon (carries_reduce hbranch hcommon) hshared
        exact refusal?_withKind _ (by simp [hitems, hwritten])
  | case6 branches ih =>
      rw [outline] at h
      obtain ⟨trees, htrees, h⟩ := bind_eq_ok h
      cases h
      refine refusal?_withKind _ (List.forall_mem_singleton.mpr (refusal?_branches htrees ?_))
      exact fun branch hmem tree => ih branch hmem (Throughout.branch default .anyOf hmodel hmem)
  | case7 branches ih =>
      rw [outline] at h
      obtain ⟨trees, htrees, h⟩ := bind_eq_ok h
      cases h
      refine refusal?_withKind _ (List.forall_mem_singleton.mpr (refusal?_branches htrees ?_))
      exact fun branch hmem tree => ih branch hmem (Throughout.branch default .allOf hmodel hmem)
  | case8 value =>
      rw [outline] at h
      cases h
  | case9 model =>
      rw [outline] at h <;> try assumption
      cases h
      exact refusal?_withKind _ (List.forall_mem_nil _)

end Writing

/-! ## Equal data tell models that are alike -/

theorem textual_fields (fields : List (String × Value)) :
    Entries.textual (fields.map fun field => (Key.str field.1, field.2)) = true := by
  refine List.all_eq_true.mpr fun entry hmem => ?_
  obtain ⟨field, -, rfl⟩ := List.mem_map.mp hmem
  rfl

section Members

variable {kind other : String} {as bs : List (String × Value)}

/-- Equal trees have equal members under equal names. -/
theorem exists_member_of_jsonEqual (h : (withKind kind as).jsonEqual (withKind other bs) = true) :
    ∀ a ∈ ("kind", .str kind) :: as, ∃ b, a.2.jsonEqual b = true ∧
      Entries.find? ((("kind", .str other) :: bs).map fun b => (Key.str b.1, b.2)) (.str a.1) =
        some b := by
  simp only [withKind, Value.object, Value.jsonEqual, textual_fields, Bool.and_self, if_true,
    Bool.and_eq_true, Value.equalEntries_iff] at h
  intro a ha
  obtain ⟨b, hfound, heq⟩ := h.2 (Key.str a.1, a.2) (List.mem_map_of_mem ha)
  exact ⟨b, heq, hfound⟩

theorem kind_eq_of_jsonEqual (h : (withKind kind as).jsonEqual (withKind other bs) = true) :
    kind = other := by
  obtain ⟨b, heq, hfound⟩ := exists_member_of_jsonEqual h ("kind", .str kind) List.mem_cons_self
  simp only [List.map_cons, Entries.find?, Key.same, decide_true, if_true, Option.some.injEq]
    at hfound
  subst hfound
  simpa [Value.jsonEqual] using heq

theorem member_jsonEqual {name : String} {x y : Value}
    (h : (withKind kind as).jsonEqual (withKind other bs) = true) (hx : (name, x) ∈ as)
    (hy : Entries.find? ((("kind", .str other) :: bs).map fun b => (Key.str b.1, b.2)) (.str name) =
      some y) : x.jsonEqual y = true := by
  obtain ⟨b, heq, hfound⟩ := exists_member_of_jsonEqual h (name, x) (List.mem_cons_of_mem _ hx)
  cases hy.symm.trans hfound
  exact heq

end Members

theorem alike_branches {as bs : List Model} {xs ys : List Value} (hxs : as.length = xs.length)
    (hys : bs.length = ys.length)
    (hspelled : ∀ (i : Nat) b y, bs[i]? = some b → ys[i]? = some y → Spelled b y)
    (has : ∀ a ∈ as, Good a) (hbs : ∀ b ∈ bs, Good b)
    (h : (Value.list xs).jsonEqual (.list ys) = true)
    (ih : ∀ (i : Nat) a x, as[i]? = some a → xs[i]? = some x → ∀ {b y}, Spelled b y → Good a →
      Good b → x.jsonEqual y = true → Alike a b) :
    as.length = bs.length ∧ ∀ (i : Nat) a b, as[i]? = some a → bs[i]? = some b → Alike a b := by
  rw [Value.jsonEqual, Value.equalItems_iff_forall₂, forall₂_iff_getElem?] at h
  obtain ⟨hlen, hitems⟩ := h
  refine ⟨by omega, fun i a b ha hb => ?_⟩
  obtain ⟨x, hx⟩ := exists_getElem?_of_length_eq hxs ha
  obtain ⟨y, hy⟩ := exists_getElem?_of_length_eq hys hb
  exact ih i a x ha hx (hspelled i b y hb hy) (has a (List.mem_of_getElem? ha))
    (hbs b (List.mem_of_getElem? hb)) (hitems i x y hx hy)

theorem mem_iff_of_jsonEqual {r s : List Text}
    (h : (Value.list ((Text.sortNames r).map .str)).jsonEqual
      (.list ((Text.sortNames s).map .str)) = true) (name : Text) : name ∈ r ↔ name ∈ s := by
  have heq : List.Forall₂ Eq (Text.sortNames r) (Text.sortNames s) := by
    rw [Value.jsonEqual, Value.equalItems_iff_forall₂, List.forall₂_map_left_iff,
      List.forall₂_map_right_iff] at h
    exact h.imp fun a b hab => by simpa [Value.jsonEqual] using hab
  rw [List.forall₂_eq_eq_eq] at heq
  rw [← Text.mem_sortNames, heq, Text.mem_sortNames]

theorem find?_eq_none_of_textual {fields : List (Key × Value)}
    (htext : Entries.textual fields = true) {key : Key} (hkey : ¬ key.isText = true) :
    Entries.find? fields key = none := by
  refine Entries.find?_eq_none_iff.mpr fun hc => hkey ?_
  obtain ⟨entry, hmem, hclass⟩ := List.mem_map.mp hc
  obtain ⟨name, hname⟩ := Value.exists_str_of_textual htext hmem
  rw [hname, Key.keyClass_str] at hclass
  exact Key.isText_iff.mpr ⟨name, Key.keyClass_eq_text_iff.mp hclass.symm⟩

theorem find?_rel_of_jsonEqual {as bs : List (Key × Value)} {form form' : MappingForm}
    (has : Entries.distinct as = true) (htext : Entries.textual as = true)
    (hbs : Entries.distinct bs = true) (htext' : Entries.textual bs = true)
    (h : (Value.mapping form as).jsonEqual (.mapping form' bs) = true) (key : Key) :
    Option.Rel (fun x y => x.jsonEqual y = true) (Entries.find? as key) (Entries.find? bs key) := by
  simp only [Value.jsonEqual, htext, htext', Bool.and_self, if_true, Bool.and_eq_true,
    decide_eq_true_eq, Value.equalFields_iff has htext hbs htext'] at h
  by_cases hkey : key.isText = true
  · obtain ⟨name, rfl⟩ := Key.isText_iff.mp hkey
    exact h name
  · rw [find?_eq_none_of_textual htext hkey, find?_eq_none_of_textual htext' hkey]
    exact .none

/-- The data of good models are equal only if the models are alike. -/
theorem Spelled.alike {a b : Model} {x y : Value} (hx : Spelled a x) (hy : Spelled b y)
    (ha : Good a) (hb : Good b) (h : x.jsonEqual y = true) : Alike a b := by
  -- Data of different kinds differ, so only the pairs of one form are left.
  induction hx generalizing b y with
  | unknown | never | null | boolean | number | string =>
      cases hy <;> first | constructor | exact absurd (kind_eq_of_jsonEqual h) (by decide)
  | literal value =>
      cases hy with
      | literal value' =>
          cases ha with
          | literal left =>
              cases hb with
              | literal right =>
                  exact .literal left right (member_jsonEqual h List.mem_cons_self rfl)
      | _ => exact absurd (kind_eq_of_jsonEqual h) (by decide)
  | enum values =>
      cases hy with
      | enum values' =>
          have hlists := member_jsonEqual h List.mem_cons_self rfl
          rw [Value.jsonEqual, Value.equalItems_iff_forall₂] at hlists
          exact .enum ha hb (exists_mem_of_forall₂ hlists) (exists_mem_of_forall₂ hlists.flip)
      | _ => exact absurd (kind_eq_of_jsonEqual h) (by decide)
  | array inner ih =>
      cases hy with
      | array inner' =>
          cases ha with
          | array good =>
              cases hb with
              | array good' =>
                  exact .array (ih inner' good good' (member_jsonEqual h List.mem_cons_self rfl))
      | _ => exact absurd (kind_eq_of_jsonEqual h) (by decide)
  | @object properties required additional fields distinct textual keys parts ih =>
      cases hy with
      | @object properties' required' additional' fields' distinct' textual' keys' parts' =>
          have hflag := member_jsonEqual h
            (List.mem_cons_of_mem _ (List.mem_cons_of_mem _ List.mem_cons_self)) rfl
          have hnames := member_jsonEqual h (List.mem_cons_of_mem _ List.mem_cons_self) rfl
          have hfields := find?_rel_of_jsonEqual distinct textual distinct' textual'
            (member_jsonEqual h List.mem_cons_self rfl)
          obtain rfl : additional = additional' := by simpa [Value.jsonEqual] using hflag
          refine .object ha hb (mem_iff_of_jsonEqual hnames) (fun key => ?_)
            fun key a b hfound hfound' => ?_
          · rw [keys key, keys' key]
            rcases optionRel_cases (hfields key) with ⟨hx, hy⟩ | ⟨x, y, hx, hy, -⟩
            · simp [hx, hy]
            · simp [hx, hy]
          · obtain ⟨x, hx⟩ := Option.ne_none_iff_exists'.mp fun hnone =>
              Option.some_ne_none a (hfound.symm.trans ((keys key).mpr hnone))
            obtain ⟨y, hy, heq⟩ := optionRel_some_left (hfields key) hx
            obtain ⟨name, hmem⟩ := Entries.mem_of_findLast? hfound
            obtain ⟨name', hmem'⟩ := Entries.mem_of_findLast? hfound'
            exact ih key a x hfound hx (parts' key b y hfound' hy)
              (ha.inner (List.mem_map_of_mem hmem)) (hb.inner (List.mem_map_of_mem hmem')) heq
      | _ => exact absurd (kind_eq_of_jsonEqual h) (by decide)
  | oneOf shared length _ ih =>
      cases hy with
      | oneOf shared' length' parts' =>
          cases ha with
          | oneOf nonempty good =>
              cases hb with
              | oneOf nonempty' good' =>
                  obtain ⟨hlen, halike⟩ := alike_branches length length' parts' good good'
                    (member_jsonEqual h List.mem_cons_self rfl) ih
                  exact .oneOf nonempty hlen halike
      | _ => exact absurd (kind_eq_of_jsonEqual h) (by decide)
  | anyOf length _ ih =>
      cases hy with
      | anyOf length' parts' =>
          cases ha with
          | anyOf nonempty good =>
              cases hb with
              | anyOf nonempty' good' =>
                  obtain ⟨hlen, halike⟩ := alike_branches length length' parts' good good'
                    (member_jsonEqual h List.mem_cons_self rfl) ih
                  exact .anyOf nonempty hlen halike
      | _ => exact absurd (kind_eq_of_jsonEqual h) (by decide)
  | allOf length _ ih =>
      cases hy with
      | allOf length' parts' =>
          cases ha with
          | allOf nonempty good =>
              cases hb with
              | allOf nonempty' good' =>
                  obtain ⟨hlen, halike⟩ := alike_branches length length' parts' good good'
                    (member_jsonEqual h List.mem_cons_self rfl) ih
                  exact .allOf nonempty hlen halike
      | _ => exact absurd (kind_eq_of_jsonEqual h) (by decide)

/-- Good models with equal trees are equal.  A tree is there unless a value that the model lists
cannot be written. -/
theorem same_of_toValue_jsonEqual [Platform] {a b : Model} (ha : Good a) (hb : Good b)
    (hnames : a.TextNames) (hnames' : b.TextNames) :
    ∃ x y, Delivers a.Writable a.toValue x ∧ Delivers b.Writable b.toValue y ∧
      (x.jsonEqual y = true → a.same b = true) := by
  obtain ⟨tree, hdelivers, htree⟩ := delivers_outline ha
  obtain ⟨tree', hdelivers', htree'⟩ := delivers_outline hb
  refine ⟨tree.toValue, tree'.toValue, hdelivers.map _, hdelivers'.map _, fun h => ?_⟩
  have hspelled := @spelled_of_outline .unlimited _ _ hnames htree
  have hspelled' := @spelled_of_outline .unlimited _ _ hnames' htree'
  exact (hspelled.alike hspelled' ha hb h).same

/-- A literal that looks like the tree of a model, under a name like the mark of a tree, beside a
name that is declared twice. -/
def disguised : Model :=
  .object [(.str "b", .string), (.str "kind", .literal default
      (.mapping .dict [(.str "kind", .str "literal"), (.str "value", .int 1)])),
    (.str "b", .anyOf [.number, .array .unknown])] ["kind", "b"] true

/-- The same in another order. -/
def disguisedReordered : Model :=
  .object [(.str "kind", .literal (.start 1)
      (.mapping .dict [(.str "value", .int 1), (.str "kind", .str "literal")])),
    (.str "b", .anyOf [.number, .array .unknown])] ["b", "kind"] true

attribute [local instance] Platform.standard in
theorem same_of_disguised_trees :
    ∃ x y, disguised.toValue = .ok x ∧ disguisedReordered.toValue = .ok y ∧
      x.jsonEqual y = true ∧ disguised.same disguisedReordered = true := by
  have hunion : Good (.anyOf [.number, .array .unknown]) :=
    .anyOf (by decide) (by simp [Good.number, Good.array Good.unknown])
  have hliteral : ∀ mark, Good (.literal mark
      (.mapping .dict [(.str "kind", .str "literal"), (.str "value", .int 1)])) := fun mark =>
    .literal (Value.isData_iff.mpr (by decide))
  have hliteral' : ∀ mark, Good (.literal mark
      (.mapping .dict [(.str "value", .int 1), (.str "kind", .str "literal")])) := fun mark =>
    .literal (Value.isData_iff.mpr (by decide))
  obtain ⟨x, y, hdelivers, hdelivers', hsame⟩ :=
    same_of_toValue_jsonEqual (a := disguised) (b := disguisedReordered)
      (.object (by simp [Good.string, hliteral, hunion]) (by decide))
      (.object (by simp [hliteral', hunion]) (by decide))
      (by unfold TextNames Throughout; decide) (by unfold TextNames Throughout; decide)
  have hx := hdelivers.eq_of_writable (by decide)
  have hy := hdelivers'.eq_of_writable (by decide)
  have hequal : (do .ok ((← disguised.toValue).jsonEqual (← disguisedReordered.toValue)) :
      Except Fault Bool) = .ok true := by
    simp only [disguised, disguisedReordered, toValue, outline, List.attach_cons, List.attach_nil,
      List.map_nil, List.map_cons, List.mapM_cons, List.mapM_nil, bind, Except.bind, Except.map,
      pure, Except.pure, Except.ok.injEq]
    decide +kernel
  rw [hx, hy] at hequal
  have htrees : x.jsonEqual y = true := Except.ok.inj hequal
  exact ⟨x, y, hx, hy, htrees, hsame htrees⟩

end Model

end SchemaModel
