import SchemaModel.Proofs.Model.Equivalence
import SchemaModel.Proofs.Model.HashKey

/-!
# Keys of equal models

Equality of models looks at the last declaration of a name and the key at all of them.  The keys of
equal models agree when no object in them declares a name twice with different models, and differ as
soon as that holds of one model and not of the other.
-/

namespace SchemaModel

namespace Model

/-- Whether an object declares no name twice with different models. -/
def declaresAlike : Model → Bool
  | .object properties _ _ =>
    decide (properties.Pairwise fun a b => a.1.same b.1 = true → a.2.same b.2 = true)
  | _ => true

/-- A model in which no object declares a name twice with different models. -/
def Unambiguous (model : Model) : Prop :=
  model.Throughout fun part => part.declaresAlike = true

/-- What a model needs to be compared: the condition of `Comparable`, for models and their parts. -/
structure Sound (model : Model) : Prop where
  good : Good model
  nanFree : model.NanFree

theorem Sound.alike_self {model : Model} (h : Sound model) : Alike model model :=
  h.good.alike_self h.nanFree

theorem Sound.inner {model part : Model} (h : Sound model) (hpart : part ∈ model.inner) :
    Sound part :=
  ⟨h.good.inner hpart, h.nanFree.inner hpart⟩

/-- Induction over alike models.  The models inside one of them are compared with each other too, so
the hypothesis speaks of any two of the models inside both. -/
theorem alikeInduction {P : Model → Model → Prop}
    (step : ∀ a b, Sound a → Sound b → Alike a b →
      (∀ c ∈ a.inner ++ b.inner, ∀ d ∈ a.inner ++ b.inner, Alike c d → P c d) → P a b)
    {a b : Model} (ha : Sound a) (hb : Sound b) (h : Alike a b) : P a b := by
  have hbelow : ∀ size a b, sizeOf a < size → sizeOf b < size → Sound a → Sound b → Alike a b →
      P a b := by
    intro size
    induction size with
    | zero => exact fun a b hsize => absurd hsize (Nat.not_lt_zero _)
    | succ size ih =>
        intro a b hsize hsize' ha hb h
        have hinner : ∀ c ∈ a.inner ++ b.inner, sizeOf c < size ∧ Sound c := by
          intro c hc
          rcases List.mem_append.mp hc with hmem | hmem
          · have hsmaller := sizeOf_inner_lt hmem
            exact ⟨by omega, ha.inner hmem⟩
          · have hsmaller := sizeOf_inner_lt hmem
            exact ⟨by omega, hb.inner hmem⟩
        refine step a b ha hb h fun c hc d hd => ?_
        exact ih c d (hinner c hc).1 (hinner d hd).1 (hinner c hc).2 (hinner d hd).2
  exact hbelow (sizeOf a + sizeOf b + 1) a b (by omega) (by omega) ha hb h

/-! ## Declarations of one name -/

/-- Two declarations are one in a set when their names, keys and models agree. -/
theorem same_declaration_iff {d e : Declaration} (hd : d.model.hashKey = .ok d.key)
    (he : e.model.hashKey = .ok e.key) (hself : Alike d.model d.model)
    (hself' : Alike e.model e.model) :
    d.same e = true ↔
      d.name.keyClass = e.name.keyClass ∧ KeysAgree d.model e.model ∧ Alike d.model e.model := by
  have hmodels : (isSelf d.model e.model || same d.model e.model) = true ↔
      Alike d.model e.model := by
    rw [Bool.or_eq_true]
    constructor
    · rintro (h | h)
      · rwa [← eq_of_isSelf h]
      · exact alike_of_same hself hself' h
    · exact fun h => .inr h.same
  rw [Declaration.same, Bool.and_eq_true, Bool.and_eq_true, Key.same_iff, hmodels,
    keysAgree_iff hd he, and_assoc]

section Objects

variable {as bs : List (Key × Model)} {r s : List Text} {x : Bool} {ds es : List Declaration}

theorem Sound.property (h : Sound (.object as r x)) {entry : Key × Model} (hmem : entry ∈ as) :
    Sound entry.2 :=
  h.inner (List.mem_map_of_mem hmem)

theorem Sound.exists_declared (h : Sound (.object as r x)) : ∃ ds, Declared as ds :=
  Model.exists_declared fun _ hmem => (h.property hmem).good.exists_hashKey

/-- Every two declarations of one name are alike. -/
def AlikeByName (as bs : List (Key × Model)) : Prop :=
  ∀ p ∈ as, ∀ q ∈ bs, p.1.keyClass = q.1.keyClass → Alike p.2 q.2

/-- Comparing each declaration with the later ones is enough, since likeness runs both ways. -/
theorem declaresAlike_iff (h : Sound (.object as r x)) :
    (object as r x).declaresAlike = true ↔ AlikeByName as as := by
  have hself : ∀ p ∈ as, Alike p.2 p.2 := fun p hp => (h.property hp).alike_self
  rw [declaresAlike, decide_eq_true_eq]
  constructor
  · intro hpairs
    have hclasses : as.Pairwise fun p q => p.1.keyClass = q.1.keyClass → Alike p.2 q.2 := by
      refine hpairs.imp_of_mem fun hp hq hsame hclass => ?_
      exact alike_of_same (hself _ hp) (hself _ hq) (hsame ((Key.same_iff _ _).mpr hclass))
    intro p hp q hq hclass
    exact hclasses.forall_of_forall_of_flip (fun p hp _ => hself p hp)
      (hclasses.imp fun hpq hclass => (hpq hclass.symm).symm) hp hq hclass
  · intro hnames
    refine List.pairwise_of_forall_mem_list fun p hp q hq hsame => ?_
    exact (hnames p hp q hq ((Key.same_iff _ _).mp hsame)).same

theorem alikeByName_of_alike (ha : AlikeByName as as) (hb : AlikeByName bs bs)
    (h : Alike (.object as r x) (.object bs s x)) : AlikeByName as bs := by
  intro p hp q hq hclass
  cases h with
  | object left right names keys parts =>
      -- Equality relates the last declarations of the name, and these are like the others.
      have hlast : Entries.findLast? as p.1 ≠ none := fun hnone =>
        Entries.findLast?_eq_none_iff.mp hnone (Entries.mem_classes_of_mem hp)
      obtain ⟨a, hfound⟩ := Option.ne_none_iff_exists'.mp hlast
      obtain ⟨b, hfound'⟩ := Option.ne_none_iff_exists'.mp (mt (keys p.1).mpr hlast)
      obtain ⟨other, hmem, hother⟩ := Entries.mem_of_findLast?_eq_some hfound
      obtain ⟨other', hmem', hother'⟩ := Entries.mem_of_findLast?_eq_some hfound'
      have hleft : Alike p.2 a := ha p hp _ hmem hother.symm
      have hright : Alike b q.2 := hb _ hmem' q hq (hother'.trans hclass)
      exact (hleft.trans (parts p.1 a b hfound hfound')).trans hright

theorem same_of_alikeByName (ha : Sound (.object as r x)) (hb : Sound (.object bs s x))
    (hds : Declared as ds) (hes : Declared bs es) (h : AlikeByName as bs)
    (hkeys : ∀ p ∈ as, ∀ q ∈ bs, Alike p.2 q.2 → KeysAgree p.2 q.2) :
    ∀ d ∈ ds, ∀ e ∈ es, d.name.keyClass = e.name.keyClass → d.same e = true := by
  intro d hd e he hclass
  have hp := hds.mem hd
  have hq := hes.mem he
  have halike := h _ hp _ hq hclass
  exact (same_declaration_iff (hds.keys d hd) (hes.keys e he) (ha.property hp).alike_self
    (hb.property hq).alike_self).mpr ⟨hclass, hkeys _ hp _ hq halike, halike⟩

theorem keysAgree_object_iff (hds : Declared as ds) (hes : Declared bs es)
    (h : Alike (.object as r x) (.object bs s x)) :
    KeysAgree (.object as r x) (.object bs s x) ↔
      ModelKey.pairOff ((distinctDeclarations [] ds).map fun d => (d.name, d.key))
        ((distinctDeclarations [] es).map fun e => (e.name, e.key)) = true := by
  cases h with
  | object left right names keys parts =>
      rw [keysAgree_iff (hds.hashKey_eq r x) (hes.hashKey_eq s x)]
      simp only [ModelKey.same, sameNames_iff.mpr names, decide_true, Bool.and_true]

/-! ## Keys that agree -/

/-- Where all declarations of a name are alike, their sets of keys do not tell which came last. -/
theorem keysAgree_object (ha : Sound (.object as r x)) (hb : Sound (.object bs s x))
    (ha' : AlikeByName as as) (hb' : AlikeByName bs bs)
    (h : Alike (.object as r x) (.object bs s x))
    (hkeys : ∀ p ∈ as ++ bs, ∀ q ∈ as ++ bs, Alike p.2 q.2 → KeysAgree p.2 q.2) :
    KeysAgree (.object as r x) (.object bs s x) := by
  obtain ⟨ds, hds⟩ := ha.exists_declared
  obtain ⟨es, hes⟩ := hb.exists_declared
  have hone := same_of_alikeByName ha ha hds hds ha' fun p hp q hq =>
    hkeys p (List.mem_append_left _ hp) q (List.mem_append_left _ hq)
  have hone' := same_of_alikeByName hb hb hes hes hb' fun p hp q hq =>
    hkeys p (List.mem_append_right _ hp) q (List.mem_append_right _ hq)
  have hacross := same_of_alikeByName ha hb hds hes (alikeByName_of_alike ha' hb' h)
    fun p hp q hq => hkeys p (List.mem_append_left _ hp) q (List.mem_append_right _ hq)
  rw [keysAgree_object_iff hds hes h]
  refine ModelKey.pairOff_of_names ?_ ?_ (fun c => ?_) ?_
  · rw [classes_entries]
    exact nodup_declaredClasses_distinct hone
  · rw [classes_entries]
    exact nodup_declaredClasses_distinct hone'
  · rw [classes_entries, classes_entries, mem_declaredClasses_distinct,
      mem_declaredClasses_distinct, ← hds.classes_eq, ← hes.classes_eq]
    cases h with
    | object left right names keys parts => exact mem_classes_iff_of_keys keys c
  · rw [List.forall_mem_map]
    intro d hd
    rw [List.forall_mem_map]
    intro e he hclass
    exact key_same_of_same (hacross d ((distinctDeclarations_sublist [] ds).subset hd) e
      ((distinctDeclarations_sublist [] es).subset he) hclass)

end Objects

theorem keysAgree_branches (m n : Mark) (combinator : Combinator) {as bs : List Model}
    (ha : Good (wrap m combinator as)) (hb : Good (wrap n combinator bs))
    (h : List.Forall₂ Alike as bs)
    (hagree : ∀ c ∈ as ++ bs, ∀ d ∈ as ++ bs, Alike c d → KeysAgree c d) :
    KeysAgree (wrap m combinator as) (wrap n combinator bs) := by
  rw [keysAgree_wrap_iff ha hb]
  obtain ⟨length, parts⟩ := forall₂_iff_getElem?.mp h
  refine forall₂_iff_getElem?.mpr ⟨length, fun i a b hi hi' => ?_⟩
  exact hagree a (List.mem_append_left _ (List.mem_of_getElem? hi)) b
    (List.mem_append_right _ (List.mem_of_getElem? hi')) (parts i a b hi hi')

/-- Equal models have equal keys when no object declares a name twice with different models. -/
theorem keysAgree_of_alike {a b : Model} (ha : Sound a) (hb : Sound b) (h : Alike a b)
    (ha' : a.Unambiguous) (hb' : b.Unambiguous) : KeysAgree a b := by
  revert ha' hb'
  refine alikeInduction (P := fun a b => a.Unambiguous → b.Unambiguous → KeysAgree a b) ?_ ha hb h
  intro a b ha hb h ih ha' hb'
  have hinner : ∀ c ∈ a.inner ++ b.inner, c.Unambiguous := fun c hc =>
    (List.mem_append.mp hc).elim (fun hmem => ha'.inner hmem) fun hmem => hb'.inner hmem
  have hagree : ∀ c ∈ a.inner ++ b.inner, ∀ d ∈ a.inner ++ b.inner, Alike c d → KeysAgree c d :=
    fun c hc d hd hcd => ih c hc d hd hcd (hinner c hc) (hinner d hd)
  have halike := h
  cases h with
  | unknown | never | null | boolean | number | string =>
      exact ⟨.plain, .plain, rfl, rfl, rfl⟩
  | literal left right equal =>
      exact keysAgree_literal left right (ha.nanFree.self _ List.mem_cons_self) equal
  | enum left right forth back =>
      exact keysAgree_enum (data_of_good_enum left) (data_of_good_enum right) ha.nanFree.self forth
        back
  | array items =>
      rw [keysAgree_array_iff items.good_left items.good_right]
      exact hagree _ (by simp [inner]) _ (by simp [inner]) items
  | object =>
      refine keysAgree_object ha hb ((declaresAlike_iff ha).mp ha'.self)
        ((declaresAlike_iff hb).mp hb'.self) halike fun p hp q hq => ?_
      rw [inner, inner, ← List.map_append] at hagree
      exact hagree p.2 (List.mem_map_of_mem hp) q.2 (List.mem_map_of_mem hq)
  | @oneOf m n _ _ _ length parts =>
      exact keysAgree_branches m n .oneOf ha.good hb.good
        (forall₂_iff_getElem?.mpr ⟨length, parts⟩) hagree
  | anyOf _ length parts =>
      exact keysAgree_branches default default .anyOf ha.good hb.good
        (forall₂_iff_getElem?.mpr ⟨length, parts⟩) hagree
  | allOf _ length parts =>
      exact keysAgree_branches default default .allOf ha.good hb.good
        (forall₂_iff_getElem?.mpr ⟨length, parts⟩) hagree

/-! ## Keys that differ -/

section Objects

variable {as bs : List (Key × Model)} {r s : List Text} {x : Bool} {ds es : List Declaration}

theorem nodup_of_unambiguous (h : Sound (.object as r x)) (hclear : (object as r x).Unambiguous)
    (hds : Declared as ds) : (declaredClasses (distinctDeclarations [] ds)).Nodup := by
  refine nodup_declaredClasses_distinct (same_of_alikeByName h h hds hds
    ((declaresAlike_iff h).mp hclear.self) fun p hp q hq hpq => ?_)
  exact keysAgree_of_alike (h.property hp) (h.property hq) hpq (hclear.property hp)
    (hclear.property hq)

/-- Every declaration stands for itself in the set, or is one with the first of its kind. -/
theorem exists_first (h : Sound (.object as r x)) (hds : Declared as ds) {d : Declaration}
    (hd : d ∈ ds) :
    ∃ first ∈ distinctDeclarations [] ds, first.name.keyClass = d.name.keyClass ∧
      Alike first.model d.model ∧ (first = d ∨ KeysAgree first.model d.model) := by
  have hself : ∀ d ∈ ds, Alike d.model d.model := fun d hd => (h.property (hds.mem hd)).alike_self
  rcases mem_or_same_of_mem [] ds d hd with hkept | ⟨first, hkept, hsame⟩
  · exact ⟨d, hkept, rfl, hself d hd, .inl rfl⟩
  · have hfirst := (distinctDeclarations_sublist [] ds).subset hkept
    obtain ⟨hclass, hkeys, halike⟩ := (same_declaration_iff (hds.keys first hfirst) (hds.keys d hd)
      (hself first hfirst) (hself d hd)).mp hsame
    exact ⟨first, hkept, hclass, halike, .inr hkeys⟩

theorem alikeByName_of_nodup (h : Sound (.object as r x)) (hds : Declared as ds)
    (hnodup : (declaredClasses (distinctDeclarations [] ds)).Nodup) : AlikeByName as as := by
  intro p hp q hq hclass
  obtain ⟨d, hd, rfl⟩ := hds.exists_of_mem hp
  obtain ⟨e, he, rfl⟩ := hds.exists_of_mem hq
  obtain ⟨first, hfirst, hname, halike, -⟩ := exists_first h hds hd
  obtain ⟨first', hfirst', hname', halike', -⟩ := exists_first h hds he
  -- The set has only one declaration of the name.
  have hone : first = first' := List.inj_on_of_nodup_map hnodup hfirst hfirst'
    (hname.trans (hclass.trans hname'.symm))
  subst hone
  exact halike.symm.trans halike'

theorem unambiguous_of_firsts (h : Sound (.object as r x)) (hds : Declared as ds)
    (hnodup : (declaredClasses (distinctDeclarations [] ds)).Nodup)
    (hfirsts : ∀ d ∈ distinctDeclarations [] ds, d.model.Unambiguous)
    (hparts : ∀ p ∈ as, ∀ q ∈ as, Alike p.2 q.2 → KeysAgree p.2 q.2 →
      (p.2.Unambiguous ↔ q.2.Unambiguous)) : (object as r x).Unambiguous := by
  refine throughout_iff.mpr ⟨(declaresAlike_iff h).mpr (alikeByName_of_nodup h hds hnodup), ?_⟩
  intro part hpart
  obtain ⟨p, hp, rfl⟩ := List.mem_map.mp hpart
  obtain ⟨d, hd, rfl⟩ := hds.exists_of_mem hp
  obtain ⟨first, hfirst, -, halike, rfl | hkeys⟩ := exists_first h hds hd
  · exact hfirsts first hfirst
  · have hmem := hds.mem ((distinctDeclarations_sublist [] ds).subset hfirst)
    exact (hparts _ hmem _ hp halike hkeys).mp (hfirsts first hfirst)

/-- A hidden declaration adds a key to one set, which the set on the other side must match. -/
theorem unambiguous_object_iff (ha : Sound (.object as r x)) (hb : Sound (.object bs s x))
    (h : Alike (.object as r x) (.object bs s x))
    (hkeys : KeysAgree (.object as r x) (.object bs s x))
    (hparts : ∀ p ∈ as ++ bs, ∀ q ∈ as ++ bs, Alike p.2 q.2 → KeysAgree p.2 q.2 →
      (p.2.Unambiguous ↔ q.2.Unambiguous)) :
    (object as r x).Unambiguous ↔ (object bs s x).Unambiguous := by
  obtain ⟨ds, hds⟩ := ha.exists_declared
  obtain ⟨es, hes⟩ := hb.exists_declared
  have hsub := (distinctDeclarations_sublist [] ds).subset
  have hsub' := (distinctDeclarations_sublist [] es).subset
  obtain ⟨hperm, forth, back⟩ :=
    ModelKey.partners_of_pairOff ((keysAgree_object_iff hds hes h).mp hkeys)
  rw [classes_entries, classes_entries] at hperm
  -- Pairing off keeps count of the names: where one set has each of them once, so has the other.
  have hpartner : (declaredClasses (distinctDeclarations [] ds)).Nodup →
      (declaredClasses (distinctDeclarations [] es)).Nodup →
      ∀ d ∈ distinctDeclarations [] ds, ∀ e ∈ distinctDeclarations [] es,
        d.name.keyClass = e.name.keyClass → d.key.same e.key = true →
          (d.model.Unambiguous ↔ e.model.Unambiguous) := by
    intro hnodup hnodup' d hd e he hclass hsame
    have hp := hds.mem (hsub hd)
    have hq := hes.mem (hsub' he)
    refine hparts _ (List.mem_append_left _ hp) _ (List.mem_append_right _ hq) ?_ ?_
    · exact alikeByName_of_alike (alikeByName_of_nodup ha hds hnodup)
        (alikeByName_of_nodup hb hes hnodup') h _ hp _ hq hclass
    · exact (keysAgree_iff (hds.keys d (hsub hd)) (hes.keys e (hsub' he))).mpr hsame
  constructor
  · intro hclear
    have hnodup := nodup_of_unambiguous ha hclear hds
    have hnodup' := hperm.nodup_iff.mp hnodup
    refine unambiguous_of_firsts hb hes hnodup' (fun e he => ?_) fun p hp q hq =>
      hparts p (List.mem_append_right _ hp) q (List.mem_append_right _ hq)
    obtain ⟨entry, hmem, hclass, hsame⟩ := back (e.name, e.key) (List.mem_map_of_mem he)
    obtain ⟨d, hd, rfl⟩ := List.mem_map.mp hmem
    exact (hpartner hnodup hnodup' d hd e he hclass hsame).mp
      (hclear.property (hds.mem (hsub hd)))
  · intro hclear
    have hnodup' := nodup_of_unambiguous hb hclear hes
    have hnodup := hperm.nodup_iff.mpr hnodup'
    refine unambiguous_of_firsts ha hds hnodup (fun d hd => ?_) fun p hp q hq =>
      hparts p (List.mem_append_left _ hp) q (List.mem_append_left _ hq)
    obtain ⟨entry, hmem, hclass, hsame⟩ := forth (d.name, d.key) (List.mem_map_of_mem hd)
    obtain ⟨e, he, rfl⟩ := List.mem_map.mp hmem
    exact (hpartner hnodup hnodup' d hd e he hclass hsame).mpr
      (hclear.property (hes.mem (hsub' he)))

end Objects

theorem unambiguous_iff_inner {model : Model} (h : model.declaresAlike = true) :
    model.Unambiguous ↔ ∀ part ∈ model.inner, part.Unambiguous := by
  rw [Unambiguous, throughout_iff]
  exact and_iff_right h

theorem unambiguous_branches_iff (m n : Mark) (combinator : Combinator) {as bs : List Model}
    (ha : Good (wrap m combinator as)) (hb : Good (wrap n combinator bs))
    (h : List.Forall₂ Alike as bs)
    (hkeys : KeysAgree (wrap m combinator as) (wrap n combinator bs))
    (hparts : ∀ c ∈ as ++ bs, ∀ d ∈ as ++ bs, Alike c d → KeysAgree c d →
      (c.Unambiguous ↔ d.Unambiguous)) :
    (wrap m combinator as).Unambiguous ↔ (wrap n combinator bs).Unambiguous := by
  rw [keysAgree_wrap_iff ha hb] at hkeys
  rw [unambiguous_iff_inner (by cases combinator <;> rfl),
    unambiguous_iff_inner (by cases combinator <;> rfl), inner_wrap, inner_wrap]
  obtain ⟨length, halike⟩ := forall₂_iff_getElem?.mp h
  obtain ⟨-, hagree⟩ := forall₂_iff_getElem?.mp hkeys
  have hiff : List.Forall₂ (fun a b => a.Unambiguous ↔ b.Unambiguous) as bs := by
    refine forall₂_iff_getElem?.mpr ⟨length, fun i a b hi hi' => ?_⟩
    exact hparts a (List.mem_append_left _ (List.mem_of_getElem? hi)) b
      (List.mem_append_right _ (List.mem_of_getElem? hi')) (halike i a b hi hi')
      (hagree i a b hi hi')
  exact forall_mem_iff_of_forall₂ hiff id

/-- Of models that are alike and have the same key, both hide declarations or neither does. -/
theorem unambiguous_iff_of_keysAgree {a b : Model} (ha : Sound a) (hb : Sound b) (h : Alike a b)
    (hkeys : KeysAgree a b) : a.Unambiguous ↔ b.Unambiguous := by
  revert hkeys
  refine alikeInduction (P := fun a b => KeysAgree a b → (a.Unambiguous ↔ b.Unambiguous)) ?_ ha hb h
  intro a b ha hb h ih hkeys
  have halike := h
  cases h with
  | unknown | never | null | boolean | number | string => exact Iff.rfl
  | literal | enum =>
      rw [unambiguous_iff_inner rfl, unambiguous_iff_inner rfl]
      exact Iff.rfl
  | array items =>
      rw [keysAgree_array_iff items.good_left items.good_right] at hkeys
      rw [unambiguous_iff_inner rfl, unambiguous_iff_inner rfl]
      simpa [inner] using ih _ (by simp [inner]) _ (by simp [inner]) items hkeys
  | object =>
      refine unambiguous_object_iff ha hb halike hkeys fun p hp q hq => ?_
      rw [inner, inner, ← List.map_append] at ih
      exact ih p.2 (List.mem_map_of_mem hp) q.2 (List.mem_map_of_mem hq)
  | @oneOf m n _ _ _ length parts =>
      exact unambiguous_branches_iff m n .oneOf ha.good hb.good
        (forall₂_iff_getElem?.mpr ⟨length, parts⟩) hkeys ih
  | anyOf _ length parts =>
      exact unambiguous_branches_iff default default .anyOf ha.good hb.good
        (forall₂_iff_getElem?.mpr ⟨length, parts⟩) hkeys ih
  | allOf _ length parts =>
      exact unambiguous_branches_iff default default .allOf ha.good hb.good
        (forall₂_iff_getElem?.mpr ⟨length, parts⟩) hkeys ih

/-- Equal models have keys.  If one of the models declares no name twice with different models, the
keys are equal exactly when neither does. -/
theorem hashKey_follows_equality (a b : Comparable) (h : a.1.same b.1 = true) :
    ∃ key key', a.1.hashKey = .ok key ∧ b.1.hashKey = .ok key' ∧
      (a.1.Unambiguous ∨ b.1.Unambiguous →
        (key.same key' = true ↔ a.1.Unambiguous ∧ b.1.Unambiguous)) := by
  have ha : Sound a.1 := ⟨a.2.1, a.2.2⟩
  have hb : Sound b.1 := ⟨b.2.1, b.2.2⟩
  have halike := (a.same_iff b).mp h
  obtain ⟨key, hkey⟩ := ha.good.exists_hashKey
  obtain ⟨key', hkey'⟩ := hb.good.exists_hashKey
  refine ⟨key, key', hkey, hkey', fun hone => ?_⟩
  rw [← keysAgree_iff hkey hkey']
  constructor
  · intro hkeys
    have hiff := unambiguous_iff_of_keysAgree ha hb halike hkeys
    rcases hone with hclear | hclear
    · exact ⟨hclear, hiff.mp hclear⟩
    · exact ⟨hiff.mpr hclear, hclear⟩
  · exact fun hclear => keysAgree_of_alike ha hb halike hclear.1 hclear.2

/-- A name declared twice alike, properties in another order and values in another order. -/
theorem hashKey_follows_equality_of_reordered :
    ∃ a b : Comparable,
      a.1 = .object [(.str "a", .enum default [.str "x", .null]), (.str "b", .string),
        (.str "a", .enum (.start 1) [.null, .str "x"])] ["a", "b"] true ∧
      b.1 = .object [(.str "b", .string), (.str "a", .enum (.start 2) [.null, .str "x"])] ["b", "a"]
        true ∧
      a.1.Unambiguous ∧ b.1.Unambiguous ∧ a.1.same b.1 = true ∧ KeysAgree a.1 b.1 := by
  have henum : ∀ mark, Good (.enum mark [.str "x", .null]) := fun mark =>
    .enum (by decide) (by simp [Value.isData_iff, Value.isJson, Value.distinctKeys]) (by decide)
  have henum' : ∀ mark, Good (.enum mark [.null, .str "x"]) := fun mark =>
    .enum (by decide) (by simp [Value.isData_iff, Value.isJson, Value.distinctKeys]) (by decide)
  let a : Comparable :=
    ⟨.object [(.str "a", .enum default [.str "x", .null]), (.str "b", .string),
        (.str "a", .enum (.start 1) [.null, .str "x"])] ["a", "b"] true,
      .object (by simp [henum, henum', Good.string]) (by decide),
      by unfold NanFree Throughout; decide⟩
  let b : Comparable :=
    ⟨.object [(.str "b", .string), (.str "a", .enum (.start 2) [.null, .str "x"])] ["b", "a"] true,
      .object (by simp [henum', Good.string]) (by decide), by unfold NanFree Throughout; decide⟩
  have ha : Unambiguous (.object [(.str "a", .enum default [.str "x", .null]), (.str "b", .string),
      (.str "a", .enum (.start 1) [.null, .str "x"])] ["a", "b"] true) := by
    unfold Unambiguous Throughout
    decide
  have hb : Unambiguous (.object [(.str "b", .string),
      (.str "a", .enum (.start 2) [.null, .str "x"])] ["b", "a"] true) := by
    unfold Unambiguous Throughout
    decide
  have hsame : a.1.same b.1 = true := rfl
  obtain ⟨key, key', hkey, hkey', hiff⟩ := hashKey_follows_equality a b hsame
  exact ⟨a, b, rfl, rfl, ha, hb, hsame, key, key', hkey, hkey', (hiff (.inl ha)).mpr ⟨ha, hb⟩⟩

/-- A hidden declaration that differs: the two models are equal, their keys are not, and a table
holds both. -/
theorem hidden_declaration_changes_hashKey :
    ∃ (a b : Comparable) (key key' : ModelKey),
      a.1 = .object [(.str "a", .literal default (.str "x")), (.str "a", .number)] [] true ∧
      b.1 = .object [(.str "a", .number)] [] true ∧
      a.1.same b.1 = true ∧ a.1.hashKey = .ok key ∧ b.1.hashKey = .ok key' ∧
      key.same key' = false ∧ firsts [a.1, b.1] = .ok [0, 1] := by
  have hliteral : Good (.literal default (.str "x")) := .literal (Value.isData_iff.mpr (by decide))
  let a : Comparable :=
    ⟨.object [(.str "a", .literal default (.str "x")), (.str "a", .number)] [] true,
      .object (by simp [hliteral, Good.number]) (by decide), by unfold NanFree Throughout; decide⟩
  let b : Comparable :=
    ⟨.object [(.str "a", .number)] [] true, .object (by simp [Good.number]) (by decide),
      by unfold NanFree Throughout; decide⟩
  exact ⟨a, b, _, _, rfl, rfl, rfl, rfl, rfl, rfl, rfl⟩

end Model

end SchemaModel
