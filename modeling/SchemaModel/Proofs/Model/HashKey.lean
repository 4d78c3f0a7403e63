import SchemaModel.Model.HashKey
import SchemaModel.Proofs.Model.Parts
import SchemaModel.Proofs.Value.HashKey

/-!
# Keys of models

Every good model has a key.  The keys of two models of one form agree when those of their parts do;
for objects, when the sets of their declarations can be paired off.  A set keeps the first of the
declarations that are one, hence every name.
-/

namespace SchemaModel

namespace ModelKey

theorem sameEach_iff {as bs : List ModelKey} :
    sameEach as bs = true ↔ List.Forall₂ (fun a b => same a b = true) as bs := by
  induction as generalizing bs with
  | nil => cases bs <;> simp [sameEach]
  | cons a as ih => cases bs <;> simp [sameEach, ih]

/-- Declarations that are paired off stand side by side after a rearrangement. -/
theorem exists_perm_of_pairOff {as bs : List (Key × ModelKey)} (h : pairOff as bs = true) :
    ∃ partners, partners.Perm bs ∧
      List.Forall₂ (fun a b => a.1.keyClass = b.1.keyClass ∧ a.2.same b.2 = true) as partners := by
  induction as generalizing bs with
  | nil =>
      rw [pairOff, List.isEmpty_iff] at h
      exact ⟨[], h ▸ .nil, .nil⟩
  | cons a as ih =>
      obtain ⟨name, key⟩ := a
      rw [pairOff, Bool.and_eq_true] at h
      obtain ⟨b, hb, hpair⟩ := List.any_eq_true.mp h.1
      obtain ⟨taken, before, after, -, htaken, rfl, herase⟩ :=
        List.exists_of_eraseP (p := fun entry => name.same entry.1 && same key entry.2) hb hpair
      rw [Bool.and_eq_true, Key.same_iff] at htaken
      obtain ⟨partners, hperm, hpartners⟩ := ih (herase ▸ h.2)
      exact ⟨taken :: partners, (hperm.cons taken).trans List.perm_middle.symm,
        .cons htaken hpartners⟩

/-- Declarations that are paired off have the same names, each with an equal key. -/
theorem partners_of_pairOff {as bs : List (Key × ModelKey)} (h : pairOff as bs = true) :
    (Entries.classes as).Perm (Entries.classes bs) ∧
      (∀ a ∈ as, ∃ b ∈ bs, a.1.keyClass = b.1.keyClass ∧ a.2.same b.2 = true) ∧
      ∀ b ∈ bs, ∃ a ∈ as, a.1.keyClass = b.1.keyClass ∧ a.2.same b.2 = true := by
  obtain ⟨partners, hperm, hpartners⟩ := exists_perm_of_pairOff h
  refine ⟨?_, fun a ha => ?_, fun b hb => ?_⟩
  · rw [Entries.classes_eq_of_forall₂ (hpartners.imp fun _ _ hab => hab.1)]
    exact hperm.map _
  · obtain ⟨b, hb, hab⟩ := exists_mem_of_forall₂ hpartners a ha
    exact ⟨b, hperm.mem_iff.mp hb, hab⟩
  · exact exists_mem_of_forall₂ hpartners.flip b (hperm.mem_iff.mpr hb)

/-- Declarations of different names are paired off by their names. -/
theorem pairOff_of_names {as bs : List (Key × ModelKey)} (has : (Entries.classes as).Nodup)
    (hbs : (Entries.classes bs).Nodup)
    (hnames : ∀ c, c ∈ Entries.classes as ↔ c ∈ Entries.classes bs)
    (hkeys : ∀ a ∈ as, ∀ b ∈ bs, a.1.keyClass = b.1.keyClass → a.2.same b.2 = true) :
    pairOff as bs = true := by
  induction as generalizing bs with
  | nil =>
      cases bs with
      | nil => rfl
      | cons b bs => cases (hnames b.1.keyClass).mpr List.mem_cons_self
  | cons a as ih =>
      obtain ⟨name, key⟩ := a
      obtain ⟨hfirst, hrest⟩ := List.forall_mem_cons.mp hkeys
      obtain ⟨b, hb, hclass⟩ := List.mem_map.mp ((hnames name.keyClass).mp List.mem_cons_self)
      have hpair : (name.same b.1 && same key b.2) = true := by
        rw [Bool.and_eq_true, Key.same_iff]
        exact ⟨hclass.symm, hfirst b hb hclass.symm⟩
      -- The one declaration of the name is taken out; the others keep their partners.
      obtain ⟨taken, before, after, -, htaken, rfl, herase⟩ :=
        List.exists_of_eraseP (p := fun entry => name.same entry.1 && same key entry.2) hb hpair
      rw [Bool.and_eq_true, Key.same_iff] at htaken
      rw [pairOff, List.any_eq_true.mpr ⟨b, hb, hpair⟩, Bool.true_and, herase]
      have hsplit : Entries.classes (before ++ taken :: after) =
          Entries.classes before ++ taken.1.keyClass :: Entries.classes after := List.map_append
      have hrejoin : Entries.classes (before ++ after) =
          Entries.classes before ++ Entries.classes after := List.map_append
      have hsub : (before ++ after).Sublist (before ++ taken :: after) :=
        List.Sublist.append_left (List.sublist_cons_self taken after) before
      rw [Entries.classes_cons, List.nodup_cons] at has
      refine ih has.2 (hbs.sublist (hsub.map _)) (fun c => ?_) fun a' ha' b' hb' =>
        hrest a' ha' b' (hsub.subset hb')
      have hc := hnames c
      rw [hsplit] at hbs hc
      rw [hrejoin]
      grind [Entries.classes_cons]

end ModelKey

/-! ## Sets of declarations -/

/-- The classes of declared names. -/
def declaredClasses (declarations : List Declaration) : List KeyClass :=
  declarations.map (·.name.keyClass)

theorem distinctDeclarations_sublist (held declarations : List Declaration) :
    (distinctDeclarations held declarations).Sublist declarations := by
  induction declarations generalizing held with
  | nil => exact .slnil
  | cons declaration declarations ih =>
      rw [distinctDeclarations]
      split
      · exact (ih held).cons declaration
      · exact (ih _).cons_cons declaration

theorem keyClass_eq_of_same {d e : Declaration} (h : d.same e = true) :
    d.name.keyClass = e.name.keyClass := by
  rw [Declaration.same, Bool.and_eq_true, Bool.and_eq_true, Key.same_iff] at h
  exact h.1.1

theorem key_same_of_same {d e : Declaration} (h : d.same e = true) : d.key.same e.key = true := by
  rw [Declaration.same, Bool.and_eq_true, Bool.and_eq_true] at h
  exact h.1.2

/-- A declaration is in a set, or the set holds one that counts as the same. -/
theorem mem_or_same_of_mem (held declarations : List Declaration) :
    ∀ d ∈ declarations, d ∈ held ++ distinctDeclarations held declarations ∨
      ∃ first ∈ held ++ distinctDeclarations held declarations, first.same d = true := by
  induction declarations generalizing held with
  | nil => exact List.forall_mem_nil _
  | cons declaration declarations ih =>
      rw [List.forall_mem_cons, distinctDeclarations]
      split
      · next hold =>
        obtain ⟨first, hmem, hsame⟩ := List.any_eq_true.mp hold
        exact ⟨.inr ⟨first, List.mem_append_left _ hmem, hsame⟩, ih held⟩
      · rw [List.append_cons]
        exact ⟨.inl (by simp), ih (held ++ [declaration])⟩

/-- A set of declarations keeps every name. -/
theorem mem_declaredClasses_distinct {declarations : List Declaration} {c : KeyClass} :
    c ∈ declaredClasses (distinctDeclarations [] declarations) ↔
      c ∈ declaredClasses declarations := by
  constructor
  · exact fun h => ((distinctDeclarations_sublist [] declarations).map _).subset h
  · intro h
    obtain ⟨d, hd, rfl⟩ := List.mem_map.mp h
    rcases mem_or_same_of_mem [] declarations d hd with hkept | ⟨first, hkept, hsame⟩
    · exact List.mem_map_of_mem hkept
    · exact List.mem_map.mpr ⟨first, hkept, keyClass_eq_of_same hsame⟩

theorem classes_entries (declarations : List Declaration) :
    Entries.classes (declarations.map fun d => (d.name, d.key)) = declaredClasses declarations :=
  List.map_map

/-- No two declarations of a set count as the same. -/
theorem pairwise_distinctDeclarations {held : List Declaration} (declarations : List Declaration)
    (hheld : held.Pairwise fun d e => d.same e = false) :
    (held ++ distinctDeclarations held declarations).Pairwise fun d e => d.same e = false := by
  induction declarations generalizing held with
  | nil => simpa [distinctDeclarations] using hheld
  | cons declaration declarations ih =>
      rw [distinctDeclarations]
      split
      · exact ih hheld
      · next hnew =>
        rw [List.append_cons]
        exact ih (List.pairwise_append.mpr
          ⟨hheld, List.pairwise_singleton _ _, by simpa using hnew⟩)

/-- When declarations of one name are all one, a set of them has each name once. -/
theorem nodup_declaredClasses_distinct {declarations : List Declaration}
    (hone : ∀ d ∈ declarations, ∀ e ∈ declarations, d.name.keyClass = e.name.keyClass →
      d.same e = true) :
    (declaredClasses (distinctDeclarations [] declarations)).Nodup := by
  have hsub := (distinctDeclarations_sublist [] declarations).subset
  rw [declaredClasses, List.Nodup, List.pairwise_map]
  refine (pairwise_distinctDeclarations declarations .nil).imp_of_mem ?_
  intro d e hd he hdiffer hclass
  exact Bool.false_ne_true (hdiffer.symm.trans (hone d (hsub hd) e (hsub he) hclass))

namespace Model

/-! ## The key that is computed -/

theorem hashKey_literal {mark : Mark} {value : Value} {key : HashKey} (h : value.Keyed key) :
    (literal mark value).hashKey = .ok (.literal key) := by
  simp only [hashKey, h.hashKey_eq, bind, Except.bind,
    Value.hashable_eq_ok h.unhashable?_eq_none]

theorem hashableKeys_eq_ok {values : List Value} {keys : List HashKey}
    (h : List.Forall₂ Value.Keyed values keys) : hashableKeys values = .ok keys := by
  induction h with
  | nil => rfl
  | cons hkey _ ih =>
      simp only [hashableKeys, hkey.hashKey_eq, bind, Except.bind,
        Value.hashable_eq_ok hkey.unhashable?_eq_none, ih]

theorem hashKey_enum {mark : Mark} {values : List Value} {keys : List HashKey}
    (h : List.Forall₂ Value.Keyed values keys) : (enum mark values).hashKey = .ok (.enum keys) := by
  simp only [hashKey, hashableKeys_eq_ok h, bind, Except.bind]

theorem hashKey_array {items : Model} {key : ModelKey} (h : items.hashKey = .ok key) :
    (array items).hashKey = .ok (.array key) := by
  simp only [hashKey, h, bind, Except.bind]

theorem branchKeys_eq_ok {branches : List Model} {keys : List ModelKey}
    (h : List.Forall₂ (fun branch key => branch.hashKey = .ok key) branches keys) :
    branchKeys branches = .ok keys := by
  induction h with
  | nil => rfl
  | cons hkey _ ih => simp only [branchKeys, hkey, bind, Except.bind, ih]

theorem hashKey_wrap {branches : List Model} {keys : List ModelKey}
    (h : List.Forall₂ (fun branch key => branch.hashKey = .ok key) branches keys) (mark : Mark)
    (combinator : Combinator) : (wrap mark combinator branches).hashKey = .ok (.branches keys) := by
  cases combinator <;> simp only [wrap, hashKey, branchKeys_eq_ok h, bind, Except.bind]

/-- The declarations of properties, each with the key of its model. -/
structure Declared (properties : List (Key × Model)) (ds : List Declaration) : Prop where
  properties_eq : properties = ds.map fun d => (d.name, d.model)
  keys : ∀ d ∈ ds, d.model.hashKey = .ok d.key

theorem exists_declared {properties : List (Key × Model)}
    (h : ∀ entry ∈ properties, ∃ key, entry.2.hashKey = .ok key) :
    ∃ ds, Declared properties ds := by
  induction properties with
  | nil => exact ⟨[], rfl, List.forall_mem_nil _⟩
  | cons entry properties ih =>
      obtain ⟨name, model⟩ := entry
      obtain ⟨⟨key, hkey⟩, hrest⟩ := List.forall_mem_cons.mp h
      obtain ⟨ds, rfl, hkeys⟩ := ih hrest
      exact ⟨⟨name, model, key⟩ :: ds, rfl, List.forall_mem_cons.mpr ⟨hkey, hkeys⟩⟩

section Declared

variable {properties : List (Key × Model)} {ds : List Declaration}

theorem Declared.declarations_eq (h : Declared properties ds) :
    declarations properties = .ok ds := by
  obtain ⟨rfl, hkeys⟩ := h
  induction ds with
  | nil => rfl
  | cons d ds ih =>
      obtain ⟨hkey, hrest⟩ := List.forall_mem_cons.mp hkeys
      simp only [List.map_cons, declarations, hkey, bind, Except.bind, ih hrest]

theorem Declared.hashKey_eq (h : Declared properties ds) (required : List Text)
    (additional : Bool) :
    (object properties required additional).hashKey = .ok (.object
      ((distinctDeclarations [] ds).map fun d => (d.name, d.key)) required additional) := by
  simp only [hashKey, h.declarations_eq, bind, Except.bind]

theorem Declared.mem (h : Declared properties ds) {d : Declaration} (hd : d ∈ ds) :
    (d.name, d.model) ∈ properties := by
  rw [h.properties_eq]
  exact List.mem_map_of_mem hd

theorem Declared.exists_of_mem (h : Declared properties ds) {entry : Key × Model}
    (hmem : entry ∈ properties) : ∃ d ∈ ds, (d.name, d.model) = entry := by
  rw [h.properties_eq] at hmem
  exact List.mem_map.mp hmem

theorem Declared.classes_eq (h : Declared properties ds) :
    Entries.classes properties = declaredClasses ds := by
  rw [h.properties_eq]
  exact List.map_map

end Declared

/-- Every good model has a key. -/
theorem Good.exists_hashKey {model : Model} (h : Good model) : ∃ key, model.hashKey = .ok key := by
  induction h with
  | unknown | never | null | boolean | number | string => exact ⟨.plain, rfl⟩
  | literal data =>
      obtain ⟨key, hkey⟩ := data.exists_keyed
      exact ⟨_, hashKey_literal hkey⟩
  | enum nonempty data distinct =>
      obtain ⟨keys, hkeys⟩ := exists_forall₂ fun value hmem => (data value hmem).exists_keyed
      exact ⟨_, hashKey_enum hkeys⟩
  | array good ih =>
      obtain ⟨key, hkey⟩ := ih
      exact ⟨_, hashKey_array hkey⟩
  | object good declared ih =>
      obtain ⟨ds, hds⟩ := exists_declared ih
      exact ⟨_, hds.hashKey_eq _ _⟩
  | oneOf nonempty good ih =>
      obtain ⟨keys, hkeys⟩ := exists_forall₂ ih
      exact ⟨_, hashKey_wrap hkeys _ .oneOf⟩
  | anyOf nonempty good ih =>
      obtain ⟨keys, hkeys⟩ := exists_forall₂ ih
      exact ⟨_, hashKey_wrap hkeys default .anyOf⟩
  | allOf nonempty good ih =>
      obtain ⟨keys, hkeys⟩ := exists_forall₂ ih
      exact ⟨_, hashKey_wrap hkeys default .allOf⟩

/-- Both models have keys, and these are equal. -/
def KeysAgree (a b : Model) : Prop :=
  ∃ key key', a.hashKey = .ok key ∧ b.hashKey = .ok key' ∧ key.same key' = true

theorem keysAgree_iff {a b : Model} {key key' : ModelKey} (ha : a.hashKey = .ok key)
    (hb : b.hashKey = .ok key') : KeysAgree a b ↔ key.same key' = true := by
  simp only [KeysAgree, ha, hb, Except.ok.injEq, exists_and_left, exists_eq_left']

theorem keysAgree_literal {m n : Mark} {a b : Value} (ha : a.IsData) (hb : b.IsData)
    (hnan : a.nanFree = true) (h : a.jsonEqual b = true) :
    KeysAgree (.literal m a) (.literal n b) := by
  obtain ⟨key, hkey⟩ := ha.exists_keyed
  obtain ⟨key', hkey'⟩ := hb.exists_keyed
  rw [keysAgree_iff (hashKey_literal hkey) (hashKey_literal hkey'), ModelKey.same]
  exact (hkey.discerns hnan b key' hkey').mpr h

/-- The keys of the values, taken as a set, do not tell their order. -/
theorem keysAgree_enum {m n : Mark} {as bs : List Value} (has : ∀ a ∈ as, a.IsData)
    (hbs : ∀ b ∈ bs, b.IsData) (hnan : ∀ a ∈ as, a.nanFree = true)
    (forth : ∀ a ∈ as, ∃ b ∈ bs, a.jsonEqual b = true)
    (back : ∀ b ∈ bs, ∃ a ∈ as, a.jsonEqual b = true) :
    KeysAgree (.enum m as) (.enum n bs) := by
  obtain ⟨keys, hkeys⟩ := exists_forall₂ fun a ha => (has a ha).exists_keyed
  obtain ⟨keys', hkeys'⟩ := exists_forall₂ fun b hb => (hbs b hb).exists_keyed
  rw [keysAgree_iff (hashKey_enum hkeys) (hashKey_enum hkeys')]
  simp only [ModelKey.same, HashKey.sameSet, Bool.and_eq_true, List.all_eq_true, List.any_eq_true]
  constructor
  · intro key hkey
    obtain ⟨a, ha, hakey⟩ := exists_mem_of_forall₂ hkeys.flip key hkey
    obtain ⟨b, hb, hab⟩ := forth a ha
    obtain ⟨key', hkey', hbkey⟩ := exists_mem_of_forall₂ hkeys' b hb
    exact ⟨key', hkey', (hakey.discerns (hnan a ha) b key' hbkey).mpr hab⟩
  · intro key' hkey'
    obtain ⟨b, hb, hbkey⟩ := exists_mem_of_forall₂ hkeys'.flip key' hkey'
    obtain ⟨a, ha, hab⟩ := back b hb
    obtain ⟨key, hkey, hakey⟩ := exists_mem_of_forall₂ hkeys a ha
    exact ⟨key, hkey, (hakey.discerns (hnan a ha) b key' hbkey).mpr hab⟩

theorem keysAgree_array_iff {a b : Model} (ha : Good a) (hb : Good b) :
    KeysAgree (.array a) (.array b) ↔ KeysAgree a b := by
  obtain ⟨key, hkey⟩ := ha.exists_hashKey
  obtain ⟨key', hkey'⟩ := hb.exists_hashKey
  rw [keysAgree_iff (hashKey_array hkey) (hashKey_array hkey'), keysAgree_iff hkey hkey',
    ModelKey.same]

theorem keysAgree_wrap_iff {m n : Mark} {combinator : Combinator} {as bs : List Model}
    (ha : Good (wrap m combinator as)) (hb : Good (wrap n combinator bs)) :
    KeysAgree (wrap m combinator as) (wrap n combinator bs) ↔ List.Forall₂ KeysAgree as bs := by
  have has : ∀ a ∈ as, Good a := fun a hmem => ha.inner (by rwa [inner_wrap])
  have hbs : ∀ b ∈ bs, Good b := fun b hmem => hb.inner (by rwa [inner_wrap])
  obtain ⟨keys, hkeys⟩ := exists_forall₂ fun a hmem => (has a hmem).exists_hashKey
  obtain ⟨keys', hkeys'⟩ := exists_forall₂ fun b hmem => (hbs b hmem).exists_hashKey
  rw [keysAgree_iff (hashKey_wrap hkeys m combinator) (hashKey_wrap hkeys' n combinator),
    ModelKey.same, ModelKey.sameEach_iff, forall₂_iff_optionRel, forall₂_iff_optionRel]
  refine forall_congr' fun i => optionRel_congr (forall₂_iff_optionRel.mp hkeys i)
    (forall₂_iff_optionRel.mp hkeys' i) ?_
  exact fun a key b key' ha hb => (keysAgree_iff ha hb).symm

end Model

end SchemaModel
