import SchemaModel.Proofs.Value.Height
import SchemaModel.Proofs.Value.Writable

/-!
# Values in another order

A value is reordered by permuting the entries of its mappings, at any depth.  What a reader of
documents asks of a value does not change: whether it is JSON data, how deep it goes, and what
stands under a key.  JSON data is equal to itself in any other order, unless it holds something that
is not a number in the place of one.
-/

namespace SchemaModel

namespace Value

/-- Whether a value has no parts. -/
def isScalar : Value → Bool
  | .list _ => false
  | .tuple _ => false
  | .mapping .. => false
  | _ => true

/-- The same value, with the entries of its mappings in another order at any depth. -/
inductive Reordered : Value → Value → Prop
  | scalar {a : Value} (h : a.isScalar = true) : Reordered a a
  | list {as bs : List Value} (length : as.length = bs.length)
      (parts : ∀ (i : Nat) a b, as[i]? = some a → bs[i]? = some b → Reordered a b) :
      Reordered (.list as) (.list bs)
  | tuple {as bs : List Value} (length : as.length = bs.length)
      (parts : ∀ (i : Nat) a b, as[i]? = some a → bs[i]? = some b → Reordered a b) :
      Reordered (.tuple as) (.tuple bs)
  | mapping {form : MappingForm} {as bs cs : List (Key × Value)}
      (keys : as.map Prod.fst = bs.map Prod.fst)
      (parts : ∀ (i : Nat) a b, as[i]? = some a → bs[i]? = some b → Reordered a.2 b.2)
      (order : bs.Perm cs) : Reordered (.mapping form as) (.mapping form cs)

mutual

/-- Whether a value holds nowhere what is not a number. -/
def nanFree : Value → Bool
  | .float (.nan _) => false
  | .list items => itemsNanFree items
  | .tuple items => itemsNanFree items
  | .mapping _ entries => entriesNanFree entries
  | _ => true

/-- Whether the elements hold nowhere what is not a number. -/
def itemsNanFree : List Value → Bool
  | [] => true
  | item :: items => item.nanFree && itemsNanFree items

/-- Whether the stored values hold nowhere what is not a number. -/
def entriesNanFree : List (Key × Value) → Bool
  | [] => true
  | (_, value) :: entries => value.nanFree && entriesNanFree entries

end

theorem itemsNanFree_iff {items : List Value} :
    itemsNanFree items = true ↔ ∀ item ∈ items, item.nanFree = true := by
  induction items with
  | nil => simp [itemsNanFree]
  | cons item items ih => simp [itemsNanFree, ih]

theorem entriesNanFree_iff {entries : List (Key × Value)} :
    entriesNanFree entries = true ↔ ∀ entry ∈ entries, entry.2.nanFree = true := by
  induction entries with
  | nil => simp [entriesNanFree]
  | cons entry entries ih => simp [entriesNanFree, ih]

/-! ## Parts in step -/

/-- Entries under the same keys with parts in a relation. -/
def EntriesInStep {α β : Type} (rel : α → β → Prop) (as : List (Key × α)) (bs : List (Key × β)) :
    Prop :=
  List.Forall₂ (fun a b => a.1 = b.1 ∧ rel a.2 b.2) as bs

theorem entriesInStep_iff {α β : Type} {rel : α → β → Prop} {as : List (Key × α)}
    {bs : List (Key × β)} :
    EntriesInStep rel as bs ↔ as.map Prod.fst = bs.map Prod.fst ∧
      ∀ (i : Nat) a b, as[i]? = some a → bs[i]? = some b → rel a.2 b.2 := by
  have hkeys : List.Forall₂ (fun a b => a.1 = b.1) as bs ↔ as.map Prod.fst = bs.map Prod.fst := by
    rw [← List.forall₂_eq_eq_eq, List.forall₂_map_left_iff, List.forall₂_map_right_iff]
  rw [EntriesInStep, forall₂_iff_getElem?, ← hkeys, forall₂_iff_getElem?]
  constructor
  · rintro ⟨hlen, hparts⟩
    exact ⟨⟨hlen, fun i a b ha hb => (hparts i a b ha hb).1⟩,
      fun i a b ha hb => (hparts i a b ha hb).2⟩
  · rintro ⟨⟨hlen, hkeys⟩, hparts⟩
    exact ⟨hlen, fun i a b ha hb => ⟨hkeys i a b ha hb, hparts i a b ha hb⟩⟩

/-- Induction along a reordering, with the parts in step before their order changes. -/
@[elab_as_elim]
theorem Reordered.stepInduction {motive : Value → Value → Prop}
    (scalar : ∀ a, a.isScalar = true → motive a a)
    (list : ∀ as bs, List.Forall₂ motive as bs → motive (.list as) (.list bs))
    (tuple : ∀ as bs, List.Forall₂ motive as bs → motive (.tuple as) (.tuple bs))
    (mapping : ∀ form as bs cs, EntriesInStep motive as bs → bs.Perm cs →
      motive (.mapping form as) (.mapping form cs))
    {a b : Value} (h : Reordered a b) : motive a b := by
  induction h with
  | scalar h => exact scalar _ h
  | list length _ ih => exact list _ _ (forall₂_iff_getElem?.mpr ⟨length, ih⟩)
  | tuple length _ ih => exact tuple _ _ (forall₂_iff_getElem?.mpr ⟨length, ih⟩)
  | mapping keys _ order ih => exact mapping _ _ _ _ (entriesInStep_iff.mpr ⟨keys, ih⟩) order

theorem forall_entry_iff {α β : Type} {rel : α → β → Prop} {p : Key × α → Prop}
    {q : Key × β → Prop} {as : List (Key × α)} {bs cs : List (Key × β)}
    (h : EntriesInStep rel as bs) (order : bs.Perm cs)
    (hpq : ∀ {a : Key × α} {b : Key × β}, a.1 = b.1 → rel a.2 b.2 → (p a ↔ q b)) :
    (∀ entry ∈ as, p entry) ↔ ∀ entry ∈ cs, q entry := by
  rw [forall_mem_iff_of_forall₂ h fun hab => hpq hab.1 hab.2]
  simp only [order.mem_iff]

theorem textual_iff {α β : Type} {rel : α → β → Prop} {as : List (Key × α)}
    {bs cs : List (Key × β)} (h : EntriesInStep rel as bs) (order : bs.Perm cs) :
    Entries.textual as = true ↔ Entries.textual cs = true := by
  rw [Entries.textual, Entries.textual, List.all_eq_true, List.all_eq_true]
  exact forall_entry_iff h order fun hkey _ => by rw [hkey]

section Keys

variable {α β : Type} {rel : α → β → Prop} {as : List (Key × α)} {bs cs : List (Key × β)}
  (h : EntriesInStep rel as bs) (order : bs.Perm cs)

include h order

theorem distinct_eq_of_entriesInStep : Entries.distinct as = Entries.distinct cs := by
  have hclasses : (Entries.classes as).Perm (Entries.classes cs) := by
    rw [Entries.classes_eq_of_forall₂ (h.imp fun _ _ hab => congrArg Key.keyClass hab.1)]
    exact order.map _
  rw [Bool.eq_iff_iff, Entries.distinct_iff, Entries.distinct_iff, hclasses.nodup_iff]

theorem find?_rel_of_entriesInStep (hdistinct : Entries.distinct as = true) (key : Key) :
    Option.Rel rel (Entries.find? as key) (Entries.find? cs key) := by
  have hdistinct' : Entries.distinct bs = true := by
    rwa [← distinct_eq_of_entriesInStep h (.refl bs)]
  have hfound := Entries.findLast?_rel_of_forall₂ (fun _ => rel) (fun _ hab => hab) h key
  rwa [Entries.findLast?_eq_find? hdistinct, Entries.findLast?_eq_find? hdistinct',
    Entries.find?_perm order hdistinct'] at hfound

end Keys

/-! ## What an order leaves unchanged -/

theorem Reordered.typeName_eq {a b : Value} (h : Reordered a b) : a.typeName = b.typeName := by
  cases h <;> rfl

theorem Reordered.text?_eq {a b : Value} (h : Reordered a b) : a.text? = b.text? := by
  cases h <;> rfl

theorem Reordered.isJson_eq {a b : Value} (h : Reordered a b) : a.isJson = b.isJson := by
  refine h.stepInduction ?scalar ?list ?tuple ?mapping
  case scalar => exact fun a h => rfl
  case list =>
    intro as bs h
    rw [isJson, isJson, Bool.eq_iff_iff, allJson_iff, allJson_iff]
    exact forall_mem_iff_of_forall₂ h fun hab => by rw [hab]
  case tuple =>
    intro as bs h
    rw [isJson, isJson, Bool.eq_iff_iff, allJson_iff, allJson_iff]
    exact forall_mem_iff_of_forall₂ h fun hab => by rw [hab]
  case mapping =>
    intro form as bs cs h order
    rw [isJson, isJson, Bool.eq_iff_iff, Bool.and_eq_true, Bool.and_eq_true, entriesJson_iff,
      entriesJson_iff]
    exact and_congr (textual_iff h order) (forall_entry_iff h order fun _ hab => by rw [hab])

/-- Reordering fields moves no value up or down. -/
theorem Reordered.height_eq {a b : Value} (h : Reordered a b) : a.height = b.height := by
  have heq : ∀ {m n : Nat}, (∀ limit, m ≤ limit ↔ n ≤ limit) → m = n := by
    intro m n h
    exact Nat.le_antisymm ((h n).mpr (Nat.le_refl n)) ((h m).mp (Nat.le_refl m))
  refine h.stepInduction ?scalar ?list ?tuple ?mapping
  case scalar => exact fun a h => rfl
  case list =>
    intro as bs h
    refine heq fun limit => ?_
    rw [height, height, heightOfItems_le_iff, heightOfItems_le_iff]
    exact forall_mem_iff_of_forall₂ h fun hab => by rw [hab]
  case tuple =>
    intro as bs h
    refine heq fun limit => ?_
    rw [height, height, heightOfItems_le_iff, heightOfItems_le_iff]
    exact forall_mem_iff_of_forall₂ h fun hab => by rw [hab]
  case mapping =>
    intro form as bs cs h order
    refine heq fun limit => ?_
    rw [height, height, heightOfEntries_le_iff, heightOfEntries_le_iff]
    exact forall_entry_iff h order fun _ hab => by rw [hab]

theorem Reordered.distinctKeys_eq {a b : Value} (h : Reordered a b) :
    a.distinctKeys = b.distinctKeys := by
  refine h.stepInduction ?scalar ?list ?tuple ?mapping
  case scalar => exact fun a h => rfl
  case list =>
    intro as bs h
    rw [distinctKeys, distinctKeys, Bool.eq_iff_iff, itemsDistinct_iff, itemsDistinct_iff]
    exact forall_mem_iff_of_forall₂ h fun hab => by rw [hab]
  case tuple =>
    intro as bs h
    rw [distinctKeys, distinctKeys, Bool.eq_iff_iff, itemsDistinct_iff, itemsDistinct_iff]
    exact forall_mem_iff_of_forall₂ h fun hab => by rw [hab]
  case mapping =>
    intro form as bs cs h order
    rw [Bool.eq_iff_iff, distinctKeys_mapping_iff, distinctKeys_mapping_iff,
      distinct_eq_of_entriesInStep h order]
    exact and_congr_right fun _ => forall_entry_iff h order fun _ hab => by rw [hab]

theorem Reordered.isOrdinary_eq [Platform] {a b : Value} (h : Reordered a b) :
    a.isOrdinary = b.isOrdinary := by
  refine h.stepInduction ?scalar ?list ?tuple ?mapping
  case scalar => exact fun a h => rfl
  case list =>
    intro as bs h
    rw [isOrdinary, isOrdinary, Bool.eq_iff_iff, itemsOrdinary_iff, itemsOrdinary_iff]
    exact forall_mem_iff_of_forall₂ h fun hab => by rw [hab]
  case tuple =>
    intro as bs h
    rw [isOrdinary, isOrdinary, Bool.eq_iff_iff, itemsOrdinary_iff, itemsOrdinary_iff]
    exact forall_mem_iff_of_forall₂ h fun hab => by rw [hab]
  case mapping =>
    intro form as bs cs h order
    rw [isOrdinary, isOrdinary, Bool.eq_iff_iff, Bool.and_eq_true, Bool.and_eq_true,
      entriesOrdinary_iff, entriesOrdinary_iff]
    exact and_congr_right fun _ =>
      forall_entry_iff h order fun hkey hab => by rw [hkey, hab]

theorem Reordered.isData {a b : Value} (h : Reordered a b) (ha : a.IsData) : b.IsData := by
  rwa [isData_iff, ← h.isJson_eq, ← h.distinctKeys_eq, ← isData_iff]

theorem reordered_list_iff {as bs : List Value} :
    Reordered (.list as) (.list bs) ↔ List.Forall₂ Reordered as bs := by
  rw [forall₂_iff_getElem?]
  constructor
  · intro h
    cases h with
    | scalar h => cases h
    | list length parts => exact ⟨length, parts⟩
  · rintro ⟨length, parts⟩
    exact .list length parts

theorem reordered_mapping_iff {form : MappingForm} {as cs : List (Key × Value)} :
    Reordered (.mapping form as) (.mapping form cs) ↔
      ∃ bs, EntriesInStep Reordered as bs ∧ bs.Perm cs := by
  simp only [entriesInStep_iff]
  constructor
  · intro h
    cases h with
    | scalar h => cases h
    | mapping keys parts order => exact ⟨_, ⟨keys, parts⟩, order⟩
  · rintro ⟨bs, ⟨keys, parts⟩, order⟩
    exact .mapping keys parts order

theorem Reordered.get?_rel {form : MappingForm} {as cs : List (Key × Value)}
    (h : Reordered (.mapping form as) (.mapping form cs))
    (hdistinct : Entries.distinct as = true) (name : Text) :
    Option.Rel Reordered (Entries.get? as name) (Entries.get? cs name) := by
  obtain ⟨bs, hstep, order⟩ := reordered_mapping_iff.mp h
  rw [Entries.get?_eq_find?, Entries.get?_eq_find?]
  exact find?_rel_of_entriesInStep hstep order hdistinct (.str name)

/-! ## Data in another order -/

theorem exists_atom_of_scalar {a : Value} (hscalar : a.isScalar = true) (hjson : a.isJson = true)
    (hnan : a.nanFree = true) : ∃ x, a.atom? = some x := by
  match a with
  | .null => exact ⟨_, rfl⟩
  | .bool _ => exact ⟨_, rfl⟩
  | .int _ => exact ⟨_, rfl⟩
  | .float (.finite ..) => exact ⟨_, rfl⟩
  | .float (.infinite _) => exact ⟨_, rfl⟩
  | .str _ => exact ⟨_, rfl⟩

theorem equalItems_of_forall₂ {as bs : List Value}
    (h : List.Forall₂ (fun a b => a.isJson = true → a.distinctKeys = true → a.nanFree = true →
      a.jsonEqual b = true) as bs)
    (hjson : allJson as = true) (hkeys : itemsDistinct as = true)
    (hnan : itemsNanFree as = true) : equalItems as bs = true := by
  rw [allJson_iff] at hjson
  rw [itemsDistinct_iff] at hkeys
  rw [itemsNanFree_iff] at hnan
  rw [equalItems_iff_forall₂]
  apply forall₂_imp_of_mem h
  intro a ha b hab
  exact hab (hjson a ha) (hkeys a ha) (hnan a ha)

/-- Data is equal to itself in another order. -/
theorem Reordered.jsonEqual {a b : Value} (h : Reordered a b) :
    a.isJson = true → a.distinctKeys = true → a.nanFree = true → a.jsonEqual b = true := by
  refine h.stepInduction ?scalar ?list ?tuple ?mapping
  case scalar =>
    intro a hscalar hjson _ hnan
    obtain ⟨x, hx⟩ := exists_atom_of_scalar hscalar hjson hnan
    exact (jsonEqual_iff_of_atom hx a).mpr hx
  case list =>
    intro as bs h hjson hkeys hnan
    rw [Value.jsonEqual]
    exact equalItems_of_forall₂ h hjson hkeys hnan
  case tuple =>
    intro as bs h hjson hkeys hnan
    rw [Value.jsonEqual]
    exact equalItems_of_forall₂ h hjson hkeys hnan
  case mapping =>
    intro form as bs cs h order hjson hkeys hnan
    rw [isJson, Bool.and_eq_true, entriesJson_iff] at hjson
    obtain ⟨htext, hjson⟩ := hjson
    obtain ⟨hdistinct, hkeys⟩ := distinctKeys_mapping_iff.mp hkeys
    rw [nanFree, entriesNanFree_iff] at hnan
    have hequal : EntriesInStep (fun a b => a.jsonEqual b = true) as bs :=
      forall₂_imp_of_mem h fun a ha b hab =>
        ⟨hab.1, hab.2 (hjson a ha) (hkeys a ha) (hnan a ha)⟩
    have htext' := (textual_iff h order).mp htext
    have hdistinct' : Entries.distinct cs = true := distinct_eq_of_entriesInStep h order ▸ hdistinct
    simp only [Value.jsonEqual, htext, htext', Bool.and_self, if_true, Bool.and_eq_true,
      decide_eq_true_eq]
    rw [equalFields_iff hdistinct htext hdistinct' htext']
    exact fun name => find?_rel_of_entriesInStep hequal order hdistinct (.str name)

/-! ## Data equal to itself -/

theorem nanFree_of_mem_items {a : Value} {items : List Value} (ha : a.nanFree = true)
    (h : a.items? = some items) : ∀ item ∈ items, item.nanFree = true := by
  cases a <;> cases h <;> exact itemsNanFree_iff.mp ha

theorem nanFree_of_mem_fields {a : Value} {fields : List (Key × Value)} (ha : a.nanFree = true)
    (h : a.fields? = some fields) : ∀ entry ∈ fields, entry.2.nanFree = true := by
  obtain ⟨form, rfl, -⟩ := fields?_eq_some_iff.mp h
  exact entriesNanFree_iff.mp ha

/-- Data is equal to itself unless it holds what is not a number. -/
theorem IsData.jsonEqual_self {a : Value} (ha : IsData a) (hnan : a.nanFree = true) :
    a.jsonEqual a = true := by
  induction ha with
  | atom hx => exact (jsonEqual_iff_of_atom hx _).mpr hx
  | nan mark => cases hnan
  | array has parts ih =>
      refine (jsonEqual_iff_of_items has _).mpr ⟨_, has, fun i => optionRel_self ?_⟩
      intro item hitem
      have hmem := List.mem_of_getElem? hitem
      exact ih item hmem (nanFree_of_mem_items hnan has item hmem)
  | @object a fields has distinct parts ih =>
      have hkeys : a.distinctKeys = true := (IsData.object has distinct parts).distinctKeys
      refine (jsonEqual_iff_of_fields hkeys hkeys has).mpr
        ⟨_, has, fun name => optionRel_self ?_⟩
      intro item hitem
      have hmem := (Entries.mem_iff_find?_str distinct).mpr hitem
      exact ih _ hmem (nanFree_of_mem_fields hnan has _ hmem)

end Value

end SchemaModel
