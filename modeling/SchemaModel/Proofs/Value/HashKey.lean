import SchemaModel.Proofs.Value.Reorder
import SchemaModel.Value.HashKey

/-!
# Keys of data in tables

JSON data always has a key, and the key fits in a table.  Two keys are equal exactly when the data
they stand for is: the kind tells scalars apart that only look alike, arrays go position by
position, and the entries of an object, gathered in any order, name by name.  Only what is not a
number breaks this, for it has a key equal to itself although it equals nothing.
-/

namespace SchemaModel

namespace HashKey

theorem sameItems_iff {as bs : List HashKey} :
    sameItems as bs = true ↔ List.Forall₂ (fun a b => same a b = true) as bs := by
  induction as generalizing bs with
  | nil => cases bs <;> simp [sameItems]
  | cons a as ih => cases bs <;> simp [sameItems, ih]

theorem sameEntries_iff {as bs : List (Key × HashKey)} :
    sameEntries as bs = true ↔
      ∀ entry ∈ as, ∃ b, Entries.find? bs entry.1 = some b ∧ entry.2.same b = true := by
  induction as with
  | nil => simp [sameEntries]
  | cons entry as ih =>
      obtain ⟨key, a⟩ := entry
      rw [sameEntries, Bool.and_eq_true, ih, List.forall_mem_cons]
      refine and_congr_left fun _ => ?_
      cases Entries.find? bs key <;> simp

theorem unhashableItem?_eq_none {keys : List HashKey} (h : ∀ key ∈ keys, key.unhashable? = none) :
    unhashableItem? keys = none := by
  induction keys with
  | nil => rfl
  | cons key keys ih =>
      obtain ⟨hkey, hkeys⟩ := List.forall_mem_cons.mp h
      rw [unhashableItem?, hkey]
      exact ih hkeys

end HashKey

namespace Value

/-- The key of data, part by part. -/
inductive Keyed : Value → HashKey → Prop
  | atom {a : Value} {x : Atom} (h : a.atom? = some x) : Keyed a (.scalar a.kind? a)
  | nan (mark : Nat) : Keyed (.float (.nan mark)) (.scalar (some .number) (.float (.nan mark)))
  | array {a : Value} {items : List Value} {keys : List HashKey} (h : a.items? = some items)
      (length : items.length = keys.length)
      (parts : ∀ (i : Nat) item key, items[i]? = some item → keys[i]? = some key →
        Keyed item key) : Keyed a (.array keys)
  | object {a : Value} {fields : List (Key × Value)} {keys : List (Key × HashKey)}
      (h : a.fields? = some fields) (distinct : Entries.distinct fields = true)
      (names : fields.map Prod.fst = keys.map Prod.fst)
      (parts : ∀ (i : Nat) field key, fields[i]? = some field → keys[i]? = some key →
        Keyed field.2 key.2) : Keyed a (.object keys)

/-- All data have keys, and each of these is fit for a table. -/
theorem IsData.exists_keyed {a : Value} (ha : IsData a) : ∃ key, Keyed a key := by
  induction ha with
  | atom hx => exact ⟨_, .atom hx⟩
  | nan mark => exact ⟨_, .nan mark⟩
  | array has _ ih =>
      obtain ⟨keys, hkeys⟩ := exists_forall₂ ih
      obtain ⟨length, parts⟩ := forall₂_iff_getElem?.mp hkeys
      exact ⟨_, .array has length parts⟩
  | @object a fields has distinct _ ih =>
      have hentries : ∀ field ∈ fields, ∃ key : Key × HashKey,
          field.1 = key.1 ∧ Keyed field.2 key.2 := by
        intro field hmem
        obtain ⟨key, hkey⟩ := ih field hmem
        exact ⟨(field.1, key), rfl, hkey⟩
      obtain ⟨keys, hkeys⟩ := exists_forall₂ hentries
      obtain ⟨names, parts⟩ := entriesInStep_iff.mp hkeys
      exact ⟨_, .object has distinct names parts⟩

/-! ## The key that is computed -/

theorem hashKey_of_atom {a : Value} {x : Atom} (h : a.atom? = some x) :
    a.hashKey = .ok (.scalar a.kind? a) := by
  cases a <;> first | rfl | cases h

theorem unhashable?_of_atom {a : Value} {x : Atom} (h : a.atom? = some x) :
    a.unhashable? = none := by
  cases a <;> first | rfl | cases h

theorem hashKey_of_items {a : Value} {items : List Value} {keys : List HashKey}
    (h : a.items? = some items) (hkeys : itemKeys items = .ok keys) :
    a.hashKey = .ok (.array keys) := by
  cases a <;> cases h <;> simp only [hashKey, hkeys, bind, Except.bind]

theorem hashKey_of_fields {a : Value} {fields : List (Key × Value)} {keys : List (Key × HashKey)}
    (h : a.fields? = some fields) (hkeys : entryKeys fields = .ok keys) :
    a.hashKey = .ok (.object keys) := by
  obtain ⟨form, rfl, htext⟩ := fields?_eq_some_iff.mp h
  simp only [hashKey, if_pos htext, hkeys, bind, Except.bind]

theorem itemKeys_eq_ok {items : List Value} {keys : List HashKey}
    (h : List.Forall₂ (fun item key => item.hashKey = .ok key) items keys) :
    itemKeys items = .ok keys := by
  induction h with
  | nil => rfl
  | cons hkey _ ih =>
      rw [itemKeys, hkey, ih]
      rfl

theorem hashable_eq_ok {key : HashKey} (h : key.unhashable? = none) : key.hashable = .ok key := by
  rw [HashKey.hashable, h]

theorem entryKeys_eq_ok {fields : List (Key × Value)} {keys : List (Key × HashKey)}
    (h : EntriesInStep (fun value key => value.hashKey = .ok key ∧ key.unhashable? = none)
      fields keys) : entryKeys fields = .ok keys := by
  induction h with
  | nil => rfl
  | @cons field key fields keys hkey _ ih =>
      obtain ⟨hname, hvalue, hfit⟩ := hkey
      rw [entryKeys, hvalue, ih, hname]
      simp only [bind, Except.bind, hashable_eq_ok hfit]

theorem Keyed.unhashable?_eq_none {a : Value} {key : HashKey} (h : Keyed a key) :
    key.unhashable? = none := by
  induction h with
  | atom hx => exact unhashable?_of_atom hx
  | nan mark => rfl
  | array _ length _ ih =>
      apply HashKey.unhashableItem?_eq_none
      intro key hmem
      obtain ⟨i, hi⟩ := List.mem_iff_getElem?.mp hmem
      obtain ⟨item, hitem⟩ := exists_getElem?_of_length_eq length.symm hi
      exact ih i item key hitem hi
  | object => rfl

/-- The key of data is computed, and it fits in a table. -/
theorem Keyed.hashKey_eq {a : Value} {key : HashKey} (h : Keyed a key) : a.hashKey = .ok key := by
  induction h with
  | atom hx => exact hashKey_of_atom hx
  | nan mark => rfl
  | array has length _ ih =>
      exact hashKey_of_items has (itemKeys_eq_ok (forall₂_iff_getElem?.mpr ⟨length, ih⟩))
  | object has _ names parts ih =>
      refine hashKey_of_fields has (entryKeys_eq_ok (entriesInStep_iff.mpr ⟨names, ?_⟩))
      intro i field key hfield hkey
      exact ⟨ih i field key hfield hkey, (parts i field key hfield hkey).unhashable?_eq_none⟩

/-! ## Equal keys -/

/-- Within one kind of scalars, being alike is being equal. -/
theorem alike_iff_of_kind {a b : Value} {x : Atom} (hx : a.atom? = some x)
    (hkind : a.kind? = b.kind?) : a.alike b = true ↔ a.jsonEqual b = true := by
  cases a with
  | bool p =>
      cases b with
      | bool q =>
          have hsizes : Exact.ofInt (if p then 1 else 0) = Exact.ofInt (if q then 1 else 0) ↔
              p = q := by
            refine ⟨fun h => ?_, fun h => by rw [h]⟩
            have hcount := Exact.ofInt_injective h
            cases p <;> cases q <;> first | rfl | cases hcount
          simp only [alike, sameMark, looseEqual, looseMeasure?, Exact.agree, Bool.false_or,
            decide_eq_true_eq, hsizes, jsonEqual]
      | _ => simp [kind?] at hkind
  | float number =>
      cases number with
      | nan mark => cases hx
      | _ => cases b <;> first | exact Iff.rfl | simp [kind?] at hkind
  | _ => cases hx <;> cases b <;> first | exact Iff.rfl | simp [kind?] at hkind

/-- Scalars are told apart by their kinds before they are compared. -/
theorem same_scalar_iff {a : Value} {x : Atom} (hx : a.atom? = some x) (b : Value) :
    (HashKey.scalar a.kind? a).same (.scalar b.kind? b) = true ↔ a.jsonEqual b = true := by
  by_cases hkind : a.kind? = b.kind?
  · rw [HashKey.same, decide_eq_true hkind, Bool.true_and]
    exact alike_iff_of_kind hx hkind
  · have hdiffer : ¬ a.jsonEqual b = true := fun h => hkind (kind?_eq_of_jsonEqual h)
    simp [HashKey.same, hkind, hdiffer]

/-- A key that is equal to the keys of what equals a value and to no others. -/
def Discerns (a : Value) (key : HashKey) : Prop :=
  ∀ b key', Keyed b key' → (key.same key' = true ↔ a.jsonEqual b = true)

/-- The kind of the scalars with an atom. -/
def Atom.kind : Atom → Kind
  | .null => .null
  | .flag _ => .boolean
  | .size _ => .number
  | .text _ => .string

theorem Atom.kind_ne (x : Atom) : x.kind ≠ .array ∧ x.kind ≠ .object := by
  cases x <;> simp [kind]

theorem kind?_of_atom {a : Value} {x : Atom} (h : a.atom? = some x) : a.kind? = some x.kind := by
  cases a with
  | float number =>
      obtain ⟨size, -, rfl⟩ := Option.map_eq_some_iff.mp h
      rfl
  | _ => cases h <;> rfl

theorem kind?_of_items {a : Value} {items : List Value} (h : a.items? = some items) :
    a.kind? = some .array :=
  exists_items_iff.mp ⟨items, h⟩

theorem kind?_of_fields {a : Value} {fields : List (Key × Value)} (h : a.fields? = some fields) :
    a.kind? = some .object :=
  exists_fields_iff.mp ⟨fields, h⟩

theorem false_iff_jsonEqual {a b : Value} {k l : Kind} (ha : a.kind? = some k)
    (hb : b.kind? = some l) (hne : k ≠ l) : false = true ↔ a.jsonEqual b = true := by
  refine iff_of_false Bool.false_ne_true fun h => hne ?_
  exact Option.some.inj (ha.symm.trans ((kind?_eq_of_jsonEqual h).trans hb))

theorem discerns_atom {a : Value} {x : Atom} (hx : a.atom? = some x) :
    Discerns a (.scalar a.kind? a) := by
  intro b key' hb
  have hkind := kind?_of_atom hx
  cases hb with
  | atom hy => exact same_scalar_iff hx b
  | nan mark => exact same_scalar_iff hx (.float (.nan mark))
  | array hbs =>
      exact false_iff_jsonEqual hkind (kind?_of_items hbs) x.kind_ne.1
  | object hbs =>
      exact false_iff_jsonEqual hkind (kind?_of_fields hbs) x.kind_ne.2

/-- The keys of the elements, in order, stand for an array. -/
theorem discerns_array {a : Value} {items : List Value} {keys : List HashKey}
    (has : a.items? = some items) (h : List.Forall₂ Discerns items keys) :
    Discerns a (.array keys) := by
  intro b key' hb
  have hkind := kind?_of_items has
  cases hb with
  | array hbs length parts =>
      rw [jsonEqual_iff_of_items has]
      have hkeys := forall₂_iff_optionRel.mp h
      have hkeys' := forall₂_iff_optionRel.mp (forall₂_iff_getElem?.mpr ⟨length, parts⟩)
      simp only [HashKey.same, HashKey.sameItems_iff, forall₂_iff_optionRel, hbs,
        Option.some.injEq, exists_eq_left']
      refine forall_congr' fun i => optionRel_congr (hkeys i) (hkeys' i) ?_
      exact fun item key item' key' hkey hkey' => hkey item' key' hkey'
  | @atom _ y hy =>
      exact false_iff_jsonEqual hkind (kind?_of_atom hy) y.kind_ne.1.symm
  | nan mark => exact false_iff_jsonEqual hkind rfl (by decide)
  | object hbs =>
      exact false_iff_jsonEqual hkind (kind?_of_fields hbs) (by decide)

/-- Keyed fields, compared as a set, stand for an object in any order. -/
theorem discerns_object {a : Value} {fields : List (Key × Value)} {keys : List (Key × HashKey)}
    (has : a.fields? = some fields) (hdistinct : Entries.distinct fields = true)
    (h : EntriesInStep Discerns fields keys) : Discerns a (.object keys) := by
  intro b key' hb
  have hkind := kind?_of_fields has
  cases hb with
  | @object _ fields' keys' hbs hdistinct' names parts =>
      have h' : EntriesInStep Keyed fields' keys' := entriesInStep_iff.mpr ⟨names, parts⟩
      obtain ⟨form, rfl, htext⟩ := fields?_eq_some_iff.mp has
      obtain ⟨form', rfl, htext'⟩ := fields?_eq_some_iff.mp hbs
      have hkeys := partners_iff (r := fun key key' => HashKey.same key key' = true)
        (distinct_eq_of_entriesInStep h (.refl _) ▸ hdistinct) ((textual_iff h (.refl _)).mp htext)
        (distinct_eq_of_entriesInStep h' (.refl _) ▸ hdistinct')
        ((textual_iff h' (.refl _)).mp htext')
      simp only [HashKey.same, HashKey.sameEntries_iff, jsonEqual, htext, htext', Bool.and_self,
        if_true, Bool.and_eq_true, decide_eq_true_eq]
      rw [hkeys, equalFields_iff hdistinct htext hdistinct' htext']
      refine forall_congr' fun name => optionRel_congr
        (find?_rel_of_entriesInStep h (.refl _) hdistinct (.str name))
        (find?_rel_of_entriesInStep h' (.refl _) hdistinct' (.str name)) ?_
      exact fun value key value' key' hkey hkey' => hkey value' key' hkey'
  | @atom _ y hy =>
      exact false_iff_jsonEqual hkind (kind?_of_atom hy) y.kind_ne.2.symm
  | nan mark => exact false_iff_jsonEqual hkind rfl (by decide)
  | array hbs =>
      exact false_iff_jsonEqual hkind (kind?_of_items hbs) (by decide)

/-- By induction, keys are the same exactly if the data are equal. -/
theorem Keyed.discerns {a : Value} {key : HashKey} (h : Keyed a key) (hnan : a.nanFree = true) :
    Discerns a key := by
  induction h with
  | atom hx => exact discerns_atom hx
  | nan mark => cases hnan
  | @array a items keys has length parts ih =>
      refine discerns_array has (forall₂_iff_getElem?.mpr ⟨length, ?_⟩)
      intro i item key hitem hkey
      have hmem := List.mem_of_getElem? hitem
      exact ih i item key hitem hkey (nanFree_of_mem_items hnan has item hmem)
  | @object a fields keys has distinct names parts ih =>
      refine discerns_object has distinct (entriesInStep_iff.mpr ⟨names, ?_⟩)
      intro i field key hfield hkey
      have hmem := List.mem_of_getElem? hfield
      exact ih i field key hfield hkey (nanFree_of_mem_fields hnan has field hmem)

/-- The keys of two JSON values, the first without anything that is not a number, can be computed
and are equal exactly when the values are. -/
theorem hashKey_same_iff_jsonEqual {a b : Value} (ha : a.isJson = true)
    (ha' : a.distinctKeys = true) (hnan : a.nanFree = true) (hb : b.isJson = true)
    (hb' : b.distinctKeys = true) :
    ∃ key key', a.hashKey = .ok key ∧ b.hashKey = .ok key' ∧
      (a.jsonEqual b = true ↔ key.same key' = true) := by
  obtain ⟨key, hkey⟩ := (isData_iff.mpr ⟨ha, ha'⟩).exists_keyed
  obtain ⟨key', hkey'⟩ := (isData_iff.mpr ⟨hb, hb'⟩).exists_keyed
  exact ⟨key, key', hkey.hashKey_eq, hkey'.hashKey_eq, (hkey.discerns hnan b key' hkey').symm⟩

/-- Entries in another order, a tuple for a list, and one spelled as a float; beside them a flag in
the place of the number. -/
theorem hashKey_same_iff_jsonEqual_of_reordered :
    ∃ key key' key'',
      (mapping .dict [(.str "a", .list [.int 1, .null]),
        (.str "b", .mapping .dict [])]).hashKey = .ok key ∧
      (mapping .dict [(.str "b", .mapping .dict []), (.str "a", .tuple
        [.float (.finite false 4503599627370496 1022), .null])]).hashKey = .ok key' ∧
      (mapping .dict [(.str "a", .list [.bool true, .null]),
        (.str "b", .mapping .dict [])]).hashKey = .ok key'' ∧
      key.same key' = true ∧ ¬ key.same key'' = true := by
  obtain ⟨key, key', hkey, hkey', hsame⟩ := hashKey_same_iff_jsonEqual
    (a := mapping .dict [(.str "a", .list [.int 1, .null]), (.str "b", .mapping .dict [])])
    (b := mapping .dict [(.str "b", .mapping .dict []), (.str "a", .tuple
      [.float (.finite false 4503599627370496 1022), .null])])
    (by decide) (by decide) (by decide) (by decide) (by decide)
  obtain ⟨same, key'', hsame', hkey'', hdiffer⟩ := hashKey_same_iff_jsonEqual
    (a := mapping .dict [(.str "a", .list [.int 1, .null]), (.str "b", .mapping .dict [])])
    (b := mapping .dict [(.str "a", .list [.bool true, .null]), (.str "b", .mapping .dict [])])
    (by decide) (by decide) (by decide) (by decide) (by decide)
  cases hkey.symm.trans hsame'
  refine ⟨key, key', key'', hkey, hkey', hkey'', hsame.mp (by decide +kernel), fun h => ?_⟩
  exact absurd (hdiffer.mpr h) (by decide +kernel)

end Value

end SchemaModel
