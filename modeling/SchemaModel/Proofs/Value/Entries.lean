import Mathlib.Data.List.Dedup
import Mathlib.Data.List.Forall2
import Mathlib.Data.List.Perm.Subperm
import SchemaModel.Model.Equality

/-!
# Keys and entries

Equality of keys is equality of a class, hence an equivalence relation, and every lookup in a
list of entries is a statement about the classes of its keys.  A mapping stores each class once;
`Entries.ofPairs` establishes this, and a lookup in what it leaves finds the last pair.
-/

namespace SchemaModel

/-- What equal keys have in common. -/
inductive KeyClass where
  | text (text : Text)
  | size (size : Exact)
  | mark (mark : Nat)
  | null
  | tuple (parts : List KeyClass)
  | foreign (thing : Foreign)

/-- One thing out of those equal to a foreign thing. -/
def Foreign.representative : Foreign → Foreign
  | .frozenset => .set
  | thing => thing

theorem Foreign.same_iff (a b : Foreign) :
    a.same b = true ↔ a.representative = b.representative := by
  cases a <;> cases b <;> simp [same, representative]

/-- The class of a number: its size, or its mark when it has none. -/
def Binary64.keyClass : Binary64 → KeyClass
  | .finite negative mantissa shift => .size (.units (signedUnits negative mantissa shift))
  | .infinite negative => .size (.infinite negative)
  | .nan mark => .mark mark

mutual

/-- The class of a key. -/
def Key.keyClass : Key → KeyClass
  | .str text => .text text
  | .int n => .size (Exact.ofInt n)
  | .bool b => .size (Exact.ofInt (if b then 1 else 0))
  | .float x => x.keyClass
  | .null => .null
  | .tuple parts => .tuple (keyClasses parts)
  | .foreign thing => .foreign thing.representative

/-- The classes of keys. -/
def keyClasses : List Key → List KeyClass
  | [] => []
  | key :: keys => key.keyClass :: keyClasses keys

end

mutual

/-- Keys are equal when their classes are. -/
theorem Key.same_iff : ∀ a b : Key, a.same b = true ↔ a.keyClass = b.keyClass
  | a, b => by
      cases a <;> cases b
      case tuple.tuple as bs => simp [Key.same, Key.keyClass, Key.sameParts_iff as bs]
      case float.float x y =>
        cases x <;> cases y <;>
          simp [Key.same, Key.keyClass, Key.measure?, Binary64.keyClass, Binary64.measure?,
            Exact.agree]
      -- Only a float can be without a size, so its form has to be known against any other key.
      case float.str x _ | float.int x _ | float.bool x _ | float.null x | float.tuple x _
        | float.foreign x _ | str.float _ x | int.float _ x | bool.float _ x | null.float x
        | tuple.float _ x | foreign.float _ x =>
        cases x <;>
          simp [Key.same, Key.keyClass, Key.measure?, Binary64.keyClass, Binary64.measure?,
            Exact.agree]
      all_goals simp [Key.same, Key.keyClass, Key.measure?, Exact.agree, Foreign.same_iff]

theorem Key.sameParts_iff : ∀ as bs : List Key,
    Key.sameParts as bs = true ↔ keyClasses as = keyClasses bs
  | [], bs => by cases bs <;> simp [Key.sameParts, keyClasses]
  | a :: as, bs => by
      cases bs with
      | nil => simp [Key.sameParts, keyClasses]
      | cons b bs => simp [Key.sameParts, keyClasses, Key.same_iff a b, Key.sameParts_iff as bs]

end

theorem Key.keyClass_eq_text_iff {key : Key} {name : Text} :
    key.keyClass = .text name ↔ key = .str name := by
  cases key with
  | float x => cases x <;> simp [keyClass, Binary64.keyClass]
  | _ => simp [keyClass]

@[simp] theorem Key.keyClass_str (name : Text) : (Key.str name).keyClass = .text name := by
  simp [keyClass]

@[simp] theorem Key.same_str_iff {key : Key} {name : Text} :
    key.same (.str name) = true ↔ key = .str name := by
  rw [same_iff, keyClass_str, keyClass_eq_text_iff]

theorem Key.isText_iff {key : Key} : key.isText = true ↔ ∃ name, key = .str name := by
  cases key <;> simp [isText]

namespace Entries

variable {α : Type}

/-- The classes of the keys of entries. -/
def classes (entries : List (Key × α)) : List KeyClass :=
  entries.map fun entry => entry.1.keyClass

@[simp] theorem classes_nil : classes ([] : List (Key × α)) = [] := rfl

@[simp] theorem classes_cons (entry : Key × α) (entries : List (Key × α)) :
    classes (entry :: entries) = entry.1.keyClass :: classes entries := rfl

theorem mem_classes_of_mem {entries : List (Key × α)} {entry : Key × α} (h : entry ∈ entries) :
    entry.1.keyClass ∈ classes entries :=
  List.mem_map.mpr ⟨entry, h, rfl⟩

theorem has_iff {entries : List (Key × α)} {key : Key} :
    has entries key = true ↔ key.keyClass ∈ classes entries := by
  simp only [has, List.any_eq_true, Key.same_iff, classes, List.mem_map]

/-- Whether each key is stored once. -/
def distinct : List (Key × α) → Bool
  | [] => true
  | (key, _) :: rest => !has rest key && distinct rest

/-- Keys are compared by class, so that equal keys in other spellings count as one. -/
theorem distinct_iff {entries : List (Key × α)} :
    distinct entries = true ↔ (classes entries).Nodup := by
  induction entries with
  | nil => simp [distinct]
  | cons entry rest ih =>
      obtain ⟨key, value⟩ := entry
      rw [classes_cons, List.nodup_cons, ← ih, ← has_iff]
      simp [distinct]

/-! ## Lookup -/

theorem find?_congr {entries : List (Key × α)} {key other : Key}
    (h : key.keyClass = other.keyClass) : find? entries key = find? entries other := by
  induction entries with
  | nil => rfl
  | cons entry rest ih =>
      have hsame : entry.1.same key = entry.1.same other := by
        rw [Bool.eq_iff_iff, Key.same_iff, Key.same_iff, h]
      simp only [find?, hsame, ih]

/-- What is found under a key may stand under another spelling of it. -/
theorem mem_of_find?_eq_some {entries : List (Key × α)} {key : Key} {value : α}
    (h : find? entries key = some value) :
    ∃ other, (other, value) ∈ entries ∧ other.keyClass = key.keyClass := by
  induction entries with
  | nil => simp [find?] at h
  | cons entry rest ih =>
      obtain ⟨other, held⟩ := entry
      rw [find?] at h
      split at h
      · next hsame =>
        cases h
        exact ⟨other, List.mem_cons_self, (Key.same_iff _ _).mp hsame⟩
      · obtain ⟨found, hmem, hclass⟩ := ih h
        exact ⟨found, List.mem_cons_of_mem _ hmem, hclass⟩

theorem find?_eq_none_iff {entries : List (Key × α)} {key : Key} :
    find? entries key = none ↔ key.keyClass ∉ classes entries := by
  induction entries with
  | nil => simp [find?]
  | cons entry rest ih =>
      rw [find?, classes_cons, List.mem_cons, not_or, ← ih]
      split
      · next hsame => simp [(Key.same_iff _ _).mp hsame]
      · next hdiffers =>
        have hne : ¬ key.keyClass = entry.1.keyClass := fun heq =>
          hdiffers ((Key.same_iff _ _).mpr heq.symm)
        simp [hne]

/-- A stored key is found together with its value. -/
theorem find?_eq_some_of_mem {entries : List (Key × α)} (hd : distinct entries = true)
    {key : Key} {value : α} (h : (key, value) ∈ entries) : find? entries key = some value := by
  induction entries with
  | nil => simp at h
  | cons entry rest ih =>
      obtain ⟨other, held⟩ := entry
      rw [distinct_iff, classes_cons, List.nodup_cons, ← distinct_iff] at hd
      rcases List.mem_cons.mp h with heq | hmem
      · cases heq
        simp [find?, Key.same_iff]
      · have hne : ¬ other.same key = true := by
          rw [Key.same_iff]
          intro heq
          exact hd.1 (heq ▸ mem_classes_of_mem hmem)
        rw [find?, if_neg hne]
        exact ih hd.2 hmem

theorem mem_iff_find?_str {entries : List (Key × α)} (hd : distinct entries = true)
    {name : Text} {value : α} :
    (Key.str name, value) ∈ entries ↔ find? entries (.str name) = some value := by
  constructor
  · exact find?_eq_some_of_mem hd
  · intro h
    obtain ⟨other, hmem, hclass⟩ := mem_of_find?_eq_some h
    rw [Key.keyClass_str, Key.keyClass_eq_text_iff] at hclass
    exact hclass ▸ hmem

theorem get?_eq_find? (entries : List (Key × α)) (name : Text) :
    get? entries name = find? entries (.str name) := by
  fun_induction get? entries name with
  | case1 => rfl
  | case2 held rest => simp [find?]
  | case3 text held rest hother ih =>
      have hdiffers : ¬ Key.str text = Key.str name := fun heq => hother (Key.str.inj heq)
      rw [find?, if_neg (by rwa [Key.same_str_iff]), ih]
  | case4 entry rest hother ih =>
      obtain ⟨key, held⟩ := entry
      have hdiffers : ¬ key = Key.str name := fun heq => hother name held (by rw [heq])
      rw [find?, if_neg (by rwa [Key.same_str_iff]), ih]

theorem has_iff_exists_find? {entries : List (Key × α)} {key : Key} :
    has entries key = true ↔ ∃ value, find? entries key = some value := by
  rw [has_iff, ← Option.ne_none_iff_exists', ne_eq, find?_eq_none_iff, not_not]

/-- Among distinct keys the last entry under a key is the first. -/
theorem findLast?_eq_find? {entries : List (Key × α)} (hd : distinct entries = true) (key : Key) :
    findLast? entries key = find? entries key := by
  induction entries with
  | nil => rfl
  | cons entry rest ih =>
      obtain ⟨other, held⟩ := entry
      rw [distinct_iff, classes_cons, List.nodup_cons, ← distinct_iff] at hd
      rw [findLast?, find?, ih hd.2]
      by_cases hsame : other.same key = true
      · have hnone : find? rest key = none := by
          rw [find?_eq_none_iff, ← (Key.same_iff _ _).mp hsame]
          exact hd.1
        simp [hnone, hsame]
      · cases find? rest key <;> simp [hsame]

/-- Nothing is found exactly under the keys whose class does not occur. -/
theorem findLast?_eq_none_iff {entries : List (Key × α)} {key : Key} :
    findLast? entries key = none ↔ key.keyClass ∉ classes entries := by
  induction entries with
  | nil => simp [findLast?]
  | cons entry rest ih =>
      rw [findLast?, classes_cons, List.mem_cons, not_or, ← ih]
      cases findLast? rest key with
      | some found => simp
      | none =>
          simp only [ite_eq_right_iff, reduceCtorEq, imp_false, Key.same_iff, and_true]
          exact not_congr eq_comm

theorem mem_of_findLast?_eq_some {entries : List (Key × α)} {key : Key} {value : α}
    (h : findLast? entries key = some value) :
    ∃ other, (other, value) ∈ entries ∧ other.keyClass = key.keyClass := by
  induction entries with
  | nil => cases h
  | cons entry rest ih =>
      rw [findLast?] at h
      cases hlater : findLast? rest key with
      | some found =>
          rw [hlater] at h
          obtain ⟨other, hmem, hclass⟩ := ih (hlater.trans h)
          exact ⟨other, List.mem_cons_of_mem _ hmem, hclass⟩
      | none =>
          rw [hlater] at h
          obtain ⟨hsame, hvalue⟩ := Option.ite_none_right_eq_some.mp h
          cases hvalue
          exact ⟨entry.1, List.mem_cons_self, (Key.same_iff _ _).mp hsame⟩

/-! ## Storing pairs -/

/-- Storing a value changes what is found under its key and nothing else. -/
theorem find?_insert (entries : List (Key × α)) (key : Key) (value : α) (other : Key) :
    find? (insert entries key value) other =
      if key.same other then some value else find? entries other := by
  induction entries with
  | nil => rfl
  | cons entry rest ih =>
      obtain ⟨first, held⟩ := entry
      by_cases hsame : first.same key = true
      · have hclass := (Key.same_iff _ _).mp hsame
        have hothers : first.same other = key.same other := by
          rw [Bool.eq_iff_iff, Key.same_iff, Key.same_iff, hclass]
        simp only [insert, hsame, if_true, find?, hothers]
        split <;> rfl
      · simp only [insert, hsame, find?, ih, Bool.false_eq_true, if_false]
        by_cases hfirst : first.same other = true
        · have hkey : ¬ key.same other = true := by
            rw [Key.same_iff]
            intro heq
            exact hsame ((Key.same_iff _ _).mpr (((Key.same_iff _ _).mp hfirst).trans heq.symm))
          simp [hfirst, hkey]
        · simp [hfirst]

theorem mem_classes_insert {entries : List (Key × α)} {key : Key} {value : α} {c : KeyClass} :
    c ∈ classes (insert entries key value) ↔ c = key.keyClass ∨ c ∈ classes entries := by
  induction entries with
  | nil => simp [insert]
  | cons entry rest ih =>
      obtain ⟨first, held⟩ := entry
      by_cases hsame : first.same key = true
      · have hclass := (Key.same_iff _ _).mp hsame
        simp [insert, hsame, hclass]
      · simp [insert, hsame, ih, or_left_comm]

theorem distinct_insert {entries : List (Key × α)} (hd : distinct entries = true) (key : Key)
    (value : α) : distinct (insert entries key value) = true := by
  induction entries with
  | nil => rfl
  | cons entry rest ih =>
      obtain ⟨first, held⟩ := entry
      rw [distinct_iff, classes_cons, List.nodup_cons, ← distinct_iff] at hd
      by_cases hsame : first.same key = true
      · simp only [insert, hsame, if_true]
        rw [distinct_iff, classes_cons, List.nodup_cons, ← distinct_iff]
        exact hd
      · simp only [insert, hsame, Bool.false_eq_true, if_false]
        rw [distinct_iff, classes_cons, List.nodup_cons, ← distinct_iff, mem_classes_insert,
          not_or]
        exact ⟨⟨fun heq => hsame ((Key.same_iff _ _).mpr heq), hd.1⟩, ih hd.2⟩

/-- What is left by storing pairs holds each key once. -/
theorem distinct_ofPairs (pairs : List (Key × α)) : distinct (ofPairs pairs) = true := by
  suffices ∀ entries : List (Key × α), distinct entries = true →
      distinct (pairs.foldl (fun entries pair => insert entries pair.1 pair.2) entries) = true from
    this [] rfl
  induction pairs with
  | nil => exact fun entries h => h
  | cons pair pairs ih => exact fun entries h => ih _ (distinct_insert h pair.1 pair.2)

theorem forall_key_insert {p : Key → Prop} {entries : List (Key × α)} {key : Key} (value : α)
    (h : ∀ entry ∈ entries, p entry.1) (hkey : p key) :
    ∀ entry ∈ insert entries key value, p entry.1 := by
  induction entries with
  | nil => exact List.forall_mem_singleton.mpr hkey
  | cons entry rest ih =>
      obtain ⟨hfirst, hrest⟩ := List.forall_mem_cons.mp h
      rw [insert]
      split
      · exact List.forall_mem_cons.mpr ⟨hfirst, hrest⟩
      · exact List.forall_mem_cons.mpr ⟨hfirst, ih hrest⟩

/-- Storing pairs one after another makes up no keys. -/
theorem forall_key_ofPairs {p : Key → Prop} {pairs : List (Key × α)}
    (h : ∀ pair ∈ pairs, p pair.1) : ∀ entry ∈ ofPairs pairs, p entry.1 := by
  suffices ∀ entries : List (Key × α), (∀ entry ∈ entries, p entry.1) →
      ∀ entry ∈ pairs.foldl (fun entries pair => insert entries pair.1 pair.2) entries,
        p entry.1 from this [] (List.forall_mem_nil _)
  induction pairs with
  | nil => exact fun entries hentries => hentries
  | cons pair pairs ih =>
      obtain ⟨hfirst, hrest⟩ := List.forall_mem_cons.mp h
      exact fun entries hentries => ih hrest _ (forall_key_insert pair.2 hentries hfirst)

theorem insert_eq_append {entries : List (Key × α)} {key : Key} (h : key.keyClass ∉ classes entries)
    (value : α) : insert entries key value = entries ++ [(key, value)] := by
  induction entries with
  | nil => rfl
  | cons entry rest ih =>
      obtain ⟨other, held⟩ := entry
      rw [classes_cons, List.mem_cons, not_or] at h
      have hother : ¬ other.same key = true := fun hsame => h.1 ((Key.same_iff _ _).mp hsame).symm
      rw [insert, if_neg hother, ih h.2, List.cons_append]

/-- Storing entries one after another keeps them as they are if no key repeats. -/
theorem ofPairs_eq_self {pairs : List (Key × α)} (h : distinct pairs = true) :
    ofPairs pairs = pairs := by
  suffices ∀ entries : List (Key × α), (classes (entries ++ pairs)).Nodup →
      pairs.foldl (fun entries pair => insert entries pair.1 pair.2) entries = entries ++ pairs from
    this [] (distinct_iff.mp h)
  clear h
  induction pairs with
  | nil => exact fun entries _ => (List.append_nil entries).symm
  | cons pair pairs ih =>
      intro entries h
      have hnew : pair.1.keyClass ∉ classes entries := by
        intro hmem
        rw [classes, List.map_append, List.nodup_append] at h
        exact h.2.2 _ hmem _ List.mem_cons_self rfl
      rw [List.append_cons] at h
      rw [List.foldl_cons, insert_eq_append hnew, ih _ h, ← List.append_cons]

/-- Of several pairs under one key the last is left. -/
theorem find?_ofPairs (pairs : List (Key × α)) (key : Key) :
    find? (ofPairs pairs) key = findLast? pairs key := by
  suffices ∀ entries : List (Key × α),
      find? (pairs.foldl (fun entries pair => insert entries pair.1 pair.2) entries) key =
        (findLast? pairs key).or (find? entries key) by
    rw [ofPairs, this []]
    exact Option.or_none
  induction pairs with
  | nil => exact fun entries => rfl
  | cons pair pairs ih =>
      intro entries
      rw [List.foldl_cons, ih, find?_insert, findLast?]
      cases findLast? pairs key with
      | some value => rfl
      | none => by_cases hsame : pair.1.same key = true <;> simp [hsame]

theorem mem_classes_ofPairs (pairs : List (Key × α)) (key : Key) :
    key.keyClass ∈ classes (ofPairs pairs) ↔ key.keyClass ∈ classes pairs := by
  rw [← not_iff_not, ← find?_eq_none_iff, ← findLast?_eq_none_iff, find?_ofPairs]

theorem findLast?_append (as bs : List (Key × α)) (key : Key) :
    findLast? (as ++ bs) key = (findLast? bs key).or (findLast? as key) := by
  induction as with
  | nil => simp [findLast?]
  | cons entry as ih =>
      rw [List.cons_append, findLast?, ih, findLast?]
      cases findLast? bs key <;> simp

theorem findLast?_ofPairs (pairs : List (Key × α)) (key : Key) :
    findLast? (ofPairs pairs) key = findLast? pairs key := by
  rw [findLast?_eq_find? (distinct_ofPairs pairs), find?_ofPairs]

/-! ## Lists of entries in step -/

/-- Entries under the same keys, in step, are found together. -/
theorem findLast?_rel_of_forall₂ {β : Type} (rel : Key → α → β → Prop)
    (hrel : ∀ {key other : Key} {a : α} {b : β}, key.keyClass = other.keyClass → rel key a b →
      rel other a b)
    {as : List (Key × α)} {bs : List (Key × β)}
    (h : List.Forall₂ (fun a b => a.1 = b.1 ∧ rel a.1 a.2 b.2) as bs) (key : Key) :
    Option.Rel (rel key) (findLast? as key) (findLast? bs key) := by
  induction h with
  | nil => exact .none
  | @cons a b as bs hab _ ih =>
      rw [findLast?, findLast?, ← hab.1]
      generalize findLast? as key = x at ih
      generalize findLast? bs key = y at ih
      cases ih with
      | some hlater => exact .some hlater
      | none =>
          simp only
          split
          · next hsame => exact .some (hrel ((Key.same_iff _ _).mp hsame) hab.2)
          · exact .none

theorem classes_eq_of_forall₂ {β : Type} {as : List (Key × α)} {bs : List (Key × β)}
    (h : List.Forall₂ (fun a b => a.1.keyClass = b.1.keyClass) as bs) :
    classes as = classes bs := by
  induction h with
  | nil => rfl
  | cons hab _ ih => rw [classes_cons, classes_cons, hab, ih]

theorem findLast?_map {β : Type} (f : α → β) (entries : List (Key × α)) (key : Key) :
    findLast? (entries.map fun entry => (entry.1, f entry.2)) key =
      (findLast? entries key).map f := by
  induction entries with
  | nil => rfl
  | cons entry rest ih =>
      rw [List.map_cons, findLast?, ih, findLast?]
      cases findLast? rest key with
      | some value => rfl
      | none => by_cases hsame : entry.1.same key = true <;> simp [hsame]

/-- A filter that looks at keys only keeps all declarations of a key or none. -/
theorem findLast?_filter {keep : Key → Bool}
    (hkeep : ∀ {key other : Key}, key.keyClass = other.keyClass → keep key = keep other)
    (entries : List (Key × α)) (key : Key) :
    findLast? (entries.filter fun entry => keep entry.1) key =
      if keep key then findLast? entries key else none := by
  induction entries with
  | nil => simp [findLast?]
  | cons entry rest ih =>
      obtain ⟨other, value⟩ := entry
      have hsame : other.same key = true → keep other = keep key := fun hsame =>
        hkeep ((Key.same_iff _ _).mp hsame)
      cases hother : keep other with
      | true =>
          rw [List.filter_cons_of_pos (by simpa using hother), findLast?, ih, findLast?]
          by_cases hkey : keep key = true
          · simp [hkey]
          · have hdiffers : ¬ other.same key = true := fun h => hkey (hsame h ▸ hother)
            simp [hkey, hdiffers]
      | false =>
          rw [List.filter_cons_of_neg (by simp [hother]), ih, findLast?]
          by_cases hkey : keep key = true
          · have hdiffers : ¬ other.same key = true := fun h => by
              rw [← hsame h, hother] at hkey
              cases hkey
            cases findLast? rest key <;> simp [hkey, hdiffers]
          · simp [hkey]

theorem find?_eq_some_iff {entries : List (Key × α)} (hd : distinct entries = true) {key : Key}
    {value : α} :
    find? entries key = some value ↔
      ∃ other, (other, value) ∈ entries ∧ other.keyClass = key.keyClass := by
  constructor
  · exact mem_of_find?_eq_some
  · rintro ⟨other, hmem, hclass⟩
    rw [← find?_congr hclass]
    exact find?_eq_some_of_mem hd hmem

/-- The order of a mapping does not matter to what is found in it. -/
theorem find?_perm {as bs : List (Key × α)} (h : as.Perm bs) (hd : distinct as = true)
    (key : Key) : find? as key = find? bs key := by
  have hd' : distinct bs = true := by
    rw [distinct_iff] at hd ⊢
    exact (h.map _).nodup_iff.mp hd
  apply Option.ext
  intro value
  rw [find?_eq_some_iff hd, find?_eq_some_iff hd']
  simp only [h.mem_iff]

/-! ## Counting keys -/

theorem keyCount_eq [DecidableEq KeyClass] (entries : List (Key × α)) :
    keyCount entries = (classes entries).dedup.length := by
  induction entries with
  | nil => rfl
  | cons entry rest ih =>
      obtain ⟨key, value⟩ := entry
      rw [keyCount, classes_cons]
      split
      · next hmem => rw [List.dedup_cons_of_mem (has_iff.mp hmem), ih]
      · next hnew =>
        rw [List.dedup_cons_of_notMem fun h => hnew (has_iff.mpr h), List.length_cons, ih]

/-- Equally many keys on both sides, all of the left occurring on the right, are the same keys. -/
theorem mem_classes_iff_of_keyCount {as bs : List (Key × α)} (hcount : keyCount as = keyCount bs)
    (hsub : classes as ⊆ classes bs) (c : KeyClass) : c ∈ classes as ↔ c ∈ classes bs := by
  classical
  rw [keyCount_eq, keyCount_eq] at hcount
  have hsub' : (classes as).dedup ⊆ (classes bs).dedup := fun k hk =>
    List.mem_dedup.mpr (hsub (List.mem_dedup.mp hk))
  have hsubperm := List.subperm_of_subset (List.nodup_dedup _) hsub'
  have hperm := hsubperm.perm_of_length_le (Nat.le_of_eq hcount.symm)
  rw [← List.mem_dedup, hperm.mem_iff, List.mem_dedup]

/-- The same for mappings, which hold each key once. -/
theorem mem_classes_iff_of_length {as bs : List (Key × α)} (hd : distinct as = true)
    (hlen : as.length = bs.length) (hsub : classes as ⊆ classes bs) (c : KeyClass) :
    c ∈ classes as ↔ c ∈ classes bs := by
  have hle : (classes bs).length ≤ (classes as).length := by simp [classes, hlen]
  have hperm := (List.subperm_of_subset (distinct_iff.mp hd) hsub).perm_of_length_le hle
  exact hperm.mem_iff

end Entries

end SchemaModel
