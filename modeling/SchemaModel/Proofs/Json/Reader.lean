import Mathlib.Algebra.Group.Nat.Defs
import Mathlib.Data.List.Induction
import SchemaModel.Json.Reader
import SchemaModel.Model.Layers
import SchemaModel.Proofs.Value.Writable

/-!
# What can be read

A document that is read is JSON data and holds each key of an object once, at every depth: a key
that occurs again in the text replaces the value of the earlier one.  It is also ordinary: a whole
number that is read has no more digits than the text that it is read from, and a number with too
many is not read.
-/

namespace SchemaModel.Json

open Model

/-- Every reading of a text gives a result that meets a condition. -/
def AlwaysReads {α : Type} (post : α → Prop) (read : List Char → Reading α) : Prop :=
  ∀ text found, read text = .ok found → post found.1

theorem map_eq_ok {ε α β : Type} {f : α → β} {x : Except ε α} {b : β} (h : x.map f = .ok b) :
    ∃ a, x = .ok a ∧ f a = b := by
  cases x with
  | error e => cases h
  | ok a => exact ⟨a, rfl, Except.ok.inj h⟩

theorem mapError_eq_ok {ε δ α : Type} {f : ε → δ} {x : Except ε α} {a : α}
    (h : x.mapError f = .ok a) : x = .ok a := by
  cases x with
  | error e => cases h
  | ok b => exact congrArg Except.ok (Except.ok.inj h)

variable [Platform]

/-! ## Numbers -/

theorem exceeded?_eq_none_of_le {digits fewer : Nat} (h : Platform.exceeded? digits = none)
    (hle : fewer ≤ digits) : Platform.exceeded? fewer = none := by
  rw [Platform.exceeded?, Option.filter_eq_none_iff] at h ⊢
  intro limit hlimit
  have hwithin := h limit hlimit
  simp only [decide_eq_true_eq] at hwithin ⊢
  omega

omit [Platform] in
/-- A number is below the power of ten that its digits count. -/
theorem digitsValue_lt {digits : List Char} (h : ∀ c ∈ digits, c.isDigit = true) :
    digitsValue digits < 10 ^ digits.length := by
  induction digits using List.reverseRecOn with
  | nil => decide
  | append_singleton digits c ih =>
      rw [List.forall_mem_append, List.forall_mem_singleton] at h
      have hbefore := ih h.1
      have hdigit := h.2
      simp only [Char.isDigit, Bool.and_eq_true, decide_eq_true_eq] at hdigit
      have hvalue : c.toNat - 48 < 10 := by
        have hupper : c.toNat ≤ 57 := hdigit.2
        omega
      rw [digitsValue, List.foldl_append, List.length_append, List.length_singleton,
        Nat.pow_succ]
      rw [digitsValue] at hbefore
      simp only [List.foldl_cons, List.foldl_nil]
      omega

omit [Platform] in
theorem forall_isDigit_of_wholePart? {text whole rest : List Char}
    (h : wholePart? text = some (whole, rest)) :
    whole ≠ [] ∧ ∀ c ∈ whole, c.isDigit = true := by
  unfold wholePart? at h
  split at h
  · cases h
    exact ⟨List.cons_ne_nil _ _, List.forall_mem_singleton.mpr rfl⟩
  · next c rest _ =>
    split at h
    · next hfirst =>
      cases h
      refine ⟨List.cons_ne_nil _ _, List.forall_mem_cons.mpr ⟨hfirst, fun d hd => ?_⟩⟩
      exact List.all_eq_true.mp List.all_takeWhile d hd
    · cases h
  · cases h

/-- A number that few enough digits denote is written with few enough digits. -/
theorem writes_digitsValue {digits : List Char} (hne : digits ≠ [])
    (hdigits : ∀ c ∈ digits, c.isDigit = true)
    (hfits : Platform.exceeded? digits.length = none) {n : Int}
    (hn : n.natAbs = digitsValue digits) : Platform.writes n = true := by
  have hlength : (Nat.toDigits 10 n.natAbs).length ≤ digits.length := by
    rw [hn]
    exact (Nat.length_toDigits_le_iff (by decide) (List.length_pos_of_ne_nil hne)).mpr
      (digitsValue_lt hdigits)
  rw [Platform.writes, exceeded?_eq_none_of_le hfits hlength]
  rfl

/-! ## Values -/

/-- Data as they are read: each key of an object stands there once, and no number is too long. -/
structure Clean (value : Value) : Prop where
  json : value.isJson = true
  distinct : value.distinctKeys = true
  ordinary : value.isOrdinary = true

/-- Entries as they are read, with names and clean values. -/
def CleanEntries (entries : List (Key × Value)) : Prop :=
  ∀ entry ∈ entries, entry.1.isText = true ∧ Clean entry.2

theorem canShow_of_isText {key : Key} (h : key.isText = true) : key.canShow = true := by
  obtain ⟨name, rfl⟩ := Key.isText_iff.mp h
  rfl

/-- Storing entries one after another keeps keys distinct and makes up no values. -/
theorem clean_mapping {pairs : List (Key × Value)} (h : CleanEntries pairs) :
    Clean (.mapping .dict (Entries.ofPairs pairs)) := by
  have hvalues : ∀ entry ∈ Entries.ofPairs pairs, Clean entry.2 := by
    intro entry hentry
    obtain ⟨key, hpair⟩ := Entries.mem_of_mem_ofPairs hentry
    exact (h (key, entry.2) hpair).2
  have hkeys := Entries.forall_key_ofPairs (p := (·.isText = true)) fun pair hpair =>
    (h pair hpair).1
  refine ⟨?_, Value.distinctKeys_mapping_iff.mpr ⟨Entries.distinct_ofPairs pairs, ?_⟩, ?_⟩
  · rw [Value.isJson, Bool.and_eq_true, Value.entriesJson_iff]
    exact ⟨List.all_eq_true.mpr hkeys, fun entry hentry => (hvalues entry hentry).json⟩
  · exact fun entry hentry => (hvalues entry hentry).distinct
  · rw [Value.isOrdinary, MappingForm.isDictionary, Bool.true_and, entriesOrdinary_iff]
    exact fun entry hentry =>
      ⟨canShow_of_isText (hkeys entry hentry), (hvalues entry hentry).ordinary⟩

theorem clean_list {items : List Value} (h : ∀ item ∈ items, Clean item) : Clean (.list items) := by
  refine ⟨?_, Value.itemsDistinct_iff.mpr fun item hitem => (h item hitem).distinct, ?_⟩
  · rw [Value.isJson, Value.allJson_iff]
    exact fun item hitem => (h item hitem).json
  · rw [Value.isOrdinary, itemsOrdinary_iff]
    exact fun item hitem => (h item hitem).ordinary

/-- A whole number that was not too long to be read is not too long to be written. -/
theorem readNumber_clean : AlwaysReads Clean readNumber := by
  intro text found h
  unfold readNumber at h
  simp only at h
  split at h
  · cases h
  · next whole rest hwhole =>
    obtain ⟨hne, hdigits⟩ := forall_isDigit_of_wholePart? hwhole
    split at h
    · split at h
      · cases h
      · next hfits =>
        cases h
        refine ⟨rfl, rfl, writes_digitsValue hne hdigits hfits ?_⟩
        split <;> simp
    · cases h
      exact ⟨rfl, rfl, rfl⟩

section Step

variable {fuel : Nat}

/-- One step of the induction on the bound of the nesting. -/
theorem readValue_clean_step (hitems : AlwaysReads (∀ item ∈ ·, Clean item) (readItems fuel))
    (hmembers : AlwaysReads CleanEntries (readMembers fuel)) :
    AlwaysReads Clean (readValue (fuel + 1)) := by
  intro text found h
  unfold readValue at h
  split at h
  · obtain ⟨chars, -, rfl⟩ := map_eq_ok h
    exact ⟨rfl, rfl, rfl⟩
  · split at h
    · cases h
      exact ⟨rfl, rfl, rfl⟩
    · obtain ⟨members, hread, rfl⟩ := map_eq_ok h
      exact clean_mapping (hmembers _ _ hread)
  · split at h
    · cases h
      exact ⟨rfl, rfl, rfl⟩
    · obtain ⟨items, hread, rfl⟩ := map_eq_ok h
      exact clean_list (hitems _ _ hread)
  · cases h
    exact ⟨rfl, rfl, rfl⟩
  · cases h
    exact ⟨rfl, rfl, rfl⟩
  · cases h
    exact ⟨rfl, rfl, rfl⟩
  · cases h
    exact ⟨rfl, rfl, rfl⟩
  · cases h
    exact ⟨rfl, rfl, rfl⟩
  · cases h
    exact ⟨rfl, rfl, rfl⟩
  · exact readNumber_clean _ _ h

theorem readItems_clean_step (hvalue : AlwaysReads Clean (readValue fuel))
    (hitems : AlwaysReads (∀ item ∈ ·, Clean item) (readItems fuel)) :
    AlwaysReads (∀ item ∈ ·, Clean item) (readItems (fuel + 1)) := by
  intro text found h
  unfold readItems at h
  obtain ⟨first, hfirst, h⟩ := bind_eq_ok h
  have hclean := hvalue _ _ hfirst
  simp only at h
  split at h
  · cases h
    exact List.forall_mem_singleton.mpr hclean
  · obtain ⟨rest, hrest, h⟩ := bind_eq_ok h
    cases h
    exact List.forall_mem_cons.mpr ⟨hclean, hitems _ _ hrest⟩
  · cases h

theorem readMembers_clean_step (hvalue : AlwaysReads Clean (readValue fuel))
    (hmembers : AlwaysReads CleanEntries (readMembers fuel)) :
    AlwaysReads CleanEntries (readMembers (fuel + 1)) := by
  intro text found h
  unfold readMembers at h
  split at h
  · obtain ⟨name, -, h⟩ := bind_eq_ok h
    simp only at h
    split at h
    · obtain ⟨first, hfirst, h⟩ := bind_eq_ok h
      have hclean := hvalue _ _ hfirst
      split at h
      · cases h
        exact List.forall_mem_singleton.mpr ⟨rfl, hclean⟩
      · obtain ⟨rest, hrest, h⟩ := bind_eq_ok h
        cases h
        exact List.forall_mem_cons.mpr ⟨⟨rfl, hclean⟩, hmembers _ _ hrest⟩
      · cases h
    · cases h
  · cases h

end Step

/-- The three readers call each other with less fuel. -/
theorem read_clean (fuel : Nat) :
    AlwaysReads Clean (readValue fuel) ∧ AlwaysReads (∀ item ∈ ·, Clean item) (readItems fuel) ∧
      AlwaysReads CleanEntries (readMembers fuel) := by
  induction fuel with
  | zero =>
      refine ⟨?_, ?_, ?_⟩
      all_goals
        intro text found h
        cases h
  | succ fuel ih =>
      obtain ⟨hvalue, hitems, hmembers⟩ := ih
      exact ⟨readValue_clean_step hitems hmembers, readItems_clean_step hvalue hitems,
        readMembers_clean_step hvalue hmembers⟩

/-- A document that is read is JSON data, holds each key once, and nothing in it is too long to be
written. -/
theorem clean_of_read {text : String} {value : Value} (h : read text = .ok value) :
    Clean value := by
  have hdocument := mapError_eq_ok h
  rw [readDocument] at hdocument
  split at hdocument
  · cases hdocument
  · obtain ⟨found, hfound, hrest⟩ := bind_eq_ok hdocument
    simp only at hrest
    split at hrest
    · cases hrest
      exact (read_clean _).1 _ _ hfound
    · cases hrest

end SchemaModel.Json
