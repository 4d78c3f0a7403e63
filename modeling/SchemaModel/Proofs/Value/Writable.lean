import SchemaModel.Json.Writer
import SchemaModel.Proofs.Value.Equality

/-!
# Values that can be written

A value is ordinary when the platform takes its whole numbers and its mappings are dictionaries.
Ordinary data can be written as JSON, and on the platform without bounds all data are ordinary.
-/

namespace SchemaModel

theorem sizeOf_snd_lt_of_mem {entries : List (Key × Value)} {entry : Key × Value}
    (h : entry ∈ entries) : sizeOf entry.2 < sizeOf entries := by
  have hbound := List.sizeOf_lt_of_mem h
  obtain ⟨key, value⟩ := entry
  simp only [Prod.mk.sizeOf_spec] at hbound ⊢
  omega

section Ordinary

variable [Platform]

/-- Whether mappings built in a way are dictionaries. -/
def MappingForm.isDictionary : MappingForm → Bool
  | .dict => true
  | .other typeName => Platform.isDictionary typeName

mutual

/-- Whether no whole number in a value is too long for the platform and every mapping in it is a
dictionary. -/
def Value.isOrdinary : Value → Bool
  | .int n => Platform.writes n
  | .list items => itemsOrdinary items
  | .tuple items => itemsOrdinary items
  | .mapping form entries => form.isDictionary && entriesOrdinary entries
  | _ => true

def itemsOrdinary : List Value → Bool
  | [] => true
  | item :: items => item.isOrdinary && itemsOrdinary items

def entriesOrdinary : List (Key × Value) → Bool
  | [] => true
  | (key, value) :: entries => key.canShow && value.isOrdinary && entriesOrdinary entries

end

theorem itemsOrdinary_iff {items : List Value} :
    itemsOrdinary items = true ↔ ∀ item ∈ items, item.isOrdinary = true := by
  induction items with
  | nil => simp [itemsOrdinary]
  | cons item items ih => simp [itemsOrdinary, ih]

theorem entriesOrdinary_iff {entries : List (Key × Value)} :
    entriesOrdinary entries = true ↔
      ∀ entry ∈ entries, entry.1.canShow = true ∧ entry.2.isOrdinary = true := by
  induction entries with
  | nil => simp [entriesOrdinary]
  | cons entry entries ih => simp [entriesOrdinary, ih]

theorem itemsCanShow_iff {items : List Value} :
    itemsCanShow items = true ↔ ∀ item ∈ items, item.canShow = true := by
  induction items with
  | nil => simp [itemsCanShow]
  | cons item items ih => simp [itemsCanShow, ih]

theorem entriesCanShow_iff {entries : List (Key × Value)} :
    entriesCanShow entries = true ↔
      ∀ entry ∈ entries, entry.1.canShow = true ∧ entry.2.canShow = true := by
  induction entries with
  | nil => simp [entriesCanShow]
  | cons entry entries ih => simp [entriesCanShow, ih]

theorem itemsRefusal?_eq_none_iff {items : List Value} :
    itemsRefusal? items = none ↔ ∀ item ∈ items, item.refusal? = none := by
  induction items with
  | nil => simp [itemsRefusal?]
  | cons item items ih => simp [itemsRefusal?, ih]

theorem entriesRefusal?_eq_none_iff {entries : List (Key × Value)} :
    entriesRefusal? entries = none ↔
      ∀ entry ∈ entries, entry.1.refusal? = none ∧ entry.2.refusal? = none := by
  induction entries with
  | nil => simp [entriesRefusal?]
  | cons entry entries ih => simp [entriesRefusal?, ih]

theorem refusal?_mapping (form : MappingForm) (entries : List (Key × Value)) :
    (Value.mapping form entries).refusal? =
      if form.isDictionary then entriesRefusal? entries else some (.value form.typeName) := by
  cases form with
  | dict => rw [Value.refusal?, MappingForm.isDictionary, if_pos rfl]
  | other typeName => rw [Value.refusal?]; rfl

namespace Value

theorem isWritable_iff {value : Value} : value.isWritable = true ↔ value.refusal? = none := by
  rw [isWritable, Option.isNone_iff_eq_none]

/-- Data of which nothing is too long or no dictionary are written. -/
theorem refusal?_of_ordinary {value : Value} (hjson : value.isJson = true)
    (h : value.isOrdinary = true) : value.refusal? = none := by
  match value with
  | .int n =>
      rw [isOrdinary] at h
      rw [refusal?, refusalOfWhole?, if_pos h]
  | .list items | .tuple items =>
      rw [isJson, allJson_iff] at hjson
      rw [isOrdinary, itemsOrdinary_iff] at h
      rw [refusal?, itemsRefusal?_eq_none_iff]
      exact fun item hmem => refusal?_of_ordinary (hjson item hmem) (h item hmem)
  | .mapping form entries =>
      rw [isJson, Bool.and_eq_true, entriesJson_iff] at hjson
      rw [isOrdinary, Bool.and_eq_true, entriesOrdinary_iff] at h
      rw [refusal?_mapping, if_pos h.1, entriesRefusal?_eq_none_iff]
      intro entry hmem
      obtain ⟨name, hname⟩ := exists_str_of_textual hjson.1 hmem
      exact ⟨by rw [hname]; rfl, refusal?_of_ordinary (hjson.2 entry hmem) (h.2 entry hmem).2⟩
  | .null | .bool _ | .float _ | .str _ => rfl
  | .foreign _ => cases hjson
termination_by sizeOf value
decreasing_by
  all_goals simp_wf
  · have hsmaller := List.sizeOf_lt_of_mem hmem
    omega
  · have hsmaller := List.sizeOf_lt_of_mem hmem
    omega
  · have hsmaller := sizeOf_snd_lt_of_mem hmem
    omega

/-- An ordinary value can be shown. -/
theorem canShow_of_ordinary {value : Value} (h : value.isOrdinary = true) :
    value.canShow = true := by
  match value with
  | .int n => exact h
  | .list items | .tuple items =>
      rw [isOrdinary, itemsOrdinary_iff] at h
      rw [canShow, itemsCanShow_iff]
      exact fun item hmem => canShow_of_ordinary (h item hmem)
  | .mapping form entries =>
      rw [isOrdinary, Bool.and_eq_true, entriesOrdinary_iff] at h
      rw [canShow, entriesCanShow_iff]
      exact fun entry hmem =>
        ⟨(h.2 entry hmem).1, canShow_of_ordinary (h.2 entry hmem).2⟩
  | .null | .bool _ | .float _ | .str _ | .foreign _ => rfl
termination_by sizeOf value
decreasing_by
  all_goals simp_wf
  · have hsmaller := List.sizeOf_lt_of_mem hmem
    omega
  · have hsmaller := List.sizeOf_lt_of_mem hmem
    omega
  · have hsmaller := sizeOf_snd_lt_of_mem hmem
    omega

end Value

end Ordinary

/-! ## The platform without bounds -/

section Unlimited

attribute [local instance] Platform.unlimited

theorem Key.canShow_unlimited (key : Key) : key.canShow = true := by
  match key with
  | .tuple parts =>
      have hparts : ∀ keys : List Key, (∀ key ∈ keys, key.canShow = true) →
          keysCanShow keys = true := by
        intro keys hkeys
        induction keys with
        | nil => rfl
        | cons key keys ih =>
            obtain ⟨hkey, hrest⟩ := List.forall_mem_cons.mp hkeys
            rw [keysCanShow, hkey, ih hrest, Bool.and_self]
      exact hparts parts fun key hmem => canShow_unlimited key
  | .str _ | .int _ | .bool _ | .float _ | .null | .foreign _ => rfl
termination_by sizeOf key
decreasing_by
  have hsmaller := List.sizeOf_lt_of_mem hmem
  simp_wf
  omega

theorem MappingForm.isDictionary_unlimited (form : MappingForm) : form.isDictionary = true := by
  cases form <;> rfl

theorem Value.isOrdinary_unlimited (value : Value) : value.isOrdinary = true := by
  match value with
  | .list items | .tuple items =>
      rw [isOrdinary, itemsOrdinary_iff]
      exact fun item hmem => isOrdinary_unlimited item
  | .mapping form entries =>
      rw [isOrdinary, MappingForm.isDictionary_unlimited, Bool.true_and, entriesOrdinary_iff]
      exact fun entry hmem => ⟨entry.1.canShow_unlimited, isOrdinary_unlimited entry.2⟩
  | .int _ | .null | .bool _ | .float _ | .str _ | .foreign _ => rfl
termination_by sizeOf value
decreasing_by
  all_goals simp_wf
  · have hsmaller := List.sizeOf_lt_of_mem hmem
    omega
  · have hsmaller := List.sizeOf_lt_of_mem hmem
    omega
  · have hsmaller := sizeOf_snd_lt_of_mem hmem
    omega

/-- Without bounds all data are written. -/
theorem Value.refusal?_unlimited {value : Value} (h : value.isJson = true) :
    value.refusal? = none :=
  refusal?_of_ordinary h value.isOrdinary_unlimited

theorem Value.canShow_unlimited (value : Value) : value.canShow = true :=
  canShow_of_ordinary value.isOrdinary_unlimited

end Unlimited

end SchemaModel
