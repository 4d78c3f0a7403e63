import SchemaModel.Proofs.Value.Entries
import SchemaModel.Value.Datum

/-!
# Values as data seen from outside

What is seen of a finite value is what the value tells by itself: its kind, its parts and how it is
named.  Looking as deep as a given value goes tells whether the two are equal as JSON data.
-/

namespace SchemaModel

namespace Datum

section Look

variable (value : Value)

@[simp] theorem look_kind? : (look value).kind? = value.kind? := by
  cases value <;> rfl

@[simp] theorem look_label : (look value).label = value.label := by
  cases value <;> rfl

@[simp] theorem look_items? : (look value).items? = value.items? := by
  cases value <;> rfl

@[simp] theorem look_fields? : (look value).fields? = value.fields? := by
  cases value <;> rfl

@[simp] theorem look_measure? : (look value).measure? = value.measure? := by
  cases value <;> rfl

@[simp] theorem look_looseMeasure? : (look value).looseMeasure? = value.looseMeasure? := by
  cases value <;> rfl

end Look

/-! ## Equality -/

theorem pairwise_eq {α : Type} (as : List α) (bs : List Value) (test : α → Value → Bool) :
    pairwise as bs (fun a b => test a b.1) =
      (decide (as.length = bs.length) && (as.zip bs).all fun pair => test pair.1 pair.2) := by
  have hzip : as.zip bs = (as.zip bs.attach).map fun pair => (pair.1, pair.2.1) := by
    conv => lhs; rw [← List.attach_map_subtype_val bs, List.zip_map_right]
    rfl
  rw [pairwise, hzip, List.all_map]
  rfl

/-- A list is compared with another part by part. -/
theorem pairwise_cons {α : Type} (a : α) (as : List α) (b : Value) (bs : List Value)
    (test : α → Value → Bool) :
    pairwise (a :: as) (b :: bs) (fun a b => test a b.1) =
      (test a b && pairwise as bs fun a b => test a b.1) := by
  rw [pairwise_eq, pairwise_eq, List.zip_cons_cons, List.all_cons, List.length_cons,
    List.length_cons, Bool.and_left_comm]
  simp only [Nat.add_right_cancel_iff]

theorem sameMark_eq (value other : Value) : sameMark value other = value.sameMark other := by
  cases value with
  | float number =>
      cases other with
      | float other => cases number <;> cases other <;> rfl
      | _ => cases number <;> rfl
  | _ => rfl

theorem pairwise_eq_looseItems {as bs : List Value}
    (h : ∀ b ∈ bs, ∀ a : Value, looselyEquals a b = a.looseEqual b) :
    (pairwise as bs fun a b => Datum.sameMark a b.1 || looselyEquals a b.1) =
      Value.looseItems as bs := by
  induction as generalizing bs with
  | nil => cases bs <;> rfl
  | cons a as ih =>
      cases bs with
      | nil => rfl
      | cons b bs =>
          obtain ⟨hb, hbs⟩ := List.forall_mem_cons.mp h
          rw [pairwise_cons a as b bs fun a b => sameMark a b || looselyEquals a b, ih hbs,
            Value.looseItems, sameMark_eq, hb]

theorem pairwise_eq_equalItems {as bs : List Value}
    (h : ∀ b ∈ bs, ∀ a : Value, equals a b = a.jsonEqual b) :
    (pairwise as bs fun a b => equals a b.1) = Value.equalItems as bs := by
  induction as generalizing bs with
  | nil => cases bs <;> rfl
  | cons a as ih =>
      cases bs with
      | nil => rfl
      | cons b bs =>
          obtain ⟨hb, hbs⟩ := List.forall_mem_cons.mp h
          rw [pairwise_cons, ih hbs, Value.equalItems, hb]

/-- Entries are compared with those under the same keys. -/
theorem all_eq_looseEntries {as bs : List (Key × Value)}
    (h : ∀ b ∈ bs, ∀ a : Value, looselyEquals a b.2 = a.looseEqual b.2) :
    (as.all fun entry =>
        match _h : Entries.find? bs entry.1 with
        | some b => sameMark entry.2 b || looselyEquals entry.2 b
        | none => false) = Value.looseEntries as bs := by
  induction as with
  | nil => rfl
  | cons entry as ih =>
      obtain ⟨key, a⟩ := entry
      rw [List.all_cons, ih, Value.looseEntries]
      congr 1
      cases hfound : Entries.find? bs key with
      | none => simp
      | some b =>
          obtain ⟨other, hmem⟩ := Entries.mem_of_find? hfound
          simp [sameMark_eq, h _ hmem]

theorem all_eq_equalEntries {as bs : List (Key × Value)}
    (h : ∀ b ∈ bs, ∀ a : Value, equals a b.2 = a.jsonEqual b.2) :
    (as.all fun entry =>
        match _h : Entries.find? bs entry.1 with
        | some b => equals entry.2 b
        | none => false) = Value.equalEntries as bs := by
  induction as with
  | nil => rfl
  | cons entry as ih =>
      obtain ⟨key, a⟩ := entry
      rw [List.all_cons, ih, Value.equalEntries]
      congr 1
      cases hfound : Entries.find? bs key with
      | none => simp
      | some b =>
          obtain ⟨other, hmem⟩ := Entries.mem_of_find? hfound
          simp [h _ hmem]

theorem agree_none (size : Option Exact) : Exact.agree size none = false := by
  cases size <;> rfl

/-- A value looked at as a datum is as loosely equal to others as before. -/
theorem looselyEquals_eq (value other : Value) :
    looselyEquals value other = value.looseEqual other := by
  match other with
  | .null | .str _ | .foreign _ =>
      cases value <;>
        simp [looselyEquals, look, Shape.isNull, Shape.text?, Shape.thing?, Value.looseEqual,
          Value.looseMeasure?, Value.measure?, agree_none]
  | .bool _ | .int _ | .float _ =>
      rw [looselyEquals, look_looseMeasure?] <;> try simp
      cases value <;> rfl
  | .list bs =>
      have hbs : ∀ b ∈ bs, ∀ a : Value, looselyEquals a b = a.looseEqual b := fun b hb a =>
        looselyEquals_eq a b
      rw [looselyEquals]
      cases value <;>
        simp [look, Value.looseEqual, Value.looseMeasure?, Value.measure?, agree_none,
          pairwise_eq_looseItems hbs]
  | .tuple bs =>
      have hbs : ∀ b ∈ bs, ∀ a : Value, looselyEquals a b = a.looseEqual b := fun b hb a =>
        looselyEquals_eq a b
      rw [looselyEquals]
      cases value <;>
        simp [look, Value.looseEqual, Value.looseMeasure?, Value.measure?, agree_none,
          pairwise_eq_looseItems hbs]
  | .mapping form bs =>
      have hbs : ∀ b ∈ bs, ∀ a : Value, looselyEquals a b.2 = a.looseEqual b.2 := fun b hb a =>
        looselyEquals_eq a b.2
      rw [looselyEquals]
      cases value <;>
        simp [look, Value.looseEqual, Value.looseMeasure?, Value.measure?, agree_none]
      exact congrArg (decide _ && ·) (all_eq_looseEntries hbs)
termination_by sizeOf other
decreasing_by
  · have hsmaller := List.sizeOf_lt_of_mem hb
    simp_wf
    omega
  · have hsmaller := List.sizeOf_lt_of_mem hb
    simp_wf
    omega
  · have hsmaller := List.sizeOf_lt_of_mem hb
    obtain ⟨key, value⟩ := b
    simp_wf
    simp only [Prod.mk.sizeOf_spec] at hsmaller
    omega

/-- A value equals another seen from outside when the two are equal as JSON data. -/
theorem equals_eq (value other : Value) : equals value other = value.jsonEqual other := by
  match other with
  | .null | .bool _ | .str _ | .foreign _ =>
      cases value <;>
        simp [equals, look, Shape.isNull, Shape.flag?, Shape.text?, Shape.thing?,
          Value.jsonEqual, Value.measure?, agree_none]
  | .int _ | .float _ =>
      rw [equals, look_measure?] <;> try simp
      cases value <;> rfl
  | .list bs =>
      have hbs : ∀ b ∈ bs, ∀ a : Value, equals a b = a.jsonEqual b := fun b hb a => equals_eq a b
      rw [equals, look_items?]
      cases value <;>
        simp [Value.items?, Value.jsonEqual, Value.measure?, agree_none,
          pairwise_eq_equalItems hbs]
  | .tuple bs =>
      have hbs : ∀ b ∈ bs, ∀ a : Value, equals a b = a.jsonEqual b := fun b hb a => equals_eq a b
      rw [equals, look_items?]
      cases value <;>
        simp [Value.items?, Value.jsonEqual, Value.measure?, agree_none,
          pairwise_eq_equalItems hbs]
  | .mapping form bs =>
      have hbs : ∀ b ∈ bs, ∀ a : Value, equals a b.2 = a.jsonEqual b.2 := fun b hb a =>
        equals_eq a b.2
      rw [equals]
      cases value <;> simp [look, Value.jsonEqual, Value.measure?, agree_none]
      rw [looselyEquals_eq]
      split
      · exact congrArg (decide _ && ·) (all_eq_equalEntries hbs)
      · rfl
termination_by sizeOf other
decreasing_by
  · have hsmaller := List.sizeOf_lt_of_mem hb
    simp_wf
    omega
  · have hsmaller := List.sizeOf_lt_of_mem hb
    simp_wf
    omega
  · have hsmaller := List.sizeOf_lt_of_mem hb
    obtain ⟨key, value⟩ := b
    simp_wf
    simp only [Prod.mk.sizeOf_spec] at hsmaller
    omega

end Datum

end SchemaModel
