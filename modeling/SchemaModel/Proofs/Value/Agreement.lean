import SchemaModel.Proofs.Value.Datum
import SchemaModel.Proofs.Value.Height
import SchemaModel.Proofs.Value.Reorder

/-!
# Data that agree to a level

Two data agree to level zero when they look the same from outside: they have one type, and they are
the same scalar, or arrays of one length, or mappings with the same keys in the same order.  They
agree to the next level when moreover their parts agree, one by one, to the level before.  Whether
a datum equals given values is settled at the level of their height.  Every datum agrees with a
finite value to any level, also one that goes on for ever.
-/

namespace SchemaModel

namespace Shape

variable {α β : Type}

/-- Whether two shapes are the same scalar of the same type. -/
def sameScalar : Shape α → Shape β → Bool
  | .null, .null => true
  | .bool a, .bool b => a = b
  | .int a, .int b => a = b
  | .float a, .float b => a.measure? = b.measure?
  | .str a, .str b => a = b
  | .foreign a, .foreign b => a = b
  | _, _ => false

/-- Shapes of one type side by side: the same scalar, arrays of one length, or mappings with the
same keys in the same order, with a relation between the parts. -/
inductive Beside (below : α → β → Prop) : Shape α → Shape β → Prop
  | scalar {a : Shape α} {b : Shape β} (same : a.sameScalar b = true) : Beside below a b
  | list {as : List α} {bs : List β} (parts : List.Forall₂ below as bs) :
      Beside below (.list as) (.list bs)
  | tuple {as : List α} {bs : List β} (parts : List.Forall₂ below as bs) :
      Beside below (.tuple as) (.tuple bs)
  | mapping {form : MappingForm} {as : List (Key × α)} {bs : List (Key × β)}
      (entries : List.Forall₂ (fun x y => x.1.same y.1 = true ∧ below x.2 y.2) as bs) :
      Beside below (.mapping form as) (.mapping form bs)

variable {below below' : α → β → Prop} {a : Shape α} {b : Shape β}

theorem Beside.mono (h : Beside below a b) (himp : ∀ x y, below x y → below' x y) :
    Beside below' a b := by
  cases h with
  | scalar same => exact .scalar same
  | list parts => exact .list (parts.imp himp)
  | tuple parts => exact .tuple (parts.imp himp)
  | mapping entries => exact .mapping (entries.imp fun x y hxy => ⟨hxy.1, himp _ _ hxy.2⟩)

/-! ## What can be seen from outside -/

theorem isText_eq_of_same {key other : Key} (h : key.same other = true) :
    key.isText = other.isText := by
  have hclass := (Key.same_iff key other).mp h
  rw [Bool.eq_iff_iff, Key.isText_iff, Key.isText_iff]
  simp only [← Key.keyClass_eq_text_iff, hclass]

theorem textual_eq_of_forall₂ {as : List (Key × α)} {bs : List (Key × β)}
    (h : List.Forall₂ (fun x y => x.1.same y.1 = true ∧ below x.2 y.2) as bs) :
    Entries.textual as = Entries.textual bs := by
  rw [Entries.textual, Entries.textual]
  induction h with
  | nil => rfl
  | cons hxy _ ih => rw [List.all_cons, List.all_cons, isText_eq_of_same hxy.1, ih]

namespace Beside

theorem typeName_eq (h : Beside below a b) : a.typeName = b.typeName := by
  cases h with
  | scalar same => cases a <;> cases b <;> simp_all [sameScalar, typeName]
  | list | tuple | mapping => rfl

theorem kind?_eq (h : Beside below a b) : a.kind? = b.kind? := by
  cases h with
  | scalar same => cases a <;> cases b <;> simp_all [sameScalar, kind?]
  | list | tuple => rfl
  | mapping entries => rw [kind?, kind?, textual_eq_of_forall₂ entries]

theorem label_eq (h : Beside below a b) : a.label = b.label := by
  rw [label, label, h.kind?_eq, h.typeName_eq]

theorem isNull_eq (h : Beside below a b) : a.isNull = b.isNull := by
  cases h with
  | scalar same => cases a <;> cases b <;> simp_all [sameScalar, isNull]
  | list | tuple | mapping => rfl

theorem flag?_eq (h : Beside below a b) : a.flag? = b.flag? := by
  cases h with
  | scalar same => cases a <;> cases b <;> simp_all [sameScalar, flag?]
  | list | tuple | mapping => rfl

theorem text?_eq (h : Beside below a b) : a.text? = b.text? := by
  cases h with
  | scalar same => cases a <;> cases b <;> simp_all [sameScalar, text?]
  | list | tuple | mapping => rfl

theorem measure?_eq (h : Beside below a b) : a.measure? = b.measure? := by
  cases h with
  | scalar same => cases a <;> cases b <;> simp_all [sameScalar, measure?]
  | list | tuple | mapping => rfl

theorem items?_rel (h : Beside below a b) :
    Option.Rel (List.Forall₂ below) a.items? b.items? := by
  cases h with
  | scalar same => cases a <;> cases b <;> simp_all [sameScalar, items?]
  | list parts => exact .some parts
  | tuple parts => exact .some parts
  | mapping entries => exact .none

/-- Fields beside each other have the same names. -/
theorem fields?_rel (h : Beside below a b) :
    Option.Rel (Value.EntriesInStep below) a.fields? b.fields? := by
  cases h with
  | scalar same => cases a <;> cases b <;> simp_all [sameScalar, fields?]
  | list | tuple => exact .none
  | mapping entries =>
      rw [fields?, fields?, ← textual_eq_of_forall₂ entries]
      split
      · next htext =>
        refine .some (forall₂_imp_of_mem entries fun x hx y hxy => ⟨?_, hxy.2⟩)
        obtain ⟨name, hname⟩ := Value.exists_str_of_textual htext hx
        have hclass := (Key.same_iff x.1 y.1).mp hxy.1
        rw [hname, Key.keyClass_str] at hclass
        rw [hname, Key.keyClass_eq_text_iff.mp hclass.symm]
      · exact .none

end Beside

end Shape

namespace Datum

variable {α β : Type} [Datum α] [Datum β]

/-- Agreement of two data down to a level. -/
def AgreeTo : Nat → α → β → Prop
  | 0, a, b => (look a).Beside (fun _ _ => True) (look b)
  | n + 1, a, b => (look a).Beside (AgreeTo n) (look b)

variable {a : α} {b : β} {m n : Nat}

theorem AgreeTo.of_succ (h : AgreeTo (n + 1) a b) : AgreeTo n a b := by
  induction n generalizing a b with
  | zero => exact Shape.Beside.mono h fun _ _ _ => trivial
  | succ n ih => exact Shape.Beside.mono h fun _ _ hxy => ih hxy

theorem AgreeTo.mono (h : AgreeTo n a b) (hle : m ≤ n) : AgreeTo m a b := by
  induction hle with
  | refl => exact h
  | step _ ih => exact ih h.of_succ

/-- The parts of data that agree to a level agree to every level before it. -/
theorem AgreeTo.beside (h : AgreeTo n a b) :
    (look a).Beside (fun x y => ∀ m, m < n → AgreeTo m x y) (look b) := by
  cases n with
  | zero => exact Shape.Beside.mono h fun _ _ _ m hm => absurd hm (Nat.not_lt_zero m)
  | succ n => exact Shape.Beside.mono h fun x y hxy m hm => AgreeTo.mono hxy (Nat.le_of_lt_succ hm)

/-! ## Equality with given values -/

theorem equals_eq_of_items {e : Value} {es : List Value} (h : e.items? = some es) (a : α) :
    equals a e =
      match (look a).items? with
      | some as => pairwise as es fun x y => equals x y.1
      | none => false := by
  cases e <;> cases h <;> rewrite [equals] <;> cases (look a).items? <;> rfl

/-- A datum equals an object entry by entry. -/
theorem equals_eq_of_fields {e : Value} {es : List (Key × Value)} (h : e.fields? = some es)
    (a : α) :
    equals a e =
      match (look a).fields? with
      | some as => decide (as.length = es.length) && as.all fun entry =>
          match Entries.find? es entry.1 with
          | some value => equals entry.2 value
          | none => false
      | none => false := by
  obtain ⟨form, rfl, htext⟩ := Value.fields?_eq_some_iff.mp h
  rw [equals]
  cases look a with
  | mapping _ as =>
      cases htext' : Entries.textual as with
      | true =>
          simp only [Shape.fields?, htext, htext', Bool.and_self, if_true]
          congr 2
          funext entry
          cases Entries.find? es entry.1 <;> rfl
      | false => simp [Shape.fields?, htext, htext']
  | _ => rfl

theorem pairwise_congr {rel : α → β → Prop} {as : List α} {bs : List β} {es : List Value}
    (h : List.Forall₂ rel as bs)
    (heq : ∀ e ∈ es, ∀ a b, rel a b → equals a e = equals b e) :
    (pairwise as es fun x y => equals x y.1) = pairwise bs es fun x y => equals x y.1 := by
  induction h generalizing es with
  | nil => rfl
  | cons hab hrest ih =>
      cases es with
      | nil => rfl
      | cons e es =>
          obtain ⟨hfirst, hothers⟩ := List.forall_mem_cons.mp heq
          rw [pairwise_cons, pairwise_cons, hfirst _ _ hab, ih hothers]

theorem all_entries_congr {rel : α → β → Prop} {as : List (Key × α)} {bs : List (Key × β)}
    {es : List (Key × Value)} (h : Value.EntriesInStep rel as bs)
    (heq : ∀ entry ∈ es, ∀ a b, rel a b → equals a entry.2 = equals b entry.2) :
    (as.all fun entry =>
        match Entries.find? es entry.1 with
        | some value => equals entry.2 value
        | none => false) =
      bs.all fun entry =>
        match Entries.find? es entry.1 with
        | some value => equals entry.2 value
        | none => false := by
  induction h with
  | nil => rfl
  | @cons x y as bs hxy _ ih =>
      rw [List.all_cons, List.all_cons, ih, hxy.1]
      cases hfound : Entries.find? es y.1 with
      | none => rfl
      | some e =>
          obtain ⟨other, hmem⟩ := Entries.mem_of_find? hfound
          simp only [heq _ hmem _ _ hxy.2]

theorem height_lt_of_mem_items {e : Value} {es : List Value} (h : e.items? = some es) :
    ∀ item ∈ es, item.height < e.height := by
  cases e <;> cases h <;> exact Value.heightOfItems_le_iff.mp (Nat.le_refl _)

theorem height_lt_of_mem_fields {e : Value} {es : List (Key × Value)} (h : e.fields? = some es) :
    ∀ entry ∈ es, entry.2.height < e.height := by
  obtain ⟨form, rfl, -⟩ := Value.fields?_eq_some_iff.mp h
  exact Value.heightOfEntries_le_iff.mp (Nat.le_refl _)

/-- What has no parts is compared by what is seen of it. -/
theorem equals_eq_of_beside {below : α → β → Prop} {e : Value} {x : Value.Atom}
    (h : e.atom? = some x) (hbeside : (look a).Beside below (look b)) :
    equals a e = equals b e := by
  cases e with
  | null => rw [equals, equals, hbeside.isNull_eq]
  | bool flag => rw [equals, equals, hbeside.flag?_eq]
  | str text => rw [equals, equals, hbeside.text?_eq]
  | int n => rw [equals, equals, hbeside.measure?_eq] <;> simp
  | float number => rw [equals, equals, hbeside.measure?_eq] <;> simp
  | list | tuple | mapping | foreign => cases h

/-- Data that agree to the height of a given value are both equal to it or both not. -/
theorem equals_eq_of_agreeTo {e : Value} (he : e.IsData) (h : AgreeTo e.height a b) :
    equals a e = equals b e := by
  induction he generalizing a b with
  | atom hatom => exact equals_eq_of_beside hatom h.beside
  | nan mark => rw [equals, equals, h.beside.measure?_eq] <;> simp
  | array hitems parts ih =>
      rw [equals_eq_of_items hitems, equals_eq_of_items hitems]
      rcases optionRel_cases h.beside.items?_rel with ⟨ha, hb⟩ | ⟨as, bs, ha, hb, hparts⟩
      · rw [ha, hb]
      · rw [ha, hb]
        exact pairwise_congr hparts fun e hmem a b hab =>
          ih e hmem (hab _ (height_lt_of_mem_items hitems e hmem))
  | object hfields distinct parts ih =>
      rw [equals_eq_of_fields hfields, equals_eq_of_fields hfields]
      rcases optionRel_cases h.beside.fields?_rel with ⟨ha, hb⟩ | ⟨as, bs, ha, hb, hparts⟩
      · rw [ha, hb]
      · rw [ha, hb]
        have hequal := all_entries_congr hparts fun entry hmem a b hab =>
          ih entry hmem (hab _ (height_lt_of_mem_fields hfields entry hmem))
        simp only [hparts.length_eq, hequal]

/-! ## The beginning of a datum -/

end Datum

/-- The value that looks like a shape with values for its parts. -/
def Shape.toValue : Shape Value → Value
  | .null => .null
  | .bool flag => .bool flag
  | .int n => .int n
  | .float x => .float x
  | .str text => .str text
  | .list items => .list items
  | .tuple items => .tuple items
  | .mapping form entries => .mapping form entries
  | .foreign thing => .foreign thing

namespace Datum

variable {α : Type} [Datum α]

theorem look_toValue (shape : Shape Value) : look shape.toValue = shape := by
  cases shape <;> rfl

/-- The first levels of a datum, with nothing in place of what lies deeper. -/
def beginning : Nat → α → Value
  | 0, a => ((look a).map fun _ => Value.null).toValue
  | n + 1, a => ((look a).map (beginning n)).toValue

theorem beside_map {α : Type} {below : α → Value → Prop} {f : α → Value} (h : ∀ a, below a (f a))
    (shape : Shape α) : shape.Beside below (shape.map f) := by
  cases shape with
  | list => exact .list (List.forall₂_map_right_iff.mpr (List.forall₂_same.mpr fun a _ => h a))
  | tuple => exact .tuple (List.forall₂_map_right_iff.mpr (List.forall₂_same.mpr fun a _ => h a))
  | mapping form entries =>
      refine .mapping (List.forall₂_map_right_iff.mpr (List.forall₂_same.mpr ?_))
      exact fun entry _ => ⟨(Key.same_iff entry.1 entry.1).mpr rfl, h entry.2⟩
  | _ => exact .scalar (by simp [Shape.map, Shape.sameScalar])

/-- A datum agrees with its beginning. -/
theorem agreeTo_beginning (n : Nat) (a : α) : AgreeTo n a (beginning n a) := by
  induction n generalizing a with
  | zero =>
      rw [AgreeTo, beginning, look_toValue]
      exact beside_map (fun _ => trivial) (look a)
  | succ n ih =>
      rw [AgreeTo, beginning, look_toValue]
      exact beside_map ih (look a)

end Datum

end SchemaModel
