import SchemaModel.Proofs.Value.Entries
import SchemaModel.Value.Equality

/-!
# Equality of data

A value that is JSON data throughout is an atom, something that is not a number, an array or an
object.  Arrays and objects are families of parts, under positions and under names, and two of
them are equal when the families are equal part by part.  This makes `Value.jsonEqual` symmetric
and transitive on data whose objects hold each key once; it is not reflexive, for what is not a
number equals nothing.
-/

namespace SchemaModel

/-! ## Families of parts -/

theorem optionRel_self {α : Type} {r : α → α → Prop} {x : Option α}
    (h : ∀ a, x = some a → r a a) : Option.Rel r x x := by
  cases x with
  | none => exact .none
  | some a => exact .some (h a rfl)

theorem optionRel_swap {α β : Type} {r : α → β → Prop} {s : β → α → Prop} {x : Option α}
    {y : Option β} (h : Option.Rel r x y)
    (hswap : ∀ a b, x = some a → y = some b → r a b → s b a) : Option.Rel s y x := by
  cases h with
  | none => exact .none
  | some hab => exact .some (hswap _ _ rfl rfl hab)

theorem optionRel_comp {α β γ : Type} {r : α → β → Prop} {s : β → γ → Prop} {t : α → γ → Prop}
    {x : Option α} {y : Option β} {z : Option γ} (h₁ : Option.Rel r x y) (h₂ : Option.Rel s y z)
    (hcomp : ∀ a b c, x = some a → y = some b → z = some c → r a b → s b c → t a c) :
    Option.Rel t x z := by
  cases h₁ with
  | none =>
      cases h₂
      exact .none
  | some hab =>
      cases h₂ with
      | some hbc => exact .some (hcomp _ _ _ rfl rfl rfl hab hbc)

theorem optionRel_some_left {α β : Type} {r : α → β → Prop} {x : Option α} {y : Option β}
    (h : Option.Rel r x y) {a : α} (ha : x = some a) : ∃ b, y = some b ∧ r a b := by
  cases h with
  | none => cases ha
  | some hab =>
      cases ha
      exact ⟨_, rfl, hab⟩

theorem optionRel_some_right {α β : Type} {r : α → β → Prop} {x : Option α} {y : Option β}
    (h : Option.Rel r x y) {b : β} (hb : y = some b) : ∃ a, x = some a ∧ r a b := by
  cases h with
  | none => cases hb
  | some hab =>
      cases hb
      exact ⟨_, rfl, hab⟩

theorem optionRel_cases {α β : Type} {r : α → β → Prop} {x : Option α} {y : Option β}
    (h : Option.Rel r x y) :
    (x = none ∧ y = none) ∨ ∃ a b, x = some a ∧ y = some b ∧ r a b := by
  cases h with
  | none => exact .inl ⟨rfl, rfl⟩
  | some hab => exact .inr ⟨_, _, rfl, rfl, hab⟩

theorem optionRel_forall_iff {α β : Type} {r : α → β → Prop} {p : α → Prop} {q : β → Prop}
    {x : Option α} {y : Option β} (h : Option.Rel r x y)
    (hpq : ∀ a b, x = some a → y = some b → r a b → (p a ↔ q b)) :
    (∀ a, x = some a → p a) ↔ ∀ b, y = some b → q b := by
  cases h with
  | none => simp
  | some hab => simpa using hpq _ _ rfl rfl hab

theorem optionRel_congr {α β γ δ : Type} {r : α → γ → Prop} {s : β → δ → Prop} {p : α → β → Prop}
    {q : γ → δ → Prop} {x : Option α} {x' : Option γ} {y : Option β} {y' : Option δ}
    (hx : Option.Rel r x x') (hy : Option.Rel s y y')
    (h : ∀ a a' b b', r a a' → s b b' → (q a' b' ↔ p a b)) :
    Option.Rel q x' y' ↔ Option.Rel p x y := by
  cases hx with
  | none =>
      cases hy with
      | none => exact iff_of_true .none .none
      | some hb => exact iff_of_false nofun nofun
  | some ha =>
      cases hy with
      | none => exact iff_of_false nofun nofun
      | some hb =>
          simp only [Option.rel_some_some]
          exact h _ _ _ _ ha hb

/-- Two lists match if they match at every position and end together. -/
theorem forall₂_iff_optionRel {α β : Type} {r : α → β → Prop} {as : List α} {bs : List β} :
    List.Forall₂ r as bs ↔ ∀ i : Nat, Option.Rel r as[i]? bs[i]? := by
  constructor
  · intro h
    induction h with
    | nil => exact fun i => .none
    | cons hab _ ih =>
        intro i
        cases i with
        | zero => exact .some hab
        | succ i => exact ih i
  · intro h
    induction as generalizing bs with
    | nil =>
        cases bs with
        | nil => exact .nil
        | cons b bs => exact nomatch h 0
    | cons a as ih =>
        cases bs with
        | nil => exact nomatch h 0
        | cons b bs =>
            cases h 0 with
            | some hab => exact .cons hab (ih fun i => h (i + 1))

theorem forall₂_iff_getElem? {α β : Type} {r : α → β → Prop} {as : List α} {bs : List β} :
    List.Forall₂ r as bs ↔ as.length = bs.length ∧
      ∀ (i : Nat) a b, as[i]? = some a → bs[i]? = some b → r a b := by
  constructor
  · intro h
    refine ⟨h.length_eq, ?_⟩
    induction h with
    | nil => simp
    | cons hab _ ih =>
        intro i x y hx hy
        cases i with
        | zero =>
            cases hx
            cases hy
            exact hab
        | succ i => exact ih i x y hx hy
  · rintro ⟨hlen, hparts⟩
    induction as generalizing bs with
    | nil =>
        cases List.eq_nil_of_length_eq_zero hlen.symm
        exact .nil
    | cons a as ih =>
        cases bs with
        | nil => cases hlen
        | cons b bs =>
            refine .cons (hparts 0 a b rfl rfl) (ih (Nat.succ.inj hlen) ?_)
            exact fun i x y hx hy => hparts (i + 1) x y hx hy

theorem exists_getElem?_of_length_eq {α β : Type} {as : List α} {bs : List β}
    (hlen : as.length = bs.length) {i : Nat} {a : α} (ha : as[i]? = some a) :
    ∃ b, bs[i]? = some b := by
  obtain ⟨hi, -⟩ := List.getElem?_eq_some_iff.mp ha
  exact ⟨_, List.getElem?_eq_getElem (hlen ▸ hi)⟩

theorem forall₂_imp_of_mem {α β : Type} {r s : α → β → Prop} {as : List α} {bs : List β}
    (h : List.Forall₂ r as bs) (himp : ∀ a ∈ as, ∀ b, r a b → s a b) : List.Forall₂ s as bs := by
  induction h with
  | nil => exact .nil
  | cons hab _ ih =>
      obtain ⟨hfirst, hrest⟩ := List.forall_mem_cons.mp himp
      exact .cons (hfirst _ hab) (ih hrest)

theorem forall₂_zipIdx {α β : Type} {rel : α → β → Prop} {p : α → Prop} {xs : List α} {ys : List β}
    (h : List.Forall₂ rel xs ys) (hp : ∀ x ∈ xs, p x) (k : Nat) :
    List.Forall₂ (fun x y => p x.1 ∧ rel x.1 y.1 ∧ x.2 = y.2) (xs.zipIdx k) (ys.zipIdx k) := by
  induction h generalizing k with
  | nil => exact .nil
  | cons hxy _ ih =>
      obtain ⟨hx, hxs⟩ := List.forall_mem_cons.mp hp
      exact .cons ⟨hx, hxy, rfl⟩ (ih hxs (k + 1))

theorem forall_mem_iff_of_forall₂ {α β : Type} {r : α → β → Prop} {p : α → Prop} {q : β → Prop}
    {as : List α} {bs : List β} (h : List.Forall₂ r as bs) (hpq : ∀ {a b}, r a b → (p a ↔ q b)) :
    (∀ a ∈ as, p a) ↔ ∀ b ∈ bs, q b := by
  induction h with
  | nil => simp
  | cons hab _ ih => rw [List.forall_mem_cons, List.forall_mem_cons, hpq hab, ih]

theorem exists_forall₂ {α β : Type} {rel : α → β → Prop} {xs : List α}
    (h : ∀ x ∈ xs, ∃ y, rel x y) : ∃ ys, List.Forall₂ rel xs ys := by
  induction xs with
  | nil => exact ⟨[], .nil⟩
  | cons x xs ih =>
      obtain ⟨⟨y, hy⟩, hxs⟩ := List.forall_mem_cons.mp h
      obtain ⟨ys, hys⟩ := ih hxs
      exact ⟨y :: ys, .cons hy hys⟩

theorem exists_mapM_eq_ok {α β ε : Type} {f : α → Except ε β} {xs : List α}
    (h : ∀ x ∈ xs, ∃ y, f x = .ok y) : ∃ ys, xs.mapM f = .ok ys := by
  induction xs with
  | nil => exact ⟨[], rfl⟩
  | cons x xs ih =>
      obtain ⟨hx, hxs⟩ := List.forall_mem_cons.mp h
      obtain ⟨y, hy⟩ := hx
      obtain ⟨ys, hys⟩ := ih hxs
      refine ⟨y :: ys, ?_⟩
      rw [List.mapM_cons, hy, hys]
      rfl

theorem exists_mem_of_forall₂ {α β : Type} {r : α → β → Prop} {as : List α} {bs : List β}
    (h : List.Forall₂ r as bs) : ∀ a ∈ as, ∃ b ∈ bs, r a b := by
  induction h with
  | nil => exact List.forall_mem_nil _
  | cons hab _ ih =>
      refine List.forall_mem_cons.mpr ⟨⟨_, List.mem_cons_self, hab⟩, fun a ha => ?_⟩
      obtain ⟨b, hb, hab⟩ := ih a ha
      exact ⟨b, List.mem_cons_of_mem _ hb, hab⟩

theorem Exact.ofInt_injective {m n : Int} (h : Exact.ofInt m = Exact.ofInt n) : m = n := by
  have hunits : (unitsOfOne : Int) ≠ 0 := Int.natCast_ne_zero.mpr (by decide +kernel)
  exact Int.eq_of_mul_eq_mul_right hunits (Exact.units.inj h)

namespace Value

/-! ## Well-formed values and data -/

theorem allJson_iff {items : List Value} :
    allJson items = true ↔ ∀ item ∈ items, item.isJson = true := by
  induction items with
  | nil => simp [allJson]
  | cons item items ih => simp [allJson, ih]

theorem entriesJson_iff {entries : List (Key × Value)} :
    entriesJson entries = true ↔ ∀ entry ∈ entries, entry.2.isJson = true := by
  induction entries with
  | nil => simp [entriesJson]
  | cons entry entries ih => simp [entriesJson, ih]

mutual

/-- Whether every mapping inside a value holds each key once, as `Entries.insert` keeps it. -/
def distinctKeys : Value → Bool
  | .list items => itemsDistinct items
  | .tuple items => itemsDistinct items
  | .mapping _ entries => Entries.distinct entries && entriesDistinct entries
  | _ => true

/-- Whether every mapping inside the elements holds each key once. -/
def itemsDistinct : List Value → Bool
  | [] => true
  | item :: items => item.distinctKeys && itemsDistinct items

/-- Whether every mapping inside the stored values holds each key once. -/
def entriesDistinct : List (Key × Value) → Bool
  | [] => true
  | (_, value) :: entries => value.distinctKeys && entriesDistinct entries

end

theorem itemsDistinct_iff {items : List Value} :
    itemsDistinct items = true ↔ ∀ item ∈ items, item.distinctKeys = true := by
  induction items with
  | nil => simp [itemsDistinct]
  | cons item items ih => simp [itemsDistinct, ih]

theorem entriesDistinct_iff {entries : List (Key × Value)} :
    entriesDistinct entries = true ↔ ∀ entry ∈ entries, entry.2.distinctKeys = true := by
  induction entries with
  | nil => simp [entriesDistinct]
  | cons entry entries ih => simp [entriesDistinct, ih]

theorem distinctKeys_mapping_iff {form : MappingForm} {entries : List (Key × Value)} :
    (mapping form entries).distinctKeys = true ↔
      Entries.distinct entries = true ∧ ∀ entry ∈ entries, entry.2.distinctKeys = true := by
  rw [distinctKeys, Bool.and_eq_true, entriesDistinct_iff]

theorem distinctKeys_of_mem_items {a : Value} {items : List Value} (ha : a.distinctKeys = true)
    (h : a.items? = some items) : ∀ item ∈ items, item.distinctKeys = true := by
  cases a <;> cases h <;> exact itemsDistinct_iff.mp ha

theorem fields?_eq_some_iff {a : Value} {fields : List (Key × Value)} :
    a.fields? = some fields ↔
      ∃ form, a = .mapping form fields ∧ Entries.textual fields = true := by
  cases a with
  | mapping form entries =>
      rw [fields?, Option.ite_none_right_eq_some, Option.some.injEq]
      constructor
      · rintro ⟨htext, rfl⟩
        exact ⟨form, rfl, htext⟩
      · rintro ⟨form, hsame, htext⟩
        cases hsame
        exact ⟨htext, rfl⟩
  | _ => simp [fields?]

theorem textual_of_fields {a : Value} {fields : List (Key × Value)}
    (h : a.fields? = some fields) : Entries.textual fields = true := by
  obtain ⟨form, rfl, htext⟩ := fields?_eq_some_iff.mp h
  exact htext

theorem distinct_of_fields {a : Value} {fields : List (Key × Value)} (ha : a.distinctKeys = true)
    (h : a.fields? = some fields) :
    Entries.distinct fields = true ∧ ∀ entry ∈ fields, entry.2.distinctKeys = true := by
  obtain ⟨form, rfl, -⟩ := fields?_eq_some_iff.mp h
  exact distinctKeys_mapping_iff.mp ha

theorem exists_items_iff {a : Value} :
    (∃ items, a.items? = some items) ↔ a.kind? = some .array := by
  cases a <;> simp [items?, kind?]

theorem exists_fields_iff {a : Value} :
    (∃ fields, a.fields? = some fields) ↔ a.kind? = some .object := by
  cases a <;> simp [fields?, kind?]

/-- What a scalar is compared by. -/
inductive Atom where
  | null
  | flag (flag : Bool)
  | size (size : Exact)
  | text (text : Text)

/-- The atom of a scalar; what is not a number has none. -/
def atom? : Value → Option Atom
  | .null => some .null
  | .bool flag => some (.flag flag)
  | .int number => some (.size (Exact.ofInt number))
  | .float number => number.measure?.map .size
  | .str text => some (.text text)
  | _ => none

/-- JSON data whose objects hold each key once. -/
inductive IsData : Value → Prop
  | atom {a : Value} {x : Atom} (h : a.atom? = some x) : IsData a
  | nan (mark : Nat) : IsData (.float (.nan mark))
  | array {a : Value} {items : List Value} (h : a.items? = some items)
      (parts : ∀ item ∈ items, IsData item) : IsData a
  | object {a : Value} {fields : List (Key × Value)} (h : a.fields? = some fields)
      (distinct : Entries.distinct fields = true) (parts : ∀ entry ∈ fields, IsData entry.2) :
      IsData a

/-- The forms of a value, each with its parts: induction follows positions and names. -/
@[elab_as_elim]
theorem viewInduction {motive : Value → Prop}
    (atom : ∀ (a : Value) (x : Atom), a.atom? = some x → motive a)
    (nan : ∀ mark, motive (.float (.nan mark)))
    (array : ∀ (a : Value) (items : List Value), a.items? = some items →
      (∀ item ∈ items, motive item) → motive a)
    (object : ∀ (a : Value) (fields : List (Key × Value)), a.fields? = some fields →
      (∀ entry ∈ fields, motive entry.2) → motive a)
    (other : ∀ a : Value, a.kind? = none → motive a) (a : Value) : motive a := by
  match a with
  | .null => exact atom _ _ rfl
  | .bool _ => exact atom _ _ rfl
  | .int _ => exact atom _ _ rfl
  | .float (.finite ..) => exact atom _ _ rfl
  | .float (.infinite _) => exact atom _ _ rfl
  | .float (.nan mark) => exact nan mark
  | .str _ => exact atom _ _ rfl
  | .list items =>
      exact array _ items rfl fun item _ => viewInduction atom nan array object other item
  | .tuple items =>
      exact array _ items rfl fun item _ => viewInduction atom nan array object other item
  | .mapping form entries =>
      by_cases htext : Entries.textual entries = true
      · exact object _ entries (fields?_eq_some_iff.mpr ⟨form, rfl, htext⟩) fun entry _ =>
          viewInduction atom nan array object other entry.2
      · exact other _ (by simp [kind?, htext])
  | .foreign _ => exact other _ rfl
termination_by sizeOf a
decreasing_by
  · have hmem := List.sizeOf_lt_of_mem ‹_ ∈ items›
    simp_wf
    omega
  · have hmem := List.sizeOf_lt_of_mem ‹_ ∈ items›
    simp_wf
    omega
  · have hmem := List.sizeOf_lt_of_mem ‹_ ∈ entries›
    obtain ⟨key, value⟩ := entry
    simp_wf
    simp only [Prod.mk.sizeOf_spec] at hmem
    omega

/-- Data are what is JSON throughout and repeats no key. -/
theorem isData_iff {a : Value} : IsData a ↔ a.isJson = true ∧ a.distinctKeys = true := by
  constructor
  · intro h
    induction h with
    | @atom a x h => cases a <;> simp_all [atom?, isJson, distinctKeys]
    | nan mark => simp [isJson, distinctKeys]
    | @array a items h parts ih =>
        have hjson := allJson_iff.mpr fun item hmem => (ih item hmem).1
        have hkeys := itemsDistinct_iff.mpr fun item hmem => (ih item hmem).2
        cases a <;> cases h <;> exact ⟨by simp [isJson, hjson], by simp [distinctKeys, hkeys]⟩
    | @object a fields h distinct parts ih =>
        obtain ⟨form, rfl, htext⟩ := fields?_eq_some_iff.mp h
        have hjson := entriesJson_iff.mpr fun entry hmem => (ih entry hmem).1
        have hkeys := entriesDistinct_iff.mpr fun entry hmem => (ih entry hmem).2
        exact ⟨by simp [isJson, htext, hjson], by simp [distinctKeys, distinct, hkeys]⟩
  · rintro ⟨hjson, hkeys⟩
    induction a using viewInduction with
    | atom a x h => exact .atom h
    | nan mark => exact .nan mark
    | array a items h ih =>
        have hitems : ∀ item ∈ items, item.isJson = true := by
          cases a <;> cases h <;> exact allJson_iff.mp hjson
        exact .array h fun item hmem =>
          ih item hmem (hitems item hmem) (distinctKeys_of_mem_items hkeys h item hmem)
    | object a fields h ih =>
        obtain ⟨hdistinct, hparts⟩ := distinct_of_fields hkeys h
        obtain ⟨form, rfl, htext⟩ := fields?_eq_some_iff.mp h
        rw [isJson, htext, Bool.true_and, entriesJson_iff] at hjson
        exact .object h hdistinct fun entry hmem =>
          ih entry hmem (hjson entry hmem) (hparts entry hmem)
    | other a h =>
        cases a <;> simp_all [kind?, isJson]

theorem IsData.distinctKeys {a : Value} (h : IsData a) : a.distinctKeys = true :=
  (isData_iff.mp h).2

/-- All data have a kind. -/
theorem IsData.kind?_ne_none {a : Value} (h : IsData a) : a.kind? ≠ none := by
  cases h with
  | atom h => cases a <;> simp_all [atom?, kind?]
  | nan mark => simp [kind?]
  | array h => cases a <;> simp_all [items?, kind?]
  | object h =>
      obtain ⟨form, rfl, htext⟩ := fields?_eq_some_iff.mp h
      simp [kind?, htext]

theorem IsData.of_mem_items {a : Value} {items : List Value} (ha : IsData a)
    (h : a.items? = some items) : ∀ item ∈ items, IsData item := by
  intro item hmem
  obtain ⟨hjson, hkeys⟩ := isData_iff.mp ha
  refine isData_iff.mpr ⟨?_, distinctKeys_of_mem_items hkeys h item hmem⟩
  cases a <;> cases h <;> exact allJson_iff.mp hjson item hmem

theorem IsData.of_mem_fields {a : Value} {fields : List (Key × Value)} (ha : IsData a)
    (h : a.fields? = some fields) : ∀ entry ∈ fields, IsData entry.2 := by
  intro entry hmem
  obtain ⟨hjson, hkeys⟩ := isData_iff.mp ha
  refine isData_iff.mpr ⟨?_, (distinct_of_fields hkeys h).2 entry hmem⟩
  obtain ⟨form, rfl, htext⟩ := fields?_eq_some_iff.mp h
  rw [isJson, htext, Bool.true_and, entriesJson_iff] at hjson
  exact hjson entry hmem

/-! ## Equality form by form -/

theorem measure?_eq_some_iff {a : Value} {size : Exact} :
    a.measure? = some size ↔ a.atom? = some (.size size) := by
  cases a <;> simp [measure?, atom?]

/-- A number equals what has its size. -/
theorem jsonEqual_iff_of_measure {a : Value} {size : Exact} (h : a.measure? = some size)
    (b : Value) : a.jsonEqual b = true ↔ b.measure? = some size := by
  have hagree : a.jsonEqual b = Exact.agree a.measure? b.measure? := by
    cases a with
    | int number => cases b <;> rfl
    | float number => cases b <;> rfl
    | _ => cases h
  rw [hagree, h]
  cases b.measure? <;> simp [Exact.agree, eq_comm]

/-- A scalar equals what has its atom. -/
theorem jsonEqual_iff_of_atom {a : Value} {x : Atom} (h : a.atom? = some x) (b : Value) :
    a.jsonEqual b = true ↔ b.atom? = some x := by
  cases a with
  | null =>
      cases h
      cases b <;> simp [jsonEqual, atom?, measure?, Exact.agree]
  | bool flag =>
      cases h
      cases b <;> simp [jsonEqual, atom?, measure?, Exact.agree, eq_comm]
  | str text =>
      cases h
      cases b <;> simp [jsonEqual, atom?, measure?, Exact.agree, eq_comm]
  | int number =>
      cases h
      rw [jsonEqual_iff_of_measure rfl, measure?_eq_some_iff]
  | float number =>
      obtain ⟨size, hsize, rfl⟩ := Option.map_eq_some_iff.mp h
      rw [jsonEqual_iff_of_measure (a := .float number) hsize, measure?_eq_some_iff]
  | list items => cases h
  | tuple items => cases h
  | mapping form entries => cases h
  | foreign thing => cases h

theorem jsonEqual_nan (mark : Nat) (b : Value) : jsonEqual (.float (.nan mark)) b = false := by
  cases b <;> simp [jsonEqual, measure?, Binary64.measure?, Exact.agree]

theorem equalItems_iff_forall₂ {as bs : List Value} :
    equalItems as bs = true ↔ List.Forall₂ (fun a b => jsonEqual a b = true) as bs := by
  induction as generalizing bs with
  | nil => cases bs <;> simp [equalItems]
  | cons a as ih => cases bs <;> simp [equalItems, ih]

theorem equalItems_iff {as bs : List Value} :
    equalItems as bs = true ↔
      ∀ i : Nat, Option.Rel (fun a b => jsonEqual a b = true) as[i]? bs[i]? := by
  rw [equalItems_iff_forall₂, forall₂_iff_optionRel]

/-- Arrays are equal position by position. -/
theorem jsonEqual_iff_of_items {a : Value} {as : List Value} (h : a.items? = some as) (b : Value) :
    a.jsonEqual b = true ↔ ∃ bs, b.items? = some bs ∧
      ∀ i : Nat, Option.Rel (fun a b => jsonEqual a b = true) as[i]? bs[i]? := by
  cases a <;> cases h <;> cases b <;>
    simp [jsonEqual, items?, measure?, Exact.agree, equalItems_iff]

/-- Every entry must find an equal one under its key; the lengths are compared apart from that. -/
theorem equalEntries_iff {as bs : List (Key × Value)} :
    equalEntries as bs = true ↔
      ∀ entry ∈ as, ∃ b, Entries.find? bs entry.1 = some b ∧ entry.2.jsonEqual b = true := by
  induction as with
  | nil => simp [equalEntries]
  | cons entry as ih =>
      obtain ⟨key, a⟩ := entry
      rw [equalEntries, Bool.and_eq_true, ih, List.forall_mem_cons]
      refine and_congr_left fun _ => ?_
      cases Entries.find? bs key <;> simp

theorem exists_str_of_textual {α : Type} {fields : List (Key × α)}
    (h : Entries.textual fields = true) {entry : Key × α} (hmem : entry ∈ fields) :
    ∃ name, entry.1 = .str name :=
  Key.isText_iff.mp (List.all_eq_true.mp h entry hmem)

/-- As many fields on both sides, each with a partner under its name, are in a relation name by
name. -/
theorem partners_iff {α : Type} {r : α → α → Prop} {as bs : List (Key × α)}
    (has : Entries.distinct as = true) (htext : Entries.textual as = true)
    (hbs : Entries.distinct bs = true) (htext' : Entries.textual bs = true) :
    (as.length = bs.length ∧
        ∀ entry ∈ as, ∃ b, Entries.find? bs entry.1 = some b ∧ r entry.2 b) ↔
      ∀ name, Option.Rel r (Entries.find? as (.str name)) (Entries.find? bs (.str name)) := by
  constructor
  · rintro ⟨hlen, hall⟩ name
    have hsub : Entries.classes as ⊆ Entries.classes bs := by
      intro c hc
      obtain ⟨entry, hmem, rfl⟩ := List.mem_map.mp hc
      obtain ⟨b, hfound, -⟩ := hall entry hmem
      exact Entries.has_iff.mp (Entries.has_iff_exists_find?.mpr ⟨b, hfound⟩)
    have hkeys := Entries.mem_classes_iff_of_length has hlen hsub
    cases ha : Entries.find? as (.str name) with
    | none =>
        have hb : Entries.find? bs (.str name) = none := by
          rw [Entries.find?_eq_none_iff] at ha ⊢
          exact fun hc => ha ((hkeys _).mpr hc)
        rw [hb]
        exact .none
    | some a =>
        have hmem := (Entries.mem_iff_find?_str has).mpr ha
        obtain ⟨b, hb, hab⟩ := hall _ hmem
        rw [hb]
        exact .some hab
  · intro hrel
    have hall : ∀ entry ∈ as, ∃ b, Entries.find? bs entry.1 = some b ∧ r entry.2 b := by
      rintro ⟨key, a⟩ hmem
      obtain ⟨name, rfl⟩ := exists_str_of_textual htext hmem
      exact optionRel_some_left (hrel name) (Entries.find?_eq_some_of_mem has hmem)
    refine ⟨?_, hall⟩
    have hperm : (Entries.classes as).Perm (Entries.classes bs) := by
      refine (List.perm_ext_iff_of_nodup (Entries.distinct_iff.mp has)
        (Entries.distinct_iff.mp hbs)).mpr fun c => ?_
      constructor
      · intro hc
        obtain ⟨entry, hmem, rfl⟩ := List.mem_map.mp hc
        obtain ⟨b, hfound, -⟩ := hall entry hmem
        exact Entries.has_iff.mp (Entries.has_iff_exists_find?.mpr ⟨b, hfound⟩)
      · intro hc
        obtain ⟨⟨key, b⟩, hmem, rfl⟩ := List.mem_map.mp hc
        obtain ⟨name, rfl⟩ := exists_str_of_textual htext' hmem
        obtain ⟨a, ha, -⟩ := optionRel_some_right (hrel name)
          (Entries.find?_eq_some_of_mem hbs hmem)
        exact Entries.has_iff.mp (Entries.has_iff_exists_find?.mpr ⟨a, ha⟩)
    simpa [Entries.classes] using hperm.length_eq

theorem equalFields_iff {as bs : List (Key × Value)} (has : Entries.distinct as = true)
    (htext : Entries.textual as = true) (hbs : Entries.distinct bs = true)
    (htext' : Entries.textual bs = true) :
    as.length = bs.length ∧ equalEntries as bs = true ↔
      ∀ name, Option.Rel (fun a b => jsonEqual a b = true)
        (Entries.find? as (.str name)) (Entries.find? bs (.str name)) := by
  rw [equalEntries_iff]
  exact partners_iff (r := fun a b => jsonEqual a b = true) has htext hbs htext'

/-- Objects are equal name by name. -/
theorem jsonEqual_iff_of_fields {a b : Value} {as : List (Key × Value)}
    (ha : a.distinctKeys = true) (hb : b.distinctKeys = true) (h : a.fields? = some as) :
    a.jsonEqual b = true ↔ ∃ bs, b.fields? = some bs ∧
      ∀ name, Option.Rel (fun a b => jsonEqual a b = true)
        (Entries.find? as (.str name)) (Entries.find? bs (.str name)) := by
  have has := (distinct_of_fields ha h).1
  obtain ⟨form, rfl, htext⟩ := fields?_eq_some_iff.mp h
  cases b with
  | mapping form bs =>
      have hbs := (distinctKeys_mapping_iff.mp hb).1
      by_cases htext' : Entries.textual bs = true
      · simp only [jsonEqual, htext, htext', Bool.and_self, if_true, Bool.and_eq_true,
          decide_eq_true_eq, fields?, Option.some.injEq, exists_eq_left']
        exact equalFields_iff has htext hbs htext'
      · simp [jsonEqual, htext, htext', fields?]
  | _ => simp [jsonEqual, fields?, measure?, Exact.agree]

theorem kind?_eq_of_jsonEqual {a b : Value} (h : a.jsonEqual b = true) : a.kind? = b.kind? := by
  cases a <;> cases b <;> simp_all [jsonEqual, kind?, measure?, Exact.agree]
  split at h
  · next htext => simp [htext]
  · simp [h.1]

/-- Of two equal values both are arrays, equal position by position, or neither is one. -/
theorem items?_rel_of_jsonEqual {a b : Value} (h : a.jsonEqual b = true) :
    Option.Rel (fun as bs : List Value =>
        ∀ i : Nat, Option.Rel (fun a b => jsonEqual a b = true) as[i]? bs[i]?)
      a.items? b.items? := by
  cases has : a.items? with
  | some as =>
      obtain ⟨bs, hbs, hrel⟩ := (jsonEqual_iff_of_items has b).mp h
      rw [hbs]
      exact .some hrel
  | none =>
      cases hbs : b.items? with
      | none => exact .none
      | some bs =>
          have hkind := (kind?_eq_of_jsonEqual h).trans (exists_items_iff.mp ⟨bs, hbs⟩)
          obtain ⟨as, has'⟩ := exists_items_iff.mpr hkind
          rw [has] at has'
          cases has'

/-- Of two equal values both are objects, equal name by name, or neither is one. -/
theorem fields?_rel_of_jsonEqual {a b : Value} (ha : a.distinctKeys = true)
    (hb : b.distinctKeys = true) (h : a.jsonEqual b = true) :
    Option.Rel (fun as bs : List (Key × Value) =>
        ∀ name, Option.Rel (fun a b => jsonEqual a b = true)
          (Entries.find? as (.str name)) (Entries.find? bs (.str name)))
      a.fields? b.fields? := by
  cases has : a.fields? with
  | some as =>
      obtain ⟨bs, hbs, hrel⟩ := (jsonEqual_iff_of_fields ha hb has).mp h
      rw [hbs]
      exact .some hrel
  | none =>
      cases hbs : b.fields? with
      | none => exact .none
      | some bs =>
          have hkind := (kind?_eq_of_jsonEqual h).trans (exists_fields_iff.mp ⟨bs, hbs⟩)
          obtain ⟨as, has'⟩ := exists_fields_iff.mpr hkind
          rw [has] at has'
          cases has'

/-! ## Equality of data is symmetric and transitive -/

/-- Equality reaches every part, so what equals data has no part that is no data. -/
theorem IsData.of_jsonEqual_right {a b : Value} (ha : IsData a) (hb : b.distinctKeys = true)
    (h : a.jsonEqual b = true) : IsData b := by
  induction ha generalizing b with
  | atom hx => exact .atom ((jsonEqual_iff_of_atom hx b).mp h)
  | nan mark => simp [jsonEqual_nan] at h
  | array has parts ih =>
      obtain ⟨bs, hbs, hrel⟩ := (jsonEqual_iff_of_items has b).mp h
      refine .array hbs fun item hmem => ?_
      obtain ⟨i, hi⟩ := List.mem_iff_getElem?.mp hmem
      obtain ⟨mate, hmate, heq⟩ := optionRel_some_right (hrel i) hi
      exact ih mate (List.mem_of_getElem? hmate) (distinctKeys_of_mem_items hb hbs item hmem) heq
  | @object a fields has distinct parts ih =>
      have ha : a.distinctKeys = true := (IsData.object has distinct parts).distinctKeys
      obtain ⟨bs, hbs, hrel⟩ := (jsonEqual_iff_of_fields ha hb has).mp h
      obtain ⟨hdistinct, hkeys⟩ := distinct_of_fields hb hbs
      refine .object hbs hdistinct ?_
      rintro ⟨key, item⟩ hmem
      obtain ⟨name, rfl⟩ := exists_str_of_textual (textual_of_fields hbs) hmem
      obtain ⟨mate, hmate, heq⟩ := optionRel_some_right (hrel name)
        (Entries.find?_eq_some_of_mem hdistinct hmem)
      exact ih _ ((Entries.mem_iff_find?_str distinct).mpr hmate) (hkeys _ hmem) heq

theorem IsData.of_jsonEqual_left {a b : Value} (hb : IsData b) (ha : a.distinctKeys = true)
    (h : a.jsonEqual b = true) : IsData a := by
  induction a using viewInduction generalizing b with
  | atom a x hx => exact .atom hx
  | nan mark => exact .nan mark
  | array a as has ih =>
      obtain ⟨bs, hbs, hrel⟩ := (jsonEqual_iff_of_items has b).mp h
      refine .array has fun item hmem => ?_
      obtain ⟨i, hi⟩ := List.mem_iff_getElem?.mp hmem
      obtain ⟨mate, hmate, heq⟩ := optionRel_some_left (hrel i) hi
      exact ih item hmem (hb.of_mem_items hbs mate (List.mem_of_getElem? hmate))
        (distinctKeys_of_mem_items ha has item hmem) heq
  | object a as has ih =>
      obtain ⟨bs, hbs, hrel⟩ := (jsonEqual_iff_of_fields ha hb.distinctKeys has).mp h
      obtain ⟨hdistinct, hkeys⟩ := distinct_of_fields ha has
      refine .object has hdistinct ?_
      rintro ⟨key, item⟩ hmem
      obtain ⟨name, rfl⟩ := exists_str_of_textual (textual_of_fields has) hmem
      obtain ⟨mate, hmate, heq⟩ := optionRel_some_left (hrel name)
        (Entries.find?_eq_some_of_mem hdistinct hmem)
      have hin := (Entries.mem_iff_find?_str (distinct_of_fields hb.distinctKeys hbs).1).mpr hmate
      exact ih _ hmem (hb.of_mem_fields hbs _ hin) (hkeys _ hmem) heq
  | other a hodd =>
      exact absurd ((kind?_eq_of_jsonEqual h).symm.trans hodd) hb.kind?_ne_none

theorem IsData.jsonEqual_symm {a b : Value} (ha : IsData a) (hb : IsData b)
    (h : a.jsonEqual b = true) : b.jsonEqual a = true := by
  induction ha generalizing b with
  | atom hx => exact (jsonEqual_iff_of_atom ((jsonEqual_iff_of_atom hx b).mp h) _).mpr hx
  | nan mark => simp [jsonEqual_nan] at h
  | array has parts ih =>
      obtain ⟨bs, hbs, hrel⟩ := (jsonEqual_iff_of_items has b).mp h
      refine (jsonEqual_iff_of_items hbs _).mpr ⟨_, has, fun i => optionRel_swap (hrel i) ?_⟩
      intro x y hx hy heq
      exact ih x (List.mem_of_getElem? hx) (hb.of_mem_items hbs y (List.mem_of_getElem? hy)) heq
  | @object a fields has distinct parts ih =>
      have ha : a.distinctKeys = true := (IsData.object has distinct parts).distinctKeys
      obtain ⟨bs, hbs, hrel⟩ := (jsonEqual_iff_of_fields ha hb.distinctKeys has).mp h
      have hdistinct := (distinct_of_fields hb.distinctKeys hbs).1
      refine (jsonEqual_iff_of_fields hb.distinctKeys ha hbs).mpr
        ⟨_, has, fun name => optionRel_swap (hrel name) ?_⟩
      intro x y hx hy heq
      have hin := (Entries.mem_iff_find?_str hdistinct).mpr hy
      exact ih _ ((Entries.mem_iff_find?_str distinct).mpr hx) (hb.of_mem_fields hbs _ hin) heq

/-- Objects are chained name by name, whatever the order of their fields. -/
theorem IsData.jsonEqual_trans {a b c : Value} (ha : IsData a) (hb : IsData b) (hc : IsData c)
    (hab : a.jsonEqual b = true) (hbc : b.jsonEqual c = true) : a.jsonEqual c = true := by
  induction ha generalizing b c with
  | atom hx =>
      have hy := (jsonEqual_iff_of_atom hx b).mp hab
      exact (jsonEqual_iff_of_atom hx c).mpr ((jsonEqual_iff_of_atom hy c).mp hbc)
  | nan mark => simp [jsonEqual_nan] at hab
  | array has parts ih =>
      obtain ⟨bs, hbs, hrel⟩ := (jsonEqual_iff_of_items has b).mp hab
      obtain ⟨cs, hcs, hrel'⟩ := (jsonEqual_iff_of_items hbs c).mp hbc
      refine (jsonEqual_iff_of_items has c).mpr
        ⟨cs, hcs, fun i => optionRel_comp (hrel i) (hrel' i) ?_⟩
      intro x y z hx hy hz hxy hyz
      exact ih x (List.mem_of_getElem? hx) (hb.of_mem_items hbs y (List.mem_of_getElem? hy))
        (hc.of_mem_items hcs z (List.mem_of_getElem? hz)) hxy hyz
  | @object a fields has distinct parts ih =>
      have ha : a.distinctKeys = true := (IsData.object has distinct parts).distinctKeys
      obtain ⟨bs, hbs, hrel⟩ := (jsonEqual_iff_of_fields ha hb.distinctKeys has).mp hab
      obtain ⟨cs, hcs, hrel'⟩ :=
        (jsonEqual_iff_of_fields hb.distinctKeys hc.distinctKeys hbs).mp hbc
      refine (jsonEqual_iff_of_fields ha hc.distinctKeys has).mpr
        ⟨cs, hcs, fun name => optionRel_comp (hrel name) (hrel' name) ?_⟩
      intro x y z hx hy hz hxy hyz
      have hyIn := (Entries.mem_iff_find?_str (distinct_of_fields hb.distinctKeys hbs).1).mpr hy
      have hzIn := (Entries.mem_iff_find?_str (distinct_of_fields hc.distinctKeys hcs).1).mpr hz
      exact ih _ ((Entries.mem_iff_find?_str distinct).mpr hx) (hb.of_mem_fields hbs _ hyIn)
        (hc.of_mem_fields hcs _ hzIn) hxy hyz

/-- Equal values are equal to the same data. -/
theorem jsonEqual_congr_left {a b c : Value} (ha : a.distinctKeys = true)
    (hb : b.distinctKeys = true) (hc : IsData c) (h : a.jsonEqual b = true) :
    a.jsonEqual c = b.jsonEqual c := by
  rw [Bool.eq_iff_iff]
  constructor
  · intro hac
    have hdata := hc.of_jsonEqual_left ha hac
    have hdata' := hdata.of_jsonEqual_right hb h
    exact hdata'.jsonEqual_trans hdata hc (hdata.jsonEqual_symm hdata' h) hac
  · intro hbc
    have hdata' := hc.of_jsonEqual_left hb hbc
    have hdata := hdata'.of_jsonEqual_left ha h
    exact hdata.jsonEqual_trans hdata' hc h hbc

/-- Any value is equal to both of two equal data or to neither. -/
theorem jsonEqual_congr_right {a b c : Value} (ha : IsData a) (hb : IsData b)
    (hc : c.distinctKeys = true) (h : a.jsonEqual b = true) : c.jsonEqual a = c.jsonEqual b := by
  rw [Bool.eq_iff_iff]
  constructor
  · intro hca
    exact (ha.of_jsonEqual_left hc hca).jsonEqual_trans ha hb hca h
  · intro hcb
    exact (hb.of_jsonEqual_left hc hcb).jsonEqual_trans hb ha hcb (ha.jsonEqual_symm hb h)

end Value

end SchemaModel
