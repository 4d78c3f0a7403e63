import SchemaModel.Model.Accepts
import SchemaModel.Proofs.Value.Datum
import SchemaModel.Proofs.Value.Writable

/-!
# Good models

A model is good when it could have been made by the functions that make models, down to its last
part: its values are data, an enumeration lists at least one value and no two that are equal, what
an object requires it declares, and a combination has branches.  A good model answers for every
value, so acceptance is a Boolean function `Model.permits` with one equation for each form.
-/

namespace SchemaModel

attribute [local instance] Platform.unlimited

/-- Whether a combination holds, given the answers of its branches. -/
def Combinator.holds : Combinator → List Bool → Bool
  | .oneOf, answers => answers.countP id = 1
  | .anyOf, answers => answers.any id
  | .allOf, answers => answers.all id

/-! ## Tests that answer on every element -/

section Tests

variable {α ε : Type}

theorem allM_eq_ok {f : α → Except ε Bool} {g : α → Bool} {xs : List α}
    (h : ∀ x ∈ xs, f x = .ok (g x)) : xs.allM f = .ok (xs.all g) := by
  induction xs with
  | nil => rfl
  | cons x xs ih =>
      rw [List.allM, h x List.mem_cons_self, List.all_cons]
      cases hx : g x with
      | false => rfl
      | true => exact ih fun y hy => h y (List.mem_cons_of_mem x hy)

theorem anyM_eq_ok {f : α → Except ε Bool} {g : α → Bool} {xs : List α}
    (h : ∀ x ∈ xs, f x = .ok (g x)) : xs.anyM f = .ok (xs.any g) := by
  induction xs with
  | nil => rfl
  | cons x xs ih =>
      rw [List.anyM, h x List.mem_cons_self, List.any_cons]
      cases hx : g x with
      | true => rfl
      | false => exact ih fun y hy => h y (List.mem_cons_of_mem x hy)

/-- Ending a search after the second success does not change whether there is exactly one. -/
theorem exactlyOne_eq_ok {f : α → Except ε Bool} {g : α → Bool} {xs : List α}
    (h : ∀ x ∈ xs, f x = .ok (g x)) (found : Bool) :
    exactlyOne f found xs = .ok (decide (xs.countP g + found.toNat = 1)) := by
  induction xs generalizing found with
  | nil => cases found <;> rfl
  | cons x xs ih =>
      have hrest := ih fun y hy => h y (List.mem_cons_of_mem x hy)
      rw [exactlyOne, h x List.mem_cons_self]
      simp only [bind, Except.bind]
      cases hx : g x with
      | false => simpa [hx] using hrest found
      | true =>
          cases found with
          | false => simpa [hx] using hrest true
          | true => simp [hx]

theorem filterM_eq_ok {f : α → Except ε Bool} {g : α → Bool} {xs : List α}
    (h : ∀ x ∈ xs, f x = .ok (g x)) : xs.filterM f = .ok (xs.filter g) := by
  have hscan : ∀ kept, xs.filterAuxM f kept = .ok ((xs.filter g).reverse ++ kept) := by
    induction xs with
    | nil => exact fun kept => rfl
    | cons x xs ih =>
        intro kept
        have hrest := ih fun y hy => h y (List.mem_cons_of_mem x hy)
        rw [List.filterAuxM, h x List.mem_cons_self]
        simp only [bind, Except.bind]
        cases hx : g x with
        | false => simpa [hx] using hrest kept
        | true => simpa [hx] using hrest (x :: kept)
  rw [List.filterM, hscan []]
  simp [bind, Except.bind, pure, Except.pure]

end Tests

namespace Model

/-- A model made of data and of models only, with the invariants of every form. -/
inductive Good : Model → Prop
  | unknown : Good .unknown
  | never : Good .never
  | null : Good .null
  | boolean : Good .boolean
  | number : Good .number
  | string : Good .string
  | literal {mark : Mark} {value : Value} (data : value.IsData) : Good (.literal mark value)
  | enum {mark : Mark} {values : List Value} (nonempty : values ≠ [])
      (data : ∀ value ∈ values, value.IsData)
      (distinct : values.Pairwise fun a b => a.jsonEqual b = false ∧ b.jsonEqual a = false) :
      Good (.enum mark values)
  | array {items : Model} (good : Good items) : Good (.array items)
  | object {properties : List (Key × Model)} {required : List Text} {additional : Bool}
      (good : ∀ entry ∈ properties, Good entry.2)
      (declared : ∀ name ∈ required, Entries.has properties (.str name) = true) :
      Good (.object properties required additional)
  | oneOf {mark : Mark} {branches : List Model} (nonempty : branches ≠ [])
      (good : ∀ branch ∈ branches, Good branch) : Good (.oneOf mark branches)
  | anyOf {branches : List Model} (nonempty : branches ≠ [])
      (good : ∀ branch ∈ branches, Good branch) : Good (.anyOf branches)
  | allOf {branches : List Model} (nonempty : branches ≠ [])
      (good : ∀ branch ∈ branches, Good branch) : Good (.allOf branches)

theorem Good.wrap {branches : List Model} (nonempty : branches ≠ [])
    (good : ∀ branch ∈ branches, Good branch) (mark : Mark) (combinator : Combinator) :
    Good (wrap mark combinator branches) := by
  cases combinator with
  | oneOf => exact .oneOf nonempty good
  | anyOf => exact .anyOf nonempty good
  | allOf => exact .allOf nonempty good

/-- The answer of `accepts` where nothing is too long to be put into words; to touch a stray part is
to refuse. -/
def permits (model : Model) (value : Value) : Bool :=
  match model.accepts value with
  | .ok answer => answer
  | .error _ => false

theorem permits_eq_of_accepts {model : Model} {value : Value} {answer : Bool}
    (h : model.accepts value = .ok answer) : model.permits value = answer := by
  rw [permits, h]

/-- What a model is called where nothing is too long for it. -/
def words (model : Model) : String :=
  match model.describe with
  | .ok words => words
  | .error _ => ""

theorem mapM_eq_ok {α β ε : Type} {f : α → Except ε β} {g : α → β} {xs : List α}
    (h : ∀ x ∈ xs, f x = .ok (g x)) : xs.mapM f = .ok (xs.map g) := by
  induction xs with
  | nil => rfl
  | cons x xs ih =>
      obtain ⟨hx, hxs⟩ := List.forall_mem_cons.mp h
      rw [List.mapM_cons, hx, ih hxs, List.map_cons]
      rfl

theorem ofWritten_write_eq {value : Value} (h : value.isJson = true) :
    Fault.ofWritten (Json.write value) = .ok (Json.lineText value) := by
  rw [Json.write, Value.refusal?_unlimited h]
  rfl

theorem describe_literal {value : Value} (h : value.IsData) (mark : Mark) :
    (literal mark value).describe = .ok (Json.lineText value) :=
  ofWritten_write_eq (Value.isData_iff.mp h).1

theorem describe_enum {values : List Value} (h : ∀ value ∈ values, value.IsData) (mark : Mark) :
    (enum mark values).describe =
      .ok ("one of " ++ commaSeparated (values.map Json.lineText)) := by
  have hwritten : ∀ value ∈ values,
      Fault.ofWritten (Json.write value) = .ok (Json.lineText value) :=
    fun value hmem => ofWritten_write_eq (Value.isData_iff.mp (h value hmem)).1
  rw [describe, mapM_eq_ok hwritten]
  rfl

theorem words_eq_of_describe {model : Model} {words : String} (h : model.describe = .ok words) :
    model.words = words := by
  rw [Model.words, h]

/-- A good model can be put into words. -/
theorem Good.describe_eq {model : Model} (h : Good model) : model.describe = .ok model.words := by
  suffices hwords : ∃ words, model.describe = .ok words by
    obtain ⟨words, hwords⟩ := hwords
    rw [words_eq_of_describe hwords, hwords]
  cases h with
  | literal data => exact ⟨_, describe_literal data _⟩
  | enum nonempty data distinct => exact ⟨_, describe_enum data _⟩
  | _ => exact ⟨_, rfl⟩

/-- Whether a field agrees with its declaration, or may do without one. -/
def permitsField (properties : List (Key × Model)) (additional : Bool) (field : Key × Value) :
    Bool :=
  match Entries.findLast? properties field.1 with
  | some property => property.permits field.2
  | none => additional

/-! ## Acceptance when the parts answer -/

/-- A model that answers for every value. -/
def Answers (model : Model) : Prop :=
  ∀ value, model.accepts value = .ok (model.permits value)

theorem accepts_array_eq {items : Model} (h : Answers items) (value : Value) :
    (array items).accepts value =
      .ok (match value.items? with
        | none => false
        | some elements => elements.all items.permits) := by
  rw [accepts, Datum.look_items?]
  cases value.items? with
  | none => rfl
  | some elements => exact allM_eq_ok fun element _ => h element

/-- An object answers once all of its properties do. -/
theorem accepts_object_eq {properties : List (Key × Model)}
    (h : ∀ entry ∈ properties, Answers entry.2) (required : List Text) (additional : Bool)
    (value : Value) :
    (object properties required additional).accepts value =
      .ok (match value.fields? with
        | none => false
        | some fields => (missing properties required fields).isEmpty &&
            fields.all (permitsField properties additional)) := by
  rw [accepts, Datum.look_fields?]
  cases value.fields? with
  | none => rfl
  | some fields =>
      cases hmissing : (missing properties required fields).isEmpty with
      | false => simp [hmissing]
      | true =>
          simp only [hmissing, if_true, Bool.true_and]
          refine allM_eq_ok fun field _ => ?_
          rw [permitsField]
          split
          · next property hfound =>
            obtain ⟨key, hmem⟩ := Entries.mem_of_findLast? hfound
            rw [h _ hmem, hfound]
          · next hnone => rw [hnone]

/-- The combinators search their branches in order and agree with their truth tables. -/
theorem accepts_wrap_eq {branches : List Model} (h : ∀ branch ∈ branches, Answers branch)
    (mark : Mark) (combinator : Combinator) (value : Value) :
    (wrap mark combinator branches).accepts value =
      .ok (combinator.holds (branches.map (·.permits value))) := by
  have hanswer : ∀ branch ∈ branches, branch.accepts value = .ok (branch.permits value) :=
    fun branch hmem => h branch hmem value
  cases combinator with
  | oneOf =>
      rw [wrap, accepts_oneOf, exactlyOne_eq_ok hanswer false, Combinator.holds, List.countP_map]
      rfl
  | anyOf =>
      rw [wrap, accepts_anyOf, anyM_eq_ok hanswer, Combinator.holds, List.any_map]
      rfl
  | allOf =>
      rw [wrap, accepts_allOf, allM_eq_ok hanswer, Combinator.holds, List.all_map]
      rfl

theorem Answers.of_accepts {model : Model} (answer : Value → Bool)
    (h : ∀ value, model.accepts value = .ok (answer value)) : Answers model := fun value => by
  rw [permits_eq_of_accepts (h value), h value]

theorem Good.answer_eq {model : Model} (h : Good model) (fine : Bool) :
    model.answer fine = .ok fine := by
  rw [answer, h.describe_eq]
  cases fine <;> rfl

/-- A good model answers for every value. -/
theorem Good.answers {model : Model} (h : Good model) : Answers model := by
  induction h with
  | unknown | never | null | boolean | number | string =>
      exact .of_accepts _ fun value => by rw [accepts]
  | literal data =>
      exact .of_accepts _ fun value => by rw [accepts, (Good.literal data).answer_eq]
  | enum nonempty data distinct =>
      exact .of_accepts _ fun value => by rw [accepts, (Good.enum nonempty data distinct).answer_eq]
  | array good ih => exact .of_accepts _ (accepts_array_eq ih)
  | object good declared ih => exact .of_accepts _ (accepts_object_eq ih _ _)
  | oneOf nonempty good ih => exact .of_accepts _ (accepts_wrap_eq ih _ .oneOf)
  | anyOf nonempty good ih => exact .of_accepts _ (accepts_wrap_eq ih default .anyOf)
  | allOf nonempty good ih => exact .of_accepts _ (accepts_wrap_eq ih default .allOf)

theorem Good.accepts_eq {model : Model} (h : Good model) (value : Value) :
    model.accepts value = .ok (model.permits value) :=
  h.answers value

/-! ## What each form permits -/

@[simp] theorem permits_unknown (value : Value) : permits .unknown value = true :=
  permits_eq_of_accepts (by rw [accepts])

@[simp] theorem permits_never (value : Value) : permits .never value = false :=
  permits_eq_of_accepts (by rw [accepts])

theorem permits_of_answer {model : Model} {value : Value} {fine : Bool}
    (h : model.accepts value = model.answer fine) : model.permits value = fine := by
  rw [permits, h, answer]
  cases fine with
  | true => rfl
  | false => cases model.describe <;> rfl

@[simp] theorem permits_literal (mark : Mark) (expected value : Value) :
    permits (.literal mark expected) value = value.jsonEqual expected :=
  permits_of_answer (by rw [accepts, Datum.equals_eq])

@[simp] theorem permits_enum (mark : Mark) (values : List Value) (value : Value) :
    permits (.enum mark values) value = values.any (value.jsonEqual ·) :=
  permits_of_answer (by rw [accepts, funext (Datum.equals_eq value)])

/-- The kind that a model without parts asks for. -/
def primitive? : Model → Option Kind
  | .null => some .null
  | .boolean => some .boolean
  | .number => some .number
  | .string => some .string
  | _ => none

theorem permits_of_primitive {model : Model} {kind : Kind} (h : model.primitive? = some kind)
    (value : Value) : model.permits value = decide (value.kind? = some kind) := by
  cases model <;> cases h <;> exact permits_eq_of_accepts (by rw [accepts, Datum.look_kind?])

theorem permits_array {items : Model} (h : Good items) (value : Value) :
    permits (.array items) value =
      match value.items? with
      | none => false
      | some elements => elements.all items.permits :=
  permits_eq_of_accepts (accepts_array_eq h.answers value)

theorem permits_array_iff {items : Model} (h : Good items) (value : Value) :
    permits (.array items) value = true ↔
      ∃ elements, value.items? = some elements ∧
        ∀ (i : Nat) (element : Value), elements[i]? = some element →
          items.permits element = true := by
  rw [permits_array h]
  cases value.items? with
  | none => simp
  | some elements =>
      simp only [List.all_eq_true, Option.some.injEq, exists_eq_left', List.mem_iff_getElem?]
      exact ⟨fun hall i element hi => hall element ⟨i, hi⟩,
        fun hall element ⟨i, hi⟩ => hall i element hi⟩

/-- A combination asks only what its branches permit. -/
theorem permits_wrap {branches : List Model} (h : ∀ branch ∈ branches, Good branch) (mark : Mark)
    (combinator : Combinator) (value : Value) :
    permits (wrap mark combinator branches) value =
      combinator.holds (branches.map (·.permits value)) :=
  permits_eq_of_accepts
    (accepts_wrap_eq (fun branch hmem => (h branch hmem).answers) mark combinator value)

theorem permits_allOf_iff {branches : List Model} (h : ∀ branch ∈ branches, Good branch)
    (value : Value) :
    permits (.allOf branches) value = true ↔ ∀ branch ∈ branches, branch.permits value = true := by
  have hwrap := permits_wrap h default .allOf value
  rw [wrap] at hwrap
  rw [hwrap, Combinator.holds, List.all_map, List.all_eq_true]
  rfl

/-- Every required name of a good object is declared, so going by the declarations overlooks none.
-/
theorem missing_isEmpty_iff {properties : List (Key × Model)} {required : List Text}
    (declared : ∀ name ∈ required, Entries.has properties (.str name) = true)
    (fields : List (Key × Value)) :
    (missing properties required fields).isEmpty = true ↔
      ∀ name ∈ required, Entries.has fields (.str name) = true := by
  rw [missing, List.isEmpty_iff, List.filter_eq_nil_iff]
  simp only [Bool.and_eq_true, List.any_eq_true, Key.same_str_iff, Bool.not_eq_true',
    not_and, Bool.not_eq_false]
  constructor
  · intro h name hname
    obtain ⟨entry, hmem, hclass⟩ := List.mem_map.mp (Entries.has_iff.mp (declared name hname))
    rw [Key.keyClass_str, Key.keyClass_eq_text_iff] at hclass
    exact h (.str name) (List.mem_map.mpr ⟨entry, hmem, hclass⟩) ⟨name, hname, rfl⟩
  · rintro h key - ⟨name, hname, rfl⟩
    exact h name hname

/-- An object model permits the objects that carry the required names and whose every field is
permitted, name by name. -/
theorem permits_object_iff {properties : List (Key × Model)} {required : List Text}
    {additional : Bool} (h : Good (.object properties required additional)) {value : Value}
    (hv : value.distinctKeys = true) :
    permits (.object properties required additional) value = true ↔
      ∃ fields, value.fields? = some fields ∧
        (∀ name ∈ required, Entries.has fields (.str name) = true) ∧
        ∀ name item, Entries.find? fields (.str name) = some item →
          permitsField properties additional (.str name, item) = true := by
  cases h with
  | object good declared =>
      rw [permits_eq_of_accepts (accepts_object_eq (fun entry hmem => (good entry hmem).answers)
        required additional value)]
      cases hfields : value.fields? with
      | none => simp
      | some fields =>
          have hdistinct := (Value.distinct_of_fields hv hfields).1
          simp only [Bool.and_eq_true, missing_isEmpty_iff declared, List.all_eq_true,
            Option.some.injEq, exists_eq_left']
          refine and_congr_right fun _ => ?_
          constructor
          · intro hall name item hfound
            exact hall _ ((Entries.mem_iff_find?_str hdistinct).mpr hfound)
          · intro hall entry hmem
            obtain ⟨key, item⟩ := entry
            obtain ⟨name, rfl⟩ :=
              Value.exists_str_of_textual (Value.textual_of_fields hfields) hmem
            exact hall name item (Entries.find?_eq_some_of_mem hdistinct hmem)

end Model

end SchemaModel
