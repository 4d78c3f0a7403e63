import SchemaModel.Proofs.Model.Check
import SchemaModel.Proofs.Value.Agreement
import SchemaModel.Value.Linked

/-!
# How deep a model looks

A model looks into a value as deep as it describes it: one level for each array and object inside
one another, and below that as deep as the values that it lists.  Data that agree to this level go
through a check step by step in the same way, on every platform.  A datum that goes on for ever is
therefore validated like its beginning, which is a finite value.
-/

namespace SchemaModel

namespace Model

/-- The greatest height among values. -/
def heightOfValues : List Value → Nat
  | [] => 0
  | value :: values => max value.height (heightOfValues values)

mutual

/-- How many levels of a value a model describes. -/
def sight : Model → Nat
  | .literal _ value => value.height
  | .enum _ values => heightOfValues values
  | .array items => sight items + 1
  | .object properties _ _ => sightOfProperties properties + 1
  | .oneOf _ branches => sightOfBranches branches
  | .anyOf branches => sightOfBranches branches
  | .allOf branches => sightOfBranches branches
  | _ => 0

/-- The most levels that a branch describes. -/
def sightOfBranches : List Model → Nat
  | [] => 0
  | branch :: branches => max (sight branch) (sightOfBranches branches)

/-- The most levels that the model of a property describes. -/
def sightOfProperties : List (Key × Model) → Nat
  | [] => 0
  | (_, model) :: properties => max (sight model) (sightOfProperties properties)

end

theorem heightOfValues_le {values : List Value} {n : Nat} :
    heightOfValues values ≤ n ↔ ∀ value ∈ values, value.height ≤ n := by
  induction values with
  | nil => simp [heightOfValues]
  | cons value values ih => rw [heightOfValues, Nat.max_le, ih, List.forall_mem_cons]

theorem sightOfBranches_le {branches : List Model} {n : Nat} :
    sightOfBranches branches ≤ n ↔ ∀ branch ∈ branches, sight branch ≤ n := by
  induction branches with
  | nil => simp [sightOfBranches]
  | cons branch branches ih => rw [sightOfBranches, Nat.max_le, ih, List.forall_mem_cons]

theorem sightOfProperties_le {properties : List (Key × Model)} {n : Nat} :
    sightOfProperties properties ≤ n ↔ ∀ entry ∈ properties, sight entry.2 ≤ n := by
  induction properties with
  | nil => simp [sightOfProperties]
  | cons entry properties ih => rw [sightOfProperties, Nat.max_le, ih, List.forall_mem_cons]

/-! ## The same steps -/

section Steps

variable {α β ε : Type}

theorem allM_congr {test : α → Except ε Bool} {test' : β → Except ε Bool} {xs : List α}
    {ys : List β} (h : List.Forall₂ (fun x y => test x = test' y) xs ys) :
    xs.allM test = ys.allM test' := by
  induction h with
  | nil => rfl
  | cons hxy _ ih => rw [List.allM, List.allM, hxy, ih]

theorem checkEach_congr {halting : Bool} {step : α → Trail → Except ε Verdict}
    {step' : β → Trail → Except ε Verdict} {xs : List α} {ys : List β}
    (h : List.Forall₂ (fun x y => step x = step' y) xs ys) (accepted : Bool) (trail : Trail) :
    checkEach halting step accepted xs trail = checkEach halting step' accepted ys trail := by
  induction h generalizing accepted trail with
  | nil => rfl
  | cons hxy _ ih => simp only [checkEach, hxy, ih]

theorem anyM_congr {test test' : α → Except ε Bool} {xs : List α}
    (h : ∀ x ∈ xs, test x = test' x) : xs.anyM test = xs.anyM test' := by
  induction xs with
  | nil => rfl
  | cons x xs ih =>
      obtain ⟨hx, hxs⟩ := List.forall_mem_cons.mp h
      rw [List.anyM, List.anyM, hx, ih hxs]

theorem exactlyOne_congr {test test' : α → Except ε Bool} {xs : List α}
    (h : ∀ x ∈ xs, test x = test' x) (found : Bool) :
    exactlyOne test found xs = exactlyOne test' found xs := by
  induction xs generalizing found with
  | nil => rfl
  | cons x xs ih =>
      obtain ⟨hx, hxs⟩ := List.forall_mem_cons.mp h
      simp only [exactlyOne, hx, ih hxs]

theorem countOk_congr {test test' : α → Except ε Bool} {xs : List α}
    (h : ∀ x ∈ xs, test x = test' x) : countOk test xs = countOk test' xs := by
  induction xs with
  | nil => rfl
  | cons x xs ih =>
      obtain ⟨hx, hxs⟩ := List.forall_mem_cons.mp h
      rw [countOk, countOk, hx, ih hxs]

end Steps

open Datum (AgreeTo look)

theorem missing_eq_of_entriesInStep {α β : Type} {below : α → β → Prop} {as : List (Key × α)}
    {bs : List (Key × β)} (h : Value.EntriesInStep below as bs) (properties : List (Key × Model))
    (required : List Text) :
    missing properties required as = missing properties required bs := by
  have hhas : ∀ key, Entries.has as key = Entries.has bs key := by
    intro key
    rw [Entries.has, Entries.has]
    induction h with
    | nil => rfl
    | cons hxy _ ih => rw [List.any_cons, List.any_cons, hxy.1, ih]
  simp only [missing, hhas]

section Agreement

variable {α β : Type} [Datum α] [Datum β]

theorem any_equals_eq {values : List Value} (data : ∀ value ∈ values, value.IsData) {a : α} {b : β}
    (h : AgreeTo (heightOfValues values) a b) :
    values.any (Datum.equals a) = values.any (Datum.equals b) := by
  rw [Bool.eq_iff_iff, List.any_eq_true, List.any_eq_true]
  refine exists_congr fun value => and_congr_right fun hmem => ?_
  have hbelow := h.mono (heightOfValues_le.mp (Nat.le_refl _) value hmem)
  rw [Datum.equals_eq_of_agreeTo (data value hmem) hbelow]

theorem wrongKind_eq {below : α → β → Prop} (kind : Kind) {a : α} {b : β}
    (h : (look a).Beside below (look b)) : wrongKind kind a = wrongKind kind b := by
  rw [wrongKind, wrongKind, h.label_eq]

theorem checkKind_eq {below : α → β → Prop} (kind : Kind) {a : α} {b : β}
    (h : (look a).Beside below (look b)) (path : ValuePath) (trail : Trail) :
    checkKind kind a path trail = checkKind kind b path trail := by
  rw [checkKind, checkKind, h.kind?_eq, wrongKind_eq kind h]

variable [Platform] {a : α} {b : β}

/-! ## Acceptance -/

theorem accepts_array_eq_of_agreeTo {items : Model}
    (ih : ∀ {a : α} {b : β}, AgreeTo items.sight a b → items.accepts a = items.accepts b)
    (h : AgreeTo (sight (.array items)) a b) :
    (array items).accepts a = (array items).accepts b := by
  rw [sight] at h
  rw [accepts, accepts]
  rcases optionRel_cases h.beside.items?_rel with ⟨ha, hb⟩ | ⟨as, bs, ha, hb, hparts⟩
  · rw [ha, hb]
  · rw [ha, hb]
    exact allM_congr (hparts.imp fun x y hxy => ih (hxy _ (Nat.lt_succ_self _)))

/-- An object looks at its fields, and through its properties one level less deep. -/
theorem accepts_object_eq_of_agreeTo {properties : List (Key × Model)}
    (ih : ∀ entry ∈ properties, ∀ {a : α} {b : β}, AgreeTo entry.2.sight a b →
      entry.2.accepts a = entry.2.accepts b) (required : List Text) (additional : Bool)
    (h : AgreeTo (sight (.object properties required additional)) a b) :
    (object properties required additional).accepts a =
      (object properties required additional).accepts b := by
  rw [sight] at h
  rw [accepts, accepts]
  rcases optionRel_cases h.beside.fields?_rel with ⟨ha, hb⟩ | ⟨as, bs, ha, hb, hparts⟩
  · rw [ha, hb]
  · rw [ha, hb]
    simp only [missing_eq_of_entriesInStep hparts]
    split
    · refine allM_congr (hparts.imp ?_)
      rintro ⟨key, x⟩ ⟨_, y⟩ ⟨rfl, hxy⟩
      simp only
      split
      · next property hfound =>
        obtain ⟨other, hmem⟩ := Entries.mem_of_findLast? hfound
        have hle := sightOfProperties_le.mp (Nat.le_refl _) _ hmem
        exact ih _ hmem (hxy _ (Nat.lt_succ_of_le hle))
      · rfl
    · rfl

/-- Data that agree to the level to which a good model looks get the same answer from it. -/
theorem accepts_eq_of_agreeTo {model : Model} (h : Good model) (hagree : AgreeTo model.sight a b) :
    model.accepts a = model.accepts b := by
  induction h generalizing a b with
  | unknown | never => rw [accepts, accepts]
  | null | boolean | number | string => rw [accepts, accepts, hagree.beside.kind?_eq]
  | literal data =>
      rw [sight] at hagree
      rw [accepts, accepts, Datum.equals_eq_of_agreeTo data hagree]
  | enum nonempty data distinct =>
      rw [sight] at hagree
      rw [accepts, accepts, any_equals_eq data hagree]
  | array good ih => exact accepts_array_eq_of_agreeTo ih hagree
  | object good declared ih => exact accepts_object_eq_of_agreeTo ih _ _ hagree
  | @oneOf mark branches nonempty good ih =>
      rw [sight] at hagree
      rw [accepts_oneOf, accepts_oneOf]
      exact exactlyOne_congr (fun branch hmem =>
        ih branch hmem (hagree.mono (sightOfBranches_le.mp (Nat.le_refl _) branch hmem))) false
  | @anyOf branches nonempty good ih =>
      rw [sight] at hagree
      rw [accepts_anyOf, accepts_anyOf]
      exact anyM_congr fun branch hmem =>
        ih branch hmem (hagree.mono (sightOfBranches_le.mp (Nat.le_refl _) branch hmem))
  | @allOf branches nonempty good ih =>
      rw [sight] at hagree
      rw [accepts_allOf, accepts_allOf]
      exact allM_congr (List.forall₂_same.mpr fun branch hmem =>
        ih branch hmem (hagree.mono (sightOfBranches_le.mp (Nat.le_refl _) branch hmem)))

theorem accepts_branch_eq {branches : List Model} (good : ∀ branch ∈ branches, Good branch)
    (hagree : AgreeTo (sightOfBranches branches) a b) :
    ∀ branch ∈ branches, branch.accepts a = branch.accepts b := fun branch hmem =>
  accepts_eq_of_agreeTo (good branch hmem)
    (hagree.mono (sightOfBranches_le.mp (Nat.le_refl _) branch hmem))

/-! ## Traced checks -/

section Checks

variable (halting : Bool) (path : ValuePath) (trail : Trail)

theorem check_array_eq_of_agreeTo {items : Model}
    (ih : ∀ {a : α} {b : β} (path trail), AgreeTo items.sight a b →
      items.check halting a path trail = items.check halting b path trail)
    (h : AgreeTo (sight (.array items)) a b) :
    (array items).check halting a path trail = (array items).check halting b path trail := by
  rw [sight] at h
  rw [check, check, wrongKind_eq _ h.beside]
  rcases optionRel_cases h.beside.items?_rel with ⟨ha, hb⟩ | ⟨as, bs, ha, hb, hparts⟩
  · rw [ha, hb]
  · rw [ha, hb]
    refine checkEach_congr ?_ true trail
    refine (forall₂_zipIdx hparts (fun _ _ => trivial) 0).imp ?_
    rintro ⟨x, i⟩ ⟨y, j⟩ ⟨-, hxy, rfl⟩
    exact funext fun trail => ih _ trail (hxy _ (Nat.lt_succ_self _))

theorem check_object_eq_of_agreeTo {properties : List (Key × Model)}
    (ih : ∀ entry ∈ properties, ∀ {a : α} {b : β} (path trail), AgreeTo entry.2.sight a b →
      entry.2.check halting a path trail = entry.2.check halting b path trail)
    (required : List Text) (additional : Bool)
    (h : AgreeTo (sight (.object properties required additional)) a b) :
    (object properties required additional).check halting a path trail =
      (object properties required additional).check halting b path trail := by
  rw [sight] at h
  rw [check, check, wrongKind_eq _ h.beside]
  rcases optionRel_cases h.beside.fields?_rel with ⟨ha, hb⟩ | ⟨as, bs, ha, hb, hparts⟩
  · rw [ha, hb]
  · rw [ha, hb]
    simp only [missing_eq_of_entriesInStep hparts]
    congr 1
    funext verdict
    split
    · rfl
    · refine checkEach_congr (hparts.imp ?_) _ _
      rintro ⟨key, x⟩ ⟨_, y⟩ ⟨rfl, hxy⟩
      funext trail
      simp only
      split
      · next property hfound =>
        obtain ⟨other, hmem⟩ := Entries.mem_of_findLast? hfound
        have hle := sightOfProperties_le.mp (Nat.le_refl _) _ hmem
        exact ih _ hmem _ trail (hxy _ (Nat.lt_succ_of_le hle))
      · rfl

/-- Data that agree to the level to which a good model looks leave the same trail. -/
theorem check_eq_of_agreeTo {model : Model} (h : Good model) (hagree : AgreeTo model.sight a b) :
    model.check halting a path trail = model.check halting b path trail := by
  induction h generalizing a b path trail with
  | unknown | never => rw [check, check]
  | null | boolean | number | string => rw [check, check, checkKind_eq _ hagree.beside]
  | literal data =>
      rw [sight] at hagree
      rw [check, check, Datum.equals_eq_of_agreeTo data hagree]
  | enum nonempty data distinct =>
      rw [sight] at hagree
      rw [check, check, any_equals_eq data hagree]
  | array good ih => exact check_array_eq_of_agreeTo halting path trail ih hagree
  | object good declared ih => exact check_object_eq_of_agreeTo halting path trail ih _ _ hagree
  | oneOf nonempty good ih =>
      rw [sight] at hagree
      rw [check, check, countOk_congr (accepts_branch_eq good hagree)]
  | anyOf nonempty good ih =>
      rw [sight] at hagree
      rw [check, check, anyM_congr (accepts_branch_eq good hagree)]
  | @allOf branches nonempty good ih =>
      rw [sight] at hagree
      rw [check, check]
      refine checkEach_congr (List.forall₂_same.mpr fun branch _ => ?_) true trail
      exact funext fun trail => ih branch.1 branch.2 path trail
        (hagree.mono (sightOfBranches_le.mp (Nat.le_refl _) branch.1 branch.2))

end Checks

/-- Validation looks no deeper into data than the model describes them: data that agree to the level
to which the model looks have one outcome, with the same verdict and the same issues, and one
answer.  So it is for data of any kind, also for those that go on for ever, which have an outcome
unless a value of the model is too long to be put into words. -/
theorem validate_looks_no_deeper {model : Model} (h : Good model)
    (hagree : AgreeTo model.sight a b) (settings : ValidatorSettings) :
    model.validate a settings = model.validate b settings ∧ model.accepts a = model.accepts b ∧
      ∃ result, Delivers model.Writable (model.validate a settings) result ∧
        Delivers model.Writable (model.accepts a) result.accepted := by
  have houtcome : ∀ {γ : Type} [Datum γ] {c : γ}, AgreeTo model.sight a c →
      model.validate a settings = model.validate c settings := fun h' => by
    rw [validate, validate, check_eq_of_agreeTo _ _ _ h h']
  have hbeginning := Datum.agreeTo_beginning model.sight a
  refine ⟨houtcome hagree, accepts_eq_of_agreeTo h hagree, ?_⟩
  rw [houtcome hbeginning, accepts_eq_of_agreeTo h hbeginning]
  exact ⟨_, delivers_validate h _ settings, delivers_accepts h _⟩

end Agreement

attribute [local instance] Platform.standard in
/-- A list that holds itself, beside a finite one that looks alike as far as the model sees. -/
theorem validate_looks_no_deeper_into_cycle :
    AgreeTo (sight (.array (.array .number))) (⟨[.list [0]], 0⟩ : Linked)
        (Value.list [.list [.list [.null]]]) ∧
      ∃ result,
        validate (.array (.array .number)) (⟨[.list [0]], 0⟩ : Linked) = .ok result ∧
          validate (.array (.array .number)) (Value.list [.list [.list [.null]]]) = .ok result := by
  have hagree : AgreeTo (sight (.array (.array .number))) (⟨[.list [0]], 0⟩ : Linked)
      (Value.list [.list [.list [.null]]]) :=
    .list (.cons (.list (.cons (.list (.cons trivial .nil)) .nil)) .nil)
  obtain ⟨hvalidate, -, result, hresult, -⟩ :=
    validate_looks_no_deeper (Good.array (.array .number)) hagree {}
  have hrun := hresult.eq_of_writable (by decide)
  exact ⟨hagree, result, hrun, hvalidate ▸ hrun⟩

end Model

end SchemaModel
