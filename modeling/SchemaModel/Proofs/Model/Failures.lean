import SchemaModel.Model.Check
import SchemaModel.Proofs.Model.Good

/-!
# The failures of a value

What a check writes depends on the model and the value alone.  `Model.failures` lists every failure
of a value in the order in which a check meets them, with no trail and no limit.  A check of a good
model accepts exactly when this list is empty, and it records the whole list or, when it halts at
the first rejection, only its first member; the trail takes as many as it has room for.
-/

namespace SchemaModel

attribute [local instance] Platform.unlimited

namespace Trail

/-- The trail after a list of issues, of which it takes the first ones that fit. -/
def record (trail : Trail) (found : List ValueIssue) : Trail :=
  { trail with issues := trail.issues ++ found.take (trail.limit - trail.issues.length) }

@[simp] theorem record_nil (trail : Trail) : trail.record [] = trail := by
  simp [record]

theorem record_append (trail : Trail) (found later : List ValueIssue) :
    trail.record (found ++ later) = (trail.record found).record later := by
  have hroom : trail.limit - trail.issues.length - found.length =
      trail.limit - (trail.issues ++ found.take (trail.limit - trail.issues.length)).length := by
    rw [List.length_append, List.length_take]
    omega
  simp only [record, List.take_append, hroom, List.append_assoc]

theorem add_eq_record (trail : Trail) (path : ValuePath) (reason : String) :
    trail.add path reason = trail.record [⟨path.text, reason⟩] := by
  rw [add, record]
  split
  · next hroom =>
    have hone : 1 ≤ trail.limit - trail.issues.length := by omega
    rw [List.take_of_length_le hone]
  · next hfull =>
    have hzero : trail.limit - trail.issues.length = 0 := by omega
    rw [hzero, List.take_zero, List.append_nil]

end Trail

namespace Model

/-- The failure of a single test. -/
def failsUnless (test : Bool) (path : ValuePath) (reason : String) : List ValueIssue :=
  if test then [] else [⟨path.text, reason⟩]

/-- Every failure of a value at a path, in the order in which a check meets them. -/
def failures (model : Model) (value : Value) (path : ValuePath) : List ValueIssue :=
  match model with
  | .unknown => []
  | .never => failsUnless false path "no value is permitted here"
  | .null => failsUnless (value.kind? = some .null) path (wrongKind .null value)
  | .boolean => failsUnless (value.kind? = some .boolean) path (wrongKind .boolean value)
  | .number => failsUnless (value.kind? = some .number) path (wrongKind .number value)
  | .string => failsUnless (value.kind? = some .string) path (wrongKind .string value)
  | .literal mark expected =>
    failsUnless (value.jsonEqual expected) path ("expected " ++ (literal mark expected).words)
  | .enum mark values =>
    failsUnless (values.any (value.jsonEqual ·)) path ("expected " ++ (enum mark values).words)
  | .array items =>
    match value.items? with
    | none => failsUnless false path (wrongKind .array value)
    | some elements =>
      elements.zipIdx.flatMap fun (element, index) =>
        items.failures element (path.child (.int index))
  | .object properties required additional =>
    match value.fields? with
    | none => failsUnless false path (wrongKind .object value)
    | some fields =>
      ((missing properties required fields).flatMap fun name =>
        failsUnless false (path.child name) "missing required property") ++
      fields.flatMap fun field =>
        match _h : Entries.findLast? properties field.1 with
        | some property => property.failures field.2 (path.child field.1)
        | none => failsUnless additional (path.child field.1) "additional property is not allowed"
  | .oneOf _ branches =>
    let matched := branches.countP (·.permits value)
    failsUnless (matched = 1) path
      (if matched = 0 then noBranch branches "oneOf" else severalBranches branches matched)
  | .anyOf branches =>
    failsUnless (branches.any (·.permits value)) path (noBranch branches "anyOf")
  | .allOf branches => branches.attach.flatMap fun ⟨branch, _⟩ => branch.failures value path
  | .stray _ => []
termination_by sizeOf model
decreasing_by
  · simp_wf
  · have smaller := sizeOf_findLast?_lt _h
    simp_wf
    omega
  · have smaller := List.sizeOf_lt_of_mem ‹_ ∈ _›
    simp_wf
    omega

/-- The failures of a field against its declaration, or for lack of one. -/
def fieldFailures (properties : List (Key × Model)) (additional : Bool) (path : ValuePath)
    (field : Key × Value) : List ValueIssue :=
  match Entries.findLast? properties field.1 with
  | some property => property.failures field.2 (path.child field.1)
  | none => failsUnless additional (path.child field.1) "additional property is not allowed"

/-- What is missing comes first, in the order of the declarations; then the fields in their own
order. -/
theorem failures_object (properties : List (Key × Model)) (required : List Text)
    (additional : Bool) (value : Value) (path : ValuePath) :
    (object properties required additional).failures value path =
      match value.fields? with
      | none => failsUnless false path (wrongKind .object value)
      | some fields =>
        ((missing properties required fields).flatMap fun name =>
          failsUnless false (path.child name) "missing required property") ++
        fields.flatMap (fieldFailures properties additional path) := by
  rw [failures]
  cases value.fields? with
  | none => rfl
  | some fields =>
      simp only
      congr 2
      funext field
      rw [fieldFailures]
      split
      · next hfound => rw [hfound]
      · next hnone => rw [hnone]

theorem failures_allOf (branches : List Model) (value : Value) (path : ValuePath) :
    (allOf branches).failures value path = branches.flatMap (·.failures value path) := by
  rw [failures, List.flatMap_subtype (g := fun branch => branch.failures value path)
    fun _ _ => rfl, List.unattach_attach]

/-! ## No failure means acceptance -/

theorem isEmpty_failsUnless (test : Bool) (path : ValuePath) (reason : String) :
    (failsUnless test path reason).isEmpty = test := by
  cases test <;> rfl

theorem isEmpty_append {α : Type} (xs ys : List α) :
    (xs ++ ys).isEmpty = (xs.isEmpty && ys.isEmpty) := by
  cases xs <;> rfl

theorem isEmpty_flatMap {α β : Type} (f : α → List β) (xs : List α) :
    (xs.flatMap f).isEmpty = xs.all fun x => (f x).isEmpty := by
  rw [Bool.eq_iff_iff]
  simp

theorem isEmpty_failures_array {items : Model} (good : Good items)
    (ih : ∀ element path, (items.failures element path).isEmpty = items.permits element)
    (value : Value) (path : ValuePath) :
    ((array items).failures value path).isEmpty = (array items).permits value := by
  rw [permits_array good, failures]
  cases value.items? with
  | none => rfl
  | some elements =>
      have hall := congrArg (List.all · items.permits) (List.zipIdx_map_fst 0 elements)
      rw [List.all_map] at hall
      simp only [isEmpty_flatMap, ih]
      exact hall

theorem isEmpty_fieldFailures {properties : List (Key × Model)}
    (ih : ∀ entry ∈ properties, ∀ item path,
      (entry.2.failures item path).isEmpty = entry.2.permits item)
    (additional : Bool) (path : ValuePath) (field : Key × Value) :
    (fieldFailures properties additional path field).isEmpty =
      permitsField properties additional field := by
  rw [fieldFailures, permitsField]
  cases hfound : Entries.findLast? properties field.1 with
  | none => exact isEmpty_failsUnless ..
  | some property =>
      obtain ⟨key, hmem⟩ := Entries.mem_of_findLast? hfound
      exact ih _ hmem field.2 _

/-- An object has no failures exactly if nothing is missing and every field is permitted. -/
theorem isEmpty_failures_object {properties : List (Key × Model)}
    (good : ∀ entry ∈ properties, Good entry.2)
    (ih : ∀ entry ∈ properties, ∀ item path,
      (entry.2.failures item path).isEmpty = entry.2.permits item)
    (required : List Text) (additional : Bool) (value : Value) (path : ValuePath) :
    ((object properties required additional).failures value path).isEmpty =
      (object properties required additional).permits value := by
  rw [permits_eq_of_accepts
    (accepts_object_eq (fun entry hmem => (good entry hmem).answers) required additional value),
    failures_object]
  cases value.fields? with
  | none => rfl
  | some fields =>
      have hmissing : ((missing properties required fields).flatMap fun name =>
          failsUnless false (path.child name) "missing required property").isEmpty =
            (missing properties required fields).isEmpty := by
        cases missing properties required fields <;> rfl
      simp only [isEmpty_append, hmissing, isEmpty_flatMap, isEmpty_fieldFailures ih]

/-- A value has no failures exactly when it is permitted. -/
theorem isEmpty_failures {model : Model} (h : Good model) (value : Value) (path : ValuePath) :
    (model.failures value path).isEmpty = model.permits value := by
  induction h generalizing value path with
  | unknown => rw [failures, permits_unknown, List.isEmpty_nil]
  | never => rw [failures, permits_never, isEmpty_failsUnless]
  | null | boolean | number | string =>
      rw [failures, isEmpty_failsUnless, permits_of_primitive rfl]
  | literal data => rw [failures, isEmpty_failsUnless, permits_literal]
  | enum nonempty data distinct =>
      rw [failures, isEmpty_failsUnless, permits_enum]
  | array good ih => exact isEmpty_failures_array good ih value path
  | object good declared ih => exact isEmpty_failures_object good ih _ _ value path
  | @oneOf mark branches nonempty good ih =>
      have hpermits := permits_wrap good mark .oneOf value
      rw [wrap, Combinator.holds, List.countP_map] at hpermits
      rw [failures, isEmpty_failsUnless, hpermits]
      rfl
  | @anyOf branches nonempty good ih =>
      have hpermits := permits_wrap good default .anyOf value
      rw [wrap, Combinator.holds, List.any_map] at hpermits
      rw [failures, isEmpty_failsUnless, hpermits]
      rfl
  | @allOf branches nonempty good ih =>
      rw [failures_allOf, isEmpty_flatMap, Bool.eq_iff_iff, permits_allOf_iff good,
        List.all_eq_true]
      exact forall₂_congr fun branch hmem => by rw [ih branch hmem]

/-! ## Checks record the failures -/

/-- The failures that a check records: the first one when it halts there. -/
def recorded (halting : Bool) (found : List ValueIssue) : List ValueIssue :=
  if halting then found.take 1 else found

/-- A check accepts when nothing is found and otherwise records what is found. -/
def Records (halting : Bool) (run : Trail → Except Fault Verdict) (found : List ValueIssue) :
    Prop :=
  ∀ trail, run trail = .ok (found.isEmpty, trail.record (recorded halting found))

theorem recorded_nil (halting : Bool) : recorded halting [] = [] := by
  cases halting <;> rfl

theorem records_failsUnless (halting test : Bool) (path : ValuePath) (reason : String) :
    Records halting
      (fun trail => if test = true then .ok (true, trail) else .ok (trail.reject path reason))
      (failsUnless test path reason) := by
  intro trail
  have hone : ∀ issue : ValueIssue, recorded halting [issue] = [issue] := by
    intro issue
    cases halting <;> rfl
  cases test with
  | true => simp [failsUnless, recorded_nil]
  | false => simp [failsUnless, hone, Trail.reject, Trail.add_eq_record]

section Loops

variable {α : Type} {halting : Bool} {step : α → Trail → Except Fault Verdict}
  {found : α → List ValueIssue} {xs : List α}

/-- Checks in a row, after a verdict so far, record what they find together. -/
theorem checkEach_eq (h : ∀ x ∈ xs, Records halting (step x) (found x)) (accepted : Bool)
    (trail : Trail) :
    checkEach halting step accepted xs trail =
      .ok (accepted && (xs.flatMap found).isEmpty,
        trail.record (recorded halting (xs.flatMap found))) := by
  induction xs generalizing accepted trail with
  | nil => simp [checkEach, recorded_nil]
  | cons x xs ih =>
      obtain ⟨hx, hxs⟩ := List.forall_mem_cons.mp h
      rw [checkEach, hx trail, List.flatMap_cons]
      cases hfirst : found x with
      | nil => simpa [bind, Except.bind, recorded_nil] using ih hxs accepted trail
      | cons issue issues =>
          cases halting with
          | true => simp [bind, Except.bind, recorded]
          | false =>
              have hrest := ih hxs false (trail.record (issue :: issues))
              simpa [bind, Except.bind, recorded, ← Trail.record_append] using hrest

theorem records_checkEach (h : ∀ x ∈ xs, Records halting (step x) (found x)) :
    Records halting (checkEach halting step true xs) (xs.flatMap found) := by
  intro trail
  rw [checkEach_eq h, Bool.true_and]

/-- Two rows of checks, the second skipped by a halting check that the first has rejected. -/
theorem records_checkEach_then {β : Type} {step' : β → Trail → Except Fault Verdict}
    {found' : β → List ValueIssue} {ys : List β}
    (h : ∀ x ∈ xs, Records halting (step x) (found x))
    (h' : ∀ y ∈ ys, Records halting (step' y) (found' y)) :
    Records halting (fun trail => do
      let (complete, trail) ← checkEach halting step true xs trail
      if halting && !complete then .ok (false, trail)
      else checkEach halting step' complete ys trail)
      (xs.flatMap found ++ ys.flatMap found') := by
  intro trail
  simp only [checkEach_eq h, bind, Except.bind, Bool.true_and]
  cases hfirst : xs.flatMap found with
  | nil => simp [recorded_nil, checkEach_eq h']
  | cons issue issues =>
      cases halting with
      | true => simp [recorded]
      | false => simp [recorded, checkEach_eq h', ← Trail.record_append]

end Loops

theorem countOk_eq_ok {α ε : Type} {f : α → Except ε Bool} {g : α → Bool} {xs : List α}
    (h : ∀ x ∈ xs, f x = .ok (g x)) : countOk f xs = .ok (xs.countP g) := by
  induction xs with
  | nil => rfl
  | cons x xs ih =>
      obtain ⟨hx, hxs⟩ := List.forall_mem_cons.mp h
      rw [countOk, hx, ih hxs, List.countP_cons]
      simp only [bind, Except.bind]
      split <;> rfl

section Forms

variable (halting : Bool) (value : Value) (path : ValuePath)

theorem records_checkKind (kind : Kind) :
    Records halting (fun trail => .ok (checkKind kind value path trail))
      (failsUnless (value.kind? = some kind) path (wrongKind kind value)) := by
  intro trail
  rw [← records_failsUnless halting _ path _ trail]
  simp only [checkKind, Datum.look_kind?, decide_eq_true_eq]
  split <;> rfl

/-- A good model that a value fails is put into words. -/
theorem records_checkTest {model : Model} (h : Good model) (halting fine : Bool)
    (path : ValuePath) :
    Records halting (checkTest model fine path)
      (failsUnless fine path ("expected " ++ model.words)) := by
  intro trail
  rw [checkTest, h.describe_eq, ← records_failsUnless halting fine path _ trail]
  rfl

/-- The elements are checked in order, each at its index. -/
theorem records_check_array {items : Model}
    (ih : ∀ element path,
      Records halting (items.check halting element path) (items.failures element path)) :
    Records halting ((array items).check halting value path)
      ((array items).failures value path) := by
  intro trail
  rw [check, failures, Datum.look_items?]
  cases value.items? with
  | none => exact records_failsUnless halting false path _ trail
  | some elements =>
      exact records_checkEach
        (fun x (_ : x ∈ elements.zipIdx) => ih x.1 (path.child (.int x.2))) trail

/-- What is missing and what fails in the fields is traced in one order, up to the first failure if
the check halts. -/
theorem records_check_object {properties : List (Key × Model)} (required : List Text)
    (additional : Bool)
    (ih : ∀ entry ∈ properties, ∀ item path,
      Records halting (entry.2.check halting item path) (entry.2.failures item path)) :
    Records halting ((object properties required additional).check halting value path)
      ((object properties required additional).failures value path) := by
  intro trail
  rw [check, failures_object, Datum.look_fields?]
  cases value.fields? with
  | none => exact records_failsUnless halting false path _ trail
  | some fields =>
      refine records_checkEach_then
        (fun name (_ : name ∈ missing properties required fields) =>
          records_failsUnless halting false (path.child name) "missing required property")
        (fun field (_ : field ∈ fields) => ?_) trail
      intro trail
      rw [fieldFailures]
      split
      · next property hfound =>
        obtain ⟨key, hmem⟩ := Entries.mem_of_findLast? hfound
        rw [hfound]
        exact ih _ hmem field.2 _ trail
      · next hnone =>
        rw [hnone]
        exact records_failsUnless halting additional _ _ trail

theorem records_check_oneOf {branches : List Model} (good : ∀ branch ∈ branches, Good branch)
    (mark : Mark) :
    Records halting ((oneOf mark branches).check halting value path)
      ((oneOf mark branches).failures value path) := by
  intro trail
  have hcount : countOk (·.accepts value) branches = .ok (branches.countP (·.permits value)) :=
    countOk_eq_ok fun branch hmem => (good branch hmem).accepts_eq value
  rw [check, hcount, failures, ← records_failsUnless halting _ path _ trail]
  simp only [bind, Except.bind, decide_eq_true_eq]
  split
  · rfl
  · split <;> rfl

theorem records_check_anyOf {branches : List Model} (good : ∀ branch ∈ branches, Good branch) :
    Records halting ((anyOf branches).check halting value path)
      ((anyOf branches).failures value path) := by
  intro trail
  have hany : branches.anyM (·.accepts value) = .ok (branches.any (·.permits value)) :=
    anyM_eq_ok fun branch hmem => (good branch hmem).accepts_eq value
  rw [check, hany, failures, ← records_failsUnless halting _ path _ trail]
  rfl

theorem records_check_allOf {branches : List Model}
    (ih : ∀ branch ∈ branches, ∀ value path,
      Records halting (branch.check halting value path) (branch.failures value path)) :
    Records halting ((allOf branches).check halting value path)
      ((allOf branches).failures value path) := by
  intro trail
  rw [check, failures]
  exact records_checkEach (fun x (_ : x ∈ branches.attach) => ih x.1 x.2 value path) trail

end Forms

/-- A check of a good model records the failures of the value. -/
theorem records_check {model : Model} (h : Good model) (halting : Bool) (value : Value)
    (path : ValuePath) :
    Records halting (model.check halting value path) (model.failures value path) := by
  induction h generalizing value path with
  | unknown =>
      intro trail
      rw [check, failures, recorded_nil, Trail.record_nil, List.isEmpty_nil]
  | never =>
      intro trail
      rw [check, failures]
      exact records_failsUnless halting false path _ trail
  | null | boolean | number | string =>
      intro trail
      rw [check, failures]
      exact records_checkKind halting value path _ trail
  | literal data =>
      intro trail
      rw [check, failures, Datum.equals_eq]
      exact records_checkTest (.literal data) halting _ path trail
  | enum nonempty data distinct =>
      intro trail
      rw [check, failures, funext (Datum.equals_eq value)]
      exact records_checkTest (.enum nonempty data distinct) halting _ path trail
  | array good ih => exact records_check_array halting value path ih
  | object good declared ih => exact records_check_object halting value path _ _ ih
  | oneOf nonempty good ih => exact records_check_oneOf halting value path good _
  | anyOf nonempty good ih => exact records_check_anyOf halting value path good
  | allOf nonempty good ih => exact records_check_allOf halting value path ih

/-- The outcome of a validation: the verdict of acceptance, and as many failures as there is room
for, but no more than one when it stops at the first. -/
theorem validate_eq {model : Model} (h : Good model) (value : Value)
    (settings : ValidatorSettings) :
    model.validate value settings =
      .ok ⟨model.permits value,
        (recorded settings.failFast (model.failures value [])).take settings.maxIssues⟩ := by
  rw [validate, records_check h, isEmpty_failures h]
  simp [Trail.record, bind, Except.bind]

end Model

end SchemaModel
