import SchemaModel.Model.Check
import SchemaModel.Model.Layers
import SchemaModel.Proofs.Model.Parts

/-!
# Runs that may be refused

A platform may refuse to put a value into words.  Such a run is compared with the same run on the
platform without bounds: it is curtailed, that is, it gives the same or is refused, and refused it
is only when something at hand cannot be written.  Acceptance and traced checks by good models are
curtailed so.
-/

namespace SchemaModel

/-- A run that gives what a run without bounds gives, unless it is refused because not everything at
hand can be written. -/
def Curtailed {ε α : Type} (refuse : Refusal → ε) (writable : Prop) (run free : Except ε α) :
    Prop :=
  run = free ∨ ¬ writable ∧ ∃ refusal, run = .error (refuse refusal)

/-- A run that ends with a result, unless it is refused because not everything at hand can be
written. -/
abbrev Delivers {α : Type} (writable : Prop) (run : Except Fault α) (result : α) : Prop :=
  Curtailed .refused writable run (.ok result)

namespace Curtailed

variable {ε α β : Type} {refuse : Refusal → ε} {writable : Prop}

theorem refl (run : Except ε α) : Curtailed refuse writable run run :=
  .inl rfl

theorem mono {writable' : Prop} {run free : Except ε α} (h : Curtailed refuse writable run free)
    (himp : writable' → writable) : Curtailed refuse writable' run free :=
  h.imp id fun ⟨hnot, hrun⟩ => ⟨fun hwritable => hnot (himp hwritable), hrun⟩

/-- Where everything can be written, nothing is refused. -/
theorem eq_of_writable {run free : Except ε α} (h : Curtailed refuse writable run free)
    (hwritable : writable) : run = free :=
  h.resolve_right fun hrefused => hrefused.1 hwritable

theorem eq_of_ok {run free : Except ε α} {result : α} (h : Curtailed refuse writable run free)
    (hrun : run = .ok result) : free = .ok result := by
  rcases h with h | ⟨-, refusal, hrefused⟩
  · rw [← h, hrun]
  · rw [hrefused] at hrun
    cases hrun

theorem bind {run free : Except ε α} {next next' : α → Except ε β}
    (h : Curtailed refuse writable run free)
    (hnext : ∀ a, free = .ok a → Curtailed refuse writable (next a) (next' a)) :
    Curtailed refuse writable (run >>= next) (free >>= next') := by
  rcases h with rfl | ⟨hnot, refusal, rfl⟩
  · cases run with
    | error e => exact .refl _
    | ok a => exact hnext a rfl
  · exact .inr ⟨hnot, refusal, rfl⟩

theorem map {run free : Except ε α} (f : α → β) (h : Curtailed refuse writable run free) :
    Curtailed refuse writable (run.map f) (free.map f) := by
  rcases h with rfl | ⟨hnot, refusal, rfl⟩
  · exact .refl _
  · exact .inr ⟨hnot, refusal, rfl⟩

/-! ## Lists -/

section Tests

variable {test test' : α → Except ε Bool} {xs : List α}
  (h : ∀ x ∈ xs, Curtailed refuse writable (test x) (test' x))

include h

theorem allM : Curtailed refuse writable (xs.allM test) (xs.allM test') := by
  induction xs with
  | nil => exact .refl _
  | cons x xs ih =>
      obtain ⟨hx, hxs⟩ := List.forall_mem_cons.mp h
      rw [List.allM, List.allM]
      refine hx.bind fun fine _ => ?_
      cases fine with
      | true => exact ih hxs
      | false => exact .refl _

theorem anyM : Curtailed refuse writable (xs.anyM test) (xs.anyM test') := by
  induction xs with
  | nil => exact .refl _
  | cons x xs ih =>
      obtain ⟨hx, hxs⟩ := List.forall_mem_cons.mp h
      rw [List.anyM, List.anyM]
      refine hx.bind fun fine _ => ?_
      cases fine with
      | true => exact .refl _
      | false => exact ih hxs

theorem exactlyOne (found : Bool) :
    Curtailed refuse writable (exactlyOne test found xs) (exactlyOne test' found xs) := by
  induction xs generalizing found with
  | nil => exact .refl _
  | cons x xs ih =>
      obtain ⟨hx, hxs⟩ := List.forall_mem_cons.mp h
      rw [SchemaModel.exactlyOne, SchemaModel.exactlyOne]
      refine hx.bind fun fine _ => ?_
      cases fine with
      | false => exact ih hxs found
      | true =>
          cases found with
          | true => exact .refl _
          | false => exact ih hxs true

theorem countOk : Curtailed refuse writable (countOk test xs) (countOk test' xs) := by
  induction xs with
  | nil => exact .refl _
  | cons x xs ih =>
      obtain ⟨hx, hxs⟩ := List.forall_mem_cons.mp h
      rw [SchemaModel.countOk, SchemaModel.countOk]
      exact hx.bind fun fine _ => (ih hxs).bind fun count _ => .refl _

theorem filterM : Curtailed refuse writable (xs.filterM test) (xs.filterM test') := by
  have hscan : ∀ kept, Curtailed refuse writable (xs.filterAuxM test kept)
      (xs.filterAuxM test' kept) := by
    induction xs with
    | nil => exact fun kept => .refl _
    | cons x xs ih =>
        obtain ⟨hx, hxs⟩ := List.forall_mem_cons.mp h
        intro kept
        rw [List.filterAuxM, List.filterAuxM]
        exact hx.bind fun fine _ => ih hxs _
  exact (hscan []).bind fun kept _ => .refl _

end Tests

theorem mapM {f f' : α → Except ε β} {xs : List α}
    (h : ∀ x ∈ xs, Curtailed refuse writable (f x) (f' x)) :
    Curtailed refuse writable (xs.mapM f) (xs.mapM f') := by
  induction xs with
  | nil => exact .refl _
  | cons x xs ih =>
      obtain ⟨hx, hxs⟩ := List.forall_mem_cons.mp h
      rw [List.mapM_cons, List.mapM_cons]
      exact hx.bind fun y _ => (ih hxs).bind fun ys _ => .refl _

theorem checkEach {halting : Bool} {step step' : α → Trail → Except ε Verdict} {xs : List α}
    (h : ∀ x ∈ xs, ∀ trail, Curtailed refuse writable (step x trail) (step' x trail))
    (accepted : Bool) (trail : Trail) :
    Curtailed refuse writable (checkEach halting step accepted xs trail)
      (checkEach halting step' accepted xs trail) := by
  induction xs generalizing accepted trail with
  | nil => exact .refl _
  | cons x xs ih =>
      obtain ⟨hx, hxs⟩ := List.forall_mem_cons.mp h
      rw [SchemaModel.checkEach, SchemaModel.checkEach]
      refine (hx trail).bind fun verdict _ => ?_
      obtain ⟨fine, trail⟩ := verdict
      cases fine with
      | true => exact ih hxs accepted trail
      | false =>
          cases halting with
          | true => exact .refl _
          | false => exact ih hxs false trail

end Curtailed

namespace Model

/-- The values that a model lists by itself. -/
def ownValues : Model → List Value
  | .literal _ value => [value]
  | .enum _ values => values
  | _ => []

/-- A model of which every listed value meets a condition, down to its last part. -/
def Lists (ok : Value → Prop) (model : Model) : Prop :=
  model.Throughout fun part => ∀ value ∈ part.ownValues, ok value

variable [Platform] {α : Type} [Datum α]

/-- A model of which every listed value can be written. -/
def Writable (model : Model) : Prop :=
  model.Lists (·.isWritable = true)

instance : DecidablePred Writable := fun model =>
  inferInstanceAs
    (Decidable (∀ part ∈ model.parts, ∀ value ∈ part.ownValues, value.isWritable = true))

theorem delivers_write (value : Value) :
    Delivers (value.isWritable = true) (Fault.ofWritten (Json.write value))
      (Json.lineText value) := by
  rw [Json.write, Value.isWritable]
  cases value.refusal? with
  | none => exact .inl rfl
  | some refusal => exact .inr ⟨by simp, refusal, rfl⟩

/-- A good model is put into words unless a value in it cannot be written. -/
theorem delivers_describe {model : Model} (h : Good model) :
    Delivers model.Writable model.describe model.words := by
  cases h with
  | @literal mark value data =>
      rw [words_eq_of_describe (describe_literal data mark)]
      exact (delivers_write value).mono fun hwritable => hwritable.self value List.mem_cons_self
  | @enum mark values nonempty data distinct =>
      have htexts : Delivers (enum mark values).Writable
          (values.mapM fun value => Fault.ofWritten (Json.write value))
          (values.map Json.lineText) := by
        rw [Delivers, ← mapM_eq_ok fun value _ => rfl]
        exact .mapM fun value hmem =>
          (delivers_write value).mono fun hwritable => hwritable.self value hmem
      rw [words_eq_of_describe (describe_enum data mark)]
      exact htexts.bind fun texts _ => .refl (.ok ("one of " ++ commaSeparated texts))
  | _ => exact .inl rfl

theorem curtailed_answer {model : Model} (h : Good model) (fine : Bool) :
    Curtailed .refused model.Writable (model.answer fine) (@answer .unlimited model fine) := by
  cases fine with
  | true => exact .refl _
  | false =>
      have hwords := delivers_describe h
      rw [Delivers, ← h.describe_eq] at hwords
      exact hwords.bind fun _ _ => .refl _

/-! ## Acceptance -/

section Acceptance

theorem curtailed_accepts_array {items : Model} (ih : ∀ value : α,
      Curtailed .refused items.Writable (items.accepts value) (@accepts .unlimited α _ items value))
    (value : α) :
    Curtailed .refused (array items).Writable ((array items).accepts value)
      (@accepts .unlimited α _ (array items) value) := by
  rw [accepts, @accepts.eq_def .unlimited]
  simp only
  cases (Datum.look value).items? with
  | none => exact .refl _
  | some elements =>
      exact .allM fun element _ => (ih element).mono fun hwritable => hwritable.items

/-- An object is judged as without bounds, unless something in its properties is refused. -/
theorem curtailed_accepts_object {properties : List (Key × Model)}
    (ih : ∀ entry ∈ properties, ∀ value : α, Curtailed .refused entry.2.Writable
      (entry.2.accepts value) (@accepts .unlimited α _ entry.2 value))
    (required : List Text) (additional : Bool) (value : α) :
    Curtailed .refused (object properties required additional).Writable
      ((object properties required additional).accepts value)
      (@accepts .unlimited α _ (object properties required additional) value) := by
  rw [accepts, @accepts.eq_def .unlimited]
  simp only
  cases (Datum.look value).fields? with
  | none => exact .refl _
  | some fields =>
      simp only
      split
      · refine .allM fun field _ => ?_
        split
        · next property hfound =>
          obtain ⟨key, hmem⟩ := Entries.mem_of_findLast? hfound
          exact (ih _ hmem field.2).mono fun hwritable => hwritable.property hmem
        · exact .refl _
      · exact .refl _

end Acceptance

/-- A good model answers as it does where nothing is too long, unless it is refused. -/
theorem curtailed_accepts {model : Model} (h : Good model) (value : α) :
    Curtailed .refused model.Writable (model.accepts value)
      (@accepts .unlimited α _ model value) := by
  induction h generalizing value with
  | unknown | never | null | boolean | number | string =>
      rw [accepts, @accepts.eq_def .unlimited]
      exact .refl _
  | literal data =>
      rw [accepts, @accepts.eq_def .unlimited]
      exact curtailed_answer (.literal data) _
  | enum nonempty data distinct =>
      rw [accepts, @accepts.eq_def .unlimited]
      exact curtailed_answer (.enum nonempty data distinct) _
  | array good ih => exact curtailed_accepts_array ih value
  | object good declared ih => exact curtailed_accepts_object ih _ _ value
  | @oneOf mark branches nonempty good ih =>
      rw [accepts_oneOf, @accepts_oneOf .unlimited]
      exact .exactlyOne (fun branch hmem =>
        (ih branch hmem value).mono fun hwritable => hwritable.branch mark .oneOf hmem) false
  | @anyOf branches nonempty good ih =>
      rw [accepts_anyOf, @accepts_anyOf .unlimited]
      exact .anyM fun branch hmem =>
        (ih branch hmem value).mono fun hwritable => hwritable.branch default .anyOf hmem
  | @allOf branches nonempty good ih =>
      rw [accepts_allOf, @accepts_allOf .unlimited]
      exact .allM fun branch hmem =>
        (ih branch hmem value).mono fun hwritable => hwritable.branch default .allOf hmem

/-- A good model gives its answer unless it is refused. -/
theorem delivers_accepts {model : Model} (h : Good model) (value : Value) :
    Delivers model.Writable (model.accepts value) (model.permits value) := by
  rw [Delivers, ← h.accepts_eq]
  exact curtailed_accepts h value

/-! ## Traced checks -/

section Checks

variable (halting : Bool)

theorem curtailed_checkTest {model : Model} (h : Good model) (fine : Bool) (path : ValuePath)
    (trail : Trail) :
    Curtailed .refused model.Writable (model.checkTest fine path trail)
      (@checkTest .unlimited model fine path trail) := by
  cases fine with
  | true => exact .refl _
  | false =>
      have hwords := delivers_describe h
      rw [Delivers, ← h.describe_eq] at hwords
      exact hwords.bind fun _ _ => .refl _

theorem curtailed_check_array {items : Model}
    (ih : ∀ (value : α) path trail, Curtailed .refused items.Writable
      (items.check halting value path trail) (@check .unlimited α _ halting items value path trail))
    (value : α) (path : ValuePath) (trail : Trail) :
    Curtailed .refused (array items).Writable ((array items).check halting value path trail)
      (@check .unlimited α _ halting (array items) value path trail) := by
  rw [check, @check.eq_def .unlimited]
  simp only
  cases (Datum.look value).items? with
  | none => exact .refl _
  | some elements =>
      exact .checkEach (fun element _ trail =>
        (ih element.1 _ trail).mono fun hwritable => hwritable.items) true trail

/-- An object is traced as without bounds, unless something in its properties is refused. -/
theorem curtailed_check_object {properties : List (Key × Model)}
    (ih : ∀ entry ∈ properties, ∀ (value : α) path trail, Curtailed .refused entry.2.Writable
      (entry.2.check halting value path trail)
      (@check .unlimited α _ halting entry.2 value path trail))
    (required : List Text) (additional : Bool) (value : α) (path : ValuePath) (trail : Trail) :
    Curtailed .refused (object properties required additional).Writable
      ((object properties required additional).check halting value path trail)
      (@check .unlimited α _ halting (object properties required additional) value path trail) := by
  rw [check, @check.eq_def .unlimited]
  simp only
  cases (Datum.look value).fields? with
  | none => exact .refl _
  | some fields =>
      refine (Curtailed.refl _).bind fun verdict _ => ?_
      split
      · exact .refl _
      · refine .checkEach (fun field _ trail => ?_) _ _
        split
        · next property hfound =>
          obtain ⟨key, hmem⟩ := Entries.mem_of_findLast? hfound
          exact (ih _ hmem field.2 _ trail).mono fun hwritable => hwritable.property hmem
        · exact .refl _

theorem curtailed_check_oneOf {branches : List Model} (good : ∀ branch ∈ branches, Good branch)
    (mark : Mark) (value : α) (path : ValuePath) (trail : Trail) :
    Curtailed .refused (oneOf mark branches).Writable
      ((oneOf mark branches).check halting value path trail)
      (@check .unlimited α _ halting (oneOf mark branches) value path trail) := by
  rw [check, @check.eq_def .unlimited]
  exact (Curtailed.countOk fun branch hmem => (curtailed_accepts (good branch hmem) value).mono
    fun hwritable => hwritable.branch mark .oneOf hmem).bind fun _ _ => .refl _

theorem curtailed_check_anyOf {branches : List Model} (good : ∀ branch ∈ branches, Good branch)
    (value : α) (path : ValuePath) (trail : Trail) :
    Curtailed .refused (anyOf branches).Writable
      ((anyOf branches).check halting value path trail)
      (@check .unlimited α _ halting (anyOf branches) value path trail) := by
  rw [check, @check.eq_def .unlimited]
  exact (Curtailed.anyM fun branch hmem => (curtailed_accepts (good branch hmem) value).mono
    fun hwritable => hwritable.branch default .anyOf hmem).bind fun _ _ => .refl _

theorem curtailed_check_allOf {branches : List Model}
    (ih : ∀ branch ∈ branches, ∀ (value : α) path trail, Curtailed .refused branch.Writable
      (branch.check halting value path trail)
      (@check .unlimited α _ halting branch value path trail))
    (value : α) (path : ValuePath) (trail : Trail) :
    Curtailed .refused (allOf branches).Writable
      ((allOf branches).check halting value path trail)
      (@check .unlimited α _ halting (allOf branches) value path trail) := by
  rw [check, @check.eq_def .unlimited]
  exact .checkEach (fun branch _ trail => (ih branch.1 branch.2 value path trail).mono
    fun hwritable => hwritable.branch default .allOf branch.2) true trail

end Checks

/-- A traced check by a good model goes as it does where nothing is too long, unless it is
refused. -/
theorem curtailed_check {model : Model} (h : Good model) (halting : Bool) (value : α)
    (path : ValuePath) (trail : Trail) :
    Curtailed .refused model.Writable (model.check halting value path trail)
      (@check .unlimited α _ halting model value path trail) := by
  induction h generalizing value path trail with
  | unknown | never | null | boolean | number | string =>
      rw [check, @check.eq_def .unlimited]
      exact .refl _
  | literal data =>
      rw [check, @check.eq_def .unlimited]
      exact curtailed_checkTest (.literal data) _ path trail
  | enum nonempty data distinct =>
      rw [check, @check.eq_def .unlimited]
      exact curtailed_checkTest (.enum nonempty data distinct) _ path trail
  | array good ih => exact curtailed_check_array halting ih value path trail
  | object good declared ih => exact curtailed_check_object halting ih _ _ value path trail
  | oneOf nonempty good => exact curtailed_check_oneOf halting good _ value path trail
  | anyOf nonempty good => exact curtailed_check_anyOf halting good value path trail
  | allOf nonempty good ih => exact curtailed_check_allOf halting ih value path trail

theorem curtailed_validate {model : Model} (h : Good model) (value : α)
    (settings : ValidatorSettings) :
    Curtailed .refused model.Writable (model.validate value settings)
      (@validate .unlimited α _ model value settings) :=
  (curtailed_check h settings.failFast value [] _).bind fun _ _ => .refl _

end Model

end SchemaModel
