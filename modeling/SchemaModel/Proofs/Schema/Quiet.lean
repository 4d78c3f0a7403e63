import SchemaModel.Proofs.Schema.Coupling

/-!
# Reading without reports

Reports of unsupported parts are remarks: whether they are written down decides nothing.  A run that
keeps silent about such parts goes in step with one that reports them.  Both stop at the same point
for the same reason, or both end with the same result, and the issues of the silent run are those of
the other without the remarks.
-/

namespace SchemaModel

/-- The issues that are about something other than an unsupported part, in their order. -/
def withoutUnsupported (issues : List SchemaIssue) : List SchemaIssue :=
  issues.filter fun issue => issue.code ≠ .unsupportedKeyword

theorem withoutUnsupported_append (before after : List SchemaIssue) :
    withoutUnsupported (before ++ after) =
      withoutUnsupported before ++ withoutUnsupported after :=
  List.filter_append ..

/-- An issue that is informative exactly when it is about an unsupported part. -/
def SchemaIssue.IsGraded (issue : SchemaIssue) : Prop :=
  issue.severity = .info ↔ issue.code = .unsupportedKeyword

section Graded

variable {issues : List SchemaIssue} (h : ∀ issue ∈ issues, issue.IsGraded)

include h

theorem warning_of_mem_withoutUnsupported :
    ∀ issue ∈ withoutUnsupported issues, issue.severity = .warning := by
  intro issue hmem
  obtain ⟨hissue, hcode⟩ := List.mem_filter.mp hmem
  cases hseverity : issue.severity with
  | warning => rfl
  | info => exact absurd ((h issue hissue).mp hseverity) (of_decide_eq_true hcode)

theorem hasWarnings_withoutUnsupported (model : Model) :
    ResolutionResult.hasWarnings ⟨model, withoutUnsupported issues⟩ =
      ResolutionResult.hasWarnings ⟨model, issues⟩ := by
  rw [ResolutionResult.hasWarnings, ResolutionResult.hasWarnings, withoutUnsupported,
    List.any_filter, Bool.eq_iff_iff, List.any_eq_true, List.any_eq_true]
  refine exists_congr fun issue => and_congr_right fun hmem => ?_
  have hgraded := h issue hmem
  rw [SchemaIssue.IsGraded] at hgraded
  simp [hgraded]

end Graded

namespace Resolution

variable {α β : Type}

/-- How a silent run stands to one that reports unsupported parts. -/
inductive Mutes {α : Type} : Resolution α → Resolution α → Prop
  | stopped (stop : Stop) : Mutes (.error stop) (.error stop)
  | ended (a : α) {issues : List SchemaIssue} (graded : ∀ issue ∈ issues, issue.IsGraded) :
      Mutes (.ok (a, issues)) (.ok (a, withoutUnsupported issues))

theorem Mutes.bind {x x' : Resolution α} {f f' : α → Resolution β} (hx : Mutes x x')
    (hf : ∀ a, Mutes (f a) (f' a)) : Mutes (x >>= f) (x' >>= f') := by
  cases hx with
  | stopped stop => exact .stopped stop
  | @ended a before graded =>
      have hnext := hf a
      simp only [Bind.bind]
      generalize f a = y at hnext
      generalize f' a = y' at hnext
      cases hnext with
      | stopped stop => exact .stopped stop
      | @ended b after graded' =>
          simp only [← withoutUnsupported_append]
          exact .ended b (List.forall_mem_append.mpr ⟨graded, graded'⟩)

theorem mutes_pure (a : α) : Mutes (pure a) (pure a) :=
  .ended a (List.forall_mem_nil _)

theorem mutes_note {issue : SchemaIssue} (graded : issue.IsGraded) :
    Mutes (note [issue]) (note (withoutUnsupported [issue])) :=
  .ended () (List.forall_mem_singleton.mpr graded)

end Resolution

open Resolution

/-- Reading with and without reports of unsupported parts in step. -/
def quietCoupling (limit : Nat) (strict : Bool) :
    Coupling ⟨limit, strict, true⟩ ⟨limit, strict, false⟩ where
  rel := Mutes
  rel_pure := mutes_pure
  rel_bind := Mutes.bind
  rel_ofFault made := by
    cases made with
    | error cause => exact .stopped _
    | ok a => exact mutes_pure a
  rel_malformed place message := by
    cases strict with
    | true => exact .stopped _
    | false => exact mutes_note (by simp [SchemaIssue.IsGraded])
  rel_unsupported place message := mutes_note (by simp [SchemaIssue.IsGraded])
  rel_bounded place depth h := by
    rw [ResolverSettings.bounded, ResolverSettings.bounded]
    split
    · exact .stopped _
    · exact h

theorem mutes_resolve [Platform] (schema : Value) (limit : Nat) (strict : Bool) :
    Mutes (resolveNode ⟨limit, strict, true⟩ schema [] 0)
      (resolveNode ⟨limit, strict, false⟩ schema [] 0) :=
  (quietCoupling limit strict).rel_resolveNode schema [] 0

/-- Silence about unsupported parts changes neither a stop nor the model.  It leaves out the issues
about such parts and no others, and as all that remain are warnings, it does not hide one. -/
theorem silence_only_filters [Platform] (schema : Value) (limit : Nat) (strict : Bool) :
    (∃ stop, resolve schema ⟨limit, strict, true⟩ = .error stop ∧
      resolve schema ⟨limit, strict, false⟩ = .error stop) ∨
    ∃ full quiet, resolve schema ⟨limit, strict, true⟩ = .ok full ∧
      resolve schema ⟨limit, strict, false⟩ = .ok quiet ∧
      quiet.model = full.model ∧
      quiet.issues = withoutUnsupported full.issues ∧
      (∀ issue ∈ quiet.issues, issue.severity = .warning) ∧
      quiet.hasWarnings = full.hasWarnings := by
  have hstep := mutes_resolve schema limit strict
  simp only [resolve]
  generalize resolveNode ⟨limit, strict, true⟩ schema [] 0 = full at hstep
  generalize resolveNode ⟨limit, strict, false⟩ schema [] 0 = quiet at hstep
  cases hstep with
  | stopped stop => exact .inl ⟨stop, rfl, rfl⟩
  | @ended model issues graded =>
      refine .inr ⟨⟨model, issues⟩, ⟨model, withoutUnsupported issues⟩, rfl, rfl, rfl, rfl, ?_, ?_⟩
      · exact warning_of_mem_withoutUnsupported graded
      · exact hasWarnings_withoutUnsupported graded model

end SchemaModel
