import Mathlib.Data.List.Nodup
import SchemaModel.Proofs.Model.Check
import SchemaModel.Proofs.Model.Parts
import SchemaModel.Proofs.Value.Path

/-!
# Where issues lie

A check carries the text of its place and the value at that place side by side.  They stay together:
the path of a failure is the text of steps that can be followed from the root to a part of the
value, or, for a missing property, to the object that lacks it.

Where no intersection looks at a value twice and no object declares a name twice, each place is
looked at once.  As different places have different texts, no two failures then have the same path.
-/

namespace SchemaModel

attribute [local instance] Platform.unlimited

/-- Steps from a value to what an issue is about: a part of the value, or the name of a missing
property, after the steps to the object that lacks it. -/
def Value.LedBy (value : Value) (steps : ValuePath) (reason : String) : Prop :=
  (∃ part, value.descend? steps = some part) ∨
  reason = "missing required property" ∧ ∃ outer name form fields,
    steps = outer ++ [.str name] ∧ value.descend? outer = some (.mapping form fields) ∧
      Entries.textual fields = true ∧ Entries.has fields (.str name) = false

theorem Value.LedBy.cons {value item : Value} {step : Key} (h : value.member? step = some item)
    {steps : ValuePath} {reason : String} (hled : item.LedBy steps reason) :
    value.LedBy (step :: steps) reason := by
  rcases hled with ⟨part, hpart⟩ | ⟨hreason, outer, name, form, fields, rfl, houter, htext, habsent⟩
  · exact .inl ⟨part, by rw [descend?_cons h, hpart]⟩
  · refine .inr ⟨hreason, step :: outer, name, form, fields, rfl, ?_, htext, habsent⟩
    rw [descend?_cons h, houter]

/-- An issue below a path whose own path is the text of steps to what it is about. -/
def ValueIssue.Locates (issue : ValueIssue) (value : Value) (path : ValuePath) : Prop :=
  ∃ steps : ValuePath, (∀ step ∈ steps, step.isStep = true) ∧
    issue.path = ValuePath.text (path ++ steps) ∧ value.LedBy steps issue.reason

theorem ValueIssue.Locates.child {issue : ValueIssue} {value item : Value} {path : ValuePath}
    {step : Key} (hstep : step.isStep = true) (h : value.member? step = some item)
    (hissue : issue.Locates item (path.child step)) : issue.Locates value path := by
  obtain ⟨steps, hsteps, htext, hled⟩ := hissue
  refine ⟨step :: steps, List.forall_mem_cons.mpr ⟨hstep, hsteps⟩, ?_, hled.cons h⟩
  rw [htext, ValuePath.child_append]

namespace Model

theorem locates_failsUnless (test : Bool) (value : Value) (path : ValuePath) (reason : String) :
    ∀ issue ∈ failsUnless test path reason, issue.Locates value path := by
  intro issue hmem
  rw [failsUnless] at hmem
  split at hmem
  · cases hmem
  · obtain rfl := List.mem_singleton.mp hmem
    exact ⟨[], List.forall_mem_nil _, by rw [List.append_nil], .inl ⟨value, rfl⟩⟩

/-- The path of an element's issue goes on from the index of that element. -/
theorem locates_array {items : Model}
    (ih : ∀ {element : Value}, element.distinctKeys = true → ∀ path,
      ∀ issue ∈ items.failures element path, issue.Locates element path)
    {value : Value} (hv : value.distinctKeys = true) (path : ValuePath) :
    ∀ issue ∈ (array items).failures value path, issue.Locates value path := by
  rw [failures]
  cases helements : value.items? with
  | none => exact locates_failsUnless false value path _
  | some elements =>
      intro issue hmem
      obtain ⟨⟨element, index⟩, hindex, hissue⟩ := List.mem_flatMap.mp hmem
      have hfound : elements[index]? = some element := List.mem_zipIdx_iff_getElem?.mp hindex
      have hkeys := Value.distinctKeys_of_mem_items hv helements element
        (List.mem_of_getElem? hfound)
      refine (ih hkeys _ issue hissue).child (by simp [Key.isStep]) ?_
      rw [Value.member?_index helements, hfound]

section Objects

variable {properties : List (Key × Model)} {required : List Text} {additional : Bool}
  (ih : ∀ entry ∈ properties, ∀ {item : Value}, item.distinctKeys = true → ∀ path,
    ∀ issue ∈ entry.2.failures item path, issue.Locates item path)
  {value : Value} (hv : value.distinctKeys = true) {fields : List (Key × Value)}
  (hfields : value.fields? = some fields) (path : ValuePath)

theorem exists_name_of_mem_missing {name : Key} (h : name ∈ missing properties required fields) :
    (∃ text, name = .str text) ∧ Entries.has fields name = false := by
  obtain ⟨-, hname⟩ := List.mem_filter.mp h
  rw [Bool.and_eq_true, List.any_eq_true, Bool.not_eq_true'] at hname
  obtain ⟨⟨text, -, hsame⟩, habsent⟩ := hname
  exact ⟨⟨text, Key.same_str_iff.mp hsame⟩, habsent⟩

include hfields in
/-- A missing name is no key of the object, so its path leads one step out of the value. -/
theorem locates_missing :
    ∀ name ∈ missing properties required fields,
      ∀ issue ∈ failsUnless false (path.child name) "missing required property",
        issue.Locates value path := by
  intro name hname issue hissue
  obtain ⟨⟨text, rfl⟩, habsent⟩ := exists_name_of_mem_missing hname
  obtain ⟨form, rfl, htext⟩ := Value.fields?_eq_some_iff.mp hfields
  obtain rfl := List.mem_singleton.mp hissue
  refine ⟨[.str text], List.forall_mem_singleton.mpr rfl, rfl, .inr ⟨rfl, ?_⟩⟩
  exact ⟨[], text, form, fields, rfl, rfl, htext, habsent⟩

include ih in
theorem locates_fieldFailures {field : Key × Value} (hkeys : field.2.distinctKeys = true) :
    ∀ issue ∈ fieldFailures properties additional path field,
      issue.Locates field.2 (path.child field.1) := by
  rw [fieldFailures]
  cases hfound : Entries.findLast? properties field.1 with
  | none => exact locates_failsUnless additional field.2 _ _
  | some property =>
      obtain ⟨key, hmem⟩ := Entries.mem_of_findLast? hfound
      exact ih _ hmem hkeys _

include hv hfields in
theorem member?_field {field : Key × Value} (h : field ∈ fields) :
    field.1.isStep = true ∧ field.2.distinctKeys = true ∧
      value.member? field.1 = some field.2 := by
  obtain ⟨hdistinct, hkeys⟩ := Value.distinct_of_fields hv hfields
  obtain ⟨form, rfl, htext⟩ := Value.fields?_eq_some_iff.mp hfields
  obtain ⟨name, hname⟩ := Value.exists_str_of_textual htext h
  refine ⟨by rw [hname]; rfl, hkeys field h, ?_⟩
  have hfound := Entries.find?_eq_some_of_mem hdistinct (show (field.1, field.2) ∈ fields from h)
  rw [hname] at hfound ⊢
  rw [Value.member?, Entries.get?_eq_find?, hfound]

include ih hv hfields in
theorem locates_object :
    ∀ issue ∈ (object properties required additional).failures value path,
      issue.Locates value path := by
  rw [failures_object, hfields]
  intro issue hmem
  rcases List.mem_append.mp hmem with hmem | hmem
  · obtain ⟨name, hname, hissue⟩ := List.mem_flatMap.mp hmem
    exact locates_missing hfields path name hname issue hissue
  · obtain ⟨field, hfield, hissue⟩ := List.mem_flatMap.mp hmem
    obtain ⟨hstep, hkeys, hmember⟩ := member?_field hv hfields hfield
    exact (locates_fieldFailures ih path hkeys issue hissue).child hstep hmember

end Objects

/-- Every failure of a value lies at a part of it, or at a property that it lacks. -/
theorem locates_failures {model : Model} (h : Good model) {value : Value}
    (hv : value.distinctKeys = true) (path : ValuePath) :
    ∀ issue ∈ model.failures value path, issue.Locates value path := by
  induction h generalizing value path with
  | unknown =>
      rw [failures]
      exact List.forall_mem_nil _
  | never | null | boolean | number | string | literal | enum | oneOf | anyOf =>
      -- A union fails as a whole, at its own place: what its branches find is dropped.
      rw [failures]
      exact locates_failsUnless _ value path _
  | array good ih => exact locates_array ih hv path
  | object good declared ih =>
      cases hfields : value.fields? with
      | none =>
          rw [failures_object, hfields]
          exact locates_failsUnless false value path _
      | some fields => exact locates_object ih hv hfields path
  | allOf nonempty good ih =>
      rw [failures_allOf]
      intro issue hmem
      obtain ⟨branch, hbranch, hissue⟩ := List.mem_flatMap.mp hmem
      exact ih branch hbranch hv path issue hissue

/-- The issues of a validation by a good model are failures in their order. -/
theorem validate_sublist [Platform] {model : Model} (h : Good model) (value : Value)
    (settings : ValidatorSettings) :
    ∃ result, Delivers model.Writable (model.validate value settings) result ∧
      result.issues.Sublist (model.failures value []) := by
  refine ⟨_, delivers_validate h value settings, (List.take_sublist _ _).trans ?_⟩
  rw [recorded]
  split
  · exact List.take_sublist _ _
  · exact List.Sublist.refl _

/-- Every issue of a validation points at a place of the value.  Its path is the text of indices and
names that lead from the root to a part of the value, or, where a required property is missing, to
an object and on by the name that it lacks. -/
theorem issues_point_into_value [Platform] {model : Model} (h : Good model) {value : Value}
    (hv : value.distinctKeys = true) (settings : ValidatorSettings) :
    ∃ result, Delivers model.Writable (model.validate value settings) result ∧
      ∀ issue ∈ result.issues, ∃ steps : ValuePath, (∀ step ∈ steps, step.isStep = true) ∧
        issue.path = steps.text ∧ value.LedBy steps issue.reason := by
  obtain ⟨result, hresult, hsub⟩ := validate_sublist h value settings
  refine ⟨result, hresult, fun issue hissue => ?_⟩
  exact locates_failures h hv [] issue (hsub.subset hissue)

attribute [local instance] Platform.standard in
/-- Two branches look at one element: a name is missing, and another is barred and of wrong kind. -/
theorem issues_point_into_element :
    ∃ result,
      (array (.allOf [.object [(.str "a", .string)] ["a"] false,
          .object [(.str "x y", .string)] [] true])).validate
        (Value.list [Value.object [("x y", .int 1)]]) ⟨false, 100⟩ = .ok result ∧
      result.issues.map ValueIssue.path = ["$[0].a", "$[0]['x y']", "$[0]['x y']"] ∧
      ∀ issue ∈ result.issues, ∃ steps : ValuePath, (∀ step ∈ steps, step.isStep = true) ∧
        issue.path = steps.text ∧
        (Value.list [Value.object [("x y", .int 1)]]).LedBy steps issue.reason := by
  have hfirst : Good (.object [(.str "a", .string)] ["a"] false) :=
    .object (by simp [Good.string]) (by decide)
  have hsecond : Good (.object [(.str "x y", .string)] [] true) :=
    .object (by simp [Good.string]) (by decide)
  obtain ⟨result, hresult, hpoints⟩ := issues_point_into_value
    (.array (.allOf (by decide) (List.forall_mem_cons.mpr ⟨hfirst, List.forall_mem_singleton.mpr
      hsecond⟩)))
    (show (Value.list [Value.object [("x y", .int 1)]]).distinctKeys = true by decide) ⟨false, 100⟩
  have hpaths : ((array (.allOf [.object [(.str "a", .string)] ["a"] false,
      .object [(.str "x y", .string)] [] true])).validate
        (Value.list [Value.object [("x y", .int 1)]]) ⟨false, 100⟩).toOption.map
          (·.issues.map ValueIssue.path) = some ["$[0].a", "$[0]['x y']", "$[0]['x y']"] := by
    decide +kernel
  have hrun := hresult.eq_of_writable (by decide)
  rw [hrun] at hpaths
  exact ⟨result, hrun, Option.some.inj hpaths, hpoints⟩

/-! ## One failure for each place -/

/-- Whether a model, apart from its parts, looks at each place at most once: it is no intersection,
and as an object it declares each name once. -/
def LooksOnce : Model → Prop
  | .object properties _ _ => (properties.map Prod.fst).Nodup
  | .allOf _ => False
  | _ => True

/-- An issue whose path takes a given step after another path. -/
def Below (path : ValuePath) (step : Key) (issue : ValueIssue) : Prop :=
  ∃ steps, (∀ key ∈ step :: steps, key.isStep = true) ∧
    issue.path = ValuePath.text (path ++ step :: steps)

theorem below_of_locates {issue : ValueIssue} {value : Value} {path : ValuePath} {step : Key}
    (hstep : step.isStep = true) (h : issue.Locates value (path.child step)) :
    Below path step issue := by
  obtain ⟨steps, hsteps, htext, -⟩ := h
  refine ⟨steps, List.forall_mem_cons.mpr ⟨hstep, hsteps⟩, ?_⟩
  rw [htext, ValuePath.child_append]

theorem Below.step_eq {path : ValuePath} {a b : Key} {issue other : ValueIssue}
    (ha : Below path a issue) (hb : Below path b other) (h : issue.path = other.path) : a = b := by
  obtain ⟨as, has, htext⟩ := ha
  obtain ⟨bs, hbs, htext'⟩ := hb
  rw [htext, htext'] at h
  exact (List.cons.inj (ValuePath.eq_of_text_append has hbs h)).1

/-- Failures that all lie below one step and have different paths. -/
def Apart (path : ValuePath) (step : Key) (found : List ValueIssue) : Prop :=
  (∀ issue ∈ found, Below path step issue) ∧ (found.map ValueIssue.path).Nodup

/-- Different steps find failures with different paths. -/
theorem nodup_paths_flatMap {α : Type} {path : ValuePath} {xs : List α} {step : α → Key}
    {found : α → List ValueIssue} (hsteps : (xs.map step).Nodup)
    (hapart : ∀ x ∈ xs, Apart path (step x) (found x)) :
    ((xs.flatMap found).map ValueIssue.path).Nodup := by
  rw [List.map_flatMap, List.nodup_flatMap]
  refine ⟨fun x hx => (hapart x hx).2, (List.pairwise_map.mp hsteps).imp_of_mem ?_⟩
  intro x y hx hy hne text hinx hiny
  obtain ⟨issue, hissue, rfl⟩ := List.mem_map.mp hinx
  obtain ⟨other, hother, heq⟩ := List.mem_map.mp hiny
  exact hne (((hapart x hx).1 issue hissue).step_eq ((hapart y hy).1 other hother) heq.symm)

theorem nodup_paths_failsUnless (test : Bool) (path : ValuePath) (reason : String) :
    ((failsUnless test path reason).map ValueIssue.path).Nodup := by
  cases test <;> simp [failsUnless]

theorem nodup_indices {α : Type} (xs : List α) :
    (xs.zipIdx.map fun x => Key.int x.2).Nodup := by
  have hrange : (xs.zipIdx.map fun x => Key.int x.2) =
      (List.range' 0 xs.length).map fun index : Nat => Key.int index := by
    rw [← List.zipIdx_map_snd, List.map_map]
    rfl
  rw [hrange]
  exact List.Nodup.map (fun i j h => Int.ofNat.inj (Key.int.inj h)) List.nodup_range'

theorem nodup_paths_array {items : Model} (good : Good items)
    (ih : ∀ {element : Value}, element.distinctKeys = true → ∀ path,
      ((items.failures element path).map ValueIssue.path).Nodup)
    {value : Value} (hv : value.distinctKeys = true) (path : ValuePath) :
    (((array items).failures value path).map ValueIssue.path).Nodup := by
  rw [failures]
  cases helements : value.items? with
  | none => exact nodup_paths_failsUnless false path _
  | some elements =>
      have hapart : ∀ x ∈ elements.zipIdx,
          Apart path (.int x.2) (items.failures x.1 (path.child (.int x.2))) := by
        intro x hx
        have hkeys := Value.distinctKeys_of_mem_items hv helements x.1
          (List.fst_mem_of_mem_zipIdx hx)
        refine ⟨fun issue hissue => ?_, ih hkeys _⟩
        exact below_of_locates (by simp [Key.isStep]) (locates_failures good hkeys _ issue hissue)
      exact nodup_paths_flatMap (nodup_indices elements) hapart

section Objects

variable {properties : List (Key × Model)} {required : List Text} {additional : Bool}
  {value : Value} {fields : List (Key × Value)}

/-- The names at which an object is looked at, each with the failures found there. -/
def visits (properties : List (Key × Model)) (required : List Text) (additional : Bool)
    (path : ValuePath) (fields : List (Key × Value)) : List (Key × List ValueIssue) :=
  (missing properties required fields).map
    (fun name => (name, failsUnless false (path.child name) "missing required property")) ++
  fields.map fun field => (field.1, fieldFailures properties additional path field)

theorem failures_object_eq_visits (hfields : value.fields? = some fields) (path : ValuePath) :
    (object properties required additional).failures value path =
      (visits properties required additional path fields).flatMap Prod.snd := by
  rw [failures_object, hfields, visits, List.flatMap_append, List.flatMap_map, List.flatMap_map]

/-- A missing name is no key, and keys do not repeat. -/
theorem nodup_visits (hnames : (properties.map Prod.fst).Nodup)
    (hfields : Entries.distinct fields = true) (path : ValuePath) :
    ((visits properties required additional path fields).map Prod.fst).Nodup := by
  have hpresent : (fields.map Prod.fst).Nodup := by
    refine List.Nodup.of_map Key.keyClass ?_
    rw [List.map_map]
    exact Entries.distinct_iff.mp hfields
  have hall : (missing properties required fields ++ fields.map Prod.fst).Nodup := by
    refine (hnames.filter _).append hpresent ?_
    -- What is missing is the name of no field.
    intro name hmissing hfield
    have habsent := (exists_name_of_mem_missing hmissing).2
    obtain ⟨field, hmem, rfl⟩ := List.mem_map.mp hfield
    rw [Entries.has_iff.mpr (Entries.mem_classes_of_mem hmem)] at habsent
    cases habsent
  simpa [visits, Function.comp_def] using hall

theorem apart_missing (path : ValuePath) :
    ∀ name ∈ missing properties required fields,
      Apart path name (failsUnless false (path.child name) "missing required property") := by
  intro name hname
  obtain ⟨⟨text, rfl⟩, -⟩ := exists_name_of_mem_missing hname
  refine ⟨fun issue hissue => ?_, nodup_paths_failsUnless false _ _⟩
  exact below_of_locates rfl (locates_failsUnless false .null _ _ issue hissue)

variable (good : ∀ entry ∈ properties, Good entry.2)
  (ih : ∀ entry ∈ properties, ∀ {item : Value}, item.distinctKeys = true → ∀ path,
    ((entry.2.failures item path).map ValueIssue.path).Nodup)

include good ih in
/-- All issues of a field lie below its key. -/
theorem apart_fieldFailures (path : ValuePath) {field : Key × Value}
    (hstep : field.1.isStep = true) (hkeys : field.2.distinctKeys = true) :
    Apart path field.1 (fieldFailures properties additional path field) := by
  constructor
  · intro issue hissue
    have hlocates := locates_fieldFailures
      (fun entry hentry => locates_failures (good entry hentry)) path hkeys issue hissue
    exact below_of_locates hstep hlocates
  · rw [fieldFailures]
    cases hfound : Entries.findLast? properties field.1 with
    | none => exact nodup_paths_failsUnless additional _ _
    | some property =>
        obtain ⟨key, hmem⟩ := Entries.mem_of_findLast? hfound
        exact ih _ hmem hkeys _

include good ih in
/-- Issues of different visits differ in their first step, issues of one visit below it. -/
theorem nodup_paths_object (hnames : (properties.map Prod.fst).Nodup)
    (hv : value.distinctKeys = true) (path : ValuePath) :
    (((object properties required additional).failures value path).map ValueIssue.path).Nodup := by
  cases hfields : value.fields? with
  | none =>
      rw [failures_object, hfields]
      exact nodup_paths_failsUnless false path _
  | some fields =>
      have hapart : ∀ visit ∈ visits properties required additional path fields,
          Apart path visit.1 visit.2 := by
        intro visit hvisit
        rcases List.mem_append.mp hvisit with hmem | hmem
        · obtain ⟨name, hname, rfl⟩ := List.mem_map.mp hmem
          exact apart_missing path name hname
        · obtain ⟨field, hfield, rfl⟩ := List.mem_map.mp hmem
          obtain ⟨hstep, hkeys, -⟩ := member?_field hv hfields hfield
          exact apart_fieldFailures good ih path hstep hkeys
      have hdistinct := (Value.distinct_of_fields hv hfields).1
      rw [failures_object_eq_visits hfields]
      exact nodup_paths_flatMap (nodup_visits hnames hdistinct path) hapart

end Objects

/-- Where each place is looked at once, no two failures have the same path. -/
theorem nodup_paths_failures {model : Model} (h : Good model) (honce : model.Throughout LooksOnce)
    {value : Value} (hv : value.distinctKeys = true) (path : ValuePath) :
    ((model.failures value path).map ValueIssue.path).Nodup := by
  induction h generalizing value path with
  | unknown =>
      rw [failures]
      exact List.nodup_nil
  | never | null | boolean | number | string | literal | enum | oneOf | anyOf =>
      rw [failures]
      exact nodup_paths_failsUnless _ path _
  | array good ih => exact nodup_paths_array good (ih honce.items) hv path
  | object good declared ih =>
      exact nodup_paths_object good (fun entry hmem => ih entry hmem (honce.property hmem))
        honce.self hv path
  | allOf nonempty good ih =>
      -- Two branches could fail at one place.
      exact honce.self.elim

/-- A model without intersections, whose objects declare each name once, gives at most one issue
for each place: the issues of a validation have different paths. -/
theorem issues_have_distinct_paths [Platform] {model : Model} (h : Good model)
    (honce : model.Throughout LooksOnce) {value : Value} (hv : value.distinctKeys = true)
    (settings : ValidatorSettings) :
    ∃ result, Delivers model.Writable (model.validate value settings) result ∧
      (result.issues.map ValueIssue.path).Nodup := by
  obtain ⟨result, hresult, hsub⟩ := validate_sublist h value settings
  exact ⟨result, hresult, (nodup_paths_failures h honce hv []).sublist (hsub.map _)⟩

attribute [local instance] Platform.standard in
/-- A missing name, and a name with a dot beside a name inside a field. -/
theorem issues_have_distinct_paths_at_dotted_name :
    ∃ result,
      (object [(.str "a", .object [(.str "b", .string)] [] true),
          (.str "a.b", .anyOf [.string, .null]), (.str "c", .unknown)] ["c"] true).validate
        (Value.object [("a", Value.object [("b", .int 1)]), ("a.b", .int 1)]) ⟨false, 100⟩ =
      .ok result ∧
      result.issues.map ValueIssue.path = ["$.c", "$.a.b", "$['a.b']"] ∧
      (result.issues.map ValueIssue.path).Nodup := by
  have hinner : Good (.object [(.str "b", .string)] [] true) :=
    .object (by simp [Good.string]) (by decide)
  have hunion : Good (.anyOf [.string, .null]) :=
    .anyOf (by decide) (by simp [Good.string, Good.null])
  have hgood : Good (.object [(.str "a", .object [(.str "b", .string)] [] true),
      (.str "a.b", .anyOf [.string, .null]), (.str "c", .unknown)] ["c"] true) :=
    .object (by simp [hinner, hunion, Good.unknown]) (by decide)
  have honce : (object [(.str "a", .object [(.str "b", .string)] [] true),
      (.str "a.b", .anyOf [.string, .null]), (.str "c", .unknown)] ["c"] true).Throughout
        LooksOnce := by
    simp [Throughout, parts, partsOfProperties, partsOfBranches, LooksOnce]
  obtain ⟨result, hresult, hnodup⟩ := issues_have_distinct_paths hgood honce
    (show (Value.object [("a", Value.object [("b", .int 1)]),
      ("a.b", .int 1)]).distinctKeys = true by decide) ⟨false, 100⟩
  have hpaths : ((object [(.str "a", .object [(.str "b", .string)] [] true),
      (.str "a.b", .anyOf [.string, .null]), (.str "c", .unknown)] ["c"] true).validate
        (Value.object [("a", Value.object [("b", .int 1)]), ("a.b", .int 1)])
          ⟨false, 100⟩).toOption.map (·.issues.map ValueIssue.path) =
      some ["$.c", "$.a.b", "$['a.b']"] := by
    decide +kernel
  have hrun := hresult.eq_of_writable (by decide)
  rw [hrun] at hpaths
  exact ⟨result, hrun, Option.some.inj hpaths, hnodup⟩

end Model

end SchemaModel
