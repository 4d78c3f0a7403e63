import SchemaModel.Proofs.Schema.Coupling

/-!
# Strict reading

Strict reading is lenient reading stopped at the first malformed part.  The two runs go in step: as
long as the lenient run has noted nothing malformed, both have the same result so far; from the
first such note on, the strict run has stopped with its message and place, whatever the lenient run
meets later.
-/

namespace SchemaModel

/-- The first issue about a malformed part. -/
def firstMalformed? (issues : List SchemaIssue) : Option SchemaIssue :=
  issues.find? fun issue => issue.code = .malformedSchema

theorem firstMalformed?_append (before after : List SchemaIssue) :
    firstMalformed? (before ++ after) = (firstMalformed? before).or (firstMalformed? after) :=
  List.find?_append

namespace Resolution

variable {α β : Type}

/-- How a strict run stands to a lenient one. -/
inductive StopsEarlier {α : Type} : Resolution α → Resolution α → Prop
  | clean {found : α × List SchemaIssue} (h : firstMalformed? found.2 = none) :
      StopsEarlier (.ok found) (.ok found)
  | malformed {found : α × List SchemaIssue} {issue : SchemaIssue}
      (h : firstMalformed? found.2 = some issue) :
      StopsEarlier (.ok found) (.error (.malformed issue.message issue.path))
  | together (stop : Stop) : StopsEarlier (.error stop) (.error stop)
  | before (stop : Stop) (message path : Text) :
      StopsEarlier (.error stop) (.error (.malformed message path))

/-- A malformed part in the first step stops strict reading before the second. -/
theorem StopsEarlier.bind {x x' : Resolution α} {f f' : α → Resolution β}
    (hx : StopsEarlier x x') (hf : ∀ a, StopsEarlier (f a) (f' a)) :
    StopsEarlier (x >>= f) (x' >>= f') := by
  cases hx with
  | together stop => exact .together stop
  | before stop message path => exact .before stop message path
  | @malformed found issue h =>
      -- The strict run has stopped already, so it does not matter what comes next.
      simp only [Bind.bind]
      cases f found.1 with
      | error stop => exact .before stop _ _
      | ok next =>
          apply StopsEarlier.malformed
          rw [firstMalformed?_append, h, Option.some_or]
  | @clean found h =>
      have hnext := hf found.1
      have happend : ∀ later, firstMalformed? (found.2 ++ later) = firstMalformed? later := by
        intro later
        rw [firstMalformed?_append, h, Option.none_or]
      simp only [Bind.bind]
      generalize f found.1 = y at hnext
      generalize f' found.1 = y' at hnext
      cases hnext with
      | clean hlater => exact .clean ((happend _).trans hlater)
      | malformed hlater => exact .malformed ((happend _).trans hlater)
      | together stop => exact .together stop
      | before stop message path => exact .before stop message path

end Resolution

open Resolution

/-- Lenient and strict reading in step. -/
def strictCoupling (limit : Nat) (report : Bool) :
    Coupling ⟨limit, false, report⟩ ⟨limit, true, report⟩ where
  rel := StopsEarlier
  rel_pure a := .clean rfl
  rel_bind := StopsEarlier.bind
  rel_ofFault made := by
    cases made with
    | error cause => exact .together _
    | ok a => exact .clean rfl
  rel_malformed place message :=
    @StopsEarlier.malformed Unit ((), [⟨.malformedSchema, .warning, message, place.text⟩]) _ rfl
  rel_unsupported place message := by
    rw [ResolverSettings.unsupported, ResolverSettings.unsupported]
    split <;> exact .clean rfl
  rel_bounded place depth h := by
    rw [ResolverSettings.bounded, ResolverSettings.bounded]
    split
    · exact .together _
    · exact h

theorem stopsEarlier_resolve [Platform] (schema : Value) (limit : Nat) (report : Bool) :
    StopsEarlier (resolveNode ⟨limit, false, report⟩ schema [] 0)
      (resolveNode ⟨limit, true, report⟩ schema [] 0) :=
  (strictCoupling limit report).rel_resolveNode schema [] 0

/-- Strict reading returns what lenient reading returns when nothing is malformed, stops with the
first malformed part otherwise, and where lenient reading stops at the depth ceiling stops there or
at a malformed part before it. -/
theorem strict_stops_at_first_malformed [Platform] (schema : Value) (limit : Nat)
    (report : Bool) :
    (∀ result, resolve schema ⟨limit, false, report⟩ = .ok result →
      (∀ issue ∈ result.issues, issue.code ≠ .malformedSchema) →
      resolve schema ⟨limit, true, report⟩ = .ok result) ∧
    (∀ result, resolve schema ⟨limit, false, report⟩ = .ok result →
      (∃ issue ∈ result.issues, issue.code = .malformedSchema) →
      ∃ first stop, firstMalformed? result.issues = some first ∧
        resolve schema ⟨limit, true, report⟩ = .error stop ∧
        stop = .malformed first.message first.path ∧
        stop.message = first.message ++ " (at " ++ first.path ++ ")") ∧
    (∀ path ceiling, resolve schema ⟨limit, false, report⟩ = .error (.tooDeep path ceiling) →
      resolve schema ⟨limit, true, report⟩ = .error (.tooDeep path ceiling) ∨
      ∃ message place, resolve schema ⟨limit, true, report⟩ =
        .error (.malformed message place)) := by
  have hstep := stopsEarlier_resolve schema limit report
  simp only [resolve]
  generalize resolveNode ⟨limit, false, report⟩ schema [] 0 = lenient at hstep
  generalize resolveNode ⟨limit, true, report⟩ schema [] 0 = strict at hstep
  cases hstep with
  | @clean found h =>
      have hnone : ∀ issue ∈ found.2, issue.code ≠ .malformedSchema := by
        simpa [firstMalformed?] using h
      refine ⟨?_, ?_, ?_⟩
      · intro result hresult _
        exact hresult
      · rintro result hresult ⟨issue, hmem, hcode⟩
        cases hresult
        exact absurd hcode (hnone issue hmem)
      · intro path ceiling hstop
        cases hstop
  | @malformed found first h =>
      refine ⟨?_, ?_, ?_⟩
      · intro result hresult hclean
        cases hresult
        have hmem := List.mem_of_find?_eq_some h
        have hcode := List.find?_some h
        exact absurd (of_decide_eq_true hcode) (hclean first hmem)
      · intro result hresult _
        cases hresult
        exact ⟨first, _, h, rfl, rfl, rfl⟩
      · intro path ceiling hstop
        cases hstop
  | together stop =>
      refine ⟨?_, ?_, ?_⟩
      · intro result hresult
        cases hresult
      · intro result hresult
        cases hresult
      · intro path ceiling hstop
        exact .inl hstop
  | before stop message place =>
      refine ⟨?_, ?_, ?_⟩
      · intro result hresult
        cases hresult
      · intro result hresult
        cases hresult
      · intro path ceiling _
        exact .inr ⟨message, place, rfl⟩

attribute [local instance] Platform.standard in
/-- A document with nothing malformed, one with a malformed part behind an unsupported one, and one
that nests below the ceiling behind a malformed part. -/
theorem strict_stops_in_documents :
    (∃ result, resolve (.mapping .dict [(.str "x", .null), (.str "type", .str "null")])
        ⟨9, false, true⟩ = .ok result ∧
      resolve (.mapping .dict [(.str "x", .null), (.str "type", .str "null")]) ⟨9, true, true⟩ =
        .ok result) ∧
    resolve (.mapping .dict [(.str "anyOf", .list [.mapping .dict [(.str "type", .str "tuple")],
        .mapping .dict [(.str "enum", .list [])], .int 5])]) ⟨9, true, true⟩ =
      .error (.malformed "enum is empty, no value can match" "#/anyOf/1/enum") ∧
    (resolve (.mapping .dict [(.str "anyOf",
        .list [.int 5, .mapping .dict [(.str "anyOf", .list [.null])]])])
        ⟨1, true, true⟩ = .error (.tooDeep "#/anyOf/1/anyOf/0" 1) ∨
      ∃ message place, resolve (.mapping .dict
          [(.str "anyOf", .list [.int 5, .mapping .dict [(.str "anyOf", .list [.null])]])])
        ⟨1, true, true⟩ = .error (.malformed message place)) := by
  have hclean : resolve (.mapping .dict [(.str "x", .null), (.str "type", .str "null")])
      ⟨9, false, true⟩ = .ok ⟨.null, [⟨.unsupportedKeyword, .info,
        "keyword 'x' is not supported and was ignored", Pointer.text ["x"]⟩]⟩ := by
    simp [resolve, resolveNode, reportKeywords, isKnownKeyword, supportedKeywords,
      annotationKeywords, each, directive, Entries.get?, TypeName.ofName?, Pointer.child,
      keyText_str, ResolverSettings.unsupported, note, bind, pure, Except.map]
  have hmalformed : resolve (.mapping .dict [(.str "anyOf",
      .list [.mapping .dict [(.str "type", .str "tuple")],
      .mapping .dict [(.str "enum", .list [])], .int 5])]) ⟨9, false, true⟩ =
      .ok ⟨.anyOf [.unknown, .never, .unknown],
        [⟨.unsupportedKeyword, .info, "type 'tuple' is not supported", "#/anyOf/0/type"⟩,
         ⟨.malformedSchema, .warning, "enum is empty, no value can match", "#/anyOf/1/enum"⟩,
         ⟨.malformedSchema, .warning, "schema must be an object or boolean, got int",
          "#/anyOf/2"⟩]⟩ := by
    have hzero : Pointer.text ["anyOf", wholeText 0, "type"] = "#/anyOf/0/type" := by
      decide +kernel
    have hone : Pointer.text ["anyOf", wholeText 1, "enum"] = "#/anyOf/1/enum" := by decide +kernel
    have htwo : Pointer.text ["anyOf", wholeText 2] = "#/anyOf/2" := by decide +kernel
    simp [resolve, resolveNode, reportKeywords, isKnownKeyword, supportedKeywords, each, directive,
      Entries.get?, TypeName.ofName?, Pointer.child, Pointer.item, Combinator.keyword,
      ResolverSettings.unsupported, ResolverSettings.malformed, resolveEnum, note, ofFault,
      joinVariants, Model.combine, List.findSome?, Model.stray?, Model.wrap, hzero, hone, htwo,
      Value.typeName, bind, pure, Except.map]
  have hdeep : resolve (.mapping .dict
        [(.str "anyOf", .list [.int 5, .mapping .dict [(.str "anyOf", .list [.null])]])])
      ⟨1, false, true⟩ = .error (.tooDeep "#/anyOf/1/anyOf/0" 1) := by
    have hplace : Pointer.text ["anyOf", wholeText 1, "anyOf", wholeText 0] =
        "#/anyOf/1/anyOf/0" := by decide +kernel
    simp [resolve, resolveNode, reportKeywords, isKnownKeyword, supportedKeywords, each, directive,
      Entries.get?, Pointer.child, Pointer.item, Combinator.keyword, ResolverSettings.malformed,
      note, stop, hplace, bind, pure, Except.map]
  refine ⟨⟨_, hclean, ?_⟩, ?_, ?_⟩
  · exact (strict_stops_at_first_malformed _ 9 true).1 _ hclean (by simp)
  · obtain ⟨first, stop, hfirst, hstop, rfl, -⟩ :=
      (strict_stops_at_first_malformed _ 9 true).2.1 _ hmalformed (by simp)
    cases hfirst
    exact hstop
  · exact (strict_stops_at_first_malformed _ 1 true).2.2 _ _ hdeep

end SchemaModel
