import SchemaModel.Proofs.Model.Good
import SchemaModel.Schema.Resolve

/-!
# What a schema says

`Value.satisfies` reads a schema directly, by recursion on the document and with no model in
between: a flag permits everything or nothing, and the deciding keyword of a node says which values
it permits.  What cannot be used constrains nothing.  The lemmas restate the reading for each
`Directive`.
-/

namespace SchemaModel

/-! ## The parts of a node -/

/-- The deciding keyword of a node and its argument: the first keyword present, in the order of
precedence. -/
def decidingKeyword? (entries : List (Key × Value)) : Option (String × Value) :=
  ["const", "enum", "oneOf", "anyOf", "allOf", "type"].findSome? fun (keyword : String) =>
    (Entries.get? entries keyword).map (keyword, ·)

/-- The schemas listed under a keyword; an argument that is not a list lists none. -/
def listedSchemas (entries : List (Key × Value)) (keyword : String) : List Value :=
  match Entries.get? entries keyword with
  | some (.list schemas) => schemas
  | _ => []

/-- The schema of the elements of an array; a list of schemas is not one. -/
def itemSchema? (entries : List (Key × Value)) : Option Value :=
  match Entries.get? entries "items" with
  | some (.list _) => none
  | found => found

/-- The declared properties of an object with their schemas. -/
def declaredSchemas (entries : List (Key × Value)) : List (Key × Value) :=
  match Entries.get? entries "properties" with
  | some (.mapping _ properties) => properties
  | _ => []

/-- The names that an object must have, if they are given by a list of names. -/
def neededNames (entries : List (Key × Value)) : List Text :=
  match Entries.get? entries "required" with
  | some (.list names) => (names.mapM Value.text?).getD []
  | _ => []

/-- Whether an object is closed to keys that it does not declare. -/
def isClosed (entries : List (Key × Value)) : Bool :=
  match Entries.get? entries "additionalProperties" with
  | some (.bool false) => true
  | _ => false

theorem sizeOf_lt_of_mem_listedSchemas {entries : List (Key × Value)} {keyword : String}
    {schema : Value} (h : schema ∈ listedSchemas entries keyword) :
    sizeOf schema < sizeOf entries := by
  rw [listedSchemas] at h
  split at h
  · next schemas hfound =>
    have houter := sizeOf_lt_of_get? hfound
    have hinner := List.sizeOf_lt_of_mem h
    simp only [Value.list.sizeOf_spec] at houter
    omega
  · cases h

theorem sizeOf_lt_of_itemSchema? {entries : List (Key × Value)} {schema : Value}
    (h : itemSchema? entries = some schema) : sizeOf schema < sizeOf entries := by
  rw [itemSchema?] at h
  split at h
  · cases h
  · exact sizeOf_lt_of_get? h

theorem sizeOf_lt_of_mem_declaredSchemas {entries : List (Key × Value)} {entry : Key × Value}
    (h : entry ∈ declaredSchemas entries) : sizeOf entry.2 < sizeOf entries := by
  rw [declaredSchemas] at h
  split at h
  · next properties hfound =>
    have houter := sizeOf_lt_of_get? hfound
    have hinner := List.sizeOf_lt_of_mem h
    simp only [Value.mapping.sizeOf_spec] at houter
    have hpart : sizeOf entry.2 < sizeOf entry := by
      cases entry
      simp only [Prod.mk.sizeOf_spec]
      omega
    omega
  · cases h

theorem itemSchema?_eq_some {entries : List (Key × Value)} {items : Value}
    (h : Entries.get? entries "items" = some items) (hother : ∀ schemas, items ≠ .list schemas) :
    itemSchema? entries = some items := by
  rw [itemSchema?, h]
  cases items with
  | list schemas => exact absurd rfl (hother schemas)
  | _ => rfl

theorem declaredSchemas_eq_nil {entries : List (Key × Value)}
    (h : ∀ form properties, Entries.get? entries "properties" ≠ some (.mapping form properties)) :
    declaredSchemas entries = [] := by
  rw [declaredSchemas]
  split
  · next form properties hfound => exact absurd hfound (h form properties)
  · rfl

/-! ## The direct reading -/

/-- Whether a value satisfies a schema. -/
def Value.satisfies (schema value : Value) : Bool :=
  match schema with
  | .bool flag => flag
  | .mapping _ entries =>
    match decidingKeyword? entries with
    | some ("const", expected) => !expected.isJson || value.jsonEqual expected
    | some ("enum", .list members) =>
      !members.all Value.isJson || members.any (value.jsonEqual ·)
    | some ("oneOf", _) =>
      let answers := (listedSchemas entries "oneOf").attach.map fun ⟨variant, _⟩ =>
        variant.satisfies value
      answers.isEmpty || answers.countP id = 1
    | some ("anyOf", _) =>
      let answers := (listedSchemas entries "anyOf").attach.map fun ⟨variant, _⟩ =>
        variant.satisfies value
      answers.isEmpty || answers.any id
    | some ("allOf", _) =>
      let answers := (listedSchemas entries "allOf").attach.map fun ⟨variant, _⟩ =>
        variant.satisfies value
      answers.all id
    | some ("type", .str (.plain "string")) => value.kind? = some .string
    | some ("type", .str (.plain "integer")) => value.kind? = some .number
    | some ("type", .str (.plain "number")) => value.kind? = some .number
    | some ("type", .str (.plain "boolean")) => value.kind? = some .boolean
    | some ("type", .str (.plain "null")) => value.kind? = some .null
    | some ("type", .str (.plain "array")) =>
      match value.items? with
      | none => false
      | some elements =>
        elements.all fun element =>
          (itemSchema? entries).attach.all fun ⟨items, _⟩ => items.satisfies element
    | some ("type", .str (.plain "object")) =>
      match value.fields? with
      | none => false
      | some fields =>
        let declared := declaredSchemas entries
        -- A required name that is not declared asks for nothing.
        ((neededNames entries).all fun name =>
          !Entries.has declared (.str name) || Entries.has fields (.str name)) &&
        (declared.attach.all fun ⟨entry, _⟩ =>
          match Entries.find? fields entry.1 with
          | none => true
          | some item => entry.2.satisfies item) &&
        (!isClosed entries || fields.all fun field => Entries.has declared field.1)
    | _ => true
  | _ => true
termination_by sizeOf schema
decreasing_by
  · have smaller := sizeOf_lt_of_mem_listedSchemas ‹_ ∈ listedSchemas entries _›
    simp_wf
    omega
  · have smaller := sizeOf_lt_of_mem_listedSchemas ‹_ ∈ listedSchemas entries _›
    simp_wf
    omega
  · have smaller := sizeOf_lt_of_mem_listedSchemas ‹_ ∈ listedSchemas entries _›
    simp_wf
    omega
  · have smaller := sizeOf_lt_of_itemSchema? ‹_›
    simp_wf
    omega
  · have smaller := sizeOf_lt_of_mem_declaredSchemas ‹_ ∈ declaredSchemas entries›
    simp_wf
    omega

/-! ## The reading of each directive -/

/-- The keyword of a directive and its argument. -/
def Directive.keyword? : Directive → Option (String × Value)
  | .const value => some ("const", value)
  | .enum values => some ("enum", values)
  | .combine combinator variants => some (combinator.keyword, variants)
  | .type name => some ("type", name)
  | .absent => none

theorem decidingKeyword?_eq (entries : List (Key × Value)) :
    decidingKeyword? entries = (directive entries).keyword? := by
  rw [decidingKeyword?, directive]
  repeat' split
  all_goals simp_all [List.findSome?, Directive.keyword?, Combinator.keyword]

theorem get?_of_directive {entries : List (Key × Value)} {keyword : String} {argument : Value}
    (h : (directive entries).keyword? = some (keyword, argument)) :
    Entries.get? entries keyword = some argument := by
  rw [← decidingKeyword?_eq, decidingKeyword?] at h
  obtain ⟨name, -, hname⟩ := List.exists_of_findSome?_eq_some h
  obtain ⟨found, hfound, heq⟩ := Option.map_eq_some_iff.mp hname
  cases heq
  exact hfound

section Readings

variable {form : MappingForm} {entries : List (Key × Value)}

theorem satisfies_const {expected : Value} (h : directive entries = .const expected)
    (v : Value) :
    (Value.mapping form entries).satisfies v = (!expected.isJson || v.jsonEqual expected) := by
  rw [Value.satisfies, decidingKeyword?_eq, h]
  rfl

theorem satisfies_absent (h : directive entries = .absent) (v : Value) :
    (Value.mapping form entries).satisfies v = true := by
  rw [Value.satisfies, decidingKeyword?_eq, h]
  rfl

/-- With usable variants a combinator means what its truth table says of them. -/
theorem satisfies_combine {combinator : Combinator} {first : Value} {rest : List Value}
    (h : directive entries = .combine combinator (.list (first :: rest))) (v : Value) :
    (Value.mapping form entries).satisfies v =
      combinator.holds ((first :: rest).map (·.satisfies v)) := by
  have hlisted : listedSchemas entries combinator.keyword = first :: rest := by
    rw [listedSchemas, get?_of_directive_combine h]
  have hanswers : ((listedSchemas entries combinator.keyword).attach.map fun x => x.1.satisfies v) =
      (first :: rest).map (·.satisfies v) := by
    rw [List.attach_map_val (f := fun schema : Value => schema.satisfies v), hlisted]
  rw [Value.satisfies, decidingKeyword?_eq, h]
  cases combinator <;>
    · simp only [Directive.keyword?, Combinator.keyword] at hanswers ⊢
      rw [hanswers]
      rfl

/-- A combinator without usable variants constrains nothing. -/
theorem satisfies_combine_unusable {combinator : Combinator} {variants : Value}
    (h : directive entries = .combine combinator variants)
    (hnone : ∀ first rest, variants ≠ .list (first :: rest)) (v : Value) :
    (Value.mapping form entries).satisfies v = true := by
  have hlisted : listedSchemas entries combinator.keyword = [] := by
    rw [listedSchemas, get?_of_directive_combine h]
    cases variants with
    | list schemas =>
        cases schemas with
        | nil => rfl
        | cons first rest => exact absurd rfl (hnone first rest)
    | _ => rfl
  rw [Value.satisfies, decidingKeyword?_eq, h]
  cases combinator <;>
    · simp only [Directive.keyword?, Combinator.keyword] at hlisted ⊢
      simp [hlisted]

theorem satisfies_enum_list {members : List Value} (h : directive entries = .enum (.list members))
    (v : Value) :
    (Value.mapping form entries).satisfies v =
      (!members.all Value.isJson || members.any (v.jsonEqual ·)) := by
  rw [Value.satisfies, decidingKeyword?_eq, h]
  rfl

theorem satisfies_enum_unusable {values : Value} (h : directive entries = .enum values)
    (hnone : ∀ members, values ≠ .list members) (v : Value) :
    (Value.mapping form entries).satisfies v = true := by
  rw [Value.satisfies, decidingKeyword?_eq, h]
  cases values with
  | list members => exact absurd rfl (hnone members)
  | _ => rfl

theorem satisfies_type_unusable {name : Value} (h : directive entries = .type name)
    (hnone : ∀ text, name = .str text → TypeName.ofName? text = none) (v : Value) :
    (Value.mapping form entries).satisfies v = true := by
  rw [Value.satisfies, decidingKeyword?_eq, h]
  cases name with
  | str text =>
      have hname := hnone text rfl
      simp only [TypeName.ofName?] at hname
      simp only [Directive.keyword?]
      split <;> simp_all
  | _ => rfl

/-- The kind that a type without parts asks for. -/
def TypeName.kind? : TypeName → Option Kind
  | .string => some .string
  | .number => some .number
  | .boolean => some .boolean
  | .null => some .null
  | .array => none
  | .object => none

theorem satisfies_type_kind {name : Text} {type : TypeName} {kind : Kind}
    (h : directive entries = .type (.str name)) (hname : TypeName.ofName? name = some type)
    (hkind : type.kind? = some kind) (v : Value) :
    (Value.mapping form entries).satisfies v = decide (v.kind? = some kind) := by
  rw [Value.satisfies, decidingKeyword?_eq, h]
  rw [TypeName.ofName?] at hname
  split_ifs at hname with h₁ h₂ h₃ h₄ h₅ h₆
  all_goals cases hname
  all_goals cases hkind
  · rw [h₁]; rfl
  · rcases h₂ with rfl | rfl <;> rfl
  · rw [h₃]; rfl
  · rw [h₄]; rfl

theorem TypeName.eq_of_ofName?_array {name : Text} (h : TypeName.ofName? name = some .array) :
    name = "array" := by
  rw [TypeName.ofName?] at h
  split_ifs at h <;> first | assumption | cases h

theorem TypeName.eq_of_ofName?_object {name : Text} (h : TypeName.ofName? name = some .object) :
    name = "object" := by
  rw [TypeName.ofName?] at h
  split_ifs at h <;> first | assumption | cases h

/-- An array node speaks of all elements, or of none if its items are unusable. -/
theorem satisfies_array {name : Text} (h : directive entries = .type (.str name))
    (hname : TypeName.ofName? name = some .array) (v : Value) :
    (Value.mapping form entries).satisfies v =
      match v.items? with
      | none => false
      | some elements => elements.all fun element =>
          (itemSchema? entries).all (·.satisfies element) := by
  have hattach : ∀ (found : Option Value) (f : Value → Bool),
      (found.attach.all fun x => f x.1) = found.all f := by
    intro found f
    cases found <;> rfl
  rw [Value.satisfies, decidingKeyword?_eq, h, TypeName.eq_of_ofName?_array hname]
  simp only [Directive.keyword?]
  cases v.items? with
  | none => rfl
  | some elements =>
      exact congrArg elements.all (funext fun element => hattach _ (·.satisfies element))

/-- What an object node says, field by field. -/
theorem satisfies_object_iff {name : Text} (h : directive entries = .type (.str name))
    (hname : TypeName.ofName? name = some .object) (v : Value) :
    (Value.mapping form entries).satisfies v = true ↔
      ∃ fields, v.fields? = some fields ∧
        (∀ needed ∈ neededNames entries,
          Entries.has (declaredSchemas entries) (.str needed) = true →
            Entries.has fields (.str needed) = true) ∧
        (∀ entry ∈ declaredSchemas entries, ∀ item, Entries.find? fields entry.1 = some item →
          entry.2.satisfies item = true) ∧
        (isClosed entries = true → ∀ field ∈ fields,
          Entries.has (declaredSchemas entries) field.1 = true) := by
  rw [Value.satisfies, decidingKeyword?_eq, h, TypeName.eq_of_ofName?_object hname]
  simp only [Directive.keyword?]
  cases v.fields? with
  | none => simp
  | some fields =>
      have himp : ∀ a b : Bool, (!a || b) = true ↔ (a = true → b = true) := by decide
      simp only [Option.some.injEq, exists_eq_left', Bool.and_eq_true, himp, List.all_eq_true,
        and_assoc]
      refine and_congr_right fun _ => and_congr_left fun _ => ?_
      refine ⟨fun hall entry hmem item hfound => ?_, fun hall entry _ => ?_⟩
      · have hitem := hall ⟨entry, hmem⟩ (List.mem_attach _ _)
        rwa [hfound] at hitem
      · cases hfound : Entries.find? fields entry.1.1 with
        | none => rfl
        | some item => exact hall entry.1 entry.2 item hfound

end Readings

end SchemaModel
