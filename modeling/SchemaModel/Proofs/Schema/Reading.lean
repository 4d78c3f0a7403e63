import SchemaModel.Proofs.Schema.Meaning
import SchemaModel.Proofs.Value.Height

/-!
# Reading a node by its directive

`resolveNode` reads the schemas below a node by calling itself.  Here the calls are made a
parameter: `readDirective` reads a node whose directive is known and asks a `Reader` for the schemas
below it, keyword by keyword, and `resolveNode_mapping` says that reading is `readDirective` applied
to reading itself.  The schemas that a node asks for are its `Value.subschemas`, along which
`schemaInduction` goes down a document.
-/

namespace SchemaModel

/-- A way of reading the schema at a place and a depth. -/
abbrev Reader := Value → Pointer → Nat → Resolution Model

/-- Goes on with a part that stands or reaches down to a depth, unless that is below the ceiling. -/
def ResolverSettings.bounded {α : Type} (settings : ResolverSettings) (place : Pointer)
    (depth : Nat) (go : Resolution α) : Resolution α :=
  if settings.maxDepth < depth then .stop (.tooDeep place.text settings.maxDepth) else go

section Readers

variable [Platform] (settings : ResolverSettings) (read : Reader)

/-- Reads the variants of a combinator and joins them. -/
def readVariants (combinator : Combinator) (variants : Value) (place : Pointer) (depth : Nat) :
    Resolution Model :=
  let place := place.child combinator.keyword
  match variants with
  | .list (first :: rest) => do
    let models ← Resolution.each
      (fun (variant, index) => read variant (place.item index) (depth + 1)) (first :: rest).zipIdx
    .ofFault (joinVariants (.node place) combinator models)
  | _ => do
    settings.malformed place (combinator.keyword ++ " must be a non-empty list of schemas")
    pure .unknown

/-- Reads the schema of the elements of an array. -/
def readItems (entries : List (Key × Value)) (place : Pointer) (depth : Nat) : Resolution Model :=
  match Entries.get? entries "items" with
  | none => pure (.array .unknown)
  | some (.list _) => do
    settings.unsupported (place.child "items") "tuple-form items are not supported"
    pure (.array .unknown)
  | some items => do
    let model ← read items (place.child "items") (depth + 1)
    pure (.array model)

/-- Reads the declared properties of an object. -/
def readProperties (entries : List (Key × Value)) (place : Pointer) (depth : Nat) :
    Resolution (List (Key × Model)) :=
  match Entries.get? entries "properties" with
  | none => pure []
  | some (.mapping _ properties) =>
    Resolution.each
      (fun entry => do
        let place := (place.child "properties").child (← keyText entry.1)
        let model ← read entry.2 place (depth + 1)
        pure (entry.1, model))
      properties
  | some _ => do
    settings.malformed (place.child "properties") "properties must be an object"
    pure []

/-- The names that an object node requires; names given in another form are reported. -/
def readRequired (entries : List (Key × Value)) (place : Pointer) : Resolution (List Text) :=
  match (Entries.get? entries "required").map requiredNames? with
  | none => pure []
  | some (some names) => pure names
  | some none => do
    settings.malformed place "required must be a list of property names"
    pure []

/-- The names among those declared; the others are reported. -/
def keepDeclared (place : Pointer) (declared : List (Key × Model)) (names : List Text) :
    Resolution (List Text) := do
  let kept ← Resolution.each
    (fun name => do
      if Entries.has declared (.str name) then pure [name]
      else
        settings.malformed place
          ("required property '" ++ name ++ "' is not declared in properties")
        pure [])
    names
  pure kept.flatten

/-- Reads a node that a type decides. -/
def readType (entries : List (Key × Value)) (name : Value) (place : Pointer) (depth : Nat) :
    Resolution Model :=
  match name with
  | .str name =>
    match TypeName.ofName? name with
    | some .string => pure .string
    | some .number => pure .number
    | some .boolean => pure .boolean
    | some .null => pure .null
    | some .array => readItems settings read entries place depth
    | some .object => do
      let properties ← readProperties settings read entries place depth
      let required ← resolveRequired settings entries place properties
      .ofFault (Model.ofObject properties required (allowsAdditional entries))
    | none => do
      settings.unsupported (place.child "type") ("type '" ++ name ++ "' is not supported")
      pure .unknown
  | _ => do
    settings.unsupported (place.child "type") "type must be a single type name"
    pure .unknown

/-- Reads a node by its directive. -/
def readDirective (entries : List (Key × Value)) (place : Pointer) (depth : Nat) :
    Directive → Resolution Model
  | .const value => resolveConst settings value (place.child "const") depth
  | .enum values => resolveEnum settings values (place.child "enum") depth
  | .combine combinator variants => readVariants settings read combinator variants place depth
  | .type name => readType settings read entries name place depth
  | .absent => pure .unknown

end Readers

/-! ## Reading is reading by directives -/

namespace Resolution

variable {α β : Type}

theorem pure_bind (a : α) (f : α → Resolution β) : pure a >>= f = f a := by
  simp only [bind, pure]
  cases f a <;> rfl

theorem bind_assoc {γ : Type} (x : Resolution α) (f : α → Resolution β) (g : β → Resolution γ) :
    x >>= f >>= g = x >>= fun a => f a >>= g := by
  cases x with
  | error stop => rfl
  | ok found =>
      obtain ⟨a, before⟩ := found
      simp only [bind]
      cases f a with
      | error stop => rfl
      | ok next =>
          obtain ⟨b, after⟩ := next
          simp only
          cases g b with
          | error stop => rfl
          | ok last =>
              simp only [List.append_assoc]
              rfl

theorem each_map {γ : Type} (f : β → Resolution γ) (g : α → β) (xs : List α) :
    each f (xs.map g) = each (fun x => f (g x)) xs := by
  induction xs with
  | nil => rfl
  | cons x xs ih => rw [List.map_cons, each, each, ih]

theorem each_attach (f : α → Resolution β) (xs : List α) :
    each (fun x => f x.1) xs.attach = each f xs := by
  rw [← each_map f Subtype.val, List.attach_map_subtype_val]

theorem each_attach_zipIdx (f : α → Nat → Resolution β) (xs : List α) :
    each (fun x => f x.1.1 x.2) xs.attach.zipIdx = each (fun x => f x.1 x.2) xs.zipIdx := by
  have hmap := List.zipIdx_map (f := Subtype.val) (l := xs.attach) (k := 0)
  rw [List.attach_map_subtype_val] at hmap
  rw [hmap, each_map]
  rfl

end Resolution

/-- A name is put into words on every platform. -/
theorem keyText_str [Platform] (name : Text) : keyText (.str name) = pure name :=
  rfl

section Equations

variable (settings : ResolverSettings) (place : Pointer) (depth : Nat)

theorem resolveConst_eq (value : Value) :
    resolveConst settings value place depth =
      settings.bounded place (depth + 1 + value.height)
        (if value.isJson then .ofFault (Model.ofLiteral value (.node place))
        else do
          settings.malformed place ("const must be a JSON value, got " ++ value.typeName)
          pure .unknown) := by
  rw [resolveConst, ResolverSettings.bounded]
  exact if_congr Value.not_fits_iff rfl rfl

theorem resolveEnum_eq {members : List Value} (hne : members ≠ []) :
    resolveEnum settings (.list members) place depth =
      settings.bounded place (depth + (Value.list members).height)
        (if members.all Value.isJson then .ofFault (Model.ofEnum members (.node place))
        else do
          settings.malformed place "enum must only contain JSON values"
          pure .unknown) := by
  rw [resolveEnum, ResolverSettings.bounded]
  · exact if_congr Value.not_fits_iff rfl rfl
  · exact hne

theorem resolveRequired_eq (entries : List (Key × Value)) (declared : List (Key × Model)) :
    resolveRequired settings entries place declared =
      (readRequired settings entries (place.child "required") >>=
        keepDeclared settings (place.child "required") declared) := by
  rw [resolveRequired, readRequired]
  cases Entries.get? entries "required" with
  | none => rfl
  | some names =>
      simp only [Option.map_some]
      cases requiredNames? names with
      | none => exact (Resolution.bind_assoc ..).symm
      | some names => rfl

/-- Unknown keys are reported before the deciding keyword is read. -/
theorem resolveNode_mapping [Platform] (form : MappingForm) (entries : List (Key × Value)) :
    resolveNode settings (.mapping form entries) place depth =
      settings.bounded place depth (do
        reportKeywords settings place entries
        readDirective settings (resolveNode settings) entries place depth (directive entries)) := by
  rw [resolveNode, ResolverSettings.bounded]
  congr 1
  congr 1
  funext _
  -- One case for each directive; only the definition of reading attaches the schemas below.
  split
  · next value hdirective => rw [hdirective, readDirective]
  · next values hdirective => rw [hdirective, readDirective]
  · next combinator first rest hdirective =>
    rw [hdirective, readDirective, readVariants]
    have hvariants := Resolution.each_attach_zipIdx (fun variant index => resolveNode settings
      variant ((place.child combinator.keyword).item index) (depth + 1)) (first :: rest)
    exact congrArg (· >>= _) hvariants
  · next combinator variants hother hdirective =>
    rw [hdirective, readDirective, readVariants]
    exact hother
  · next name hdirective =>
    rw [hdirective, readDirective, readType]
    cases hname : TypeName.ofName? name with
    | none => rfl
    | some type =>
        cases type with
        | string | number | boolean | null => rfl
        | array =>
            simp only
            rw [readItems]
            split
            · next hitems => rw [hitems]
            · next items hitems => rw [hitems]
            · next items hother hitems =>
              rw [hitems]
              cases items with
              | list schemas => exact absurd rfl (hother schemas)
              | _ => rfl
        | object =>
            simp only
            rw [readProperties]
            split
            · next hfound => rw [hfound]
            · next form properties hfound =>
              rw [hfound]
              have hproperties := Resolution.each_attach (fun entry => do
                let place := (place.child "properties").child (← keyText entry.1)
                let model ← resolveNode settings entry.2 place (depth + 1)
                pure (entry.1, model)) properties
              exact congrArg (· >>= _) hproperties
            · next found hother hfound =>
              rw [hfound]
              cases found with
              | mapping form properties => exact absurd rfl (hother form properties)
              | _ => exact (Resolution.bind_assoc ..).symm
  · next name hother hdirective =>
    rw [hdirective, readDirective, readType]
    exact hother
  · next hdirective => rw [hdirective, readDirective]

end Equations

/-! ## The schemas below a node -/

/-- The schemas directly below a node that reading goes on to: the variants of the deciding
combinator, the schema of the elements of an array, or those of the properties of an object. -/
def Value.subschemas : Value → List Value
  | .mapping _ entries =>
    match decidingKeyword? entries with
    | some ("oneOf", _) => listedSchemas entries "oneOf"
    | some ("anyOf", _) => listedSchemas entries "anyOf"
    | some ("allOf", _) => listedSchemas entries "allOf"
    | some ("type", .str (.plain "array")) => (itemSchema? entries).toList
    | some ("type", .str (.plain "object")) => (declaredSchemas entries).map Prod.snd
    | _ => []
  | _ => []

/-- Subschemas are smaller, which justifies the induction on them. -/
theorem sizeOf_lt_of_mem_subschemas {node sub : Value} (h : sub ∈ node.subschemas) :
    sizeOf sub < sizeOf node := by
  unfold Value.subschemas at h
  split at h
  · next form entries =>
    have hentries : sizeOf sub < sizeOf entries := by
      split at h
      · exact sizeOf_lt_of_mem_listedSchemas h
      · exact sizeOf_lt_of_mem_listedSchemas h
      · exact sizeOf_lt_of_mem_listedSchemas h
      · exact sizeOf_lt_of_itemSchema? (Option.mem_toList.mp h)
      · obtain ⟨entry, hmem, rfl⟩ := List.mem_map.mp h
        exact sizeOf_lt_of_mem_declaredSchemas hmem
      · cases h
    simp only [Value.mapping.sizeOf_spec]
    omega
  · cases h

/-- What holds of a node once it holds of the schemas below holds of every node. -/
@[elab_as_elim]
theorem schemaInduction {motive : Value → Prop}
    (step : ∀ node : Value, (∀ sub ∈ node.subschemas, motive sub) → motive node) (node : Value) :
    motive node :=
  step node fun sub _ => schemaInduction step sub
termination_by sizeOf node
decreasing_by exact sizeOf_lt_of_mem_subschemas ‹_›

section Subschemas

variable {form : MappingForm} {entries : List (Key × Value)} {name : Text}

theorem subschemas_variants {combinator : Combinator} {variants : List Value}
    (h : directive entries = .combine combinator (.list variants)) :
    (Value.mapping form entries).subschemas = variants := by
  have hlisted : listedSchemas entries combinator.keyword = variants := by
    rw [listedSchemas, get?_of_directive_combine h]
  rw [Value.subschemas, decidingKeyword?_eq, h]
  cases combinator <;> exact hlisted

theorem subschemas_variants_unusable {combinator : Combinator} {variants : Value}
    (h : directive entries = .combine combinator variants)
    (hnone : ∀ first rest, variants ≠ .list (first :: rest)) :
    (Value.mapping form entries).subschemas = [] := by
  have hlisted : listedSchemas entries combinator.keyword = [] := by
    rw [listedSchemas, get?_of_directive_combine h]
    split
    · next schemas hlist =>
      cases schemas with
      | nil => rfl
      | cons first rest => exact absurd (Option.some.inj hlist) (hnone first rest)
    · rfl
  rw [Value.subschemas, decidingKeyword?_eq, h]
  cases combinator <;> exact hlisted

theorem subschemas_items (h : directive entries = .type (.str name))
    (hname : TypeName.ofName? name = some .array) {items : Value}
    (hitems : Entries.get? entries "items" = some items)
    (hother : ∀ schemas, items ≠ .list schemas) :
    (Value.mapping form entries).subschemas = [items] := by
  rw [Value.subschemas, decidingKeyword?_eq, h, TypeName.eq_of_ofName?_array hname]
  simp only [Directive.keyword?]
  rw [itemSchema?_eq_some hitems hother]
  rfl

theorem subschemas_items_unusable (h : directive entries = .type (.str name))
    (hname : TypeName.ofName? name = some .array) (hitems : itemSchema? entries = none) :
    (Value.mapping form entries).subschemas = [] := by
  rw [Value.subschemas, decidingKeyword?_eq, h, TypeName.eq_of_ofName?_array hname]
  simp only [Directive.keyword?]
  rw [hitems]
  rfl

theorem subschemas_properties (h : directive entries = .type (.str name))
    (hname : TypeName.ofName? name = some .object) {inner : MappingForm}
    {properties : List (Key × Value)}
    (hfound : Entries.get? entries "properties" = some (.mapping inner properties)) :
    (Value.mapping form entries).subschemas = properties.map Prod.snd := by
  rw [Value.subschemas, decidingKeyword?_eq, h, TypeName.eq_of_ofName?_object hname]
  simp only [Directive.keyword?]
  rw [declaredSchemas, hfound]

theorem subschemas_properties_unusable (h : directive entries = .type (.str name))
    (hname : TypeName.ofName? name = some .object)
    (hnone : ∀ inner properties,
      Entries.get? entries "properties" ≠ some (.mapping inner properties)) :
    (Value.mapping form entries).subschemas = [] := by
  rw [Value.subschemas, decidingKeyword?_eq, h, TypeName.eq_of_ofName?_object hname]
  simp only [Directive.keyword?]
  rw [declaredSchemas_eq_nil hnone]
  rfl

theorem subschemas_type_plain {name : Value} (h : directive entries = .type name)
    (harray : ∀ text, name = .str text → TypeName.ofName? text ≠ some .array)
    (hobject : ∀ text, name = .str text → TypeName.ofName? text ≠ some .object) :
    (Value.mapping form entries).subschemas = [] := by
  rw [Value.subschemas, decidingKeyword?_eq, h]
  cases name with
  | str text =>
      simp only [Directive.keyword?]
      split
      · simp_all
      · simp_all
      · simp_all
      · next heq =>
        cases heq
        exact absurd rfl (harray _ rfl)
      · next heq =>
        cases heq
        exact absurd rfl (hobject _ rfl)
      · rfl
  | _ => rfl

end Subschemas

/-! ## The values that a node lists -/

/-- The values that a node lists: that of a deciding `const` or the members of a deciding `enum`. -/
def Value.literals : Value → List Value
  | .mapping _ entries =>
    match decidingKeyword? entries with
    | some ("const", expected) => [expected]
    | some ("enum", .list members) => members
    | _ => []
  | _ => []

/-- The values that a directive lists. -/
def Directive.literals : Directive → List Value
  | .const value => [value]
  | .enum (.list members) => members
  | _ => []

theorem literals_eq (form : MappingForm) (entries : List (Key × Value)) :
    (Value.mapping form entries).literals = (directive entries).literals := by
  rw [Value.literals, decidingKeyword?_eq]
  cases directive entries with
  | const value => rfl
  | enum values => cases values <;> rfl
  | combine combinator variants => cases combinator <;> rfl
  | type name => rfl
  | absent => rfl

/-! ## Conditions on all parts of a document -/

/-- A condition that passes from lists and mappings to what they hold. -/
structure Inherited (p : Value → Prop) : Prop where
  item : ∀ {items}, p (.list items) → ∀ item ∈ items, p item
  value : ∀ {form entries}, p (.mapping form entries) → ∀ entry ∈ entries, p entry.2

namespace Inherited

variable {p : Value → Prop} (hp : Inherited p)

include hp

theorem get? {form : MappingForm} {entries : List (Key × Value)} (h : p (.mapping form entries))
    {name : Text} {value : Value} (hfound : Entries.get? entries name = some value) : p value :=
  hp.value h _ (Entries.mem_of_get? hfound)

/-- A property that passes to elements and to stored values passes to subschemas. -/
theorem subschema {node sub : Value} (h : p node) (hsub : sub ∈ node.subschemas) : p sub := by
  unfold Value.subschemas at hsub
  split at hsub
  · next form entries =>
    have hlisted : ∀ keyword, sub ∈ listedSchemas entries keyword → p sub := by
      intro keyword hmem
      rw [listedSchemas] at hmem
      split at hmem
      · next schemas hfound => exact hp.item (hp.get? h hfound) sub hmem
      · cases hmem
    split at hsub
    · exact hlisted _ hsub
    · exact hlisted _ hsub
    · exact hlisted _ hsub
    · rw [Option.mem_toList, itemSchema?] at hsub
      split at hsub
      · cases hsub
      · exact hp.get? h hsub
    · obtain ⟨entry, hmem, rfl⟩ := List.mem_map.mp hsub
      rw [declaredSchemas] at hmem
      split at hmem
      · next inner properties hfound => exact hp.value (hp.get? h hfound) entry hmem
      · cases hmem
    · cases hsub
  · cases hsub

/-- A property that passes to elements and to stored values passes to literals. -/
theorem literal {node value : Value} (h : p node) (hvalue : value ∈ node.literals) : p value := by
  cases node with
  | mapping form entries =>
      rw [literals_eq] at hvalue
      cases hdirective : directive entries with
      | const expected =>
          rw [hdirective, Directive.literals, List.mem_singleton] at hvalue
          subst hvalue
          exact hp.get? h (get?_of_directive (congrArg Directive.keyword? hdirective))
      | enum values =>
          have hvalues := hp.get? h (get?_of_directive (congrArg Directive.keyword? hdirective))
          rw [hdirective] at hvalue
          cases values with
          | list members => exact hp.item hvalues value hvalue
          | _ => cases hvalue
      | _ =>
          rw [hdirective] at hvalue
          cases hvalue
  | _ => cases hvalue

end Inherited

theorem inherited_distinctKeys : Inherited (·.distinctKeys = true) where
  item h := Value.itemsDistinct_iff.mp h
  value h := (Value.distinctKeys_mapping_iff.mp h).2

end SchemaModel
