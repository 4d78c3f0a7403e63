import SchemaModel.Model.Overlap
import SchemaModel.Schema.Issue
import SchemaModel.Schema.Pointer

/-!
# From schemas to models

A schema node is a flag or a mapping of keywords.  The first keyword present in the order `const`,
`enum`, `oneOf`, `anyOf`, `allOf`, `type` decides what the node means; `resolveNode` turns that
meaning into a model and reports what it could not use.  Reading stops at a node below the depth
ceiling and, in strict mode, at the first malformed node.
-/

namespace SchemaModel

structure ResolverSettings where
  maxDepth : Nat := 64
  strict : Bool := false
  reportUnsupported : Bool := true
  deriving DecidableEq, Inhabited

/-- Why reading a schema stops. -/
inductive Stop where
  | malformed (message path : Text)
  | tooDeep (path : Text) (limit : Nat)
  | fault (cause : Fault)
  deriving Inhabited

def Stop.message : Stop → Text
  | .malformed message path => message ++ " (at " ++ path ++ ")"
  | .tooDeep path limit =>
    "Schema nesting exceeds maximum depth " ++ wholeText limit ++ " at " ++ path
  | .fault cause => cause.message

/-- What reading a part of a schema gives: a result and the issues met on the way, or a stop. -/
def Resolution (α : Type) := Except Stop (α × List SchemaIssue)

namespace Resolution

instance : Monad Resolution where
  pure a := .ok (a, [])
  bind x f :=
    match x with
    | .error stop => .error stop
    | .ok (a, before) =>
      match f a with
      | .error stop => .error stop
      | .ok (b, after) => .ok (b, before ++ after)

def stop {α : Type} (reason : Stop) : Resolution α :=
  .error reason

def note (issues : List SchemaIssue) : Resolution Unit :=
  .ok ((), issues)

def ofFault {α : Type} : Except Fault α → Resolution α
  | .ok a => .ok (a, [])
  | .error cause => .error (.fault cause)

def each {α β : Type} (f : α → Resolution β) : List α → Resolution (List β)
  | [] => pure []
  | x :: xs => do
    let y ← f x
    let ys ← each f xs
    pure (y :: ys)

end Resolution

namespace ResolverSettings

/-- Reports a malformed part, or stops there in strict mode. -/
def malformed (settings : ResolverSettings) (place : Pointer) (message : Text) :
    Resolution Unit :=
  if settings.strict then .stop (.malformed message place.text)
  else .note [⟨.malformedSchema, .warning, message, place.text⟩]

/-- Reports a part that is not supported, if such parts are to be reported. -/
def unsupported (settings : ResolverSettings) (place : Pointer) (message : Text) :
    Resolution Unit :=
  if settings.reportUnsupported then
    .note [⟨.unsupportedKeyword, .info, message, place.text⟩]
  else .note []

end ResolverSettings

def supportedKeywords : List String :=
  ["const", "enum", "oneOf", "anyOf", "allOf", "type", "items", "properties", "required",
   "additionalProperties"]

def annotationKeywords : List String :=
  ["$schema", "$id", "$comment", "title", "description", "default", "examples", "deprecated",
   "readOnly", "writeOnly"]

def isKnownKeyword : Key → Bool
  | .str (.plain name) => supportedKeywords.contains name || annotationKeywords.contains name
  | _ => false

/-- The text of a key in a message or in a pointer. -/
def keyText [Platform] (key : Key) : Resolution Text :=
  .ofFault (Fault.unlessLong key.canShow key.text)

/-- Reports the keys of a node that are not known, in their order.  A key is put into words even
when such reports are not asked for. -/
def reportKeywords [Platform] (settings : ResolverSettings) (place : Pointer)
    (entries : List (Key × Value)) : Resolution Unit := do
  let unknown := (entries.map Prod.fst).filter fun key => !isKnownKeyword key
  let _ ← Resolution.each
    (fun key => do
      let text ← keyText key
      settings.unsupported (place.child text)
        ("keyword '" ++ text ++ "' is not supported and was ignored")) unknown
  pure ()

def Combinator.keyword : Combinator → String
  | .oneOf => "oneOf"
  | .anyOf => "anyOf"
  | .allOf => "allOf"

/-- The keyword that decides what a node means, with its argument. -/
inductive Directive where
  | const (value : Value)
  | enum (values : Value)
  | combine (combinator : Combinator) (variants : Value)
  | type (name : Value)
  | absent
  deriving Inhabited

/-- The deciding keyword of a node: the first one present in the order of precedence. -/
def directive (entries : List (Key × Value)) : Directive :=
  match Entries.get? entries "const" with
  | some value => .const value
  | none =>
    match Entries.get? entries "enum" with
    | some values => .enum values
    | none =>
      match Entries.get? entries "oneOf" with
      | some variants => .combine .oneOf variants
      | none =>
        match Entries.get? entries "anyOf" with
        | some variants => .combine .anyOf variants
        | none =>
          match Entries.get? entries "allOf" with
          | some variants => .combine .allOf variants
          | none =>
            match Entries.get? entries "type" with
            | some name => .type name
            | none => .absent

theorem get?_of_directive_combine {entries : List (Key × Value)} {combinator : Combinator}
    {variants : Value} (h : directive entries = .combine combinator variants) :
    Entries.get? entries combinator.keyword = some variants := by
  unfold directive at h
  repeat' split at h
  all_goals cases h
  all_goals assumption

theorem sizeOf_lt_of_get? {entries : List (Key × Value)} {name : Text} {value : Value}
    (h : Entries.get? entries name = some value) : sizeOf value < sizeOf entries := by
  have bound := List.sizeOf_lt_of_mem (Entries.mem_of_get? h)
  simp only [Prod.mk.sizeOf_spec] at bound
  omega

inductive TypeName where
  | string
  | number
  | boolean
  | null
  | array
  | object
  deriving DecidableEq, Inhabited

def TypeName.ofName? (name : Text) : Option TypeName :=
  if name = "string" then some .string
  else if name = "integer" ∨ name = "number" then some .number
  else if name = "boolean" then some .boolean
  else if name = "null" then some .null
  else if name = "array" then some .array
  else if name = "object" then some .object
  else none

def resolveConst (settings : ResolverSettings) (value : Value) (place : Pointer) (depth : Nat) :
    Resolution Model :=
  if !value.fits settings.maxDepth (depth + 1) then
    .stop (.tooDeep place.text settings.maxDepth)
  else if value.isJson then .ofFault (Model.ofLiteral value (.node place))
  else do
    settings.malformed place ("const must be a JSON value, got " ++ value.typeName)
    pure .unknown

def resolveEnum (settings : ResolverSettings) (values : Value) (place : Pointer) (depth : Nat) :
    Resolution Model :=
  match values with
  | .list [] => do
    settings.malformed place "enum is empty, no value can match"
    pure .never
  | .list items =>
    if !values.fits settings.maxDepth depth then .stop (.tooDeep place.text settings.maxDepth)
    else if items.all Value.isJson then .ofFault (Model.ofEnum items (.node place))
    else do
      settings.malformed place "enum must only contain JSON values"
      pure .unknown
  | _ => do
    settings.malformed place "enum must be a list of values"
    pure .unknown

def joinVariants [Platform] (mark : Mark) : Combinator → List Model → Except Fault Model
  | .oneOf, models => Model.exclusiveUnion models mark
  | .anyOf, models => Model.combine .anyOf models mark
  | .allOf, models => Model.reduce models mark

def requiredNames? : Value → Option (List Text)
  | .list items => items.mapM Value.text?
  | _ => none

/-- The required names of an object node among those declared. -/
def resolveRequired (settings : ResolverSettings) (entries : List (Key × Value)) (place : Pointer)
    (declared : List (Key × Model)) : Resolution (List Text) := do
  let place := place.child "required"
  let names ←
    match Entries.get? entries "required" with
    | none => pure []
    | some names =>
      match requiredNames? names with
      | some names => pure names
      | none => do
        settings.malformed place "required must be a list of property names"
        pure []
  let kept ← Resolution.each
    (fun name => do
      if Entries.has declared (.str name) then pure [name]
      else
        settings.malformed place
          ("required property '" ++ name ++ "' is not declared in properties")
        pure [])
    names
  pure kept.flatten

/-- Whether an object node leaves room for keys that it does not declare; only `false` closes it. -/
def allowsAdditional (entries : List (Key × Value)) : Bool :=
  match Entries.get? entries "additionalProperties" with
  | some (.bool false) => false
  | _ => true

variable [Platform]

/-- The model of a schema node at a place and a depth. -/
def resolveNode (settings : ResolverSettings) (node : Value) (place : Pointer) (depth : Nat) :
    Resolution Model :=
  if settings.maxDepth < depth then .stop (.tooDeep place.text settings.maxDepth)
  else
    match node with
    | .bool flag => pure (if flag then .unknown else .never)
    | .mapping _ entries => do
      reportKeywords settings place entries
      match _decides : directive entries with
      | .const value => resolveConst settings value (place.child "const") depth
      | .enum values => resolveEnum settings values (place.child "enum") depth
      | .combine combinator (.list (first :: rest)) =>
        let place := place.child combinator.keyword
        let models ← Resolution.each
          (fun (⟨variant, _⟩, index) =>
            resolveNode settings variant (place.item index) (depth + 1))
          (first :: rest).attach.zipIdx
        .ofFault (joinVariants (.node place) combinator models)
      | .combine combinator _ =>
        settings.malformed (place.child combinator.keyword)
          (combinator.keyword ++ " must be a non-empty list of schemas")
        pure .unknown
      | .type (.str name) =>
        match TypeName.ofName? name with
        | some .string => pure .string
        | some .number => pure .number
        | some .boolean => pure .boolean
        | some .null => pure .null
        | some .array =>
          match _items : Entries.get? entries "items" with
          | none => pure (.array .unknown)
          | some (.list _) =>
            settings.unsupported (place.child "items") "tuple-form items are not supported"
            pure (.array .unknown)
          | some items =>
            let model ← resolveNode settings items (place.child "items") (depth + 1)
            pure (.array model)
        | some .object =>
          let properties ←
            match _properties : Entries.get? entries "properties" with
            | none => pure []
            | some (.mapping _ properties) =>
              Resolution.each
                (fun ⟨entry, _⟩ => do
                  let place := (place.child "properties").child (← keyText entry.1)
                  let model ← resolveNode settings entry.2 place (depth + 1)
                  pure (entry.1, model))
                properties.attach
            | some _ =>
              settings.malformed (place.child "properties") "properties must be an object"
              pure []
          let required ← resolveRequired settings entries place properties
          .ofFault (Model.ofObject properties required (allowsAdditional entries))
        | none =>
          settings.unsupported (place.child "type") ("type '" ++ name ++ "' is not supported")
          pure .unknown
      | .type _ =>
        settings.unsupported (place.child "type") "type must be a single type name"
        pure .unknown
      | .absent => pure .unknown
    | node => do
      settings.malformed place ("schema must be an object or boolean, got " ++ node.typeName)
      pure .unknown
termination_by sizeOf node
decreasing_by
  · have outer := sizeOf_lt_of_get? (get?_of_directive_combine _decides)
    have inner := List.sizeOf_lt_of_mem ‹_ ∈ first :: rest›
    simp_wf
    simp only [Value.list.sizeOf_spec] at outer
    omega
  · have outer := sizeOf_lt_of_get? _items
    simp_wf
    omega
  · have outer := sizeOf_lt_of_get? _properties
    have inner := List.sizeOf_lt_of_mem ‹_ ∈ properties›
    simp_wf
    simp only [Value.mapping.sizeOf_spec] at outer
    have pair : sizeOf entry.2 < sizeOf entry := by
      cases entry
      simp only [Prod.mk.sizeOf_spec]
      omega
    omega

/-- A model and the issues met in reading its schema. -/
structure ResolutionResult where
  model : Model
  issues : List SchemaIssue
  deriving Inhabited

namespace ResolutionResult

/-- Whether an issue is more than informative. -/
def hasWarnings (result : ResolutionResult) : Bool :=
  result.issues.any fun issue => issue.severity ≠ .info

end ResolutionResult

/-- Reads a schema document. -/
def resolve (schema : Value) (settings : ResolverSettings := {}) : Except Stop ResolutionResult :=
  (resolveNode settings schema [] 0).map fun found => ⟨found.1, found.2⟩

end SchemaModel
