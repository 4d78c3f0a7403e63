import SchemaModel.Proofs.Schema.Curtailed
import SchemaModel.Proofs.Schema.Pointer

/-!
# Diagnostics point at parts of the document

Reading carries the place of the node at hand.  As long as the place leads from the root of the
document to that node, every issue is noted at a keyword that the node holds, and every schema below
is read at the place that leads to it; so the path of every issue, and of the stop if reading
stops, can be followed from the root.
-/

namespace SchemaModel

namespace Value

mutual

/-- Whether every key inside a value is a text. -/
def textKeys : Value → Bool
  | .list items => itemsTextKeys items
  | .tuple items => itemsTextKeys items
  | .mapping _ entries => Entries.textual entries && entriesTextKeys entries
  | _ => true

/-- Whether every key inside the elements is a text. -/
def itemsTextKeys : List Value → Bool
  | [] => true
  | item :: items => item.textKeys && itemsTextKeys items

/-- Whether every key inside the stored values is a text. -/
def entriesTextKeys : List (Key × Value) → Bool
  | [] => true
  | (_, value) :: entries => value.textKeys && entriesTextKeys entries

end

theorem itemsTextKeys_iff {items : List Value} :
    itemsTextKeys items = true ↔ ∀ item ∈ items, item.textKeys = true := by
  induction items with
  | nil => simp [itemsTextKeys]
  | cons item items ih => simp [itemsTextKeys, ih]

theorem entriesTextKeys_iff {entries : List (Key × Value)} :
    entriesTextKeys entries = true ↔ ∀ entry ∈ entries, entry.2.textKeys = true := by
  induction entries with
  | nil => simp [entriesTextKeys]
  | cons entry entries ih => simp [entriesTextKeys, ih]

theorem textKeys_mapping_iff {form : MappingForm} {entries : List (Key × Value)} :
    (mapping form entries).textKeys = true ↔
      Entries.textual entries = true ∧ ∀ entry ∈ entries, entry.2.textKeys = true := by
  rw [textKeys, Bool.and_eq_true, entriesTextKeys_iff]

end Value

/-! ## Nodes at their places -/

/-- A place leads to a node, in which mappings store texts, each once. -/
structure Located (document : Value) (place : Pointer) (node : Value) : Prop where
  follow? : document.follow? place = some node
  distinctKeys : node.distinctKeys = true
  textKeys : node.textKeys = true

namespace Located

variable {document : Value} {place : Pointer}

section Mapping

variable {form : MappingForm} {entries : List (Key × Value)}
  (h : Located document place (.mapping form entries))

include h

theorem exists_str {entry : Key × Value} (hmem : entry ∈ entries) :
    ∃ name, entry.1 = .str name :=
  Value.exists_str_of_textual (Value.textKeys_mapping_iff.mp h.textKeys).1 hmem

theorem entry {entry : Key × Value} (hmem : entry ∈ entries) :
    Located document (place.child entry.1.text) entry.2 := by
  obtain ⟨key, value⟩ := entry
  obtain ⟨hdistinct, hvalues⟩ := Value.distinctKeys_mapping_iff.mp h.distinctKeys
  obtain ⟨-, htexts⟩ := Value.textKeys_mapping_iff.mp h.textKeys
  obtain ⟨name, rfl⟩ : ∃ name, key = .str name := h.exists_str hmem
  refine ⟨?_, hvalues _ hmem, htexts _ hmem⟩
  rw [Value.follow?_child, h.follow?, Option.bind_some, Value.step?, Entries.get?_eq_find?]
  exact Entries.find?_eq_some_of_mem hdistinct hmem

theorem keyword {name : Text} {value : Value} (hfound : Entries.get? entries name = some value) :
    Located document (place.child name) value :=
  h.entry (Entries.mem_of_get? hfound)

end Mapping

theorem item {items : List Value} (h : Located document place (.list items)) {item : Value}
    {index : Nat} (hmem : (item, index) ∈ items.zipIdx) :
    Located document (place.item index) item := by
  have hindex : items[index]? = some item := List.mem_zipIdx_iff_getElem?.mp hmem
  have hitem : item ∈ items := List.mem_of_getElem? hindex
  refine ⟨?_, Value.itemsDistinct_iff.mp h.distinctKeys _ hitem,
    Value.itemsTextKeys_iff.mp h.textKeys _ hitem⟩
  rw [Pointer.item, Value.follow?_child, h.follow?, Option.bind_some, Value.step?,
    index?_wholeText, Option.bind_some, hindex]

end Located

/-! ## The paths that a run names -/

/-- The path that a stop names. -/
def Stop.path? : Stop → Option Text
  | .malformed _ path => some path
  | .tooDeep path _ => some path
  | .fault _ => none

namespace Resolution

/-- Every path that a run names, in its issues or in its stop, can be followed in the document. -/
def PointsInto {α : Type} (document : Value) : Resolution α → Prop
  | .ok found => ∀ issue ∈ found.2, (document.locate? issue.path).isSome
  | .error stop => ∀ path, stop.path? = some path → (document.locate? path).isSome

variable {α β : Type} {document : Value}

theorem pointsInto_pure (a : α) : PointsInto document (pure a : Resolution α) :=
  List.forall_mem_nil _

theorem PointsInto.bind {x : Resolution α} {f : α → Resolution β} (hx : PointsInto document x)
    (hf : ∀ a, PointsInto document (f a)) : PointsInto document (x >>= f) := by
  cases x with
  | error stop => exact hx
  | ok found =>
      have hnext := hf found.1
      simp only [Bind.bind]
      generalize f found.1 = y at hnext
      cases y with
      | error stop => exact hnext
      | ok next => exact List.forall_mem_append.mpr ⟨hx, hnext⟩

theorem pointsInto_each {f : α → Resolution β} {xs : List α}
    (h : ∀ x ∈ xs, PointsInto document (f x)) : PointsInto document (each f xs) := by
  induction xs with
  | nil => exact pointsInto_pure _
  | cons x xs ih =>
      obtain ⟨hx, hxs⟩ := List.forall_mem_cons.mp h
      exact hx.bind fun _ => (ih hxs).bind fun _ => pointsInto_pure _

theorem pointsInto_ofFault (made : Except Fault α) : PointsInto document (ofFault made) := by
  cases made with
  | ok a => exact pointsInto_pure a
  | error cause =>
      intro path hpath
      cases hpath

end Resolution

open Resolution

section Reports

variable {document : Value} (settings : ResolverSettings) {place : Pointer} {node : Value}
  (h : Located document place node)

include h

theorem Located.isSome_locate? : (document.locate? place.text).isSome := by
  rw [Value.locate?_text, h.follow?]
  rfl

theorem pointsInto_malformed (message : Text) :
    PointsInto document (settings.malformed place message) := by
  rw [ResolverSettings.malformed]
  split
  · intro path hpath
    cases hpath
    exact h.isSome_locate?
  · exact List.forall_mem_singleton.mpr h.isSome_locate?

theorem pointsInto_unsupported (message : Text) :
    PointsInto document (settings.unsupported place message) := by
  rw [ResolverSettings.unsupported]
  split
  · exact List.forall_mem_singleton.mpr h.isSome_locate?
  · exact List.forall_mem_nil _

theorem pointsInto_malformed_then {α : Type} (message : Text) (a : α) :
    PointsInto document (do
      settings.malformed place message
      pure a) :=
  (pointsInto_malformed settings h message).bind fun _ => pointsInto_pure a

theorem pointsInto_unsupported_then {α : Type} (message : Text) (a : α) :
    PointsInto document (do
      settings.unsupported place message
      pure a) :=
  (pointsInto_unsupported settings h message).bind fun _ => pointsInto_pure a

theorem pointsInto_bounded {α : Type} (depth : Nat) {go : Resolution α}
    (hgo : PointsInto document go) : PointsInto document (settings.bounded place depth go) := by
  rw [ResolverSettings.bounded]
  split
  · intro path hpath
    cases hpath
    exact h.isSome_locate?
  · exact hgo

end Reports

/-! ## One node -/

/-- Reading a schema at a place that leads to it names only paths into the document. -/
def ReadsInto (document : Value) (read : Reader) (node : Value) : Prop :=
  ∀ place depth, Located document place node → PointsInto document (read node place depth)

section Literals

variable {document : Value} (settings : ResolverSettings) {place : Pointer} {node : Value}
  (h : Located document place node)

include h

theorem pointsInto_resolveConst (depth : Nat) :
    PointsInto document (resolveConst settings node place depth) := by
  rw [resolveConst_eq]
  refine pointsInto_bounded settings h _ ?_
  split
  · exact pointsInto_ofFault _
  · exact pointsInto_malformed_then settings h _ _

theorem pointsInto_resolveEnum (depth : Nat) :
    PointsInto document (resolveEnum settings node place depth) := by
  cases node with
  | list members =>
      cases members with
      | nil => exact pointsInto_malformed_then settings h _ _
      | cons first rest =>
          rw [resolveEnum_eq settings place depth (List.cons_ne_nil first rest)]
          refine pointsInto_bounded settings h _ ?_
          split
          · exact pointsInto_ofFault _
          · exact pointsInto_malformed_then settings h _ _
  | _ => exact pointsInto_malformed_then settings h _ _

end Literals

section Nodes

variable {document : Value} (settings : ResolverSettings) {read : Reader} {place : Pointer}
  {form : MappingForm} {entries : List (Key × Value)}
  (h : Located document place (.mapping form entries))

include h

theorem pointsInto_reportKeywords [Platform] :
    PointsInto document (reportKeywords settings place entries) := by
  refine (pointsInto_each fun key hkey => ?_).bind fun _ => pointsInto_pure _
  obtain ⟨entry, hentry, rfl⟩ := List.mem_map.mp (List.mem_filter.mp hkey).1
  have hplace := h.entry hentry
  obtain ⟨name, hname⟩ := h.exists_str hentry
  rw [hname] at hplace ⊢
  rw [keyText_str, Resolution.pure_bind]
  exact pointsInto_unsupported settings hplace _

theorem pointsInto_resolveRequired_of_get? {names : Value}
    (hnames : Entries.get? entries "required" = some names) (declared : List (Key × Model)) :
    PointsInto document (resolveRequired settings entries place declared) := by
  have hplace := h.keyword hnames
  rw [resolveRequired_eq]
  refine PointsInto.bind ?_ fun kept => ?_
  · rw [readRequired, hnames, Option.map_some]
    cases requiredNames? names with
    | some found => exact pointsInto_pure _
    | none => exact pointsInto_malformed_then settings hplace _ _
  · rw [keepDeclared]
    refine (pointsInto_each fun name _ => ?_).bind fun _ => pointsInto_pure _
    split
    · exact pointsInto_pure _
    · exact pointsInto_malformed_then settings hplace _ _

theorem pointsInto_resolveRequired (declared : List (Key × Model)) :
    PointsInto document (resolveRequired settings entries place declared) := by
  cases hnames : Entries.get? entries "required" with
  | some names => exact pointsInto_resolveRequired_of_get? settings h hnames declared
  | none =>
      -- Without names nothing is reported, so it does not matter that the keyword is absent.
      rw [resolveRequired_eq, readRequired, hnames]
      exact pointsInto_pure _

variable (hread : ∀ sub ∈ (Value.mapping form entries).subschemas, ReadsInto document read sub)

include hread

theorem pointsInto_readItems {name : Text}
    (hdirective : directive entries = .type (.str name))
    (hname : TypeName.ofName? name = some .array) (depth : Nat) :
    PointsInto document (readItems settings read entries place depth) := by
  rw [readItems]
  split
  · exact pointsInto_pure _
  · next hitems =>
    exact pointsInto_unsupported_then settings (h.keyword hitems) _ _
  · next items hother hitems =>
    refine (hread items ?_ _ _ (h.keyword hitems)).bind fun _ => pointsInto_pure _
    rw [subschemas_items hdirective hname hitems hother]
    exact List.mem_singleton_self items

/-- A property's schema lies one name below the properties of its node. -/
theorem pointsInto_readProperties [Platform] {name : Text}
    (hdirective : directive entries = .type (.str name))
    (hname : TypeName.ofName? name = some .object) (depth : Nat) :
    PointsInto document (readProperties settings read entries place depth) := by
  rw [readProperties]
  split
  · exact pointsInto_pure _
  · next inner properties hfound =>
    have hplace := h.keyword hfound
    refine pointsInto_each fun entry hentry => ?_
    obtain ⟨text, htext⟩ := hplace.exists_str hentry
    have hbelow := hplace.entry hentry
    rw [htext] at hbelow ⊢
    rw [keyText_str, Resolution.pure_bind]
    refine (hread entry.2 ?_ _ _ hbelow).bind fun _ => pointsInto_pure _
    rw [subschemas_properties hdirective hname hfound]
    exact List.mem_map_of_mem hentry
  · next found hother hfound =>
    exact pointsInto_malformed_then settings (h.keyword hfound) _ _

/-- Items and properties are the only places below a typed node. -/
theorem pointsInto_readType [Platform] {name : Value}
    (hdirective : directive entries = .type name) (depth : Nat) :
    PointsInto document (readType settings read entries name place depth) := by
  have hplace := h.keyword (get?_of_directive (by rw [hdirective]; rfl) :
    Entries.get? entries "type" = some name)
  unfold readType
  split
  · next name =>
    split
    · exact pointsInto_pure _
    · exact pointsInto_pure _
    · exact pointsInto_pure _
    · exact pointsInto_pure _
    · next hname => exact pointsInto_readItems settings h hread hdirective hname depth
    · next hname =>
      refine (pointsInto_readProperties settings h hread hdirective hname depth).bind
        fun properties => ?_
      exact (pointsInto_resolveRequired settings h properties).bind fun _ => pointsInto_ofFault _
    · exact pointsInto_unsupported_then settings hplace _ _
  · exact pointsInto_unsupported_then settings hplace _ _

theorem pointsInto_readVariants [Platform] {combinator : Combinator} {variants : Value}
    (hdirective : directive entries = .combine combinator variants) (depth : Nat) :
    PointsInto document (readVariants settings read combinator variants place depth) := by
  have hplace := h.keyword (get?_of_directive_combine hdirective)
  unfold readVariants
  split
  · next first rest =>
    refine (pointsInto_each fun variant hvariant => ?_).bind fun _ => pointsInto_ofFault _
    refine hread variant.1 ?_ _ _ (hplace.item hvariant)
    rw [subschemas_variants hdirective]
    exact (List.mem_zipIdx' hvariant).2 ▸ List.getElem_mem _
  · exact pointsInto_malformed_then settings hplace _ _

theorem pointsInto_readDirective [Platform] (depth : Nat) :
    PointsInto document (readDirective settings read entries place depth (directive entries)) := by
  cases hdirective : directive entries with
  | const value =>
      have hfound : Entries.get? entries "const" = some value :=
        get?_of_directive (by rw [hdirective]; rfl)
      exact pointsInto_resolveConst settings (h.keyword hfound) depth
  | enum values =>
      have hfound : Entries.get? entries "enum" = some values :=
        get?_of_directive (by rw [hdirective]; rfl)
      exact pointsInto_resolveEnum settings (h.keyword hfound) depth
  | combine combinator variants => exact pointsInto_readVariants settings h hread hdirective depth
  | type name => exact pointsInto_readType settings h hread hdirective depth
  | absent => exact pointsInto_pure _

end Nodes

/-! ## The whole document -/

/-- By induction on subschemas, every place that is reported is one of the document. -/
theorem readsInto_resolveNode [Platform] (document : Value) (settings : ResolverSettings)
    (node : Value) :
    ReadsInto document (resolveNode settings) node := by
  induction node using schemaInduction with
  | step node ih =>
      intro place depth h
      cases node with
      | mapping form entries =>
          rw [resolveNode_mapping]
          refine pointsInto_bounded settings h _ ?_
          exact (pointsInto_reportKeywords settings h).bind fun _ =>
            pointsInto_readDirective settings h ih depth
      | bool flag =>
          rw [resolveNode]
          exact pointsInto_bounded settings h depth (pointsInto_pure _)
      | _ =>
          rw [resolveNode]
          · refine pointsInto_bounded settings h depth ?_
            exact pointsInto_malformed_then settings h _ _
          all_goals (intros; contradiction)

/-- In a document whose keys are texts, the path of every issue, and the path of the stop if
reading stops, leads from the root of the document to one of its parts.  Only a refusal to write
what is out of the ordinary names no path. -/
theorem diagnostics_point_at_parts [Platform] {schema : Value}
    (hdistinct : schema.distinctKeys = true) (htext : schema.textKeys = true)
    (settings : ResolverSettings) :
    (∃ result, resolve schema settings = .ok result ∧
      ∀ issue ∈ result.issues, ∃ part, schema.locate? issue.path = some part) ∨
    (∃ stop path part, resolve schema settings = .error stop ∧ stop.path? = some path ∧
      schema.locate? path = some part) ∨
    schema.isOrdinary = false ∧ ∃ refusal, resolve schema settings = .error (.refused refusal) := by
  have hinto := readsInto_resolveNode schema settings schema [] 0 ⟨rfl, hdistinct, htext⟩
  have hcases := resolve_outcomes hdistinct settings
  rw [resolve] at hcases ⊢
  generalize resolveNode settings schema [] 0 = run at hinto hcases
  cases run with
  | ok found =>
      refine .inl ⟨_, rfl, fun issue hmem => ?_⟩
      exact Option.isSome_iff_exists.mp (hinto issue hmem)
  | error stop =>
      have hpath : (∃ path, stop.path? = some path) ∨
          schema.isOrdinary = false ∧ ∃ refusal, stop = .refused refusal := by
        cases stop with
        | malformed message path => exact .inl ⟨path, rfl⟩
        | tooDeep path limit => exact .inl ⟨path, rfl⟩
        | fault cause => exact .inr (by simpa [Except.map, Stop.refused] using hcases)
      rcases hpath with ⟨path, hpath⟩ | ⟨hodd, refusal, rfl⟩
      · obtain ⟨part, hpart⟩ := Option.isSome_iff_exists.mp (hinto path hpath)
        exact .inr (.inl ⟨stop, path, part, rfl, hpath, hpart⟩)
      · exact .inr (.inr ⟨hodd, refusal, rfl⟩)

/-- A document with a property whose name holds a slash and a tilde and one whose name is empty. -/
def oddlyNamed : Value :=
  .object [("type", .str "object"), ("properties", .object
    [("a/b~1", .object [("x", .null)]), ("", .object [("enum", .list [])])])]

attribute [local instance] Platform.standard in
/-- The issues of the oddly named document, and its stop in strict reading. -/
theorem diagnostics_point_into_oddlyNamed :
    (∃ result, resolve oddlyNamed = .ok result ∧
      result.issues.map SchemaIssue.path = ["#/properties/a~1b~01/x", "#/properties//enum"] ∧
      ∀ issue ∈ result.issues, ∃ part, oddlyNamed.locate? issue.path = some part) ∧
    ∃ part, resolve oddlyNamed ⟨64, true, true⟩ =
        .error (.malformed "enum is empty, no value can match" "#/properties//enum") ∧
      oddlyNamed.locate? "#/properties//enum" = some part := by
  have hx : Pointer.text ["properties", "a/b~1", "x"] = "#/properties/a~1b~01/x" := by
    decide +kernel
  have henum : Pointer.text ["properties", "", "enum"] = "#/properties//enum" := by decide +kernel
  have hlenient : resolve oddlyNamed = .ok
      ⟨.object [(.str "a/b~1", .unknown), (.str "", .never)] [] true,
      [⟨.unsupportedKeyword, .info, "keyword 'x' is not supported and was ignored",
        "#/properties/a~1b~01/x"⟩,
       ⟨.malformedSchema, .warning, "enum is empty, no value can match",
        "#/properties//enum"⟩]⟩ := by
    simp [oddlyNamed, Value.object, resolve, resolveNode, reportKeywords, isKnownKeyword,
      supportedKeywords, annotationKeywords, each, directive, Entries.get?, TypeName.ofName?,
      Pointer.child, keyText_str, ResolverSettings.unsupported, ResolverSettings.malformed,
      resolveEnum, resolveRequired, allowsAdditional, Model.ofObject, note, ofFault, hx, henum,
      bind, pure, Except.map]
  have hstrict : resolve oddlyNamed ⟨64, true, true⟩ =
      .error (.malformed "enum is empty, no value can match" "#/properties//enum") := by
    simp [oddlyNamed, Value.object, resolve, resolveNode, reportKeywords, isKnownKeyword,
      supportedKeywords, annotationKeywords, each, directive, Entries.get?, TypeName.ofName?,
      Pointer.child, keyText_str, ResolverSettings.unsupported, ResolverSettings.malformed,
      resolveEnum, note, stop, henum, bind, pure, Except.map]
  have hdistinct : oddlyNamed.distinctKeys = true := by decide
  have htext : oddlyNamed.textKeys = true := by decide
  constructor
  · rcases diagnostics_point_at_parts hdistinct htext {} with
      ⟨result, hresult, hall⟩ | ⟨stop, path, part, hstop, -⟩ | ⟨hodd, -⟩
    · rw [hlenient] at hresult
      cases hresult
      exact ⟨_, hlenient, rfl, hall⟩
    · rw [hlenient] at hstop
      cases hstop
    · cases hodd
  · rcases diagnostics_point_at_parts hdistinct htext ⟨64, true, true⟩ with
      ⟨result, hresult, -⟩ | ⟨stop, path, part, hstop, hpath, hpart⟩ | ⟨hodd, -⟩
    · rw [hstrict] at hresult
      cases hresult
    · rw [hstrict] at hstop
      cases hstop
      cases hpath
      exact ⟨part, hstrict, hpart⟩
    · cases hodd

end SchemaModel
