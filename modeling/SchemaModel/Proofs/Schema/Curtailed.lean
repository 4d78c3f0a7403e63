import SchemaModel.Proofs.Model.CurtailedOverlap
import SchemaModel.Proofs.Schema.Composition
import SchemaModel.Proofs.Schema.Resolve

/-!
# Reading on a platform with bounds

Reading puts the keys of a document and the overlaps of exclusive unions into words, and a platform
may refuse to.  A run that is not refused is the run of the platform without bounds; refused it is
only when the document is out of the ordinary, for the models of an ordinary document list nothing
that cannot be written.  So what holds of reading without bounds holds of ordinary documents on
every platform, and of the other documents unless they are refused.
-/

namespace SchemaModel

/-- A refusal that stops the reading of a document. -/
def Stop.refused (refusal : Refusal) : Stop :=
  .fault (.refused refusal)

namespace Curtailed

open Resolution

variable {α β : Type} {ordinary : Prop}

theorem ofFault {run free : Except Fault α} (h : Curtailed .refused ordinary run free) :
    Curtailed Stop.refused ordinary (Resolution.ofFault run) (Resolution.ofFault free) := by
  rcases h with rfl | ⟨hnot, refusal, rfl⟩
  · exact .refl _
  · exact .inr ⟨hnot, refusal, rfl⟩

/-- What follows a step matters only where the step succeeds. -/
theorem andThen {run free : Resolution α} {next next' : α → Resolution β}
    (h : Curtailed Stop.refused ordinary run free)
    (hnext : ∀ a issues, free = .ok (a, issues) →
      Curtailed Stop.refused ordinary (next a) (next' a)) :
    Curtailed Stop.refused ordinary (run >>= next : Resolution β)
      (free >>= next' : Resolution β) := by
  rcases h with rfl | ⟨hnot, refusal, rfl⟩
  · cases run with
    | error stop => exact .refl _
    | ok found =>
        simp only [Bind.bind]
        rcases hnext found.1 found.2 rfl with heq | ⟨hnot, refusal, heq⟩
        · rw [heq]
          exact .refl _
        · rw [heq]
          exact .inr ⟨hnot, refusal, rfl⟩
  · exact .inr ⟨hnot, refusal, rfl⟩

theorem each {f f' : α → Resolution β} {xs : List α}
    (h : ∀ x ∈ xs, Curtailed Stop.refused ordinary (f x) (f' x)) :
    Curtailed Stop.refused ordinary (each f xs) (each f' xs) := by
  induction xs with
  | nil => exact .refl _
  | cons x xs ih =>
      obtain ⟨hx, hxs⟩ := List.forall_mem_cons.mp h
      rw [Resolution.each, Resolution.each]
      exact hx.andThen fun y _ _ => (ih hxs).andThen fun ys _ _ => .refl _

theorem bounded {run free : Resolution α} (settings : ResolverSettings) (place : Pointer)
    (depth : Nat) (h : Curtailed Stop.refused ordinary run free) :
    Curtailed Stop.refused ordinary (settings.bounded place depth run)
      (settings.bounded place depth free) := by
  rw [ResolverSettings.bounded, ResolverSettings.bounded]
  split
  · exact .refl _
  · exact h

end Curtailed

open Model Resolution

theorem denotes_of_resolveNode {settings : ResolverSettings} {node : Value}
    (hnode : node.distinctKeys = true) {place : Pointer} {depth : Nat} {model : Model}
    {issues : List SchemaIssue}
    (h : @resolveNode .unlimited settings node place depth = .ok (model, issues)) :
    Denotes model node.satisfies := by
  have hensures := ensures_resolveNode settings node place depth hnode
  rw [h] at hensures
  exact hensures

/-! ## What models carry -/

section Carried

variable {ok : Value → Prop} {named : Key → Prop}

theorem carries_joinVariants {mark : Mark} {combinator : Combinator} {models : List Model}
    {joint : Model} (hmodels : ∀ model ∈ models, model.Carries ok named)
    (h : @joinVariants .unlimited mark combinator models = .ok joint) :
    joint.Carries ok named := by
  cases combinator with
  | oneOf =>
      obtain ⟨union, hunion, h⟩ := bind_eq_ok h
      obtain ⟨common, -, h⟩ := bind_eq_ok h
      obtain ⟨words, -, h⟩ := bind_eq_ok h
      cases h
      exact carries_combine hunion hmodels
  | anyOf => exact carries_combine h hmodels
  | allOf => exact @carries_reduce _ _ .unlimited _ _ _ hmodels h

/-- A node's model carries the node's own literals and names, and what its parts carry. -/
theorem carries_composed {part : Value → Model → Prop} {node : Value} {model : Model}
    (hvalues : ∀ value ∈ node.literals, value.isJson = true → ok value)
    (hnames : ∀ name ∈ node.declaredNames, named name)
    (hpart : ∀ sub ∈ node.subschemas, ∀ model, part sub model → model.Carries ok named)
    (h : @Composed .unlimited part node model) : model.Carries ok named := by
  cases h with
  | atom plain listed =>
      refine carries_of_own (fun value hvalue => ?_) ?_ ?_
      · obtain ⟨hjson, hliteral⟩ := listed value hvalue
        exact hvalues value hliteral hjson
      all_goals cases model <;> cases plain <;> exact nofun
  | anyArray => exact carries_array (carries_of_own nofun nofun nofun)
  | array below items_model => exact carries_array (hpart _ below _ items_model)
  | object required additional declared =>
      refine carries_object (fun property hproperty => ?_) required additional
      obtain ⟨hname, sub, hsub, hmodel⟩ := declared property hproperty
      exact ⟨hnames property.1 hname, hpart sub hsub property.2 hmodel⟩
  | variants decides entries_eq variants_models joined =>
      subst entries_eq
      rw [subschemas_variants decides] at hpart
      refine carries_joinVariants (fun model hmodel => ?_) joined
      obtain ⟨sub, hsub, hmade⟩ := exists_mem_of_forall₂ variants_models.flip model hmodel
      exact hpart sub hsub model hmade

/-- A model carries the literals and the declared names of its schema. -/
theorem carries_resolveNode {p : Value → Prop} (hp : Inherited p)
    (hvalues : ∀ value, p value → value.isJson = true → ok value)
    (hnames : ∀ node, p node → ∀ name ∈ node.declaredNames, named name)
    {settings : ResolverSettings} {node : Value} (hnode : p node) {place : Pointer} {depth : Nat}
    {model : Model} {issues : List SchemaIssue}
    (h : @resolveNode .unlimited settings node place depth = .ok (model, issues)) :
    model.Carries ok named := by
  induction node using schemaInduction generalizing place depth model issues with
  | step node ih =>
      refine carries_composed (fun value hvalue => hvalues value (hp.literal hnode hvalue))
        (hnames node hnode) ?_ (@composed_of_resolveNode settings .unlimited _ _ _ _ _ h).2
      rintro sub hsub model ⟨place, issues, hmodel⟩
      exact ih sub hsub (hp.subschema hnode hsub) hmodel

theorem inherited_json : Inherited (·.isJson = true) where
  item h := Value.allJson_iff.mp h
  value h entry hmem := by
    rw [Value.isJson, Bool.and_eq_true, Value.entriesJson_iff] at h
    exact h.2 entry hmem

/-- In JSON data all names are texts. -/
theorem isText_of_mem_declaredNames {node : Value} (h : node.isJson = true) {name : Key}
    (hname : name ∈ node.declaredNames) : name.isText = true := by
  cases node with
  | mapping form entries =>
      obtain ⟨entry, hentry, rfl⟩ := List.mem_map.mp hname
      rw [declaredSchemas] at hentry
      split at hentry
      · next inner properties hfound =>
        have hproperties := inherited_json.get? h hfound
        rw [Value.isJson, Bool.and_eq_true] at hproperties
        exact List.all_eq_true.mp hproperties.1 entry hentry
      · cases hentry
  | _ => cases hname

end Carried

section Bounded

variable [Platform]

theorem inherited_ordinary : Inherited (·.isOrdinary = true) where
  item h := itemsOrdinary_iff.mp h
  value h entry hmem := by
    rw [Value.isOrdinary, Bool.and_eq_true, entriesOrdinary_iff] at h
    exact (h.2 entry hmem).2

theorem canShow_of_mem_entries {form : MappingForm} {entries : List (Key × Value)}
    (h : (Value.mapping form entries).isOrdinary = true) {entry : Key × Value}
    (hmem : entry ∈ entries) : entry.1.canShow = true := by
  rw [Value.isOrdinary, Bool.and_eq_true, entriesOrdinary_iff] at h
  exact (h.2 entry hmem).1

/-- The model of an ordinary schema lists nothing that cannot be written. -/
theorem writable_resolveNode {settings : ResolverSettings} {node : Value}
    (hnode : node.isOrdinary = true) {place : Pointer} {depth : Nat} {model : Model}
    {issues : List SchemaIssue}
    (h : @resolveNode .unlimited settings node place depth = .ok (model, issues)) :
    model.Writable :=
  lists_iff_carries.mpr (carries_resolveNode inherited_ordinary
    (fun _ hordinary hjson => Value.isWritable_iff.mpr (Value.refusal?_of_ordinary hjson hordinary))
    (fun _ _ _ _ => trivial) hnode h)

/-- The model of ordinary data moreover names its properties by texts. -/
theorem carries_resolveNode_of_json {settings : ResolverSettings} {node : Value}
    (hjson : node.isJson = true) (hnode : node.isOrdinary = true) {place : Pointer} {depth : Nat}
    {model : Model} {issues : List SchemaIssue}
    (h : @resolveNode .unlimited settings node place depth = .ok (model, issues)) :
    model.Carries (·.isWritable = true) (·.isText = true) := by
  have hboth : Inherited fun value => value.isJson = true ∧ value.isOrdinary = true :=
    ⟨fun h item hmem => ⟨inherited_json.item h.1 item hmem, inherited_ordinary.item h.2 item hmem⟩,
      fun h entry hmem =>
        ⟨inherited_json.value h.1 entry hmem, inherited_ordinary.value h.2 entry hmem⟩⟩
  refine carries_resolveNode hboth (fun value hvalue _ => ?_)
    (fun node hnode name => isText_of_mem_declaredNames hnode.1) ⟨hjson, hnode⟩ h
  exact Value.isWritable_iff.mpr (Value.refusal?_of_ordinary hvalue.1 hvalue.2)

/-! ## The steps of reading -/

section Steps

variable (settings : ResolverSettings)

theorem curtailed_keyText (key : Key) :
    Curtailed Stop.refused (key.canShow = true) (keyText key) (@keyText .unlimited key) := by
  rw [keyText_unlimited, keyText, Fault.unlessLong]
  split
  · exact .refl _
  · next hlong => exact .inr ⟨hlong, .longInteger Platform.refusal, rfl⟩

theorem curtailed_reportKeywords (place : Pointer) (entries : List (Key × Value)) :
    Curtailed Stop.refused (∀ entry ∈ entries, entry.1.canShow = true)
      (reportKeywords settings place entries)
      (@reportKeywords .unlimited settings place entries) := by
  refine (Curtailed.each fun key hkey => ?_).andThen fun _ _ _ => .refl _
  obtain ⟨entry, hmem, rfl⟩ := List.mem_map.mp (List.mem_filter.mp hkey).1
  exact ((curtailed_keyText entry.1).mono fun hshow => hshow entry hmem).andThen
    fun _ _ _ => .refl _

theorem curtailed_joinVariants {models : List Model} (hne : models ≠ [])
    (hmodels : ∀ model ∈ models, Good model) (mark : Mark) (combinator : Combinator) :
    Curtailed .refused (∀ model ∈ models, model.Writable) (joinVariants mark combinator models)
      (@joinVariants .unlimited mark combinator models) := by
  cases combinator with
  | oneOf => exact curtailed_exclusiveUnion hne hmodels mark
  | anyOf => exact .refl _
  | allOf => exact curtailed_reduce hmodels mark

section Readers

variable {read read' : Reader} {form : MappingForm} {entries : List (Key × Value)}
  (h : ∀ sub ∈ (Value.mapping form entries).subschemas, ∀ place depth,
    Curtailed Stop.refused (sub.isOrdinary = true) (read sub place depth) (read' sub place depth))

include h

theorem curtailed_readItems {name : Text} (hdirective : directive entries = .type (.str name))
    (hname : TypeName.ofName? name = some .array) (place : Pointer) (depth : Nat) :
    Curtailed Stop.refused ((Value.mapping form entries).isOrdinary = true)
      (readItems settings read entries place depth)
      (readItems settings read' entries place depth) := by
  unfold readItems
  split
  · exact .refl _
  · exact .refl _
  · next items hother hitems =>
    have hbelow : items ∈ (Value.mapping form entries).subschemas := by
      rw [subschemas_items hdirective hname hitems hother]
      exact List.mem_singleton_self items
    exact ((h items hbelow _ _).mono fun hnode =>
      inherited_ordinary.subschema hnode hbelow).andThen fun _ _ _ => .refl _

theorem curtailed_readProperties {name : Text}
    (hdirective : directive entries = .type (.str name))
    (hname : TypeName.ofName? name = some .object) (place : Pointer) (depth : Nat) :
    Curtailed Stop.refused ((Value.mapping form entries).isOrdinary = true)
      (readProperties settings read entries place depth)
      (@readProperties .unlimited settings read' entries place depth) := by
  unfold readProperties
  split
  · exact .refl _
  · next inner properties hfound =>
    refine .each fun entry hmem => ?_
    have hbelow : entry.2 ∈ (Value.mapping form entries).subschemas := by
      rw [subschemas_properties hdirective hname hfound]
      exact List.mem_map_of_mem hmem
    refine ((curtailed_keyText entry.1).mono fun hnode =>
      canShow_of_mem_entries (inherited_ordinary.get? hnode hfound) hmem).andThen fun text _ _ => ?_
    exact ((h entry.2 hbelow _ _).mono fun hnode =>
      inherited_ordinary.subschema hnode hbelow).andThen fun _ _ _ => .refl _
  · exact .refl _

theorem curtailed_readType {name : Value} (hdirective : directive entries = .type name)
    (place : Pointer) (depth : Nat) :
    Curtailed Stop.refused ((Value.mapping form entries).isOrdinary = true)
      (readType settings read entries name place depth)
      (@readType .unlimited settings read' entries name place depth) := by
  unfold readType
  split
  · next name =>
    split
    · exact .refl _
    · exact .refl _
    · exact .refl _
    · exact .refl _
    · next hname => exact curtailed_readItems settings h hdirective hname place depth
    · next hname =>
      exact (curtailed_readProperties settings h hdirective hname place depth).andThen
        fun _ _ _ => .refl _
    · exact .refl _
  · exact .refl _

variable (hgives : ∀ sub ∈ (Value.mapping form entries).subschemas, ∀ place depth,
  Gives (fun model => Good model ∧ (sub.isOrdinary = true → model.Writable))
    (read' sub place depth))

include hgives

/-- The variants are read in order, and joined only when all of them are read. -/
theorem curtailed_readVariants {combinator : Combinator} {variants : Value}
    (hdirective : directive entries = .combine combinator variants) (place : Pointer)
    (depth : Nat) :
    Curtailed Stop.refused ((Value.mapping form entries).isOrdinary = true)
      (readVariants settings read combinator variants place depth)
      (@readVariants .unlimited settings read' combinator variants place depth) := by
  unfold readVariants
  split
  · next first rest =>
    have hsubs : (Value.mapping form entries).subschemas = first :: rest :=
      subschemas_variants hdirective
    rw [hsubs] at h hgives
    refine (Curtailed.each fun x hx => ?_).andThen fun models issues hmodels => .ofFault ?_
    · have hvariant := List.fst_mem_of_mem_zipIdx hx
      exact (h x.1 hvariant _ _).mono fun hnode =>
        inherited_ordinary.subschema hnode (hsubs ▸ hvariant)
    · have hparts := gives_each (fun x model => Good model ∧ (x.1.isOrdinary = true →
        model.Writable)) (fun x hx => hgives x.1 (List.fst_mem_of_mem_zipIdx hx) _ _) _ hmodels
      have hpart : ∀ model ∈ models, ∃ variant ∈ first :: rest,
          Good model ∧ (variant.isOrdinary = true → model.Writable) := by
        intro model hmem
        obtain ⟨x, hx, hmodel⟩ := exists_mem_of_forall₂ hparts.flip model hmem
        exact ⟨x.1, List.fst_mem_of_mem_zipIdx hx, hmodel⟩
      have hne : models ≠ [] := by
        rintro rfl
        cases hparts
      refine (curtailed_joinVariants hne (fun model hmem => ?_) _ combinator).mono
        fun hnode model hmem => ?_
      · obtain ⟨variant, -, hgood, -⟩ := hpart model hmem
        exact hgood
      · obtain ⟨variant, hvariant, -, hwritable⟩ := hpart model hmem
        exact hwritable (inherited_ordinary.subschema hnode (hsubs ▸ hvariant))
  · exact .refl _

theorem curtailed_readDirective (place : Pointer) (depth : Nat) :
    Curtailed Stop.refused ((Value.mapping form entries).isOrdinary = true)
      (readDirective settings read entries place depth (directive entries))
      (@readDirective .unlimited settings read' entries place depth (directive entries)) := by
  cases hdirective : directive entries with
  | const value => exact .refl _
  | enum values => exact .refl _
  | combine combinator variants =>
      exact curtailed_readVariants settings h hgives hdirective place depth
  | type name => exact curtailed_readType settings h hdirective place depth
  | absent => exact .refl _

end Readers

end Steps

/-! ## The whole document -/

/-- A node is read as without bounds, unless it is out of the ordinary and refused. -/
theorem curtailed_resolveNode (settings : ResolverSettings) {node : Value}
    (h : node.distinctKeys = true) (place : Pointer) (depth : Nat) :
    Curtailed Stop.refused (node.isOrdinary = true) (resolveNode settings node place depth)
      (@resolveNode .unlimited settings node place depth) := by
  induction node using schemaInduction generalizing place depth with
  | step node ih =>
    cases node with
    | mapping form entries =>
        rw [resolveNode_mapping, @resolveNode_mapping _ _ _ .unlimited]
        refine .bounded settings place depth ?_
        refine ((curtailed_reportKeywords settings place entries).mono
          fun hnode entry hmem => canShow_of_mem_entries hnode hmem).andThen fun _ _ _ => ?_
        have hsub : ∀ sub ∈ (Value.mapping form entries).subschemas, sub.distinctKeys = true :=
          fun sub hmem => inherited_distinctKeys.subschema h hmem
        refine curtailed_readDirective settings (fun sub hmem => ih sub hmem (hsub sub hmem))
          (fun sub hmem place depth => ?_) place depth
        exact (gives_self _).mono fun model ⟨issues, hmodel⟩ =>
          ⟨(denotes_of_resolveNode (hsub sub hmem) hmodel).1,
            fun hnode => writable_resolveNode hnode hmodel⟩
    | bool flag =>
        rw [resolveNode, @resolveNode.eq_def .unlimited]
        exact .refl _
    | _ =>
        rw [resolveNode, @resolveNode.eq_def .unlimited]
        · exact .refl _
        all_goals simp

/-- A schema is read as without bounds, unless it is out of the ordinary and refused. -/
theorem curtailed_resolve {schema : Value} (h : schema.distinctKeys = true)
    (settings : ResolverSettings) :
    Curtailed Stop.refused (schema.isOrdinary = true) (resolve schema settings)
      (@resolve .unlimited schema settings) :=
  (curtailed_resolveNode settings h [] 0).map _

/-- A schema is read to a good model, or reading stops at the ceiling, at a malformed part or, if
the schema is out of the ordinary, with a refusal. -/
theorem resolve_outcomes {schema : Value} (h : schema.distinctKeys = true)
    (settings : ResolverSettings) :
    (∃ result, resolve schema settings = .ok result ∧ Good result.model) ∨
    (∃ path limit, resolve schema settings = .error (.tooDeep path limit)) ∨
    (settings.strict = true ∧ ∃ message path,
      resolve schema settings = .error (.malformed message path)) ∨
    schema.isOrdinary = false ∧ ∃ refusal,
      resolve schema settings = .error (.refused refusal) := by
  rcases curtailed_resolve h settings with heq | ⟨hnot, hrefused⟩
  · rw [heq]
    rcases resolve_cases h settings with ⟨result, hresult, hgood, -⟩ | hdeep | hstrict
    · exact .inl ⟨result, hresult, hgood⟩
    · exact .inr (.inl hdeep)
    · exact .inr (.inr (.inl hstrict))
  · exact .inr (.inr (.inr ⟨Bool.eq_false_iff.mpr hnot, hrefused⟩))

theorem isOrdinary_eq_false_of_refused {schema : Value} (h : schema.distinctKeys = true)
    {settings : ResolverSettings} {refusal : Refusal}
    (hrefused : resolve schema settings = .error (.refused refusal)) :
    schema.isOrdinary = false := by
  rcases resolve_outcomes h settings with
    ⟨result, hok, -⟩ | ⟨path, limit, hdeep⟩ | ⟨-, message, path, hstrict⟩ | ⟨hodd, -⟩
  · cases hrefused.symm.trans hok
  · cases hrefused.symm.trans hdeep
  · cases hrefused.symm.trans hstrict
  · exact hodd

end Bounded

/-- An array of numbers. -/
def numberList : Value :=
  .mapping .dict [(.str "type", .str "array"),
    (.str "items", .mapping .dict [(.str "type", .str "number")])]

end SchemaModel
