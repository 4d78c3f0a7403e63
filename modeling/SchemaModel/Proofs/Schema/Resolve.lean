import SchemaModel.Proofs.Model.Reduce
import SchemaModel.Proofs.Schema.Reading
import SchemaModel.Proofs.Value.Writable

/-!
# Schemas and their models

Reading a schema gives a good model of the values that satisfy it, unless reading stops at the depth
ceiling or, in strict mode, at a malformed part.  `Resolution.Ensures` states what holds of a
result and which stops are allowed; it follows the monad, so that the reading of each keyword has
one lemma, and `ensures_resolveNode` is the induction over the document.
-/

namespace SchemaModel

attribute [local instance] Platform.unlimited

namespace Resolution

/-- A result meets a condition, or reading has stopped at the depth ceiling or, when strict, at a
malformed part. -/
def Ensures {α : Type} (strict : Bool) (post : α → Prop) : Resolution α → Prop
  | .ok found => post found.1
  | .error (.malformed ..) => strict = true
  | .error (.tooDeep ..) => True
  | .error (.fault _) => False

variable {α β : Type} {strict : Bool}

theorem ensures_pure {post : α → Prop} {a : α} (h : post a) : Ensures strict post (pure a) :=
  h

theorem Ensures.bind {x : Resolution α} {f : α → Resolution β} {mid : α → Prop} {post : β → Prop}
    (hx : Ensures strict mid x) (hf : ∀ a, mid a → Ensures strict post (f a)) :
    Ensures strict post (x >>= f) := by
  cases x with
  | error stop => cases stop <;> exact hx
  | ok found =>
      obtain ⟨a, before⟩ := found
      have hnext := hf a hx
      simp only [Bind.bind]
      cases hfa : f a with
      | error stop =>
          rw [hfa] at hnext
          cases stop <;> exact hnext
      | ok next =>
          rw [hfa] at hnext
          exact hnext

theorem ensures_pure_bind {f : α → Resolution β} {post : β → Prop} {a : α}
    (h : Ensures strict post (f a)) : Ensures strict post (pure a >>= f) :=
  Ensures.bind (ensures_pure (rfl : a = a)) fun _ ha => ha ▸ h

/-- Reading part after part gives the results in step with the parts. -/
theorem ensures_each (rel : α → β → Prop) {f : α → Resolution β} {xs : List α}
    (h : ∀ x ∈ xs, Ensures strict (rel x) (f x)) :
    Ensures strict (List.Forall₂ rel xs) (each f xs) := by
  induction xs with
  | nil => exact ensures_pure .nil
  | cons x xs ih =>
      obtain ⟨hx, hxs⟩ := List.forall_mem_cons.mp h
      rw [each]
      refine hx.bind fun y hy => (ih hxs).bind fun ys hys => ?_
      exact ensures_pure (.cons hy hys)

theorem ensures_ofFault {made : Except Fault Model} {test : Value → Bool}
    (h : Model.Yields made test) : Ensures strict (Model.Denotes · test) (ofFault made) := by
  obtain ⟨model, hmade, hmodel⟩ := h
  rw [hmade]
  exact hmodel

theorem ensures_malformed (settings : ResolverSettings) (place : Pointer) (message : Text) :
    Ensures settings.strict (fun _ => True) (settings.malformed place message) := by
  rw [ResolverSettings.malformed]
  cases hstrict : settings.strict with
  | true => exact rfl
  | false => trivial

theorem ensures_unsupported (settings : ResolverSettings) (place : Pointer) (message : Text) :
    Ensures strict (fun _ => True) (settings.unsupported place message) := by
  rw [ResolverSettings.unsupported]
  split <;> trivial

theorem keyText_unlimited (key : Key) : keyText key = pure key.text := by
  rw [keyText, Fault.unlessLong, key.canShow_unlimited]
  rfl

theorem ensures_reportKeywords (settings : ResolverSettings) (place : Pointer)
    (entries : List (Key × Value)) :
    Ensures strict (fun _ => True) (reportKeywords settings place entries) := by
  refine (ensures_each (fun _ _ => True) fun key _ => ?_).bind fun _ _ => trivial
  rw [keyText_unlimited]
  exact ensures_pure_bind (ensures_unsupported settings _ _)

end Resolution

open Model Resolution

/-! ## Constants, enumerations and variants -/

theorem denotes_unknown {test : Value → Bool} (h : ∀ v, test v = true) : Denotes .unknown test := by
  refine ⟨.unknown, fun v _ => ?_⟩
  rw [permits_unknown, h]

/-- What is malformed constrains nothing. -/
theorem ensures_malformed_unknown (settings : ResolverSettings) (place : Pointer) (message : Text)
    {test : Value → Bool} (h : ∀ v, test v = true) :
    Ensures settings.strict (Denotes · test) (do
      settings.malformed place message
      pure .unknown) :=
  (ensures_malformed settings place message).bind fun _ _ => denotes_unknown h

theorem ensures_unsupported_unknown (settings : ResolverSettings) (place : Pointer)
    (message : Text) {test : Value → Bool} (h : ∀ v, test v = true) :
    Ensures settings.strict (Denotes · test) (do
      settings.unsupported place message
      pure .unknown) :=
  (ensures_unsupported settings place message).bind fun _ _ => denotes_unknown h

section Keywords

variable (settings : ResolverSettings) (place : Pointer) (depth : Nat)

/-- A literal that is no JSON data is reported and constrains nothing. -/
theorem ensures_resolveConst {expected : Value} (h : expected.distinctKeys = true) :
    Ensures settings.strict (Denotes · fun v => !expected.isJson || v.jsonEqual expected)
      (resolveConst settings expected place depth) := by
  rw [resolveConst]
  split
  · trivial
  · by_cases hjson : expected.isJson = true
    · rw [if_pos hjson]
      apply ensures_ofFault
      refine (yields_ofLiteral (Value.isData_iff.mpr ⟨hjson, h⟩) _).congr fun v _ => ?_
      rw [hjson, Bool.not_true, Bool.false_or]
    · rw [if_neg hjson]
      apply ensures_malformed_unknown
      intro v
      rw [Bool.not_eq_true] at hjson
      rw [hjson, Bool.not_false, Bool.true_or]

/-- One member that is no JSON data takes all meaning from the list. -/
theorem ensures_resolveEnum_list {members : List Value}
    (h : ∀ member ∈ members, member.distinctKeys = true) :
    Ensures settings.strict
      (Denotes · fun v => !members.all Value.isJson || members.any (v.jsonEqual ·))
      (resolveEnum settings (.list members) place depth) := by
  cases members with
  | nil =>
      refine (ensures_malformed settings place _).bind fun _ _ => ensures_pure ?_
      exact ⟨.never, fun v _ => permits_never v⟩
  | cons first rest =>
      rw [resolveEnum]
      · split
        · trivial
        · by_cases hjson : (first :: rest).all Value.isJson = true
          · rw [if_pos hjson]
            apply ensures_ofFault
            have hdata : ∀ member ∈ first :: rest, member.IsData := fun member hmem =>
              Value.isData_iff.mpr ⟨List.all_eq_true.mp hjson member hmem, h member hmem⟩
            refine (yields_ofEnum (List.cons_ne_nil _ _) hdata _).congr fun v _ => ?_
            rw [hjson, Bool.not_true, Bool.false_or]
          · rw [if_neg hjson]
            apply ensures_malformed_unknown
            intro v
            rw [Bool.not_eq_true] at hjson
            rw [hjson, Bool.not_false, Bool.true_or]
      · intro hnil
        cases hnil

theorem ensures_resolveEnum {form : MappingForm} {entries : List (Key × Value)} {values : Value}
    (hdirective : directive entries = .enum values) (h : values.distinctKeys = true) :
    Ensures settings.strict (Denotes · (Value.mapping form entries).satisfies)
      (resolveEnum settings values place depth) := by
  cases values with
  | list members =>
      rw [funext (satisfies_enum_list hdirective)]
      exact ensures_resolveEnum_list settings place depth (Value.itemsDistinct_iff.mp h)
  | _ =>
      apply ensures_malformed_unknown
      intro v
      exact satisfies_enum_unusable hdirective (fun members heq => by cases heq) v

end Keywords

theorem yields_joinVariants {models : List Model} (hne : models ≠ [])
    (hall : ∀ model ∈ models, Good model) (mark : Mark) (combinator : Combinator) :
    Yields (joinVariants mark combinator models) fun v =>
      combinator.holds (models.map (·.permits v)) := by
  cases combinator with
  | oneOf => exact yields_exclusiveUnion hne hall mark
  | anyOf => exact yields_combine hne hall .anyOf mark
  | allOf =>
      refine (yields_reduce hne hall mark).congr fun v _ => ?_
      rw [Combinator.holds, List.all_map]
      rfl

/-- Models in step with the variants of a combinator. -/
theorem yields_variants {variants : List Value} {models : List Model}
    (h : List.Forall₂ (fun variant model => Denotes model variant.satisfies) variants models)
    (hne : variants ≠ []) (mark : Mark) (combinator : Combinator) :
    Yields (joinVariants mark combinator models) fun v =>
      combinator.holds (variants.map (·.satisfies v)) := by
  have hmodels : models ≠ [] := by
    rintro rfl
    cases h
    exact hne rfl
  have hall : ∀ model ∈ models, Good model := by
    clear hne hmodels
    induction h with
    | nil => exact List.forall_mem_nil _
    | cons hmodel _ ih => exact List.forall_mem_cons.mpr ⟨hmodel.1, ih⟩
  refine (yields_joinVariants hmodels hall mark combinator).congr fun v hv => ?_
  apply congrArg combinator.holds
  clear hne hmodels hall
  induction h with
  | nil => rfl
  | cons hmodel _ ih => rw [List.map_cons, List.map_cons, hmodel.2 v hv, ih]

/-! ## Objects -/

/-- Undeclared names are reported and left out. -/
theorem ensures_keepDeclared (settings : ResolverSettings) (place : Pointer)
    (declared : List (Key × Model)) (names : List Text) (message : Text → Text) :
    Ensures settings.strict
      (fun kept => ∀ name, name ∈ kept ↔ name ∈ names ∧ Entries.has declared (.str name) = true)
      (do
        let kept ← Resolution.each
          (fun name => do
            if Entries.has declared (.str name) then pure [name]
            else
              settings.malformed place (message name)
              pure [])
          names
        pure kept.flatten) := by
  refine (ensures_each (fun name kept =>
    kept = if Entries.has declared (.str name) then [name] else []) fun name _ => ?_).bind
      fun kept hkept => ensures_pure ?_
  · split
    · exact ensures_pure rfl
    · exact (ensures_malformed settings _ _).bind fun _ _ => ensures_pure rfl
  · induction hkept with
    | nil => simp
    | cons hfirst _ ih =>
        intro name
        rw [List.flatten_cons, List.mem_append, ih, hfirst, List.mem_cons]
        split
        · next hdeclared => grind
        · next hdeclared => grind

/-- The required names that are kept are those declared. -/
theorem ensures_resolveRequired (settings : ResolverSettings) (entries : List (Key × Value))
    (place : Pointer) (declared : List (Key × Model)) :
    Ensures settings.strict
      (fun kept => ∀ name, name ∈ kept ↔
        name ∈ neededNames entries ∧ Entries.has declared (.str name) = true)
      (resolveRequired settings entries place declared) := by
  have hneeded : neededNames entries =
      ((Entries.get? entries "required").bind requiredNames?).getD [] := by
    rw [neededNames]
    split
    · next names hfound => rw [hfound]; rfl
    · next hother =>
      cases hfound : Entries.get? entries "required" with
      | none => rfl
      | some names =>
          cases names with
          | list items => exact absurd hfound (hother items)
          | _ => rfl
  rw [resolveRequired, hneeded]
  cases Entries.get? entries "required" with
  | none => exact ensures_pure_bind (ensures_keepDeclared settings _ declared _ _)
  | some names =>
      simp only [Option.bind_some]
      cases requiredNames? names with
      | none =>
          refine (ensures_malformed settings _ _).bind fun _ _ => ?_
          exact ensures_pure_bind (ensures_keepDeclared settings _ declared _ _)
      | some found => exact ensures_pure_bind (ensures_keepDeclared settings _ declared _ _)

/-- A property in step with its declaration. -/
def Declares (entry : Key × Value) (property : Key × Model) : Prop :=
  property.1 = entry.1 ∧ Denotes property.2 entry.2.satisfies

section Properties

variable {declared : List (Key × Value)} {properties : List (Key × Model)}
  (h : List.Forall₂ Declares declared properties)

include h

theorem good_of_declares : ∀ property ∈ properties, Good property.2 := by
  induction h with
  | nil => exact List.forall_mem_nil _
  | cons hfirst _ ih => exact List.forall_mem_cons.mpr ⟨hfirst.2.1, ih⟩

theorem has_eq_of_declares (key : Key) : Entries.has properties key = Entries.has declared key := by
  induction h with
  | nil => rfl
  | cons hfirst _ ih =>
      rw [Entries.has, Entries.has] at ih ⊢
      rw [List.any_cons, List.any_cons, ih, hfirst.1]

/-- The last schema of a name is the one that its property denotes. -/
theorem findLast?_rel_of_declares (key : Key) :
    Option.Rel (fun schema model => Denotes model schema.satisfies)
      (Entries.findLast? declared key) (Entries.findLast? properties key) := by
  induction h with
  | nil => exact .none
  | @cons entry property _ _ hfirst _ ih =>
      rw [Entries.findLast?, Entries.findLast?, hfirst.1]
      rcases optionRel_cases ih with ⟨hnone, hnone'⟩ | ⟨schema, model, hsome, hsome', hmodel⟩
      · rw [hnone, hnone']
        simp only
        split
        · exact .some hfirst.2
        · exact .none
      · rw [hsome, hsome']
        exact .some hmodel

theorem permitsField_of_declares (hdistinct : Entries.distinct declared = true) (additional : Bool)
    (key : Key) {item : Value} (hitem : item.distinctKeys = true) :
    permitsField properties additional (key, item) =
      match Entries.find? declared key with
      | some schema => schema.satisfies item
      | none => additional := by
  have hrel := findLast?_rel_of_declares h key
  rw [Entries.findLast?_eq_find? hdistinct] at hrel
  rw [permitsField]
  rcases optionRel_cases hrel with ⟨hnone, hnone'⟩ | ⟨schema, model, hsome, hsome', hmodel⟩
  · rw [hnone, hnone']
  · rw [hsome, hsome']
    exact hmodel.2 item hitem

/-- Fields agree with their declarations exactly when every declared field satisfies its schema and
no other field is barred. -/
theorem permits_fields_iff_of_declares (hdistinct : Entries.distinct declared = true)
    (closed : Bool) {fields : List (Key × Value)} (hfields : Entries.distinct fields = true)
    (htext : Entries.textual fields = true)
    (hkeys : ∀ field ∈ fields, field.2.distinctKeys = true) :
    (∀ name item, Entries.find? fields (.str name) = some item →
        permitsField properties (!closed) (.str name, item) = true) ↔
      (∀ entry ∈ declared, ∀ item, Entries.find? fields entry.1 = some item →
        entry.2.satisfies item = true) ∧
      (closed = true → ∀ field ∈ fields, Entries.has declared field.1 = true) := by
  constructor
  · intro hall
    have hfield : ∀ field ∈ fields, permitsField properties (!closed) field = true := by
      rintro ⟨key, item⟩ hmem
      obtain ⟨name, rfl⟩ := Value.exists_str_of_textual htext hmem
      exact hall name item (Entries.find?_eq_some_of_mem hfields hmem)
    refine ⟨fun entry hentry item hfound => ?_, fun hclosed field hmem => ?_⟩
    · obtain ⟨other, hmem, hclass⟩ := Entries.mem_of_find?_eq_some hfound
      have hdeclared := Entries.find?_eq_some_of_mem hdistinct hentry
      rw [← Entries.find?_congr hclass] at hdeclared
      have hpermits := hfield _ hmem
      rwa [permitsField_of_declares h hdistinct _ other (hkeys _ hmem), hdeclared] at hpermits
    · have hpermits := hfield field hmem
      rw [permitsField_of_declares h hdistinct _ field.1 (hkeys _ hmem), hclosed] at hpermits
      rw [Entries.has_iff_exists_find?]
      cases hfound : Entries.find? declared field.1 with
      | none => simp [hfound] at hpermits
      | some schema => exact ⟨schema, rfl⟩
  · rintro ⟨hsatisfied, hclosed⟩ name item hfound
    have hmem := (Entries.mem_iff_find?_str hfields).mpr hfound
    rw [permitsField_of_declares h hdistinct _ _ (hkeys _ hmem)]
    cases hdeclared : Entries.find? declared (.str name) with
    | some schema =>
        exact hsatisfied _ ((Entries.mem_iff_find?_str hdistinct).mpr hdeclared) item hfound
    | none =>
        cases closed with
        | false => rfl
        | true =>
            obtain ⟨schema, hschema⟩ := Entries.has_iff_exists_find?.mp (hclosed rfl _ hmem)
            rw [hdeclared] at hschema
            cases hschema

end Properties

theorem allowsAdditional_eq (entries : List (Key × Value)) :
    allowsAdditional entries = !isClosed entries := by
  simp only [allowsAdditional, isClosed]
  split <;> simp_all

/-- Properties, required names and closedness together denote the object node. -/
theorem yields_resolvedObject {form : MappingForm} {entries : List (Key × Value)}
    {properties : List (Key × Model)}
    {required : List Text} {name : Text} (hdirective : directive entries = .type (.str name))
    (hname : TypeName.ofName? name = some .object)
    (hdistinct : Entries.distinct (declaredSchemas entries) = true)
    (hproperties : List.Forall₂ Declares (declaredSchemas entries) properties)
    (hrequired : ∀ needed, needed ∈ required ↔
      needed ∈ neededNames entries ∧ Entries.has properties (.str needed) = true) :
    Yields (ofObject properties required (allowsAdditional entries))
      (Value.mapping form entries).satisfies := by
  have hdeclared : ∀ needed ∈ required, Entries.has properties (.str needed) = true :=
    fun needed hneeded => ((hrequired needed).mp hneeded).2
  have hgood : Good (.object properties required (allowsAdditional entries)) :=
    .object (good_of_declares hproperties) hdeclared
  refine ⟨_, ofObject_eq_ok hdeclared _, hgood, fun v hv => ?_⟩
  rw [Bool.eq_iff_iff, permits_object_iff hgood hv, satisfies_object_iff hdirective hname]
  refine exists_congr fun fields => and_congr_right fun hfields => and_congr ?_ ?_
  · simp only [hrequired, has_eq_of_declares hproperties, and_imp]
  · obtain ⟨hdistinct', hkeys⟩ := Value.distinct_of_fields hv hfields
    have htext := (Value.textual_of_fields hfields)
    rw [allowsAdditional_eq]
    exact permits_fields_iff_of_declares hproperties hdistinct _ hdistinct' htext hkeys

/-! ## The whole document -/

theorem distinct_declaredSchemas {form : MappingForm} {entries : List (Key × Value)}
    (h : (Value.mapping form entries).distinctKeys = true) :
    Entries.distinct (declaredSchemas entries) = true := by
  rw [declaredSchemas]
  split
  · next inner properties hfound =>
    exact (Value.distinctKeys_mapping_iff.mp (inherited_distinctKeys.get? h hfound)).1
  · rfl

theorem denotes_primitive {form : MappingForm} {entries : List (Key × Value)} {name : Text}
    {type : TypeName}
    {model : Model} {kind : Kind} (hdirective : directive entries = .type (.str name))
    (hname : TypeName.ofName? name = some type) (hkind : type.kind? = some kind)
    (hgood : Good model) (hmodel : model.primitive? = some kind) :
    Denotes model (Value.mapping form entries).satisfies := by
  refine ⟨hgood, fun v _ => ?_⟩
  rw [satisfies_type_kind hdirective hname hkind, permits_of_primitive hmodel]

theorem ensures_variants {strict : Bool} {form : MappingForm} {entries : List (Key × Value)}
    {combinator : Combinator}
    {first : Value} {rest : List Value}
    (h : directive entries = .combine combinator (.list (first :: rest)))
    {read : {variant // variant ∈ first :: rest} × Nat → Resolution Model}
    (hread : ∀ x, Ensures strict (Denotes · x.1.1.satisfies) (read x)) (mark : Mark) :
    Ensures strict (Denotes · (Value.mapping form entries).satisfies) (do
      let models ← each read (first :: rest).attach.zipIdx
      ofFault (joinVariants mark combinator models)) := by
  refine (ensures_each (fun x model => Denotes model x.1.1.satisfies) fun x _ => hread x).bind
    fun models hmodels => ensures_ofFault ?_
  have hvariants : (first :: rest).attach.zipIdx.map (fun x => x.1.1) = first :: rest := by
    simpa using map_attach_zipIdx (first :: rest) id
  have hsteps : List.Forall₂ (fun variant model => Denotes model variant.satisfies)
      ((first :: rest).attach.zipIdx.map fun x => x.1.1) models :=
    List.forall₂_map_left_iff.mpr hmodels
  rw [hvariants] at hsteps
  refine (yields_variants hsteps (List.cons_ne_nil _ _) mark combinator).congr fun v _ => ?_
  rw [satisfies_combine h]

theorem ensures_properties {strict : Bool} {properties : List (Key × Value)}
    {read : {entry // entry ∈ properties} → Resolution (Key × Model)}
    (hread : ∀ x, Ensures strict (Declares x.1) (read x)) :
    Ensures strict (List.Forall₂ Declares properties) (each read properties.attach) := by
  have hsteps := ensures_each (fun x => Declares x.1) fun x (_ : x ∈ properties.attach) => hread x
  have hvalues : List.Forall₂ (fun x => Declares (Subtype.val x)) properties.attach =
      List.Forall₂ Declares properties := by
    funext found
    rw [← List.forall₂_map_left_iff, List.attach_map_subtype_val]
  rwa [hvalues] at hsteps

theorem ensures_object (settings : ResolverSettings) (place : Pointer) {form : MappingForm}
    {entries : List (Key × Value)} (h : (Value.mapping form entries).distinctKeys = true)
    {name : Text}
    (hdirective : directive entries = .type (.str name))
    (hname : TypeName.ofName? name = some .object) {properties : List (Key × Model)}
    (hproperties : List.Forall₂ Declares (declaredSchemas entries) properties) :
    Ensures settings.strict (Denotes · (Value.mapping form entries).satisfies) (do
      let required ← resolveRequired settings entries place properties
      ofFault (ofObject properties required (allowsAdditional entries))) := by
  apply (ensures_resolveRequired settings entries place properties).bind
  intro required hrequired
  apply ensures_ofFault
  exact yields_resolvedObject hdirective hname (distinct_declaredSchemas h) hproperties hrequired

/-- Reading a node gives a good model of the values that satisfy it. -/
theorem ensures_resolveNode (settings : ResolverSettings) (node : Value) (place : Pointer)
    (depth : Nat) (h : node.distinctKeys = true) :
    Ensures settings.strict (Denotes · node.satisfies) (resolveNode settings node place depth) := by
  fun_induction resolveNode settings node place depth with
  | case1 => trivial
  | case2 place depth _ flag =>
      apply ensures_pure
      cases flag with
      | true => exact denotes_unknown fun v => by rw [Value.satisfies]
      | false => exact ⟨.never, fun v _ => by rw [Value.satisfies]; exact permits_never v⟩
  | case3 place depth _ form entries ihvariants ihitems ihproperties =>
      refine (ensures_reportKeywords settings place entries).bind fun _ _ => ?_
      -- One case for each directive; the induction hypotheses cover variants, items and properties.
      split
      · next expected hdirective =>
        have hfound := get?_of_directive (congrArg Directive.keyword? hdirective)
        rw [funext (satisfies_const hdirective)]
        exact ensures_resolveConst settings _ depth (inherited_distinctKeys.get? h hfound)
      · next values hdirective =>
        have hfound := get?_of_directive (congrArg Directive.keyword? hdirective)
        exact ensures_resolveEnum settings _ depth hdirective (inherited_distinctKeys.get? h hfound)
      · next combinator first rest hdirective =>
        have hlist := inherited_distinctKeys.get? h (get?_of_directive_combine hdirective)
        refine ensures_variants hdirective (fun x => ?_) _
        exact ihvariants combinator first rest hdirective x.1.1 x.1.2 x.2
          (Value.itemsDistinct_iff.mp hlist x.1.1 x.1.2)
      · next combinator variants hother hdirective =>
        exact ensures_malformed_unknown settings _ _
          (satisfies_combine_unusable hdirective fun first rest heq => hother first rest heq)
      · next name hdirective =>
        split
        · next hname => exact ensures_pure (denotes_primitive hdirective hname rfl .string rfl)
        · next hname => exact ensures_pure (denotes_primitive hdirective hname rfl .number rfl)
        · next hname => exact ensures_pure (denotes_primitive hdirective hname rfl .boolean rfl)
        · next hname => exact ensures_pure (denotes_primitive hdirective hname rfl .null rfl)
        · next hname =>
          rw [funext (satisfies_array hdirective hname)]
          split
          · next hitems =>
            exact ensures_pure (denotes_array (denotes_unknown fun v => by
              rw [itemSchema?, hitems]; rfl))
          · next items hitems =>
            refine (ensures_unsupported settings _ _).bind fun _ _ => ensures_pure ?_
            exact denotes_array (denotes_unknown fun v => by rw [itemSchema?, hitems]; rfl)
          · next items hother hitems =>
            rw [itemSchema?_eq_some hitems hother]
            apply (ihitems items hitems (inherited_distinctKeys.get? h hitems)).bind
            intro model hmodel
            exact ensures_pure (denotes_array hmodel)
        · next hname =>
          split
          · next hnone =>
            refine ensures_pure_bind (ensures_object settings place h hdirective hname ?_)
            rw [declaredSchemas, hnone]
            exact .nil
          · next inner properties hfound =>
            have hkeys :=
              (Value.distinctKeys_mapping_iff.mp (inherited_distinctKeys.get? h hfound)).2
            refine (ensures_properties fun x => ?_).bind fun found hsteps => ?_
            · obtain ⟨entry, hmem⟩ := x
              simp only [keyText_unlimited]
              refine ensures_pure_bind (.bind ?_ fun model hmodel => ensures_pure ⟨rfl, hmodel⟩)
              exact ihproperties inner properties hfound entry hmem _ (hkeys entry hmem)
            · apply ensures_object settings place h hdirective hname
              rwa [declaredSchemas, hfound]
          · next found hother hfound =>
            refine (ensures_malformed settings _ _).bind fun _ _ => ?_
            refine ensures_pure_bind (ensures_object settings place h hdirective hname ?_)
            rw [declaredSchemas_eq_nil fun inner properties heq => ?_]
            · exact .nil
            · rw [hfound] at heq
              exact hother inner properties (Option.some.inj heq)
        · next hname =>
          refine ensures_unsupported_unknown settings _ _ (satisfies_type_unusable hdirective ?_)
          intro text heq
          cases heq
          exact hname
      · next name hother hdirective =>
        exact ensures_unsupported_unknown settings _ _
          (satisfies_type_unusable hdirective fun text heq => absurd heq (hother text))
      · next hdirective =>
        exact ensures_pure (denotes_unknown (satisfies_absent hdirective))
  | case4 place depth _ node hflag hmapping =>
      apply ensures_malformed_unknown
      intro v
      rw [Value.satisfies]
      · exact hflag
      · exact hmapping

/-- A schema is read to a good model of the values that satisfy it, or reading stops. -/
theorem resolve_cases {schema : Value} (h : schema.distinctKeys = true)
    (settings : ResolverSettings) :
    (∃ result, resolve schema settings = .ok result ∧
      Denotes result.model schema.satisfies) ∨
    (∃ path limit, resolve schema settings = .error (.tooDeep path limit)) ∨
    settings.strict = true ∧ ∃ message path,
      resolve schema settings = .error (.malformed message path) := by
  have hensures := ensures_resolveNode settings schema [] 0 h
  rw [resolve]
  cases hnode : resolveNode settings schema [] 0 with
  | ok found =>
      rw [hnode] at hensures
      exact .inl ⟨_, rfl, hensures⟩
  | error stop =>
      rw [hnode] at hensures
      cases stop with
      | malformed message path => exact .inr (.inr ⟨hensures, message, path, rfl⟩)
      | tooDeep path limit => exact .inr (.inl ⟨path, limit, rfl⟩)
      | fault cause => exact hensures.elim

end SchemaModel
