import SchemaModel.Proofs.Schema.Depth

/-!
# What a schema does not need

Of the keywords of a node only the deciding one is read, and with an array or object type the few
that belong to it.  `Value.prune` deletes all the others, at every node that reading goes on to.
Reading the pruned document takes the same course as reading the whole one: it stops for the same
reason at the same place, or gives the same model and the same issues about malformed parts.
-/

namespace SchemaModel

/-! ## Pruning -/

/-- The keywords that belong to a type. -/
def typeKeywords : Value → List Text
  | .str (.plain "array") => ["items"]
  | .str (.plain "object") => ["properties", "required", "additionalProperties"]
  | _ => []

/-- The keywords of a node that are read. -/
def readKeywords (entries : List (Key × Value)) : List Text :=
  match decidingKeyword? entries with
  | some ("type", name) => "type" :: typeKeywords name
  | some (keyword, _) => [keyword]
  | none => []

/-- Whether the argument of a keyword lists schemas. -/
def listsSchemas (keyword : Text) : Bool :=
  [Text.plain "oneOf", "anyOf", "allOf"].contains keyword

mutual

/-- A schema without the keywords that are not read, at the node itself and below it. -/
def Value.prune : Value → Value
  | .mapping form entries => .mapping form (pruneEntries (readKeywords entries) entries)
  | node => node

/-- The entries whose keywords are to be kept, with their arguments pruned. -/
def pruneEntries (kept : List Text) : List (Key × Value) → List (Key × Value)
  | [] => []
  | (.str keyword, argument) :: entries =>
    if kept.contains keyword then
      (.str keyword, pruneArgument keyword argument) :: pruneEntries kept entries
    else pruneEntries kept entries
  | _ :: entries => pruneEntries kept entries

/-- The argument of a keyword with the schemas in it pruned. -/
def pruneArgument (keyword : Text) : Value → Value
  | .list schemas => .list (if listsSchemas keyword then pruneSchemas schemas else schemas)
  | .mapping form entries =>
    if keyword = "items" then .mapping form (pruneEntries (readKeywords entries) entries)
    else if keyword = "properties" then .mapping form (pruneProperties entries)
    else .mapping form entries
  | argument => argument

/-- Listed schemas, each of them pruned. -/
def pruneSchemas : List Value → List Value
  | [] => []
  | schema :: schemas => schema.prune :: pruneSchemas schemas

/-- Declared properties with their schemas pruned. -/
def pruneProperties : List (Key × Value) → List (Key × Value)
  | [] => []
  | (name, schema) :: properties => (name, schema.prune) :: pruneProperties properties

end

theorem pruneSchemas_eq (schemas : List Value) :
    pruneSchemas schemas = schemas.map Value.prune := by
  induction schemas with
  | nil => rw [pruneSchemas, List.map_nil]
  | cons schema schemas ih => rw [pruneSchemas, List.map_cons, ih]

theorem pruneProperties_eq (properties : List (Key × Value)) :
    pruneProperties properties = properties.map fun entry => (entry.1, entry.2.prune) := by
  induction properties with
  | nil => rw [pruneProperties, List.map_nil]
  | cons entry properties ih => rw [pruneProperties, List.map_cons, ih]

/-- Under a kept name stands the pruned argument, under any other nothing. -/
theorem get?_pruneEntries (kept : List Text) (entries : List (Key × Value)) (name : Text) :
    Entries.get? (pruneEntries kept entries) name =
      if kept.contains name then (Entries.get? entries name).map (pruneArgument name)
      else none := by
  induction entries with
  | nil => simp [pruneEntries, Entries.get?]
  | cons entry entries ih =>
      obtain ⟨key, argument⟩ := entry
      cases key with
      | str keyword =>
          rw [pruneEntries, Entries.get?]
          by_cases hkept : kept.contains keyword = true
          · rw [if_pos hkept, Entries.get?, ih]
            by_cases hname : keyword = name
            · subst hname
              rw [if_pos rfl, if_pos rfl, if_pos hkept, Option.map_some]
            · rw [if_neg hname, if_neg hname]
          · rw [if_neg hkept, ih]
            by_cases hname : keyword = name
            · subst hname
              rw [if_neg hkept, if_neg hkept]
            · rw [if_neg hname]
      | _ =>
          rw [pruneEntries, Entries.get?, ih]
          all_goals simp

theorem exists_kept_of_mem_pruneEntries {kept : List Text} {entries : List (Key × Value)}
    {entry : Key × Value} (h : entry ∈ pruneEntries kept entries) :
    ∃ keyword ∈ kept, entry.1 = .str keyword := by
  induction entries with
  | nil => simp [pruneEntries] at h
  | cons first entries ih =>
      obtain ⟨key, argument⟩ := first
      cases key with
      | str keyword =>
          rw [pruneEntries] at h
          split at h
          · next hkept =>
            rcases List.mem_cons.mp h with rfl | h
            · exact ⟨keyword, List.contains_iff_mem.mp hkept, rfl⟩
            · exact ih h
          · exact ih h
      | _ =>
          rw [pruneEntries] at h
          · exact ih h
          all_goals simp

theorem canShow_of_mem_pruneEntries [Platform] {kept : List Text} {entries : List (Key × Value)}
    {entry : Key × Value} (h : entry ∈ pruneEntries kept entries) : entry.1.canShow = true := by
  obtain ⟨keyword, -, hkeyword⟩ := exists_kept_of_mem_pruneEntries h
  rw [hkeyword]
  rfl

theorem pruneArgument_eq_self {keyword : Text} (hlists : listsSchemas keyword = false)
    (hitems : keyword ≠ "items") (hproperties : keyword ≠ "properties") (argument : Value) :
    pruneArgument keyword argument = argument := by
  cases argument with
  | list schemas => simp [pruneArgument, hlists]
  | mapping form entries => simp [pruneArgument, hitems, hproperties]
  | _ => rw [pruneArgument] <;> simp

theorem pruneArgument_items {items : Value} (hother : ∀ schemas, items ≠ .list schemas) :
    pruneArgument "items" items = items.prune := by
  cases items with
  | list schemas => exact absurd rfl (hother schemas)
  | mapping form entries => rw [pruneArgument, if_pos rfl, Value.prune]
  | _ => rw [pruneArgument, Value.prune] <;> simp

/-- A directive with the schemas in its argument pruned. -/
def Directive.prune : Directive → Directive
  | .combine combinator variants => .combine combinator (pruneArgument combinator.keyword variants)
  | other => other

/-- The keywords that are read once a directive is known. -/
def Directive.keywords : Directive → List Text
  | .const _ => ["const"]
  | .enum _ => ["enum"]
  | .combine combinator _ => [combinator.keyword]
  | .type name => "type" :: typeKeywords name
  | .absent => []

theorem readKeywords_eq (entries : List (Key × Value)) :
    readKeywords entries = (directive entries).keywords := by
  rw [readKeywords, decidingKeyword?_eq]
  cases directive entries with
  | combine combinator variants => cases combinator <;> rfl
  | _ => rfl

theorem notMem_typeKeywords (name : Value) :
    ∀ keyword ∈ [Text.plain "const", "enum", "oneOf", "anyOf", "allOf"],
      keyword ∉ typeKeywords name := by
  unfold typeKeywords
  split <;> decide

/-- The keywords that decide are all kept, so the same one still decides. -/
theorem directive_prune (entries : List (Key × Value)) :
    directive (pruneEntries (readKeywords entries) entries) = (directive entries).prune := by
  have hkeywords := readKeywords_eq entries
  have hplain : ∀ keyword ∈ [Text.plain "const", "enum", "type"], ∀ argument,
      pruneArgument keyword argument = argument := by
    intro keyword hmem argument
    apply pruneArgument_eq_self
    all_goals
      revert keyword
      decide
  cases hdirective : directive entries with
  | const value =>
      rw [hdirective, Directive.keywords] at hkeywords
      have hget := get?_of_directive (congrArg Directive.keyword? hdirective)
      simp [directive, get?_pruneEntries, hkeywords, hget, hplain, Directive.prune]
  | enum values =>
      rw [hdirective, Directive.keywords] at hkeywords
      have hget := get?_of_directive (congrArg Directive.keyword? hdirective)
      simp [directive, get?_pruneEntries, hkeywords, hget, hplain, Directive.prune]
  | combine combinator variants =>
      rw [hdirective, Directive.keywords] at hkeywords
      have hget := get?_of_directive_combine hdirective
      cases combinator <;>
        simp_all [directive, get?_pruneEntries, Combinator.keyword, Directive.prune]
  | type name =>
      rw [hdirective, Directive.keywords] at hkeywords
      have hget := get?_of_directive (congrArg Directive.keyword? hdirective)
      have hlater := notMem_typeKeywords name
      simp [directive, get?_pruneEntries, hkeywords, hlater, hget, hplain, Directive.prune]
  | absent =>
      rw [hdirective, Directive.keywords] at hkeywords
      simp [directive, get?_pruneEntries, hkeywords, Directive.prune]

/-! ## Runs that differ in remarks only -/

/-- The issues about malformed parts. -/
def malformedIssues (issues : List SchemaIssue) : List SchemaIssue :=
  issues.filter fun issue => issue.code = .malformedSchema

theorem malformedIssues_append (before after : List SchemaIssue) :
    malformedIssues (before ++ after) = malformedIssues before ++ malformedIssues after :=
  List.filter_append ..

namespace Resolution

variable {α β : Type}

/-- Two runs stop alike, or give the same result and the same issues about malformed parts, unless
the first is refused. -/
inductive SameCourse : Resolution α → Resolution α → Prop
  | refused (refusal : Refusal) (x' : Resolution α) : SameCourse (.error (.refused refusal)) x'
  | found {a : α} {issues issues' : List SchemaIssue}
      (h : malformedIssues issues = malformedIssues issues') :
      SameCourse (.ok (a, issues)) (.ok (a, issues'))
  | stopped (stop : Stop) : SameCourse (.error stop) (.error stop)

theorem SameCourse.refl (x : Resolution α) : SameCourse x x := by
  cases x with
  | ok found => exact .found rfl
  | error stop => exact .stopped stop

theorem SameCourse.bind {x x' : Resolution α} {f f' : α → Resolution β} (hx : SameCourse x x')
    (hf : ∀ a, SameCourse (f a) (f' a)) : SameCourse (x >>= f) (x' >>= f') := by
  cases hx with
  | refused refusal _ => exact .refused refusal _
  | stopped stop => exact .stopped stop
  | @found a issues issues' h =>
      have hnext := hf a
      simp only [Bind.bind]
      generalize f a = y at hnext
      generalize f' a = y' at hnext
      cases hnext with
      | refused refusal _ => exact .refused refusal _
      | stopped stop => exact .stopped stop
      | found h' =>
          apply SameCourse.found
          rw [malformedIssues_append, malformedIssues_append, h, h']

theorem sameCourse_each {f f' : α → Resolution β} {xs : List α}
    (h : ∀ x ∈ xs, SameCourse (f x) (f' x)) : SameCourse (each f xs) (each f' xs) := by
  induction xs with
  | nil => exact .refl _
  | cons x xs ih =>
      obtain ⟨hx, hxs⟩ := List.forall_mem_cons.mp h
      rw [each, each]
      apply hx.bind
      intro y
      apply (ih hxs).bind
      intro ys
      exact .refl _

/-- A run that notes nothing malformed, or is refused where it may be. -/
inductive RemarksOnly (mayRefuse : Prop) : Resolution α → Prop
  | refused (refusal : Refusal) (h : mayRefuse) : RemarksOnly mayRefuse (.error (.refused refusal))
  | found (a : α) {issues : List SchemaIssue} (h : malformedIssues issues = []) :
      RemarksOnly mayRefuse (.ok (a, issues))

variable {mayRefuse : Prop}

theorem RemarksOnly.bind {x : Resolution α} {f : α → Resolution β} (hx : RemarksOnly mayRefuse x)
    (hf : ∀ a, RemarksOnly mayRefuse (f a)) : RemarksOnly mayRefuse (x >>= f) := by
  cases hx with
  | refused refusal h => exact .refused refusal h
  | @found a issues h =>
      have hnext := hf a
      simp only [Bind.bind]
      generalize f a = y at hnext
      cases hnext with
      | refused refusal h' => exact .refused refusal h'
      | @found b issues' h' => exact .found b (by rw [malformedIssues_append, h, h']; rfl)

theorem remarksOnly_each {f : α → Resolution β} {xs : List α}
    (h : ∀ x ∈ xs, RemarksOnly mayRefuse (f x)) : RemarksOnly mayRefuse (each f xs) := by
  induction xs with
  | nil => exact .found [] rfl
  | cons x xs ih =>
      obtain ⟨hx, hxs⟩ := List.forall_mem_cons.mp h
      exact hx.bind fun y => (ih hxs).bind fun ys => .found (y :: ys) rfl

end Resolution

open Resolution

theorem sameCourse_bounded {α : Type} {x x' : Resolution α} (settings : ResolverSettings)
    (place : Pointer) (depth : Nat) (h : SameCourse x x') :
    SameCourse (settings.bounded place depth x) (settings.bounded place depth x') := by
  rw [ResolverSettings.bounded, ResolverSettings.bounded]
  split
  · exact .stopped _
  · exact h

theorem remarksOnly_unsupported (settings : ResolverSettings) (place : Pointer) (message : Text)
    (mayRefuse : Prop) : RemarksOnly mayRefuse (settings.unsupported place message) := by
  rw [ResolverSettings.unsupported]
  split
  · exact .found () rfl
  · exact .found () rfl

section Keywords

variable [Platform] (settings : ResolverSettings) (place : Pointer)

/-- Reporting keywords notes nothing malformed, whichever they are. -/
theorem remarksOnly_reportKeywords {entries : List (Key × Value)} {mayRefuse : Prop}
    (h : ∀ entry ∈ entries, entry.1.canShow = true ∨ mayRefuse) :
    RemarksOnly mayRefuse (reportKeywords settings place entries) := by
  rw [reportKeywords]
  refine (remarksOnly_each fun key hkey => ?_).bind fun _ => .found () rfl
  obtain ⟨entry, hmem, rfl⟩ := List.mem_map.mp (List.mem_filter.mp hkey).1
  refine RemarksOnly.bind ?_ fun text => remarksOnly_unsupported settings _ _ _
  rw [keyText, Fault.unlessLong]
  split
  · exact .found _ rfl
  · next hlong => exact .refused (.longInteger Platform.refusal) ((h entry hmem).resolve_left hlong)

/-- Keywords that can all be shown are reported without a refusal. -/
theorem sameCourse_reportKeywords {entries' : List (Key × Value)}
    (h : ∀ entry ∈ entries', entry.1.canShow = true) (entries : List (Key × Value)) :
    SameCourse (reportKeywords settings place entries)
      (reportKeywords settings place entries') := by
  have hwhole : RemarksOnly True (reportKeywords settings place entries) :=
    remarksOnly_reportKeywords settings place fun _ _ => .inr trivial
  have hpart : RemarksOnly False (reportKeywords settings place entries') :=
    remarksOnly_reportKeywords settings place fun entry hmem => .inl (h entry hmem)
  generalize reportKeywords settings place entries = whole at hwhole
  generalize reportKeywords settings place entries' = part at hpart
  cases hwhole with
  | refused refusal _ => exact .refused refusal part
  | found _ hquiet =>
      cases hpart with
      | refused _ hnever => exact hnever.elim
      | found _ hquiet' => exact .found (hquiet.trans hquiet'.symm)

end Keywords

/-! ## Reading a pruned node -/

theorem resolveRequired_congr {entries entries' : List (Key × Value)}
    (h : Entries.get? entries' "required" = Entries.get? entries "required")
    (settings : ResolverSettings) (place : Pointer) (declared : List (Key × Model)) :
    resolveRequired settings entries' place declared =
      resolveRequired settings entries place declared := by
  rw [resolveRequired, resolveRequired, h]

theorem allowsAdditional_congr {entries entries' : List (Key × Value)}
    (h : Entries.get? entries' "additionalProperties" =
      Entries.get? entries "additionalProperties") :
    allowsAdditional entries' = allowsAdditional entries := by
  rw [allowsAdditional, allowsAdditional, h]

theorem readItems_eq {entries : List (Key × Value)} {items : Value}
    (hitems : Entries.get? entries "items" = some items) (hother : ∀ schemas, items ≠ .list schemas)
    (settings : ResolverSettings) (read : Reader) (place : Pointer) (depth : Nat) :
    readItems settings read entries place depth = (do
      let model ← read items (place.child "items") (depth + 1)
      pure (.array model)) := by
  rw [readItems, hitems]
  cases items with
  | list schemas => exact absurd rfl (hother schemas)
  | _ => rfl

theorem prune_ne_list {schema : Value} (hother : ∀ schemas, schema ≠ .list schemas) :
    ∀ schemas, schema.prune ≠ .list schemas := by
  intro schemas
  cases schema with
  | list schemas => exact absurd rfl (hother schemas)
  | _ => simp [Value.prune]

section Readers

variable (settings : ResolverSettings) {read : Reader} {form : MappingForm}
  {entries : List (Key × Value)} (h : ∀ sub ∈ (Value.mapping form entries).subschemas,
    ∀ place depth, SameCourse (read sub place depth) (read sub.prune place depth))

include h

/-- Pruning leaves usable variants usable and the others as they are. -/
theorem sameCourse_readVariants [Platform] {combinator : Combinator} {variants : Value}
    (hdirective : directive entries = .combine combinator variants) (place : Pointer)
    (depth : Nat) :
    SameCourse (readVariants settings read combinator variants place depth)
      (readVariants settings read combinator (pruneArgument combinator.keyword variants) place
        depth) := by
  have hlists : listsSchemas combinator.keyword = true := by
    cases combinator <;> decide
  cases variants with
  | list schemas =>
      rw [pruneArgument, if_pos hlists, pruneSchemas_eq]
      cases schemas with
      | nil => exact .refl _
      | cons first rest =>
          rw [subschemas_variants hdirective] at h
          rw [readVariants, List.map_cons, readVariants, ← List.map_cons, List.zipIdx_map, each_map]
          apply SameCourse.bind
          · apply sameCourse_each
            intro x hx
            exact h x.1 (List.fst_mem_of_mem_zipIdx hx) _ _
          · intro models
            exact .refl _
  | mapping inner schemas =>
      rw [pruneArgument, if_neg (by cases combinator <;> decide),
        if_neg (by cases combinator <;> decide)]
      exact .refl _
  | _ =>
      rw [pruneArgument]
      · exact .refl _
      all_goals simp

theorem sameCourse_readItems {name : Text} (hdirective : directive entries = .type (.str name))
    (hname : TypeName.ofName? name = some .array) {entries' : List (Key × Value)}
    (hitems : Entries.get? entries' "items" =
      (Entries.get? entries "items").map (pruneArgument "items"))
    (place : Pointer) (depth : Nat) :
    SameCourse (readItems settings read entries place depth)
      (readItems settings read entries' place depth) := by
  cases hfound : Entries.get? entries "items" with
  | none =>
      rw [readItems, readItems, hitems, hfound]
      exact .refl _
  | some items =>
      rw [hfound, Option.map_some] at hitems
      by_cases hlist : ∃ schemas, items = .list schemas
      · obtain ⟨schemas, rfl⟩ := hlist
        rw [pruneArgument] at hitems
        rw [readItems, readItems, hitems, hfound]
        exact .refl _
      · have hother := not_exists.mp hlist
        rw [subschemas_items hdirective hname hfound hother] at h
        rw [pruneArgument_items hother] at hitems
        rw [readItems_eq hfound hother, readItems_eq hitems (prune_ne_list hother)]
        apply (h items List.mem_cons_self _ _).bind
        intro model
        exact .refl _

theorem sameCourse_readProperties [Platform] {name : Text}
    (hdirective : directive entries = .type (.str name))
    (hname : TypeName.ofName? name = some .object) {entries' : List (Key × Value)}
    (hproperties : Entries.get? entries' "properties" =
      (Entries.get? entries "properties").map (pruneArgument "properties"))
    (place : Pointer) (depth : Nat) :
    SameCourse (readProperties settings read entries place depth)
      (readProperties settings read entries' place depth) := by
  rw [readProperties, readProperties, hproperties]
  cases hfound : Entries.get? entries "properties" with
  | none => exact .refl _
  | some found =>
      rw [Option.map_some]
      cases found with
      | mapping inner properties =>
          rw [subschemas_properties hdirective hname hfound] at h
          rw [pruneArgument, if_neg (by decide), if_pos rfl, pruneProperties_eq]
          simp only
          rw [each_map]
          apply sameCourse_each
          intro entry hmem
          apply (SameCourse.refl _).bind
          intro text
          apply (h entry.2 (List.mem_map_of_mem hmem) _ _).bind
          intro model
          exact .refl _
      | list schemas =>
          rw [pruneArgument, if_neg (by decide)]
          exact .refl _
      | _ =>
          rw [pruneArgument]
          · exact .refl _
          all_goals simp

/-- A typed node keeps the keywords that its type reads. -/
theorem sameCourse_readType [Platform] {name : Value} (hdirective : directive entries = .type name)
    (place : Pointer) (depth : Nat) :
    SameCourse (readType settings read entries name place depth)
      (readType settings read (pruneEntries (readKeywords entries) entries) name place depth) := by
  have hkeywords := readKeywords_eq entries
  rw [hdirective, Directive.keywords] at hkeywords
  cases name with
  | str name =>
      rw [readType, readType]
      cases hname : TypeName.ofName? name with
      | none => exact .refl _
      | some type =>
          cases type with
          | string | number | boolean | null => exact .refl _
          | array =>
              rw [TypeName.eq_of_ofName?_array hname, typeKeywords] at hkeywords
              apply sameCourse_readItems settings h hdirective hname
              rw [get?_pruneEntries, hkeywords, if_pos (by decide)]
          | object =>
              rw [TypeName.eq_of_ofName?_object hname, typeKeywords] at hkeywords
              have hget : ∀ keyword ∈ [Text.plain "required", "additionalProperties"],
                  Entries.get? (pruneEntries (readKeywords entries) entries) keyword =
                    Entries.get? entries keyword := by
                intro keyword hmem
                rw [get?_pruneEntries, hkeywords, if_pos (by revert keyword; decide)]
                have hplain : pruneArgument keyword = id := by
                  funext argument
                  apply pruneArgument_eq_self
                  all_goals
                    revert keyword
                    decide
                rw [hplain, Option.map_id, id]
              apply SameCourse.bind
              · apply sameCourse_readProperties settings h hdirective hname
                rw [get?_pruneEntries, hkeywords, if_pos (by decide)]
              · intro properties
                rw [resolveRequired_congr (hget _ (by decide)),
                  allowsAdditional_congr (hget _ (by decide))]
                exact .refl _
  | _ =>
      rw [readType, readType]
      · exact .refl _
      all_goals simp

theorem sameCourse_readDirective [Platform] (place : Pointer) (depth : Nat) :
    SameCourse (readDirective settings read entries place depth (directive entries))
      (readDirective settings read (pruneEntries (readKeywords entries) entries) place depth
        (directive entries).prune) := by
  cases hdirective : directive entries with
  | const value => exact .refl _
  | enum values => exact .refl _
  | combine combinator variants => exact sameCourse_readVariants settings h hdirective place depth
  | type name => exact sameCourse_readType settings h hdirective place depth
  | absent => exact .refl _

end Readers

/-- A node is read with or without its unread keywords, apart from what is said about them. -/
theorem sameCourse_resolveNode [Platform] (settings : ResolverSettings) (node : Value)
    (place : Pointer)
    (depth : Nat) :
    SameCourse (resolveNode settings node place depth)
      (resolveNode settings node.prune place depth) := by
  induction node using schemaInduction generalizing place depth with
  | step node ih =>
    cases node with
    | mapping form entries =>
        rw [Value.prune, resolveNode_mapping, resolveNode_mapping, directive_prune]
        apply sameCourse_bounded
        apply (sameCourse_reportKeywords settings place
          (fun _ hmem => canShow_of_mem_pruneEntries hmem) entries).bind
        intro _
        exact sameCourse_readDirective settings ih place depth
    | _ =>
        rw [Value.prune]
        · exact .refl _
        all_goals simp

/-! ## What pruning leaves -/

section Left

variable {form form' : MappingForm} {entries entries' : List (Key × Value)}

theorem subschemas_prune_items {name : Text} (hdirective : directive entries = .type (.str name))
    (hdirective' : directive entries' = .type (.str name))
    (hname : TypeName.ofName? name = some .array)
    (hitems : Entries.get? entries' "items" =
      (Entries.get? entries "items").map (pruneArgument "items")) :
    (Value.mapping form' entries').subschemas =
      (Value.mapping form entries).subschemas.map Value.prune := by
  cases hfound : Entries.get? entries "items" with
  | none =>
      rw [subschemas_items_unusable hdirective hname (by rw [itemSchema?, hfound]),
        subschemas_items_unusable hdirective' hname (by rw [itemSchema?, hitems, hfound]; rfl),
        List.map_nil]
  | some items =>
      rw [hfound, Option.map_some] at hitems
      by_cases hlist : ∃ schemas, items = .list schemas
      · obtain ⟨schemas, rfl⟩ := hlist
        rw [pruneArgument] at hitems
        rw [subschemas_items_unusable hdirective hname (by rw [itemSchema?, hfound]),
          subschemas_items_unusable hdirective' hname (by rw [itemSchema?, hitems]), List.map_nil]
      · have hother := not_exists.mp hlist
        rw [pruneArgument_items hother] at hitems
        rw [subschemas_items hdirective hname hfound hother,
          subschemas_items hdirective' hname hitems (prune_ne_list hother), List.map_singleton]

theorem subschemas_prune_properties {name : Text}
    (hdirective : directive entries = .type (.str name))
    (hdirective' : directive entries' = .type (.str name))
    (hname : TypeName.ofName? name = some .object)
    (hproperties : Entries.get? entries' "properties" =
      (Entries.get? entries "properties").map (pruneArgument "properties")) :
    (Value.mapping form' entries').subschemas =
      (Value.mapping form entries).subschemas.map Value.prune := by
  by_cases hfound : ∃ inner properties,
      Entries.get? entries "properties" = some (.mapping inner properties)
  · obtain ⟨inner, properties, hfound⟩ := hfound
    rw [hfound, Option.map_some, pruneArgument, if_neg (by decide), if_pos rfl,
      pruneProperties_eq] at hproperties
    rw [subschemas_properties hdirective hname hfound,
      subschemas_properties hdirective' hname hproperties, List.map_map, List.map_map]
    rfl
  · simp only [not_exists] at hfound
    rw [subschemas_properties_unusable hdirective hname hfound,
      subschemas_properties_unusable hdirective' hname, List.map_nil]
    intro inner properties hmapping
    rw [hproperties] at hmapping
    obtain ⟨argument, hargument, heq⟩ := Option.map_eq_some_iff.mp hmapping
    cases argument with
    | mapping form declared => exact hfound form declared hargument
    | list schemas => simp [pruneArgument] at heq
    | _ => simp [pruneArgument] at heq

theorem subschemas_prune_variants {combinator : Combinator} {variants : Value}
    (hdirective : directive entries = .combine combinator variants)
    (hdirective' : directive entries' =
      .combine combinator (pruneArgument combinator.keyword variants)) :
    (Value.mapping form' entries').subschemas =
      (Value.mapping form entries).subschemas.map Value.prune := by
  by_cases hlist : ∃ schemas, variants = .list schemas
  · obtain ⟨schemas, rfl⟩ := hlist
    rw [pruneArgument, if_pos (by cases combinator <;> decide), pruneSchemas_eq] at hdirective'
    rw [subschemas_variants hdirective, subschemas_variants hdirective']
  · have hother := not_exists.mp hlist
    rw [subschemas_variants_unusable hdirective fun first rest => hother (first :: rest),
      subschemas_variants_unusable hdirective', List.map_nil]
    intro first rest heq
    cases variants with
    | list schemas => exact hother schemas rfl
    | mapping form schemas => cases combinator <;> simp [pruneArgument, Combinator.keyword] at heq
    | _ => simp [pruneArgument] at heq

end Left

/-- Pruning takes place inside the subschemas and drops none of them. -/
theorem subschemas_prune (node : Value) :
    node.prune.subschemas = node.subschemas.map Value.prune := by
  cases node with
  | mapping form entries =>
      have hdirective' := directive_prune entries
      have hkeywords := readKeywords_eq entries
      rw [Value.prune]
      cases hdirective : directive entries with
      | combine combinator variants =>
          rw [hdirective] at hdirective'
          exact subschemas_prune_variants hdirective hdirective'
      | type name =>
          rw [hdirective] at hdirective' hkeywords
          by_cases harray : ∃ text, name = .str text ∧ TypeName.ofName? text = some .array
          · obtain ⟨text, rfl, hname⟩ := harray
            rw [Directive.keywords, TypeName.eq_of_ofName?_array hname, typeKeywords] at hkeywords
            apply subschemas_prune_items hdirective hdirective' hname
            rw [get?_pruneEntries, hkeywords, if_pos (by decide)]
          · by_cases hobject : ∃ text, name = .str text ∧ TypeName.ofName? text = some .object
            · obtain ⟨text, rfl, hname⟩ := hobject
              rw [Directive.keywords, TypeName.eq_of_ofName?_object hname, typeKeywords]
                at hkeywords
              apply subschemas_prune_properties hdirective hdirective' hname
              rw [get?_pruneEntries, hkeywords, if_pos (by decide)]
            · rw [subschemas_type_plain hdirective, subschemas_type_plain hdirective', List.map_nil]
              all_goals simp_all
      | _ =>
          rw [hdirective] at hdirective'
          rw [Value.subschemas, Value.subschemas, decidingKeyword?_eq, decidingKeyword?_eq,
            hdirective', hdirective]
          rfl
  | _ =>
      rw [Value.prune]
      · rfl
      all_goals simp

/-- A node with no keyword besides those that are read. -/
def IsPruned (node : Value) : Prop :=
  ∀ form entries, node = .mapping form entries →
    ∀ entry ∈ entries, ∃ keyword ∈ readKeywords entries, entry.1 = .str keyword

/-- What is kept are keywords that the pruned node still reads. -/
theorem isPruned_prune (node : Value) : IsPruned node.prune := by
  intro form pruned heq
  cases node with
  | mapping form entries =>
      rw [Value.prune] at heq
      cases heq
      have hkeywords : readKeywords (pruneEntries (readKeywords entries) entries) =
          readKeywords entries := by
        rw [readKeywords_eq, directive_prune, readKeywords_eq]
        cases directive entries <;> rfl
      rw [hkeywords]
      exact fun entry hmem => exists_kept_of_mem_pruneEntries hmem
  | _ =>
      rw [Value.prune] at heq
      · cases heq
      all_goals simp

theorem isPruned_of_visited (depth : Nat) (node : Value) :
    ∀ visit ∈ node.prune.visits depth, IsPruned visit.2 := by
  induction node using schemaInduction generalizing depth with
  | step node ih =>
    intro visit hmem
    rw [visits_eq, subschemas_prune, List.flatMap_map] at hmem
    rcases List.mem_cons.mp hmem with rfl | hmem
    · exact isPruned_prune node
    · obtain ⟨sub, hsub, hvisit⟩ := List.mem_flatMap.mp hmem
      exact ih sub hsub _ visit hvisit

/-- The model of a result and what it says about malformed parts. -/
def ResolutionResult.essence (result : ResolutionResult) : Model × List SchemaIssue :=
  (result.model, malformedIssues result.issues)

end SchemaModel
