import SchemaModel.Proofs.Schema.Coupling
import SchemaModel.Proofs.Schema.Curtailed

/-!
# The depth ceiling

How deep a document reaches can be told from the document alone: every schema that reading goes on
to stands one deeper than its parent, and the literals of a node hang below it.  Lenient reading
stops at the ceiling exactly when the document reaches below it, and a ceiling that is not reached
has no influence on the result.
-/

namespace SchemaModel

/-! ## How deep a document reaches -/

/-- The schemas that reading a schema at a depth visits, each with its own depth. -/
def Value.visits (depth : Nat) (schema : Value) : List (Nat × Value) :=
  (depth, schema) :: schema.subschemas.attach.flatMap fun ⟨sub, _⟩ => sub.visits (depth + 1)
termination_by sizeOf schema
decreasing_by exact sizeOf_lt_of_mem_subschemas ‹_›

/-- How deep a visited schema and its literals go. -/
def visitReach (visit : Nat × Value) : Nat :=
  (visit.2.literals.map fun literal => visit.1 + 1 + literal.height).foldr max visit.1

/-- How deep a document goes. -/
def Value.reach (schema : Value) : Nat :=
  ((schema.visits 0).map visitReach).foldr max 0

theorem visits_eq (depth : Nat) (schema : Value) :
    schema.visits depth =
      (depth, schema) :: schema.subschemas.flatMap fun sub => sub.visits (depth + 1) := by
  rw [Value.visits, List.flatMap_subtype (g := fun sub => sub.visits (depth + 1)) fun _ _ => rfl,
    List.unattach_attach]

theorem foldr_max_le_iff {xs : List Nat} {start limit : Nat} :
    xs.foldr max start ≤ limit ↔ start ≤ limit ∧ ∀ x ∈ xs, x ≤ limit := by
  induction xs with
  | nil => simp
  | cons x xs ih =>
      rw [List.foldr_cons, Nat.max_le, ih, List.forall_mem_cons]
      exact and_left_comm

/-- Whether a schema that stands at a depth reaches no deeper than a limit. -/
def StaysWithin (limit depth : Nat) (schema : Value) : Prop :=
  ∀ visit ∈ schema.visits depth, visitReach visit ≤ limit

theorem staysWithin_iff {limit depth : Nat} {schema : Value} :
    StaysWithin limit depth schema ↔
      depth ≤ limit ∧ (∀ literal ∈ schema.literals, depth + 1 + literal.height ≤ limit) ∧
        ∀ sub ∈ schema.subschemas, StaysWithin limit (depth + 1) sub := by
  have hhere : visitReach (depth, schema) ≤ limit ↔
      depth ≤ limit ∧ ∀ literal ∈ schema.literals, depth + 1 + literal.height ≤ limit := by
    rw [visitReach, foldr_max_le_iff, List.forall_mem_map]
  rw [StaysWithin, visits_eq, List.forall_mem_cons, hhere, List.forall_mem_flatMap, and_assoc]
  rfl

theorem staysWithin_root_iff {limit : Nat} {schema : Value} :
    StaysWithin limit 0 schema ↔ schema.reach ≤ limit := by
  rw [Value.reach, foldr_max_le_iff, List.forall_mem_map, StaysWithin]
  simp

/-! ## Runs that stop at the ceiling only -/

namespace Resolution

variable {α β : Type} {limit : Nat} {p q : Prop}

/-- Faults aside, a run gives a result when a condition holds and stops at the ceiling when it does
not. -/
def SucceedsIff (limit : Nat) (p : Prop) : Resolution α → Prop
  | .ok _ => p
  | .error (.tooDeep _ ceiling) => ceiling = limit ∧ ¬p
  | .error (.malformed ..) => False
  | .error (.fault _) => True

theorem SucceedsIff.congr {x : Resolution α} (h : SucceedsIff limit p x) (hpq : p ↔ q) :
    SucceedsIff limit q x :=
  propext hpq ▸ h

theorem succeedsIff_pure (a : α) : SucceedsIff limit True (pure a) :=
  trivial

theorem succeedsIff_ofFault (made : Except Fault α) : SucceedsIff limit True (ofFault made) := by
  cases made <;> exact trivial

/-- Two steps under one limit succeed together exactly if both of them would. -/
theorem SucceedsIff.bind {x : Resolution α} {f : α → Resolution β} (hx : SucceedsIff limit p x)
    (hf : ∀ a, SucceedsIff limit q (f a)) : SucceedsIff limit (p ∧ q) (x >>= f) := by
  cases x with
  | ok found =>
      have hp : p := hx
      have hnext := hf found.1
      simp only [Bind.bind]
      generalize f found.1 = y at hnext
      match y, hnext with
      | .ok _, hq => exact ⟨hp, hq⟩
      | .error (.tooDeep _ _), ⟨hlimit, hq⟩ => exact ⟨hlimit, fun h => hq h.2⟩
      | .error (.fault _), _ => exact trivial
  | error stop =>
      cases stop with
      | malformed message path => exact hx.elim
      | tooDeep path ceiling => exact ⟨hx.1, fun h => hx.2 h.1⟩
      | fault cause => exact trivial

theorem SucceedsIff.bind_left {x : Resolution α} {f : α → Resolution β}
    (hx : SucceedsIff limit p x) (hf : ∀ a, SucceedsIff limit True (f a)) :
    SucceedsIff limit p (x >>= f) :=
  (hx.bind hf).congr (and_iff_left trivial)

theorem SucceedsIff.bind_right {x : Resolution α} {f : α → Resolution β}
    (hx : SucceedsIff limit True x) (hf : ∀ a, SucceedsIff limit p (f a)) :
    SucceedsIff limit p (x >>= f) :=
  (hx.bind hf).congr (and_iff_right trivial)

theorem succeedsIff_each {γ : Type} {f : α → Resolution β} {xs : List α} (part : α → γ)
    {p : γ → Prop} (h : ∀ x ∈ xs, SucceedsIff limit (p (part x)) (f x)) :
    SucceedsIff limit (∀ y ∈ xs.map part, p y) (each f xs) := by
  induction xs with
  | nil => exact (succeedsIff_pure []).congr (by simp)
  | cons x xs ih =>
      obtain ⟨hx, hxs⟩ := List.forall_mem_cons.mp h
      rw [each, List.map_cons]
      apply (hx.bind fun y => (ih hxs).bind_left fun ys => succeedsIff_pure (y :: ys)).congr
      exact List.forall_mem_cons.symm

theorem succeedsIff_each_true {f : α → Resolution β} {xs : List α}
    (h : ∀ x, SucceedsIff limit True (f x)) : SucceedsIff limit True (each f xs) :=
  (succeedsIff_each (p := fun _ => True) id fun x _ => h x).congr (by simp)

end Resolution

open Resolution

section Lenient

variable (limit : Nat) (report : Bool)

theorem succeedsIff_unsupported (place : Pointer) (message : Text) :
    SucceedsIff limit True
      ((⟨limit, false, report⟩ : ResolverSettings).unsupported place message) := by
  rw [ResolverSettings.unsupported]
  split <;> exact trivial

theorem succeedsIff_bounded {α : Type} {p : Prop} {x : Resolution α} (place : Pointer) (depth : Nat)
    (h : SucceedsIff limit p x) :
    SucceedsIff limit (depth ≤ limit ∧ p)
      ((⟨limit, false, report⟩ : ResolverSettings).bounded place depth x) := by
  rw [ResolverSettings.bounded]
  split
  · next hbelow => exact ⟨rfl, fun hp => absurd hp.1 (Nat.not_le.mpr hbelow)⟩
  · next habove => exact h.congr (and_iff_right (Nat.not_lt.mp habove)).symm

theorem succeedsIff_malformed_then {α : Type} (place : Pointer) (message : Text) (a : α) :
    SucceedsIff limit True (do
      (⟨limit, false, report⟩ : ResolverSettings).malformed place message
      pure a) :=
  trivial

theorem succeedsIff_unsupported_then {α : Type} (place : Pointer) (message : Text) (a : α) :
    SucceedsIff limit True (do
      (⟨limit, false, report⟩ : ResolverSettings).unsupported place message
      pure a) :=
  (succeedsIff_unsupported limit report place message).bind_left fun _ => succeedsIff_pure a

theorem succeedsIff_reportKeywords [Platform] (place : Pointer) (entries : List (Key × Value)) :
    SucceedsIff limit True (reportKeywords ⟨limit, false, report⟩ place entries) := by
  rw [reportKeywords]
  apply SucceedsIff.bind_left
  · apply succeedsIff_each_true
    intro key
    apply (succeedsIff_ofFault _).bind_left
    intro text
    exact succeedsIff_unsupported limit report _ _
  · intro _
    exact succeedsIff_pure ()

theorem succeedsIff_resolveConst (value : Value) (place : Pointer) (depth : Nat) :
    SucceedsIff limit (depth + 1 + value.height ≤ limit)
      (resolveConst ⟨limit, false, report⟩ value place depth) := by
  rw [resolveConst_eq]
  apply (succeedsIff_bounded limit report place _ _).congr (and_iff_left trivial)
  split
  · exact succeedsIff_ofFault _
  · exact succeedsIff_malformed_then limit report _ _ _

theorem height_list_le_iff {first : Value} {rest : List Value} {depth : Nat} :
    depth + (Value.list (first :: rest)).height ≤ limit ↔
      ∀ member ∈ first :: rest, depth + 1 + member.height ≤ limit := by
  rw [Value.height]
  induction rest generalizing first with
  | nil =>
      simp only [Value.heightOfItems, List.mem_singleton, forall_eq]
      omega
  | cons second rest ih =>
      rw [List.forall_mem_cons, ← ih, Value.heightOfItems]
      omega

/-- The literals of an enumeration count from one level below the node. -/
theorem succeedsIff_resolveEnum (values : Value) (place : Pointer) (depth : Nat) :
    SucceedsIff limit
      (∀ literal ∈ (Directive.enum values).literals, depth + 1 + literal.height ≤ limit)
      (resolveEnum ⟨limit, false, report⟩ values place depth) := by
  have hnone : True ↔ ∀ literal ∈ ([] : List Value), depth + 1 + literal.height ≤ limit := by simp
  cases values with
  | list members =>
      cases members with
      | nil => exact (succeedsIff_malformed_then limit report _ _ _).congr hnone
      | cons first rest =>
          rw [resolveEnum_eq _ _ _ (List.cons_ne_nil _ _)]
          apply SucceedsIff.congr _ (height_list_le_iff limit)
          apply (succeedsIff_bounded limit report place _ _).congr (and_iff_left trivial)
          split
          · exact succeedsIff_ofFault _
          · exact succeedsIff_malformed_then limit report _ _ _
  | _ => exact (succeedsIff_malformed_then limit report _ _ _).congr hnone

/-- Reading required names never exceeds the limit. -/
theorem succeedsIff_resolveRequired (entries : List (Key × Value)) (place : Pointer)
    (declared : List (Key × Model)) :
    SucceedsIff limit True (resolveRequired ⟨limit, false, report⟩ entries place declared) := by
  rw [resolveRequired_eq, readRequired]
  apply SucceedsIff.bind_left
  · split
    · exact succeedsIff_pure _
    · exact succeedsIff_pure _
    · exact succeedsIff_malformed_then limit report _ _ _
  · intro names
    rw [keepDeclared]
    apply SucceedsIff.bind_left
    · apply succeedsIff_each_true
      intro name
      split
      · exact succeedsIff_pure _
      · exact succeedsIff_malformed_then limit report _ _ _
    · intro kept
      exact succeedsIff_pure _

end Lenient

/-! ## Reading by directives -/

section Readers

variable {limit depth : Nat} (report : Bool) {read : Reader} {form : MappingForm}
  {entries : List (Key × Value)} (h : ∀ sub ∈ (Value.mapping form entries).subschemas,
    ∀ place, SucceedsIff limit (StaysWithin limit (depth + 1) sub) (read sub place (depth + 1)))

include h

/-- Unusable variants are passed over, so only subschemas count. -/
theorem succeedsIff_readVariants [Platform] {combinator : Combinator} {variants : Value}
    (hdirective : directive entries = .combine combinator variants) (place : Pointer) :
    SucceedsIff limit
      (∀ sub ∈ (Value.mapping form entries).subschemas, StaysWithin limit (depth + 1) sub)
      (readVariants ⟨limit, false, report⟩ read combinator variants place depth) := by
  unfold readVariants
  split
  · next first rest =>
    rw [subschemas_variants hdirective] at h ⊢
    apply SucceedsIff.bind_left
    · have hfst := List.zipIdx_map_fst 0 (first :: rest)
      suffices SucceedsIff limit
          (∀ sub ∈ (first :: rest).zipIdx.map Prod.fst, StaysWithin limit (depth + 1) sub) _ by
        rwa [hfst] at this
      apply succeedsIff_each Prod.fst
      intro x hx
      exact h x.1 (List.fst_mem_of_mem_zipIdx hx) _
    · intro models
      exact succeedsIff_ofFault _
  · next hother =>
    rw [subschemas_variants_unusable hdirective hother]
    exact (succeedsIff_malformed_then limit report _ _ _).congr (by simp)

theorem succeedsIff_readItems {name : Text} (hdirective : directive entries = .type (.str name))
    (hname : TypeName.ofName? name = some .array) (place : Pointer) :
    SucceedsIff limit
      (∀ sub ∈ (Value.mapping form entries).subschemas, StaysWithin limit (depth + 1) sub)
      (readItems ⟨limit, false, report⟩ read entries place depth) := by
  have hnone : itemSchema? entries = none → (True ↔
      ∀ sub ∈ (Value.mapping form entries).subschemas, StaysWithin limit (depth + 1) sub) := by
    intro hitems
    rw [subschemas_items_unusable hdirective hname hitems]
    simp
  rw [readItems]
  split
  · next hitems =>
    apply (succeedsIff_pure _).congr (hnone _)
    rw [itemSchema?, hitems]
  · next hitems =>
    apply (succeedsIff_unsupported_then limit report _ _ _).congr (hnone _)
    rw [itemSchema?, hitems]
  · next items hother hitems =>
    rw [subschemas_items hdirective hname hitems hother] at h ⊢
    apply ((h items List.mem_cons_self _).bind_left fun model => succeedsIff_pure _).congr
    exact List.forall_mem_singleton.symm

theorem succeedsIff_readProperties [Platform] {name : Text}
    (hdirective : directive entries = .type (.str name))
    (hname : TypeName.ofName? name = some .object) (place : Pointer) :
    SucceedsIff limit
      (∀ sub ∈ (Value.mapping form entries).subschemas, StaysWithin limit (depth + 1) sub)
      (readProperties ⟨limit, false, report⟩ read entries place depth) := by
  have hnone : (∀ inner properties,
      Entries.get? entries "properties" ≠ some (.mapping inner properties)) → (True ↔
        ∀ sub ∈ (Value.mapping form entries).subschemas, StaysWithin limit (depth + 1) sub) := by
    intro hproperties
    rw [subschemas_properties_unusable hdirective hname hproperties]
    simp
  rw [readProperties]
  split
  · next hfound =>
    apply (succeedsIff_pure _).congr (hnone _)
    simp [hfound]
  · next inner properties hfound =>
    rw [subschemas_properties hdirective hname hfound] at h ⊢
    apply succeedsIff_each Prod.snd
    intro entry hmem
    apply (succeedsIff_ofFault _).bind_right
    intro text
    apply (h entry.2 (List.mem_map_of_mem hmem) _).bind_left
    intro model
    exact succeedsIff_pure _
  · next found hother hfound =>
    apply (succeedsIff_malformed_then limit report _ _ _).congr (hnone _)
    intro inner properties hmapping
    rw [hfound] at hmapping
    exact hother inner properties (Option.some.inj hmapping)

/-- Arrays and objects go one level down, every other type stays. -/
theorem succeedsIff_readType [Platform] {name : Value} (hdirective : directive entries = .type name)
    (place : Pointer) :
    SucceedsIff limit
      (∀ sub ∈ (Value.mapping form entries).subschemas, StaysWithin limit (depth + 1) sub)
      (readType ⟨limit, false, report⟩ read entries name place depth) := by
  have hplain : (∀ text, name = .str text → TypeName.ofName? text ≠ some .array) →
      (∀ text, name = .str text → TypeName.ofName? text ≠ some .object) → (True ↔
        ∀ sub ∈ (Value.mapping form entries).subschemas, StaysWithin limit (depth + 1) sub) := by
    intro harray hobject
    rw [subschemas_type_plain hdirective harray hobject]
    simp
  unfold readType
  split
  · next name =>
    split
    · next hname => exact (succeedsIff_pure _).congr (hplain (by simp [hname]) (by simp [hname]))
    · next hname => exact (succeedsIff_pure _).congr (hplain (by simp [hname]) (by simp [hname]))
    · next hname => exact (succeedsIff_pure _).congr (hplain (by simp [hname]) (by simp [hname]))
    · next hname => exact (succeedsIff_pure _).congr (hplain (by simp [hname]) (by simp [hname]))
    · next hname => exact succeedsIff_readItems report h hdirective hname place
    · next hname =>
      apply (succeedsIff_readProperties report h hdirective hname place).bind_left
      intro properties
      apply (succeedsIff_resolveRequired limit report entries place properties).bind_left
      intro required
      exact succeedsIff_ofFault _
    · next hname =>
      apply (succeedsIff_unsupported_then limit report _ _ _).congr
      exact hplain (by simp [hname]) (by simp [hname])
  · next hother =>
    apply (succeedsIff_unsupported_then limit report _ _ _).congr
    exact hplain (fun text heq => absurd heq (hother text)) fun text heq => absurd heq (hother text)

/-- A node is read if its literals and its subschemas stay within the limit. -/
theorem succeedsIff_readDirective [Platform] (place : Pointer) :
    SucceedsIff limit
      ((∀ literal ∈ (Value.mapping form entries).literals, depth + 1 + literal.height ≤ limit) ∧
        ∀ sub ∈ (Value.mapping form entries).subschemas, StaysWithin limit (depth + 1) sub)
      (readDirective ⟨limit, false, report⟩ read entries place depth (directive entries)) := by
  rw [literals_eq]
  cases hdirective : directive entries with
  | const value =>
      apply (succeedsIff_resolveConst limit report value _ depth).congr
      rw [Value.subschemas, decidingKeyword?_eq, hdirective]
      simp [Directive.literals, Directive.keyword?]
  | enum values =>
      apply (succeedsIff_resolveEnum limit report values _ depth).congr
      rw [Value.subschemas, decidingKeyword?_eq, hdirective]
      simp [Directive.keyword?]
  | combine combinator variants =>
      apply (succeedsIff_readVariants report h hdirective place).congr
      simp [Directive.literals]
  | type name =>
      apply (succeedsIff_readType report h hdirective place).congr
      simp [Directive.literals]
  | absent =>
      apply (succeedsIff_pure _).congr
      rw [Value.subschemas, decidingKeyword?_eq, hdirective]
      simp [Directive.literals, Directive.keyword?]

end Readers

/-- Lenient reading gives a result, faults aside, when the document stays within the ceiling, and
stops there when it does not. -/
theorem succeedsIff_resolveNode [Platform] (limit : Nat) (report : Bool) (node : Value)
    (place : Pointer)
    (depth : Nat) :
    SucceedsIff limit (StaysWithin limit depth node)
      (resolveNode ⟨limit, false, report⟩ node place depth) := by
  induction node using schemaInduction generalizing place depth with
  | step node ih =>
    apply SucceedsIff.congr _ staysWithin_iff.symm
    cases node with
    | mapping form entries =>
        rw [resolveNode_mapping]
        apply succeedsIff_bounded
        apply (succeedsIff_reportKeywords limit report place entries).bind_right
        intro _
        exact succeedsIff_readDirective report (fun sub hsub place => ih sub hsub place _) place
    | bool flag =>
        rw [resolveNode]
        apply succeedsIff_bounded
        exact (succeedsIff_pure _).congr (by simp [Value.literals, Value.subschemas])
    | _ =>
        rw [resolveNode]
        · apply succeedsIff_bounded
          exact (succeedsIff_malformed_then limit report _ _ _).congr
            (by simp [Value.literals, Value.subschemas])
        all_goals simp

/-! ## A higher ceiling -/

/-- A run stops at its ceiling or gives what a run under a higher ceiling gives. -/
def Resolution.SameUnlessDeep {α : Type} (x x' : Resolution α) : Prop :=
  (∃ path ceiling, x = .error (.tooDeep path ceiling)) ∨ x' = x

theorem Resolution.SameUnlessDeep.bind {α β : Type} {x x' : Resolution α} {f f' : α → Resolution β}
    (hx : SameUnlessDeep x x') (hf : ∀ a, SameUnlessDeep (f a) (f' a)) :
    SameUnlessDeep (x >>= f) (x' >>= f') := by
  rcases hx with ⟨path, ceiling, rfl⟩ | rfl
  · exact .inl ⟨path, ceiling, rfl⟩
  · cases x' with
    | error stop => exact .inr rfl
    | ok found =>
        rcases hf found.1 with ⟨path, ceiling, hdeep⟩ | hsame
        · refine .inl ⟨path, ceiling, ?_⟩
          simp only [Bind.bind, hdeep]
          rfl
        · refine .inr ?_
          simp only [Bind.bind, hsame]

theorem Resolution.SameUnlessDeep.bounded {α : Type} {x x' : Resolution α} (h : SameUnlessDeep x x')
    {limit limit' : Nat} (hle : limit ≤ limit') (report : Bool) (place : Pointer) (depth : Nat) :
    SameUnlessDeep ((⟨limit, false, report⟩ : ResolverSettings).bounded place depth x)
      ((⟨limit', false, report⟩ : ResolverSettings).bounded place depth x') := by
  rw [ResolverSettings.bounded, ResolverSettings.bounded]
  by_cases hbelow : limit < depth
  · rw [if_pos hbelow]
    exact .inl ⟨_, _, rfl⟩
  · rw [if_neg hbelow, if_neg (by simp only; omega)]
    exact h

/-- Reading under two ceilings in step. -/
def ceilingCoupling {limit limit' : Nat} (hle : limit ≤ limit') (report : Bool) :
    Coupling ⟨limit, false, report⟩ ⟨limit', false, report⟩ where
  rel := SameUnlessDeep
  rel_pure _ := .inr rfl
  rel_bind := SameUnlessDeep.bind
  rel_ofFault _ := .inr rfl
  rel_malformed _ _ := .inr rfl
  rel_unsupported _ _ := .inr rfl
  rel_bounded place depth h := h.bounded hle report place depth

section Threshold

variable [Platform] {schema : Value} {limit : Nat} {report : Bool}

theorem resolve_eq_of_le {limit' : Nat} (hle : limit ≤ limit')
    (h : ∀ path ceiling, resolve schema ⟨limit, false, report⟩ ≠ .error (.tooDeep path ceiling)) :
    resolve schema ⟨limit', false, report⟩ = resolve schema ⟨limit, false, report⟩ := by
  rw [resolve] at h ⊢
  rcases (ceilingCoupling hle report).rel_resolveNode schema [] 0 with
    ⟨path, ceiling, hdeep⟩ | hsame
  · rw [hdeep] at h
    exact absurd rfl (h path ceiling)
  · rw [hsame, resolve]

/-! ## The ceiling as a threshold -/

/-- A refusal names the limit, and the schema does reach beyond it. -/
theorem below_ceiling_of_tooDeep {path : Text} {ceiling : Nat}
    (h : resolve schema ⟨limit, false, report⟩ = .error (.tooDeep path ceiling)) :
    ceiling = limit ∧ limit < schema.reach := by
  have hsucceeds := succeedsIff_resolveNode limit report schema [] 0
  rw [resolve] at h
  cases hnode : resolveNode ⟨limit, false, report⟩ schema [] 0 with
  | ok found =>
      rw [hnode] at h
      cases h
  | error stop =>
      rw [hnode] at h hsucceeds
      cases h
      obtain ⟨hceiling, hbelow⟩ := hsucceeds
      rw [staysWithin_root_iff, Nat.not_le] at hbelow
      exact ⟨hceiling, hbelow⟩

theorem reach_le_of_ok {result : ResolutionResult}
    (h : resolve schema ⟨limit, false, report⟩ = .ok result) : schema.reach ≤ limit := by
  have hsucceeds := succeedsIff_resolveNode limit report schema [] 0
  rw [resolve] at h
  cases hnode : resolveNode ⟨limit, false, report⟩ schema [] 0 with
  | ok found =>
      rw [hnode] at hsucceeds
      exact staysWithin_root_iff.mp hsucceeds
  | error stop =>
      rw [hnode] at h
      cases h

end Threshold

/-- Lenient reading without bounds has a result or stops at the ceiling, and the ceiling tells
which. -/
theorem resolve_unlimited_cases {schema : Value} (h : schema.distinctKeys = true) (limit : Nat)
    (report : Bool) :
    (schema.reach ≤ limit ∧
      ∃ result, @resolve .unlimited schema ⟨limit, false, report⟩ = .ok result) ∨
    limit < schema.reach ∧
      ∃ path, @resolve .unlimited schema ⟨limit, false, report⟩ = .error (.tooDeep path limit) := by
  rcases resolve_cases h ⟨limit, false, report⟩ with
    ⟨result, hresult, -⟩ | ⟨path, ceiling, hdeep⟩ | ⟨hstrict, -⟩
  · exact .inl ⟨@reach_le_of_ok .unlimited _ _ _ _ hresult, result, hresult⟩
  · obtain ⟨rfl, hbelow⟩ := @below_ceiling_of_tooDeep .unlimited _ _ _ _ _ hdeep
    exact .inr ⟨hbelow, path, hdeep⟩
  · cases hstrict

end SchemaModel
