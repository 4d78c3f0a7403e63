import SchemaModel.Proofs.Schema.Reading

/-!
# Two runs over one document

Reading is made of a few steps: a result, a sequence, a step that may be at fault, the two kinds of
report, and the test against the depth ceiling.  A `Coupling` is a relation between runs under two
settings that every such step keeps; by induction over the document it holds of the whole runs.
-/

namespace SchemaModel

/-- A relation between runs under two settings that the steps of reading keep. -/
structure Coupling (s s' : ResolverSettings) where
  rel : ∀ {α : Type}, Resolution α → Resolution α → Prop
  rel_pure : ∀ {α : Type} (a : α), rel (pure a) (pure a)
  rel_bind : ∀ {α β : Type} {x x' : Resolution α} {f f' : α → Resolution β},
    rel x x' → (∀ a, rel (f a) (f' a)) → rel (x >>= f) (x' >>= f')
  rel_ofFault : ∀ {α : Type} (made : Except Fault α), rel (.ofFault made) (.ofFault made)
  rel_malformed : ∀ (place : Pointer) (message : Text),
    rel (s.malformed place message) (s'.malformed place message)
  rel_unsupported : ∀ (place : Pointer) (message : Text),
    rel (s.unsupported place message) (s'.unsupported place message)
  rel_bounded : ∀ {α : Type} {x x' : Resolution α} (place : Pointer) (depth : Nat),
    rel x x' → rel (s.bounded place depth x) (s'.bounded place depth x')

namespace Coupling

variable {s s' : ResolverSettings} (c : Coupling s s')

/-- What holds of each part under both settings holds of all of them together. -/
theorem rel_each {α β : Type} {f f' : α → Resolution β} {xs : List α}
    (h : ∀ x ∈ xs, c.rel (f x) (f' x)) :
    c.rel (Resolution.each f xs) (Resolution.each f' xs) := by
  induction xs with
  | nil => exact c.rel_pure []
  | cons x xs ih =>
      obtain ⟨hx, hxs⟩ := List.forall_mem_cons.mp h
      rw [Resolution.each, Resolution.each]
      apply c.rel_bind hx
      intro y
      apply c.rel_bind (ih hxs)
      intro ys
      exact c.rel_pure (y :: ys)

theorem rel_malformed_then {α : Type} (place : Pointer) (message : Text) (a : α) :
    c.rel (do s.malformed place message; pure a) (do s'.malformed place message; pure a) :=
  c.rel_bind (c.rel_malformed place message) fun _ => c.rel_pure a

theorem rel_unsupported_then {α : Type} (place : Pointer) (message : Text) (a : α) :
    c.rel (do s.unsupported place message; pure a) (do s'.unsupported place message; pure a) :=
  c.rel_bind (c.rel_unsupported place message) fun _ => c.rel_pure a

theorem rel_reportKeywords [Platform] (place : Pointer) (entries : List (Key × Value)) :
    c.rel (reportKeywords s place entries) (reportKeywords s' place entries) := by
  rw [reportKeywords, reportKeywords]
  apply c.rel_bind
  · apply c.rel_each
    intro key _
    exact c.rel_bind (c.rel_ofFault _) fun text => c.rel_unsupported _ _
  · intro _
    exact c.rel_pure ()

theorem rel_resolveConst (value : Value) (place : Pointer) (depth : Nat) :
    c.rel (resolveConst s value place depth) (resolveConst s' value place depth) := by
  rw [resolveConst_eq, resolveConst_eq]
  apply c.rel_bounded
  split
  · exact c.rel_ofFault _
  · exact c.rel_malformed_then _ _ _

theorem rel_resolveEnum (values : Value) (place : Pointer) (depth : Nat) :
    c.rel (resolveEnum s values place depth) (resolveEnum s' values place depth) := by
  cases values with
  | list members =>
      cases members with
      | nil => exact c.rel_malformed_then _ _ _
      | cons first rest =>
          have hne := List.cons_ne_nil first rest
          rw [resolveEnum_eq _ _ _ hne, resolveEnum_eq _ _ _ hne]
          apply c.rel_bounded
          split
          · exact c.rel_ofFault _
          · exact c.rel_malformed_then _ _ _
  | _ => exact c.rel_malformed_then _ _ _

theorem rel_readRequired (entries : List (Key × Value)) (place : Pointer) :
    c.rel (readRequired s entries place) (readRequired s' entries place) := by
  rw [readRequired, readRequired]
  split
  · exact c.rel_pure _
  · exact c.rel_pure _
  · exact c.rel_malformed_then _ _ _

theorem rel_keepDeclared (place : Pointer) (declared : List (Key × Model)) (names : List Text) :
    c.rel (keepDeclared s place declared names) (keepDeclared s' place declared names) := by
  rw [keepDeclared, keepDeclared]
  apply c.rel_bind
  · apply c.rel_each
    intro name _
    split
    · exact c.rel_pure _
    · exact c.rel_malformed_then _ _ _
  · intro kept
    exact c.rel_pure _

/-! ## Reading by directives -/

section Readers

variable {read read' : Reader} {form : MappingForm} {entries : List (Key × Value)}
  (h : ∀ sub ∈ (Value.mapping form entries).subschemas, ∀ place depth,
    c.rel (read sub place depth) (read' sub place depth))

include h

theorem rel_readItems {name : Text} (hdirective : directive entries = .type (.str name))
    (hname : TypeName.ofName? name = some .array) (place : Pointer) (depth : Nat) :
    c.rel (readItems s read entries place depth) (readItems s' read' entries place depth) := by
  rw [readItems, readItems]
  split
  · exact c.rel_pure _
  · exact c.rel_unsupported_then _ _ _
  · next items hother hitems =>
    rw [subschemas_items hdirective hname hitems hother] at h
    apply c.rel_bind (h items List.mem_cons_self _ _)
    intro model
    exact c.rel_pure _

variable [Platform]

theorem rel_readVariants {combinator : Combinator} {variants : Value}
    (hdirective : directive entries = .combine combinator variants) (place : Pointer)
    (depth : Nat) :
    c.rel (readVariants s read combinator variants place depth)
      (readVariants s' read' combinator variants place depth) := by
  unfold readVariants
  split
  · next first rest =>
    rw [subschemas_variants hdirective] at h
    apply c.rel_bind
    · apply c.rel_each
      intro x hx
      exact h x.1 (List.fst_mem_of_mem_zipIdx hx) _ _
    · intro models
      exact c.rel_ofFault _
  · exact c.rel_malformed_then _ _ _

/-- Only subschemas are read below the properties of a node. -/
theorem rel_readProperties {name : Text} (hdirective : directive entries = .type (.str name))
    (hname : TypeName.ofName? name = some .object) (place : Pointer) (depth : Nat) :
    c.rel (readProperties s read entries place depth)
      (readProperties s' read' entries place depth) := by
  rw [readProperties, readProperties]
  split
  · exact c.rel_pure _
  · next inner properties hfound =>
    rw [subschemas_properties hdirective hname hfound] at h
    apply c.rel_each
    intro entry hmem
    apply c.rel_bind (c.rel_ofFault _)
    intro text
    apply c.rel_bind (h entry.2 (List.mem_map_of_mem hmem) _ _)
    intro model
    exact c.rel_pure _
  · exact c.rel_malformed_then _ _ _

/-- The cases follow the type that is named, if any. -/
theorem rel_readType {name : Value} (hdirective : directive entries = .type name) (place : Pointer)
    (depth : Nat) :
    c.rel (readType s read entries name place depth)
      (readType s' read' entries name place depth) := by
  unfold readType
  split
  · next name =>
    split
    · exact c.rel_pure _
    · exact c.rel_pure _
    · exact c.rel_pure _
    · exact c.rel_pure _
    · next hname => exact c.rel_readItems h hdirective hname place depth
    · next hname =>
      apply c.rel_bind (c.rel_readProperties h hdirective hname place depth)
      intro properties
      rw [resolveRequired_eq, resolveRequired_eq]
      apply c.rel_bind
      · apply c.rel_bind (c.rel_readRequired entries _)
        intro names
        exact c.rel_keepDeclared _ properties names
      · intro required
        exact c.rel_ofFault _
    · exact c.rel_unsupported_then _ _ _
  · exact c.rel_unsupported_then _ _ _

theorem rel_readDirective (place : Pointer) (depth : Nat) :
    c.rel (readDirective s read entries place depth (directive entries))
      (readDirective s' read' entries place depth (directive entries)) := by
  cases hdirective : directive entries with
  | const value => exact c.rel_resolveConst value _ depth
  | enum values => exact c.rel_resolveEnum values _ depth
  | combine combinator variants => exact c.rel_readVariants h hdirective place depth
  | type name => exact c.rel_readType h hdirective place depth
  | absent => exact c.rel_pure _

end Readers

/-- A coupling holds of the runs over every document. -/
theorem rel_resolveNode [Platform] (node : Value) (place : Pointer) (depth : Nat) :
    c.rel (resolveNode s node place depth) (resolveNode s' node place depth) := by
  induction node using schemaInduction generalizing place depth with
  | step node ih =>
    cases node with
    | bool flag =>
        rw [resolveNode, resolveNode]
        exact c.rel_bounded place depth (c.rel_pure _)
    | mapping form entries =>
        rw [resolveNode_mapping, resolveNode_mapping]
        apply c.rel_bounded
        apply c.rel_bind (c.rel_reportKeywords place entries)
        intro _
        exact c.rel_readDirective ih place depth
    | _ =>
        rw [resolveNode, resolveNode]
        · exact c.rel_bounded place depth (c.rel_malformed_then _ _ _)
        all_goals simp

end Coupling

end SchemaModel
