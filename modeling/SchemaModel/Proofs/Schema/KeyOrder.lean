import SchemaModel.Proofs.Model.Congruence
import SchemaModel.Proofs.Schema.Depth
import SchemaModel.Proofs.Value.Reorder

/-!
# The order of keys

Lenient reading does not depend on the order of the entries of a document.  A document and a
reordered one are read side by side: both runs stop at the depth ceiling, or both give results that
stand in a relation and issues that differ in their order only.  The two runs visit the properties
of an object in different orders, so the loop over parts has a rule for parts in step and one for
parts in another order.
-/

namespace SchemaModel

attribute [local instance] Platform.unlimited

namespace Resolution

variable {α β γ δ : Type}

/-- Two runs stop at the ceiling, or give related results and the same issues in some order. -/
inductive Tallies (rel : α → β → Prop) : Resolution α → Resolution β → Prop
  | found {a : α} {b : β} {issues issues' : List SchemaIssue} (h : rel a b)
      (order : issues.Perm issues') : Tallies rel (.ok (a, issues)) (.ok (b, issues'))
  | tooDeep (path path' : Text) (limit limit' : Nat) :
      Tallies rel (.error (.tooDeep path limit)) (.error (.tooDeep path' limit'))

theorem Tallies.imp {rel rel' : α → β → Prop} {x : Resolution α} {y : Resolution β}
    (h : Tallies rel x y) (himp : ∀ {a b}, rel a b → rel' a b) : Tallies rel' x y := by
  cases h with
  | found h order => exact .found (himp h) order
  | tooDeep path path' limit limit' => exact .tooDeep path path' limit limit'

theorem tallies_pure {rel : α → β → Prop} {a : α} {b : β} (h : rel a b) :
    Tallies rel (pure a) (pure b) :=
  .found h .nil

/-- The issues of a step are shuffled among themselves. -/
theorem Tallies.bind {rel : α → β → Prop} {post : γ → δ → Prop} {x : Resolution α}
    {y : Resolution β} {f : α → Resolution γ} {g : β → Resolution δ} (h : Tallies rel x y)
    (hnext : ∀ {a b}, rel a b → Tallies post (f a) (g b)) :
    Tallies post (x >>= f) (y >>= g) := by
  cases h with
  | tooDeep path path' limit limit' => exact .tooDeep path path' limit limit'
  | @found a b issues issues' h order =>
      have hlater := hnext h
      simp only [Bind.bind]
      generalize f a = u at hlater
      generalize g b = v at hlater
      cases hlater with
      | tooDeep path path' limit limit' => exact .tooDeep path path' limit limit'
      | found h' order' => exact .found h' (order.append order')

theorem Tallies.trans {rel : α → β → Prop} {rel' : β → γ → Prop} {x : Resolution α}
    {y : Resolution β} {z : Resolution γ} (h : Tallies rel x y) (h' : Tallies rel' y z) :
    Tallies (fun a c => ∃ b, rel a b ∧ rel' b c) x z := by
  cases h with
  | tooDeep path path' limit limit' =>
      cases h' with
      | tooDeep => exact .tooDeep _ _ _ _
  | found h order =>
      cases h' with
      | found h' order' => exact .found ⟨_, h, h'⟩ (order.trans order')

/-- A lenient run that ends as it should tallies with itself. -/
theorem tallies_self {post : α → Prop} {x : Resolution α} (h : Ensures false post x) :
    Tallies (fun a b => a = b ∧ post a) x x := by
  match x, h with
  | .ok (a, issues), hpost => exact .found ⟨rfl, hpost⟩ (.refl _)
  | .error (.tooDeep path limit), _ => exact .tooDeep path path limit limit

theorem Tallies.ensures_right {rel : α → β → Prop} {x : Resolution α} {y : Resolution β}
    (h : Tallies rel x y) : Ensures false (fun _ => True) y := by
  cases h <;> exact trivial

/-- Parts in step: the results are in step with the parts and with each other. -/
theorem tallies_each (tag : α → γ → Prop) (rel : γ → δ → Prop) {f : α → Resolution γ}
    {g : β → Resolution δ} {xs : List α} {ys : List β}
    (h : List.Forall₂ (fun x y => Tallies (fun a b => tag x a ∧ rel a b) (f x) (g y)) xs ys) :
    Tallies (fun as bs => List.Forall₂ tag xs as ∧ List.Forall₂ rel as bs)
      (each f xs) (each g ys) := by
  induction h with
  | nil => exact tallies_pure ⟨.nil, .nil⟩
  | cons hxy _ ih =>
      rw [each, each]
      apply hxy.bind
      rintro a b ⟨htag, hrel⟩
      apply ih.bind
      rintro as bs ⟨htags, hrels⟩
      exact tallies_pure ⟨.cons htag htags, .cons hrel hrels⟩

/-- Two steps that do not depend on each other can change places. -/
theorem tallies_swap {rel : γ → δ → Prop} {x : Resolution α} {y : Resolution β}
    (hx : Ensures false (fun _ => True) x) (hy : Ensures false (fun _ => True) y)
    {f : α → β → Resolution γ} {g : α → β → Resolution δ}
    (h : ∀ a b, Tallies rel (f a b) (g a b)) :
    Tallies rel (x >>= fun a => y >>= fun b => f a b) (y >>= fun b => x >>= fun a => g a b) := by
  match x, hx, y, hy with
  | .error (.tooDeep _ _), _, .error (.tooDeep _ _), _ => exact .tooDeep _ _ _ _
  | .error (.tooDeep _ _), _, .ok _, _ => exact .tooDeep _ _ _ _
  | .ok _, _, .error (.tooDeep _ _), _ => exact .tooDeep _ _ _ _
  | .ok (a, issues), _, .ok (b, issues'), _ =>
      have hlater := h a b
      simp only [Bind.bind]
      generalize f a b = u at hlater
      generalize g a b = v at hlater
      cases hlater with
      | tooDeep path path' limit limit' => exact .tooDeep path path' limit limit'
      | found hrel order =>
          refine .found hrel ?_
          exact (List.perm_append_comm_assoc issues issues' _).trans
            ((order.append_left issues).append_left issues')

/-- Parts in another order. -/
theorem tallies_each_perm {f : α → Resolution β} {xs ys : List α} (h : xs.Perm ys)
    (hf : ∀ x ∈ xs, Ensures false (fun _ => True) (f x)) :
    Tallies List.Perm (each f xs) (each f ys) := by
  induction h with
  | nil => exact tallies_pure .nil
  | cons x _ ih =>
      obtain ⟨hx, hxs⟩ := List.forall_mem_cons.mp hf
      rw [each, each]
      apply (tallies_self hx).bind
      rintro a b ⟨rfl, -⟩
      apply (ih hxs).bind
      intro as bs hperm
      exact tallies_pure (hperm.cons a)
  | swap x y xs =>
      obtain ⟨hy, hrest⟩ := List.forall_mem_cons.mp hf
      obtain ⟨hx, hxs⟩ := List.forall_mem_cons.mp hrest
      simp only [each, bind_assoc]
      apply tallies_swap hy hx
      intro b a
      apply (tallies_self (ensures_each (fun _ _ => True) hxs)).bind
      rintro rest _ ⟨rfl, -⟩
      exact tallies_pure (.swap a b rest)
  | trans hperm _ ih ih' =>
      have hf' := fun y hy => hf y (hperm.mem_iff.mpr hy)
      apply ((ih hf).trans (ih' hf')).imp
      rintro as cs ⟨bs, hab, hbc⟩
      exact hab.trans hbc

end Resolution

open Model Resolution

/-! ## The steps of reading -/

theorem tallies_ofFault {x x' : Except Fault Model} (h : Agree x x') :
    Tallies Alike (ofFault x) (ofFault x') := by
  obtain ⟨joint, joint', rfl, rfl, halike⟩ := h
  exact tallies_pure halike

section Lenient

variable {settings : ResolverSettings} (hlenient : settings.strict = false)

theorem tallies_bounded {α β : Type} {rel : α → β → Prop} {x : Resolution α} {y : Resolution β}
    (h : Tallies rel x y) (place : Pointer) (depth : Nat) :
    Tallies rel (settings.bounded place depth x) (settings.bounded place depth y) := by
  rw [ResolverSettings.bounded, ResolverSettings.bounded]
  split
  · exact .tooDeep _ _ _ _
  · exact h

theorem tallies_unsupported_then {α β : Type} {rel : α → β → Prop} {a : α} {b : β} (h : rel a b)
    (place : Pointer) (message : Text) :
    Tallies rel (do settings.unsupported place message; pure a)
      (do settings.unsupported place message; pure b) :=
  (tallies_self (ensures_unsupported settings place message)).bind fun _ => tallies_pure h

include hlenient

theorem tallies_malformed_then {α β : Type} {rel : α → β → Prop} {a : α} {b : β} (h : rel a b)
    (place : Pointer) (message : Text) :
    Tallies rel (do settings.malformed place message; pure a)
      (do settings.malformed place message; pure b) :=
  (tallies_self (hlenient ▸ ensures_malformed settings place message)).bind fun _ =>
    tallies_pure h

theorem tallies_resolveConst {a b : Value} (h : a.Reordered b) (hkeys : a.distinctKeys = true)
    (hnan : a.nanFree = true) (place : Pointer) (depth : Nat) :
    Tallies Alike (resolveConst settings a place depth) (resolveConst settings b place depth) := by
  rw [resolveConst_eq, resolveConst_eq, ← h.height_eq, ← h.isJson_eq, ← h.typeName_eq]
  apply tallies_bounded
  split
  · next hjson =>
    have hdata : a.IsData := Value.isData_iff.mpr ⟨hjson, hkeys⟩
    apply tallies_ofFault
    exact agree_ofLiteral hdata (h.isData hdata) (h.jsonEqual hjson hkeys hnan) _ _
  · exact tallies_malformed_then hlenient .unknown _ _

/-- Reordered members are equal members, so the enumerations keep equal values. -/
theorem tallies_resolveEnum_list {members members' : List Value}
    (h : (Value.list members).Reordered (.list members'))
    (hkeys : ∀ member ∈ members, member.distinctKeys = true)
    (hnan : ∀ member ∈ members, member.nanFree = true) (place : Pointer) (depth : Nat) :
    Tallies Alike (resolveEnum settings (.list members) place depth)
      (resolveEnum settings (.list members') place depth) := by
  have hitems := Value.reordered_list_iff.mp h
  by_cases hne : members = []
  · subst hne
    cases hitems
    exact tallies_malformed_then hlenient .never _ _
  · have hne' : members' ≠ [] := by
      rintro rfl
      cases hitems
      exact hne rfl
    have hjson : members.all Value.isJson = members'.all Value.isJson := by
      rw [Bool.eq_iff_iff, List.all_eq_true, List.all_eq_true]
      exact forall_mem_iff_of_forall₂ hitems fun hab => by rw [hab.isJson_eq]
    rw [resolveEnum_eq _ _ _ hne, resolveEnum_eq _ _ _ hne', ← h.height_eq, ← hjson]
    apply tallies_bounded
    split
    · next hall =>
      rw [List.all_eq_true] at hall
      have hdata : ∀ member ∈ members, member.IsData := fun member hmem =>
        Value.isData_iff.mpr ⟨hall member hmem, hkeys member hmem⟩
      have hequal : List.Forall₂ (fun a b => a.IsData ∧ b.IsData ∧ a.jsonEqual b = true)
          members members' := by
        apply forall₂_imp_of_mem hitems
        intro a ha b hab
        exact ⟨hdata a ha, hab.isData (hdata a ha),
          hab.jsonEqual (hall a ha) (hkeys a ha) (hnan a ha)⟩
      apply tallies_ofFault
      apply agree_ofEnum hdata _ _ _ hne
      · intro b hb
        obtain ⟨a, -, -, hdata', -⟩ := exists_mem_of_forall₂ hequal.flip b hb
        exact hdata'
      · intro a ha
        obtain ⟨b, hb, -, -, hab⟩ := exists_mem_of_forall₂ hequal a ha
        exact ⟨b, hb, hab⟩
      · intro b hb
        obtain ⟨a, ha, -, -, hab⟩ := exists_mem_of_forall₂ hequal.flip b hb
        exact ⟨a, ha, hab⟩
    · exact tallies_malformed_then hlenient .unknown _ _

theorem tallies_resolveEnum {a b : Value} (h : a.Reordered b) (hkeys : a.distinctKeys = true)
    (hnan : ∀ literal ∈ (Directive.enum a).literals, literal.nanFree = true) (place : Pointer)
    (depth : Nat) :
    Tallies Alike (resolveEnum settings a place depth) (resolveEnum settings b place depth) := by
  cases id h with
  | list =>
      exact tallies_resolveEnum_list hlenient h (Value.itemsDistinct_iff.mp hkeys) hnan place depth
  | tuple => exact tallies_malformed_then hlenient .unknown _ _
  | mapping => exact tallies_malformed_then hlenient .unknown _ _
  | scalar hscalar =>
      cases a with
      | list => cases hscalar
      | _ => exact tallies_malformed_then hlenient .unknown _ _

end Lenient

/-- The same keywords are reported, in the order in which they come. -/
theorem tallies_reportKeywords (settings : ResolverSettings) {form : MappingForm}
    {as cs : List (Key × Value)} (h : (Value.mapping form as).Reordered (.mapping form cs))
    (place : Pointer) :
    Tallies (fun _ _ => True) (reportKeywords settings place as)
      (reportKeywords settings place cs) := by
  have hkeys : (as.map Prod.fst).Perm (cs.map Prod.fst) := by
    cases h with
    | scalar h => cases h
    | mapping keys _ order =>
        rw [keys]
        exact order.map Prod.fst
  simp only [reportKeywords, keyText_unlimited, Resolution.pure_bind]
  apply (tallies_each_perm (hkeys.filter _) fun key _ => ensures_unsupported settings _ _).bind
  intro _ _ _
  exact tallies_pure trivial

theorem agree_joinVariants {models models' : List Model} (hne : models ≠ [])
    (h : List.Forall₂ Alike models models') (mark : Mark) (combinator : Combinator) :
    Agree (joinVariants mark combinator models) (joinVariants mark combinator models') := by
  cases combinator with
  | oneOf => exact agree_exclusiveUnion hne h mark mark
  | anyOf => exact agree_combine hne h .anyOf mark mark
  | allOf => exact agree_reduce hne h mark mark

/-! ## Nodes in another order -/

/-- The same keyword with its argument in another order. -/
inductive Directive.Reordered : Directive → Directive → Prop
  | const {a b : Value} (h : a.Reordered b) : Directive.Reordered (.const a) (.const b)
  | enum {a b : Value} (h : a.Reordered b) : Directive.Reordered (.enum a) (.enum b)
  | combine (combinator : Combinator) {a b : Value} (h : a.Reordered b) :
      Directive.Reordered (.combine combinator a) (.combine combinator b)
  | type {a b : Value} (h : a.Reordered b) : Directive.Reordered (.type a) (.type b)
  | absent : Directive.Reordered .absent .absent

/-- The deciding keyword does not depend on the order of the keywords. -/
theorem directive_reordered {as cs : List (Key × Value)}
    (h : ∀ name, Option.Rel Value.Reordered (Entries.get? as name) (Entries.get? cs name)) :
    (directive as).Reordered (directive cs) := by
  rw [directive, directive]
  rcases (optionRel_cases (h "const")).symm with ⟨a, b, ha, hb, hab⟩ | ⟨ha, hb⟩ <;> rw [ha, hb]
  · exact .const hab
  rcases (optionRel_cases (h "enum")).symm with ⟨a, b, ha, hb, hab⟩ | ⟨ha, hb⟩ <;> rw [ha, hb]
  · exact .enum hab
  rcases (optionRel_cases (h "oneOf")).symm with ⟨a, b, ha, hb, hab⟩ | ⟨ha, hb⟩ <;> rw [ha, hb]
  · exact .combine .oneOf hab
  rcases (optionRel_cases (h "anyOf")).symm with ⟨a, b, ha, hb, hab⟩ | ⟨ha, hb⟩ <;> rw [ha, hb]
  · exact .combine .anyOf hab
  rcases (optionRel_cases (h "allOf")).symm with ⟨a, b, ha, hb, hab⟩ | ⟨ha, hb⟩ <;> rw [ha, hb]
  · exact .combine .allOf hab
  rcases (optionRel_cases (h "type")).symm with ⟨a, b, ha, hb, hab⟩ | ⟨ha, hb⟩ <;> rw [ha, hb]
  · exact .type hab
  · exact .absent


/-! ## Objects -/

theorem mapM_text?_eq {as bs : List Value} (h : List.Forall₂ Value.Reordered as bs) :
    as.mapM Value.text? = bs.mapM Value.text? := by
  induction h with
  | nil => rfl
  | cons hab _ ih => rw [List.mapM_cons, List.mapM_cons, hab.text?_eq, ih]

theorem requiredNames?_eq {a b : Value} (h : a.Reordered b) :
    requiredNames? a = requiredNames? b := by
  cases id h with
  | list => exact mapM_text?_eq (Value.reordered_list_iff.mp h)
  | tuple => rfl
  | mapping => rfl
  | scalar => rfl

/-- Properties under the same names, with models that are alike. -/
structure DeclaredAlike (ps qs : List (Key × Model)) : Prop where
  left : ∀ property ∈ ps, Good property.2
  right : ∀ property ∈ qs, Good property.2
  parts : ∀ key, Option.Rel Alike (Entries.findLast? ps key) (Entries.findLast? qs key)

theorem declaredAlike_of_step {ps mid qs : List (Key × Model)}
    (hdistinct : Entries.distinct ps = true) (h : Value.EntriesInStep Alike ps mid)
    (order : mid.Perm qs) : DeclaredAlike ps qs where
  left := fun property hmem => by
    obtain ⟨mate, -, hab⟩ := exists_mem_of_forall₂ h property hmem
    exact hab.2.good_left
  right := fun property hmem => by
    obtain ⟨mate, -, hab⟩ := exists_mem_of_forall₂ h.flip property (order.mem_iff.mpr hmem)
    exact hab.2.good_right
  parts := fun key => by
    have hdistinct' := Value.distinct_eq_of_entriesInStep h order ▸ hdistinct
    rw [Entries.findLast?_eq_find? hdistinct, Entries.findLast?_eq_find? hdistinct']
    exact Value.find?_rel_of_entriesInStep h order hdistinct key

theorem DeclaredAlike.has_eq {ps qs : List (Key × Model)} (h : DeclaredAlike ps qs) (key : Key) :
    Entries.has ps key = Entries.has qs key := by
  rw [Bool.eq_iff_iff, Entries.has_iff, Entries.has_iff, ← not_iff_not,
    ← Entries.findLast?_eq_none_iff, ← Entries.findLast?_eq_none_iff]
  rcases optionRel_cases (h.parts key) with ⟨ha, hb⟩ | ⟨a, b, ha, hb, -⟩
  · simp [ha, hb]
  · simp [ha, hb]

theorem DeclaredAlike.agree {ps qs : List (Key × Model)} (h : DeclaredAlike ps qs)
    {required : List Text} (hrequired : ∀ name ∈ required, Entries.has qs (.str name) = true)
    (additional : Bool) :
    Agree (ofObject ps required additional) (ofObject qs required additional) := by
  have hrequired' : ∀ name ∈ required, Entries.has ps (.str name) = true := by
    intro name hname
    rw [h.has_eq, hrequired name hname]
  refine ⟨_, _, ofObject_eq_ok hrequired' additional, ofObject_eq_ok hrequired additional, ?_⟩
  exact alike_object (.object h.left hrequired') (.object h.right hrequired) (fun _ => Iff.rfl)
    h.parts

/-- The properties of an object are read alike in any order. -/
theorem tallies_properties {read : Reader} {form : MappingForm} {as cs : List (Key × Value)} 
    {place : Pointer} {depth : Nat} (hnode : (Value.mapping form as).Reordered (.mapping form cs))
    (hdistinct : Entries.distinct as = true)
    (h : ∀ entry ∈ as, ∀ sub, entry.2.Reordered sub → ∀ place,
      Tallies Alike (read entry.2 place depth) (read sub place depth)) :
    Tallies DeclaredAlike
      (each (fun entry => do
        let model ← read entry.2 (place.child entry.1.text) depth
        pure (entry.1, model)) as)
      (each (fun entry => do
        let model ← read entry.2 (place.child entry.1.text) depth
        pure (entry.1, model)) cs) := by
  obtain ⟨bs, hstep, order⟩ := Value.reordered_mapping_iff.mp hnode
  generalize hread : (fun entry : Key × Value => do
    let model ← read entry.2 (place.child entry.1.text) depth
    pure (entry.1, model)) = readProperty
  have hparts : List.Forall₂ (fun a b => Tallies (fun p q => a.1 = p.1 ∧ p.1 = q.1 ∧ Alike p.2 q.2)
      (readProperty a) (readProperty b)) as bs := by
    subst hread
    apply forall₂_imp_of_mem hstep
    rintro ⟨key, a⟩ ha ⟨_, b⟩ ⟨rfl, hab⟩
    apply (h (key, a) ha b hab _).bind
    intro model model' halike
    exact tallies_pure ⟨rfl, rfl, halike⟩
  have hmoved : Tallies List.Perm (each readProperty bs) (each readProperty cs) := by
    apply tallies_each_perm order
    intro b hb
    obtain ⟨a, -, hab⟩ := exists_mem_of_forall₂ hparts.flip b hb
    exact hab.ensures_right
  -- First the models change, then their order.
  apply ((tallies_each _ _ hparts).trans hmoved).imp
  rintro found found' ⟨mid, ⟨hkeys, halike⟩, order'⟩
  apply declaredAlike_of_step _ halike order'
  rw [Entries.distinct_iff] at hdistinct ⊢
  rwa [← Entries.classes_eq_of_forall₂ (hkeys.imp fun _ _ h => congrArg Key.keyClass h)]

/-! ## Reading by directives -/

section Readers

variable {settings : ResolverSettings} (hlenient : settings.strict = false) {read : Reader}
  {form : MappingForm} {as cs : List (Key × Value)} {depth : Nat}
  (hget : ∀ name, Option.Rel Value.Reordered (Entries.get? as name) (Entries.get? cs name))

section Object

include hget

theorem allowsAdditional_eq_of_reordered : allowsAdditional as = allowsAdditional cs := by
  rw [allowsAdditional, allowsAdditional]
  rcases optionRel_cases (hget "additionalProperties") with ⟨ha, hb⟩ | ⟨a, b, ha, hb, hab⟩
  · rw [ha, hb]
  · rw [ha, hb]
    cases hab <;> rfl

theorem resolveRequired_eq_of_reordered {ps qs : List (Key × Model)} (h : DeclaredAlike ps qs)
    (place : Pointer) :
    resolveRequired settings as place ps = resolveRequired settings cs place qs := by
  have hnames : (Entries.get? as "required").map requiredNames? =
      (Entries.get? cs "required").map requiredNames? := by
    rcases optionRel_cases (hget "required") with ⟨ha, hb⟩ | ⟨a, b, ha, hb, hab⟩
    · rw [ha, hb]
    · rw [ha, hb, Option.map_some, Option.map_some, requiredNames?_eq hab]
  rw [resolveRequired_eq, resolveRequired_eq, readRequired, readRequired, hnames]
  congr 1
  funext names
  simp only [keepDeclared, h.has_eq]

include hlenient

theorem tallies_object {ps qs : List (Key × Model)} (h : DeclaredAlike ps qs) (place : Pointer) :
    Tallies Alike
      (do
        let required ← resolveRequired settings as place ps
        ofFault (ofObject ps required (allowsAdditional as)))
      (do
        let required ← resolveRequired settings cs place qs
        ofFault (ofObject qs required (allowsAdditional cs))) := by
  have hkept := ensures_resolveRequired settings cs place qs
  rw [hlenient] at hkept
  rw [resolveRequired_eq_of_reordered hget h, allowsAdditional_eq_of_reordered hget]
  apply (tallies_self hkept).bind
  rintro required _ ⟨rfl, hrequired⟩
  apply tallies_ofFault
  exact h.agree (fun name hname => ((hrequired name).mp hname).2) _

end Object

variable (h : ∀ sub ∈ (Value.mapping form as).subschemas, ∀ sub', sub.Reordered sub' → ∀ place,
  Tallies Alike (read sub place (depth + 1)) (read sub' place (depth + 1)))

include hlenient h

theorem tallies_readVariants {combinator : Combinator} {variants variants' : Value}
    (hdirective : directive as = .combine combinator variants)
    (hvariants : variants.Reordered variants') (place : Pointer) :
    Tallies Alike (readVariants settings read combinator variants place depth)
      (readVariants settings read combinator variants' place depth) := by
  cases id hvariants with
  | list =>
      rw [subschemas_variants hdirective] at h
      cases Value.reordered_list_iff.mp hvariants with
      | nil => exact tallies_malformed_then hlenient .unknown _ _
      | cons hfirst hrest =>
          rw [readVariants, readVariants]
          apply Tallies.bind
          · apply tallies_each (fun _ _ => True) Alike
            apply (forall₂_zipIdx (.cons hfirst hrest) h 0).imp
            rintro ⟨a, i⟩ ⟨b, j⟩ ⟨hread, hab, rfl⟩
            exact (hread b hab _).imp fun halike => ⟨trivial, halike⟩
          · rintro models models' ⟨hsteps, halike⟩
            apply tallies_ofFault
            apply agree_joinVariants _ halike
            rintro rfl
            cases hsteps
  | tuple => exact tallies_malformed_then hlenient .unknown _ _
  | mapping => exact tallies_malformed_then hlenient .unknown _ _
  | scalar hscalar =>
      cases variants with
      | list => cases hscalar
      | _ => exact tallies_malformed_then hlenient .unknown _ _

include hget

omit hlenient in
theorem tallies_readItems {name : Text} (hdirective : directive as = .type (.str name))
    (hname : TypeName.ofName? name = some .array) (place : Pointer) :
    Tallies Alike (readItems settings read as place depth)
      (readItems settings read cs place depth) := by
  rw [readItems, readItems]
  rcases optionRel_cases (hget "items") with ⟨ha, hb⟩ | ⟨a, b, ha, hb, hab⟩
  · rw [ha, hb]
    exact tallies_pure (.array .unknown)
  · have hread : (∀ schemas, a ≠ .list schemas) → Tallies Alike
        (do
          let model ← read a (place.child "items") (depth + 1)
          pure (.array model))
        (do
          let model ← read b (place.child "items") (depth + 1)
          pure (.array model)) := by
      intro hother
      rw [subschemas_items hdirective hname ha hother] at h
      apply (h a List.mem_cons_self b hab _).bind
      intro model model' halike
      exact tallies_pure (.array halike)
    rw [ha, hb]
    cases hab with
    | list => exact tallies_unsupported_then (.array .unknown) _ _
    | tuple => exact hread (by simp)
    | mapping => exact hread (by simp)
    | scalar hscalar =>
        cases a with
        | list => cases hscalar
        | _ => exact hread (by simp)

/-- Every name is declared by the same schema, in another order. -/
theorem tallies_readProperties (hkeys : (Value.mapping form as).distinctKeys = true) {name : Text}
    (hdirective : directive as = .type (.str name))
    (hname : TypeName.ofName? name = some .object) (place : Pointer) :
    Tallies DeclaredAlike (readProperties settings read as place depth)
      (readProperties settings read cs place depth) := by
  have hnone : DeclaredAlike [] [] :=
    ⟨List.forall_mem_nil _, List.forall_mem_nil _, fun _ => .none⟩
  rw [readProperties, readProperties]
  rcases optionRel_cases (hget "properties") with ⟨ha, hb⟩ | ⟨a, b, ha, hb, hab⟩
  · rw [ha, hb]
    exact tallies_pure hnone
  · rw [ha, hb]
    cases id hab with
    | mapping =>
        have hdeclared := Value.distinctKeys_mapping_iff.mp (inherited_distinctKeys.get? hkeys ha)
        rw [subschemas_properties hdirective hname ha] at h
        simp only [keyText_unlimited, Resolution.pure_bind]
        apply tallies_properties hab hdeclared.1
        intro entry hmem
        exact h entry.2 (List.mem_map_of_mem hmem)
    | list => exact tallies_malformed_then hlenient hnone _ _
    | tuple => exact tallies_malformed_then hlenient hnone _ _
    | scalar hscalar =>
        cases a with
        | mapping => cases hscalar
        | _ => exact tallies_malformed_then hlenient hnone _ _

theorem tallies_readType (hkeys : (Value.mapping form as).distinctKeys = true) {name name' : Value}
    (hdirective : directive as = .type name) (hsame : name.Reordered name') (place : Pointer) :
    Tallies Alike (readType settings read as name place depth)
      (readType settings read cs name' place depth) := by
  cases hsame with
  | list => exact tallies_unsupported_then .unknown _ _
  | tuple => exact tallies_unsupported_then .unknown _ _
  | mapping => exact tallies_unsupported_then .unknown _ _
  | scalar =>
      unfold readType
      split
      · next name =>
        split
        · exact tallies_pure .string
        · exact tallies_pure .number
        · exact tallies_pure .boolean
        · exact tallies_pure .null
        · next hname => exact tallies_readItems hget h hdirective hname place
        · next hname =>
          apply (tallies_readProperties hlenient hget h hkeys hdirective hname place).bind
          intro properties properties' halike
          exact tallies_object hlenient hget halike place
        · exact tallies_unsupported_then .unknown _ _
      · exact tallies_unsupported_then .unknown _ _

/-- The deciding keyword does not depend on the order of the keys, and its argument is reordered
inside. -/
theorem tallies_readDirective (hkeys : (Value.mapping form as).distinctKeys = true)
    (hnan : ∀ literal ∈ (Value.mapping form as).literals, literal.nanFree = true)
    (place : Pointer) :
    Tallies Alike (readDirective settings read as place depth (directive as))
      (readDirective settings read cs place depth (directive cs)) := by
  rw [literals_eq] at hnan
  have hargument : ∀ keyword argument, (directive as).keyword? = some (keyword, argument) →
      argument.distinctKeys = true := by
    intro keyword argument hkeyword
    exact inherited_distinctKeys.get? hkeys (get?_of_directive hkeyword)
  have hreordered := directive_reordered hget
  generalize hdirective : directive as = d at hreordered hnan hargument
  generalize directive cs = d' at hreordered
  cases hreordered with
  | const hab =>
      exact tallies_resolveConst hlenient hab (hargument _ _ rfl) (hnan _ List.mem_cons_self) _ _
  | enum hab => exact tallies_resolveEnum hlenient hab (hargument _ _ rfl) hnan _ _
  | combine combinator hab => exact tallies_readVariants hlenient h hdirective hab place
  | type hab => exact tallies_readType hlenient hget h hkeys hdirective hab place
  | absent => exact tallies_pure .unknown

end Readers

/-- A node and a reordered one are read to models that are alike. -/
theorem tallies_resolveNode {settings : ResolverSettings} (hlenient : settings.strict = false)
    {node node' : Value} (h : node.Reordered node') (hkeys : node.distinctKeys = true)
    (place : Pointer) (depth : Nat)
    (hnan : ∀ visit ∈ node.visits depth, ∀ literal ∈ visit.2.literals, literal.nanFree = true) :
    Tallies Alike (resolveNode settings node place depth)
      (resolveNode settings node' place depth) := by
  induction node using schemaInduction generalizing node' place depth with
  | step node ih =>
    rw [visits_eq, List.forall_mem_cons, List.forall_mem_flatMap] at hnan
    cases id h with
    | mapping =>
        have hget := h.get?_rel (Value.distinctKeys_mapping_iff.mp hkeys).1
        rw [resolveNode_mapping, resolveNode_mapping]
        apply tallies_bounded
        apply (tallies_reportKeywords settings h place).bind
        intro _ _ _
        apply tallies_readDirective hlenient hget _ hkeys hnan.1
        intro sub hsub sub' hreordered place
        exact ih sub hsub hreordered (inherited_distinctKeys.subschema hkeys hsub) place _
          (hnan.2 sub hsub)
    | list =>
        rw [resolveNode, resolveNode]
        · exact tallies_bounded (tallies_malformed_then hlenient .unknown _ _) _ _
        all_goals simp
    | tuple =>
        rw [resolveNode, resolveNode]
        · exact tallies_bounded (tallies_malformed_then hlenient .unknown _ _) _ _
        all_goals simp
    | scalar hscalar =>
        cases node with
        | list | tuple | mapping => cases hscalar
        | bool flag =>
            rw [resolveNode]
            apply tallies_bounded
            cases flag with
            | true => exact tallies_pure .unknown
            | false => exact tallies_pure .never
        | _ =>
            rw [resolveNode]
            · exact tallies_bounded (tallies_malformed_then hlenient .unknown _ _) _ _
            all_goals simp

/-- Reading without bounds does not depend on the order of the entries of a document. -/
theorem resolve_unlimited_ignores_order {schema schema' : Value} {settings : ResolverSettings}
    (h : schema.Reordered schema') (hkeys : schema.distinctKeys = true)
    (hnan : ∀ visit ∈ schema.visits 0, ∀ literal ∈ visit.2.literals, literal.nanFree = true)
    (hlenient : settings.strict = false) :
    (∃ path limit path' limit', resolve schema settings = .error (.tooDeep path limit) ∧
      resolve schema' settings = .error (.tooDeep path' limit')) ∨
    ∃ result result',
      resolve schema settings = .ok result ∧ resolve schema' settings = .ok result' ∧
      result.model.same result'.model = true ∧ result.issues.Perm result'.issues := by
  have htallies := tallies_resolveNode hlenient h hkeys [] 0 hnan
  rw [resolve, resolve]
  generalize resolveNode settings schema [] 0 = run at htallies
  generalize resolveNode settings schema' [] 0 = run' at htallies
  cases htallies with
  | tooDeep path path' limit limit' => exact .inl ⟨path, limit, path', limit', rfl, rfl⟩
  | found halike order => exact .inr ⟨_, _, rfl, rfl, halike.same, order⟩

end SchemaModel
