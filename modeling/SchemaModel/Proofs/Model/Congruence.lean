import SchemaModel.Proofs.Model.Alike
import SchemaModel.Proofs.Model.Reduce
import SchemaModel.Proofs.Model.Rules

/-!
# Overlap respects equality

Overlaps of models that are alike are alike.  The two overlaps follow the same rule, since alike
models have the same form, and each rule makes alike models of alike parts: tests answer alike, so
as many values survive, unions drop the same branches, and objects settle every name alike.
-/

namespace SchemaModel

attribute [local instance] Platform.unlimited

namespace Model

/-- Both ways of making a model succeed, with models that are alike. -/
def Agree (x x' : Except Fault Model) : Prop :=
  ∃ joint joint', x = .ok joint ∧ x' = .ok joint' ∧ Alike joint joint'

theorem Alike.agree {a a' : Model} (h : Alike a a') : Agree (.ok a) (.ok a') :=
  ⟨a, a', rfl, rfl, h⟩

theorem Alike.isNever_eq {a a' : Model} (h : Alike a a') : a.isNever = a'.isNever := by
  cases h <;> rfl

theorem Alike.members {a a' : Model} (h : Alike a a') :
    List.Forall₂ Alike a.members a'.members := by
  cases h with
  | allOf nonempty length parts => exact forall₂_iff_getElem?.mpr ⟨length, parts⟩
  | unknown => exact .cons .unknown .nil
  | never => exact .cons .never .nil
  | null => exact .cons .null .nil
  | boolean => exact .cons .boolean .nil
  | number => exact .cons .number .nil
  | string => exact .cons .string .nil
  | literal left right equal => exact .cons (.literal left right equal) .nil
  | enum left right forth back => exact .cons (.enum left right forth back) .nil
  | array items => exact .cons (.array items) .nil
  | object left right names keys parts => exact .cons (.object left right names keys parts) .nil
  | oneOf nonempty length parts => exact .cons (.oneOf nonempty length parts) .nil
  | anyOf nonempty length parts => exact .cons (.anyOf nonempty length parts) .nil

/-! ## Values -/

theorem exists_mem_distinctValues {values : List Value} (h : ∀ value ∈ values, value.IsData)
    {v : Value} (hv : v.distinctKeys = true) (hmem : ∃ value ∈ values, v.jsonEqual value = true) :
    ∃ value ∈ distinctValues [] values, v.jsonEqual value = true := by
  rw [← List.any_eq_true, any_distinctValues h hv, List.any_eq_true]
  exact hmem

section Values

variable {as bs : List Value} (has : ∀ a ∈ as, a.IsData) (hbs : ∀ b ∈ bs, b.IsData)
  (forth : ∀ a ∈ as, ∃ b ∈ bs, a.jsonEqual b = true)
  (back : ∀ b ∈ bs, ∃ a ∈ as, a.jsonEqual b = true)

include has hbs forth back

/-- Lists that cover each other are enumerated alike. -/
theorem agree_ofEnum (hne : as ≠ []) (m n : Mark) : Agree (ofEnum as m) (ofEnum bs n) := by
  have hne' : bs ≠ [] := by
    obtain ⟨first, hfirst⟩ := List.exists_mem_of_ne_nil as hne
    obtain ⟨mate, hmate, -⟩ := forth first hfirst
    exact List.ne_nil_of_mem hmate
  obtain ⟨model, hmodel, hgood, -⟩ := yields_ofEnum hne has m
  obtain ⟨model', hmodel', hgood', -⟩ := yields_ofEnum hne' hbs n
  refine ⟨model, model', hmodel, hmodel', ?_⟩
  obtain rfl := ofEnum_eq_ok hmodel
  obtain rfl := ofEnum_eq_ok hmodel'
  refine .enum hgood hgood' (fun a ha => ?_) fun b hb => ?_
  · have ha := (distinctValues_sublist _ _).subset ha
    exact exists_mem_distinctValues hbs (has a ha).distinctKeys (forth a ha)
  · have hb := (distinctValues_sublist _ _).subset hb
    obtain ⟨a, ha, hab⟩ := back b hb
    have hba := (has a ha).jsonEqual_symm (hbs b hb) hab
    obtain ⟨kept, hkept, heq⟩ :=
      exists_mem_distinctValues has (hbs b hb).distinctKeys ⟨a, ha, hba⟩
    have hdata := has kept ((distinctValues_sublist _ _).subset hkept)
    exact ⟨kept, hkept, (hbs b hb).jsonEqual_symm hdata heq⟩

end Values

theorem agree_ofLiteral {a b : Value} (ha : a.IsData) (hb : b.IsData) (h : a.jsonEqual b = true)
    (m n : Mark) : Agree (ofLiteral a m) (ofLiteral b n) := by
  obtain ⟨model, hmodel, -⟩ := yields_ofLiteral ha m
  obtain ⟨model', hmodel', -⟩ := yields_ofLiteral hb n
  refine ⟨model, model', hmodel, hmodel', ?_⟩
  rw [ofLiteral_eq_ok hmodel, ofLiteral_eq_ok hmodel']
  exact .literal ha hb h

theorem Alike.permits_congr {a a' : Model} (h : Alike a a') {v w : Value}
    (hv : v.distinctKeys = true) (hw : w.distinctKeys = true) (heq : v.jsonEqual w = true) :
    a.permits v = a'.permits w := by
  rw [permits_eq_of_jsonEqual h.good_left hv hw heq, h.permits_eq hw]

theorem agree_select {m n : Mark} {v w : Value} {other other' : Model}
    (hliteral : Alike (.literal m v) (.literal n w)) (hother : Alike other other') :
    Agree (do if ← other.accepts v then .ok (.literal m v) else .ok .never)
      (do if ← other'.accepts w then .ok (.literal n w) else .ok .never) := by
  cases id hliteral with
  | literal left right equal =>
      rw [hother.good_left.accepts_eq, hother.good_right.accepts_eq,
        hother.permits_congr left.distinctKeys right.distinctKeys equal]
      simp only [bind, Except.bind]
      split
      · exact hliteral.agree
      · exact Alike.never.agree

section Narrow

variable {m n : Mark} {as bs : List Value} {other other' : Model}
  (left : Good (.enum m as)) (right : Good (.enum n bs)) (hother : Alike other other')

include left right hother

/-- Equal values are kept together. -/
theorem kept_forth (forth : ∀ a ∈ as, ∃ b ∈ bs, a.jsonEqual b = true) :
    ∀ a ∈ as.filter other.permits, ∃ b ∈ bs.filter other'.permits, a.jsonEqual b = true := by
  intro a ha
  obtain ⟨ha, hpermits⟩ := List.mem_filter.mp ha
  obtain ⟨b, hb, hab⟩ := forth a ha
  have hcongr := hother.permits_congr (data_of_good_enum left a ha).distinctKeys
    (data_of_good_enum right b hb).distinctKeys hab
  exact ⟨b, List.mem_filter.mpr ⟨hb, hcongr ▸ hpermits⟩, hab⟩

theorem kept_back (back : ∀ b ∈ bs, ∃ a ∈ as, a.jsonEqual b = true) :
    ∀ b ∈ bs.filter other'.permits, ∃ a ∈ as.filter other.permits, a.jsonEqual b = true := by
  intro b hb
  obtain ⟨hb, hpermits⟩ := List.mem_filter.mp hb
  obtain ⟨a, ha, hab⟩ := back b hb
  have hcongr := hother.permits_congr (data_of_good_enum left a ha).distinctKeys
    (data_of_good_enum right b hb).distinctKeys hab
  exact ⟨a, List.mem_filter.mpr ⟨ha, hcongr ▸ hpermits⟩, hab⟩

end Narrow

theorem narrow_eq {values : List Value} {other : Model} (h : Good other) (mark : Mark) :
    narrow values other mark =
      match values.filter other.permits with
      | [] => .ok .never
      | [value] => ofLiteral value mark
      | kept => ofEnum kept mark := by
  have hfilter : values.filterM (other.accepts ·) = .ok (values.filter other.permits) :=
    filterM_eq_ok fun value _ => h.accepts_eq value
  rw [narrow, hfilter]
  rfl

/-- Enumerations in different orders keep the same values. -/
theorem agree_narrow {m n : Mark} {as bs : List Value} {other other' : Model}
    (henum : Alike (.enum m as) (.enum n bs)) (hother : Alike other other') (mark mark' : Mark) :
    Agree (narrow as other mark) (narrow bs other' mark') := by
  cases henum with
  | enum left right forth back =>
      have hforth := kept_forth left right hother forth
      have hback := kept_back left right hother back
      have has : ∀ a ∈ as.filter other.permits, a.IsData := fun a ha =>
        data_of_good_enum left a (List.mem_filter.mp ha).1
      have hbs : ∀ b ∈ bs.filter other'.permits, b.IsData := fun b hb =>
        data_of_good_enum right b (List.mem_filter.mp hb).1
      -- Distinct values with partners on the other side are as many there, so the cases match.
      have hlength : (as.filter other.permits).length = (bs.filter other'.permits).length := by
        apply Nat.le_antisymm
        · exact length_le_of_partner hforth
            ((apart_of_good_enum left hbs).sublist List.filter_sublist)
        · refine length_le_of_partner (fun b hb => ?_)
            ((apart_of_good_enum right has).sublist List.filter_sublist)
          obtain ⟨a, ha, hab⟩ := hback b hb
          exact ⟨a, ha, (has a ha).jsonEqual_symm (hbs b hb) hab⟩
      rw [narrow_eq hother.good_left, narrow_eq hother.good_right]
      generalize as.filter other.permits = kept at *
      generalize bs.filter other'.permits = kept' at *
      match kept, kept', hlength with
      | [], [], _ => exact Alike.never.agree
      | [a], [b], _ =>
          obtain ⟨mate, hmate, hab⟩ := hforth a List.mem_cons_self
          cases List.mem_singleton.mp hmate
          exact agree_ofLiteral (has a List.mem_cons_self) (hbs b List.mem_cons_self) hab mark mark'
      | first :: second :: rest, first' :: second' :: rest', _ =>
          exact agree_ofEnum has hbs hforth hback (List.cons_ne_nil _ _) mark mark'

/-! ## Combinations -/

theorem agree_combine {as bs : List Model} (hne : as ≠ []) (h : List.Forall₂ Alike as bs)
    (combinator : Combinator) (m n : Mark) :
    Agree (combine combinator as m) (combine combinator bs n) := by
  have hgood := good_of_forall₂_alike h
  have hgood' := good_of_forall₂_alike (h.flip.imp fun _ _ hab => Alike.symm hab)
  have hne' : bs ≠ [] := ne_nil_of_length_eq hne h.length_eq
  obtain ⟨model, hmodel, -⟩ := yields_combine hne hgood combinator m
  obtain ⟨model', hmodel', -⟩ := yields_combine hne' hgood' combinator n
  refine ⟨model, model', hmodel, hmodel', ?_⟩
  rw [combine_eq_ok hmodel, combine_eq_ok hmodel']
  exact .wrap hne h m n combinator

theorem forall₂_filter {α : Type} {rel : α → α → Prop} (keep : α → Bool)
    (hkeep : ∀ {a b}, rel a b → keep a = keep b) {as bs : List α} (h : List.Forall₂ rel as bs) :
    List.Forall₂ rel (as.filter keep) (bs.filter keep) := by
  induction h with
  | nil => exact .nil
  | @cons a b as bs hab _ ih =>
      rw [List.filter_cons, List.filter_cons, hkeep hab]
      split
      · exact .cons hab ih
      · exact ih

theorem agree_gather {as bs : List Model} (h : List.Forall₂ Alike as bs) (combinator : Combinator)
    (m n : Mark) : Agree (gather combinator as m) (gather combinator bs n) := by
  have hkept := forall₂_filter (fun part => !part.isNever)
    (fun hab => by rw [Alike.isNever_eq hab]) h
  rw [gather, gather]
  generalize as.filter (fun part => !part.isNever) = kept at hkept
  generalize bs.filter (fun part => !part.isNever) = kept' at hkept
  cases hkept with
  | nil => exact Alike.never.agree
  | cons hfirst hrest =>
      cases hrest with
      | nil => exact hfirst.agree
      | cons hsecond hrest =>
          exact agree_combine (List.cons_ne_nil _ _) (.cons hfirst (.cons hsecond hrest)) combinator
            m n

theorem mapM_eq_ok_of_forall₂ {α : Type} {f g : α → Except Fault Model} {xs ys : List α}
    (h : List.Forall₂ (fun x y => Agree (f x) (g y)) xs ys) :
    ∃ as bs, xs.mapM f = .ok as ∧ ys.mapM g = .ok bs ∧ List.Forall₂ Alike as bs := by
  induction h with
  | nil => exact ⟨[], [], rfl, rfl, .nil⟩
  | cons hxy _ ih =>
      obtain ⟨a, b, ha, hb, hab⟩ := hxy
      obtain ⟨as, bs, has, hbs, hall⟩ := ih
      refine ⟨a :: as, b :: bs, ?_, ?_, .cons hab hall⟩
      · rw [List.mapM_cons, ha, has]
        rfl
      · rw [List.mapM_cons, hb, hbs]
        rfl

/-! ## Objects -/

@[simp] theorem keptParts_cons_none (name : Key) (parts : List (Key × Option Model)) :
    keptParts ((name, none) :: parts) = keptParts parts := rfl

@[simp] theorem keptParts_cons_some (name : Key) (model : Model)
    (parts : List (Key × Option Model)) :
    keptParts ((name, some model) :: parts) = (name, model) :: keptParts parts := rfl

/-- A kept property is found under its key, a forbidden one is not. -/
theorem findLast?_keptParts {parts : List (Key × Option Model)}
    (hdistinct : Entries.distinct parts = true) (key : Key) :
    Entries.findLast? (keptParts parts) key = (Entries.findLast? parts key).join := by
  induction parts with
  | nil => rfl
  | cons part parts ih =>
      obtain ⟨name, settled⟩ := part
      rw [Entries.distinct_iff, Entries.classes_cons, List.nodup_cons, ← Entries.distinct_iff]
        at hdistinct
      have hrest := ih hdistinct.2
      rw [Entries.findLast?]
      cases settled with
      | none =>
          rw [keptParts_cons_none, hrest]
          cases Entries.findLast? parts key with
          | some later => rfl
          | none => by_cases hsame : name.same key = true <;> simp [hsame]
      | some model =>
          rw [keptParts_cons_some, Entries.findLast?, hrest]
          cases hlater : Entries.findLast? parts key with
          | none => by_cases hsame : name.same key = true <;> simp [hsame]
          | some later =>
              have hdiffers : ¬ name.same key = true := by
                intro hsame
                have hclass := (Key.same_iff _ _).mp hsame
                rw [Entries.findLast?_eq_none_iff.mpr (hclass ▸ hdistinct.1)] at hlater
                cases hlater
              cases later <;> simp [hdiffers]

/-- A part blocks a merged object when a required name is forbidden or permits nothing. -/
theorem any_blocks_iff {required : List Text} {parts : List (Key × Option Model)}
    (hdistinct : Entries.distinct parts = true) :
    parts.any (blocks required) = true ↔ ∃ name ∈ required, ∃ settled,
      Entries.findLast? parts (.str name) = some settled ∧ settled.all isNever = true := by
  simp only [Entries.findLast?_eq_find? hdistinct, ← Entries.mem_iff_find?_str hdistinct,
    List.any_eq_true, blocks, Bool.and_eq_true, Key.same_str_iff]
  constructor
  · rintro ⟨⟨key, settled⟩, hmem, ⟨name, hname, rfl⟩, hnever⟩
    exact ⟨name, hname, settled, hmem, hnever⟩
  · rintro ⟨name, hname, settled, hmem, hnever⟩
    exact ⟨(.str name, settled), hmem, ⟨name, hname, rfl⟩, hnever⟩

theorem joinNames_congr {r r' s s' : List Text} (hr : ∀ name, name ∈ r ↔ name ∈ r')
    (hs : ∀ name, name ∈ s ↔ name ∈ s') (name : Text) :
    name ∈ joinNames r s ↔ name ∈ joinNames r' s' := by
  rw [mem_joinNames, mem_joinNames, hr, hs]

section Merge

variable {required required' : List Text} {additional : Bool}
  {parts parts' : List (Key × Option Model)} (hnames : ∀ name, name ∈ required ↔ name ∈ required')
  (hdistinct : Entries.distinct parts = true) (hdistinct' : Entries.distinct parts' = true)
  (hparts : ∀ key, Option.Rel (Option.Rel Alike) (Entries.findLast? parts key)
    (Entries.findLast? parts' key))

include hnames hdistinct hdistinct' hparts

theorem any_blocks_congr : parts.any (blocks required) = parts'.any (blocks required') := by
  have hnever : ∀ {settled settled'}, Option.Rel Alike settled settled' →
      settled.all isNever = settled'.all isNever := by
    intro settled settled' h
    cases h with
    | none => rfl
    | some hab => exact hab.isNever_eq
  rw [Bool.eq_iff_iff, any_blocks_iff hdistinct, any_blocks_iff hdistinct']
  refine exists_congr fun name => and_congr (hnames name) ?_
  constructor
  · rintro ⟨settled, hfound, hall⟩
    obtain ⟨settled', hfound', hrel⟩ := optionRel_some_left (hparts (.str name)) hfound
    exact ⟨settled', hfound', hnever hrel ▸ hall⟩
  · rintro ⟨settled', hfound', hall⟩
    obtain ⟨settled, hfound, hrel⟩ := optionRel_some_right (hparts (.str name)) hfound'
    exact ⟨settled, hfound, hnever hrel ▸ hall⟩

/-- Names that are settled alike make objects that are alike. -/
theorem alike_mergeParts (hgood : Good (mergeParts required additional parts))
    (hgood' : Good (mergeParts required' additional parts')) :
    Alike (mergeParts required additional parts) (mergeParts required' additional parts') := by
  have hblocks := any_blocks_congr hnames hdistinct hdistinct' hparts
  rw [mergeParts] at hgood ⊢
  rw [mergeParts, ← hblocks] at hgood' ⊢
  split
  · exact .never
  · next hopen =>
    rw [if_neg hopen] at hgood hgood'
    refine alike_object hgood hgood' hnames fun key => ?_
    rw [findLast?_keptParts hdistinct, findLast?_keptParts hdistinct']
    rcases optionRel_cases (hparts key) with
      ⟨hnone, hnone'⟩ | ⟨settled, settled', hsome, hsome', hrel⟩
    · rw [hnone, hnone']
      exact .none
    · rw [hsome, hsome']
      exact hrel

end Merge

/-- How a key is settled depends on both declarations only up to likeness. -/
theorem settled_congr {x y : Bool} {a a' b b' : Option Model}
    {settled settled' : Option (Option Model)}
    (hmerged : Merged x y a b settled) (hmerged' : Merged x y a' b' settled')
    (ha : Option.Rel Alike a a') (hb : Option.Rel Alike b b')
    (hmeet : ∀ c d c' d', a = some c → b = some d → Alike c c' → Alike d d' →
      ∀ mark mark', Agree (overlap c d mark) (overlap c' d' mark')) :
    Option.Rel (Option.Rel Alike) settled settled' := by
  cases hmerged with
  | @both c d joint mark h =>
      cases ha with
      | some hc =>
          cases hb with
          | some hd =>
              cases hmerged' with
              | both mark' h' =>
                  obtain ⟨found, found', hfound, hfound', halike⟩ :=
                    hmeet _ _ _ _ rfl rfl hc hd mark mark'
                  cases h.symm.trans hfound
                  cases h'.symm.trans hfound'
                  exact .some (.some halike)
  | left c =>
      cases ha with
      | some hc =>
          cases hb
          cases hmerged'
          cases y with
          | true => exact .some (.some hc)
          | false => exact .some .none
  | right d =>
      cases ha
      cases hb with
      | some hd =>
          cases hmerged'
          cases x with
          | true => exact .some (.some hd)
          | false => exact .some .none
  | neither =>
      cases ha
      cases hb
      cases hmerged'
      exact .none

/-- Overlaps of models smaller than a size respect equality. -/
def MeetsAlike (size : Nat) : Prop :=
  ∀ a b a' b', sizeOf a + sizeOf b < size → Alike a a' → Alike b b' →
    ∀ mark mark', Agree (overlap a b mark) (overlap a' b' mark')

/-- Two merged objects agree as soon as the overlaps of their properties do. -/
theorem agree_objects {as bs as' bs' : List (Key × Model)} {r s r' s' : List Text} {x y : Bool}
    (ha : Alike (.object as r x) (.object as' r' x))
    (hb : Alike (.object bs s y) (.object bs' s' y))
    (hdiffer : ¬ same (.object as r x) (.object bs s y) = true)
    (ih : MeetsAlike (sizeOf (Model.object as r x) + sizeOf (Model.object bs s y)))
    (mark mark' : Mark) :
    Agree (overlap (.object as r x) (.object bs s y) mark)
      (overlap (.object as' r' x) (.object bs' s' y) mark') := by
  have hdiffer' : ¬ same (.object as' r' x) (.object bs' s' y) = true := by
    rwa [← ha.same_congr hb]
  obtain ⟨parts, hparts, hdistinct, hmerged⟩ :=
    exists_mergedParts ha.good_left hb.good_left hdiffer mark
  obtain ⟨parts', hparts', hdistinct', hmerged'⟩ :=
    exists_mergedParts ha.good_right hb.good_right hdiffer' mark'
  obtain ⟨joint, hjoint, hgood, -⟩ := yields_overlap ha.good_left hb.good_left mark
  obtain ⟨joint', hjoint', hgood', -⟩ := yields_overlap ha.good_right hb.good_right mark'
  cases hparts.symm.trans hjoint
  cases hparts'.symm.trans hjoint'
  have hsize : ∀ {properties : List (Key × Model)} {key : Key} {model : Model},
      Entries.findLast? properties key = some model → sizeOf model < sizeOf properties := by
    intro properties key model hfound
    rw [← Entries.find?_ofPairs] at hfound
    exact sizeOf_lt_of_find?_ofPairs hfound
  have hnames : ∀ name, name ∈ joinNames r s ↔ name ∈ joinNames r' s' := by
    cases ha with
    | object _ _ names =>
        cases hb with
        | object _ _ names' => exact joinNames_congr names names'
  refine ⟨_, _, hparts, hparts', alike_mergeParts hnames hdistinct hdistinct' (fun key => ?_)
    hgood hgood'⟩
  apply settled_congr (hmerged key) (hmerged' key) (ha.findLast?_rel key) (hb.findLast?_rel key)
  intro c d c' d' hc hd
  apply ih
  have hsmaller := hsize hc
  have hsmaller' := hsize hd
  simp only [object.sizeOf_spec]
  omega

/-! ## The rules -/

/-- The same rule, for models that are alike. -/
inductive RuleAlike : Rule → Rule → Prop
  | settled {a a' : Model} (h : Alike a a') : RuleAlike (.settled (.ok a)) (.settled (.ok a'))
  | select {m n : Mark} {v w : Value} {other other' : Model}
      (literal : Alike (.literal m v) (.literal n w)) (test : Alike other other') :
      RuleAlike (.select v (.literal m v) other) (.select w (.literal n w) other')
  | narrow {m n : Mark} {as bs : List Value} {other other' : Model}
      (enum : Alike (.enum m as) (.enum n bs)) (test : Alike other other') :
      RuleAlike (.narrow as other) (.narrow bs other')
  | spread (combinator : Combinator) {pairs pairs' : List (Model × Model)}
      (h : List.Forall₂ (fun p q => Alike p.1 q.1 ∧ Alike p.2 q.2) pairs pairs') :
      RuleAlike (.spread combinator pairs) (.spread combinator pairs')
  | join {as bs : List Model} (nonempty : as ≠ []) (members : List.Forall₂ Alike as bs) :
      RuleAlike (.join as) (.join bs)
  | arrays {a b a' b' : Model} (left : Alike a a') (right : Alike b b') :
      RuleAlike (.arrays a b) (.arrays a' b')
  | objects {as bs as' bs' : List (Key × Model)} {r s r' s' : List Text} {x y : Bool}
      (left : Alike (.object as r x) (.object as' r' x))
      (right : Alike (.object bs s y) (.object bs' s' y)) :
      RuleAlike (.objects as r x bs s y) (.objects as' r' x bs' s' y)

theorem spread_left {as as' : List Model} {b b' : Model} (combinator : Combinator)
    (length : as.length = as'.length)
    (parts : ∀ (i : Nat) a a', as[i]? = some a → as'[i]? = some a' → Alike a a')
    (hb : Alike b b') :
    RuleAlike (.spread combinator (as.map (·, b))) (.spread combinator (as'.map (·, b'))) := by
  apply RuleAlike.spread
  rw [List.forall₂_map_left_iff, List.forall₂_map_right_iff]
  exact (forall₂_iff_getElem?.mpr ⟨length, parts⟩).imp fun a a' ha => ⟨ha, hb⟩

theorem spread_right {bs bs' : List Model} {a a' : Model} (combinator : Combinator)
    (length : bs.length = bs'.length)
    (parts : ∀ (i : Nat) b b', bs[i]? = some b → bs'[i]? = some b' → Alike b b')
    (ha : Alike a a') :
    RuleAlike (.spread combinator (bs.map (a, ·))) (.spread combinator (bs'.map (a', ·))) := by
  apply RuleAlike.spread
  rw [List.forall₂_map_left_iff, List.forall₂_map_right_iff]
  exact (forall₂_iff_getElem?.mpr ⟨length, parts⟩).imp fun b b' hb => ⟨ha, hb⟩

theorem join_members {a a' b b' : Model} (ha : Alike a a') (hb : Alike b b') :
    RuleAlike (.join (a.members ++ b.members)) (.join (a'.members ++ b'.members)) := by
  refine .join (fun hnil => ?_) ?_
  · exact ha.good_left.members_ne_nil (List.append_eq_nil_iff.mp hnil).1
  · exact List.rel_append ha.members hb.members

/-- Alike models fall under the same rule. -/
theorem rule_alike {a a' b b' : Model} (ha : Alike a a') (hb : Alike b b') :
    RuleAlike (rule a b) (rule a' b') := by
  have hleft := ha
  have hright := hb
  cases ha with
  | unknown => exact .settled hright
  | never => cases hb <;> exact .settled .never
  | literal =>
      cases hb with
      | unknown => exact .settled hleft
      | never => exact .settled .never
      | _ => exact .select hleft hright
  | enum =>
      cases hb with
      | unknown => exact .settled hleft
      | never => exact .settled .never
      | literal => exact .select hright hleft
      | _ => exact .narrow hleft hright
  | anyOf _ length parts =>
      cases hb with
      | unknown => exact .settled hleft
      | never => exact .settled .never
      | literal => exact .select hright hleft
      | enum => exact .narrow hright hleft
      | _ => exact spread_left .anyOf length parts hright
  | allOf =>
      cases hb with
      | unknown => exact .settled hleft
      | never => exact .settled .never
      | literal => exact .select hright hleft
      | enum => exact .narrow hright hleft
      | anyOf _ length parts => exact spread_right .anyOf length parts hleft
      | _ => exact join_members hleft hright
  | oneOf _ length parts =>
      cases hb with
      | unknown => exact .settled hleft
      | never => exact .settled .never
      | literal => exact .select hright hleft
      | enum => exact .narrow hright hleft
      | anyOf _ length' parts' => exact spread_right .anyOf length' parts' hleft
      | allOf => exact join_members hleft hright
      | oneOf => exact join_members hleft hright
      | _ => exact spread_left .oneOf length parts hright
  | array items =>
      cases hb with
      | unknown => exact .settled hleft
      | literal => exact .select hright hleft
      | enum => exact .narrow hright hleft
      | anyOf _ length parts => exact spread_right .anyOf length parts hleft
      | allOf => exact join_members hleft hright
      | oneOf _ length parts => exact spread_right .oneOf length parts hleft
      | array items' => exact .arrays items items'
      | _ => exact .settled .never
  | object =>
      cases hb with
      | unknown => exact .settled hleft
      | literal => exact .select hright hleft
      | enum => exact .narrow hright hleft
      | anyOf _ length parts => exact spread_right .anyOf length parts hleft
      | allOf => exact join_members hleft hright
      | oneOf _ length parts => exact spread_right .oneOf length parts hleft
      | object => exact .objects hleft hright
      | _ => exact .settled .never
  | _ =>
      cases hb with
      | unknown => exact .settled hleft
      | literal => exact .select hright hleft
      | enum => exact .narrow hright hleft
      | anyOf _ length parts => exact spread_right .anyOf length parts hleft
      | allOf => exact join_members hleft hright
      | oneOf _ length parts => exact spread_right .oneOf length parts hleft
      | _ => exact .settled .never

/-- The rule that finds an overlap is the same for models that are alike, and leads to smaller ones.
-/
theorem agree_step {a b a' b' : Model} (ha : Alike a a') (hb : Alike b b')
    (ih : MeetsAlike (sizeOf a + sizeOf b)) (mark mark' : Mark) :
    Agree (overlap a b mark) (overlap a' b' mark') := by
  by_cases hsame : a.same b = true
  · have hsame' : a'.same b' = true := ha.same_congr hb ▸ hsame
    rw [overlap_eq, overlap_eq a', if_pos hsame, if_pos hsame']
    exact ha.agree
  · have hsame' : ¬ a'.same b' = true := ha.same_congr hb ▸ hsame
    have hrules := rule_alike ha hb
    generalize hrule : rule a b = left at hrules
    generalize hrule' : rule a' b' = right at hrules
    have hleft : overlap a b mark = follow (fun a b mark => overlap a b mark) mark left := by
      rw [overlap_eq, if_neg hsame, hrule]
    have hright : overlap a' b' mark' = follow (fun a b mark => overlap a b mark) mark' right := by
      rw [overlap_eq, if_neg hsame', hrule']
    -- One case for each rule; the rules that meet parts go back to smaller models.
    cases hrules with
    | settled h =>
        rw [hleft, hright]
        exact h.agree
    | select literal test =>
        rw [hleft, hright]
        exact agree_select literal test
    | narrow enum test =>
        rw [hleft, hright]
        exact agree_narrow enum test mark mark'
    | spread combinator h =>
        have hpairs := forall₂_zipIdx h (sizeOf_lt_of_spread hrule) 0
        obtain ⟨parts, parts', hparts, hparts', halike⟩ := mapM_eq_ok_of_forall₂
          (f := fun x => overlap x.1.1 x.1.2 (partMark mark x.2))
          (g := fun x => overlap x.1.1 x.1.2 (partMark mark' x.2))
          (hpairs.imp fun x y hxy => ih _ _ _ _ hxy.1 hxy.2.1.1 hxy.2.1.2 _ _)
        rw [hleft, hright, follow, follow, hparts, hparts']
        exact agree_gather halike combinator mark mark'
    | join nonempty members =>
        rw [hleft, hright]
        exact agree_combine nonempty members .allOf default default
    | arrays items items' =>
        obtain ⟨rfl, rfl⟩ := eq_of_rule_arrays hrule
        have hsmaller : ∀ x y : Model,
            sizeOf x + sizeOf y < sizeOf (array x) + sizeOf (array y) := by
          intro x y
          simp only [array.sizeOf_spec]
          omega
        obtain ⟨joint, joint', hjoint, hjoint', halike⟩ :=
          ih _ _ _ _ (hsmaller _ _) items items' mark mark'
        rw [hleft, hright, follow, follow, hjoint, hjoint']
        exact (Alike.array halike).agree
    | objects =>
        obtain ⟨rfl, rfl⟩ := eq_of_rule_objects hrule
        obtain ⟨rfl, rfl⟩ := eq_of_rule_objects hrule'
        exact agree_objects ha hb hsame ih mark mark'

/-- Overlaps of models that are alike agree, by induction on the size of both models. -/
theorem meetsAlike (size : Nat) : MeetsAlike size := by
  induction size with
  | zero => exact fun a b a' b' hsize => absurd hsize (Nat.not_lt_zero _)
  | succ size ih =>
      intro a b a' b' hsize ha hb mark mark'
      apply agree_step ha hb
      intro c d c' d' hsmaller
      exact ih c d c' d' (Nat.lt_of_lt_of_le hsmaller (Nat.le_of_lt_succ hsize))

/-- Overlaps of alike models are alike. -/
theorem agree_overlap {a b a' b' : Model} (ha : Alike a a') (hb : Alike b b') (mark mark' : Mark) :
    Agree (overlap a b mark) (overlap a' b' mark') :=
  meetsAlike _ a b a' b' (Nat.lt_succ_self _) ha hb mark mark'

/-! ## Overlaps of several models -/

theorem agree_reduceFrom {a a' : Model} {as bs : List Model} (ha : Alike a a')
    (h : List.Forall₂ Alike as bs) (mark mark' : Mark) (step : Nat) :
    Agree (reduceFrom mark step a as) (reduceFrom mark' step a' bs) := by
  induction h generalizing a a' step with
  | nil => exact ha.agree
  | cons hb _ ih =>
      obtain ⟨joint, joint', hjoint, hjoint', halike⟩ :=
        agree_overlap ha hb (partMark mark step) (partMark mark' step)
      rw [reduceFrom, reduceFrom, hjoint, hjoint']
      exact ih halike (step + 1)

theorem agree_reduce {as bs : List Model} (hne : as ≠ []) (h : List.Forall₂ Alike as bs)
    (mark mark' : Mark) : Agree (reduce as mark) (reduce bs mark') := by
  cases h with
  | nil => exact absurd rfl hne
  | cons ha hrest => exact agree_reduceFrom ha hrest mark mark' 0

theorem agree_exclusiveUnion {as bs : List Model} (hne : as ≠ []) (h : List.Forall₂ Alike as bs)
    (mark mark' : Mark) : Agree (exclusiveUnion as mark) (exclusiveUnion bs mark') := by
  obtain ⟨union, union', hunion, hunion', halike⟩ := agree_combine hne h .oneOf mark mark'
  obtain ⟨joint, joint', hjoint, hjoint', hjoints⟩ :=
    agree_reduce hne h (.inside mark 0) (.inside mark' 0)
  refine ⟨union, union', ?_, ?_, halike⟩
  · obtain rfl := combine_eq_ok hunion
    rw [exclusiveUnion, hunion]
    simp only [bind, Except.bind, wrap, shared, hjoint, hjoints.good_left.describe_eq]
  · obtain rfl := combine_eq_ok hunion'
    rw [exclusiveUnion, hunion']
    simp only [bind, Except.bind, wrap, shared, hjoint', hjoints.good_right.describe_eq]

end Model

end SchemaModel
