import SchemaModel.Proofs.Model.Listed
import SchemaModel.Proofs.Model.Reduce

/-!
# Overlaps that may be refused

Overlap asks models whether they accept values, so it may be refused when such a model rejects a
value and cannot be put into words.  Where it is not refused it gives the overlap that the platform
without bounds gives; what is refused is due to a value that one of the operands lists.
-/

namespace SchemaModel

/-- The search ends at the first property that blocks the object, before later refusals. -/
theorem Curtailed.collectProperties {α : Type} {writable : Prop} {required : List Text}
    {part part' : α → Except Fault (Key × Option Model)} {xs : List α}
    (h : ∀ x ∈ xs, Curtailed .refused writable (part x) (part' x)) :
    Curtailed .refused writable (Model.collectProperties required part xs)
      (Model.collectProperties required part' xs) := by
  induction xs with
  | nil => exact .refl _
  | cons x xs ih =>
      obtain ⟨hx, hxs⟩ := List.forall_mem_cons.mp h
      rw [Model.collectProperties, Model.collectProperties]
      refine hx.bind fun found _ => ?_
      obtain ⟨name, settled⟩ := found
      cases settled with
      | none =>
          simp only
          split
          · exact .refl _
          · exact ih hxs
      | some model =>
          simp only
          split
          · exact .refl _
          · exact (ih hxs).bind fun _ _ => .refl _

namespace Model

section Bounded

variable [Platform]

theorem curtailed_narrow {other : Model} (h : Good other) (values : List Value) (mark : Mark) :
    Curtailed .refused other.Writable (narrow values other mark)
      (@narrow .unlimited values other mark) :=
  (Curtailed.filterM fun value _ => curtailed_accepts h value).bind fun _ _ => .refl _

/-- What one rule of overlap gives, if meeting smaller models is curtailed. -/
theorem curtailed_follow {a b : Model} {meet meet' : Meet} (ha : Good a) (hb : Good b)
    (hmeet : ∀ x y mark, sizeOf x + sizeOf y < sizeOf a + sizeOf b → Good x → Good y →
      Curtailed .refused (x.Writable ∧ y.Writable) (meet x y mark) (meet' x y mark))
    (mark : Mark) :
    Curtailed .refused (a.Writable ∧ b.Writable) (follow meet mark (rule a b))
      (@follow .unlimited meet' mark (rule a b)) := by
  cases hrule : rule a b with
  | settled result => exact .refl _
  | join members => exact .refl _
  | select value chosen other =>
      have hother : Curtailed .refused (a.Writable ∧ b.Writable) (other.accepts value)
          (@accepts .unlimited Value _ other value) :=
        (curtailed_accepts (of_rule_select ha hb hrule).2 value).mono fun hwritable =>
          (of_rule_select hwritable.1 hwritable.2 hrule).2
      exact hother.bind fun _ _ => .refl _
  | narrow values other =>
      exact (curtailed_narrow (of_rule_narrow ha hb hrule).1 values mark).mono fun hwritable =>
        (of_rule_narrow hwritable.1 hwritable.2 hrule).1
  | spread combinator pairs =>
      have hgood := forall_of_rule_spread (fun m hm part hpart => hm.inner hpart) ha hb hrule
      refine (Curtailed.mapM fun x hx => ?_).bind fun parts _ => .refl _
      have hmem := List.fst_mem_of_mem_zipIdx hx
      refine (hmeet _ _ _ (sizeOf_lt_of_spread hrule x.1 hmem) (hgood x.1 hmem).1
        (hgood x.1 hmem).2).mono fun hwritable => ?_
      exact forall_of_rule_spread (fun m (hm : Writable m) part hpart => hm.inner hpart)
        hwritable.1 hwritable.2 hrule x.1 hmem
  | arrays x y =>
      obtain ⟨rfl, rfl⟩ := eq_of_rule_arrays hrule
      have hitems := hmeet x y mark (by simp only [array.sizeOf_spec]; omega)
        (ha.inner List.mem_cons_self) (hb.inner List.mem_cons_self)
      exact (hitems.mono fun hwritable => ⟨hwritable.1.items, hwritable.2.items⟩).bind
        fun _ _ => .refl _
  | objects as r x bs s y =>
      obtain ⟨rfl, rfl⟩ := eq_of_rule_objects hrule
      refine (Curtailed.collectProperties fun entry hentry => ?_).bind fun shared _ => .refl _
      have hleft := List.fst_mem_of_mem_zipIdx hentry
      rw [meetProperty, meetProperty]
      split
      · next other hfound =>
        obtain ⟨key, hright⟩ := Entries.mem_of_find? hfound
        have hsize : sizeOf entry.1.2 < sizeOf as := sizeOf_lt_of_mem_ofPairs hleft
        have hsize' : sizeOf other < sizeOf bs := sizeOf_lt_of_mem_ofPairs hright
        have hmet := hmeet entry.1.2 other (partMark mark entry.2)
          (by simp only [object.sizeOf_spec]; omega) (ha.of_mem_ofPairs hleft)
          (hb.of_mem_ofPairs hright)
        exact (hmet.mono fun hwritable => ⟨hwritable.1.of_mem_ofPairs hleft,
          hwritable.2.of_mem_ofPairs hright⟩).bind fun _ _ => .refl _
      · exact .refl _

/-- An overlap of good models is that of the platform without bounds, unless it is refused. -/
theorem curtailed_overlap {a b : Model} (ha : Good a) (hb : Good b) (mark : Mark) :
    Curtailed .refused (a.Writable ∧ b.Writable) (overlap a b mark)
      (@overlap .unlimited a b mark) := by
  rw [overlap_eq, @overlap_eq .unlimited]
  split
  · exact .refl _
  · exact curtailed_follow ha hb
      (fun x y mark hsize hx hy => curtailed_overlap hx hy mark) mark
termination_by sizeOf a + sizeOf b

/-! ## Overlaps of several models -/

/-- A step keeps to values that were there before, so what can be written stays so. -/
theorem curtailed_reduceFrom {models : List Model} {mark : Mark} {step : Nat} {model : Model}
    (hmodel : Good model) (hmodels : ∀ other ∈ models, Good other) :
    Curtailed .refused (∀ other ∈ model :: models, other.Writable)
      (reduceFrom mark step model models) (@reduceFrom .unlimited mark step model models) := by
  induction models generalizing model step with
  | nil => exact .refl _
  | cons other models ih =>
      obtain ⟨hother, hrest⟩ := List.forall_mem_cons.mp hmodels
      rw [reduceFrom, @reduceFrom.eq_def .unlimited]
      refine Curtailed.bind (.mono (curtailed_overlap hmodel hother _) fun hwritable => ?_)
        fun joint hjoint => ?_
      · obtain ⟨hfirst, hothers⟩ := List.forall_mem_cons.mp hwritable
        exact ⟨hfirst, hothers other List.mem_cons_self⟩
      · obtain ⟨found, hfound, hgood, -⟩ := yields_overlap hmodel hother (partMark mark step)
        cases hjoint.symm.trans hfound
        refine (ih hgood hrest).mono fun hwritable => ?_
        simp only [List.forall_mem_cons] at hwritable ⊢
        exact ⟨@lists_overlap _ .unlimited _ _ _ _ hwritable.1 hwritable.2.1 hjoint, hwritable.2.2⟩

theorem curtailed_reduce {models : List Model} (hmodels : ∀ model ∈ models, Good model)
    (mark : Mark) :
    Curtailed .refused (∀ model ∈ models, model.Writable) (reduce models mark)
      (@reduce .unlimited models mark) := by
  cases models with
  | nil => exact .refl _
  | cons model models =>
      obtain ⟨hmodel, hrest⟩ := List.forall_mem_cons.mp hmodels
      exact curtailed_reduceFrom hmodel hrest

theorem curtailed_shared {model : Model} (h : Good model) :
    Curtailed .refused model.Writable model.shared (@shared .unlimited model) := by
  cases h with
  | @oneOf mark branches nonempty good =>
      exact (curtailed_reduce good (.inside mark 0)).mono fun hwritable branch hmem =>
        hwritable.branch mark .oneOf hmem
  | _ => exact .refl _

/-- Forming an exclusive union puts the overlap of its branches into words. -/
theorem curtailed_exclusiveUnion {branches : List Model} (hne : branches ≠ [])
    (hbranches : ∀ branch ∈ branches, Good branch) (mark : Mark) :
    Curtailed .refused (∀ branch ∈ branches, branch.Writable) (exclusiveUnion branches mark)
      (@exclusiveUnion .unlimited branches mark) := by
  obtain ⟨union, hunion, -⟩ := yields_combine hne hbranches .oneOf mark
  obtain rfl := combine_eq_ok hunion
  rw [exclusiveUnion, @exclusiveUnion.eq_def .unlimited, hunion]
  refine (curtailed_reduce hbranches (.inside mark 0)).bind fun joint hjoint => ?_
  obtain ⟨found, hfound, hgood, -⟩ := yields_reduce hne hbranches (.inside mark 0)
  cases hjoint.symm.trans hfound
  have hwords := delivers_describe hgood
  rw [Delivers, ← hgood.describe_eq] at hwords
  exact (hwords.mono fun hwritable => @lists_reduce _ .unlimited _ _ _ hwritable hjoint).bind
    fun _ _ => .refl _

/-! ## Exactness -/

theorem exists_joint {a b : Model} (ha : Good a) (hb : Good b) (mark : Mark) :
    ∃ joint, Delivers (a.Writable ∧ b.Writable) (overlap a b mark) joint ∧ Good joint ∧
      (a.Writable ∧ b.Writable → joint.Writable) ∧
      ∀ v : Value, v.distinctKeys = true → joint.permits v = (a.permits v && b.permits v) := by
  obtain ⟨joint, hjoint, hgood, hexact⟩ := yields_overlap ha hb mark
  refine ⟨joint, ?_, hgood, fun hwritable => ?_, hexact⟩
  · rw [Delivers, ← hjoint]
    exact curtailed_overlap ha hb mark
  · exact @lists_overlap _ .unlimited _ _ _ _ hwritable.1 hwritable.2 hjoint

theorem exists_jointOf {models : List Model} (hne : models ≠ [])
    (hmodels : ∀ model ∈ models, Good model) (mark : Mark) :
    ∃ joint, Delivers (∀ model ∈ models, model.Writable) (reduce models mark) joint ∧ Good joint ∧
      ((∀ model ∈ models, model.Writable) → joint.Writable) ∧
      ∀ v : Value, v.distinctKeys = true → joint.permits v = models.all (·.permits v) := by
  obtain ⟨joint, hjoint, hgood, hexact⟩ := yields_reduce hne hmodels mark
  refine ⟨joint, ?_, hgood, fun hwritable => ?_, hexact⟩
  · rw [Delivers, ← hjoint]
    exact curtailed_reduce hmodels mark
  · exact @lists_reduce _ .unlimited _ _ _ hwritable hjoint

end Bounded

end Model

end SchemaModel
