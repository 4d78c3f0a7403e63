import SchemaModel.Model.Outline
import SchemaModel.Proofs.Model.CurtailedOverlap

/-!
# Good models have outlines

The outline of an exclusive union needs the shared overlap of its branches, and so on inside that
overlap.  All of these exist and are good, so every good model can be written out in full, unless
the platform refuses to put a value that the model lists into words.
-/

namespace SchemaModel.Model

attribute [local instance] Platform.unlimited

theorem exists_outlines {branches : List Model}
    (h : ∀ branch ∈ branches, ∃ tree, branch.outline = .ok tree) :
    ∃ trees, (branches.attach.mapM fun branch => branch.1.outline) = .ok trees :=
  exists_mapM_eq_ok fun branch _ => h branch.1 branch.2

theorem outline_oneOf [Platform] (mark : Mark) (branches : List Model) :
    (oneOf mark branches).outline = (branches.attach.mapM fun branch => branch.1.outline) >>=
      fun outlines => reduce branches (.inside mark 0) >>= fun common =>
        common.outline >>= fun tree => .ok (.oneOf outlines tree) := by
  rw [outline]
  congr 1
  funext outlines
  split
  · next fault hfault => rw [hfault]; rfl
  · next common hcommon => rw [hcommon]; rfl

/-- The induction is on the order in which outlines are formed, as the shared overlap of an
exclusive union is no part of it. -/
theorem Good.exists_outline {model : Model} (h : Good model) :
    ∃ tree, model.outline = .ok tree := by
  induction model using outline.induct with
  | case1 mark value => exact ⟨.literal value, by rw [outline]⟩
  | case2 mark values => exact ⟨.enum values, by rw [outline]⟩
  | case3 items ih =>
      cases h with
      | array hitems =>
          obtain ⟨tree, htree⟩ := ih hitems
          refine ⟨.array tree, ?_⟩
          rw [outline, htree]
          rfl
  | case4 properties required additional ih =>
      cases h with
      | object hgood _ =>
          have hentries : ∀ entry ∈ properties.attach, ∃ pair : Key × Outline,
              (do .ok (entry.1.1, ← entry.1.2.outline) : Except Fault (Key × Outline)) =
                .ok pair := by
            intro entry _
            obtain ⟨tree, htree⟩ := ih entry.1 entry.2 (hgood entry.1 entry.2)
            refine ⟨(entry.1.1, tree), ?_⟩
            rw [htree]
            rfl
          obtain ⟨pairs, hpairs⟩ := exists_mapM_eq_ok hentries
          rw [outline, hpairs]
          exact ⟨_, rfl⟩
  | case5 mark branches ih ihcommon =>
      cases h with
      | oneOf hne hgood =>
          obtain ⟨trees, htrees⟩ :=
            exists_outlines fun branch hmem => ih branch hmem (hgood branch hmem)
          obtain ⟨common, hcommon, hshared, -⟩ := yields_reduce hne hgood (.inside mark 0)
          obtain ⟨tree, htree⟩ := ihcommon common hcommon hshared
          refine ⟨.oneOf trees tree, ?_⟩
          rw [outline_oneOf, htrees, hcommon]
          simp only [bind, Except.bind, htree]
  | case6 branches ih =>
      cases h with
      | anyOf _ hgood =>
          obtain ⟨trees, htrees⟩ :=
            exists_outlines fun branch hmem => ih branch hmem (hgood branch hmem)
          rw [outline, htrees]
          exact ⟨_, rfl⟩
  | case7 branches ih =>
      cases h with
      | allOf _ hgood =>
          obtain ⟨trees, htrees⟩ :=
            exists_outlines fun branch hmem => ih branch hmem (hgood branch hmem)
          rw [outline, htrees]
          exact ⟨_, rfl⟩
  | case8 value => cases h
  | case9 model =>
      refine ⟨.plain model.kindName, ?_⟩
      rw [outline] <;> assumption

section Bounded

variable [Platform]

theorem curtailed_outlines {branches : List Model} {writable : Prop}
    (h : ∀ branch ∈ branches,
      Curtailed .refused writable branch.outline (@outline .unlimited branch)) :
    Curtailed .refused writable (branches.attach.mapM fun branch => branch.1.outline)
      (branches.attach.mapM fun branch => @outline .unlimited branch.1) :=
  .mapM fun branch _ => h branch.1 branch.2

/-- A good model is written out as on the platform without bounds, unless that is refused. -/
theorem curtailed_outline {model : Model} (h : Good model) :
    Curtailed .refused model.Writable model.outline (@outline .unlimited model) := by
  induction model using (@outline.induct .unlimited) with
  | case1 mark value =>
      rw [outline, @outline.eq_def .unlimited]
      exact .refl _
  | case2 mark values =>
      rw [outline, @outline.eq_def .unlimited]
      exact .refl _
  | case3 items ih =>
      cases h with
      | array hitems =>
          rw [outline, @outline.eq_def .unlimited]
          exact ((ih hitems).mono fun hwritable => hwritable.items).bind fun _ _ => .refl _
  | case4 properties required additional ih =>
      cases h with
      | object hgood hdeclared =>
          rw [outline, @outline.eq_def .unlimited]
          refine (Curtailed.mapM fun entry _ => ?_).bind fun _ _ => .refl _
          have hentry := ih entry.1 entry.2 (hgood entry.1 entry.2)
          exact (hentry.mono fun hwritable => hwritable.property entry.2).bind fun _ _ => .refl _
  | case5 mark branches ih ihcommon =>
      cases h with
      | oneOf hne hgood =>
          have hbranch : (oneOf mark branches).Writable → ∀ branch ∈ branches, branch.Writable :=
            fun hwritable branch hmem => hwritable.branch mark .oneOf hmem
          rw [outline_oneOf, @outline_oneOf .unlimited]
          refine (curtailed_outlines fun branch hmem => (ih branch hmem (hgood branch hmem)).mono
            fun hwritable => hbranch hwritable branch hmem).bind fun trees _ => ?_
          refine ((curtailed_reduce hgood _).mono hbranch).bind fun common hcommon => ?_
          obtain ⟨joint, hjoint, hshared, -⟩ := yields_reduce hne hgood (.inside mark 0)
          cases hcommon.symm.trans hjoint
          have hcurtailed := ihcommon common hcommon hshared
          refine (hcurtailed.mono fun hwritable => ?_).bind fun _ _ => .refl _
          exact @lists_reduce _ .unlimited _ _ _ (hbranch hwritable) hcommon
  | case6 branches ih =>
      cases h with
      | anyOf _ hgood =>
          rw [outline, @outline.eq_def .unlimited]
          exact (curtailed_outlines fun branch hmem => (ih branch hmem (hgood branch hmem)).mono
            fun hwritable => hwritable.branch default .anyOf hmem).bind fun _ _ => .refl _
  | case7 branches ih =>
      cases h with
      | allOf _ hgood =>
          rw [outline, @outline.eq_def .unlimited]
          exact (curtailed_outlines fun branch hmem => (ih branch hmem (hgood branch hmem)).mono
            fun hwritable => hwritable.branch default .allOf hmem).bind fun _ _ => .refl _
  | case8 value => cases h
  | case9 model =>
      rw [outline, @outline.eq_def .unlimited]
      · split <;> first | exact .refl _ | simp_all
      all_goals assumption

/-- The tree of a good model, which is told unless that is refused. -/
theorem delivers_outline {model : Model} (h : Good model) :
    ∃ tree, Delivers model.Writable model.outline tree ∧
      @outline .unlimited model = .ok tree := by
  obtain ⟨tree, htree⟩ := h.exists_outline
  refine ⟨tree, ?_, htree⟩
  rw [Delivers, ← htree]
  exact curtailed_outline h

end Bounded

/-- Where nothing is refused, every good model has a tree. -/
theorem Good.exists_toValue {model : Model} (h : Good model) :
    ∃ value, model.toValue = .ok value := by
  obtain ⟨tree, htree⟩ := h.exists_outline
  exact ⟨tree.toValue, by rw [toValue, htree]; rfl⟩

end SchemaModel.Model
