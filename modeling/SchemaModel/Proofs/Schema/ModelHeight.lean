import Mathlib.Algebra.Group.Nat.Defs
import SchemaModel.Proofs.Model.Height
import SchemaModel.Proofs.Schema.Composition
import SchemaModel.Proofs.Schema.Depth

/-!
# The height of a resolved model

The depth ceiling alone does not bound the height of a model.  Every schema below a node stands one
deeper, and most keywords put one model on top of those below; `allOf` overlaps its members one
after another, and each member may add its whole height.  So the height is bounded by the ceiling
together with the number of members of the widest `allOf`, and it does grow with that number: a
document of three levels whose members are unions has models of every height.
-/

namespace SchemaModel

open Model Resolution

/-- The members of a deciding `allOf`. -/
def Value.conjuncts : Value → List Value
  | .mapping _ entries =>
    match decidingKeyword? entries with
    | some ("allOf", _) => listedSchemas entries "allOf"
    | _ => []
  | _ => []

theorem conjuncts_eq {form : MappingForm} {entries : List (Key × Value)} {variants : List Value}
    (h : directive entries = .combine .allOf (.list variants)) :
    (Value.mapping form entries).conjuncts = variants := by
  have hfound := get?_of_directive_combine h
  rw [Value.conjuncts, decidingKeyword?_eq, h]
  simp only [Directive.keyword?, Combinator.keyword] at hfound ⊢
  rw [listedSchemas, hfound]

/-! ## The bound -/

theorem height_of_isAtom {model : Model} (h : model.isAtom = true) : height model = 1 := by
  cases model with
  | array | object | oneOf | anyOf | allOf | stray => cases h
  | _ => simp [height]

section Bound

variable [Platform]

/-- One more model, or one part for each of a number of members. -/
theorem height_joinVariants_le {mark : Mark} {combinator : Combinator} {models : List Model}
    {joint : Model} {n width : Nat} (h : joinVariants mark combinator models = .ok joint)
    (hle : ∀ model ∈ models, height model ≤ n)
    (hwidth : combinator = .allOf → models.length ≤ width) :
    height joint ≤ n + 1 ∨ height joint ≤ width * n := by
  cases combinator with
  | oneOf =>
      obtain ⟨union, hunion, h⟩ := bind_eq_ok h
      obtain ⟨shared, -, h⟩ := bind_eq_ok h
      obtain ⟨words, -, h⟩ := bind_eq_ok h
      cases h
      exact .inl (height_combine_le hunion hle)
  | anyOf => exact .inl (height_combine_le h hle)
  | allOf =>
      right
      calc height joint
        _ ≤ models.length * n := height_reduce_le h hle
        _ ≤ width * n := Nat.mul_le_mul_right n (hwidth rfl)

/-- A composed model is higher than its parts by a factor at most. -/
theorem height_composed_le {part : Value → Model → Prop} {node : Value} {model : Model}
    {n width : Nat} (hpos : 1 ≤ n) (hwidth : node.conjuncts.length ≤ width)
    (hpart : ∀ sub ∈ node.subschemas, ∀ model, part sub model → height model ≤ n)
    (h : Composed part node model) : height model ≤ (width + 2) * n := by
  have hsucc : n + 1 ≤ (width + 2) * n := by
    rw [Nat.add_mul]
    omega
  cases h with
  | atom plain =>
      rw [height_of_isAtom plain]
      omega
  | anyArray =>
      simp only [height]
      omega
  | array below items_model =>
      have hitems := hpart _ below _ items_model
      simp only [height]
      omega
  | object required additional declared =>
      rw [height]
      refine Nat.le_trans (Nat.succ_le_succ (heightOfProperties_le.mpr ?_)) hsucc
      intro property hproperty
      obtain ⟨-, sub, hsub, hmodel⟩ := declared property hproperty
      exact hpart sub hsub property.2 hmodel
  | @variants _ entries combinator variants models _ _ decides entries_eq variants_models joined =>
      subst entries_eq
      rw [subschemas_variants decides] at hpart
      have hle : ∀ model ∈ models, height model ≤ n := by
        intro model hmodel
        obtain ⟨sub, hsub, hmade⟩ := exists_mem_of_forall₂ variants_models.flip model hmodel
        exact hpart sub hsub model hmade
      have hlength : combinator = .allOf → models.length ≤ width := by
        rintro rfl
        rw [conjuncts_eq decides] at hwidth
        rwa [← variants_models.length_eq]
      rcases height_joinVariants_le joined hle hlength with hjoint | hjoint
      · exact Nat.le_trans hjoint hsucc
      · refine Nat.le_trans hjoint (Nat.mul_le_mul_right n ?_)
        omega

/-- Each level multiplies the height by the width of the widest intersection and two more. -/
theorem height_resolveNode_le {settings : ResolverSettings} {width : Nat} (node : Value) :
    ∀ {place : Pointer} {depth : Nat} {model : Model} {issues : List SchemaIssue},
      (∀ visit ∈ node.visits depth, visit.2.conjuncts.length ≤ width) →
      resolveNode settings node place depth = .ok (model, issues) →
      height model ≤ (width + 2) ^ (settings.maxDepth - depth + 1) := by
  induction node using schemaInduction with
  | step node ih =>
      intro place depth model issues hwidth h
      rw [visits_eq, List.forall_mem_cons, List.forall_mem_flatMap] at hwidth
      obtain ⟨-, hcomposed⟩ := composed_of_resolveNode settings h
      rw [Nat.pow_succ']
      refine height_composed_le (Nat.pow_pos (by omega)) hwidth.1 ?_ hcomposed
      rintro sub hsub model ⟨place, issues, hsub_model⟩
      have hbound := ih sub hsub (hwidth.2 sub hsub) hsub_model
      -- The schema below was within the ceiling, so the exponent loses exactly one on the way down.
      have hdepth := (composed_of_resolveNode settings hsub_model).1
      rwa [show settings.maxDepth - (depth + 1) + 1 = settings.maxDepth - depth by omega] at hbound

end Bound

/-! ## Models of every height -/

/-- A union of all numbers and one of them. -/
def rung (number : Nat) : Value :=
  .mapping .dict [(.str "anyOf", .list [.mapping .dict [(.str "type", .str "number")],
    .mapping .dict [(.str "const", .int number)]])]

/-- A document of three levels with as many members as wanted. -/
def ladder (count : Nat) : Value :=
  .mapping .dict [(.str "allOf", .list ((List.range count).map rung))]

/-- The model that the overlap of rungs leads to: every further rung hangs below all before it. -/
def chain : List (Mark × Nat) → Model
  | [] => .number
  | (mark, value) :: rest => .anyOf [chain rest, .literal mark (.int value)]

theorem height_chain (rungs : List (Mark × Nat)) : height (chain rungs) = rungs.length + 1 := by
  induction rungs with
  | nil => simp [chain, height]
  | cons first rest ih => simp [chain, height, heightOfBranches, ih]

theorem gather_chain (rungs : List (Mark × Nat)) (own mark : Mark) (value : Nat) :
    gather .anyOf [chain rungs, .literal own (.int value)] mark =
      .ok (chain ((own, value) :: rungs)) := by
  cases rungs <;> rfl

theorem same_chain_cons {own own' : Mark} {value value' : Nat} (h : value ≠ value')
    (rest : List (Mark × Nat)) :
    (chain ((own', value') :: rest)).same (chain [(own, value)]) = false := by
  have hliteral : (Value.int value').jsonEqual (.int value) = false := by
    rw [Bool.eq_false_iff, ne_eq, Value.jsonEqual_iff_of_measure (a := .int value') rfl]
    intro heq
    exact h (Int.ofNat_inj.mp (Exact.ofInt_injective (Option.some.inj heq)))
  have hself : isSelf (.literal own' (.int value')) (.literal own (.int value)) = false := by
    rw [isSelf, decide_eq_false (p := Value.int value' = .int value), Bool.and_false]
    intro heq
    exact h (Int.ofNat_inj.mp (Value.int.inj heq)).symm
  simp [chain, same, sameBranches, hliteral, hself]

section Overlaps

variable [Platform]

theorem overlap_eq_follow {a b : Model} (h : a.same b = false) (mark : Mark) :
    overlap a b mark = follow (fun a b mark => overlap a b mark) mark (rule a b) := by
  rw [overlap_eq, h]
  rfl

theorem overlap_literal_chain (own own' mark : Mark) (value value' : Nat) :
    overlap (.literal own (.int value)) (chain [(own', value')]) mark =
      .ok (.literal own (.int value)) := by
  have haccepts : (chain [(own', value')]).accepts (Value.int value) = .ok true := by
    rw [chain, accepts_anyOf, List.anyM, chain, accepts]
    rfl
  rw [overlap_eq_follow rfl]
  exact congrArg (· >>= _) haccepts

theorem overlap_number_literal (own mark : Mark) (value : Nat) :
    overlap .number (.literal own (.int value)) mark = .ok (.literal own (.int value)) := by
  have haccepts : number.accepts (Value.int value) = .ok true := by
    rw [accepts]
    rfl
  rw [overlap_eq_follow rfl]
  exact congrArg (· >>= _) haccepts

/-- One more rung goes to the lower end of the chain. -/
theorem overlap_chain (rungs : List (Mark × Nat)) (own : Mark) (value : Nat)
    (h : value ∉ rungs.map Prod.snd) (mark : Mark) :
    overlap (chain rungs) (chain [(own, value)]) mark = .ok (chain (rungs ++ [(own, value)])) := by
  induction rungs generalizing mark with
  | nil =>
      have hnumber : ∀ mark, overlap .number .number mark = .ok .number := by
        intro mark
        rw [overlap_eq]
        rfl
      have hparts : ([(number, number), (number, .literal own (.int value))].zipIdx.mapM
          fun x => overlap x.1.1 x.1.2 (partMark mark x.2)) =
          .ok [.number, .literal own (.int value)] := by
        simp only [List.zipIdx_cons, List.zipIdx_nil, List.mapM_cons, List.mapM_nil, hnumber,
          overlap_number_literal]
        rfl
      rw [overlap_eq_follow rfl]
      exact (congrArg (· >>= _) hparts).trans (gather_chain [] own mark value)
  | cons first rest ih =>
      -- The literal of the first rung meets the new one and stays; the rest takes it in.
      obtain ⟨own', value'⟩ := first
      rw [List.map_cons, List.mem_cons, not_or] at h
      have hparts : ([(chain rest, chain [(own, value)]),
          (.literal own' (.int value'), chain [(own, value)])].zipIdx.mapM fun x =>
            overlap x.1.1 x.1.2 (partMark mark x.2)) =
          .ok [chain (rest ++ [(own, value)]), .literal own' (.int value')] := by
        simp only [List.zipIdx_cons, List.zipIdx_nil, List.mapM_cons, List.mapM_nil, ih h.2,
          overlap_literal_chain]
        rfl
      rw [overlap_eq_follow (same_chain_cons h.1 rest)]
      exact (congrArg (· >>= _) hparts).trans (gather_chain _ own' mark value')

/-- Each further rung lengthens the chain by one. -/
theorem reduceFrom_chain {rungs more : List (Mark × Nat)}
    (h : ((rungs ++ more).map Prod.snd).Nodup) (mark : Mark) (step : Nat) :
    reduceFrom mark step (chain rungs) (more.map fun rung => chain [rung]) =
      .ok (chain (rungs ++ more)) := by
  induction more generalizing rungs step with
  | nil => rw [List.append_nil, List.map_nil, reduceFrom]
  | cons next more ih =>
      rw [List.append_cons] at h ⊢
      have hfresh : next.2 ∉ rungs.map Prod.snd := by
        intro hmem
        rw [List.map_append, List.map_append] at h
        have hfirst := (List.nodup_append.mp h).1
        exact (List.nodup_append.mp hfirst).2.2 _ hmem _ (List.mem_singleton_self _) rfl
      rw [List.map_cons, reduceFrom, overlap_chain rungs next.1 next.2 hfresh]
      exact ih h (step + 1)

theorem reduce_chain {rungs : List (Mark × Nat)} (hne : rungs ≠ [])
    (h : (rungs.map Prod.snd).Nodup) (mark : Mark) :
    reduce (rungs.map fun rung => chain [rung]) mark = .ok (chain rungs) := by
  cases rungs with
  | nil => exact absurd rfl hne
  | cons first rest => exact reduceFrom_chain h mark 0

end Overlaps

section Ladder

variable {settings : ResolverSettings} {depth : Nat}

theorem bounded_of_le {α : Type} (h : depth ≤ settings.maxDepth) (place : Pointer)
    (go : Resolution α) : settings.bounded place depth go = go :=
  if_neg (Nat.not_lt.mpr h)

theorem Resolution.each_eq_pure {α β : Type} {f : α → Resolution β} {g : α → β} {xs : List α}
    (h : ∀ x ∈ xs, f x = pure (g x)) : each f xs = pure (xs.map g) := by
  induction xs with
  | nil => rfl
  | cons x xs ih =>
      obtain ⟨hx, hxs⟩ := List.forall_mem_cons.mp h
      rw [each, hx, ih hxs]
      rfl

theorem resolveNode_number [Platform] (h : depth ≤ settings.maxDepth) (place : Pointer) :
    resolveNode settings (.mapping .dict [(.str "type", .str "number")]) place depth =
      pure .number := by
  rw [resolveNode_mapping, bounded_of_le h]
  rfl

theorem resolveNode_int [Platform] (h : depth + 1 ≤ settings.maxDepth) (value : Nat)
    (place : Pointer) :
    resolveNode settings (.mapping .dict [(.str "const", .int value)]) place depth =
      pure (.literal (.node (place.child "const")) (.int value)) := by
  have hconst : resolveConst settings (.int value) (place.child "const") depth =
      pure (.literal (.node (place.child "const")) (.int value)) := by
    rw [resolveConst_eq]
    exact bounded_of_le h _ _
  rw [resolveNode_mapping, bounded_of_le (by omega)]
  exact congrArg (_ >>= fun _ => ·) hconst

/-- The mark of the single number of a rung. -/
def rungMark (place : Pointer) : Mark :=
  .node (((place.child "anyOf").item 1).child "const")

theorem resolveNode_rung [Platform] (h : depth + 2 ≤ settings.maxDepth) (value : Nat)
    (place : Pointer) :
    resolveNode settings (rung value) place depth = pure (chain [(rungMark place, value)]) := by
  have hvariants : each (fun x => resolveNode settings x.1 ((place.child "anyOf").item x.2)
      (depth + 1)) [(.mapping .dict [(.str "type", .str "number")], 0),
        (.mapping .dict [(.str "const", .int value)], 1)] =
      pure [.number, .literal (rungMark place) (.int value)] := by
    rw [each, each, each, resolveNode_number (by omega), resolveNode_int (by omega)]
    rfl
  have hread : readVariants settings (resolveNode settings) .anyOf
      (.list [.mapping .dict [(.str "type", .str "number")],
        .mapping .dict [(.str "const", .int value)]])
      place depth = pure (chain [(rungMark place, value)]) :=
    congrArg (· >>= fun models =>
      ofFault (joinVariants (.node (place.child "anyOf")) .anyOf models)) hvariants
  rw [rung, resolveNode_mapping, bounded_of_le (by omega)]
  exact congrArg (_ >>= fun _ => ·) hread

/-- The rung at a position of a list of rungs. -/
def rungAt (place : Pointer) (index : Nat) : Mark × Nat :=
  (rungMark (place.item index), index)

theorem zipIdx_rungs (count : Nat) :
    ((List.range count).map rung).zipIdx =
      (List.range count).map fun index => (rung index, index) := by
  apply List.ext_getElem <;> simp

theorem resolveNode_rungs [Platform] (h : depth + 2 ≤ settings.maxDepth) (count : Nat)
    (place : Pointer) :
    each (fun x => resolveNode settings x.1 (place.item x.2) depth)
        ((List.range count).map rung).zipIdx =
      pure (((List.range count).map (rungAt place)).map fun rung => chain [rung]) := by
  rw [zipIdx_rungs, each_map, List.map_map]
  exact each_eq_pure fun index _ => resolveNode_rung h index (place.item index)

theorem readVariants_list [Platform] {variants : List Value} (hne : variants ≠ []) (read : Reader)
    (combinator : Combinator) (place : Pointer) :
    readVariants settings read combinator (.list variants) place depth =
      (each (fun x => read x.1 ((place.child combinator.keyword).item x.2) (depth + 1))
        variants.zipIdx >>= fun models =>
          ofFault (joinVariants (.node (place.child combinator.keyword)) combinator models)) := by
  cases variants with
  | nil => exact absurd rfl hne
  | cons first rest => rfl

/-- A schema of depth three, however long, resolves to a chain as high as it is long. -/
theorem resolve_ladder [Platform] (h : 3 ≤ settings.maxDepth) {count : Nat} (hcount : count ≠ 0) :
    resolve (ladder count) settings =
      .ok ⟨chain ((List.range count).map (rungAt ["allOf"])), []⟩ := by
  have hjoint : joinVariants (.node ["allOf"]) .allOf
      (((List.range count).map (rungAt ["allOf"])).map fun rung => chain [rung]) =
      .ok (chain ((List.range count).map (rungAt ["allOf"]))) := by
    apply reduce_chain
    · simpa using hcount
    · rw [List.map_map]
      exact (List.map_id _).symm ▸ List.nodup_range
  have hread : readVariants settings (resolveNode settings) .allOf
      (.list ((List.range count).map rung)) [] 0 =
      pure (chain ((List.range count).map (rungAt ["allOf"]))) := by
    rw [readVariants_list (by simpa using hcount)]
    have hmembers := resolveNode_rungs (by omega : 1 + 2 ≤ settings.maxDepth) count ["allOf"]
    refine (congrArg (· >>= _) hmembers).trans ((Resolution.pure_bind _ _).trans ?_)
    exact congrArg ofFault hjoint
  have hnode : resolveNode settings (ladder count) [] 0 =
      pure (chain ((List.range count).map (rungAt ["allOf"]))) := by
    rw [ladder, resolveNode_mapping, bounded_of_le (Nat.zero_le _)]
    exact congrArg (_ >>= fun _ => ·) hread
  rw [resolve, hnode]
  rfl

end Ladder

theorem distinctKeys_ladder (count : Nat) : (ladder count).distinctKeys = true := by
  have hrungs : (Value.list ((List.range count).map rung)).distinctKeys = true := by
    rw [Value.distinctKeys, Value.itemsDistinct_iff, List.forall_mem_map]
    exact fun number _ => rfl
  rw [ladder, Value.distinctKeys_mapping_iff]
  exact ⟨rfl, List.forall_mem_singleton.mpr hrungs⟩

/-! ## What bounds the height -/

/-- The height of a model is bounded by the depth ceiling together with the number of members of the
widest `allOf`. -/
theorem height_resolve_le [Platform] {schema : Value} {settings : ResolverSettings} {width : Nat}
    {result : ResolutionResult}
    (hwidth : ∀ visit ∈ schema.visits 0, visit.2.conjuncts.length ≤ width)
    (h : resolve schema settings = .ok result) :
    height result.model ≤ (width + 2) ^ (settings.maxDepth + 1) := by
  rw [resolve] at h
  cases hnode : resolveNode settings schema [] 0 with
  | error stop =>
      rw [hnode] at h
      cases h
  | ok found =>
      rw [hnode] at h
      cases h
      exact height_resolveNode_le schema hwidth hnode

attribute [local instance] Platform.standard in
/-- Two unions under an `allOf`. -/
theorem height_resolve_le_of_two_unions :
    (∀ visit ∈ (ladder 2).visits 0, visit.2.conjuncts.length ≤ 2) ∧
      ∃ result, resolve (ladder 2) ⟨3, false, true⟩ = .ok result ∧
        height result.model ≤ (2 + 2) ^ (3 + 1) := by
  have hleaf : ∀ {schema : Value} {depth}, schema.subschemas = [] →
      schema.visits depth = [(depth, schema)] := by
    intro schema depth hnone
    rw [visits_eq, hnone]
    rfl
  have hrung : ∀ number, (rung number).visits 1 =
      [(1, rung number), (2, .mapping .dict [(.str "type", .str "number")]),
        (2, .mapping .dict [(.str "const", .int number)])] := by
    intro number
    rw [visits_eq, show (rung number).subschemas = [.mapping .dict [(.str "type", .str "number")],
      .mapping .dict [(.str "const", .int number)]] from rfl, List.flatMap_cons,
      List.flatMap_singleton, hleaf rfl, hleaf rfl]
    rfl
  have hvisits : (ladder 2).visits 0 =
      (0, ladder 2) :: ((rung 0).visits 1 ++ (rung 1).visits 1) := by
    rw [visits_eq, show (ladder 2).subschemas = [rung 0, rung 1] from rfl, List.flatMap_cons,
      List.flatMap_singleton]
  have hwidth : ∀ visit ∈ (ladder 2).visits 0, visit.2.conjuncts.length ≤ 2 := by
    rw [hvisits, hrung, hrung]
    decide
  have hresolve : resolve (ladder 2) ⟨3, false, true⟩ = _ :=
    resolve_ladder (Nat.le_refl 3) (Nat.succ_ne_zero 1)
  exact ⟨hwidth, _, hresolve, height_resolve_le hwidth hresolve⟩

attribute [local instance] Platform.standard in
/-- The depth ceiling alone bounds no height: already at depth three there are documents whose
models are higher than any number. -/
theorem no_height_bound_by_depth :
    ¬ ∃ bound : Nat → Nat, ∀ (schema : Value) (settings : ResolverSettings)
      (result : ResolutionResult), schema.distinctKeys = true →
        resolve schema settings = .ok result → height result.model ≤ bound settings.maxDepth := by
  rintro ⟨bound, hbound⟩
  have hresolve : resolve (ladder (bound 3 + 1)) ⟨3, false, true⟩ = _ :=
    resolve_ladder (Nat.le_refl 3) (Nat.succ_ne_zero _)
  have hheight := hbound _ _ _ (distinctKeys_ladder _) hresolve
  rw [height_chain, List.length_map, List.length_range] at hheight
  simp only at hheight
  omega

end SchemaModel
