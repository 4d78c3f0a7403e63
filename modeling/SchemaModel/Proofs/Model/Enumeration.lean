import SchemaModel.Proofs.Model.Congruence
import SchemaModel.Proofs.Value.Reorder

/-!
# Enumerations as sets

An enumeration keeps of the values it is made of the first of each class of equal ones, in their
order.  Two enumerations are the same exactly when the lists they are made of cover each other,
whatever the order and the repetitions, and exactly when they accept the same values.
-/

namespace SchemaModel

namespace Model

theorem answer_eq_true_iff [Platform] {model : Model} {fine : Bool} :
    model.answer fine = .ok true ↔ fine = true := by
  cases fine with
  | true => simp [answer]
  | false => cases h : model.describe <;> simp [answer, h, bind, Except.bind]

/-- What an enumeration accepts need not be put into words. -/
theorem accepts_enum_iff [Platform] (mark : Mark) (values : List Value) (v : Value) :
    (enum mark values).accepts v = .ok true ↔ (enum mark values).permits v = true := by
  rw [accepts, answer_eq_true_iff, funext (Datum.equals_eq v), permits_enum]

theorem accepts_ofEnum_iff [Platform] {values : List Value} (h : ∀ value ∈ values, value.IsData)
    (mark : Mark) {v : Value} (hv : v.distinctKeys = true) :
    (enum mark (distinctValues [] values)).accepts v = .ok true ↔
      values.any (v.jsonEqual ·) = true := by
  rw [accepts_enum_iff, permits_enum, any_distinctValues h hv]

theorem exists_first_of_class {values : List Value} (h : ∀ value ∈ values, value.IsData)
    {v : Value} (hv : v.distinctKeys = true) (hmem : ∃ value ∈ values, v.jsonEqual value = true) :
    ∃ first ∈ distinctValues [] values, values.find? (v.jsonEqual ·) = some first := by
  obtain ⟨first, hfirst⟩ := Option.isSome_iff_exists.mp (List.find?_isSome.mpr hmem)
  have hkept := find?_distinctValues h [] (List.forall_mem_nil _) hv
  exact ⟨first, List.mem_of_find?_eq_some (hkept.trans hfirst), hfirst⟩

theorem covered_of_accepts [Platform] {xs ys : List Value} (hxs : ∀ x ∈ xs, x.IsData)
    (hys : ∀ y ∈ ys, y.IsData) (hnan : ∀ x ∈ xs, x.nanFree = true) (m n : Mark)
    (h : ∀ value : Value, value.distinctKeys = true →
      (enum m (distinctValues [] xs)).accepts value = .ok true →
        (enum n (distinctValues [] ys)).accepts value = .ok true) :
    ∀ x ∈ xs, ∃ y ∈ ys, x.jsonEqual y = true := by
  intro x hx
  have hkeys := (hxs x hx).distinctKeys
  have hself : xs.any (x.jsonEqual ·) = true :=
    List.any_eq_true.mpr ⟨x, hx, (hxs x hx).jsonEqual_self (hnan x hx)⟩
  have hanswer := h x hkeys ((accepts_ofEnum_iff hxs m hkeys).mpr hself)
  exact List.any_eq_true.mp ((accepts_ofEnum_iff hys n hkeys).mp hanswer)

theorem same_of_covered {xs ys : List Value} (hne : xs ≠ []) (hxs : ∀ x ∈ xs, x.IsData)
    (hys : ∀ y ∈ ys, y.IsData) (forth : ∀ x ∈ xs, ∃ y ∈ ys, x.jsonEqual y = true)
    (back : ∀ y ∈ ys, ∃ x ∈ xs, y.jsonEqual x = true) (m n : Mark) :
    (enum m (distinctValues [] xs)).same (.enum n (distinctValues [] ys)) = true := by
  have hback : ∀ y ∈ ys, ∃ x ∈ xs, x.jsonEqual y = true := by
    intro y hy
    obtain ⟨x, hx, hyx⟩ := back y hy
    exact ⟨x, hx, (hys y hy).jsonEqual_symm (hxs x hx) hyx⟩
  obtain ⟨model, model', hmodel, hmodel', halike⟩ := agree_ofEnum hxs hys forth hback hne m n
  obtain rfl := ofEnum_eq_ok hmodel
  obtain rfl := ofEnum_eq_ok hmodel'
  exact halike.same

/-- Enumerations are the same when their lists cover each other, and when they accept the same
values; what is stored is the first value of each class. -/
theorem enumerations_are_sets [Platform] {xs ys : List Value} (hne : xs ≠ []) (hne' : ys ≠ [])
    (hxs : ∀ x ∈ xs, x.IsData ∧ x.nanFree = true) (hys : ∀ y ∈ ys, y.IsData ∧ y.nanFree = true)
    (m n : Mark) :
    ∃ kept kept', ofEnum xs m = .ok (.enum m kept) ∧ ofEnum ys n = .ok (.enum n kept') ∧
      ((enum m kept).same (.enum n kept') = true ↔
        (∀ x ∈ xs, ∃ y ∈ ys, x.jsonEqual y = true) ∧ ∀ y ∈ ys, ∃ x ∈ xs, y.jsonEqual x = true) ∧
      ((enum m kept).same (.enum n kept') = true ↔
        ∀ value : Value, value.distinctKeys = true →
          ((enum m kept).accepts value = .ok true ↔ (enum n kept').accepts value = .ok true)) ∧
      kept.Sublist xs ∧
      (kept.Pairwise fun a b => a.jsonEqual b = false ∧ b.jsonEqual a = false) ∧
      ∀ x ∈ xs, ∃ first ∈ kept, xs.find? (x.jsonEqual ·) = some first := by
  have hdata : ∀ x ∈ xs, x.IsData := fun x hx => (hxs x hx).1
  have hdata' : ∀ y ∈ ys, y.IsData := fun y hy => (hys y hy).1
  obtain ⟨model, hmodel, hgood, -⟩ := yields_ofEnum hne hdata m
  obtain ⟨model', hmodel', hgood', -⟩ := yields_ofEnum hne' hdata' n
  obtain rfl := ofEnum_eq_ok hmodel
  obtain rfl := ofEnum_eq_ok hmodel'
  -- Each of the three conditions leads to the next.
  have haccepts (h : (enum m (distinctValues [] xs)).same (.enum n (distinctValues [] ys)) = true)
      (value : Value) (hvalue : value.distinctKeys = true) :
      (enum m (distinctValues [] xs)).accepts value = .ok true ↔
        (enum n (distinctValues [] ys)).accepts value = .ok true := by
    rw [accepts_enum_iff, accepts_enum_iff, permits_eq_of_same hgood hgood' h hvalue]
  have hcovered (h : ∀ value : Value, value.distinctKeys = true →
      ((enum m (distinctValues [] xs)).accepts value = .ok true ↔
        (enum n (distinctValues [] ys)).accepts value = .ok true)) :
      (∀ x ∈ xs, ∃ y ∈ ys, x.jsonEqual y = true) ∧ ∀ y ∈ ys, ∃ x ∈ xs, y.jsonEqual x = true :=
    ⟨covered_of_accepts hdata hdata' (fun x hx => (hxs x hx).2) m n
        fun value hvalue => (h value hvalue).mp,
      covered_of_accepts hdata' hdata (fun y hy => (hys y hy).2) n m
        fun value hvalue => (h value hvalue).mpr⟩
  have hsame (h : (∀ x ∈ xs, ∃ y ∈ ys, x.jsonEqual y = true) ∧
      ∀ y ∈ ys, ∃ x ∈ xs, y.jsonEqual x = true) :
      (enum m (distinctValues [] xs)).same (.enum n (distinctValues [] ys)) = true :=
    same_of_covered hne hdata hdata' h.1 h.2 m n
  refine ⟨_, _, hmodel, hmodel', ⟨fun h => hcovered (haccepts h), hsame⟩,
    ⟨haccepts, fun h => hsame (hcovered h)⟩, distinctValues_sublist [] xs,
    pairwise_distinctValues hdata [], fun x hx => ?_⟩
  have hself := (hdata x hx).jsonEqual_self (hxs x hx).2
  exact exists_first_of_class hdata (hdata x hx).distinctKeys ⟨x, hx, hself⟩

attribute [local instance] Platform.standard in
/-- A number spelled twice and an object with its entries in two orders. -/
theorem enumerations_are_sets_at_repetition :
    ∃ kept kept',
      ofEnum [.int 1, .mapping .dict [(.str "a", .null), (.str "b", .list [])],
        .float (.finite false 4503599627370496 1022)] = .ok (.enum default kept) ∧
      ofEnum [.mapping .dict [(.str "b", .tuple []), (.str "a", .null)], .int 1] =
        .ok (.enum default kept') ∧
      (enum default kept).same (.enum default kept') = true ∧
      kept.Sublist [.int 1, .mapping .dict [(.str "a", .null), (.str "b", .list [])],
        .float (.finite false 4503599627370496 1022)] ∧
      Value.int 1 ∈ kept := by
  obtain ⟨kept, kept', hkept, hkept', hsame, -, hsub, -, hfirst⟩ := @enumerations_are_sets _
    [.int 1, .mapping .dict [(.str "a", .null), (.str "b", .list [])],
      .float (.finite false 4503599627370496 1022)]
    [.mapping .dict [(.str "b", .tuple []), (.str "a", .null)], .int 1]
    (by decide) (by decide)
    (by simp only [Value.isData_iff]; decide) (by simp only [Value.isData_iff]; decide)
    default default
  refine ⟨kept, kept', hkept, hkept', hsame.mpr (by decide +kernel), hsub, ?_⟩
  obtain ⟨first, hmem, hfound⟩ := hfirst (.float (.finite false 4503599627370496 1022)) (by simp)
  have hone : first = .int 1 := Option.some.inj (hfound.symm.trans (by decide +kernel))
  exact hone ▸ hmem

end Model

end SchemaModel
