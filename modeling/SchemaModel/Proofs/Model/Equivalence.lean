import SchemaModel.Proofs.Model.Alike
import SchemaModel.Proofs.Model.Parts
import SchemaModel.Proofs.Value.Reorder

/-!
# Equality of models is an equivalence

What is not a number is equal to nothing, so a model that holds one need not equal itself.  Data
without it is equal to itself, and from that a good model without it is like itself.  Between such
models to be the same is to be alike, hence an equivalence relation.
-/

namespace SchemaModel

namespace Model

/-- The values that a model states by itself, apart from its parts. -/
def stated : Model → List Value
  | .literal _ value => [value]
  | .enum _ values => values
  | _ => []

/-- A model none of whose literals and enumerated values holds what is not a number. -/
def NanFree (model : Model) : Prop :=
  model.Throughout fun part => ∀ value ∈ part.stated, value.nanFree = true

theorem alike_self_of_branches {branches : List Model}
    (h : ∀ branch ∈ branches, Alike branch branch) (i : Nat) (a b : Model)
    (ha : branches[i]? = some a) (hb : branches[i]? = some b) : Alike a b := by
  cases ha.symm.trans hb
  exact h a (List.mem_of_getElem? ha)

/-- A good model is like itself unless it holds what is not a number. -/
theorem Good.alike_self {model : Model} (h : Good model) (hnan : model.NanFree) :
    Alike model model := by
  induction h with
  | unknown => exact .unknown
  | never => exact .never
  | null => exact .null
  | boolean => exact .boolean
  | number => exact .number
  | string => exact .string
  | literal data =>
      exact .literal data data (data.jsonEqual_self (hnan.self _ List.mem_cons_self))
  | @enum mark values nonempty data distinct =>
      have hself : ∀ a ∈ values, ∃ b ∈ values, a.jsonEqual b = true := fun a ha =>
        ⟨a, ha, (data a ha).jsonEqual_self (hnan.self a ha)⟩
      have hback : ∀ b ∈ values, ∃ a ∈ values, a.jsonEqual b = true := fun b hb =>
        ⟨b, hb, (data b hb).jsonEqual_self (hnan.self b hb)⟩
      have hgood : Good (.enum mark values) := .enum nonempty data distinct
      exact .enum hgood hgood hself hback
  | array good ih => exact .array (ih hnan.items)
  | object good declared ih =>
      -- Of several declarations of a name only the last is compared.
      refine .object (.object good declared) (.object good declared) (fun name => Iff.rfl)
        (fun key => Iff.rfl) fun key a b ha hb => ?_
      cases ha.symm.trans hb
      obtain ⟨other, hmem⟩ := Entries.mem_of_findLast? ha
      exact ih _ hmem (hnan.property hmem)
  | oneOf nonempty good ih =>
      exact .oneOf nonempty rfl (alike_self_of_branches fun branch hmem =>
        ih branch hmem (Throughout.branch _ .oneOf hnan hmem))
  | anyOf nonempty good ih =>
      exact .anyOf nonempty rfl (alike_self_of_branches fun branch hmem =>
        ih branch hmem (Throughout.branch default .anyOf hnan hmem))
  | allOf nonempty good ih =>
      exact .allOf nonempty rfl (alike_self_of_branches fun branch hmem =>
        ih branch hmem (Throughout.branch default .allOf hnan hmem))

/-- A good model none of whose values holds what is not a number. -/
abbrev Comparable :=
  {model : Model // Good model ∧ model.NanFree}

theorem Comparable.alike_self (a : Comparable) : Alike a.1 a.1 :=
  a.2.1.alike_self a.2.2

theorem Comparable.same_iff (a b : Comparable) : a.1.same b.1 = true ↔ Alike a.1 b.1 :=
  ⟨alike_of_same a.alike_self b.alike_self, Alike.same⟩

/-- Equality of such models is reflexive, symmetric and transitive. -/
theorem same_equivalence : Equivalence fun a b : Comparable => a.1.same b.1 = true where
  refl a := a.alike_self.same
  symm {a b} hab := by
    rw [Comparable.same_iff] at hab ⊢
    exact hab.symm
  trans {a b c} hab hbc := by
    rw [Comparable.same_iff] at hab hbc ⊢
    exact hab.trans hbc

/-- A repeated name, of which the last declaration counts, with its values in another order. -/
theorem same_equivalence_at_repeated_name :
    ∃ a b : Comparable,
      a.1 = .object [(.str "a", .string), (.str "a", .enum default [.int 1, .str "x"])] ["a"] true ∧
      b.1 = .object [(.str "a", .enum (.start 1)
        [.str "x", .float (.finite false 4503599627370496 1022)])] ["a"] true ∧
      a.1.same b.1 = true ∧ b.1.same a.1 = true := by
  have hdata : ∀ value ∈ [Value.int 1, .str "x",
      .float (.finite false 4503599627370496 1022)], value.IsData := by
    simp [Value.isData_iff, Value.isJson, Value.distinctKeys]
  have hgood : Good (.enum default [.int 1, .str "x"]) :=
    .enum (by decide) (fun value hmem => hdata value (by grind)) (by decide)
  have hgood' : Good (.enum (.start 1) [.str "x", .float (.finite false 4503599627370496 1022)]) :=
    .enum (by decide) (fun value hmem => hdata value (by grind)) (by decide)
  have ha : Good (.object [(.str "a", .string), (.str "a", .enum default [.int 1, .str "x"])]
      ["a"] true) :=
    .object (by simp [Good.string, hgood]) (by decide)
  have hb : Good (.object [(.str "a", .enum (.start 1)
      [.str "x", .float (.finite false 4503599627370496 1022)])] ["a"] true) :=
    .object (by simpa using hgood') (by decide)
  have hsame : (object [(.str "a", .string), (.str "a", .enum default [.int 1, .str "x"])] ["a"]
      true).same (.object [(.str "a", .enum (.start 1)
        [.str "x", .float (.finite false 4503599627370496 1022)])] ["a"] true) = true := by
    decide +kernel
  refine ⟨⟨_, ha, ?_⟩, ⟨_, hb, ?_⟩, rfl, rfl, hsame, same_equivalence.symm hsame⟩
  · unfold NanFree Throughout
    decide
  · unfold NanFree Throughout
    decide

end Model

end SchemaModel
