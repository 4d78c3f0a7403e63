import SchemaModel.Model.Accepts

/-!
# Overlap of models

`Model.overlap` combines two models into one for the values that both permit.  The rules are tried
in a fixed order: equal models, the two extremes, single and enumerated values, inclusive unions,
intersections, exclusive unions, arrays and objects; any other pair permits nothing.  Two
exclusive unions stay side by side, for "exactly one" does not distribute over "exactly one".

An overlap is formed at a mark.  An operand that is kept, whole or as a part, keeps its own mark;
what is made anew takes the mark of the overlap, and parts are formed at marks inside it.
-/

namespace SchemaModel

namespace Model

def members : Model → List Model
  | .allOf branches => branches
  | model => [model]

def narrow [Platform] (values : List Value) (other : Model) (mark : Mark) : Except Fault Model := do
  match ← values.filterM fun value => other.accepts value with
  | [] => .ok .never
  | [value] => ofLiteral value mark
  | kept => ofEnum kept mark

/-- A union of parts; a part that permits nothing is dropped, and a single part stands for itself.
-/
def gather (combinator : Combinator) (parts : List Model) (mark : Mark) : Except Fault Model :=
  match parts.filter fun part => !part.isNever with
  | [] => .ok .never
  | [part] => .ok part
  | kept => combine combinator kept mark

/-- Nothing, after both sides have shown that they are models. -/
def clash (a b : Model) : Except Fault Model :=
  match a.stray?, b.stray? with
  | some value, _ => .error (.noMember value.typeName "describe")
  | none, some value => .error (.noMember value.typeName "describe")
  | none, none => .ok .never

/-- The properties of a merged object.  `none` marks a property that one side forbids; the result is
`none` when such a property, or one that permits nothing, is required. -/
def collectProperties {α : Type} (required : List Text)
    (part : α → Except Fault (Key × Option Model)) :
    List α → Except Fault (Option (List (Key × Model)))
  | [] => .ok (some [])
  | x :: xs => do
    let (name, found) ← part x
    let needed := required.any fun other => name.same (.str other)
    match found with
    | none => if needed then .ok none else collectProperties required part xs
    | some model =>
      if needed && model.isNever then .ok none
      else
        let rest ← collectProperties required part xs
        .ok (rest.map ((name, model) :: ·))

def joinNames (as bs : List Text) : List Text :=
  as ++ bs.filter fun name => !as.contains name

theorem sizeOf_lt_of_mem_ofPairs {properties : List (Key × Model)} {entry : Key × Model}
    (h : entry ∈ Entries.ofPairs properties) : sizeOf entry.2 < sizeOf properties := by
  obtain ⟨key, member⟩ := Entries.mem_of_mem_ofPairs h
  have bound := List.sizeOf_lt_of_mem member
  simp only [Prod.mk.sizeOf_spec] at bound
  omega

theorem sizeOf_lt_of_find?_ofPairs {properties : List (Key × Model)} {name : Key} {model : Model}
    (h : Entries.find? (Entries.ofPairs properties) name = some model) :
    sizeOf model < sizeOf properties := by
  obtain ⟨key, member⟩ := Entries.mem_of_find? h
  exact sizeOf_lt_of_mem_ofPairs member

/-- The mark of a numbered part of an overlap.  Zero is left for what an exclusive union shares. -/
def partMark (mark : Mark) (index : Nat) : Mark :=
  .inside mark (index + 1)

variable [Platform]

/-- The model of the values that two models permit. -/
def overlap (a b : Model) (mark : Mark := default) : Except Fault Model :=
  if a.same b then .ok a
  else
    match a, b with
    | .unknown, b => .ok b
    | a, .unknown => .ok a
    | .never, _ => .ok .never
    | _, .never => .ok .never
    | .literal own value, b => do
      if ← b.accepts value then .ok (.literal own value) else .ok .never
    | a, .literal own value => do
      if ← a.accepts value then .ok (.literal own value) else .ok .never
    | .enum _ values, b => narrow values b mark
    | a, .enum _ values => narrow values a mark
    | .anyOf branches, b => do
      let parts ← branches.attach.zipIdx.mapM fun (⟨branch, _⟩, index) =>
        overlap branch b (partMark mark index)
      gather .anyOf parts mark
    | a, .anyOf branches => do
      let parts ← branches.attach.zipIdx.mapM fun (⟨branch, _⟩, index) =>
        overlap a branch (partMark mark index)
      gather .anyOf parts mark
    | .allOf branches, b => combine .allOf (branches ++ b.members)
    | a, .allOf branches => combine .allOf (a.members ++ branches)
    | .oneOf m as, .oneOf n bs => combine .allOf [.oneOf m as, .oneOf n bs]
    | .oneOf _ branches, b => do
      let parts ← branches.attach.zipIdx.mapM fun (⟨branch, _⟩, index) =>
        overlap branch b (partMark mark index)
      gather .oneOf parts mark
    | a, .oneOf _ branches => do
      let parts ← branches.attach.zipIdx.mapM fun (⟨branch, _⟩, index) =>
        overlap a branch (partMark mark index)
      gather .oneOf parts mark
    | .array a, .array b => do .ok (.array (← overlap a b mark))
    | .object as r x, .object bs s y => do
      let required := joinNames r s
      let left := Entries.ofPairs as
      let right := Entries.ofPairs bs
      let shared ← collectProperties required
        (fun (⟨entry, _⟩, index) =>
          match _h : Entries.find? right entry.1 with
          | some other => do .ok (entry.1, some (← overlap entry.2 other (partMark mark index)))
          | none => .ok (entry.1, if y then some entry.2 else none))
        left.attach.zipIdx
      match shared with
      | none => .ok .never
      | some shared =>
        let rest ← collectProperties required
          (fun entry => .ok (entry.1, if x then some entry.2 else none))
          (right.filter fun entry => !Entries.has left entry.1)
        match rest with
        | none => .ok .never
        | some rest => ofObject (shared ++ rest) required (x && y)
    | a, b => clash a b
termination_by sizeOf a + sizeOf b
decreasing_by
  all_goals simp_wf
  · have smaller := List.sizeOf_lt_of_mem ‹_ ∈ _›
    omega
  · have smaller := List.sizeOf_lt_of_mem ‹_ ∈ _›
    omega
  · have smaller := List.sizeOf_lt_of_mem ‹_ ∈ _›
    omega
  · have smaller := List.sizeOf_lt_of_mem ‹_ ∈ _›
    omega
  · omega
  · have leftSmaller := sizeOf_lt_of_mem_ofPairs ‹_ ∈ _›
    have rightSmaller := sizeOf_lt_of_find?_ofPairs _h
    omega

/-- The overlap of a model with several others, combined from left to right, each step at a numbered
part of a mark. -/
def reduceFrom (mark : Mark) (step : Nat) (model : Model) : List Model → Except Fault Model
  | [] => .ok model
  | other :: models => do
    let joint ← overlap model other (partMark mark step)
    reduceFrom mark (step + 1) joint models

def reduce (models : List Model) (mark : Mark := default) : Except Fault Model :=
  match models with
  | [] => .error .nothingToReduce
  | model :: models => reduceFrom mark 0 model models

/-- The overlap of all branches of an exclusive union: the values that it excludes for matching
every branch at once. -/
def shared : Model → Except Fault Model
  | .oneOf mark branches => reduce branches (.inside mark 0)
  | model => .error (.noMember model.variantName "shared")

/-- An exclusive union of branches whose overlap can be formed and put into words. -/
def exclusiveUnion (branches : List Model) (mark : Mark := default) : Except Fault Model := do
  let union ← combine .oneOf branches mark
  let joint ← union.shared
  let _ ← joint.describe
  .ok union

end Model

end SchemaModel
