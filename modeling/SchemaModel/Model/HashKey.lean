import SchemaModel.Model.Equality
import SchemaModel.Value.HashKey

/-!
# Keys of models in tables

`Model.hashKey` is what a table looks at before it compares two models: the keys of the values, the
keys of the parts, the properties as a set of declarations.  Such a set is a table itself: two
declarations of a name are one in it when their models have the same key and are equal.  Those that
stay apart count one by one, even when their keys are the same.

`Model.firsts` enters models into a table one after another and lists those that were not there yet.
-/

namespace SchemaModel

/-- A key that stands for a model in a table. -/
inductive ModelKey where
  | plain
  | literal (key : HashKey)
  | enum (keys : List HashKey)
  | array (items : ModelKey)
  | object (declarations : List (Key × ModelKey)) (required : List Text) (additional : Bool)
  | branches (keys : List ModelKey)
  | stray (value : Value)
  deriving Inhabited

def HashKey.sameSet (as bs : List HashKey) : Bool :=
  (as.all fun a => bs.any a.same) && bs.all fun b => as.any (·.same b)

namespace ModelKey

mutual

/-- Equality of keys, under which the order of values and of declarations does not count. -/
def same : ModelKey → ModelKey → Bool
  | .plain, .plain => true
  | .literal a, .literal b => a.same b
  | .enum as, .enum bs => HashKey.sameSet as bs
  | .array a, .array b => same a b
  | .object as r x, .object bs s y => pairOff as bs && Model.sameNames r s && x = y
  | .branches as, .branches bs => sameEach as bs
  | .stray a, .stray b => a.alike b
  | _, _ => false

def sameEach : List ModelKey → List ModelKey → Bool
  | [], [] => true
  | a :: as, b :: bs => same a b && sameEach as bs
  | _, _ => false

/-- Whether declarations can be paired off, each with one of the same name and key. -/
def pairOff : List (Key × ModelKey) → List (Key × ModelKey) → Bool
  | [], bs => bs.isEmpty
  | (name, a) :: as, bs =>
    (bs.any fun entry => name.same entry.1 && same a entry.2) &&
      pairOff as (bs.eraseP fun entry => name.same entry.1 && same a entry.2)

end

end ModelKey

structure Declaration where
  name : Key
  model : Model
  key : ModelKey

def Declaration.same (a b : Declaration) : Bool :=
  a.name.same b.name && a.key.same b.key &&
    (Model.isSelf a.model b.model || Model.same a.model b.model)

def distinctDeclarations (held : List Declaration) : List Declaration → List Declaration
  | [] => []
  | declaration :: declarations =>
    if held.any (·.same declaration) then distinctDeclarations held declarations
    else declaration :: distinctDeclarations (held ++ [declaration]) declarations

def hashableKeys : List Value → Except Unhashable (List HashKey)
  | [] => .ok []
  | value :: values => do
    let key ← value.hashKey
    let key ← key.hashable
    let keys ← hashableKeys values
    .ok (key :: keys)

namespace Model

mutual

/-- The key of a model.  A stray part must be fit for a table itself. -/
def hashKey : Model → Except Unhashable ModelKey
  | .literal _ value => do
    let key ← value.hashKey
    .ok (.literal (← key.hashable))
  | .enum _ values => do .ok (.enum (← hashableKeys values))
  | .array items => do .ok (.array (← hashKey items))
  | .object properties required additional => do
    let declared := distinctDeclarations [] (← declarations properties)
    .ok (.object (declared.map fun declaration => (declaration.name, declaration.key)) required
      additional)
  | .oneOf _ branches => do .ok (.branches (← branchKeys branches))
  | .anyOf branches => do .ok (.branches (← branchKeys branches))
  | .allOf branches => do .ok (.branches (← branchKeys branches))
  | .stray value =>
    match value.unhashable? with
    | some thing => .error thing
    | none => .ok (.stray value)
  | _ => .ok .plain

def branchKeys : List Model → Except Unhashable (List ModelKey)
  | [] => .ok []
  | branch :: branches => do
    let key ← hashKey branch
    let keys ← branchKeys branches
    .ok (key :: keys)

def declarations : List (Key × Model) → Except Unhashable (List Declaration)
  | [] => .ok []
  | (name, model) :: properties => do
    let key ← hashKey model
    let rest ← declarations properties
    .ok (⟨name, model, key⟩ :: rest)

end

/-- The positions, counted from the given one, of the models that are not in the table yet. -/
def firstsAfter (met : List (ModelKey × Model)) (position : Nat) :
    List Model → Except Unhashable (List Nat)
  | [] => .ok []
  | model :: models => do
    let key ← model.hashKey
    if met.any fun entry => entry.1.same key && entry.2.same model then
      firstsAfter met (position + 1) models
    else
      let rest ← firstsAfter (met ++ [(key, model)]) (position + 1) models
      .ok (position :: rest)

/-- The positions of the first models of each class of equal ones. -/
def firsts (models : List Model) : Except Unhashable (List Nat) :=
  firstsAfter [] 0 models

end Model

end SchemaModel
