import SchemaModel.Value.Equality

/-!
# Keys of values in tables

`HashKey` is the form under which equal values can be found in a table.  The entries of an object
are gathered into a set, so each of them must itself be fit for a table: a mapping with a key that
is not a text, or a set that can change, is not, and an object that holds one has no key.
-/

namespace SchemaModel

/-- A key that stands for a value in a table: a scalar tagged with its kind, the keys of the
elements of an array, or the set of the keyed entries of an object. -/
inductive HashKey where
  | scalar (kind : Option Kind) (value : Value)
  | array (items : List HashKey)
  | object (entries : List (Key × HashKey))
  deriving Inhabited

/-- A thing that cannot be looked up in a table, by the name of its type. -/
structure Unhashable where
  typeName : String
  deriving DecidableEq, Inhabited

def Unhashable.message (thing : Unhashable) : String :=
  "unhashable type: '" ++ thing.typeName ++ "'"

namespace Value

mutual

/-- The first part of a value, in the order of reading, that cannot be looked up in a table. -/
def unhashable? : Value → Option Unhashable
  | .list _ => some ⟨"list"⟩
  | .mapping form _ => some ⟨form.typeName⟩
  | .foreign .set => some ⟨"set"⟩
  | .tuple items => unhashableItem? items
  | _ => none

def unhashableItem? : List Value → Option Unhashable
  | [] => none
  | item :: items =>
    match unhashable? item with
    | some thing => some thing
    | none => unhashableItem? items

end

mutual

def toKey : Value → Except Unhashable Key
  | .null => .ok .null
  | .bool b => .ok (.bool b)
  | .int n => .ok (.int n)
  | .float x => .ok (.float x)
  | .str text => .ok (.str text)
  | .tuple items => do .ok (.tuple (← toKeys items))
  | .foreign .set => .error ⟨"set"⟩
  | .foreign thing => .ok (.foreign thing)
  | .list _ => .error ⟨"list"⟩
  | .mapping form _ => .error ⟨form.typeName⟩

def toKeys : List Value → Except Unhashable (List Key)
  | [] => .ok []
  | item :: items => do
    let key ← toKey item
    let keys ← toKeys items
    .ok (key :: keys)

end

end Value

namespace HashKey

mutual

def unhashable? : HashKey → Option Unhashable
  | .scalar _ value => value.unhashable?
  | .array items => unhashableItem? items
  | .object _ => none

def unhashableItem? : List HashKey → Option Unhashable
  | [] => none
  | item :: items =>
    match unhashable? item with
    | some thing => some thing
    | none => unhashableItem? items

end

def hashable (key : HashKey) : Except Unhashable HashKey :=
  match key.unhashable? with
  | some thing => .error thing
  | none => .ok key

end HashKey

mutual

def Value.hashKey : Value → Except Unhashable HashKey
  | .list items => do .ok (.array (← itemKeys items))
  | .tuple items => do .ok (.array (← itemKeys items))
  | .mapping form entries =>
    if Entries.textual entries then do .ok (.object (← entryKeys entries))
    else .ok (.scalar none (.mapping form entries))
  | value => .ok (.scalar value.kind? value)

def itemKeys : List Value → Except Unhashable (List HashKey)
  | [] => .ok []
  | item :: items => do
    let key ← item.hashKey
    let keys ← itemKeys items
    .ok (key :: keys)

def entryKeys : List (Key × Value) → Except Unhashable (List (Key × HashKey))
  | [] => .ok []
  | (name, value) :: entries => do
    let key ← value.hashKey
    let key ← key.hashable
    let keys ← entryKeys entries
    .ok ((name, key) :: keys)

end

namespace HashKey

mutual

def same : HashKey → HashKey → Bool
  | .scalar k a, .scalar l b => k = l && a.alike b
  | .array as, .array bs => sameItems as bs
  | .object as, .object bs => as.length = bs.length && sameEntries as bs
  | _, _ => false

def sameItems : List HashKey → List HashKey → Bool
  | [], [] => true
  | a :: as, b :: bs => same a b && sameItems as bs
  | _, _ => false

def sameEntries : List (Key × HashKey) → List (Key × HashKey) → Bool
  | [], _ => true
  | (name, a) :: as, bs =>
    (match Entries.find? bs name with
      | some b => same a b
      | none => false) && sameEntries as bs

end

end HashKey

end SchemaModel
