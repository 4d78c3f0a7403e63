import SchemaModel.Model.Basic
import SchemaModel.Value.Identity

/-!
# Equality of models

Two models are the same when they have the same form and the same parts.  The order of the values of
an enumeration, of the properties of an object and of its required names does not count, and of
several declarations of a property only the last does.

A part of a model is also equal to a part that is the very same one, made at the same mark and
built alike.  That matters only for a part that holds what is not a number, for such a part is not
equal to itself by its values.
-/

namespace SchemaModel

def Entries.keyCount {α : Type} : List (Key × α) → Nat
  | [] => 0
  | (key, _) :: rest => if has rest key then keyCount rest else keyCount rest + 1

namespace Model

def enumerates (values : List Value) (value : Value) : Bool :=
  values.any (value.jsonEqual ·)

/-- Whether an enumeration holds a value; no other model can be asked. -/
def contains (model : Model) (value : Value) : Except Fault Bool :=
  match model with
  | .enum _ values => .ok (enumerates values value)
  | model => .error (.noMember model.variantName "contains")

def sameNames (as bs : List Text) : Bool :=
  as.all bs.contains && bs.all as.contains

/-- Whether two models without parts are the very same one. -/
def isSelf : Model → Model → Bool
  | .literal m a, .literal n b => m = n && a = b
  | .enum m as, .enum n bs => m = n && as = bs
  | .stray a, .stray b => a = b
  | _, _ => false

mutual

def same : Model → Model → Bool
  | .unknown, .unknown => true
  | .never, .never => true
  | .null, .null => true
  | .boolean, .boolean => true
  | .number, .number => true
  | .string, .string => true
  | .literal _ a, .literal _ b => a.jsonEqual b
  | .enum _ as, .enum _ bs => as.length = bs.length && as.all (enumerates bs)
  | .array a, .array b => isSelf a b || same a b
  | .object as r x, .object bs s y =>
    Entries.keyCount as = Entries.keyCount bs && sameProperties as bs && sameNames r s && x = y
  | .oneOf _ as, .oneOf _ bs => sameBranches as bs
  | .anyOf as, .anyOf bs => sameBranches as bs
  | .allOf as, .allOf bs => sameBranches as bs
  | .stray a, .stray b => a.looseEqual b
  | _, _ => false

def sameBranches : List Model → List Model → Bool
  | [], [] => true
  | a :: as, b :: bs => (isSelf a b || same a b) && sameBranches as bs
  | _, _ => false

/-- Whether the last declaration of every property is equal to that in another list. -/
def sameProperties : List (Key × Model) → List (Key × Model) → Bool
  | [], _ => true
  | (key, a) :: as, bs =>
    (Entries.has as key ||
      match Entries.findLast? bs key with
      | some b => isSelf a b || same a b
      | none => false) && sameProperties as bs

end

end Model

end SchemaModel
