import SchemaModel.Value.Datum

/-!
# Data that may contain themselves

A store holds what is seen at each of its places, with places for the parts.  A place of a store is
a datum; the data inside it may be the ones that it is inside of.
-/

namespace SchemaModel

/-- A place of a store. -/
structure Linked where
  store : List (Shape Nat)
  place : Nat
  deriving Inhabited

instance : Datum Linked where
  look linked :=
    (linked.store.getD linked.place .null).map fun place => { linked with place }

end SchemaModel
