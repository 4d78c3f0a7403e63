import SchemaModel.Value.Equality

/-!
# Data seen from outside

A value is checked by looking at it: its type is seen at once, its parts are looked at in turn.
Any type that can be looked at so holds data.  The finite values do, and so do the nodes of a graph,
among which are data that contain themselves.  Whether a datum equals a given value is found out by
looking as deep as that value goes.
-/

namespace SchemaModel

/-- What is seen of a value whose parts are of some type. -/
inductive Shape (α : Type) where
  | null
  | bool (flag : Bool)
  | int (number : Int)
  | float (number : Binary64)
  | str (text : Text)
  | list (items : List α)
  | tuple (items : List α)
  | mapping (form : MappingForm) (entries : List (Key × α))
  | foreign (thing : Foreign)
  deriving Inhabited

namespace Shape

variable {α β : Type}

def typeName : Shape α → String
  | .null => "NoneType"
  | .bool _ => "bool"
  | .int _ => "int"
  | .float _ => "float"
  | .str _ => "str"
  | .list _ => "list"
  | .tuple _ => "tuple"
  | .mapping form _ => form.typeName
  | .foreign thing => thing.typeName

def kind? : Shape α → Option Kind
  | .null => some .null
  | .bool _ => some .boolean
  | .int _ => some .number
  | .float _ => some .number
  | .str _ => some .string
  | .list _ => some .array
  | .tuple _ => some .array
  | .mapping _ entries => if Entries.textual entries then some .object else none
  | .foreign _ => none

def label (shape : Shape α) : String :=
  match shape.kind? with
  | some kind => kind.name
  | none => shape.typeName

def items? : Shape α → Option (List α)
  | .list items => some items
  | .tuple items => some items
  | _ => none

def fields? : Shape α → Option (List (Key × α))
  | .mapping _ entries => if Entries.textual entries then some entries else none
  | _ => none

def isNull : Shape α → Bool
  | .null => true
  | _ => false

def flag? : Shape α → Option Bool
  | .bool flag => some flag
  | _ => none

def text? : Shape α → Option Text
  | .str text => some text
  | _ => none

def thing? : Shape α → Option Foreign
  | .foreign thing => some thing
  | _ => none

def measure? : Shape α → Option Exact
  | .int n => some (Exact.ofInt n)
  | .float x => x.measure?
  | _ => none

def looseMeasure? : Shape α → Option Exact
  | .bool b => some (Exact.ofInt (if b then 1 else 0))
  | shape => shape.measure?

def map (f : α → β) : Shape α → Shape β
  | .null => .null
  | .bool flag => .bool flag
  | .int n => .int n
  | .float x => .float x
  | .str text => .str text
  | .list items => .list (items.map f)
  | .tuple items => .tuple (items.map f)
  | .mapping form entries => .mapping form (entries.map fun entry => (entry.1, f entry.2))
  | .foreign thing => .foreign thing

end Shape

/-- A type whose members can be looked at. -/
class Datum (α : Type) where
  look : α → Shape α

namespace Datum

instance : Datum Value where
  look
    | .null => .null
    | .bool flag => .bool flag
    | .int n => .int n
    | .float x => .float x
    | .str text => .str text
    | .list items => .list items
    | .tuple items => .tuple items
    | .mapping form entries => .mapping form entries
    | .foreign thing => .foreign thing

variable {α : Type} [Datum α]

/-- Whether a datum and a value are one thing that is not a number. -/
def sameMark (value : α) (other : Value) : Bool :=
  match look value, other with
  | .float (.nan a), .float (.nan b) => a = b
  | _, _ => false

def pairwise (as : List α) (bs : List Value) (test : α → {b // b ∈ bs} → Bool) : Bool :=
  as.length = bs.length && (as.zip bs.attach).all fun pair => test pair.1 pair.2

theorem sizeOf_find?_lt {entries : List (Key × Value)} {key : Key} {value : Value}
    (h : Entries.find? entries key = some value) : sizeOf value < sizeOf entries := by
  obtain ⟨other, member⟩ := Entries.mem_of_find? h
  have bound := List.sizeOf_lt_of_mem member
  simp only [Prod.mk.sizeOf_spec] at bound
  omega

/-- Whether a datum equals a value regardless of kinds. -/
def looselyEquals (value : α) (other : Value) : Bool :=
  match other with
  | .null => (look value).isNull
  | .str b => (look value).text? = some b
  | .list bs =>
    match look value with
    | .list as => pairwise as bs fun a b => sameMark a b.1 || looselyEquals a b.1
    | _ => false
  | .tuple bs =>
    match look value with
    | .tuple as => pairwise as bs fun a b => sameMark a b.1 || looselyEquals a b.1
    | _ => false
  | .mapping _ bs =>
    match look value with
    | .mapping _ as =>
      as.length = bs.length && as.all fun entry =>
        match _h : Entries.find? bs entry.1 with
        | some b => sameMark entry.2 b || looselyEquals entry.2 b
        | none => false
    | _ => false
  | .foreign b => (look value).thing?.any (·.same b)
  | b => Exact.agree (look value).looseMeasure? b.looseMeasure?
termination_by sizeOf other
decreasing_by
  all_goals simp_wf
  · have smaller := List.sizeOf_lt_of_mem b.2
    omega
  · have smaller := List.sizeOf_lt_of_mem b.2
    omega
  · have smaller := sizeOf_find?_lt _h
    omega

/-- Whether a datum equals a value as JSON data. -/
def equals (value : α) (other : Value) : Bool :=
  match other with
  | .null => (look value).isNull
  | .bool b => (look value).flag? = some b
  | .str b => (look value).text? = some b
  | .list bs =>
    match (look value).items? with
    | some as => pairwise as bs fun a b => equals a b.1
    | none => false
  | .tuple bs =>
    match (look value).items? with
    | some as => pairwise as bs fun a b => equals a b.1
    | none => false
  | .mapping form bs =>
    match look value with
    | .mapping _ as =>
      if Entries.textual as && Entries.textual bs then
        as.length = bs.length && as.all fun entry =>
          match _h : Entries.find? bs entry.1 with
          | some b => equals entry.2 b
          | none => false
      else if Entries.textual as || Entries.textual bs then false
      else looselyEquals value (.mapping form bs)
    | _ => false
  | .foreign b => (look value).thing?.any (·.same b)
  | b => Exact.agree (look value).measure? b.measure?
termination_by sizeOf other
decreasing_by
  all_goals simp_wf
  · have smaller := List.sizeOf_lt_of_mem b.2
    omega
  · have smaller := List.sizeOf_lt_of_mem b.2
    omega
  · have smaller := sizeOf_find?_lt _h
    omega

end Datum

end SchemaModel
