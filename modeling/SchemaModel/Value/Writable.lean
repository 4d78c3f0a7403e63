import SchemaModel.Platform
import SchemaModel.Value.Basic

/-!
# What can be written

A key or a value can be shown in a message unless a whole number in it is too long for the
platform.  Written as JSON it must moreover be data: foreign things are none, and neither are the
mappings that are no dictionaries, though they have the kind of an object.
-/

namespace SchemaModel

/-- Why a value is not written as JSON. -/
inductive Refusal where
  | longInteger (number : LongInteger)
  | value (typeName : String)
  | key (typeName : String)
  deriving DecidableEq, Inhabited

def Refusal.message : Refusal → String
  | .longInteger number => number.message
  | .value typeName => "Object of type " ++ typeName ++ " is not JSON serializable"
  | .key typeName => "keys must be str, int, float, bool or None, not " ++ typeName

variable [Platform]

mutual

def Key.canShow : Key → Bool
  | .int n => Platform.writes n
  | .tuple parts => keysCanShow parts
  | _ => true

def keysCanShow : List Key → Bool
  | [] => true
  | key :: keys => key.canShow && keysCanShow keys

end

mutual

def Value.canShow : Value → Bool
  | .int n => Platform.writes n
  | .list items => itemsCanShow items
  | .tuple items => itemsCanShow items
  | .mapping _ entries => entriesCanShow entries
  | _ => true

def itemsCanShow : List Value → Bool
  | [] => true
  | item :: items => item.canShow && itemsCanShow items

def entriesCanShow : List (Key × Value) → Bool
  | [] => true
  | (key, value) :: entries => key.canShow && value.canShow && entriesCanShow entries

end

def refusalOfWhole? (n : Int) : Option Refusal :=
  if Platform.writes n then none else some (.longInteger Platform.refusal)

def Key.refusal? : Key → Option Refusal
  | .int n => refusalOfWhole? n
  | .tuple _ => some (.key "tuple")
  | .foreign thing => some (.key thing.typeName)
  | _ => none

mutual

/-- Why a value is refused: the first reason in the order of writing. -/
def Value.refusal? : Value → Option Refusal
  | .int n => refusalOfWhole? n
  | .list items => itemsRefusal? items
  | .tuple items => itemsRefusal? items
  | .mapping .dict entries => entriesRefusal? entries
  | .mapping (.other typeName) entries =>
    if Platform.isDictionary typeName then entriesRefusal? entries else some (.value typeName)
  | .foreign thing => some (.value thing.typeName)
  | _ => none

def itemsRefusal? : List Value → Option Refusal
  | [] => none
  | item :: items => item.refusal?.or (itemsRefusal? items)

def entriesRefusal? : List (Key × Value) → Option Refusal
  | [] => none
  | (key, value) :: entries => (key.refusal?.or value.refusal?).or (entriesRefusal? entries)

end

def Value.isWritable (value : Value) : Bool :=
  value.refusal?.isNone

end SchemaModel
