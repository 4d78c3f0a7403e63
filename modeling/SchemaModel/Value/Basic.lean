import SchemaModel.Number.Binary64
import SchemaModel.Text.Basic

/-!
# Values

The data that schemas describe and that schema documents are made of.  JSON data are the values
with a `Kind`; the others (foreign objects, and mappings with a key that is not a text) have none,
yet they can stand inside a document and must be told apart from JSON data.

A mapping is a list of entries in the order in which its keys were first met.  `Entries.insert`
keeps the keys distinct: a later value replaces the earlier one at the earlier position.
-/

namespace SchemaModel

/-- A thing with no JSON counterpart.  Plain objects are told apart by where they occur. -/
inductive Foreign where
  | object (occurrence : Nat)
  | set
  | frozenset
  | bytes
  deriving DecidableEq, Inhabited

/-- A key of a mapping, or a step of a path. -/
inductive Key where
  | str (text : Text)
  | int (number : Int)
  | bool (flag : Bool)
  | float (number : Binary64)
  | null
  | tuple (parts : List Key)
  | foreign (thing : Foreign)
  deriving Inhabited

/-- How a mapping is built: as a dictionary, or as another type of mapping by its name. -/
inductive MappingForm where
  | dict
  | other (typeName : String)
  deriving DecidableEq, Inhabited

def MappingForm.typeName : MappingForm → String
  | .dict => "dict"
  | .other typeName => typeName

/-- A value. -/
inductive Value where
  | null
  | bool (flag : Bool)
  | int (number : Int)
  | float (number : Binary64)
  | str (text : Text)
  | list (items : List Value)
  | tuple (items : List Value)
  | mapping (form : MappingForm) (entries : List (Key × Value))
  | foreign (thing : Foreign)
  deriving Inhabited

inductive Kind where
  | null
  | boolean
  | number
  | string
  | array
  | object
  deriving DecidableEq, Inhabited

def Kind.name : Kind → String
  | .null => "null"
  | .boolean => "boolean"
  | .number => "number"
  | .string => "string"
  | .array => "array"
  | .object => "object"

namespace Foreign

def typeName : Foreign → String
  | .object _ => "object"
  | .set => "set"
  | .frozenset => "frozenset"
  | .bytes => "bytes"

/-- Equality of foreign things: the two kinds of set are equal when both are empty. -/
def same : Foreign → Foreign → Bool
  | .set, .frozenset => true
  | .frozenset, .set => true
  | a, b => a = b

end Foreign

namespace Key

def isText : Key → Bool
  | .str _ => true
  | _ => false

def isPlain : Key → Bool
  | .str text => text.isPlain
  | _ => true

/-- The exact size of a key that counts as a number; the flags count as zero and one. -/
def measure? : Key → Option Exact
  | .int n => some (Exact.ofInt n)
  | .bool b => some (Exact.ofInt (if b then 1 else 0))
  | .float x => x.measure?
  | _ => none

mutual

/-- Equality of keys, under which numbers are compared by size whatever their spelling, and what is
not a number by its mark. -/
def same : Key → Key → Bool
  | .float (.nan a), .float (.nan b) => a = b
  | .str a, .str b => a = b
  | .null, .null => true
  | .tuple as, .tuple bs => sameParts as bs
  | .foreign a, .foreign b => a.same b
  | a, b => Exact.agree a.measure? b.measure?

def sameParts : List Key → List Key → Bool
  | [], [] => true
  | a :: as, b :: bs => same a b && sameParts as bs
  | _, _ => false

end

end Key

namespace Entries

variable {α : Type}

def get? (entries : List (Key × α)) (name : Text) : Option α :=
  match entries with
  | [] => none
  | (.str text, value) :: rest => if text = name then some value else get? rest name
  | _ :: rest => get? rest name

/-- The value stored under a key. -/
def find? (entries : List (Key × α)) (key : Key) : Option α :=
  match entries with
  | [] => none
  | (other, value) :: rest => if other.same key then some value else find? rest key

/-- The value under a key when a later entry replaces an earlier one. -/
def findLast? (entries : List (Key × α)) (key : Key) : Option α :=
  match entries with
  | [] => none
  | (other, value) :: rest =>
    match findLast? rest key with
    | some found => some found
    | none => if other.same key then some value else none

def has (entries : List (Key × α)) (key : Key) : Bool :=
  entries.any fun entry => entry.1.same key

def textual (entries : List (Key × α)) : Bool :=
  entries.all fun entry => entry.1.isText

/-- Stores a value under a key, at the position of that key if it is already there. -/
def insert (entries : List (Key × α)) (key : Key) (value : α) : List (Key × α) :=
  match entries with
  | [] => [(key, value)]
  | (other, old) :: rest =>
    if other.same key then (other, value) :: rest else (other, old) :: insert rest key value

def ofPairs (pairs : List (Key × α)) : List (Key × α) :=
  pairs.foldl (fun entries pair => insert entries pair.1 pair.2) []

theorem mem_of_get? {entries : List (Key × α)} {name : Text} {value : α}
    (h : get? entries name = some value) : (Key.str name, value) ∈ entries := by
  fun_induction get? entries name with
  | case1 => simp at h
  | case2 held rest => simp_all
  | case3 text held rest other ih => exact List.mem_cons_of_mem _ (ih h)
  | case4 head rest other ih => exact List.mem_cons_of_mem _ (ih h)

theorem mem_of_findLast? {entries : List (Key × α)} {key : Key} {value : α}
    (h : findLast? entries key = some value) : ∃ other, (other, value) ∈ entries := by
  induction entries with
  | nil => simp [findLast?] at h
  | cons entry rest ih =>
    obtain ⟨other, held⟩ := entry
    rw [findLast?] at h
    split at h
    · next found later =>
      obtain ⟨name, member⟩ := ih (by rw [later]; exact h)
      exact ⟨name, List.mem_cons_of_mem _ member⟩
    · split at h
      · exact ⟨other, by simp_all⟩
      · simp at h

theorem mem_of_find? {entries : List (Key × α)} {key : Key} {value : α}
    (h : find? entries key = some value) : ∃ other, (other, value) ∈ entries := by
  induction entries with
  | nil => simp [find?] at h
  | cons entry rest ih =>
    obtain ⟨other, held⟩ := entry
    rw [find?] at h
    split at h
    · exact ⟨other, by simp_all⟩
    · obtain ⟨name, member⟩ := ih h
      exact ⟨name, List.mem_cons_of_mem _ member⟩

theorem mem_insert {entries : List (Key × α)} {key : Key} {value : α} {entry : Key × α}
    (h : entry ∈ insert entries key value) : entry.2 = value ∨ entry ∈ entries := by
  induction entries with
  | nil => simp_all [insert]
  | cons head rest ih =>
    obtain ⟨other, held⟩ := head
    rw [insert] at h
    split at h
    · simp only [List.mem_cons] at h ⊢
      rcases h with rfl | h
      · exact .inl rfl
      · exact .inr (.inr h)
    · simp only [List.mem_cons] at h ⊢
      rcases h with rfl | h
      · exact .inr (.inl rfl)
      · exact (ih h).imp id .inr

/-- Storing pairs one after another makes up no values. -/
theorem mem_of_mem_ofPairs {pairs : List (Key × α)} {entry : Key × α}
    (h : entry ∈ ofPairs pairs) : ∃ other, (other, entry.2) ∈ pairs := by
  suffices ∀ entries : List (Key × α),
      entry ∈ pairs.foldl (fun entries pair => insert entries pair.1 pair.2) entries →
        (∃ other, (other, entry.2) ∈ pairs) ∨ entry ∈ entries by
    simpa using this [] h
  clear h
  induction pairs with
  | nil => exact fun entries h => .inr h
  | cons pair pairs ih =>
    intro entries h
    rcases ih _ h with ⟨other, member⟩ | h
    · exact .inl ⟨other, List.mem_cons_of_mem _ member⟩
    · rcases mem_insert h with same | member
      · exact .inl ⟨pair.1, by simp [same]⟩
      · exact .inr member

end Entries

namespace Value

def typeName : Value → String
  | .null => "NoneType"
  | .bool _ => "bool"
  | .int _ => "int"
  | .float _ => "float"
  | .str _ => "str"
  | .list _ => "list"
  | .tuple _ => "tuple"
  | .mapping form _ => form.typeName
  | .foreign thing => thing.typeName

def kind? : Value → Option Kind
  | .null => some .null
  | .bool _ => some .boolean
  | .int _ => some .number
  | .float _ => some .number
  | .str _ => some .string
  | .list _ => some .array
  | .tuple _ => some .array
  | .mapping _ entries => if Entries.textual entries then some .object else none
  | .foreign _ => none

/-- How a value is named in a message: by its kind, or by its type when it has none. -/
def label (value : Value) : String :=
  match value.kind? with
  | some kind => kind.name
  | none => value.typeName

def items? : Value → Option (List Value)
  | .list items => some items
  | .tuple items => some items
  | _ => none

def fields? : Value → Option (List (Key × Value))
  | .mapping _ entries => if Entries.textual entries then some entries else none
  | _ => none

def text? : Value → Option Text
  | .str text => some text
  | _ => none

/-- The exact size of a number. -/
def measure? : Value → Option Exact
  | .int n => some (Exact.ofInt n)
  | .float x => x.measure?
  | _ => none

def object (fields : List (String × Value)) : Value :=
  .mapping .dict (fields.map fun field => (.str field.1, field.2))

mutual

/-- Whether a value is JSON data throughout. -/
def isJson : Value → Bool
  | .list items => allJson items
  | .tuple items => allJson items
  | .mapping _ entries => Entries.textual entries && entriesJson entries
  | .foreign _ => false
  | _ => true

def allJson : List Value → Bool
  | [] => true
  | item :: items => item.isJson && allJson items

def entriesJson : List (Key × Value) → Bool
  | [] => true
  | (_, value) :: entries => value.isJson && entriesJson entries

end

mutual

/-- Whether no half of a surrogate pair stands in the texts and the names of a value. -/
def isPlain : Value → Bool
  | .str text => text.isPlain
  | .list items => itemsPlain items
  | .tuple items => itemsPlain items
  | .mapping _ entries => entriesPlain entries
  | _ => true

def itemsPlain : List Value → Bool
  | [] => true
  | item :: items => item.isPlain && itemsPlain items

def entriesPlain : List (Key × Value) → Bool
  | [] => true
  | (key, value) :: entries => key.isPlain && value.isPlain && entriesPlain entries

end

mutual

/-- Whether a value that stands at a depth nests no deeper than a limit. -/
def fits (limit depth : Nat) : Value → Bool
  | .list items => depth ≤ limit && itemsFit limit (depth + 1) items
  | .tuple items => depth ≤ limit && itemsFit limit (depth + 1) items
  | .mapping _ entries => depth ≤ limit && entriesFit limit (depth + 1) entries
  | _ => depth ≤ limit

def itemsFit (limit depth : Nat) : List Value → Bool
  | [] => true
  | item :: items => fits limit depth item && itemsFit limit depth items

/-- Whether stored values that stand at a depth nest no deeper than a limit. -/
def entriesFit (limit depth : Nat) : List (Key × Value) → Bool
  | [] => true
  | (_, value) :: entries => fits limit depth value && entriesFit limit depth entries

end

end Value

end SchemaModel
