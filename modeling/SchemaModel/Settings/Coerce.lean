import SchemaModel.Number.Whole
import SchemaModel.Settings.Coercion
import SchemaModel.Settings.Numeral

/-!
# The lenient coercion

A whole number may be given as a flag, a whole binary64 number or a numeral as well, a flag as zero,
one or a word.
-/

namespace SchemaModel.Settings

def Problem.ofNumeral : NumeralFault → Problem
  | .form => .numeral
  | .size => .tooLarge

def readWholeText (text : String) : Except Problem Int :=
  (readNumeral text.toList).mapError Problem.ofNumeral

/-- The first number above the signed 64-bit range. -/
def wordEnd : Int := 0x8000000000000000

def isWordSized (n : Int) : Bool :=
  -wordEnd < n && n < wordEnd

def readWhole : Value → Except Problem Int
  | .int n => .ok n
  | .bool b => .ok (if b then 1 else 0)
  | .float x =>
    if !x.isFinite then .error .notFinite
    else
      match x.toInt? with
      | none => .error .fraction
      | some n => if isWordSized n then .ok n else .error .tooLarge
  | .str (.plain text) => readWholeText text
  | .str (.broken ..) => .error .numeral
  | .foreign .bytes => readWholeText ""
  | _ => .error .wholeNumber

def yesWords : List String :=
  ["1", "on", "t", "true", "y", "yes"]

def noWords : List String :=
  ["0", "off", "f", "false", "n", "no"]

def readFlagWord (text : String) : Except Problem Bool :=
  let word := String.ofList (text.toList.map Char.toLower)
  if yesWords.contains word then .ok true
  else if noWords.contains word then .ok false
  else .error .flagWord

def flagOfWhole (n : Int) : Except Problem Bool :=
  if n = 1 then .ok true
  else if n = 0 then .ok false
  else .error .flagWord

def readFlag : Value → Except Problem Bool
  | .bool b => .ok b
  | .str (.plain text) => readFlagWord text
  | .str (.broken ..) => .error .flagWord
  | .foreign .bytes => readFlagWord ""
  | .int n => if -wordEnd ≤ n ∧ n < wordEnd then flagOfWhole n else .error .flag
  | .float x =>
    match x.toInt? with
    | some n => if isWordSized n then flagOfWhole n else .error .flag
    | none => .error .flag
  | _ => .error .flag

def reportComplaints (complaints : List Complaint) : String :=
  let count := wholeText complaints.length
  let heading := count ++ (if complaints.length = 1 then " validation error" else
    " validation errors") ++ " for SchemaShapeConfig"
  complaints.foldl (fun report complaint =>
    report ++ "\n" ++ ".".intercalate (complaint.place.map fun key => (key.string?).getD "?") ++
      "\n  " ++ complaint.problem.message ++ " [type=" ++ complaint.problem.code ++ "]") heading

/-- The coercion that knows all these spellings. -/
@[reducible] def lenient : Coercion where
  whole := readWhole
  flag := readFlag
  report := reportComplaints

end SchemaModel.Settings
