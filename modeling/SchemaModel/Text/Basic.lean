/-!
# Texts

A text is a run of code points.  Most of them are characters; a half of a surrogate pair, which an
escape can bring into a document, is none by itself.  A text without such halves is kept as a
string, so that every text is written in one way.
-/

namespace SchemaModel

/-- A code point: a character, or a half of a surrogate pair that stands alone. -/
inductive Point where
  | char (c : Char)
  | half (index : Fin 0x800)
  deriving DecidableEq, Inhabited

namespace Point

def code : Point → Nat
  | char c => c.toNat
  | half index => 0xd800 + index

def ofCode (code : Nat) : Point :=
  if lone : 0xd800 ≤ code ∧ code ≤ 0xdfff then .half ⟨code - 0xd800, by omega⟩
  else .char (Char.ofNat code)

def isHalf : Point → Bool
  | char _ => false
  | half _ => true

def char? : Point → Option Char
  | char c => some c
  | half _ => none

theorem ofCode_code (point : Point) : ofCode point.code = point := by
  cases point with
  | char c =>
    have valid := c.valid
    have whole : ¬ (0xd800 ≤ c.toNat ∧ c.toNat ≤ 0xdfff) := by
      have code : c.toNat.isValidChar := valid
      simp only [Nat.isValidChar] at code
      omega
    rw [code, ofCode, dif_neg whole, Char.ofNat_toNat]
  | half index =>
    have lone : 0xd800 ≤ 0xd800 + index.val ∧ 0xd800 + index.val ≤ 0xdfff := by omega
    have same : ∀ inside, (⟨0xd800 + index.val - 0xd800, inside⟩ : Fin 0x800) = index := fun _ =>
      Fin.ext (Nat.add_sub_cancel_left ..)
    rw [code, ofCode, dif_pos lone, same]

end Point

/-- A text: a string, or code points with a half among them. -/
inductive Text where
  | plain (chars : String)
  | broken (points : List Point) (halved : points.any Point.isHalf = true)
  deriving DecidableEq

namespace Text

instance : Inhabited Text := ⟨plain ""⟩

instance : Coe String Text := ⟨plain⟩

def points : Text → List Point
  | plain chars => chars.toList.map .char
  | broken points _ => points

def ofPoints (points : List Point) : Text :=
  if halved : points.any Point.isHalf = true then broken points halved
  else plain (String.ofList (points.filterMap Point.char?))

protected def append : Text → Text → Text
  | plain a, plain b => plain (a ++ b)
  | a, b => ofPoints (a.points ++ b.points)

instance : Append Text := ⟨Text.append⟩

/-- The string that a text is, if no half stands in it. -/
def string? : Text → Option String
  | plain chars => some chars
  | broken _ _ => none

def isPlain : Text → Bool
  | plain _ => true
  | broken _ _ => false

/-- The order of texts by their code points. -/
instance : LT Text := ⟨fun a b => a.points.map Point.code < b.points.map Point.code⟩

instance (a b : Text) : Decidable (a < b) :=
  inferInstanceAs (Decidable (a.points.map Point.code < b.points.map Point.code))

theorem filterMap_char? {points : List Point} (h : points.any Point.isHalf = false) :
    (points.filterMap Point.char?).map Point.char = points := by
  induction points with
  | nil => rfl
  | cons point points ih =>
    cases point with
    | char c => simpa [Point.char?] using ih (by simpa [Point.isHalf] using h)
    | half index => simp [Point.isHalf] at h

@[simp] theorem points_ofPoints (points : List Point) : (ofPoints points).points = points := by
  rw [ofPoints]
  split
  · rfl
  · next whole =>
    rw [Text.points, String.toList_ofList, filterMap_char? (Bool.not_eq_true _ ▸ whole)]

theorem any_isHalf_map (chars : List Char) : (chars.map Point.char).any Point.isHalf = false := by
  induction chars with
  | nil => rfl
  | cons c chars ih => simp [Point.isHalf]

theorem ofPoints_map (chars : List Char) :
    ofPoints (chars.map .char) = plain (String.ofList chars) := by
  rw [ofPoints, dif_neg (by rw [any_isHalf_map]; decide), List.filterMap_map]
  congr 2
  exact List.filterMap_some

@[simp] theorem ofPoints_points (text : Text) : ofPoints text.points = text := by
  cases text with
  | plain chars => rw [points, ofPoints_map, String.ofList_toList]
  | broken points halved => rw [Text.points, ofPoints, dif_pos halved]

theorem points_injective {a b : Text} (h : a.points = b.points) : a = b := by
  rw [← ofPoints_points a, h, ofPoints_points]

theorem points_plain (chars : String) : (plain chars).points = chars.toList.map .char :=
  rfl

@[simp] theorem plain_append (a b : String) : plain a ++ plain b = plain (a ++ b) :=
  rfl

@[simp] theorem points_append (a b : Text) : (a ++ b).points = a.points ++ b.points := by
  change (Text.append a b).points = _
  cases a with
  | plain a =>
    cases b with
    | plain b => rw [Text.append, points, points, points, String.toList_append, List.map_append]
    | broken => exact points_ofPoints _
  | broken => exact points_ofPoints _

end Text

end SchemaModel
