import Mathlib.Algebra.Group.Nat.Defs
import Mathlib.Data.List.Basic
import SchemaModel.Text.Quoted

/-!
# Reading quoted text

The code points of a quoted text can be read off its front one by one, whatever follows them: an
escape tells by its second character how long it is, and every other character stands for itself.
The quote in use is written as an escape, so it ends the text where it first stands alone.  Hence a
quoted text can be told from what follows it, and what was quoted from the quoted text.
-/

namespace SchemaModel.Text

/-! ## Hexadecimal digits -/

/-- The number of a hexadecimal digit in lower case. -/
def hexDigitValue (c : Char) : Nat :=
  if c.isDigit then c.toNat - 48 else c.toNat - 87

/-- The number written by hexadecimal digits, the highest first. -/
def hexValue (digits : List Char) : Nat :=
  digits.foldl (fun value digit => 16 * value + hexDigitValue digit) 0

theorem hexDigitValue_hexDigit (n : Nat) : hexDigitValue (hexDigit n) = n % 16 := by
  have hall : ∀ d < 16, hexDigitValue (Nat.digitChar d) = d := by decide
  exact hall _ (Nat.mod_lt n (by decide))

theorem length_hexDigits (width n : Nat) : (hexDigits width n).length = width := by
  induction width generalizing n with
  | zero => rfl
  | succ width ih => rw [hexDigits, List.length_append, ih, List.length_singleton]

theorem hexValue_hexDigits (width n : Nat) : hexValue (hexDigits width n) = n % 16 ^ width := by
  induction width generalizing n with
  | zero => simp [hexDigits, hexValue, Nat.mod_one]
  | succ width ih =>
      have hlast : hexValue (hexDigits (width + 1) n) =
          16 * hexValue (hexDigits width (n / 16)) + n % 16 := by
        simp [hexDigits, hexValue, hexDigitValue_hexDigit]
      rw [hlast, ih, Nat.pow_succ, Nat.mul_comm (16 ^ width), Nat.mod_mul, Nat.add_comm]

/-! ## Code points -/

/-- How many digits follow an escape mark. -/
def escapeWidth? (mark : Char) : Option Nat :=
  if mark = 'x' then some 2
  else if mark = 'u' then some 4
  else if mark = 'U' then some 8
  else none

/-- The character that an escape without digits stands for. -/
def escapeTarget (mark : Char) : Char :=
  if mark = 't' then '\t'
  else if mark = 'n' then '\n'
  else if mark = 'r' then '\r'
  else mark

/-- The first code point of a quoted text, and what follows it. -/
def readQuotedPoint : List Char → Option (Point × List Char)
  | [] => none
  | ['\\'] => none
  | '\\' :: mark :: rest =>
    match escapeWidth? mark with
    | some width => some (Point.ofCode (hexValue (rest.take width)), rest.drop width)
    | none => some (.char (escapeTarget mark), rest)
  | c :: rest => some (.char c, rest)

theorem readQuotedPoint_digits {mark : Char} {width : Nat} (hmark : escapeWidth? mark = some width)
    {point : Point} (hpoint : point.code < 16 ^ width) (rest : List Char) :
    readQuotedPoint ('\\' :: mark :: (hexDigits width point.code ++ rest)) =
      some (point, rest) := by
  have hlength := length_hexDigits width point.code
  simp only [readQuotedPoint, hmark, List.take_left' hlength, List.drop_left' hlength]
  rw [hexValue_hexDigits, Nat.mod_eq_of_lt hpoint, Point.ofCode_code]

/-- A quoted character is an escape, or it stands for itself and is not the quote. -/
theorem quotedChar_cases (quote c : Char) :
    (∃ escape, quotedChar quote c = '\\' :: escape) ∨
      quotedChar quote c = [c] ∧ c ≠ quote := by
  by_cases hself : c = '\\' ∨ c = quote
  · exact .inl ⟨[c], by rw [quotedChar, if_pos hself]⟩
  · unfold quotedChar
    rw [if_neg hself]
    split_ifs
    · exact .inl ⟨_, rfl⟩
    · exact .inl ⟨_, rfl⟩
    · exact .inl ⟨_, rfl⟩
    · exact .inr ⟨rfl, fun heq => hself (.inr heq)⟩
    all_goals exact .inl ⟨_, rfl⟩

/-- A quoted code point starts with a backslash, or it is a character other than the quote. -/
theorem quotedPoint_cases (quote : Char) (point : Point) :
    (∃ escape, quotedPoint quote point = '\\' :: escape) ∨
      ∃ c, quotedPoint quote point = [c] ∧ c ≠ quote := by
  cases point with
  | char c => exact (quotedChar_cases quote c).imp_right fun h => ⟨c, h⟩
  | half index => exact .inl ⟨_, rfl⟩

section Quotes

variable {quote : Char} (hquote : quote = '\'' ∨ quote = '"')

include hquote

/-- A quoted code point is read back. -/
theorem readQuotedPoint_quotedPoint (point : Point) (rest : List Char) :
    readQuotedPoint (quotedPoint quote point ++ rest) = some (point, rest) := by
  cases point with
  | half index =>
      have hsmall : (Point.half index).code < 16 ^ 4 := by
        have hindex := index.isLt
        change 0xd800 + index.val < _
        omega
      exact readQuotedPoint_digits rfl hsmall rest
  | char c =>
      have hsmall : c.toNat < 16 ^ 8 := c.val.toNat_lt
      simp only [quotedPoint]
      unfold quotedChar
      split_ifs with hself htab hline hreturn hprint hbyte hunit
      · rcases hself with rfl | rfl
        · rfl
        · rcases hquote with rfl | rfl <;> rfl
      · rw [htab]
        rfl
      · rw [hline]
        rfl
      · rw [hreturn]
        rfl
      · have hplain : c ≠ '\\' := fun heq => hself (.inl heq)
        simp [readQuotedPoint, hplain]
      · exact readQuotedPoint_digits rfl (show (Point.char c).code < _ from hbyte) rest
      · exact readQuotedPoint_digits rfl (show (Point.char c).code < _ from hunit) rest
      · exact readQuotedPoint_digits rfl (show (Point.char c).code < _ from hsmall) rest

theorem quotedPoint_append_ne (point : Point) (rest after : List Char) :
    quotedPoint quote point ++ rest ≠ quote :: after := by
  intro h
  rcases quotedPoint_cases quote point with ⟨escape, hescape⟩ | ⟨c, hplain, hne⟩
  · rw [hescape, List.cons_append] at h
    have hslash : '\\' = quote := (List.cons.inj h).1
    rcases hquote with rfl | rfl <;> exact absurd hslash (by decide)
  · rw [hplain, List.cons_append] at h
    exact hne (List.cons.inj h).1

/-- Up to the closing quote, quoted code points come from one text only. -/
theorem quotedPoints_inj {as bs : List Point} {s t : List Char}
    (h : as.flatMap (quotedPoint quote) ++ quote :: s =
      bs.flatMap (quotedPoint quote) ++ quote :: t) : as = bs ∧ s = t := by
  induction as generalizing bs with
  | nil =>
      cases bs with
      | nil => exact ⟨rfl, List.tail_eq_of_cons_eq h⟩
      | cons b bs =>
          rw [List.flatMap_cons, List.append_assoc] at h
          exact absurd h.symm (quotedPoint_append_ne hquote b _ _)
  | cons a as ih =>
      cases bs with
      | nil =>
          rw [List.flatMap_cons, List.append_assoc] at h
          exact absurd h (quotedPoint_append_ne hquote a _ _)
      | cons b bs =>
          rw [List.flatMap_cons, List.flatMap_cons, List.append_assoc, List.append_assoc] at h
          have hread := congrArg readQuotedPoint h
          rw [readQuotedPoint_quotedPoint hquote, readQuotedPoint_quotedPoint hquote] at hread
          obtain ⟨rfl, hrest⟩ := Prod.mk.inj (Option.some.inj hread)
          obtain ⟨rfl, rfl⟩ := ih hrest
          exact ⟨rfl, rfl⟩

end Quotes

theorem quoteMark_eq (points : List Point) :
    quoteMark points = '\'' ∨ quoteMark points = '"' := by
  unfold quoteMark
  split
  · exact .inr rfl
  · exact .inl rfl

/-- A quoted text tells what was quoted and where it ends. -/
theorem quotedPoints_append_inj {as bs : List Point} {s t : List Char}
    (h : quotedPoints as ++ s = quotedPoints bs ++ t) : as = bs ∧ s = t := by
  simp only [quotedPoints, List.cons_append, List.append_assoc, List.nil_append] at h
  obtain ⟨hquote, hbody⟩ := List.cons.inj h
  rw [← hquote] at hbody
  exact quotedPoints_inj (quoteMark_eq as) hbody

end SchemaModel.Text
