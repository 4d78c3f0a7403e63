import SchemaModel.Json.Reader
import SchemaModel.Number.Shortest

/-!
# Written numbers are read

A number is written with a sign, digits, and a point or an exponent or neither.  Each of these
parts ends where the next one starts, and the last one before anything that could be a part of a
number, so the parts are found again whatever follows.  A whole number is read back as itself; a
binary64 number is read as one.
-/

namespace SchemaModel.Json

/-! ## The parts of a number -/

/-- What may follow digits: no digit. -/
def EndsDigits (rest : List Char) : Prop :=
  ∀ c, rest.head? = some c → c.isDigit = false

/-- What may follow a number: nothing that could be a part of it. -/
def EndsNumber (rest : List Char) : Prop :=
  ∀ c, rest.head? = some c → c.isDigit = false ∧ c ≠ '.' ∧ c ≠ 'e' ∧ c ≠ 'E'

theorem endsNumber_cons {c : Char} (h : c.isDigit = false ∧ c ≠ '.' ∧ c ≠ 'e' ∧ c ≠ 'E')
    (rest : List Char) : EndsNumber (c :: rest) := by
  intro other hother
  cases hother
  exact h

theorem EndsNumber.endsDigits {rest : List Char} (h : EndsNumber rest) : EndsDigits rest :=
  fun c hc => (h c hc).1

theorem endsDigits_cons {c : Char} (h : c.isDigit = false) (rest : List Char) :
    EndsDigits (c :: rest) := by
  intro other hother
  cases hother
  exact h

/-- Digits as they are written in front of a point: a single zero, or none at the start. -/
structure IsWhole (digits : List Char) : Prop where
  all : ∀ c ∈ digits, c.isDigit = true
  start : digits = ['0'] ∨ ∃ c rest, digits = c :: rest ∧ c ≠ '0'

theorem IsWhole.exists_eq_cons {digits : List Char} (h : IsWhole digits) :
    ∃ c rest, digits = c :: rest ∧ c.isDigit = true := by
  rcases h.start with rfl | ⟨c, rest, rfl, -⟩
  · exact ⟨'0', [], rfl, rfl⟩
  · exact ⟨c, rest, rfl, h.all c List.mem_cons_self⟩

section Parts

variable {digits rest : List Char}

theorem spanDigits_append (hdigits : ∀ c ∈ digits, c.isDigit = true) (hrest : EndsDigits rest) :
    spanDigits (digits ++ rest) = (digits, rest) := by
  rw [spanDigits, List.takeWhile_append_of_pos hdigits, List.dropWhile_append_of_pos hdigits]
  cases rest with
  | nil => simp
  | cons c rest => simp [hrest c rfl]

theorem wholePart?_append (h : IsWhole digits) (hrest : EndsDigits rest) :
    wholePart? (digits ++ rest) = some (digits, rest) := by
  rcases h.start with rfl | ⟨c, digits, rfl, hc⟩
  · rfl
  · obtain ⟨hfirst, hdigits⟩ := List.forall_mem_cons.mp h.all
    rw [List.cons_append, wholePart?]
    · rw [if_pos hfirst, spanDigits_append hdigits hrest]
    · exact hc

theorem fractionPart_append (hne : digits ≠ []) (hdigits : ∀ c ∈ digits, c.isDigit = true)
    (hrest : EndsDigits rest) : fractionPart ('.' :: (digits ++ rest)) = (digits, rest) := by
  obtain ⟨c, digits, rfl⟩ := List.exists_cons_of_ne_nil hne
  obtain ⟨hfirst, hothers⟩ := List.forall_mem_cons.mp hdigits
  rw [List.cons_append, fractionPart, if_pos hfirst, spanDigits_append hothers hrest]

theorem fractionPart_of_ne (hrest : ∀ c, rest.head? = some c → c ≠ '.') :
    fractionPart rest = ([], rest) := by
  unfold fractionPart
  split
  · exact absurd rfl (hrest _ rfl)
  · rfl

/-- An exponent with its sign is read up to the character that ends its digits. -/
theorem exponentPart_append {sign : Char} (hsign : sign = '+' ∨ sign = '-') (hne : digits ≠ [])
    (hdigits : ∀ c ∈ digits, c.isDigit = true) (hrest : EndsDigits rest) :
    exponentPart ('e' :: sign :: (digits ++ rest)) =
      (some (if sign = '-' then -(digitsValue digits : Int) else digitsValue digits), rest) := by
  have hspan := spanDigits_append hdigits hrest
  obtain ⟨c, digits, rfl⟩ := List.exists_cons_of_ne_nil hne
  unfold exponentPart
  rcases hsign with rfl | rfl
  · simp only [true_or, if_true, hspan]
    rfl
  · simp only [true_or, if_true, hspan]

theorem exponentPart_eq (hrest : EndsNumber rest) : exponentPart rest = (none, rest) := by
  unfold exponentPart
  split
  · next mark rest =>
    obtain ⟨-, -, he, hE⟩ := hrest mark rfl
    rw [if_neg (by simp [he, hE])]
  · rfl

end Parts

/-! ## Digits of whole numbers -/

/-- The digits of a positive number do not start with a zero. -/
theorem exists_toDigits_eq_cons {n : Nat} (hn : 0 < n) :
    ∃ c digits, Nat.toDigits 10 n = c :: digits ∧ c ≠ '0' := by
  induction n using Nat.strongRecOn with
  | _ n ih =>
      rw [Nat.toDigits_eq_if (by decide)]
      split
      · next hsmall =>
        have hall : ∀ d < 10, 0 < d → Nat.digitChar d ≠ '0' := by decide
        exact ⟨_, [], rfl, hall n hsmall hn⟩
      · next hlarge =>
        obtain ⟨c, digits, hcons, hc⟩ := ih (n / 10) (by omega) (by omega)
        exact ⟨c, digits ++ [Nat.digitChar (n % 10)], by rw [hcons, List.cons_append], hc⟩

theorem isDigit_of_mem_toDigits (n : Nat) : ∀ c ∈ Nat.toDigits 10 n, c.isDigit = true :=
  fun _ hc => Nat.isDigit_of_mem_toDigits (b := 10) (n := n) (by decide) (by decide) hc

theorem isWhole_toDigits (n : Nat) : IsWhole (Nat.toDigits 10 n) where
  all := isDigit_of_mem_toDigits n
  start := by
    rcases Nat.eq_zero_or_pos n with rfl | hn
    · exact .inl rfl
    · exact .inr (exists_toDigits_eq_cons hn)

/-! ## Digits of binary64 numbers -/

theorem eq_or_of_chosen {p q r : Prop} [Decidable p] [Decidable q] [Decidable r] {below n : Nat}
    (h : (if p then if q then some (below + 1) else some below
      else if r then some (below + 1) else none) = some n) :
    n = below + 1 ∨ p ∧ n = below := by
  by_cases hp : p
  · by_cases hq : q
    · rw [if_pos hp, if_pos hq] at h
      exact .inl (Option.some.inj h).symm
    · rw [if_pos hp, if_neg hq] at h
      exact .inr ⟨hp, (Option.some.inj h).symm⟩
  · by_cases hr : r
    · rw [if_neg hp, if_pos hr] at h
      exact .inl (Option.some.inj h).symm
    · rw [if_neg hp, if_neg hr] at h
      cases h

/-- Every decimal inside an interval above zero is above zero itself. -/
theorem digits_pos_of_nearest? {range : Decimal.Interval} {leading : Int} {count : Nat}
    {decimal : Decimal} (hlow : 0 < range.low) (h : range.nearest? leading count = some decimal) :
    0 < decimal.digits := by
  rw [Decimal.Interval.nearest?] at h
  obtain ⟨digits, hchosen, rfl⟩ := Option.map_eq_some_iff.mp h
  have hup : 0 < range.low * Nat.pow 10 (-(leading + 1 - count)).toNat :=
    Nat.mul_pos hlow (Nat.pow_pos (by decide))
  -- The grid point below the number is taken only inside the interval, which lies above zero.
  have hbelow : ∀ {below step : Nat}, (if range.closed = true then
      decide (range.low * Nat.pow 10 (-(leading + 1 - count)).toNat ≤ below * step)
      else decide (range.low * Nat.pow 10 (-(leading + 1 - count)).toNat < below * step)) = true →
      0 < below := by
    intro below step hbefore
    have hpos : 0 < below * step := by
      split at hbefore <;> have := of_decide_eq_true hbefore <;> omega
    exact Nat.pos_of_mul_pos_right hpos
  have hdigits : 0 < digits := by
    rcases eq_or_of_chosen hchosen with rfl | ⟨hhits, rfl⟩
    · exact Nat.succ_pos _
    · exact hbelow hhits
  split
  · exact Nat.one_pos
  · exact hdigits

/-- The shortest decimal of a positive number is positive. -/
theorem digits_pos_of_shortest? {mantissa shift : Nat} {decimal : Decimal} (hm : 0 < mantissa)
    (h : Decimal.shortest? mantissa shift = some decimal) : 0 < decimal.digits := by
  obtain ⟨extra, -, hnearest⟩ := List.exists_of_findSome?_eq_some h
  refine digits_pos_of_nearest? ?_ hnearest
  rw [Decimal.Interval.ofFinite]
  refine Nat.mul_pos ?_ (Nat.pow_pos (by decide))
  split <;> omega

theorem isDigit_of_mem_zeros (count : Nat) : ∀ c ∈ NumberText.zeros count, c.isDigit = true :=
  fun _ hc => by rw [List.eq_of_mem_replicate hc]; rfl

/-! ## Whole numbers -/

/-- The sign of a number. -/
def signText (negative : Bool) : List Char :=
  if negative then ['-'] else []

theorem wholeDigits_eq (n : Int) :
    wholeDigits n = signText (n < 0) ++ Nat.toDigits 10 n.natAbs := by
  rw [wholeDigits, signText]
  by_cases hneg : n < 0
  · simp [hneg]
  · simp [hneg]

/-- The start of a written number: a digit, with or without a sign. -/
def StartsNumber (text : List Char) : Prop :=
  ∃ c rest, c.isDigit = true ∧ (text = c :: rest ∨ text = '-' :: c :: rest)

theorem startsNumber_of_isWhole {whole : List Char} (h : IsWhole whole) (negative : Bool)
    (after : List Char) : StartsNumber (signText negative ++ (whole ++ after)) := by
  obtain ⟨c, rest, rfl, hc⟩ := h.exists_eq_cons
  cases negative with
  | false => exact ⟨c, rest ++ after, hc, .inl rfl⟩
  | true => exact ⟨c, rest ++ after, hc, .inr rfl⟩

section Reading

variable [Platform] {negative : Bool} {whole fraction after unread rest : List Char}

/-- A number is read by its parts. -/
theorem readNumber_of_parts {exponent : Option Int} (hwhole : IsWhole whole)
    (hafter : EndsDigits after) (hfraction : fractionPart after = (fraction, unread))
    (hexponent : exponentPart unread = (exponent, rest)) :
    readNumber (signText negative ++ (whole ++ after)) =
      if fraction.isEmpty && exponent.isNone then
        match Platform.exceeded? whole.length with
        | some limit =>
          failBefore (.longInteger limit whole.length) (signText negative ++ (whole ++ after))
        | none =>
          let size : Int := digitsValue whole
          .ok (.int (if negative then -size else size), rest)
      else
        let exponent := exponent.getD 0 - fraction.length
        .ok (.float (Binary64.ofDecimal negative (digitsValue (whole ++ fraction)) exponent),
          rest) := by
  have hpart := wholePart?_append hwhole hafter
  cases negative with
  | true =>
      rw [signText, if_pos rfl, List.singleton_append]
      unfold readNumber
      cases hlimit : Platform.exceeded? whole.length <;>
        simp only [hpart, hfraction, hexponent, hlimit]
  | false =>
      obtain ⟨c, digits, rfl, hc⟩ := hwhole.exists_eq_cons
      have hsign : ∀ tail, c :: digits ++ after ≠ '-' :: tail := by
        intro tail htail
        cases (List.cons.inj htail).1
        cases hc
      rw [signText, if_neg Bool.false_ne_true, List.nil_append]
      unfold readNumber
      cases hlimit : Platform.exceeded? (c :: digits).length <;>
        simp only [hpart, hfraction, hexponent, hlimit]

/-- A text that is read as one and the same number whatever follows it. -/
structure ReadsNumber (text : List Char) (value : Value) : Prop where
  starts : StartsNumber text
  reads : ∀ rest, EndsNumber rest → readNumber (text ++ rest) = .ok (value, rest)

/-- A whole number that can be written is read back as that number. -/
theorem readsNumber_wholeDigits {n : Int} (hn : Platform.writes n = true) :
    ReadsNumber (wholeDigits n) (.int n) := by
  have hvalue : digitsValue (Nat.toDigits 10 n.natAbs) = n.natAbs :=
    Nat.ofDigitChars_toDigits (by decide) (by decide)
  have hfits : Platform.exceeded? (Nat.toDigits 10 n.natAbs).length = none :=
    Option.isNone_iff_eq_none.mp hn
  have hsize : (if decide (n < 0) = true then -(n.natAbs : Int) else n.natAbs) = n := by
    by_cases hneg : n < 0
    · rw [if_pos (decide_eq_true hneg)]
      omega
    · rw [if_neg (by simpa using hneg)]
      omega
  rw [wholeDigits_eq, ← List.append_nil (Nat.toDigits 10 n.natAbs)]
  refine ⟨startsNumber_of_isWhole (isWhole_toDigits _) _ _, fun rest hrest => ?_⟩
  rw [List.append_nil, List.append_assoc, readNumber_of_parts (isWhole_toDigits _)
    hrest.endsDigits (fractionPart_of_ne fun c hc => (hrest c hc).2.1) (exponentPart_eq hrest)]
  simp only [List.isEmpty_nil, Option.isNone_none, Bool.and_self, if_true, hfits, hvalue, hsize]

/-- A text that is read as some binary64 number. -/
def ReadsFloat (text : List Char) : Prop :=
  ∃ number, ReadsNumber text (.float number)

theorem readsFloat_pointed (hwhole : IsWhole whole) (hne : fraction ≠ [])
    (hfraction : ∀ c ∈ fraction, c.isDigit = true) :
    ReadsFloat (signText negative ++ (whole ++ '.' :: fraction)) := by
  refine ⟨.ofDecimal negative (digitsValue (whole ++ fraction)) (0 - fraction.length),
    startsNumber_of_isWhole hwhole _ _, fun rest hrest => ?_⟩
  rw [List.append_assoc, List.append_assoc, List.cons_append, readNumber_of_parts hwhole
    (endsDigits_cons (by decide) _) (fractionPart_append hne hfraction hrest.endsDigits)
    (exponentPart_eq hrest), if_neg (by simp [hne])]
  rfl

/-- With an exponent a number is read as binary64, whether it has a fraction or not. -/
theorem readsFloat_scaled (hwhole : IsWhole whole) (hfraction : ∀ c ∈ fraction, c.isDigit = true)
    {sign : Char} (hsign : sign = '+' ∨ sign = '-') {size : List Char} (hne : size ≠ [])
    (hsize : ∀ c ∈ size, c.isDigit = true) :
    ReadsFloat (signText negative ++ (whole ++
      ((if fraction = [] then [] else '.' :: fraction) ++ 'e' :: sign :: size))) := by
  refine ⟨.ofDecimal negative (digitsValue (whole ++ fraction))
    ((if sign = '-' then -(digitsValue size : Int) else digitsValue size) - fraction.length),
    startsNumber_of_isWhole hwhole _ _, fun rest hrest => ?_⟩
  have hexponent := exponentPart_append hsign hne hsize hrest.endsDigits
  have hend : EndsDigits ('e' :: sign :: (size ++ rest)) := endsDigits_cons (by decide) _
  by_cases hempty : fraction = []
  · subst hempty
    have hnone : fractionPart ('e' :: sign :: (size ++ rest)) =
        ([], 'e' :: sign :: (size ++ rest)) :=
      fractionPart_of_ne fun c hc => by
        cases hc
        decide
    rw [if_pos rfl, List.nil_append, List.append_assoc, List.append_assoc, List.cons_append,
      List.cons_append, readNumber_of_parts hwhole hend hnone hexponent, if_neg (by simp)]
    rfl
  · rw [if_neg hempty, List.append_assoc, List.append_assoc, List.append_assoc, List.cons_append,
      List.cons_append, List.cons_append, readNumber_of_parts hwhole
        (endsDigits_cons (by decide) _) (fractionPart_append hempty hfraction hend) hexponent,
      if_neg (by simp)]
    rfl

/-! ## Binary64 numbers -/

/-- However a decimal is laid out, it has a point or an exponent and is read as binary64. -/
theorem readsFloat_layout {decimal : Decimal} (h : 0 < decimal.digits ∨ decimal = ⟨0, 0⟩) :
    ReadsFloat (signText negative ++ NumberText.json.layout decimal) := by
  rcases h with hpos | rfl
  · obtain ⟨c, digits, hcons, hc⟩ := exists_toDigits_eq_cons hpos
    have hall : ∀ d ∈ c :: digits, d.isDigit = true := hcons ▸ isDigit_of_mem_toDigits _
    have hrest : ∀ d ∈ digits, d.isDigit = true := (List.forall_mem_cons.mp hall).2
    have hwhole : ∀ more, (∀ d ∈ more, d.isDigit = true) → IsWhole (c :: more) := fun more hmore =>
      ⟨List.forall_mem_cons.mpr ⟨hall c List.mem_cons_self, hmore⟩, .inr ⟨c, more, rfl, hc⟩⟩
    rw [NumberText.layout]
    simp only [hcons]
    split
    · split
      · -- Zeros up to the point.
        exact readsFloat_pointed
          (hwhole _ (List.forall_mem_append.mpr ⟨hrest, isDigit_of_mem_zeros _⟩))
          (List.cons_ne_nil '0' []) (List.forall_mem_singleton.mpr rfl)
      · next hexponent =>
        split
        · -- The point stands between two digits.
          next hleading =>
          rw [List.take_succ_cons, List.drop_succ_cons]
          refine readsFloat_pointed (hwhole _ fun d hd => hrest d (List.mem_of_mem_take hd)) ?_
            fun d hd => hrest d (List.mem_of_mem_drop hd)
          rw [Ne, List.drop_eq_nil_iff]
          rw [List.length_cons] at hleading ⊢
          omega
        · -- A zero in front of the point, and zeros behind it.
          exact readsFloat_pointed (isWhole_toDigits 0) (by simp)
            (List.forall_mem_append.mpr ⟨isDigit_of_mem_zeros _, hall⟩)
    · -- One digit in front of the point, and an exponent.
      have hfraction : (if (c :: digits).length = 1 then [] else '.' :: (c :: digits).drop 1) =
          if digits = [] then [] else '.' :: digits := by
        simp
      rw [hfraction, List.take_succ_cons, List.take_zero]
      simp only [List.append_assoc, List.cons_append, List.nil_append]
      refine readsFloat_scaled (hwhole [] (List.forall_mem_nil _)) hrest ?_ ?_ ?_
      · split
        · exact .inr rfl
        · exact .inl rfl
      · simp [Nat.toDigits_ne_nil]
      · exact List.forall_mem_append.mpr ⟨isDigit_of_mem_zeros _, isDigit_of_mem_toDigits _⟩
  · exact readsFloat_pointed (isWhole_toDigits 0) (List.cons_ne_nil '0' [])
      (List.forall_mem_singleton.mpr rfl)

theorem readsFloat_finite (negative : Bool) (mantissa shift : Nat) :
    ReadsFloat (NumberText.json.text (.finite negative mantissa shift)).toList := by
  have hsign : (if negative = true then "-" else "").toList = signText negative := by
    cases negative <;> rfl
  rw [NumberText.text]
  simp only
  split
  · rw [String.toList_append, hsign]
    exact readsFloat_pointed (isWhole_toDigits 0) (List.cons_ne_nil '0' [])
      (List.forall_mem_singleton.mpr rfl)
  · next hm =>
    rw [String.toList_append, hsign, String.toList_ofList]
    refine readsFloat_layout ?_
    cases hshortest : Decimal.shortest? mantissa shift with
    | none => exact .inr rfl
    | some decimal => exact .inl (digits_pos_of_shortest? (Nat.pos_of_ne_zero hm) hshortest)

end Reading

end SchemaModel.Json
