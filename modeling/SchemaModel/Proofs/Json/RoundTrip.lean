import SchemaModel.Json.Writer
import SchemaModel.Proofs.Json.Numbers
import SchemaModel.Proofs.Json.Reader

/-!
# Written text reads back

Data made of nulls, flags, whole numbers, texts, arrays and objects are read back exactly, on a line
as on a page, whatever the texts hold.  A character of a text is written as itself, as a short
escape, or by the numbers of its UTF-16 units, and each of these is read back with anything after
it; the elements and entries follow one by one, and a layout puts nothing but blanks between them.
-/

namespace SchemaModel.Json

/-! ## Strings -/

theorem hexValue?_hexDigit (n : Nat) : hexValue? (Text.hexDigit n) = some (n % 16) := by
  have hall : ∀ d < 16, hexValue? (Nat.digitChar d) = some d := by decide
  exact hall _ (Nat.mod_lt n (by decide))

theorem unitEscape_eq (unit : Nat) :
    unitEscape unit = ['\\', 'u', Text.hexDigit (unit / 16 / 16 / 16),
      Text.hexDigit (unit / 16 / 16), Text.hexDigit (unit / 16), Text.hexDigit unit] := rfl

theorem unitValue?_hexDigits {unit : Nat} (h : unit < 0x10000) :
    unitValue? (Text.hexDigit (unit / 16 / 16 / 16)) (Text.hexDigit (unit / 16 / 16))
      (Text.hexDigit (unit / 16)) (Text.hexDigit unit) = some unit := by
  simp only [unitValue?, hexValue?_hexDigit, bind, Option.bind, pure, Option.some.injEq]
  omega

section Strings

variable {opening : Nat} {rest : List Char}

theorem readString_unit {a b c d after : Char} {unit : Nat}
    (hvalue : unitValue? a b c d = some unit) (hhigh : isHighSurrogate unit = false) :
    readString opening ('\\' :: 'u' :: a :: b :: c :: d :: after :: rest) =
      (readString opening (after :: rest)).push (.ofCode unit) := by
  rw [readString.eq_def]
  split <;> grind

theorem readString_pair {a b c d e f g h after : Char} {high low : Nat}
    (hhigh : unitValue? a b c d = some high) (hlow : unitValue? e f g h = some low)
    (hishigh : isHighSurrogate high = true) (hislow : isLowSurrogate low = true) :
    readString opening ('\\' :: 'u' :: a :: b :: c :: d :: '\\' :: 'u' :: e :: f :: g :: h ::
      after :: rest) = (readString opening (after :: rest)).push (.char (pairChar high low)) := by
  rw [readString.eq_def]
  simp only [hhigh, hlow, hishigh, hislow, if_true]

theorem readString_short {c short : Char} (h : shortEscape? c = some short) :
    readString opening ('\\' :: short :: rest) = (readString opening rest).push (.char c) := by
  unfold shortEscape? at h
  split at h
  case h_8 => cases h
  all_goals
    cases h
    rw [readString.eq_def]
    simp [unescape?]

theorem readString_raw {c : Char} (hshort : shortEscape? c = none) (hc : 0x20 ≤ c.toNat) :
    readString opening (c :: rest) = (readString opening rest).push (.char c) := by
  have hquote : c ≠ '"' := by
    rintro rfl
    cases hshort
  have hslash : c ≠ '\\' := by
    rintro rfl
    cases hshort
  rw [readString.eq_def]
  split <;> grind

/-- A character is written as one unit or as a pair of them, and read back as one. -/
theorem readString_numberEscape (c : Char) (hrest : rest ≠ []) :
    readString opening (numberEscape c ++ rest) = (readString opening rest).push (.char c) := by
  obtain ⟨after, rest, rfl⟩ := List.exists_cons_of_ne_nil hrest
  have hvalid : c.toNat < 0xd800 ∨ 0xdfff < c.toNat ∧ c.toNat < 0x110000 := c.valid
  rw [numberEscape]
  simp only
  split
  · -- One unit, and no surrogate, since it is the number of a character.
    next hsmall =>
    have hhigh : isHighSurrogate c.toNat = false := by
      simp only [isHighSurrogate, Bool.and_eq_false_iff, decide_eq_false_iff_not]
      omega
    have hchar : Point.ofCode c.toNat = .char c := Point.ofCode_code (.char c)
    rw [unitEscape_eq]
    refine (readString_unit (unitValue?_hexDigits hsmall) hhigh).trans ?_
    rw [hchar]
  · -- Two units, from which the number is put together again.
    next hlarge =>
    have hhigh : isHighSurrogate (0xd800 + (c.toNat - 0x10000) / 0x400) = true := by
      simp only [isHighSurrogate, Bool.and_eq_true, decide_eq_true_eq]
      omega
    have hlow : isLowSurrogate (0xdc00 + (c.toNat - 0x10000) % 0x400) = true := by
      simp only [isLowSurrogate, Bool.and_eq_true, decide_eq_true_eq]
      omega
    have hchar : pairChar (0xd800 + (c.toNat - 0x10000) / 0x400)
        (0xdc00 + (c.toNat - 0x10000) % 0x400) = c := by
      have hcode : 0x10000 + (0xd800 + (c.toNat - 0x10000) / 0x400 - 0xd800) * 0x400 +
          (0xdc00 + (c.toNat - 0x10000) % 0x400 - 0xdc00) = c.toNat := by
        omega
      rw [pairChar, hcode, Char.ofNat_toNat]
    rw [unitEscape_eq, unitEscape_eq]
    refine (readString_pair (unitValue?_hexDigits ?_) (unitValue?_hexDigits ?_) hhigh hlow).trans ?_
    · omega
    · omega
    · rw [hchar]

variable {raw : Char → Bool} (hraw : ∀ c, raw c = true → 0x20 ≤ c.toNat)

include hraw

theorem readString_charText (c : Char) (hrest : rest ≠ []) :
    readString opening (charText raw c ++ rest) = (readString opening rest).push (.char c) := by
  rw [charText]
  split
  · next short hshort => exact readString_short hshort
  · next hshort =>
    split
    · next hkept => exact readString_raw hshort (hraw c hkept)
    · exact readString_numberEscape c hrest

/-- A string is read back character by character, up to its closing quote. -/
theorem readString_flatMap_charText (text : List Char) :
    readString opening (text.flatMap (charText raw) ++ '"' :: rest) =
      .ok (text.map .char, rest) := by
  induction text with
  | nil =>
      rw [List.flatMap_nil, List.nil_append, readString]
      rfl
  | cons c text ih =>
      rw [List.flatMap_cons, List.append_assoc, readString_charText hraw c (by simp), ih]
      rfl

end Strings

/-- The string form of a text without halves. -/
theorem stringText_plain (raw : Char → Bool) (text : String) :
    stringText raw text = '"' :: (text.toList.flatMap (charText raw) ++ ['"']) := by
  rw [stringText, Text.points_plain, List.flatMap_map]
  rfl

theorem ofPoints_toList (text : String) : Text.ofPoints (text.toList.map .char) = text :=
  Text.ofPoints_points (.plain text)

/-! ## Layouts -/

/-- What a layout may do: it keeps no control character and puts only blanks between parts. -/
structure Layout.Sound (layout : Layout) : Prop where
  raw : ∀ c, layout.raw c = true → 0x20 ≤ c.toNat
  first : ∀ depth, ∀ c ∈ layout.first depth, isBlank c = true
  next : ∀ depth, ∀ c ∈ layout.next depth, isBlank c = true
  last : ∀ depth, ∀ c ∈ layout.last depth, isBlank c = true

theorem sound_lineLayout : lineLayout.Sound where
  raw c h := by
    simp only [lineLayout, rawInLine, Bool.and_eq_true, decide_eq_true_eq] at h
    exact h.1
  first _ := List.forall_mem_nil _
  next _ := List.forall_mem_singleton.mpr rfl
  last _ := List.forall_mem_nil _

theorem isBlank_of_mem_newLine (depth : Nat) : ∀ c ∈ newLine depth, isBlank c = true := by
  intro c hc
  rcases List.mem_cons.mp hc with rfl | hc
  · rfl
  · rw [List.eq_of_mem_replicate hc]
    rfl

theorem sound_pageLayout : pageLayout.Sound where
  raw c h := by simpa [pageLayout, rawInPage] using h
  first := isBlank_of_mem_newLine
  next := isBlank_of_mem_newLine
  last := isBlank_of_mem_newLine

section Parts

variable {layout : Layout} {depth : Nat}

theorem formItems_cons (item : Value) {items : List Value} (hne : items ≠ []) :
    formItems layout depth (item :: items) = form layout depth item ++
      ',' :: (layout.next depth ++ formItems layout depth items) := by
  obtain ⟨next, items, rfl⟩ := List.exists_cons_of_ne_nil hne
  rw [formItems, List.append_assoc, List.cons_append]
  exact List.cons_ne_nil next items

theorem formEntries_cons (key : Key) (value : Value) {entries : List (Key × Value)}
    (hne : entries ≠ []) :
    formEntries layout depth ((key, value) :: entries) =
      entryText layout key (form layout depth value) ++
        ',' :: (layout.next depth ++ formEntries layout depth entries) := by
  obtain ⟨entry, entries, rfl⟩ := List.exists_cons_of_ne_nil hne
  rw [formEntries, List.append_assoc, List.cons_append]
  exact List.cons_ne_nil entry entries

theorem form_of_items?_nil {value : Value} (h : value.items? = some []) :
    form layout depth value = ['[', ']'] := by
  cases value <;> cases h <;> rfl

theorem form_of_items? {value : Value} {items : List Value} (h : value.items? = some items)
    (hne : items ≠ []) : form layout depth value = '[' :: layout.first (depth + 1) ++
      formItems layout (depth + 1) items ++ layout.last depth ++ [']'] := by
  obtain ⟨item, items, rfl⟩ := List.exists_cons_of_ne_nil hne
  cases value <;> cases h <;> rfl

variable (layout depth) in
/-- The entries of an object start with a quote. -/
theorem exists_formEntries_eq_cons {entries : List (Key × Value)} (hne : entries ≠ []) :
    ∃ text, formEntries layout depth entries = '"' :: text := by
  obtain ⟨⟨key, value⟩, entries, rfl⟩ := List.exists_cons_of_ne_nil hne
  rcases eq_or_ne entries [] with rfl | hmore
  · exact ⟨_, by rw [formEntries, entryText, stringText]; rfl⟩
  · exact ⟨_, by rw [formEntries_cons key value hmore, entryText, stringText]; rfl⟩

end Parts

section Blanks

variable {blanks : List Char} (hblanks : ∀ c ∈ blanks, isBlank c = true)

include hblanks

theorem skipBlanks_append (text : List Char) : skipBlanks (blanks ++ text) = skipBlanks text := by
  rw [skipBlanks, skipBlanks, List.dropWhile_append_of_pos hblanks]

theorem endsNumber_append {rest : List Char} (hrest : EndsNumber rest) :
    EndsNumber (blanks ++ rest) := by
  cases blanks with
  | nil => exact hrest
  | cons c blanks =>
      have hblank := hblanks c List.mem_cons_self
      simp only [isBlank, Bool.or_eq_true, decide_eq_true_eq] at hblank
      rcases hblank with ((rfl | rfl) | rfl) | rfl <;> exact endsNumber_cons (by decide) _

end Blanks

theorem skipBlanks_cons {c : Char} (h : isBlank c = false) (text : List Char) :
    skipBlanks (c :: text) = c :: text := by
  rw [skipBlanks, List.dropWhile_cons, h]
  rfl

/-- What a written value does not start with: a blank, a closing bracket or a byte order mark. -/
def StartsValue (text : List Char) : Prop :=
  ∃ c rest, text = c :: rest ∧ isBlank c = false ∧ c ≠ ']' ∧ c ≠ '\ufeff'

theorem StartsNumber.startsValue {text : List Char} (h : StartsNumber text) : StartsValue text := by
  obtain ⟨c, rest, hc, rfl | rfl⟩ := h
  · refine ⟨c, rest, rfl, ?_, ?_, ?_⟩
    · rw [Bool.eq_false_iff]
      intro hblank
      simp only [isBlank, Bool.or_eq_true, decide_eq_true_eq] at hblank
      rcases hblank with ((rfl | rfl) | rfl) | rfl <;> cases hc
    · rintro rfl
      cases hc
    · rintro rfl
      cases hc
  · exact ⟨'-', _, rfl, by decide⟩

theorem StartsValue.skipBlanks_eq {text : List Char} (h : StartsValue text) (after : List Char) :
    skipBlanks (text ++ after) = text ++ after := by
  obtain ⟨c, rest, rfl, hblank, -⟩ := h
  rw [List.cons_append, skipBlanks_cons hblank]

/-! ## Values -/

variable [Platform] {rest : List Char}

section Forms

variable {layout : Layout}

/-- A written value is read as a value, whatever follows that is no part of a number. -/
def ReadsAs (layout : Layout) (value found : Value) : Prop :=
  ∀ depth fuel rest, (form layout depth value).length < fuel → EndsNumber rest →
    readValue fuel (form layout depth value ++ rest) = .ok (found, rest)

/-- What starts like a number is read as one. -/
theorem readValue_eq_readNumber {fuel : Nat} {text : List Char} (h : StartsNumber text) :
    readValue (fuel + 1) (text ++ rest) = readNumber (text ++ rest) := by
  obtain ⟨c, after, hc, rfl | rfl⟩ := h
  · unfold readValue
    split
    case h_10 => rfl
    all_goals
      next heq =>
        cases (List.cons.inj heq).1
        cases hc
  · unfold readValue
    split
    case h_10 => rfl
    case h_9 heq =>
      cases (List.cons.inj (List.cons.inj heq).2).1
      cases hc
    all_goals
      next heq => cases (List.cons.inj heq).1

theorem ReadsNumber.readsAs {text : List Char} {value found : Value} (h : ReadsNumber text found)
    (hform : ∀ depth, form layout depth value = text) : ReadsAs layout value found := by
  intro depth fuel rest hfuel hrest
  obtain ⟨fuel, rfl⟩ : ∃ k, fuel = k + 1 := Nat.exists_eq_add_one.mpr (by omega)
  rw [hform, readValue_eq_readNumber h.starts, h.reads rest hrest]

theorem readsAs_null : ReadsAs layout .null .null := by
  intro depth fuel rest hfuel hrest
  obtain ⟨fuel, rfl⟩ : ∃ k, fuel = k + 1 := Nat.exists_eq_add_one.mpr (by omega)
  rfl

theorem readsAs_bool (flag : Bool) : ReadsAs layout (.bool flag) (.bool flag) := by
  intro depth fuel rest hfuel hrest
  obtain ⟨fuel, rfl⟩ : ∃ k, fuel = k + 1 := Nat.exists_eq_add_one.mpr (by omega)
  cases flag <;> rfl

omit [Platform] in
theorem form_nan (depth mark : Nat) : form layout depth (.float (.nan mark)) = "NaN".toList :=
  rfl

variable (layout) in
/-- A binary64 number is read as one. -/
theorem exists_readsAs_float (x : Binary64) : ∃ y, ReadsAs layout (.float x) (.float y) := by
  cases x with
  | finite negative mantissa shift =>
      obtain ⟨y, hy⟩ := readsFloat_finite negative mantissa shift
      exact ⟨y, hy.readsAs fun _ => rfl⟩
  | infinite negative =>
      refine ⟨.infinite negative, fun depth fuel rest hfuel hrest => ?_⟩
      obtain ⟨fuel, rfl⟩ : ∃ k, fuel = k + 1 := Nat.exists_eq_add_one.mpr (by omega)
      cases negative <;> rfl
  | nan mark =>
      refine ⟨.nan 0, fun depth fuel rest hfuel hrest => ?_⟩
      obtain ⟨fuel, rfl⟩ : ∃ k, fuel = k + 1 := Nat.exists_eq_add_one.mpr (by omega)
      rw [form_nan]
      rfl

/-- No written value starts with a blank, a closing bracket or a byte order mark. -/
theorem startsValue_form (layout : Layout) (depth : Nat) (value : Value) :
    StartsValue (form layout depth value) := by
  match value with
  | .null | .foreign _ => exact ⟨'n', _, rfl, by decide⟩
  | .bool true => exact ⟨'t', _, rfl, by decide⟩
  | .bool false => exact ⟨'f', _, rfl, by decide⟩
  | .int n =>
      have hstart := startsNumber_of_isWhole (isWhole_toDigits n.natAbs) (n < 0) []
      rw [List.append_nil, ← wholeDigits_eq] at hstart
      exact hstart.startsValue
  | .float (.finite negative mantissa shift) =>
      obtain ⟨y, hy⟩ := readsFloat_finite negative mantissa shift
      exact hy.starts.startsValue
  | .float (.infinite true) => exact ⟨'-', _, rfl, by decide⟩
  | .float (.infinite false) => exact ⟨'I', _, rfl, by decide⟩
  | .float (.nan mark) => exact ⟨'N', _, form_nan depth mark, by decide⟩
  | .str _ => exact ⟨'"', _, rfl, by decide⟩
  | .list [] | .list (_ :: _) | .tuple [] | .tuple (_ :: _) => exact ⟨'[', _, rfl, by decide⟩
  | .mapping _ [] | .mapping _ (_ :: _) => exact ⟨'\x7b', _, rfl, by decide⟩

/-! ## Arrays and objects -/

theorem startsValue_formItems (layout : Layout) (depth : Nat) {items : List Value}
    (hne : items ≠ []) : StartsValue (formItems layout depth items) := by
  obtain ⟨item, items, rfl⟩ := List.exists_cons_of_ne_nil hne
  rcases eq_or_ne items [] with rfl | hmore
  · rw [formItems]
    exact startsValue_form layout depth item
  · obtain ⟨c, rest, hcons, hstart⟩ := startsValue_form layout depth item
    exact ⟨c, _, by rw [formItems_cons item hmore, hcons, List.cons_append], hstart⟩

variable (sound : layout.Sound)

include sound

theorem readsAs_str (text : String) : ReadsAs layout (.str text) (.str text) := by
  intro depth fuel rest hfuel hrest
  obtain ⟨fuel, rfl⟩ : ∃ k, fuel = k + 1 := Nat.exists_eq_add_one.mpr (by omega)
  rw [show form layout depth (.str text) = stringText layout.raw text from rfl, stringText_plain,
    List.cons_append, List.append_assoc, List.singleton_append]
  unfold readValue
  simp only [readString_flatMap_charText sound.raw, Except.map, ofPoints_toList]

/-- The elements of an array are read up to its closing bracket. -/
theorem readItems_formItems {items found : List Value} (hne : items ≠ [])
    (h : List.Forall₂ (ReadsAs layout) items found) (depth outer fuel : Nat)
    (hfuel : (formItems layout depth items).length + 1 < fuel) (rest : List Char) :
    readItems fuel (formItems layout depth items ++ (layout.last outer ++ ']' :: rest)) =
      .ok (found, rest) := by
  induction h generalizing fuel with
  | nil => exact absurd rfl hne
  | @cons item read items others hread hothers ih =>
      obtain ⟨fuel, rfl⟩ : ∃ k, fuel = k + 1 := Nat.exists_eq_add_one.mpr (by omega)
      rcases eq_or_ne items [] with rfl | hmore
      · cases hothers
        rw [formItems] at hfuel ⊢
        have hend := endsNumber_append (sound.last outer)
          (endsNumber_cons (c := ']') (by decide) rest)
        rw [readItems, hread depth fuel _ (by omega) hend]
        simp only [bind, Except.bind, skipBlanks_append (sound.last outer),
          skipBlanks_cons (c := ']') rfl]
      · rw [formItems_cons item hmore] at hfuel ⊢
        simp only [List.length_append, List.length_cons] at hfuel
        rw [List.append_assoc, List.cons_append, readItems,
          hread depth fuel _ (by omega) (endsNumber_cons (by decide) _)]
        simp only [bind, Except.bind, skipBlanks_cons (c := ',') rfl]
        rw [List.append_assoc, skipBlanks_append (sound.next depth),
          (startsValue_formItems layout depth hmore).skipBlanks_eq, ih hmore fuel (by omega)]

/-- An array is read element by element, behind its opening bracket. -/
theorem readValue_formItems {items found : List Value} (hne : items ≠ [])
    (h : List.Forall₂ (ReadsAs layout) items found) (depth fuel : Nat)
    (hfuel : (formItems layout (depth + 1) items).length + 1 < fuel) (rest : List Char) :
    readValue (fuel + 1) ('[' :: layout.first (depth + 1) ++ formItems layout (depth + 1) items ++
      layout.last depth ++ [']'] ++ rest) = .ok (.list found, rest) := by
  have hread := readItems_formItems sound hne h (depth + 1) depth fuel hfuel rest
  obtain ⟨c, text, hcons, hblank, hc, -⟩ := startsValue_formItems layout (depth + 1) hne
  rw [hcons] at hread ⊢
  simp only [List.cons_append, List.append_assoc, List.nil_append] at hread ⊢
  unfold readValue
  simp only [skipBlanks_append (sound.first (depth + 1)), skipBlanks_cons hblank]
  split
  · next heq => exact absurd (List.cons.inj heq).1 hc
  · rw [hread]
    rfl

/-- A tuple is read as a list, like a list. -/
theorem readsAs_array {value : Value} {items found : List Value}
    (hvalue : value.items? = some items) (h : List.Forall₂ (ReadsAs layout) items found) :
    ReadsAs layout value (.list found) := by
  intro depth fuel rest hfuel hrest
  obtain ⟨fuel, rfl⟩ : ∃ k, fuel = k + 1 := Nat.exists_eq_add_one.mpr (by omega)
  rcases eq_or_ne items [] with rfl | hne
  · rw [form_of_items?_nil hvalue]
    cases h
    rfl
  · rw [form_of_items? hvalue hne] at hfuel ⊢
    simp only [List.length_append, List.length_cons] at hfuel
    exact readValue_formItems sound hne h depth fuel (by omega) rest

/-- A written entry is read as an entry with a name. -/
def EntryReadsAs (layout : Layout) (entry found : Key × Value) : Prop :=
  (∃ name : String, keyName entry.1 = name ∧ found.1 = .str name) ∧
    ReadsAs layout entry.2 found.2

/-- Behind an entry the text goes on with the next entry or ends the object. -/
theorem readMembers_entryText {entry found : Key × Value} (h : EntryReadsAs layout entry found)
    {fuel depth : Nat} (hfuel : (form layout depth entry.2).length < fuel)
    (hrest : EndsNumber rest) :
    readMembers (fuel + 1) (entryText layout entry.1 (form layout depth entry.2) ++ rest) =
      match skipBlanks rest with
      | '}' :: rest => .ok ([found], rest)
      | ',' :: rest => do
        let (entries, rest) ← readMembers fuel (skipBlanks rest)
        .ok (found :: entries, rest)
      | rest => failBefore .comma rest := by
  obtain ⟨key, value⟩ := entry
  obtain ⟨_, read⟩ := found
  obtain ⟨⟨name, hname, rfl⟩, hread⟩ := h
  have hblank : skipBlanks (' ' :: (form layout depth value ++ rest)) =
      form layout depth value ++ rest := by
    rw [skipBlanks, List.dropWhile_cons_of_pos rfl]
    exact (startsValue_form layout depth value).skipBlanks_eq rest
  rw [entryText, hname, stringText_plain]
  simp only [List.cons_append, List.append_assoc, List.nil_append]
  rw [readMembers, readString_flatMap_charText sound.raw]
  simp only [bind, Except.bind, skipBlanks_cons (c := ':') rfl]
  rewrite [hblank, hread depth fuel rest hfuel hrest, ofPoints_toList]
  rfl

/-- The entries of an object are read up to its closing brace. -/
theorem readMembers_formEntries {entries found : List (Key × Value)} (hne : entries ≠ [])
    (h : List.Forall₂ (EntryReadsAs layout) entries found) (depth outer fuel : Nat)
    (hfuel : (formEntries layout depth entries).length + 1 < fuel) (rest : List Char) :
    readMembers fuel (formEntries layout depth entries ++ (layout.last outer ++ '}' :: rest)) =
      .ok (found, rest) := by
  induction h generalizing fuel with
  | nil => exact absurd rfl hne
  | @cons entry read entries others hread hothers ih =>
      obtain ⟨fuel, rfl⟩ : ∃ k, fuel = k + 1 := Nat.exists_eq_add_one.mpr (by omega)
      rcases eq_or_ne entries [] with rfl | hmore
      · cases hothers
        rw [formEntries] at hfuel ⊢
        have hend := endsNumber_append (sound.last outer)
          (endsNumber_cons (c := '}') (by decide) rest)
        rw [entryText, List.length_append, List.length_cons, List.length_cons] at hfuel
        rw [readMembers_entryText sound hread (by omega) hend]
        simp only [skipBlanks_append (sound.last outer), skipBlanks_cons (c := '}') rfl]
      · obtain ⟨text, hquote⟩ := exists_formEntries_eq_cons layout depth hmore
        have hskip : ∀ after, skipBlanks (formEntries layout depth entries ++ after) =
            formEntries layout depth entries ++ after := by
          intro after
          rw [hquote, List.cons_append, skipBlanks_cons rfl]
        rw [formEntries_cons entry.1 entry.2 hmore] at hfuel ⊢
        simp only [entryText, List.length_append, List.length_cons] at hfuel
        rw [List.append_assoc, List.cons_append, readMembers_entryText sound hread
          (by omega) (endsNumber_cons (by decide) _)]
        simp only [skipBlanks_cons (c := ',') rfl]
        rw [List.append_assoc, skipBlanks_append (sound.next depth), hskip,
          ih hmore fuel (by omega)]
        rfl

/-- A mapping is read as a dictionary, in which a later entry of one name replaces an earlier. -/
theorem readsAs_mapping (kind : MappingForm) {entries found : List (Key × Value)}
    (h : List.Forall₂ (EntryReadsAs layout) entries found) :
    ReadsAs layout (.mapping kind entries) (.mapping .dict (Entries.ofPairs found)) := by
  intro depth fuel rest hfuel hrest
  obtain ⟨fuel, rfl⟩ : ∃ k, fuel = k + 1 := Nat.exists_eq_add_one.mpr (by omega)
  rcases eq_or_ne entries [] with rfl | hne
  · cases h
    rfl
  · have hform : form layout depth (.mapping kind entries) = '\x7b' :: layout.first (depth + 1) ++
        formEntries layout (depth + 1) entries ++ layout.last depth ++ ['\x7d'] := by
      rw [form]
      simp [hne]
    obtain ⟨text, hquote⟩ := exists_formEntries_eq_cons layout (depth + 1) hne
    rw [hform] at hfuel ⊢
    simp only [List.length_append, List.length_cons] at hfuel
    have hread := readMembers_formEntries sound hne h (depth + 1) depth fuel (by omega) rest
    rw [hquote] at hread ⊢
    simp only [List.cons_append, List.append_assoc, List.nil_append] at hread ⊢
    unfold readValue
    simp only [skipBlanks_append (sound.first (depth + 1)), skipBlanks_cons (c := '"') rfl]
    split
    · next heq => exact absurd (List.cons.inj heq).1 (by decide)
    · rw [hread]
      rfl

end Forms

/-! ## Documents -/

/-- A written document is read, with blanks after it. -/
theorem readDocument_form {layout : Layout} {value found : Value} (h : ReadsAs layout value found)
    {blanks : List Char} (hblanks : ∀ c ∈ blanks, isBlank c = true) :
    readDocument (form layout 0 value ++ blanks) = .ok found := by
  obtain ⟨c, text, hcons, -, -, hmark⟩ := startsValue_form layout 0 value
  have hhead : ¬ (form layout 0 value ++ blanks).head? = some '\ufeff' := by
    rw [hcons]
    exact fun heq => hmark (Option.some.inj heq)
  have hend : EndsNumber blanks := by
    rw [← List.append_nil blanks]
    exact endsNumber_append hblanks nofun
  have hskip : skipBlanks blanks = [] := by
    rw [← List.append_nil blanks, skipBlanks_append hblanks]
    rfl
  have hvalue := h 0 (2 * (form layout 0 value ++ blanks).length + 2) blanks
    (by rw [List.length_append]; omega) hend
  rw [readDocument, if_neg hhead, (startsValue_form layout 0 value).skipBlanks_eq]
  simp only [hvalue, bind, Except.bind, hskip]

theorem read_lineText {value found : Value} (h : ReadsAs lineLayout value found) :
    read (lineText value) = .ok found := by
  have hdocument := readDocument_form h (List.forall_mem_nil _)
  rw [List.append_nil] at hdocument
  rw [read, lineText, String.toList_ofList, hdocument]
  rfl

/-- A page may end with a line end. -/
theorem read_pageText {value found : Value} (h : ReadsAs pageLayout value found) :
    read (pageText value ++ "\n") = .ok found := by
  have htext : (pageText value ++ "\n").toList = form pageLayout 0 value ++ ['\n'] := by
    rw [String.toList_append, pageText, String.toList_ofList]
    rfl
  rw [read, htext, readDocument_form h (List.forall_mem_singleton.mpr rfl)]
  rfl

/-! ## Whatever is written -/

omit [Platform] in
theorem itemsPlain_iff {items : List Value} :
    Value.itemsPlain items = true ↔ ∀ item ∈ items, item.isPlain = true := by
  induction items with
  | nil => simp [Value.itemsPlain]
  | cons item items ih => simp [Value.itemsPlain, ih]

omit [Platform] in
theorem entriesPlain_iff {entries : List (Key × Value)} :
    Value.entriesPlain entries = true ↔
      ∀ entry ∈ entries, entry.1.isPlain = true ∧ entry.2.isPlain = true := by
  induction entries with
  | nil => simp [Value.entriesPlain]
  | cons entry entries ih => simp [Value.entriesPlain, ih]

omit [Platform] in
/-- The name under which a plain key is written has no halves of pairs. -/
theorem exists_keyName_eq {key : Key} (h : key.isPlain = true) :
    ∃ name : String, keyName key = name := by
  cases key with
  | str text =>
      cases text with
      | plain name => exact ⟨name, rfl⟩
      | broken points halved => cases h
  | bool flag => cases flag <;> exact ⟨_, rfl⟩
  | _ => exact ⟨_, rfl⟩

omit [Platform] in
theorem isPlain_ofPairs {pairs : List (Key × Value)}
    (h : ∀ pair ∈ pairs, pair.1.isPlain = true ∧ pair.2.isPlain = true) :
    (Value.mapping .dict (Entries.ofPairs pairs)).isPlain = true := by
  rw [Value.isPlain, entriesPlain_iff]
  have hkeys := Entries.forall_key_ofPairs (p := (·.isPlain = true)) fun pair hpair =>
    (h pair hpair).1
  intro entry hentry
  obtain ⟨key, hpair⟩ := Entries.mem_of_mem_ofPairs hentry
  exact ⟨hkeys entry hentry, (h _ hpair).2⟩

theorem exists_readsAs_array {layout : Layout} (sound : layout.Sound) {value : Value}
    {items : List Value} (hvalue : value.items? = some items)
    (hitems : ∀ item ∈ items, ∃ found, found.isPlain = true ∧ ReadsAs layout item found) :
    ∃ found, found.isPlain = true ∧ ReadsAs layout value found := by
  obtain ⟨found, hfound⟩ := exists_forall₂ hitems
  refine ⟨.list found, ?_, readsAs_array sound hvalue (hfound.imp fun _ _ h => h.2)⟩
  rw [Value.isPlain, itemsPlain_iff]
  intro read hread
  obtain ⟨item, -, hitem⟩ := exists_mem_of_forall₂ hfound.flip read hread
  exact hitem.1

theorem exists_readsAs_mapping {layout : Layout} (sound : layout.Sound) (form : MappingForm)
    {entries : List (Key × Value)} (hkeys : ∀ entry ∈ entries, entry.1.isPlain = true)
    (hvalues : ∀ entry ∈ entries, ∃ found, found.isPlain = true ∧ ReadsAs layout entry.2 found) :
    ∃ found, found.isPlain = true ∧ ReadsAs layout (.mapping form entries) found := by
  have hentries : ∀ entry ∈ entries, ∃ pair : Key × Value,
      (pair.1.isPlain = true ∧ pair.2.isPlain = true) ∧ EntryReadsAs layout entry pair := by
    intro entry hmem
    obtain ⟨name, hname⟩ := exists_keyName_eq (hkeys entry hmem)
    obtain ⟨read, hread, hreads⟩ := hvalues entry hmem
    exact ⟨(.str name, read), ⟨rfl, hread⟩, ⟨name, hname, rfl⟩, hreads⟩
  obtain ⟨found, hfound⟩ := exists_forall₂ hentries
  refine ⟨_, isPlain_ofPairs fun pair hpair => ?_,
    readsAs_mapping sound form (hfound.imp fun _ _ h => h.2)⟩
  obtain ⟨entry, -, hentry⟩ := exists_mem_of_forall₂ hfound.flip pair hpair
  exact hentry.1

/-- Every value that can be written is read as some value, in which no half of a pair stands unless
one stands in the value that was written. -/
theorem exists_readsAs {layout : Layout} (sound : layout.Sound) {value : Value}
    (hwritable : value.refusal? = none) (hplain : value.isPlain = true) :
    ∃ found, found.isPlain = true ∧ ReadsAs layout value found := by
  match value with
  | .null => exact ⟨.null, rfl, readsAs_null⟩
  | .bool flag => exact ⟨.bool flag, rfl, readsAs_bool flag⟩
  | .int n =>
      have hshort : Platform.writes n = true := by
        rw [Value.refusal?, refusalOfWhole?] at hwritable
        split at hwritable
        · assumption
        · cases hwritable
      exact ⟨.int n, rfl, (readsNumber_wholeDigits hshort).readsAs fun _ => rfl⟩
  | .float x =>
      obtain ⟨y, hy⟩ := exists_readsAs_float layout x
      exact ⟨.float y, rfl, hy⟩
  | .str (.plain text) => exact ⟨.str text, rfl, readsAs_str sound text⟩
  | .list items | .tuple items =>
      rw [Value.refusal?, itemsRefusal?_eq_none_iff] at hwritable
      rw [Value.isPlain, itemsPlain_iff] at hplain
      exact exists_readsAs_array sound rfl fun item hmem =>
        exists_readsAs sound (hwritable item hmem) (hplain item hmem)
  | .mapping form entries =>
      rw [refusal?_mapping] at hwritable
      rw [Value.isPlain, entriesPlain_iff] at hplain
      split at hwritable
      · rw [entriesRefusal?_eq_none_iff] at hwritable
        exact exists_readsAs_mapping sound form (fun entry hmem => (hplain entry hmem).1)
          fun entry hmem => exists_readsAs sound (hwritable entry hmem).2 (hplain entry hmem).2
      · cases hwritable
  | .str (.broken _ _) => cases hplain
  | .foreign _ => cases hwritable
termination_by sizeOf value
decreasing_by
  all_goals simp_wf
  · have hsmaller := List.sizeOf_lt_of_mem hmem
    omega
  · have hsmaller := List.sizeOf_lt_of_mem hmem
    omega
  · have hsmaller := sizeOf_snd_lt_of_mem hmem
    omega

/-! ## Data without loss -/

/-- Data that are written without loss: their numbers are whole and short enough to be written, no
text has a half of a pair, and their objects have a text for every key, each once. -/
inductive Lossless : Value → Prop
  | null : Lossless .null
  | bool (flag : Bool) : Lossless (.bool flag)
  | int {n : Int} (short : Platform.writes n = true) : Lossless (.int n)
  | str (text : String) : Lossless (.str text)
  | list {items : List Value} (parts : ∀ item ∈ items, Lossless item) : Lossless (.list items)
  | mapping {entries : List (Key × Value)}
      (named : ∀ entry ∈ entries, ∃ name : String, entry.1 = .str name)
      (distinct : Entries.distinct entries = true)
      (parts : ∀ entry ∈ entries, Lossless entry.2) : Lossless (.mapping .dict entries)

/-- Lossless data are read back unchanged, in every layout. -/
theorem Lossless.readsAs {layout : Layout} (sound : layout.Sound) {value : Value}
    (h : Lossless value) : ReadsAs layout value value := by
  induction h with
  | null => exact readsAs_null
  | bool flag => exact readsAs_bool flag
  | int short => exact (readsNumber_wholeDigits short).readsAs fun _ => rfl
  | str text => exact readsAs_str sound text
  | list _ ih => exact readsAs_array sound rfl (List.forall₂_same.mpr ih)
  | @mapping entries named distinct _ ih =>
      have hread := readsAs_mapping sound .dict (List.forall₂_same.mpr fun entry hmem =>
        (⟨(named entry hmem).imp fun name hname => ⟨by rw [hname]; rfl, hname⟩, ih entry hmem⟩ :
          EntryReadsAs layout entry entry))
      rwa [Entries.ofPairs_eq_self distinct] at hread

theorem Lossless.isPlain {value : Value} (h : Lossless value) : value.isPlain = true := by
  induction h with
  | null | bool _ | int _ | str _ => rfl
  | list _ ih =>
      rw [Value.isPlain, itemsPlain_iff]
      exact ih
  | mapping named _ _ ih =>
      rw [Value.isPlain, entriesPlain_iff]
      intro entry hmem
      obtain ⟨name, hname⟩ := named entry hmem
      exact ⟨by rw [hname]; rfl, ih entry hmem⟩

theorem Lossless.refusal?_eq_none {value : Value} (h : Lossless value) :
    value.refusal? = none := by
  induction h with
  | null | bool _ | str _ => rfl
  | int short => rw [Value.refusal?, refusalOfWhole?, if_pos short]
  | list _ ih =>
      rw [Value.refusal?, itemsRefusal?_eq_none_iff]
      exact ih
  | mapping named _ _ ih =>
      rw [Value.refusal?, entriesRefusal?_eq_none_iff]
      intro entry hmem
      obtain ⟨name, hname⟩ := named entry hmem
      exact ⟨by rw [hname]; rfl, ih entry hmem⟩

end SchemaModel.Json
