import SchemaModel.Proofs.Text.Quoted
import SchemaModel.Value.Path

/-!
# Paths and their text

The text of a path is one piece after another, with nothing in between.  A piece still tells where
it ends: an identifier at the next dot or bracket, an index at the closing bracket, a quoted name at
its closing quote.  So different paths made of names and indices have different texts.

A path is followed from a value to one inside it, by position in an array and by name in a mapping.
-/

namespace SchemaModel

/-- Whether a key is a step of a path: a name, or an index counted from zero. -/
def Key.isStep : Key → Bool
  | .str _ => true
  | .int number => 0 ≤ number
  | _ => false

/-- The characters by which a step extends the text of a path. -/
def stepChars : Key → List Char
  | .str name =>
    match name.identifier? with
    | some word => '.' :: word.toList
    | none => '[' :: (Text.quotedPoints name.points ++ [']'])
  | step => '[' :: (step.shown.toList ++ [']'])

theorem stepChars_identifier {name : Text} {word : String} (h : name.identifier? = some word) :
    stepChars (.str name) = '.' :: word.toList := by
  rw [stepChars, h]

theorem stepChars_quoted {name : Text} (h : name.identifier? = none) :
    stepChars (.str name) = '[' :: (Text.quotedPoints name.points ++ [']']) := by
  rw [stepChars, h]

theorem stepChars_index (n : Nat) :
    stepChars (.int n) = '[' :: ((wholeText n).toList ++ [']']) := by
  rw [stepChars, Key.shown]
  simp

theorem toList_childPath (path : String) (step : Key) :
    (childPath path step).toList = path.toList ++ stepChars step := by
  cases step with
  | str name =>
      rw [childPath, namedPath, stepChars]
      cases name.identifier? with
      | some word => simp
      | none => simp [Text.quoted]
  | _ => simp [childPath, stepChars]

theorem ValuePath.toList_text (path : ValuePath) :
    path.text.toList = '$' :: path.flatMap stepChars := by
  have hfold : ∀ start : String,
      (path.foldl childPath start).toList = start.toList ++ path.flatMap stepChars := by
    induction path with
    | nil => exact fun start => by simp
    | cons step path ih =>
        intro start
        rw [List.foldl_cons, ih, toList_childPath, List.flatMap_cons, List.append_assoc]
  exact hfold "$"

/-! ## Where a piece ends -/

/-- Two texts that each begin with the longest run of some characters begin with the same run. -/
theorem append_inj_of_run {p : Char → Bool} {as bs s t : List Char}
    (has : ∀ c ∈ as, p c = true) (hbs : ∀ c ∈ bs, p c = true)
    (hs : ∀ c, s.head? = some c → p c = false) (ht : ∀ c, t.head? = some c → p c = false)
    (h : as ++ s = bs ++ t) : as = bs ∧ s = t := by
  have hrun : ∀ {run rest : List Char}, (∀ c ∈ run, p c = true) →
      (∀ c, rest.head? = some c → p c = false) → (run ++ rest).takeWhile p = run := by
    intro run rest hin hout
    rw [List.takeWhile_append_of_pos hin]
    cases rest with
    | nil => simp
    | cons c rest => simp [hout c rfl]
  have heq : as = bs := by rw [← hrun has hs, h, hrun hbs ht]
  subst heq
  exact ⟨rfl, List.append_cancel_left h⟩

theorem Text.isIdentifierContinue_of_start {c : Char} (h : isIdentifierStart c = true) :
    isIdentifierContinue c = true := by
  unfold isIdentifierStart at h
  unfold isIdentifierContinue
  split at h
  · next hascii =>
    rw [if_pos hascii, Char.isAlphanum]
    rw [Bool.or_eq_true] at h
    rcases h with h | h <;> simp [h]
  · next hother => rw [if_neg hother, h, Bool.true_or]

/-- An identifier is written out in full by its characters. -/
theorem Text.identifier?_eq_some {name : Text} {word : String}
    (h : name.identifier? = some word) : name = .plain word ∧ isIdentifier word = true := by
  rw [identifier?, Option.filter_eq_some_iff] at h
  obtain ⟨hword, hidentifier⟩ := h
  cases name with
  | plain chars =>
      cases hword
      exact ⟨rfl, hidentifier⟩
  | broken => cases hword

theorem Text.isIdentifierContinue_of_mem {name : String} (h : isIdentifier name = true) :
    ∀ c ∈ name.toList, isIdentifierContinue c = true := by
  unfold isIdentifier at h
  split at h
  · cases h
  · next first rest heq =>
    rw [Bool.and_eq_true, List.all_eq_true] at h
    rw [heq, List.forall_mem_cons]
    exact ⟨isIdentifierContinue_of_start h.1, h.2⟩

section Indices

variable {m n : Nat}

theorem isDigit_of_mem_wholeText : ∀ c ∈ (wholeText n).toList, c.isDigit = true := by
  intro c hc
  rw [toList_wholeText] at hc
  exact Nat.isDigit_of_mem_toDigits (by decide) (by decide) hc

theorem wholeText_injective (h : (wholeText m).toList = (wholeText n).toList) : m = n := by
  have hvalue := congrArg digitsValue h
  rwa [digitsValue_wholeText, digitsValue_wholeText] at hvalue

end Indices

/-- What may follow a piece: nothing, or the first character of another piece. -/
def StartsPiece (rest : List Char) : Prop :=
  ∀ c, rest.head? = some c → c = '.' ∨ c = '['

theorem head_stepChars (step : Key) :
    ∃ c piece, stepChars step = c :: piece ∧ (c = '.' ∨ c = '[') := by
  cases step with
  | str name =>
      cases h : name.identifier? with
      | some word => exact ⟨_, _, stepChars_identifier h, .inl rfl⟩
      | none => exact ⟨_, _, stepChars_quoted h, .inr rfl⟩
  | _ => exact ⟨_, _, by rw [stepChars]; simp, .inr rfl⟩

theorem startsPiece_flatMap (path : ValuePath) : StartsPiece (path.flatMap stepChars) := by
  intro c hc
  cases path with
  | nil => cases hc
  | cons step path =>
      obtain ⟨first, piece, heq, hfirst⟩ := head_stepChars step
      rw [List.flatMap_cons, heq] at hc
      cases hc
      exact hfirst

theorem StartsPiece.ends_identifier {rest : List Char} (h : StartsPiece rest) :
    ∀ c, rest.head? = some c → Text.isIdentifierContinue c = false := by
  intro c hc
  rcases h c hc with rfl | rfl <;> decide

/-! ## One path for each text -/

section Pieces

variable {s t : List Char}

/-- A name in quotes ends at its closing quote, and one without ends before the next step. -/
theorem stepChars_names_inj (hs : StartsPiece s) (ht : StartsPiece t) {a b : Text}
    (h : stepChars (.str a) ++ s = stepChars (.str b) ++ t) : a = b ∧ s = t := by
  cases ha : a.identifier? with
  | some v =>
      cases hb : b.identifier? with
      | some w =>
          rw [stepChars_identifier ha, stepChars_identifier hb] at h
          obtain ⟨rfl, hv⟩ := Text.identifier?_eq_some ha
          obtain ⟨rfl, hw⟩ := Text.identifier?_eq_some hb
          obtain ⟨heq, hrest⟩ := append_inj_of_run (Text.isIdentifierContinue_of_mem hv)
            (Text.isIdentifierContinue_of_mem hw) hs.ends_identifier ht.ends_identifier
            (List.cons.inj h).2
          exact ⟨congrArg Text.plain (String.toList_injective heq), hrest⟩
      | none =>
          rw [stepChars_identifier ha, stepChars_quoted hb] at h
          exact absurd (List.cons.inj h).1 (by decide)
  | none =>
      cases hb : b.identifier? with
      | some w =>
          rw [stepChars_quoted ha, stepChars_identifier hb] at h
          exact absurd (List.cons.inj h).1 (by decide)
      | none =>
          simp only [stepChars_quoted ha, stepChars_quoted hb, List.cons_append,
            List.append_assoc, List.cons.injEq, true_and] at h
          obtain ⟨heq, hrest⟩ := Text.quotedPoints_append_inj h
          exact ⟨Text.points_injective heq, (List.cons.inj hrest).2⟩

theorem stepChars_indices_inj {m n : Nat} (h : stepChars (.int m) ++ s = stepChars (.int n) ++ t) :
    m = n ∧ s = t := by
  simp only [stepChars_index, List.cons_append, List.append_assoc, List.cons.injEq, true_and] at h
  have hstop : ∀ (rest : List Char) (c : Char), (']' :: rest).head? = some c →
      c.isDigit = false := by
    intro rest c hc
    cases hc
    decide
  obtain ⟨heq, hrest⟩ := append_inj_of_run isDigit_of_mem_wholeText isDigit_of_mem_wholeText
    (hstop _) (hstop _) h
  exact ⟨wholeText_injective heq, (List.cons.inj hrest).2⟩

/-- A name is written behind a point or in quotes, an index in digits. -/
theorem stepChars_name_ne_index (name : Text) (n : Nat) :
    stepChars (.str name) ++ s ≠ stepChars (.int n) ++ t := by
  intro h
  rw [stepChars_index] at h
  cases hname : name.identifier? with
  | some word =>
      rw [stepChars_identifier hname] at h
      exact absurd (List.cons.inj h).1 (by decide)
  | none =>
      rw [stepChars_quoted hname] at h
      -- A quoted name begins with its quote, an index with a digit.
      have hdigits := (List.cons.inj h).2
      obtain ⟨digit, rest, heq⟩ :=
        List.exists_cons_of_ne_nil (Nat.toDigits_ne_nil (b := 10) (n := n))
      have hdigit : digit.isDigit = true :=
        isDigit_of_mem_wholeText digit (by rw [toList_wholeText, heq]; exact List.mem_cons_self)
      rw [toList_wholeText, heq, Text.quotedPoints] at hdigits
      have hquote : Text.quoteMark name.points = digit := (List.cons.inj hdigits).1
      rcases Text.quoteMark_eq name.points with hmark | hmark
      · rw [← hquote, hmark] at hdigit
        exact absurd hdigit (by decide)
      · rw [← hquote, hmark] at hdigit
        exact absurd hdigit (by decide)

theorem Key.isStep_cases {key : Key} (h : key.isStep = true) :
    (∃ name, key = .str name) ∨ ∃ n : Nat, key = .int n := by
  cases key with
  | str name => exact .inl ⟨name, rfl⟩
  | int number => exact .inr ⟨number.toNat, by rw [Int.toNat_of_nonneg (of_decide_eq_true h)]⟩
  | _ => cases h

/-- A step is told by its piece, whatever follows it. -/
theorem stepChars_inj (hs : StartsPiece s) (ht : StartsPiece t) {a b : Key}
    (ha : a.isStep = true) (hb : b.isStep = true) (h : stepChars a ++ s = stepChars b ++ t) :
    a = b ∧ s = t := by
  rcases Key.isStep_cases ha with ⟨name, rfl⟩ | ⟨m, rfl⟩ <;>
    rcases Key.isStep_cases hb with ⟨name', rfl⟩ | ⟨n, rfl⟩
  · obtain ⟨rfl, rfl⟩ := stepChars_names_inj hs ht h
    exact ⟨rfl, rfl⟩
  · exact absurd h (stepChars_name_ne_index name n)
  · exact absurd h.symm (stepChars_name_ne_index name' m)
  · obtain ⟨rfl, rfl⟩ := stepChars_indices_inj h
    exact ⟨rfl, rfl⟩

end Pieces

namespace ValuePath

theorem child_append (path : ValuePath) (step : Key) (steps : ValuePath) :
    path.child step ++ steps = path ++ step :: steps := by
  rw [child, List.append_assoc, List.singleton_append]

/-- Steps are read off one by one, since each tells where it ends. -/
theorem eq_of_flatMap_stepChars {ks ls : ValuePath} (hks : ∀ key ∈ ks, key.isStep = true)
    (hls : ∀ key ∈ ls, key.isStep = true) (h : ks.flatMap stepChars = ls.flatMap stepChars) :
    ks = ls := by
  induction ks generalizing ls with
  | nil =>
      cases ls with
      | nil => rfl
      | cons l ls =>
          obtain ⟨c, piece, heq, -⟩ := head_stepChars l
          rw [List.flatMap_cons, heq] at h
          cases h
  | cons k ks ih =>
      cases ls with
      | nil =>
          obtain ⟨c, piece, heq, -⟩ := head_stepChars k
          rw [List.flatMap_cons, heq] at h
          cases h
      | cons l ls =>
          obtain ⟨hk, hks'⟩ := List.forall_mem_cons.mp hks
          obtain ⟨hl, hls'⟩ := List.forall_mem_cons.mp hls
          rw [List.flatMap_cons, List.flatMap_cons] at h
          obtain ⟨rfl, hrest⟩ := stepChars_inj (startsPiece_flatMap ks) (startsPiece_flatMap ls)
            hk hl h
          rw [ih hks' hls' hrest]

/-- Below one place, different steps lead to paths with different texts. -/
theorem eq_of_text_append {path ks ls : ValuePath} (hks : ∀ key ∈ ks, key.isStep = true)
    (hls : ∀ key ∈ ls, key.isStep = true) (h : text (path ++ ks) = text (path ++ ls)) :
    ks = ls := by
  have hchars := congrArg String.toList h
  rw [toList_text, toList_text, List.flatMap_append, List.flatMap_append] at hchars
  exact eq_of_flatMap_stepChars hks hls (List.append_cancel_left (List.cons.inj hchars).2)

/-- A path made of names and indices is told by its text. -/
theorem text_tells_path {ks ls : ValuePath} (hks : ∀ key ∈ ks, key.isStep = true)
    (hls : ∀ key ∈ ls, key.isStep = true)
    (h : ks.foldl childPath "$" = ls.foldl childPath "$") : ks = ls := by
  have htext : text ([] ++ ks) = text ([] ++ ls) := h
  exact eq_of_text_append hks hls htext

/-- A path with a name that reads like a path of its own and one that holds both quotes. -/
def lookalikePath : ValuePath :=
  [.str "a", .str ".b['c'][0]", .int 10, .str "\"'\n", .str "é"]

theorem one_path_with_lookalike_text :
    ∃! path : ValuePath, (∀ key ∈ path, key.isStep = true) ∧
      path.foldl childPath "$" = "$.a[\".b['c'][0]\"][10]['\"\\'\\n'].é" := by
  have hsteps : ∀ key ∈ lookalikePath, key.isStep = true := by decide
  have htext : lookalikePath.foldl childPath "$" =
      "$.a[\".b['c'][0]\"][10]['\"\\'\\n'].é" := by
    rfl
  refine ⟨lookalikePath, ⟨hsteps, htext⟩, ?_⟩
  rintro path ⟨hpath, hsame⟩
  exact text_tells_path hpath hsteps (hsame.trans htext.symm)

end ValuePath

/-! ## Following a path -/

namespace Value

/-- The part of a value that a step leads to: by position in an array, by name in a mapping. -/
def member? : Value → Key → Option Value
  | value, .int number =>
    if number < 0 then none else value.items?.bind fun items => items[number.toNat]?
  | .mapping _ entries, .str name => Entries.get? entries name
  | _, _ => none

/-- The part of a value at a path. -/
def descend? (value : Value) (path : ValuePath) : Option Value :=
  path.foldlM member? value

theorem descend?_cons {value item : Value} {step : Key} (h : value.member? step = some item)
    (path : ValuePath) : value.descend? (step :: path) = item.descend? path := by
  rw [descend?, List.foldlM_cons, h]
  rfl

theorem member?_index {value : Value} {items : List Value} (h : value.items? = some items)
    (i : Nat) : value.member? (.int i) = items[i]? := by
  have hnat : ¬ (i : Int) < 0 := by omega
  rw [member?, if_neg hnat, h, Option.bind_some, Int.toNat_natCast]

end Value

end SchemaModel
