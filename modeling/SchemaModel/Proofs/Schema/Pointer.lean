import Mathlib.Data.List.Basic
import SchemaModel.Schema.Pointer
import SchemaModel.Text.Split
import SchemaModel.Value.Basic

/-!
# Reading pointers

A pointer is read by cutting its text at each `/` and putting back, in each piece, first `/` for
`~1` and then `~` for `~0`.  Reading gives back the place whose text it is, whatever its tokens are,
and following a place leads through a document by keys and by decimal positions.
-/

namespace SchemaModel

namespace Text

variable {α : Type}

section Pairs

variable [DecidableEq α] {first second target : α}

/-- A text in which one character takes the place of two, wherever they stand side by side. -/
def replacePair (first second target : α) : List α → List α
  | a :: b :: rest =>
    if a = first ∧ b = second then target :: replacePair first second target rest
    else a :: replacePair first second target (b :: rest)
  | rest => rest

theorem replacePair_cons_of_ne {c : α} (h : c ≠ first) (rest : List α) :
    replacePair first second target (c :: rest) = c :: replacePair first second target rest := by
  cases rest with
  | nil => rfl
  | cons d rest => rw [replacePair, if_neg (fun hpair => h hpair.1)]

theorem replacePair_pair (rest : List α) :
    replacePair first second target (first :: second :: rest) =
      target :: replacePair first second target rest := by
  rw [replacePair, if_pos ⟨rfl, rfl⟩]

theorem replacePair_other {c : α} (h : c ≠ second) (rest : List α) :
    replacePair first second target (first :: c :: rest) =
      first :: replacePair first second target (c :: rest) := by
  rw [replacePair, if_neg (fun hpair => h hpair.2)]

/-- A text in which two characters take the place of one, wherever it stands. -/
def spellOut (target first second : α) (text : List α) : List α :=
  text.flatMap fun c => if c = target then [first, second] else [c]

theorem spellOut_cons_self (rest : List α) :
    spellOut target first second (target :: rest) =
      first :: second :: spellOut target first second rest := by
  rw [spellOut, List.flatMap_cons, if_pos rfl]
  rfl

theorem spellOut_cons_of_ne {c : α} (h : c ≠ target) (rest : List α) :
    spellOut target first second (c :: rest) = c :: spellOut target first second rest := by
  rw [spellOut, List.flatMap_cons, if_neg h]
  rfl

theorem notMem_spellOut (hfirst : target ≠ first) (hsecond : target ≠ second) (text : List α) :
    target ∉ spellOut target first second text := by
  intro hmem
  obtain ⟨c, -, hc⟩ := List.mem_flatMap.mp hmem
  split_ifs at hc with hself
  · simp [hfirst, hsecond] at hc
  · exact hself (List.mem_singleton.mp hc).symm

theorem not_infix_spellOut {other : α} (hsecond : target ≠ second) (hother : other ≠ second)
    (text : List α) : ¬ [target, other] <:+: spellOut target target second text := by
  induction text with
  | nil => simp [spellOut]
  | cons c text ih =>
      by_cases hself : c = target
      · subst hself
        rw [spellOut_cons_self, List.infix_cons_iff, List.infix_cons_iff]
        simp [hsecond, hother, ih]
      · rw [spellOut_cons_of_ne hself, List.infix_cons_iff]
        simp [Ne.symm hself, ih]

/-- Putting a character back undoes its spelling in a text that held no such pair before; a
character that is spelled with itself leaves none of these behind. -/
theorem replacePair_spellOut (hne : first ≠ second) {text : List α}
    (h : target = first ∨ ¬ [first, second] <:+: text) :
    replacePair first second target (spellOut target first second text) = text := by
  induction text with
  | nil => rfl
  | cons c text ih =>
      have hrest : target = first ∨ ¬ [first, second] <:+: text :=
        h.imp_right fun hpair hlater => hpair (List.infix_cons hlater)
      by_cases hself : c = target
      · rw [hself, spellOut_cons_self, replacePair_pair, ih hrest]
      rw [spellOut_cons_of_ne hself]
      by_cases hfirst : c = first
      · -- No pair stood here, and what follows is spelled so that none stands here now.
        have hpair := h.resolve_left fun heq => hself (hfirst.trans heq.symm)
        subst hfirst
        cases text with
        | nil => rfl
        | cons d text =>
            have hd : d ≠ second := by
              rintro rfl
              exact hpair ⟨[], text, rfl⟩
            by_cases hnext : d = target
            · subst hnext
              rw [spellOut_cons_self, replacePair_other hne, ← spellOut_cons_self, ih hrest]
            · rw [spellOut_cons_of_ne hnext, replacePair_other hd, ← spellOut_cons_of_ne hnext,
                ih hrest]
      · rw [replacePair_cons_of_ne hfirst, ih hrest]

end Pairs

section Split

variable {cut : α → Bool}

theorem split_of_forall_not {piece : List α} (h : ∀ c ∈ piece, cut c = false) :
    split cut piece = [piece] := by
  induction piece with
  | nil => rfl
  | cons c piece ih =>
      obtain ⟨hc, hpiece⟩ := List.forall_mem_cons.mp h
      rw [split, hc, ih hpiece]
      rfl

theorem split_append_cons {piece : List α} (h : ∀ c ∈ piece, cut c = false) {d : α}
    (hd : cut d = true) (rest : List α) :
    split cut (piece ++ d :: rest) = piece :: split cut rest := by
  induction piece with
  | nil => rw [List.nil_append, split, if_pos hd]
  | cons c piece ih =>
      obtain ⟨hc, hpiece⟩ := List.forall_mem_cons.mp h
      rw [List.cons_append, split, hc, ih hpiece]
      rfl

/-- Pieces that hold no cut come apart again. -/
theorem split_pieces {d : α} (hd : cut d = true) (pieces : List (List α)) {first : List α}
    (hfirst : ∀ c ∈ first, cut c = false) (h : ∀ piece ∈ pieces, ∀ c ∈ piece, cut c = false) :
    split cut (first ++ pieces.flatMap (d :: ·)) = first :: pieces := by
  induction pieces generalizing first with
  | nil => rw [List.flatMap_nil, List.append_nil, split_of_forall_not hfirst]
  | cons piece pieces ih =>
      obtain ⟨hpiece, hpieces⟩ := List.forall_mem_cons.mp h
      rw [List.flatMap_cons, List.cons_append, split_append_cons hfirst hd, ih hpiece hpieces]

end Split

end Text

open Text

/-! ## Tokens -/

/-- The token that a piece of a pointer stands for. -/
def unescapeToken (piece : List Point) : Text :=
  .ofPoints (replacePair (.char '~') (.char '0') (.char '~')
    (replacePair (.char '~') (.char '1') (.char '/') piece))

/-- A token is escaped by spelling out first its tildes and then its slashes. -/
theorem points_escapeToken (token : Text) :
    (escapeToken token).points = spellOut (.char '/') (.char '~') (.char '1')
      (spellOut (.char '~') (.char '~') (.char '0') token.points) := by
  rw [escapeToken, points_ofPoints, spellOut, spellOut, List.flatMap_assoc]
  congr 1
  funext point
  by_cases htilde : point = .char '~'
  · subst htilde
    rfl
  by_cases hslash : point = .char '/'
  · subst hslash
    rfl
  · simp [htilde, hslash]

theorem not_cut_of_mem_escapeToken (token : Text) :
    ∀ point ∈ (escapeToken token).points, decide (point = Point.char '/') = false := by
  intro point hpoint
  rw [points_escapeToken] at hpoint
  refine decide_eq_false ?_
  rintro rfl
  exact notMem_spellOut (by decide) (by decide) _ hpoint

theorem unescapeToken_escapeToken (token : Text) :
    unescapeToken (escapeToken token).points = token := by
  -- The slashes come back first: until then every tilde is followed by the digit that marks it.
  have hslashes : replacePair (.char '~') (.char '1') (.char '/') (escapeToken token).points =
      spellOut (.char '~') (.char '~') (.char '0') token.points := by
    rw [points_escapeToken]
    exact replacePair_spellOut (by decide) (.inr (not_infix_spellOut (by decide) (by decide) _))
  rw [unescapeToken, hslashes, replacePair_spellOut (by decide) (.inl rfl), ofPoints_points]

/-! ## Pointers -/

theorem points_extendPointer (path : Text) (tokens : List Text) :
    (extendPointer path tokens).points = path.points ++
      (tokens.map fun token => (escapeToken token).points).flatMap (.char '/' :: ·) := by
  induction tokens generalizing path with
  | nil => exact (List.append_nil _).symm
  | cons token tokens ih =>
      rw [extendPointer, List.foldl_cons, ← extendPointer, ih, List.map_cons, List.flatMap_cons]
      simp [points_plain]

/-- The place that the text of a pointer names. -/
def Pointer.ofText? (text : Text) : Option Pointer :=
  match split (· = Point.char '/') text.points with
  | [.char '#'] :: pieces => some (pieces.map unescapeToken)
  | _ => none

/-- The text of a place names that place. -/
theorem Pointer.ofText?_text (place : Pointer) : ofText? place.text = some place := by
  have hpieces : split (· = Point.char '/') place.text.points =
      [.char '#'] :: place.map fun token => (escapeToken token).points := by
    rw [text, points_extendPointer]
    apply split_pieces (by decide)
    · decide
    · intro piece hpiece
      obtain ⟨token, -, rfl⟩ := List.mem_map.mp hpiece
      exact not_cut_of_mem_escapeToken token
  rw [ofText?, hpieces]
  simp only [List.map_map, Option.some.injEq]
  exact List.map_id'' unescapeToken_escapeToken place

/-- The tokens of a place are read off its text, whatever characters they hold; so no two places
have the same text, and the text of a place is extended as the place is. -/
theorem Pointer.text_tells_tokens (tokens more : Pointer) :
    ofText? (extendPointer "#" tokens) = some tokens ∧
      Function.Injective (extendPointer "#") ∧
      extendPointer (extendPointer "#" tokens) more = extendPointer "#" (tokens ++ more) := by
  refine ⟨ofText?_text tokens, ?_, List.foldl_append.symm⟩
  intro place other h
  have hread := congrArg ofText? h
  rwa [← text, ← text, ofText?_text, ofText?_text, Option.some.injEq] at hread

example : extendPointer "#" ["", "~1", "a~b/c"] = "#//~01/a~0b~1c" := by rfl

/-! ## Following a place -/

/-- The position that a token names, in decimal and without needless zeros. -/
def index? (token : Text) : Option Nat := do
  let digits ← token.string?
  let n := digitsValue digits.toList
  if wholeText n = digits then some n else none

theorem index?_wholeText (n : Nat) : index? (wholeText n) = some n := by
  simp [index?, Text.string?, digitsValue_wholeText]

namespace Value

/-- The part of a value that a token leads to: by key in a mapping, by position in a list. -/
def step? : Value → Text → Option Value
  | .mapping _ entries, token => Entries.get? entries token
  | .list items, token => (index? token).bind (items[·]?)
  | _, _ => none

/-- The part of a document at a place. -/
def follow? (document : Value) (place : Pointer) : Option Value :=
  place.foldlM step? document

theorem follow?_child (document : Value) (place : Pointer) (token : Text) :
    document.follow? (place.child token) = (document.follow? place).bind (·.step? token) := by
  rw [follow?, Pointer.child, List.foldlM_append]
  simp [follow?]

/-- The part of a document that the text of a pointer names. -/
def locate? (document : Value) (path : Text) : Option Value :=
  (Pointer.ofText? path).bind document.follow?

theorem locate?_text (document : Value) (place : Pointer) :
    document.locate? place.text = document.follow? place := by
  rw [locate?, Pointer.ofText?_text, Option.bind_some]

end Value

end SchemaModel
