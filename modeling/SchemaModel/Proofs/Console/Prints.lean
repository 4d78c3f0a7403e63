import SchemaModel.Console.Plain
import SchemaModel.Proofs.Console.Escape
import SchemaModel.Proofs.Console.Terminal
import SchemaModel.Proofs.Value.Equality

/-!
# Text without brackets prints

Only a tag can make a text unprintable, so a text without an opening bracket prints, alone or around
words in a colour.  With the rules of escaping this is all that is relied on of a terminal, and so
the plain terminal is a lawful one.
-/

namespace SchemaModel.Console

theorem prints_of_not_mem {text : String} (h : '[' ∉ text.toList) : prints text = true := by
  have hplain : text.toList.contains '[' = false := by
    rw [← Bool.not_eq_true, List.contains_iff_mem]
    exact h
  simp only [prints, plain, hplain]
  rfl

theorem isText_of_mem_pieces {text : List Char} (h : '[' ∉ text) (run : Nat) :
    ∀ piece ∈ pieces run text, piece.isText = true := by
  fun_induction pieces run text with
  | case1 run => exact List.forall_mem_singleton.mpr rfl
  | case2 run rest ih => exact ih fun hrest => h (List.mem_cons_of_mem _ hrest)
  | case3 run rest => exact absurd List.mem_cons_self h
  | case4 run rest => exact absurd List.mem_cons_self h
  | case5 run c rest _ _ ih =>
      exact List.forall_mem_cons.mpr ⟨rfl, ih fun hrest => h (List.mem_cons_of_mem _ hrest)⟩

/-! ## Words in a colour -/

/-- From every position, pieces can be printed after the tags that are open. -/
def Renders (opened : List OpenTag) (pieces : List Piece) : Prop :=
  ∀ position, ∃ text spans, renderPieces position opened pieces = .ok (text, spans) ∧
    ∀ span ∈ spans, lacksNumber span.style = false

theorem renders_of_isText {pieces : List Piece} (h : ∀ piece ∈ pieces, piece.isText = true) :
    Renders [] pieces := by
  intro position
  obtain ⟨text, htext⟩ := renderPieces_of_isText h position
  exact ⟨text, [], htext, List.forall_mem_nil _⟩

theorem Renders.text {opened : List OpenTag} {pieces : List Piece} (h : Renders opened pieces)
    (chars : List Char) : Renders opened (.text chars :: pieces) := by
  intro position
  obtain ⟨text, spans, htext, hspans⟩ :=
    h (position + (chars.filter fun c => !isDropped c).length)
  refine ⟨(chars.filter fun c => !isDropped c) ++ text, spans, ?_, hspans⟩
  rw [renderPieces, htext]
  rfl

theorem Renders.tag {opened opened' : List OpenTag} {pieces : List Piece}
    (h : Renders opened' pieces) {position : Nat} {body : List Char} {ended : List Span}
    (htag : nextOpen position opened body = .ok (opened', ended))
    (hended : ∀ span ∈ ended, lacksNumber span.style = false) :
    ∃ text spans, renderPieces position opened (.tag body :: pieces) = .ok (text, spans) ∧
      ∀ span ∈ spans, lacksNumber span.style = false := by
  obtain ⟨text, spans, htext, hspans⟩ := h position
  refine ⟨text, ended ++ spans, ?_, List.forall_mem_append.mpr ⟨hended, hspans⟩⟩
  rw [renderPieces, htag]
  simp only [bind, Except.bind, htext]

/-- A name of a style that a closing tag finds under the name itself. -/
structure IsStyle (name : String) : Prop where
  opens : ∀ after, tagBody? (name.toList ++ ']' :: after) = some (name.toList, after)
  closes : ∀ after,
    tagBody? ('/' :: name.toList ++ ']' :: after) = some ('/' :: name.toList, after)
  unparted : tagName name.toList = name.toList ∧ tagParameters? name.toList = none
  tagged : tagName ('/' :: name.toList) = '/' :: name.toList
  worded : (Text.trimWith Text.separatesWords name.toList).isEmpty = false
  called : name.toList.head? ≠ some '@' ∧ name.toList.head? ≠ some '/'
  matched : styleName? name.toList = some name
  numbered : lacksNumber name.toList = false

theorem isStyle_of_mem {name : String} (h : name ∈ headingColours) : IsStyle name := by
  have hmatched : ∀ name ∈ headingColours,
      styleName? name.toList = some name ∧ lacksNumber name.toList = false := by
    decide +kernel
  obtain ⟨matched, numbered⟩ := hmatched name h
  simp only [headingColours, List.mem_cons, List.not_mem_nil, or_false] at h
  rcases h with rfl | rfl | rfl | rfl | rfl
  all_goals
    exact ⟨fun _ => rfl, fun _ => rfl, by decide, by decide, by decide, by decide, matched,
      numbered⟩

theorem IsStyle.opened {name : String} (h : IsStyle name) (position : Nat) :
    nextOpen position [] name.toList = .ok ([⟨position, name, none⟩], []) := by
  rw [nextOpen, h.unparted.1, h.unparted.2]
  split
  · next rest hslash => exact absurd (by rw [hslash]; rfl) h.called.2
  · simp [matchName, h.matched, bind, Except.bind]

/-- A closing tag ends the stretch of the tag that it names. -/
theorem IsStyle.closed {name : String} (h : IsStyle name) (start position : Nat) :
    nextOpen position [⟨start, name, none⟩] ('/' :: name.toList) =
      .ok ([], [⟨start, position, name.toList⟩]) := by
  rw [nextOpen, h.tagged]
  simp [h.worded, matchName, h.matched, h.called.1, takeTag?, OpenTag.close, OpenTag.isHandler,
    OpenTag.span, bind, Except.bind]

/-- Bare text in front of a text that renders does no harm. -/
theorem renders_texts_append {opened : List OpenTag} {rest : List Char}
    (h : Renders opened (pieces 0 rest)) {text : List Char}
    (hbare : IsBare text) : Renders opened (pieces 0 (text ++ rest)) := by
  induction text with
  | nil => exact h
  | cons c text ih =>
      obtain ⟨hslash, hbracket⟩ := hbare
      have htext : IsBare text :=
        ⟨List.not_mem_of_not_mem_cons hslash, List.not_mem_of_not_mem_cons hbracket⟩
      rw [List.cons_append, pieces]
      · exact (ih htext).text _
      · exact (List.ne_of_not_mem_cons hslash).symm
      · exact (List.ne_of_not_mem_cons hbracket).symm

/-- Words between a pair of tags, with text on both sides. -/
theorem renders_styled {name : String} (hname : IsStyle name) {before inside after : List Char}
    (hbefore : IsBare before) (hinside : IsBare inside) (hafter : Renders [] (pieces 0 after)) :
    Renders [] (pieces 0 (before ++ '[' :: (name.toList ++ ']' :: (inside ++
      '[' :: ('/' :: name.toList ++ ']' :: after))))) := by
  have hclosed : ∀ start, Renders [⟨start, name, none⟩]
      (pieces 0 (inside ++ '[' :: ('/' :: name.toList ++ ']' :: after))) := by
    intro start
    refine renders_texts_append ?_ hinside
    rw [pieces_of_tag (hname.closes after)]
    refine Renders.text (fun position => ?_) []
    exact hafter.tag (hname.closed start position) (List.forall_mem_singleton.mpr hname.numbered)
  refine renders_texts_append ?_ hbefore
  rw [pieces_of_tag (hname.opens _)]
  refine Renders.text (fun position => ?_) []
  exact (hclosed position).tag (hname.opened position) (List.forall_mem_nil _)

theorem prints_of_renders {markup : String} (h : Renders [] (pieces 0 markup.toList)) :
    prints markup = true := by
  obtain ⟨text, spans, htext, hspans⟩ := h 0
  have hnumbers :
      (spans.any fun span => lacksNumber span.style && span.isPrinted text) = false := by
    rw [List.any_eq_false]
    intro span hspan
    rw [hspans span hspan, Bool.false_and]
    exact Bool.false_ne_true
  rw [prints, plain]
  simp only [htext, bind, Except.bind, hnumbers]
  split <;> rfl

/-- Words between a pair of tags print, behind a text and in front of one without brackets. -/
theorem prints_styled {name before inside after : String} (hname : name ∈ headingColours)
    (hbefore : IsBare before.toList) (hinside : IsBare inside.toList)
    (hafter : '[' ∉ after.toList) :
    prints (before ++ "[" ++ name ++ "]" ++ inside ++ "[/" ++ name ++ "]" ++ after) = true := by
  have hrest : Renders [] (pieces 0 after.toList) :=
    renders_of_isText (isText_of_mem_pieces hafter 0)
  apply prints_of_renders
  have hchars : (before ++ "[" ++ name ++ "]" ++ inside ++ "[/" ++ name ++ "]" ++ after).toList =
      before.toList ++ '[' :: (name.toList ++ ']' :: (inside.toList ++
        '[' :: ('/' :: name.toList ++ ']' :: after.toList))) := by
    simp
  rw [hchars]
  exact renders_styled (isStyle_of_mem hname) hbefore hinside hrest

/-! ## The plain terminal -/

section Plain

variable [Platform]

attribute [local instance] plainTerminal

theorem prints_plainTerminal_iff {text : String} : Prints text ↔ prints text = true := by
  rw [prints]
  change (∃ shown, (do
    let text ← render (.plain text)
    .ok (String.ofList (expandTabs 0 text.toList) ++ "\n")) = .ok shown) ↔ _
  rw [render]
  cases plain text with
  | ok shown => exact iff_of_true ⟨_, rfl⟩ rfl
  | error fault =>
      refine iff_of_false ?_ Bool.false_ne_true
      rintro ⟨shown, hshown⟩
      cases hshown

theorem exists_render_of_prints {markup : Text} (h : Prints markup) :
    ∃ shown, render markup = .ok shown := by
  obtain ⟨shown, hshown⟩ := h
  cases hrender : render markup with
  | ok shown => exact ⟨shown, rfl⟩
  | error fault =>
      change (do
        let text ← render markup
        .ok (String.ofList (expandTabs 0 text.toList) ++ "\n")) = .ok shown at hshown
      rw [hrender] at hshown
      cases hshown

instance lawful_plainTerminal : LawfulTerminal where
  unmarked _ h := prints_plainTerminal_iff.mpr (prints_of_not_mem h)
  styled _ _ _ _ hname hbefore hinside hafter :=
    prints_plainTerminal_iff.mpr (prints_styled hname hbefore hinside hafter)
  escaped text := prints_plainTerminal_iff.mpr (prints_escape text)
  table _ h := by
    obtain ⟨rows, hrows⟩ := exists_mapM_eq_ok fun row hrow =>
      exists_mapM_eq_ok fun cell hcell => exists_render_of_prints (h row hrow cell hcell)
    simp only [Terminal.table, hrows]
    exact ⟨_, rfl⟩
  json hread hplain := by
    simp only [Terminal.json, renderJson, hread, hplain]
    rfl

end Plain

end SchemaModel.Console
