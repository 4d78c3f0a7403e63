import SchemaModel.Console.Markup

/-!
# Escaped text prints

Whatever a text holds, its escaped form is no faulty markup.  Escaping puts an odd number of
backslashes in front of every tag, and it makes no new tag: a bracket that opens no tag in the text
still opens none, because up to the next bracket nothing but backslashes is added.  So an escaped
text has no tag that counts, and nothing in it can be closed, called or styled.
-/

namespace SchemaModel.Console

/-- Whether a piece is text. -/
def Piece.isText : Piece → Bool
  | .text _ => true
  | .tag _ => false

theorem backslashes_succ (count : Nat) : backslashes (count + 1) = '\\' :: backslashes count :=
  rfl

theorem backslashes_append (count more : Nat) :
    backslashes count ++ backslashes more = backslashes (count + more) :=
  List.replicate_append_replicate

theorem pieces_backslashes (run count : Nat) (text : List Char) :
    pieces run (backslashes count ++ text) = pieces (run + count) text := by
  induction count generalizing run with
  | zero => rfl
  | succ count ih =>
      rw [backslashes_succ, List.cons_append, pieces, ih, Nat.add_assoc, Nat.add_comm 1]

/-! ## Tags in an escaped text -/

theorem tagRest?_cons_eq_none {c : Char} (hclosing : c ≠ ']') (hopening : c ≠ '[')
    (rest : List Char) : tagRest? (c :: rest) = none ↔ tagRest? rest = none := by
  rw [tagRest?, Option.map_eq_none_iff]
  · exact hclosing
  · exact hopening

theorem tagRest?_backslashes (count : Nat) (text : List Char) :
    tagRest? (backslashes count ++ text) = none ↔ tagRest? text = none := by
  induction count with
  | zero => rfl
  | succ count ih =>
      rw [backslashes_succ, List.cons_append, tagRest?_cons_eq_none (by decide) (by decide), ih]

/-- The rest of a tag is found whatever follows the tag. -/
theorem tagRest?_append {text body after : List Char} (h : tagRest? text = some (body, after))
    (more : List Char) : tagRest? (body ++ ']' :: more) = some (body, more) := by
  fun_induction tagRest? text generalizing body after with
  | case1 => cases h
  | case2 text =>
      cases h
      rfl
  | case3 => cases h
  | case4 c text hclosing hopening ih =>
      obtain ⟨found, hfound, hsame⟩ := Option.map_eq_some_iff.mp h
      cases hsame
      rw [List.cons_append, tagRest?, ih hfound]
      · rfl
      · exact hclosing
      · exact hopening

/-- A tag is recognised by its body, whatever follows it. -/
theorem tagBody?_append {text body after : List Char} (h : tagBody? text = some (body, after))
    (more : List Char) : tagBody? (body ++ ']' :: more) = some (body, more) := by
  unfold tagBody? at h
  split at h
  · cases h
  · next c rest =>
    split at h
    · next hstarts =>
      obtain ⟨found, hfound, hsame⟩ := Option.map_eq_some_iff.mp h
      cases hsame
      rw [List.cons_append, tagBody?, if_pos hstarts, tagRest?_append hfound]
      rfl
    · cases h

/-- Escaping makes no closing bracket come before the next opening one. -/
theorem tagRest?_escapeAfter {text : List Char} (h : tagRest? text = none) (run count : Nat) :
    tagRest? (escapeAfter run text ++ backslashes count) = none := by
  fun_induction escapeAfter run text with
  | case1 run =>
      rw [tagRest?_backslashes, ← List.append_nil (backslashes count), tagRest?_backslashes]
      rfl
  | case2 run rest ih => exact ih ((tagRest?_cons_eq_none (by decide) (by decide) rest).mp h)
  | case3 run rest body after _ _ =>
      rw [List.append_assoc, List.append_assoc, tagRest?_backslashes]
      rfl
  | case4 run rest _ _ =>
      rw [List.append_assoc, tagRest?_backslashes]
      rfl
  | case5 run c rest hslash hopening ih =>
      have hclosing : c ≠ ']' := by
        rintro rfl
        cases h
      rw [tagRest?_cons_eq_none hclosing hopening] at h
      rw [List.append_assoc, tagRest?_backslashes, List.cons_append,
        tagRest?_cons_eq_none hclosing hopening]
      exact ih h

theorem tagBody?_of_not_startsTag {c : Char} (h : startsTag c = false) (rest : List Char) :
    tagBody? (c :: rest) = none := by
  rw [tagBody?, h]
  rfl

theorem tagBody?_backslashes {count : Nat} (hpos : 1 ≤ count) (text : List Char) :
    tagBody? (backslashes count ++ text) = none := by
  cases count with
  | zero => cases hpos
  | succ count => rw [backslashes_succ, List.cons_append, tagBody?_of_not_startsTag (by decide)]

/-- A run of backslashes stays in front. -/
theorem exists_escapeAfter_eq (run : Nat) (text : List Char) :
    ∃ count more, run ≤ count ∧ escapeAfter run text = backslashes count ++ more := by
  fun_induction escapeAfter run text with
  | case1 run => exact ⟨run, [], Nat.le_refl _, (List.append_nil _).symm⟩
  | case2 run rest ih =>
      obtain ⟨count, more, hle, heq⟩ := ih
      exact ⟨count, more, Nat.le_of_succ_le hle, heq⟩
  | case3 run rest body after _ _ => exact ⟨2 * run + 1, _, by omega, List.append_assoc ..⟩
  | case4 run rest _ _ => exact ⟨run, _, Nat.le_refl _, rfl⟩
  | case5 run c rest _ _ _ => exact ⟨run, _, Nat.le_refl _, rfl⟩

/-- A bracket that opens no tag opens none after escaping either. -/
theorem tagBody?_escapeAfter {text : List Char} (h : tagBody? text = none) (count : Nat) :
    tagBody? (escapeAfter 0 text ++ backslashes count) = none := by
  unfold escapeAfter
  split
  · cases count with
    | zero => rfl
    | succ count => exact tagBody?_backslashes (Nat.succ_pos count) []
  · next rest =>
    obtain ⟨run, more, hle, heq⟩ := exists_escapeAfter_eq 1 rest
    rw [heq, List.append_assoc, tagBody?_backslashes hle]
  · next rest =>
    split
    · rw [List.append_assoc, List.append_assoc, tagBody?_backslashes (by decide)]
    · exact tagBody?_of_not_startsTag (by decide) _
  · next c rest hslash hopening =>
    by_cases hstarts : startsTag c = true
    · rw [tagBody?, if_pos hstarts, Option.map_eq_none_iff] at h
      have hrest := tagRest?_escapeAfter h 0 count
      rw [backslashes, List.replicate_zero, List.nil_append, List.cons_append, tagBody?,
        if_pos hstarts, hrest]
      rfl
    · exact tagBody?_of_not_startsTag (Bool.eq_false_iff.mpr hstarts) _

/-! ## Pieces of an escaped text -/

theorem pieces_of_tag {rest body after : List Char} (h : tagBody? rest = some (body, after))
    (run : Nat) :
    pieces run ('[' :: rest) =
      .text (backslashes (run / 2)) ::
        (if run % 2 = 1 then .text ('[' :: body ++ [']']) else .tag body) :: pieces 0 after := by
  rw [pieces]
  split
  · next hfound =>
    rw [h] at hfound
    cases hfound
    rfl
  · next hnone =>
    rw [h] at hnone
    cases hnone

theorem pieces_of_no_tag {rest : List Char} (h : tagBody? rest = none) (run : Nat) :
    pieces run ('[' :: rest) = .text (backslashes (run - 1) ++ ['[']) :: pieces 0 rest := by
  rw [pieces]
  split
  · next hfound =>
    rw [h] at hfound
    cases hfound
  · rfl

/-- In an escaped text every tag stands behind an odd number of backslashes. -/
theorem pieces_escapeAfter (run : Nat) (text : List Char) (count : Nat) :
    ∀ piece ∈ pieces 0 (escapeAfter run text ++ backslashes count), piece.isText = true := by
  fun_induction escapeAfter run text with
  | case1 run =>
      rw [backslashes_append, ← List.append_nil (backslashes _), pieces_backslashes, pieces]
      exact List.forall_mem_singleton.mpr rfl
  | case2 run rest ih => exact ih
  | case3 run rest body after htag ih =>
      rw [List.append_assoc, List.append_assoc, pieces_backslashes, List.cons_append,
        List.cons_append, pieces_of_tag (tagBody?_append htag _), if_pos (by omega)]
      exact List.forall_mem_cons.mpr ⟨rfl, List.forall_mem_cons.mpr ⟨rfl, ih⟩⟩
  | case4 run rest htag ih =>
      rw [List.append_assoc, pieces_backslashes, List.cons_append,
        pieces_of_no_tag (tagBody?_escapeAfter htag count)]
      exact List.forall_mem_cons.mpr ⟨rfl, ih⟩
  | case5 run c rest hslash hopening ih =>
      rw [List.append_assoc, pieces_backslashes, List.cons_append, pieces]
      · exact List.forall_mem_cons.mpr ⟨rfl, ih⟩
      · exact hslash
      · exact hopening

/-- Without tags there is nothing that could fail. -/
theorem renderPieces_of_isText {pieces : List Piece} (h : ∀ piece ∈ pieces, piece.isText = true)
    (position : Nat) : ∃ text, renderPieces position [] pieces = .ok (text, []) := by
  induction pieces generalizing position with
  | nil => exact ⟨[], rfl⟩
  | cons piece pieces ih =>
      obtain ⟨hpiece, hpieces⟩ := List.forall_mem_cons.mp h
      cases piece with
      | tag body => cases hpiece
      | text chars =>
          obtain ⟨text, htext⟩ := ih hpieces _
          rw [renderPieces, htext]
          exact ⟨_, rfl⟩

/-! ## What can be printed -/

/-- Whether a marked-up text can be printed. -/
def prints (markup : String) : Bool :=
  (plain markup).toBool

/-- An escaped text can be printed. -/
theorem prints_escape (text : String) : prints (escape text) = true := by
  have hescape : ∃ count,
      (escape text).toList = escapeAfter 0 text.toList ++ backslashes count := by
    rw [escape]
    simp only [String.toList_ofList]
    split
    · exact ⟨1, rfl⟩
    · exact ⟨0, (List.append_nil _).symm⟩
  obtain ⟨count, hchars⟩ := hescape
  obtain ⟨shown, hshown⟩ := renderPieces_of_isText (pieces_escapeAfter 0 text.toList count) 0
  rw [prints, plain, hchars]
  simp only [hshown]
  split
  · rfl
  · rfl

end SchemaModel.Console
