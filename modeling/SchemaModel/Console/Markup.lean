import SchemaModel.Console.Literal.Basic
import SchemaModel.Console.Style
import SchemaModel.Text.Word

/-!
# Markup

Text that is printed may hold tags in square brackets.  A tag starts with a small letter, `#`, `/`
or `@` and ends at the next closing bracket; it changes the style of what follows and prints
nothing.  A backslash before it takes away its meaning.  `escape` writes a text so that it prints
literally, and `plain` gives the text that a marked-up text prints, unless the markup is faulty.

A tag that starts with `@` names a handler; its parameters are read when it is closed and must be
literals.  The other tags style the text up to where they are closed, or to its end.
-/

namespace SchemaModel.Console

def startsTag (c : Char) : Bool :=
  ('a' ≤ c && c ≤ 'z') || c = '#' || c = '/' || c = '@'

/-- The characters up to a closing bracket and those after it, unless another bracket opens
before. -/
def tagRest? : List Char → Option (List Char × List Char)
  | [] => none
  | ']' :: rest => some ([], rest)
  | '[' :: _ => none
  | c :: rest => (tagRest? rest).map fun found => (c :: found.1, found.2)

/-- The body of a tag after its opening bracket, and what follows the tag. -/
def tagBody? : List Char → Option (List Char × List Char)
  | [] => none
  | c :: rest =>
    if startsTag c then (tagRest? rest).map fun found => (c :: found.1, found.2) else none

theorem length_of_tagRest? {text body rest : List Char} (h : tagRest? text = some (body, rest)) :
    rest.length < text.length := by
  fun_induction tagRest? text generalizing body rest with
  | case1 => cases h
  | case2 text =>
    cases h
    exact Nat.lt_succ_self _
  | case3 => cases h
  | case4 c text _ _ ih =>
    obtain ⟨found, there, same⟩ := Option.map_eq_some_iff.1 h
    cases same
    exact Nat.lt_succ_of_lt (ih there)

theorem length_of_tagBody? {text body rest : List Char} (h : tagBody? text = some (body, rest)) :
    rest.length < text.length := by
  unfold tagBody? at h
  split at h
  · cases h
  · split at h
    · obtain ⟨found, there, same⟩ := Option.map_eq_some_iff.1 h
      cases same
      exact Nat.lt_succ_of_lt (length_of_tagRest? there)
    · cases h

inductive Piece where
  | text (chars : List Char)
  | tag (body : List Char)
  deriving DecidableEq, Inhabited

def backslashes (count : Nat) : List Char :=
  List.replicate count '\\'

/-- The pieces of a marked-up text after a run of backslashes.  Before a tag two backslashes print
one and an odd one takes away the meaning of the tag; before any other bracket one backslash is
dropped. -/
def pieces (run : Nat) (text : List Char) : List Piece :=
  match text with
  | [] => [.text (backslashes run)]
  | '\\' :: rest => pieces (run + 1) rest
  | '[' :: rest =>
    match _h : tagBody? rest with
    | some (body, after) =>
      let piece := if run % 2 = 1 then .text ('[' :: body ++ [']']) else .tag body
      .text (backslashes (run / 2)) :: piece :: pieces 0 after
    | none => .text (backslashes (run - 1) ++ ['[']) :: pieces 0 rest
  | c :: rest => .text (backslashes run ++ [c]) :: pieces 0 rest
termination_by text.length
decreasing_by
  · exact Nat.lt_succ_self _
  · exact Nat.lt_succ_of_lt (length_of_tagBody? _h)
  · exact Nat.lt_succ_self _
  · exact Nat.lt_succ_self _

/-- Why a marked-up text cannot be printed: a tag is closed that is not open, the parameters of a
handler are no literals, or a style lacks a number. -/
inductive MarkupFault where
  | notOpen
  | parameters
  | number
  deriving DecidableEq, Inhabited

def tagName (body : List Char) : List Char :=
  body.takeWhile (· ≠ '=')

def tagParameters? (body : List Char) : Option (List Char) :=
  match body.dropWhile (· ≠ '=') with
  | [] => none
  | _ :: parameters => some parameters

/-- A tag that is open from a position of the printed text on. -/
structure OpenTag where
  start : Nat
  name : String
  parameters : Option (List Char)
  deriving DecidableEq, Inhabited

structure Span where
  start : Nat
  stop : Nat
  style : List Char
  deriving DecidableEq, Inhabited

def OpenTag.span (tag : OpenTag) (stop : Nat) : Span :=
  let style := tag.name.toList ++
    match tag.parameters with
    | none => []
    | some parameters => ' ' :: parameters
  ⟨tag.start, stop, style⟩

def OpenTag.isHandler (tag : OpenTag) : Bool :=
  tag.name.toList.head? = some '@'

/-- Whether the parameters of a handler can be read: a dotted name, with or without literals in
round brackets on the same line, or literals alone. -/
def isHandlerCall (parameters : List Char) : Bool :=
  let text := Text.trimWith Text.separatesWords parameters
  let call := text.dropWhile fun c => Text.isWordChar c || c = '.'
  let bracketed := call.head? = some '(' && call.getLast? = some ')' && !call.contains '\n'
  if call.isEmpty then true
  else if bracketed then isLiteral call
  else isLiteral text

/-- The stretches that closing a tag leaves: none for a handler, whose parameters are read now. -/
def OpenTag.close (tag : OpenTag) (stop : Nat) : Except MarkupFault (List Span) :=
  if tag.isHandler then
    match tag.parameters with
    | some (c :: rest) => if isHandlerCall (c :: rest) then .ok [] else .error .parameters
    | _ => .ok []
  else .ok [tag.span stop]

def matchName (name : List Char) : Except MarkupFault String :=
  match styleName? name with
  | some name => .ok name
  | none => .error .number

def takeTag? (name : String) : List OpenTag → Option (OpenTag × List OpenTag)
  | [] => none
  | tag :: tags =>
    if tag.name = name then some (tag, tags)
    else (takeTag? name tags).map fun found => (found.1, tag :: found.2)

/-- The open tags after a tag at a position, the last one first, and the stretches that end there.
An opening tag is added; a closing one removes the last open tag of its name, or the last of all if
it has no name, and there must be one. -/
def nextOpen (position : Nat) (opened : List OpenTag) (body : List Char) :
    Except MarkupFault (List OpenTag × List Span) :=
  match tagName body with
  | '/' :: name =>
    if (Text.trimWith Text.separatesWords name).isEmpty then
      match opened with
      | [] => .error .notOpen
      | tag :: rest => do .ok (rest, ← tag.close position)
    else do
      let name ← matchName name
      match takeTag? name opened with
      | none => .error .notOpen
      | some (tag, rest) => .ok (rest, ← tag.close position)
  | name => do
    let tag : OpenTag := ⟨position, ← matchName name, tagParameters? body⟩
    .ok (tag :: opened, [])

def isDropped (c : Char) : Bool :=
  [7, 8, 11, 12, 13].contains c.toNat

/-- The text and the styled stretches of pieces from a position on, where tags are open. -/
def renderPieces (position : Nat) (opened : List OpenTag) :
    List Piece → Except MarkupFault (List Char × List Span)
  | [] => .ok ([], opened.map (·.span position))
  | .text chars :: rest => do
    let kept := chars.filter fun c => !isDropped c
    let (text, spans) ← renderPieces (position + kept.length) opened rest
    .ok (kept ++ text, spans)
  | .tag body :: rest => do
    let (opened, ended) ← nextOpen position opened body
    let (text, spans) ← renderPieces position opened rest
    .ok (text, ended ++ spans)

/-- Whether a stretch of a text is styled when the text is printed.  Cutting a text into lines, or
filling up its tabs, loses the stretches without a character of a line. -/
def Span.isPrinted (span : Span) (text : List Char) : Bool :=
  let covered := (text.drop span.start).take (span.stop - span.start)
  if text.contains '\n' then covered.any (· ≠ '\n')
  else if text.contains '\t' then !covered.isEmpty
  else true

def plain (markup : String) : Except MarkupFault String :=
  let chars := markup.toList
  if chars.contains '[' then do
    let (text, spans) ← renderPieces 0 [] (pieces 0 chars)
    if spans.any fun span => lacksNumber span.style && span.isPrinted text then .error .number
    else .ok (String.ofList text)
  else .ok (String.ofList (chars.filter fun c => !isDropped c))

/-- A text after a run of backslashes, with the tags in it disarmed. -/
def escapeAfter (run : Nat) (text : List Char) : List Char :=
  match text with
  | [] => backslashes run
  | '\\' :: rest => escapeAfter (run + 1) rest
  | '[' :: rest =>
    match _h : tagBody? rest with
    | some (body, after) =>
      backslashes (2 * run + 1) ++ '[' :: body ++ ']' :: escapeAfter 0 after
    | none => backslashes run ++ '[' :: escapeAfter 0 rest
  | c :: rest => backslashes run ++ c :: escapeAfter 0 rest
termination_by text.length
decreasing_by
  · exact Nat.lt_succ_self _
  · exact Nat.lt_succ_of_lt (length_of_tagBody? _h)
  · exact Nat.lt_succ_self _
  · exact Nat.lt_succ_self _

/-- A text written so that it prints literally.  A single backslash at its end is doubled. -/
def escape (text : String) : String :=
  let escaped := escapeAfter 0 text.toList
  let ending := (escaped.reverse.takeWhile (· = '\\')).length
  String.ofList (if ending = 1 then escaped ++ ['\\'] else escaped)

end SchemaModel.Console
