import SchemaModel.Console.Literal.Token
import SchemaModel.Text.Split

/-!
# Literals

A literal is a number, a quoted text, one of the constants `True`, `False`, `None` and `...`, or a
tuple, a set or a table of literals.  A number may have one sign, and a real number may be followed
by an imaginary one that is added or subtracted; nothing else is computed.  What a set holds, and
what a table is indexed by, must be fixed for good.
-/

namespace SchemaModel.Console.Literal

def maxDepth : Nat := 200

def named? (nested : Bool) (text : List Char) : Option (Nature × List Char) :=
  let word := String.ofList (text.takeWhile continuesWord)
  let rest := text.dropWhile continuesWord
  if ["True", "False", "None"].contains word then some (.fixed, rest)
  else if word = "set" then do
    match ← dropGap? nested false rest with
    | '(' :: rest =>
      match ← dropGap? true false rest with
      | ')' :: rest => some (.mutable, rest)
      | _ => none
    | _ => none
  else none

mutual

/-- An expression inside a number of brackets: a literal, a signed number or a complex one.  What
follows it starts with no blank. -/
def expression? (fuel depth : Nat) (text : List Char) : Option (Nature × List Char) :=
  match fuel with
  | 0 => none
  | fuel + 1 => do
    let nested := 0 < depth
    let text ← dropGap? nested false text
    let (left, rest) ←
      match text with
      | [] => none
      | c :: rest =>
        if c = '+' ∨ c = '-' then do
          let (nature, rest) ← atom? fuel depth (← dropGap? nested false rest)
          match nature with
          | .real => some (Nature.signedReal, rest)
          | .imaginary => some (.fixed, rest)
          | _ => none
        else atom? fuel depth text
    match ← dropGap? nested false rest with
    | [] => some (left, [])
    | c :: rest =>
      if c = '+' ∨ c = '-' then
        if left = .real ∨ left = .signedReal then do
          let (right, rest) ← atom? fuel depth (← dropGap? nested false rest)
          if right = .imaginary then some (.fixed, ← dropGap? nested false rest) else none
        else none
      else some (left, c :: rest)

def atom? (fuel depth : Nat) (text : List Char) : Option (Nature × List Char) :=
  match fuel with
  | 0 => none
  | fuel + 1 =>
    match text with
    | [] => none
    | '(' :: rest => if depth < maxDepth then group? fuel (depth + 1) rest else none
    | '\x7b' :: rest => if depth < maxDepth then braces? fuel (depth + 1) rest else none
    | '.' :: '.' :: '.' :: rest => some (.fixed, rest)
    | c :: _ =>
      match quoting? text with
      | some (form, _) =>
        (afterStrings? (0 < depth) (text.length + 1) form.bytes text).map fun rest => (.fixed, rest)
      | none => if c.isDigit || c = '.' then number? text else named? (0 < depth) text

/-- What round brackets hold: nothing, a literal that stands for itself, or the parts of a tuple. -/
def group? (fuel depth : Nat) (text : List Char) : Option (Nature × List Char) :=
  match fuel with
  | 0 => none
  | fuel + 1 => do
    match ← dropGap? true false text with
    | ')' :: rest => some (.fixed, rest)
    | text =>
      let (nature, rest) ← expression? fuel depth text
      match rest with
      | ')' :: rest => some (nature, rest)
      | ',' :: rest =>
        let (fixed, rest) ← items? fuel depth ')' rest
        some (if nature.isFixed && fixed then .fixed else .mutable, rest)
      | _ => none

/-- What curly brackets hold: an empty table, the entries of a table or the members of a set. -/
def braces? (fuel depth : Nat) (text : List Char) : Option (Nature × List Char) :=
  match fuel with
  | 0 => none
  | fuel + 1 => do
    match ← dropGap? true false text with
    | '\x7d' :: rest => some (.mutable, rest)
    | text =>
      let (nature, rest) ← expression? fuel depth text
      if nature.isFixed then
        match rest with
        | '\x7d' :: rest => some (.mutable, rest)
        | ',' :: rest =>
          let (fixed, rest) ← items? fuel depth '\x7d' rest
          if fixed then some (.mutable, rest) else none
        | ':' :: rest =>
          let (_, rest) ← expression? fuel depth rest
          let rest ← entries? fuel depth rest
          some (.mutable, rest)
        | _ => none
      else none

def items? (fuel depth : Nat) (closing : Char) (text : List Char) : Option (Bool × List Char) :=
  match fuel with
  | 0 => none
  | fuel + 1 => do
    match ← dropGap? true false text with
    | [] => none
    | c :: rest =>
      if c = closing then some (true, rest)
      else
        let (nature, rest) ← expression? fuel depth (c :: rest)
        match rest with
        | [] => none
        | c :: rest =>
          if c = closing then some (nature.isFixed, rest)
          else if c = ',' then
            let (fixed, rest) ← items? fuel depth closing rest
            some (nature.isFixed && fixed, rest)
          else none

def entries? (fuel depth : Nat) (text : List Char) : Option (List Char) :=
  match fuel with
  | 0 => none
  | fuel + 1 =>
    match text with
    | '\x7d' :: rest => some rest
    | ',' :: rest => do
      match ← dropGap? true false rest with
      | '\x7d' :: rest => some rest
      | text =>
        let (nature, rest) ← expression? fuel depth text
        match nature.isFixed, rest with
        | true, ':' :: rest =>
          let (_, rest) ← expression? fuel depth rest
          entries? fuel depth rest
        | _, _ => none
    | _ => none

end

def isBlankTail (comment : Bool) : List Char → Bool
  | [] => true
  | c :: rest =>
    if c = '\n' then isBlankTail false rest
    else if comment then isBlankTail true rest
    else if isGap c then isBlankTail false rest
    else c = '#' && isBlankTail true rest

def isSequence (fuel : Nat) (text : List Char) : Bool :=
  match fuel with
  | 0 => false
  | fuel + 1 =>
    match expression? fuel 0 text with
    | none => false
    | some (_, ',' :: rest) => isBlankTail false rest || isSequence fuel rest
    | some (_, rest) => isBlankTail false rest

/-- The first line that holds more than blanks and a comment, and those after it. -/
def dropEmptyLines (fuel : Nat) (text : List Char) : List Char :=
  match fuel with
  | 0 => text
  | fuel + 1 =>
    match text.dropWhile isGap with
    | '\n' :: rest => dropEmptyLines fuel rest
    | '#' :: rest => dropEmptyLines fuel ((rest.dropWhile (· ≠ '\n')).drop 1)
    | _ => text

/-- Whether a line starts without an indentation; a form feed puts an end to one. -/
def isFlush (text : List Char) : Bool :=
  match (text.takeWhile isGap).getLast? with
  | none => true
  | some c => c = '\x0c'

end Literal

def isLiteral (text : List Char) : Bool :=
  let lines := Literal.dropEmptyLines (text.length + 1) (Text.unifyLineEnds text)
  !text.contains '\x00' && Literal.isFlush lines &&
    Literal.isSequence (6 * text.length + 6) lines

end SchemaModel.Console
