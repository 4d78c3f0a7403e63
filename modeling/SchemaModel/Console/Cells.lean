import SchemaModel.Text.Blank

/-!
# Cells of a screen

A text is laid out in cells of equal width.  A control character and a separator of lines take no
cell and every other character takes one.  A tab fills up to the next column that is a multiple of
eight, and a line that does not fit its width is broken between words; a word that does not fit by
itself is cut off.
-/

namespace SchemaModel.Console

def charCells (c : Char) : Nat :=
  if c.toNat < 0x20 || (0x7f ≤ c.toNat && c.toNat < 0xa0) || c.toNat = 0x2028 ||
      c.toNat = 0x2029 then 0
  else 1

def cells (text : List Char) : Nat :=
  text.foldl (fun count c => count + charCells c) 0

/-- A text with its tabs filled up, from a column on. -/
def expandTabs (column : Nat) : List Char → List Char
  | [] => []
  | '\t' :: rest =>
    let width := 8 - column % 8
    List.replicate width ' ' ++ expandTabs (column + width) rest
  | '\n' :: rest => '\n' :: expandTabs 0 rest
  | c :: rest => c :: expandTabs (column + charCells c) rest

def addToWords (c : Char) : List (List Char) → List (List Char)
  | [] => [[c]]
  | word :: words =>
    let starts := match word with
      | [] => false
      | next :: _ => Text.separatesWords c && !Text.separatesWords next
    if starts then [c] :: word :: words else (c :: word) :: words

/-- The words of a line, each with the blanks behind it, and the first also with those before it.  A
line of blanks has no words. -/
def wordsOfLine (line : List Char) : List (List Char) :=
  let rest := line.dropWhile Text.separatesWords
  match rest.foldr addToWords [] with
  | [] => []
  | word :: words => (line.takeWhile Text.separatesWords ++ word) :: words

def bareWord (word : List Char) : List Char :=
  (word.reverse.dropWhile Text.separatesWords).reverse

/-- The lines that words make up, given the line so far and the cells that it takes.  A word that
does not fit starts a new line. -/
def fillLines (width : Nat) (line : List Char) (taken : Nat) :
    List (List Char) → List (List Char)
  | [] => [line]
  | word :: words =>
    if taken + cells (bareWord word) ≤ width then
      fillLines width (line ++ word) (taken + cells word) words
    else if line.isEmpty then fillLines width word (cells word) words
    else line :: fillLines width word (cells word) words

def takeCells (count : Nat) : List Char → List Char
  | [] => []
  | c :: rest => if charCells c ≤ count then c :: takeCells (count - charCells c) rest else []

def dropExcessBlanks (width : Nat) (line : List Char) : List Char :=
  let blanks := (line.reverse.takeWhile Text.separatesWords).length
  line.take (line.length - min blanks (line.length - width))

def cutLine (width : Nat) (line : List Char) : List Char :=
  if width < cells line then takeCells (width - 1) line ++ ['…'] else line

def padLine (width : Nat) (line : List Char) : List Char :=
  line ++ List.replicate (width - cells line) ' '

def wrapLine (width : Nat) (line : List Char) : List (List Char) :=
  let line := expandTabs 0 line
  let lines :=
    match wordsOfLine line with
    | [] => [line]
    | words => fillLines width [] 0 words
  lines.map fun line => cutLine width (dropExcessBlanks width line)

end SchemaModel.Console
