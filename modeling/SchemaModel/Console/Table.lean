import SchemaModel.Console.Cells
import SchemaModel.Text.Split

/-!
# Tables

A table is drawn with a heavy frame around its header and a light one around its rows.  A column
is as wide as its longest cell, and every cell has a blank on both sides.  The longest cell is found
before tabs are filled up and with every kind of line end taken for one, so a line of a cell can
turn out longer than its column and is then broken.
-/

namespace SchemaModel.Console

structure Table where
  header : List String
  rows : List (List String)
  deriving DecidableEq, Inhabited

structure Frame where
  left : Char
  fill : Char
  middle : Char
  right : Char

/-- Whether a character ends a line when a cell is measured. -/
def endsLine (c : Char) : Bool :=
  [0xa, 0xb, 0xc, 0xd, 0x1c, 0x1d, 0x1e, 0x85, 0x2028, 0x2029].contains c.toNat

def cellWidth (cell : String) : Nat :=
  ((Text.split endsLine cell.toList).map cells).foldl max 0

def cellLines (width : Nat) (cell : String) : List (List Char) :=
  (Text.split (· = '\n') cell.toList).flatMap (wrapLine width)

namespace Table

def widths (table : Table) : List Nat :=
  table.rows.foldl (fun widths row => List.zipWith (fun width cell => max width (cellWidth cell))
    widths row) (table.header.map cellWidth)

def rule (frame : Frame) (widths : List Nat) : List Char :=
  let bars := widths.map fun width => List.replicate (width + 2) frame.fill
  frame.left :: [frame.middle].intercalate bars ++ [frame.right]

def line (bar : Char) (widths : List Nat) (lines : List (List Char)) : List Char :=
  let padded := List.zipWith (fun width line => ' ' :: padLine width line ++ [' ']) widths lines
  bar :: [bar].intercalate padded ++ [bar]

def rowLines (bar : Char) (widths : List Nat) (row : List String) : List (List Char) :=
  let columns := List.zipWith cellLines widths row
  let height := (columns.map List.length).foldl max 0
  (List.range height).map fun index =>
    line bar widths (columns.map fun column => column.getD index [])

def text (table : Table) : String :=
  let widths := table.widths
  let lines :=
    [rule ⟨'┏', '━', '┳', '┓'⟩ widths] ++ rowLines '┃' widths table.header ++
      [rule ⟨'┡', '━', '╇', '┩'⟩ widths] ++ table.rows.flatMap (rowLines '│' widths) ++
      [rule ⟨'└', '─', '┴', '┘'⟩ widths]
  String.ofList (lines.flatMap fun line => line ++ ['\n'])

end Table

end SchemaModel.Console
