import RegisterMachine.Text.Lines
import RegisterMachine.Text.Width

/-!
# Grids

A grid is a table of texts under titles.  Every column is as wide as its widest
line and every row as high as its highest cell.  Columns are divided by vertical
bars; a rule follows the titles, and another one closes the grid.

Cells may have several lines, so a grid can hold the text of other grids.
-/

namespace RegisterMachine

namespace Text

/-- The side of a column to which its texts are moved. -/
inductive Alignment where
  | left
  | right
deriving DecidableEq

structure Column where
  title : String
  alignment : Alignment
deriving DecidableEq

/-- Titled columns and rows of cells, one cell for each column. -/
structure Grid where
  columns : List Column
  rows : List (List String)
deriving DecidableEq

/-- A text filled up with blanks to `target` columns. -/
def pad (alignment : Alignment) (target : Nat) (text : String) : String :=
  let blanks := "".pushn ' ' (target - width text)
  match alignment with
  | .left => text ++ blanks
  | .right => blanks ++ text

/-- The number of lines of the highest cell in a row, but at least one. -/
def rowHeight (cells : List (List String)) : Nat :=
  cells.foldl (fun height cell => max height cell.length) 1

/-- The width of the widest line in a cell. -/
def cellWidth (cell : String) : Nat :=
  (lines cell).foldl (fun widest line => max widest (width line)) 0

namespace Grid

def titles (grid : Grid) : List String :=
  grid.columns.map Column.title

def columnWidth (grid : Grid) (index : Nat) : Nat :=
  (grid.titles :: grid.rows).foldl
    (fun widest row => max widest (cellWidth (row.getD index ""))) 0

def measured (grid : Grid) : List (Column × Nat) :=
  grid.columns.mapIdx fun index column => (column, grid.columnWidth index)

/-- One line of a row, which shows line `index` of every cell.  Cells with fewer
lines are blank. -/
def rowLine (columns : List (Column × Nat)) (cells : List (List String))
    (index : Nat) : String :=
  let parts := List.zipWith
    (fun column cell =>
      " " ++ pad column.1.alignment column.2 (cell.getD index "") ++ " ")
    columns cells
  " " ++ "│".intercalate parts ++ " \n"

/-- A row with all its lines. -/
def rowText (columns : List (Column × Nat)) (row : List String) : String :=
  let cells := row.map lines
  String.join ((List.range (rowHeight cells)).map (rowLine columns cells))

/-- A horizontal rule that meets the bars of the columns in `crossing`. -/
def rule (columns : List (Column × Nat)) (crossing : String) : String :=
  let parts := columns.map fun column => "".pushn '─' (column.2 + 2)
  " " ++ crossing.intercalate parts ++ " \n"

def text (grid : Grid) : String :=
  let columns := grid.measured
  rowText columns grid.titles ++ rule columns "┼" ++
    String.join (grid.rows.map (rowText columns)) ++ rule columns "┴"

end Grid

end Text

end RegisterMachine
