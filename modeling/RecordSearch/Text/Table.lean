import RecordSearch.Text.Width

/-! Tables drawn with lines. Each column is as wide as its widest cell, with a blank on either side;
    the headings lean to the left. A cell whose text has several lines makes its row higher. -/

namespace RecordSearch.Text

/-- The side that the cells of a column lean to. -/
inductive Side where
  | left
  | right
  deriving DecidableEq, Repr

/-- A column of a table. -/
structure Column where
  heading : String
  side : Side
  deriving DecidableEq, Repr

/-- The lines of a cell. -/
abbrev CellLines := List (List Char)

/-- The text of a cell as lines. -/
def cellLines (text : String) : CellLines := pieces (· = '\n') text.toList

/-- The columns on screen that a cell needs. -/
def cellWidth (lines : CellLines) : Nat := (lines.map width).foldl max 0

/-- The columns on screen that each column of cells needs. -/
def columnWidths (rows : List (List CellLines)) : List Nat :=
  rows.foldl (fun widths row =>
    row.zipIdx.map fun (cell, i) => max (widths.getD i 0) (cellWidth cell)) []

/-- A line of a cell, filled up and with a blank on either side. -/
def padded (side : Side) (columns : Nat) (line : List Char) : List Char :=
  let filling := List.replicate (columns - width line) ' '
  match side with
  | .left => ' ' :: line ++ filling ++ [' ']
  | .right => ' ' :: filling ++ line ++ [' ']

/-- The lines of a row. -/
def rowLines (shape : List (Side × Nat)) (row : List CellLines) : List (List Char) :=
  (List.range ((row.map List.length).foldl max 0)).map fun i =>
    let cells := (shape.zip row).map fun ((side, columns), lines) =>
      padded side columns (lines.getD i [])
    '│' :: ['┆'].intercalate cells ++ ['│']

/-- A line between rows, or at an end of the table. -/
def borderLine (first between last filling : Char) (widths : List Nat) : List Char :=
  first :: [between].intercalate (widths.map fun n => List.replicate (n + 2) filling) ++ [last]

/-- A table with its headings; the last line has no end. -/
def table (columns : List Column) (rows : List (List String)) : String :=
  let headings := columns.map fun column => cellLines column.heading
  let body := rows.map fun row => row.map cellLines
  let widths := columnWidths (headings :: body)
  let lines := borderLine '┌' '┬' '┐' '─' widths
    :: rowLines (widths.map (Side.left, ·)) headings
    ++ [borderLine '╞' '╪' '╡' '═' widths]
    ++ body.flatMap (rowLines ((columns.map Column.side).zip widths))
    ++ [borderLine '└' '┴' '┘' '─' widths]
  "\n".intercalate (lines.map String.ofList)

end RecordSearch.Text
