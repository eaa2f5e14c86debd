import Fieldbus.Text.Width

/-!
# Tables

A `Table` has one row of titles and rows of cells below it, and is drawn with box characters: light
lines around it, a double line below the titles, dashed lines between two columns, and a light line
between two rows.  A cell may have several lines; a row is as high as its highest cell, and a column
as wide as its widest line.
-/

set_option autoImplicit false

namespace Fieldbus
namespace Text

/-- A table, all of whose rows have as many cells as there are titles. -/
structure Table where
  titles : List String
  rows : List (List String)

namespace Table

/-- The lines of a cell. -/
def cellLines (cell : String) : List String := cell.splitOn "\n"

/-- The places that a cell takes from left to right. -/
def cellWidth (cell : String) : Nat := ((cellLines cell).map width).foldl max 0

/-- The widths of the columns. -/
def columnWidths (t : Table) : List Nat :=
  t.rows.foldl (fun widths row => widths.zipWith max (row.map cellWidth)) (t.titles.map cellWidth)

/-- A text with one blank before it and so many behind it that it fills its column. -/
def padded (columnWidth : Nat) (text : String) : String :=
  " " ++ text ++ String.ofList (List.replicate (columnWidth - width text + 1) ' ')

/-- The lines of a row. -/
def rowLines (widths : List Nat) (cells : List String) : List String :=
  let cells := cells.map cellLines
  let height := (cells.map List.length).foldl max 0
  (List.range height).map fun i =>
    let parts := cells.zipWith (fun lines w => padded w (lines[i]?.getD "")) widths
    "│" ++ "┆".intercalate parts ++ "│"

/-- A line across all columns. -/
def rule (widths : List Nat) (left stroke joint right : String) : String :=
  let parts := widths.map fun w => String.join (List.replicate (w + 2) stroke)
  left ++ joint.intercalate parts ++ right

/-- The rows, two of which are separated by a line. -/
def bodyLines (widths : List Nat) : List (List String) → List String
  | [] => []
  | [row] => rowLines widths row
  | row :: rest =>
    rowLines widths row ++ rule widths "├" "╌" "┼" "┤" :: bodyLines widths rest

/-- The lines of the table as it is drawn. -/
def lines (t : Table) : List String :=
  let widths := t.columnWidths
  [rule widths "┌" "─" "┬" "┐"] ++ rowLines widths t.titles ++ [rule widths "╞" "═" "╪" "╡"]
    ++ bodyLines widths t.rows ++ [rule widths "└" "─" "┴" "┘"]

end Table
end Text
end Fieldbus
