import Logbook.Pieces

set_option autoImplicit false

/-! # Tables

Rows of cells as text: a blank on both sides of a cell, a bar between columns and a line under the
header. A column is as wide as its widest cell, and a cell of several lines makes its row as
high. -/

namespace Logbook.Client.Table

abbrev Cell := List (List Char)

/-- The lines of a cell. -/
def cellOf (s : String) : Cell :=
  pieces '\n' s.toList

def cellWidth (c : Cell) : Nat :=
  (c.map List.length).foldl max 0

/-- The widths of columns, at least as many as a row has cells. -/
def widen (widths : List Nat) (row : List Cell) : List Nat :=
  row.zipIdx.map fun (c, i) => max (widths.getD i 0) (cellWidth c)

def padTo (width : Nat) (cs : List Char) : List Char :=
  ' ' :: cs ++ List.replicate (width - cs.length) ' ' ++ [' ']

/-- One line of a row. -/
def lineOf (widths : List Nat) (row : List Cell) (i : Nat) : List Char :=
  ['|'].intercalate ((row.zip widths).map fun (c, width) => padTo width (c.getD i []))

/-- The lines of a row. -/
def linesOf (widths : List Nat) (row : List Cell) : List (List Char) :=
  (List.range ((row.map List.length).foldl max 0)).map (lineOf widths row)

/-- The line under the header. -/
def ruleOf (widths : List Nat) : List Char :=
  ['+'].intercalate (widths.map fun width => List.replicate (width + 2) '-')

/-- The text of a table, without a line end behind its last line. -/
def render (header : List String) (rows : List (List String)) : String :=
  let header := header.map cellOf
  let rows := rows.map (·.map cellOf)
  let widths := (header :: rows).foldl widen []
  "\n".intercalate <| (linesOf widths header ++ ruleOf widths :: rows.flatMap (linesOf widths)).map
    String.ofList

end Logbook.Client.Table
