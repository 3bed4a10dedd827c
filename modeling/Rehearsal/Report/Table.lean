import Rehearsal.Report
import Rehearsal.Text.Width

/-!
# Tables

A table is drawn with lines around its cells. A column is as wide as the longest line in it, with
a blank on either side; a line feed starts another line of the row.

* `Table.toText`: the drawing;
* `Report.toTable`: the steps of a report, one a row.
-/

namespace Rehearsal

/-- Rows of texts under a header. -/
structure Table where
  /-- The titles of the columns. -/
  header : List String
  /-- The rows. -/
  rows : List (List String) := []
deriving DecidableEq, Inhabited

namespace Table

/-- The lines of a cell. -/
def cellLines (cell : String) : List String := cell.splitOn "\n"

/-- How wide the longest line of a cell is. -/
def cellWidth (cell : String) : Nat := ((cellLines cell).map Text.width).foldl max 0

/-- How wide the columns are, padding aside. -/
def columnWidths (t : Table) : List Nat :=
  t.rows.foldl (fun widths row => List.zipWith max widths (row.map cellWidth)) (t.header.map cellWidth)

/-- A horizontal line: its ends, what it is drawn with, and what stands where columns meet. -/
def rule (left fill junction right : Char) (widths : List Nat) : String :=
  let spans := widths.map fun width => List.replicate (width + 2) fill
  String.ofList (left :: [junction].intercalate spans ++ [right])

/-- One line of a row. -/
def rowLine (widths : List Nat) (texts : List String) : String :=
  "|" ++ String.join (List.zipWith (fun width text => " " ++ Text.padTo width text ++ " |") widths texts)

/-- The lines of a row: as many as its highest cell has. -/
def rowLines (widths : List Nat) (row : List String) : List String :=
  let cells := row.map cellLines
  let height := (cells.map List.length).foldl max 0
  (List.range height).map fun i => rowLine widths (cells.map fun lines => lines.getD i "")

/-- The drawing, without a line feed behind it. -/
def toText (t : Table) : String :=
  let widths := t.columnWidths
  let border := rule '+' '-' '+' '+' widths
  let rows := [rule '|' '-' '+' '|' widths].intercalate (t.rows.map (rowLines widths))
  "\n".intercalate
    ([border] ++ rowLines widths t.header ++ [rule '+' '=' '=' '+' widths] ++ rows ++ [border])

end Table

/-- The row of a step. -/
def StepReport.toRow (r : StepReport) (scenario : String) : List String :=
  [scenario, r.phase.name, r.name, r.kind.name, r.status.word, r.message.getD ""]

/-- The steps of a report as a table. -/
def Report.toTable (r : Report) : Table where
  header := ["Scenario", "Phase", "Step", "Kind", "Status", "Message"]
  rows := r.scenarios.flatMap fun scenario => scenario.steps.map fun step => step.toRow scenario.scenario

end Rehearsal
