import Launcher.Json.Printer

/-! Tables drawn with box characters. A row may have fewer cells than there are columns. -/
namespace Launcher

/-- Rows of cells; none is a separator. -/
abbrev Table := List (Option (List String))

namespace Table

def widest : List Nat → List Nat → List Nat
  | [], widths => widths
  | widths, [] => widths
  | a :: rest, b :: others => max a b :: widest rest others

/-- The width of every column: that of its longest cell. -/
def widths (table : Table) : List Nat :=
  table.foldl (fun widths row => widest widths ((row.getD []).map String.length)) []

def padded (width : Nat) (cell : String) : String :=
  cell ++ String.ofList (List.replicate (width - cell.length) ' ')

def border (left middle right : String) (widths : List Nat) : String :=
  left ++ middle.intercalate (widths.map fun w => String.ofList (List.replicate (w + 2) '─')) ++
    right

/-- The cells of a row side by side, missing ones blank. -/
def rowLine (widths : List Nat) (cells : List String) : String :=
  let cells := cells ++ List.replicate (widths.length - cells.length) ""
  "│ " ++ " │ ".intercalate (List.zipWith padded widths cells) ++ " │"

def line (widths : List Nat) : Option (List String) → String
  | none => border "├" "┼" "┤" widths
  | some cells => rowLine widths cells

def lines (table : Table) : List String :=
  let widths := widths table
  border "┌" "┬" "┐" widths :: table.map (line widths) ++ [border "└" "┴" "┘" widths]

end Table
end Launcher
