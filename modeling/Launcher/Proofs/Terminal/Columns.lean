import Launcher.Proofs.Text.Pieces
import Launcher.Terminal.Table
import Mathlib.Algebra.BigOperators.Group.List.Basic
import Mathlib.Algebra.GroupWithZero.Nat
import Mathlib.Data.List.Forall2

/-! The columns of a table. Each is as wide as its longest cell, and stands at one offset in all
lines: those of the rows, of the separators and of the borders are divided at the same places. -/
namespace Launcher.Table
open Text (joinWith joinWith_cons joinWith_eq_intercalate)

/-- The cells of a column, from above. Shorter rows have none. -/
def column (table : Table) (i : Nat) : List String := table.filterMap fun row => (row.getD [])[i]?

/-- How long the longest cell of a column is, if it has one. -/
def longest? (table : Table) (i : Nat) : Option Nat := ((column table i).map String.length).max?

section Widths
variable {table : Table} {row : Option (List String)} {i : Nat}

theorem getElem?_widest (first second : List Nat) (i : Nat) :
    (widest first second)[i]? = Option.merge max first[i]? second[i]? := by
  induction first generalizing second i with
  | nil => cases found : second[i]? <;> simp [widest, found]
  | cons a rest ih =>
    cases second with
    | nil => simp [widest]
    | cons b others =>
      cases i with
      | zero => rfl
      | succ i => simpa [widest] using ih others i

theorem merge_assoc (a b c : Option Nat) :
    Option.merge max (Option.merge max a b) c = Option.merge max a (Option.merge max b c) := by
  cases a <;> cases b <;> cases c <;> simp [Nat.max_assoc]

theorem longest?_cons (row : Option (List String)) (table : Table) (i : Nat) :
    longest? (row :: table) i =
      Option.merge max (((row.getD []).map String.length)[i]?) (longest? table i) := by
  cases cell : (row.getD [])[i]? with
  | none => simp [longest?, column, cell]
  | some cell' =>
    simp only [longest?, column, List.filterMap_cons, cell, List.map_cons, List.max?_cons,
      List.getElem?_map, Option.map_some]
    cases ((List.filterMap (fun row => (Option.getD row [])[i]?) table).map String.length).max? <;>
      simp

theorem foldl_widths (table : Table) (start : List Nat) (i : Nat) :
    (table.foldl (fun widths row => widest widths ((row.getD []).map String.length)) start)[i]? =
      Option.merge max start[i]? (longest? table i) := by
  -- Rows are taken in from above, so the widths of those before may be any.
  induction table generalizing start with
  | nil => simp [longest?, column]
  | cons row table ih => rw [List.foldl_cons, ih, getElem?_widest, merge_assoc, longest?_cons]

/-- A column is as wide as its longest cell, and there is none without a cell. -/
theorem getElem?_widths (table : Table) (i : Nat) : (widths table)[i]? = longest? table i := by
  rw [widths, foldl_widths]
  simp

/-- Each cell of a row fits its column. -/
theorem length_le_widths {cells : List String} {cell : String} (listed : some cells ∈ table)
    (there : cells[i]? = some cell) : ∃ width, (widths table)[i]? = some width ∧
      cell.length ≤ width := by
  have member : cell.length ∈ (column table i).map String.length :=
    List.mem_map_of_mem (List.mem_filterMap.mpr ⟨_, listed, there⟩)
  cases width : longest? table i with
  | none =>
    rw [longest?, List.max?_eq_none_iff] at width
    rw [width] at member
    cases member
  | some width' =>
    exact ⟨width', (getElem?_widths table i).trans width,
      (List.max?_eq_some_iff.mp width).2 _ member⟩

end Widths

/-- Fields between marks. -/
def framed (left middle right : Char) (fields : List (List Char)) : List Char :=
  left :: (joinWith middle fields ++ [right])

section Frames
variable {fields : List (List Char)}

theorem framed_cons (left middle right : Char) (field : List Char) (given : fields ≠ []) :
    framed left middle right (field :: fields) =
      left :: (field ++ framed middle middle right fields) := by
  simp [framed, joinWith_cons _ given]

theorem length_framed (left middle right : Char) (given : fields ≠ []) :
    (framed left middle right fields).length = (fields.map (·.length + 1)).sum + 1 := by
  induction fields generalizing left with
  | nil => contradiction
  | cons field fields ih =>
    by_cases last : fields = []
    · simp [last, framed, joinWith]
    · rw [framed_cons _ _ _ _ last, List.length_cons, List.length_append, ih middle last,
        List.map_cons, List.sum_cons]
      omega

/-- A field stands behind those before it, with a mark on each side. -/
theorem framed_field {front back : List (List Char)} (left middle right : Char)
    (field : List Char) : ∃ before opening closing after,
      framed left middle right (front ++ field :: back) =
        before ++ opening :: (field ++ closing :: after) ∧
      before.length = (front.map (·.length + 1)).sum ∧
      opening ∈ [left, middle] ∧ closing ∈ [middle, right] := by
  induction front generalizing left with
  | nil =>
    by_cases last : back = []
    · exact ⟨[], left, right, [], by simp [last, framed, joinWith], rfl, by simp, by simp⟩
    · exact ⟨[], left, middle, joinWith middle back ++ [right],
        by rw [List.nil_append, framed_cons _ _ _ _ last]; rfl, rfl, by simp, by simp⟩
  | cons first front ih =>
    -- Behind a first field the others are framed again, from the mark between the two on.
    obtain ⟨before, opening, closing, after, shape, length, mark, mark'⟩ := ih middle
    refine ⟨left :: (first ++ before), opening, closing, after, ?_, ?_, by grind, mark'⟩
    · rw [List.cons_append, framed_cons _ _ _ _ (by simp), shape]
      simp
    · rw [List.length_cons, List.length_append, length, List.map_cons, List.sum_cons]
      omega

/-- Blanks may be counted with the fields or with the marks. -/
theorem framed_spaced (mark : Char) (given : fields ≠ []) :
    framed mark mark mark (fields.map fun field => ' ' :: (field ++ [' '])) =
      [mark, ' '] ++ [' ', mark, ' '].intercalate fields ++ [' ', mark] := by
  induction fields with
  | nil => contradiction
  | cons field fields ih =>
    by_cases last : fields = []
    · simp [last, framed, joinWith]
    · rw [List.map_cons, framed_cons _ _ _ _ (by simpa using last), ih last,
        List.intercalate_cons_of_ne_nil last]
      simp

end Frames

/-- What a line shows in a column: a cell at the left, with blanks around it, or dashes. -/
def field (row : Option (List String)) (i width : Nat) : List Char :=
  match row with
  | none => List.replicate (width + 2) '─'
  | some cells =>
    let cell := cells[i]?.getD ""
    ' ' :: (cell.toList ++ List.replicate (width + 1 - cell.length) ' ')

def fields (widths : List Nat) (row : Option (List String)) : List (List Char) :=
  widths.mapIdx (field row)

/-- How many characters stand before a column, for which the line itself does not matter. -/
def offset (widths : List Nat) (i : Nat) : Nat := ((widths.take i).map (· + 3)).sum

/-- The characters that may stand between two columns. -/
def marks : List Char := ['┌', '┬', '┐', '├', '┼', '┤', '└', '┴', '┘', '│']

/-- No cell is beyond the last column or too long for its own. -/
def Fits (widths : List Nat) (row : Option (List String)) : Prop :=
  ∀ (i : Nat) (cell : String), (row.getD [])[i]? = some cell →
    ∃ width, widths[i]? = some width ∧ cell.length ≤ width

/-- A line that shows a row, or a separator, in columns of the widths. -/
structure IsLine (widths : List Nat) (row : Option (List String)) (line : String) : Prop where
  length : line.length = widths.sum + 3 * widths.length + 1
  fits : Fits widths row
  columns : ∀ i width, widths[i]? = some width → ∃ before opening closing after,
    line.toList = before ++ opening :: (field row i width ++ closing :: after) ∧
    before.length = offset widths i ∧ (field row i width).length = width + 2 ∧
    opening ∈ marks ∧ closing ∈ marks

section Lines
variable {widths : List Nat} {row : Option (List String)} {i width : Nat}

theorem fits_none : Fits widths none := by
  intro i cell there
  simp at there

theorem Fits.short {cells : List String} (fits : Fits widths (some cells))
    (there : widths[i]? = some width) : (cells[i]?.getD "").length ≤ width := by
  cases found : cells[i]? with
  | none => exact Nat.zero_le _
  | some cell =>
    obtain ⟨width', there', short⟩ := fits i cell found
    obtain rfl : width = width' := Option.some.inj (there.symm.trans there')
    exact short

theorem length_field (fits : Fits widths row) (there : widths[i]? = some width) :
    (field row i width).length = width + 2 := by
  cases row with
  | none => simp [field]
  | some cells =>
    have short := fits.short there
    simp only [field, List.length_cons, List.length_append, String.length_toList,
      List.length_replicate]
    omega

theorem map_length_fields (fits : Fits widths row) :
    (fields widths row).map (·.length + 1) = widths.map (· + 3) := by
  apply List.ext_getElem?
  intro i
  cases there : widths[i]? with
  | none => simp [fields, there]
  | some width => simp [fields, there, length_field fits there]

/-- Fields of their widths between marks are a line. -/
theorem isLine_framed (given : widths ≠ []) (fits : Fits widths row) {left middle right : Char}
    (box : left ∈ marks) (box' : middle ∈ marks) (box'' : right ∈ marks) {line : String}
    (shape : line.toList = framed left middle right (fields widths row)) :
    IsLine widths row line where
  length := by
    have sum : (widths.map (· + 3)).sum = widths.sum + 3 * widths.length := by
      rw [List.sum_map_add, List.map_id', List.map_const', List.sum_replicate, Nat.mul_comm]
      rfl
    rw [← String.length_toList, shape, length_framed _ _ _ (by simpa [fields] using given),
      map_length_fields fits, sum]
  fits := fits
  columns i width there := by
    have inside : (fields widths row)[i]? = some (field row i width) := by simp [fields, there]
    obtain ⟨bound, found⟩ := List.getElem?_eq_some_iff.mp inside
    obtain ⟨before, opening, closing, after, parts, length, mark, mark'⟩ :=
      @framed_field ((fields widths row).take i) ((fields widths row).drop (i + 1))
        left middle right (field row i width)
    rw [← found, List.getElem_cons_drop, List.take_append_drop, found] at parts
    refine ⟨before, opening, closing, after, shape.trans parts, ?_, length_field fits there,
      by grind, by grind⟩
    rw [length, List.map_take, map_length_fields fits, ← List.map_take, offset]

theorem toList_border (left middle right : Char) (widths : List Nat) :
    (border left.toString middle.toString right.toString widths).toList =
      framed left middle right (fields widths none) := by
  have dashes : fields widths none = widths.map fun width => List.replicate (width + 2) '─' := by
    apply List.ext_getElem?
    intro i
    simp only [fields, List.getElem?_mapIdx, List.getElem?_map]
    rfl
  simp [border, framed, String.toList_intercalate, joinWith_eq_intercalate, dashes,
    Function.comp_def]

/-- Missing cells are empty ones. -/
theorem getElem?_filled (cells : List String) {columns : Nat} (within : i < columns) :
    (cells ++ List.replicate (columns - cells.length) "")[i]? = some (cells[i]?.getD "") := by
  by_cases inside : i < cells.length
  · simp [List.getElem?_append_left inside, inside]
  · rw [List.getElem?_append_right (by omega), List.getElem?_replicate, if_pos (by omega),
      List.getElem?_eq_none (by omega)]
    rfl

theorem zipWith_padded (widths : List Nat) (cells : List String) :
    (List.zipWith padded widths (cells ++ List.replicate (widths.length - cells.length) "")) =
      widths.mapIdx fun i width => padded width (cells[i]?.getD "") := by
  apply List.ext_getElem?
  intro i
  rw [List.getElem?_zipWith, List.getElem?_mapIdx]
  cases there : widths[i]? with
  | none => rfl
  | some width =>
    rw [getElem?_filled cells (List.getElem?_eq_some_iff.mp there).1]
    rfl

/-- The blank behind a cell is one more of those that make it as wide as its column. -/
theorem field_eq {cells : List String} (fits : Fits widths (some cells))
    (there : widths[i]? = some width) :
    field (some cells) i width = ' ' :: ((padded width (cells[i]?.getD "")).toList ++ [' ']) := by
  have short := fits.short there
  have blanks : width + 1 - (cells[i]?.getD "").length =
      width - (cells[i]?.getD "").length + 1 := by omega
  rw [field, blanks, List.replicate_succ']
  simp [padded]

theorem toList_rowLine {cells : List String} (given : widths ≠ [])
    (fits : Fits widths (some cells)) :
    (rowLine widths cells).toList = framed '│' '│' '│' (fields widths (some cells)) := by
  let shown := widths.mapIdx fun i width => (padded width (cells[i]?.getD "")).toList
  have parts : fields widths (some cells) = shown.map fun cell => ' ' :: (cell ++ [' ']) := by
    apply List.ext_getElem?
    intro i
    cases there : widths[i]? with
    | none => simp [fields, shown, there]
    | some width => simp [fields, shown, there, field_eq fits there]
  have texts : (widths.mapIdx fun i width => padded width (cells[i]?.getD "")).map String.toList =
      shown := by
    apply List.ext_getElem?
    simp [shown, Function.comp_def]
  rw [parts, framed_spaced '│' (by simpa [shown] using given), ← texts]
  simp [rowLine, zipWith_padded, String.toList_intercalate]

theorem border_isLine (given : widths ≠ []) {left middle right : Char} (box : left ∈ marks)
    (box' : middle ∈ marks) (box'' : right ∈ marks) :
    IsLine widths none (border left.toString middle.toString right.toString widths) :=
  isLine_framed given fits_none box box' box'' (toList_border left middle right widths)

theorem line_isLine (given : widths ≠ []) (fits : Fits widths row) :
    IsLine widths row (line widths row) := by
  cases row with
  | none => exact @border_isLine _ given '├' '┼' '┤' (by decide) (by decide) (by decide)
  | some cells =>
    exact isLine_framed given fits (by decide) (by decide) (by decide) (toList_rowLine given fits)

end Lines

section Whole
variable {table : Table}

theorem fits_widths {row : Option (List String)} (listed : row ∈ table) :
    Fits (widths table) row := by
  cases row with
  | none => exact fits_none
  | some cells => exact fun i cell there => length_le_widths listed there

theorem widths_ne_nil {cells : List String} (listed : some cells ∈ table) (given : cells ≠ []) :
    widths table ≠ [] := by
  obtain ⟨cell, rest, rfl⟩ := List.exists_cons_of_ne_nil given
  obtain ⟨width, there, -⟩ := @length_le_widths table 0 _ cell listed rfl
  exact List.ne_nil_of_length_pos (List.getElem?_eq_some_iff.mp there).1

/-- All lines of a table that has a cell are equally long and show its rows in the same columns,
which are as wide as their longest cells. -/
theorem lines_aligned (table : Table) (given : ∃ cells, some cells ∈ table ∧ cells ≠ []) :
    (∀ i, (widths table)[i]? = longest? table i) ∧ (lines table).length = table.length + 2 ∧
      List.Forall₂ (IsLine (widths table)) (none :: table ++ [none]) (lines table) := by
  obtain ⟨cells, listed, cell⟩ := given
  have columns := widths_ne_nil listed cell
  have top := @border_isLine _ columns '┌' '┬' '┐' (by decide) (by decide) (by decide)
  have bottom := @border_isLine _ columns '└' '┴' '┘' (by decide) (by decide) (by decide)
  have rows : List.Forall₂ (IsLine (widths table)) table (table.map (line (widths table))) := by
    rw [List.forall₂_map_right_iff, List.forall₂_same]
    exact fun row listed => line_isLine columns (fits_widths listed)
  refine ⟨getElem?_widths table, by simp [lines], ?_⟩
  exact List.rel_append (.cons top rows) (.cons bottom .nil)

theorem lines_aligned_versions :
    (lines [some ["Type", "Name"], none, some ["release", "1.20.1", "local"]]).length = 5 ∧
      List.Forall₂ (IsLine [7, 6, 5])
        [none, some ["Type", "Name"], none, some ["release", "1.20.1", "local"], none]
        (lines [some ["Type", "Name"], none, some ["release", "1.20.1", "local"]]) :=
  (lines_aligned [some ["Type", "Name"], none, some ["release", "1.20.1", "local"]]
    ⟨["Type", "Name"], by simp, by simp⟩).2

-- Without a cell there is no column, and blanks stand between the marks of a row.
example : lines [some []] = ["┌┐", "│  │", "└┘"] := by decide

end Whole
end Launcher.Table
