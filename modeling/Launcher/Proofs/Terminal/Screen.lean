import Launcher.Terminal.Output
import Mathlib.Data.List.Basic

/-! A terminal that shows what is written to it. Letters are printed over what stands at the cursor,
a carriage return leads back to the first column, and codes of colours take no room. What does not
fit a line goes on in the next one. -/
namespace Launcher

/-- Lines that were left, the current one, the column of the cursor in it, and whether a code is
being read. -/
structure Screen where
  above : List (List Char)
  line : List Char
  column : Nat
  coded : Bool
  deriving DecidableEq, Repr

namespace Screen

def blank : Screen := ⟨[], [], 0, false⟩

/-- Leaves the current line for a new one. -/
def feed (s : Screen) : Screen := { s with above := s.above ++ [s.line], line := [], column := 0 }

/-- Puts a character in the place of the one at the cursor. -/
def overwrite (s : Screen) (c : Char) : Screen :=
  { s with line := s.line.take s.column ++ c :: s.line.drop (s.column + 1), column := s.column + 1 }

/-- Shows one character. A code ends with its first letter, which is an `m` if it is a colour's. -/
def put (columns : Nat) (s : Screen) (c : Char) : Screen :=
  if s.coded then { s with coded := c ≠ 'm' }
  else if c = '\x1b' then { s with coded := true }
  else if c = '\r' then { s with column := 0 }
  else if c = '\n' then s.feed
  else if s.column < columns then s.overwrite c
  else s.feed.overwrite c

def write (columns : Nat) (s : Screen) (text : List Char) : Screen := text.foldl (put columns) s

end Screen

/-- A control character, which is not printed. -/
def Text.IsControl (c : Char) : Prop := c.toNat < 0x20 ∨ 0x7F ≤ c.toNat ∧ c.toNat < 0xA0

instance : DecidablePred Text.IsControl := fun _ => inferInstanceAs (Decidable (_ ∨ _))

namespace Screen

/-- A text all of whose characters are printed. -/
def IsPrinted (text : List Char) : Prop := ∀ c ∈ text, ¬ Text.IsControl c

instance (text : List Char) : Decidable (IsPrinted text) :=
  List.decidableBAll (fun c => ¬ Text.IsControl c) text

variable {columns : Nat} {s : Screen} {c : Char} {text : List Char}

theorem write_append (columns : Nat) (s : Screen) (first second : List Char) :
    s.write columns (first ++ second) = (s.write columns first).write columns second :=
  List.foldl_append

theorem IsPrinted.unfed (printed : IsPrinted text) : '\n' ∉ text :=
  fun member => printed _ member (by decide)

theorem put_printed (plain : s.coded = false) (printed : ¬ Text.IsControl c)
    (room : s.column < columns) : s.put columns c = s.overwrite c := by
  have other {d : Char} (control : Text.IsControl d) : c ≠ d := fun same => printed (same ▸ control)
  rw [put, plain, if_neg (by decide), if_neg (other (by decide)), if_neg (other (by decide)),
    if_neg (other (by decide)), if_pos room]

theorem overwrite_take (inside : s.column ≤ s.line.length) :
    (s.overwrite c).line.take (s.overwrite c).column = s.line.take s.column ++ [c] := by
  have length : (s.line.take s.column).length = s.column := List.length_take_of_le inside
  simp [overwrite, List.take_append, List.take_take, length]

theorem overwrite_drop (inside : s.column ≤ s.line.length) (n : Nat) :
    (s.overwrite c).line.drop ((s.overwrite c).column + n) = s.line.drop (s.column + (n + 1)) := by
  have length : (s.line.take s.column).length = s.column := List.length_take_of_le inside
  have beyond : s.column + 1 + n - s.column = n + 1 := by omega
  simp only [overwrite, List.drop_append, length, beyond, List.drop_succ_cons, List.drop_drop]
  rw [List.drop_of_length_le (by omega), List.nil_append]
  congr 1
  omega

/-- A text that is printed stands where the cursor was, and what was beyond it is left. -/
theorem write_printed (plain : s.coded = false) (inside : s.column ≤ s.line.length)
    (printed : IsPrinted text) (room : s.column + text.length ≤ columns) :
    s.write columns text = { s with
      line := s.line.take s.column ++ text ++ s.line.drop (s.column + text.length)
      column := s.column + text.length } := by
  induction text generalizing s with
  | nil => simp [write]
  | cons c text ih =>
    obtain ⟨first, later⟩ := List.forall_mem_cons.mp printed
    rw [List.length_cons] at room ⊢
    have next := @ih (s.overwrite c) plain (by simp [overwrite]; omega) later
      (by simp only [overwrite]; omega)
    rw [write, List.foldl_cons, put_printed plain first (by omega), ← write, next,
      overwrite_take inside, overwrite_drop inside]
    simp only [overwrite, List.append_assoc, List.singleton_append, mk.injEq, true_and, and_true]
    omega

theorem write_return (plain : s.coded = false) :
    s.write columns ['\r'] = { s with column := 0 } := by
  simp [write, put, plain]

theorem write_feed (plain : s.coded = false) : s.write columns ['\n'] = s.feed := by
  simp [write, put, plain]

/-- Text that is printed begins no code. -/
theorem write_coded (plain : s.coded = false) (printed : IsPrinted text) :
    (s.write columns text).coded = false := by
  induction text generalizing s with
  | nil => exact plain
  | cons c text ih =>
    obtain ⟨first, later⟩ := List.forall_mem_cons.mp printed
    have other : c ≠ '\x1b' := fun same => first (same ▸ by decide)
    refine ih ?_ later
    rw [put, if_neg (by simp [plain]), if_neg other]
    repeat' split
    all_goals exact plain

/-- A code takes no room. -/
theorem write_code (plain : s.coded = false) {code : List Char} (inner : 'm' ∉ code) :
    s.write columns ('\x1b' :: code ++ ['m']) = s := by
  have kept : { s with coded := true }.write columns code = { s with coded := true } := by
    induction code with
    | nil => rfl
    | cons c code ih =>
      obtain ⟨other, inner⟩ := List.ne_and_not_mem_of_not_mem_cons inner
      have same : { s with coded := true }.put columns c = { s with coded := true } := by
        simp [put, other.symm]
      rw [write, List.foldl_cons, same, ← write, ih inner]
  have opened : s.write columns ('\x1b' :: code) = { s with coded := true } := by
    have first : s.put columns '\x1b' = { s with coded := true } := by simp [put, plain]
    rw [write, List.foldl_cons, first, ← write, kept]
  rw [write_append, opened]
  simp [write, put, ← plain]

/-- A text is shown as if the code in it were not there. -/
theorem write_around (plain : s.coded = false) {code : List Char} (inner : 'm' ∉ code)
    (printed : IsPrinted text) (rest : List Char) :
    s.write columns (text ++ ('\x1b' :: code ++ ['m'] ++ rest)) =
      s.write columns (text ++ rest) := by
  rw [write_append, write_append _ _ _ rest, write_code (write_coded plain printed) inner,
    ← write_append]

end Screen
end Launcher
