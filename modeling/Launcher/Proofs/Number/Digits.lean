import Launcher.Number.Digits
import Mathlib.Data.List.Basic
import Mathlib.Data.List.Induction
import Mathlib.Data.List.TakeDrop
import Mathlib.Data.List.TakeWhile
import Mathlib.Tactic.Ring

/-! Decimal digits and what they stand for. A number is the value of its digits, and no digits that
start with a zero are those of a positive number. -/
namespace Launcher.Number
variable {n : Nat} {digits rest : List Char}

theorem lt_pow_length (n : Nat) : n < 10 ^ (Nat.toDigits 10 n).length :=
  (Nat.length_toDigits_le_iff (by decide) Nat.length_toDigits_pos).mp (Nat.le_refl _)

theorem pow_length_le (positive : n ≠ 0) : 10 ^ ((Nat.toDigits 10 n).length - 1) ≤ n := by
  rcases Nat.eq_zero_or_pos ((Nat.toDigits 10 n).length - 1) with one | more
  · rw [one]
    exact Nat.one_le_iff_ne_zero.mpr positive
  · by_contra less
    have short := (Nat.length_toDigits_le_iff (by decide) more).mpr (Nat.lt_of_not_le less)
    omega

/-- Ten times a number is written with a zero more. -/
theorem toDigits_mul_ten (positive : n ≠ 0) :
    Nat.toDigits 10 (n * 10) = Nat.toDigits 10 n ++ ['0'] := by
  rw [Nat.toDigits_of_base_le (by decide) (by omega), Nat.mul_div_cancel _ (by decide),
    Nat.mul_mod_left]
  rfl

theorem isDigit_iff {c : Char} : isDigit c ↔ c.isDigit := by
  simp [isDigit, Char.isDigit, Char.le_def]

theorem isDigit_of_mem_toDigits {c : Char} (member : c ∈ Nat.toDigits 10 n) : isDigit c :=
  isDigit_iff.mpr (Nat.isDigit_of_mem_toDigits (by decide) (by decide) member)

theorem digitsValue_append (digits more : List Char) :
    digitsValue (digits ++ more) = digitsValue digits * 10 ^ more.length + digitsValue more := by
  have shifted (n : Nat) : more.foldl (fun n c => n * 10 + (c.toNat - 48)) n =
      n * 10 ^ more.length + digitsValue more := by
    unfold digitsValue
    induction more generalizing n with
    | nil => simp
    | cons c more ih =>
      rw [List.foldl_cons, List.foldl_cons, ih, ih (0 * 10 + _), List.length_cons, Nat.pow_succ]
      ring
  rw [digitsValue, List.foldl_append]
  exact shifted _

theorem digitsValue_toDigits (n : Nat) : digitsValue (Nat.toDigits 10 n) = n := by
  have read := Nat.ofDigitChars_ten_toDigits (n := n)
  simp only [Nat.ofDigitChars, Nat.mul_comm 10] at read
  exact read

theorem digitsValue_zeros (count : Nat) : digitsValue (List.replicate count '0') = 0 := by
  induction count with
  | zero => rfl
  | succ count ih =>
    rw [List.replicate_succ', digitsValue_append, ih]
    rfl

theorem digitsValue_lt (decimal : ∀ c ∈ digits, isDigit c) :
    digitsValue digits < 10 ^ digits.length := by
  induction digits using List.reverseRecOn with
  | nil => decide
  | append_singleton digits c ih =>
    have before := ih fun d member => decimal d (List.mem_append_left _ member)
    have last : c.toNat - 48 < 10 := by
      have digit := decimal c (List.mem_append_right _ (List.mem_singleton_self c))
      simp only [isDigit, Bool.and_eq_true, decide_eq_true_eq, Char.le_def, UInt32.le_iff_toNat_le]
        at digit
      have top : c.toNat ≤ 57 := digit.2
      omega
    rw [digitsValue_append, List.length_append, Nat.pow_add]
    simp only [digitsValue, List.length_cons, List.length_nil, List.foldl_cons, List.foldl_nil,
      Nat.zero_mul, Nat.zero_add, Nat.pow_one] at before ⊢
    omega

/-- What digits stand for is not written with more of them. -/
theorem length_toDigits_digitsValue (some : digits ≠ []) (decimal : ∀ c ∈ digits, isDigit c) :
    (Nat.toDigits 10 (digitsValue digits)).length ≤ digits.length :=
  (Nat.length_toDigits_le_iff (by decide) (List.length_pos_iff.mpr some)).mpr
    (digitsValue_lt decimal)

/-- The first digit of a positive number is no zero. -/
theorem head?_toDigits (positive : n ≠ 0) : (Nat.toDigits 10 n).head? ≠ some '0' := by
  intro first
  obtain ⟨rest, same⟩ := List.head?_eq_some_iff.mp first
  have bottom := pow_length_le positive
  have top : digitsValue rest < 10 ^ rest.length :=
    digitsValue_lt fun c member => isDigit_of_mem_toDigits (n := n) (by simp [same, member])
  have value := digitsValue_toDigits n
  rw [same] at bottom value
  rw [← List.singleton_append, digitsValue_append, show digitsValue ['0'] = 0 from rfl,
    Nat.zero_mul, Nat.zero_add] at value
  rw [value] at top
  exact absurd bottom (Nat.not_le.mpr top)

/-- Digits end where something else follows. -/
theorem span_digits (decimal : ∀ c ∈ digits, isDigit c) (ended : ∀ c ∈ rest.head?, ¬ isDigit c) :
    (digits ++ rest).span isDigit = (digits, rest) := by
  rw [List.span_eq_takeWhile_dropWhile, List.takeWhile_append_of_pos decimal,
    List.dropWhile_append_of_pos decimal]
  rcases rest with _ | ⟨c, rest⟩
  · simp
  · have other := ended c rfl
    simp [other]

end Launcher.Number
