import Launcher.Proofs.Number.Digits
import Launcher.Proofs.Number.Rounding

/-! The shortest decimal of a double reads back as the double. Seventeen digits are enough for
that, and fewer are taken only if they read back as well. -/
namespace Launcher

namespace Binary64
open Number (lt_pow_length pow_length_le toDigits_mul_ten)

/-- The power of ten as a quotient. -/
def tenNumerator (power : Int) : Nat := if 0 ≤ power then Nat.pow 10 power.toNat else 1

def tenDenominator (power : Int) : Nat := if 0 ≤ power then 1 else Nat.pow 10 (-power).toNat

theorem tenDenominator_pos (power : Int) : 0 < tenDenominator power := by
  unfold tenDenominator
  split
  · decide
  · exact Nat.pow_pos (by decide)

theorem tenNumerator_pos (power : Int) : 0 < tenNumerator power := by
  unfold tenNumerator
  split
  · exact Nat.pow_pos (by decide)
  · decide

theorem ten_lt_iff {a b : Nat} {power : Int} :
    10 ^ a * tenNumerator power < 10 ^ b * tenDenominator power ↔ a + power < b := by
  unfold tenNumerator tenDenominator
  split
  · rw [Nat.mul_one, Nat.pow_eq, ← Nat.pow_add, Nat.pow_lt_pow_iff_right (by decide)]
    omega
  · rw [Nat.mul_one, Nat.pow_eq, ← Nat.pow_add, Nat.pow_lt_pow_iff_right (by decide)]
    omega

theorem lt_ten_iff {a b : Nat} {power : Int} :
    10 ^ a * tenDenominator power < 10 ^ b * tenNumerator power ↔ a < b + power := by
  unfold tenNumerator tenDenominator
  split
  · rw [Nat.mul_one, Nat.pow_eq, ← Nat.pow_add, Nat.pow_lt_pow_iff_right (by decide)]
    omega
  · rw [Nat.mul_one, Nat.pow_eq, ← Nat.pow_add, Nat.pow_lt_pow_iff_right (by decide)]
    omega

/-- Unless it is far too large or too small, a decimal is read as the quotient that it is. -/
theorem ofDecimal_of_bounds {n : Nat} {power : Int} (negative : Bool) (positive : n ≠ 0)
    (high : (Nat.toDigits 10 n).length + power ≤ 400)
    (low : -400 ≤ (Nat.toDigits 10 n).length + power) :
    ofDecimal negative n power =
      ofQuotient negative (n * tenNumerator power) (tenDenominator power) := by
  unfold ofDecimal tenNumerator tenDenominator
  simp only [positive, if_false]
  rw [if_neg (by omega), if_neg (by omega)]
  split
  · rfl
  · rw [Nat.mul_one]

theorem quotient_mul_ten (negative : Bool) (n : Nat) (power : Int) :
    ofQuotient negative (n * 10 * tenNumerator power) (tenDenominator power) =
      ofQuotient negative (n * tenNumerator (power + 1)) (tenDenominator (power + 1)) := by
  unfold tenNumerator tenDenominator
  rcases lt_trichotomy power (-1) with less | rfl | more
  · have next : (-power).toNat = (-(power + 1)).toNat + 1 := by omega
    rw [if_neg (by omega), if_neg (by omega), if_neg (by omega), if_neg (by omega), Nat.mul_one,
      Nat.mul_one, next, Nat.pow_eq, Nat.pow_eq, Nat.pow_succ]
    exact ofQuotient_mul _ _ _ (by decide)
  · show ofQuotient negative (n * 10 * 1) (1 * 10) = ofQuotient negative (n * 1) 1
    rw [Nat.mul_one, Nat.mul_one, ofQuotient_mul negative n 1 (by decide)]
  · have next : (power + 1).toNat = power.toNat + 1 := by omega
    rw [if_pos (by omega), if_pos (by omega), if_pos (by omega), if_pos (by omega), next,
      Nat.pow_eq, Nat.pow_eq, Nat.pow_succ', Nat.mul_assoc]

/-- A zero at the end of the digits counts as one more in the exponent. -/
theorem ofDecimal_mul_ten (negative : Bool) (n : Nat) (power : Int) :
    ofDecimal negative (n * 10) power = ofDecimal negative n (power + 1) := by
  by_cases positive : n = 0
  · simp only [ofDecimal, positive, Nat.zero_mul, if_true]
  · have length : ((Nat.toDigits 10 (n * 10)).length : Int) + power =
        (Nat.toDigits 10 n).length + (power + 1) := by
      rw [toDigits_mul_ten positive]
      simp only [List.length_append, List.length_cons, List.length_nil]
      omega
    have positive' : n * 10 ≠ 0 := by omega
    by_cases high : (Nat.toDigits 10 n).length + (power + 1) ≤ 400
    · by_cases low : -400 ≤ (Nat.toDigits 10 n).length + (power + 1)
      · rw [ofDecimal_of_bounds negative positive high low,
          ofDecimal_of_bounds negative positive' (by omega) (by omega), quotient_mul_ten]
      · simp only [ofDecimal, positive, positive', length, if_false, if_neg (Int.not_lt.mpr high),
          if_pos (Int.not_le.mp low)]
    · simp only [ofDecimal, positive, positive', length, if_false, if_pos (Int.not_le.mp high)]

theorem ofDecimal_mul_pow (negative : Bool) (n : Nat) (power : Int) (k : Nat) :
    ofDecimal negative (n * 10 ^ k) power = ofDecimal negative n (power + k) := by
  induction k generalizing power with
  | zero => simp
  | succ k ih =>
    rw [Nat.pow_succ, ← Nat.mul_assoc, ofDecimal_mul_ten, ih]
    congr 1
    omega

section Contained
variable {n rank : Nat} {power : Int}

open Decimal (RoundingInterval)

theorem upper_ofRank_le (rank : Nat) : (RoundingInterval.ofRank rank).upper ≤ 2 ^ 55 := by
  have small := significand_lt rank
  have whole : binade = 2 ^ 52 := by decide
  unfold RoundingInterval.ofRank
  simp only
  omega

theorem lower_ofRank_pos (positive : 0 < rank) : 2 ≤ (RoundingInterval.ofRank rank).lower := by
  have more := significand_pos positive
  have bound := lower_ofRank rank
  omega

theorem scale_mul_four : scale * 4 = 2 ^ 1076 := by decide +kernel

/-- A decimal of a finite double is not too large to be read. -/
theorem length_le_of_contains (positive : n ≠ 0) (finite : rank < infinityRank)
    (inside : (RoundingInterval.ofRank rank).contains (n * tenNumerator power * scale * 4)
      (tenDenominator power * 2 ^ exponent rank)) :
    (Nat.toDigits 10 n).length + power ≤ 309 := by
  have high := (RoundingInterval.bounds inside).2.1
  rw [Nat.mul_assoc _ scale, scale_mul_four] at high
  have least : 2 ^ 55 * 2 ^ exponent rank ≤ 2 ^ 1024 * 2 ^ 1076 :=
    Nat.le_trans (Nat.mul_le_mul_left _ (Nat.pow_le_pow_right Nat.two_pos
      (Nat.le_of_lt_succ (exponent_lt finite)))) (by decide +kernel)
  have small : 2 ^ 1024 < 10 ^ 309 := by decide +kernel
  have some : 0 < 2 ^ 1076 := by decide +kernel
  generalize 2 ^ 1076 = unit at high least some
  generalize 2 ^ 1024 = top at least small
  have scaled : n * tenNumerator power * unit ≤ top * tenDenominator power * unit :=
    calc n * tenNumerator power * unit
      _ ≤ 2 ^ 55 * (tenDenominator power * 2 ^ exponent rank) :=
        Nat.le_trans high (Nat.mul_le_mul_right _ (upper_ofRank_le rank))
      _ = tenDenominator power * (2 ^ 55 * 2 ^ exponent rank) := Nat.mul_left_comm _ _ _
      _ ≤ tenDenominator power * (top * unit) := Nat.mul_le_mul_left _ least
      _ = top * tenDenominator power * unit := by
        rw [Nat.mul_left_comm, Nat.mul_assoc]
  have less : 10 ^ ((Nat.toDigits 10 n).length - 1) * tenNumerator power <
      10 ^ 309 * tenDenominator power :=
    calc 10 ^ ((Nat.toDigits 10 n).length - 1) * tenNumerator power
      _ ≤ n * tenNumerator power := Nat.mul_le_mul_right _ (pow_length_le positive)
      _ ≤ top * tenDenominator power := Nat.le_of_mul_le_mul_right scaled some
      _ < 10 ^ 309 * tenDenominator power :=
        Nat.mul_lt_mul_of_pos_right small (tenDenominator_pos power)
  rw [ten_lt_iff] at less
  omega

/-- A decimal of a positive double is not too small to be read. -/
theorem le_length_of_contains (positive : 0 < rank)
    (inside : (RoundingInterval.ofRank rank).contains (n * tenNumerator power * scale * 4)
      (tenDenominator power * 2 ^ exponent rank)) :
    -324 ≤ (Nat.toDigits 10 n).length + power := by
  have low := (RoundingInterval.bounds inside).1
  rw [Nat.mul_assoc _ scale, scale_mul_four] at low
  have small : 2 ^ 1076 < 2 * 10 ^ 324 := by decide +kernel
  generalize 2 ^ 1076 = unit at low small
  have less : 2 * (10 ^ 0 * tenDenominator power) <
      2 * (10 ^ ((Nat.toDigits 10 n).length + 324) * tenNumerator power) :=
    calc 2 * (10 ^ 0 * tenDenominator power)
      _ = 2 * tenDenominator power := by rw [Nat.pow_zero, Nat.one_mul]
      _ ≤ 2 * (tenDenominator power * 2 ^ exponent rank) :=
        Nat.mul_le_mul_left _ (Nat.le_mul_of_pos_right _ (Nat.two_pow_pos _))
      _ ≤ n * tenNumerator power * unit :=
        Nat.le_trans (Nat.mul_le_mul_right _ (lower_ofRank_pos positive)) low
      _ ≤ 10 ^ (Nat.toDigits 10 n).length * tenNumerator power * unit :=
        Nat.mul_le_mul_right _ (Nat.mul_le_mul_right _ (Nat.le_of_lt (lt_pow_length n)))
      _ < 10 ^ (Nat.toDigits 10 n).length * tenNumerator power * (2 * 10 ^ 324) :=
        Nat.mul_lt_mul_of_pos_left small
          (Nat.mul_pos (Nat.pow_pos (by decide)) (tenNumerator_pos power))
      _ = 2 * (10 ^ ((Nat.toDigits 10 n).length + 324) * tenNumerator power) := by
        rw [Nat.pow_add, Nat.mul_left_comm, Nat.mul_right_comm]
  have less := lt_ten_iff.mp (Nat.lt_of_mul_lt_mul_left less)
  omega

/-- A decimal in the interval of a rank is read as the double of that rank. -/
theorem ofDecimal_of_contains (negative : Bool) (rank : Fin 0x7FF0000000000001)
    (positive : 0 < rank.val) (finite : rank.val < infinityRank)
    (inside : (RoundingInterval.ofRank rank).contains (n * tenNumerator power * scale * 4)
      (tenDenominator power * 2 ^ exponent rank)) :
    ofDecimal negative n power = .signed negative rank := by
  have some : n ≠ 0 := by
    rintro rfl
    have low := (RoundingInterval.bounds inside).1
    have bottom := lower_ofRank_pos positive
    have unit := Nat.mul_pos (tenDenominator_pos power) (Nat.two_pow_pos (exponent rank))
    rw [Nat.zero_mul, Nat.zero_mul, Nat.zero_mul, Nat.le_zero, Nat.mul_eq_zero] at low
    omega
  have high := length_le_of_contains some finite inside
  have low := le_length_of_contains positive inside
  rw [ofDecimal_of_bounds negative some (by omega) (by omega), ofQuotient]
  congr 2
  exact nearestRank_of_contains (tenDenominator_pos power) finite inside

end Contained

end Binary64

namespace Decimal
open Binary64 (tenNumerator tenDenominator tenNumerator_pos tenDenominator_pos)
open Number (lt_pow_length pow_length_le)

variable {rank : Nat} {grid : Int} {d : Decimal}

theorem mul_factor (n : Nat) (grid : Int) :
    n * (tenNumerator grid * 4 * Binary64.scale) = n * tenNumerator grid * Binary64.scale * 4 := by
  ring

/-- Of two neighbours one is chosen that has a property, if one has it. -/
theorem of_chosen {p : Nat → Bool} {n : Nat} {nearer : Prop} [Decidable nearer]
    (chosen : (match [n, n + 1].filter p with
      | [] => none
      | [n] => some ⟨n, grid⟩
      | _ => some ⟨if nearer then n else n + 1, grid⟩) = some d) :
    d.exponent = grid ∧ p d.digits := by
  by_cases first : p n <;> by_cases second : p (n + 1)
  · simp only [List.filter, first, second, Option.some.injEq] at chosen
    subst chosen
    refine ⟨rfl, ?_⟩
    simp only
    split <;> assumption
  all_goals
    simp only [List.filter, first, second, Option.some.injEq, reduceCtorEq] at chosen
    try subst chosen
    try exact ⟨rfl, by assumption⟩

/-- What is found on a grid rounds to the double. -/
theorem contains_of_onGrid? (found : onGrid? rank grid = some d) :
    d.exponent = grid ∧ (RoundingInterval.ofRank rank).contains
      (d.digits * tenNumerator grid * Binary64.scale * 4)
      (tenDenominator grid * 2 ^ Binary64.exponent rank) := by
  unfold onGrid? at found
  obtain ⟨same, inside⟩ := of_chosen found
  refine ⟨same, ?_⟩
  rw [← mul_factor]
  unfold tenNumerator tenDenominator
  exact inside

theorem isSome_chosen {p : Nat → Bool} {n : Nat} {nearer : Prop} [Decidable nearer]
    (one : p n ∨ p (n + 1)) :
    (match [n, n + 1].filter p with
      | [] => none
      | [n] => some (⟨n, grid⟩ : Decimal)
      | _ => some ⟨if nearer then n else n + 1, grid⟩).isSome := by
  by_cases first : p n <;> by_cases second : p (n + 1)
  all_goals simp_all [List.filter]

/-- Seventeen digits tell neighbours apart: the interval of a rank is wider than a unit of the
last of them. -/
theorem width_ofRank (positive : 0 < rank) :
    ∃ width, (RoundingInterval.ofRank rank).lower + width = (RoundingInterval.ofRank rank).upper ∧
      4 * Binary64.significand rank < width * 10 ^ 16 := by
  have small := Binary64.significand_lt rank
  have more := Binary64.significand_pos positive
  have whole : Binary64.binade = 2 ^ 52 := by decide
  unfold RoundingInterval.ofRank
  simp only
  split
  · rename_i least
    refine ⟨3, by omega, ?_⟩
    have large : ¬ rank < Binary64.binade := by omega
    rw [Binary64.significand, if_neg large, least.1, whole]
    decide
  · exact ⟨4, by omega, by omega⟩

/-- A multiple of what is narrower than an interval is in it, next to its centre. -/
theorem contains_below_or_above {i : RoundingInterval} {width unit factor : Nat} (centre : Nat)
    (whole : i.lower + width = i.upper) (narrow : factor < width * unit)
    (low : i.lower ≤ centre) (high : centre < i.upper) (some : 0 < factor) (units : 0 < unit) :
    i.contains (centre * unit / factor * factor) unit ∨
      i.contains ((centre * unit / factor + 1) * factor) unit := by
  have parts := Nat.div_add_mod (centre * unit) factor
  have rest := Nat.mod_lt (centre * unit) some
  have bottom := Nat.mul_le_mul_right unit low
  have top := Nat.mul_lt_mul_of_pos_right high units
  rw [← whole, Nat.add_mul] at top
  rw [Nat.mul_comm factor] at parts
  unfold RoundingInterval.contains
  rw [Nat.add_one_mul, ← whole, Nat.add_mul]
  split
  · simp only [decide_eq_true_eq]
    omega
  · simp only [decide_eq_true_eq]
    omega

section Leading
variable {numerator denominator : Nat}

theorem digitCount_of_pos {n : Nat} (positive : n ≠ 0) :
    digitCount n = (Nat.toDigits 10 n).length := by
  rw [digitCount, if_neg positive]

theorem lt_pow_digitCount (n : Nat) : n < 10 ^ digitCount n := by
  by_cases positive : n = 0
  · subst positive
    decide
  · rw [digitCount_of_pos positive]
    exact lt_pow_length n

/-- The power of ten of the first digit is not above the number. -/
theorem leadingExponent_le (above : 0 < numerator) (below : 0 < denominator) :
    tenNumerator (leadingExponent numerator denominator) * denominator ≤
      numerator * tenDenominator (leadingExponent numerator denominator) := by
  unfold leadingExponent tenNumerator tenDenominator
  split
  · rename_i large
    have whole : numerator / denominator ≠ 0 := (Nat.div_pos large below).ne'
    have some : 0 < (Nat.toDigits 10 (numerator / denominator)).length := Nat.length_toDigits_pos
    have exponent : ((Nat.toDigits 10 (numerator / denominator)).length - 1 : Int).toNat =
        (Nat.toDigits 10 (numerator / denominator)).length - 1 := by omega
    rw [digitCount_of_pos whole, if_pos (by omega), if_pos (by omega), Nat.mul_one, exponent,
      ← Nat.le_div_iff_mul_le below]
    exact pow_length_le whole
  · rename_i small
    have least : 0 < (denominator - 1) / numerator := Nat.div_pos (by omega) above
    have some : 0 < digitCount ((denominator - 1) / numerator) := by
      rw [digitCount_of_pos least.ne']
      exact Nat.length_toDigits_pos
    have bound := lt_pow_digitCount ((denominator - 1) / numerator)
    rw [Nat.div_lt_iff_lt_mul above, Nat.mul_comm] at bound
    rw [if_neg (by omega), if_neg (by omega), Int.neg_neg, Int.toNat_natCast, Nat.one_mul]
    exact Nat.le_of_pred_lt bound

end Leading

theorem ten_sub (power : Int) (k : Nat) :
    tenNumerator (power - k) * 10 ^ k * tenDenominator power =
      tenNumerator power * tenDenominator (power - k) := by
  unfold tenNumerator tenDenominator
  simp only [Nat.pow_eq]
  split <;> split
  · rw [Nat.mul_one, Nat.mul_one, ← Nat.pow_add]
    congr 1
    omega
  · omega
  · rw [Nat.mul_one, Nat.one_mul, ← Nat.pow_add]
    congr 1
    omega
  · rw [Nat.one_mul, Nat.one_mul, ← Nat.pow_add]
    congr 1
    omega

/-- The unit of the seventeenth digit is narrower than the interval of the rank. -/
theorem seventeenth_lt {lead : Int} {width : Nat}
    (first : tenNumerator lead * Binary64.scale ≤ Binary64.units rank * tenDenominator lead)
    (wide : 4 * Binary64.significand rank < width * 10 ^ 16) :
    tenNumerator (lead - 16) * 4 * Binary64.scale <
      width * (tenDenominator (lead - 16) * 2 ^ Binary64.exponent rank) := by
  have split : tenNumerator (lead - 16) * 10 ^ 16 * tenDenominator lead =
      tenNumerator lead * tenDenominator (lead - 16) := ten_sub lead 16
  have unit := Nat.mul_pos (tenDenominator_pos (lead - 16))
    (Nat.two_pow_pos (Binary64.exponent rank))
  have units : Binary64.units rank = Binary64.significand rank * 2 ^ Binary64.exponent rank := rfl
  rw [units] at first
  generalize Binary64.scale = scale at first ⊢
  have last : tenNumerator (lead - 16) * 10 ^ 16 * scale ≤
      Binary64.significand rank * (tenDenominator (lead - 16) * 2 ^ Binary64.exponent rank) := by
    refine Nat.le_of_mul_le_mul_right ?_ (tenDenominator_pos lead)
    calc tenNumerator (lead - 16) * 10 ^ 16 * scale * tenDenominator lead
      _ = tenNumerator lead * scale * tenDenominator (lead - 16) := by
        rw [Nat.mul_right_comm, split, Nat.mul_right_comm]
      _ ≤ Binary64.significand rank * 2 ^ Binary64.exponent rank * tenDenominator lead *
          tenDenominator (lead - 16) := Nat.mul_le_mul_right _ first
      _ = _ := by ac_rfl
  refine Nat.lt_of_mul_lt_mul_right (a := 10 ^ 16) ?_
  calc tenNumerator (lead - 16) * 4 * scale * 10 ^ 16
    _ = 4 * (tenNumerator (lead - 16) * 10 ^ 16 * scale) := by ac_rfl
    _ ≤ 4 * (Binary64.significand rank *
        (tenDenominator (lead - 16) * 2 ^ Binary64.exponent rank)) := Nat.mul_le_mul_left _ last
    _ = 4 * Binary64.significand rank *
        (tenDenominator (lead - 16) * 2 ^ Binary64.exponent rank) := (Nat.mul_assoc _ _ _).symm
    _ < width * 10 ^ 16 * (tenDenominator (lead - 16) * 2 ^ Binary64.exponent rank) :=
      Nat.mul_lt_mul_of_pos_right wide unit
    _ = _ := Nat.mul_right_comm _ _ _

/-- On the grid of seventeen digits something is found. -/
theorem onGrid?_seventeen (positive : 0 < rank) :
    (onGrid? rank (leadingExponent (Binary64.units rank) Binary64.scale - 16)).isSome := by
  have more := Binary64.significand_pos positive
  have some : 0 < Binary64.units rank := Nat.mul_pos more (Nat.two_pow_pos _)
  have first := leadingExponent_le some Binary64.scale_pos
  generalize leadingExponent (Binary64.units rank) Binary64.scale = lead at first ⊢
  obtain ⟨width, whole, wide⟩ := width_ofRank positive
  have narrow := seventeenth_lt first wide
  have near := contains_below_or_above (4 * Binary64.significand rank) whole narrow
    (by unfold RoundingInterval.ofRank; simp only; split <;> omega)
    (by unfold RoundingInterval.ofRank; simp only; omega)
    (Nat.mul_pos (Nat.mul_pos (tenNumerator_pos _) (by decide)) Binary64.scale_pos)
    (Nat.mul_pos (tenDenominator_pos _) (Nat.two_pow_pos _))
  unfold onGrid?
  exact isSome_chosen near

/-- A decimal that reads as the double of a rank, under both signs. -/
def Reads (d : Decimal) (rank : Fin 0x7FF0000000000001) : Prop :=
  ∀ negative, Binary64.ofDecimal negative d.digits d.exponent = .signed negative rank

theorem Reads.trim {d : Decimal} {rank : Fin 0x7FF0000000000001} (reads : d.Reads rank)
    (fuel : Nat) : (Decimal.trim fuel d).Reads rank := by
  induction fuel generalizing d with
  | zero => exact reads
  | succ fuel ih =>
    unfold Decimal.trim
    split
    · rename_i zero
      refine ih fun negative => ?_
      rw [← reads negative, ← Binary64.ofDecimal_mul_ten, Nat.div_mul_cancel]
      exact Nat.dvd_of_mod_eq_zero zero.2
    · exact reads

/-- The shortest decimal of a positive finite double is read as that double. -/
theorem shortest_reads (rank : Fin 0x7FF0000000000001) (positive : 0 < rank.val)
    (finite : rank.val < infinityRank) : (shortest rank.val).Reads rank := by
  unfold shortest
  simp only
  generalize lead : leadingExponent (Binary64.units rank.val) Binary64.scale = first
  have last := onGrid?_seventeen positive
  rw [lead] at last
  rcases found : (List.range 17).findSome? fun (count : Nat) => onGrid? rank.val (first - count)
    with _ | d
  · have none := List.findSome?_eq_none_iff.mp found 16 (by decide)
    rw [show ((16 : Nat) : Int) = 16 from rfl] at none
    simp [none] at last
  · obtain ⟨count, _, found⟩ := List.exists_of_findSome?_eq_some found
    obtain ⟨same, inside⟩ := contains_of_onGrid? found
    refine Reads.trim (fun negative => ?_) 17
    rw [Option.getD_some, same]
    exact Binary64.ofDecimal_of_contains negative rank positive finite inside

end Decimal
end Launcher
