import Launcher.Number.Shortest
import Mathlib.Tactic.Ring
import Mathlib.Tactic.Linarith

/-! Rounding to doubles. A quotient rounds to the double of a rank if it lies in the interval of
that rank, and a double does not depend on how the quotient is written. -/
namespace Launcher
namespace Binary64

theorem scale_pos : 0 < scale := by decide +kernel

theorem binade_pos : 0 < binade := by decide

section RoundedQuotient
variable {a b n : Nat}

/-- What is nearer than half to an integer is rounded to it, and a half is if it is even. -/
theorem roundedQuotient_of_near (positive : 0 < b) (low : 2 * (n * b) ≤ 2 * a + b)
    (high : 2 * a ≤ 2 * (n * b) + b)
    (ties : n % 2 = 0 ∨ (2 * (n * b) < 2 * a + b ∧ 2 * a < 2 * (n * b) + b)) :
    roundedQuotient a b = n := by
  have parts : b * (a / b) + a % b = a := Nat.div_add_mod a b
  have small : a % b < b := Nat.mod_lt a positive
  rw [Nat.mul_comm] at parts
  have above : a / b ≤ n := by
    by_contra more
    have step : (n + 1) * b ≤ a / b * b := Nat.mul_le_mul_right b (by omega)
    rw [Nat.add_mul] at step
    omega
  have below : n ≤ a / b + 1 := by
    by_contra less
    have step : (a / b + 2) * b ≤ n * b := Nat.mul_le_mul_right b (by omega)
    rw [Nat.add_mul] at step
    omega
  unfold roundedQuotient
  rcases Nat.lt_or_eq_of_le above with up | same
  · obtain rfl : n = a / b + 1 := by omega
    rw [Nat.add_mul] at low high ties
    rw [if_neg]
    omega
  · rw [same] at parts ⊢
    rw [if_pos]
    omega

theorem roundedQuotient_mul (a b : Nat) {k : Nat} (positive : 0 < k) :
    roundedQuotient (a * k) (b * k) = roundedQuotient a b := by
  unfold roundedQuotient
  rw [Nat.mul_div_mul_right _ _ positive, Nat.mul_mod_mul_right, ← Nat.mul_assoc]
  simp only [Nat.mul_lt_mul_right positive, Nat.mul_left_inj (Nat.ne_of_gt positive)]

end RoundedQuotient

/-- A quotient may be extended. -/
theorem nearestRank_mul (numerator denominator : Nat) {k : Nat} (positive : 0 < k) :
    nearestRank (numerator * k) (denominator * k) = nearestRank numerator denominator := by
  unfold nearestRank
  simp only [Nat.mul_right_comm _ k, Nat.mul_div_mul_right _ _ positive,
    roundedQuotient_mul _ _ positive]

theorem ofQuotient_mul (negative : Bool) (numerator denominator : Nat) {k : Nat}
    (positive : 0 < k) :
    ofQuotient negative (numerator * k) (denominator * k) =
      ofQuotient negative numerator denominator := by
  simp only [ofQuotient, nearestRank_mul _ _ positive]

section Rank
variable {rank : Nat}

theorem rank_eq (rank : Nat) : exponent rank * binade + significand rank = rank := by
  unfold exponent significand
  split
  · rename_i small
    simp [Nat.div_eq_of_lt small]
  · rename_i large
    have parts := Nat.div_add_mod rank binade
    have one : 1 ≤ rank / binade := (Nat.one_le_div_iff binade_pos).mpr (by omega)
    obtain ⟨e, same⟩ := Nat.exists_eq_add_of_le one
    rw [same] at parts ⊢
    rw [Nat.mul_add, Nat.mul_comm binade e] at parts
    simp only [Nat.add_sub_cancel_left]
    omega

theorem significand_lt (rank : Nat) : significand rank < 2 * binade := by
  unfold significand
  have small := Nat.mod_lt rank binade_pos
  split <;> omega

theorem significand_pos (positive : 0 < rank) : 0 < significand rank := by
  unfold significand
  have one := binade_pos
  split <;> omega

/-- Only below the second binade do significands start from zero. -/
theorem binade_le_significand (large : 0 < exponent rank) : binade ≤ significand rank := by
  unfold exponent at large
  unfold significand
  rw [if_neg]
  · exact Nat.le_add_right _ _
  · intro small
    rw [Nat.div_eq_of_lt small] at large
    contradiction

theorem exponent_lt (finite : rank < infinityRank) : exponent rank < 2046 := by
  have parts := rank_eq rank
  have small : rank / binade < 2047 := Nat.div_lt_of_lt_mul finite
  unfold exponent
  omega

end Rank

/-- The binade of a quotient shows in the logarithm of its magnitude. -/
theorem shift_of_magnitude {magnitude e : Nat} (low : e = 0 ∨ binade * 2 ^ e ≤ magnitude)
    (high : magnitude < 2 * binade * 2 ^ e) :
    (if magnitude < 2 * binade then 0 else magnitude.log2 - 52) = e := by
  have whole : binade = 2 ^ 52 := by decide
  rcases Nat.eq_zero_or_pos e with rfl | positive
  · rw [if_pos (by simpa using high)]
  · replace low : 2 ^ (52 + e) ≤ magnitude := by
      rw [Nat.pow_add, ← whole]
      exact low.resolve_left (Nat.ne_of_gt positive)
    have double : 2 * binade ≤ 2 ^ (52 + e) := by
      rw [whole, ← Nat.pow_succ']
      exact Nat.pow_le_pow_right (by decide) (by omega)
    have log : magnitude.log2 = 52 + e := by
      rw [Nat.log2_eq_iff (by have := Nat.two_pow_pos (52 + e); omega)]
      refine ⟨low, ?_⟩
      rwa [Nat.pow_succ, Nat.pow_add, ← whole, Nat.mul_comm _ 2, ← Nat.mul_assoc]
    rw [if_neg (by omega), log]
    omega

section Nearest
variable {numerator denominator rank : Nat}

/-- The rank of a quotient that lies in a binade, and is near to a multiple of its unit. -/
theorem nearestRank_of_shift {e n : Nat} (positive : 0 < denominator)
    (low : e = 0 ∨ binade * (denominator * 2 ^ e) ≤ numerator * scale)
    (high : numerator * scale < 2 * binade * (denominator * 2 ^ e))
    (near : roundedQuotient (numerator * scale) (denominator * 2 ^ e) = n)
    (finite : e * binade + n < infinityRank) :
    nearestRank numerator denominator = e * binade + n := by
  have low' : e = 0 ∨ binade * 2 ^ e ≤ numerator * scale / denominator := by
    rw [Nat.le_div_iff_mul_le positive, Nat.mul_assoc, Nat.mul_comm _ denominator]
    exact low
  have high' : numerator * scale / denominator < 2 * binade * 2 ^ e := by
    rw [Nat.div_lt_iff_lt_mul positive, Nat.mul_assoc, Nat.mul_comm _ denominator]
    exact high
  unfold nearestRank
  simp only [shift_of_magnitude low' high', Nat.pow_eq, near]
  exact Nat.min_eq_left (Nat.le_of_lt finite)

end Nearest
end Binary64

/-- What is in an interval is between its bounds, and not at one unless the interval is closed. -/
theorem Decimal.RoundingInterval.bounds {i : RoundingInterval} {a b : Nat}
    (inside : i.contains a b) : i.lower * b ≤ a ∧ a ≤ i.upper * b ∧
      (i.closed ∨ (i.lower * b < a ∧ a < i.upper * b)) := by
  unfold contains at inside
  split at inside
  · simp_all
  · simp only [decide_eq_true_eq] at inside
    exact ⟨Nat.le_of_lt inside.1, Nat.le_of_lt inside.2, .inr inside⟩

namespace Binary64
variable {numerator denominator rank : Nat}

/-- A quotient just below the least one of a binade is rounded up to it from the binade below. -/
theorem nearestRank_of_below (positive : 0 < denominator) {e : Nat}
    (low : (4 * binade - 1) * (denominator * 2 ^ (e + 1)) ≤ numerator * scale * 4)
    (high : numerator * scale < binade * (denominator * 2 ^ (e + 1)))
    (finite : (e + 1) * binade + binade < infinityRank) :
    nearestRank numerator denominator = (e + 1) * binade + binade := by
  have half : denominator * 2 ^ (e + 1) = 2 * (denominator * 2 ^ e) := by ring
  have unit : 0 < denominator * 2 ^ e := Nat.mul_pos positive (Nat.two_pow_pos e)
  have one := binade_pos
  rw [half] at low high
  have near : roundedQuotient (numerator * scale) (denominator * 2 ^ e) = 2 * binade ∧
      binade * (denominator * 2 ^ e) ≤ numerator * scale ∧
      numerator * scale < 2 * binade * (denominator * 2 ^ e) := by
    generalize denominator * 2 ^ e = u at *
    generalize numerator * scale = a at *
    have bottom : (4 * binade - 1) * (2 * u) + 2 * u = 8 * (binade * u) := by
      rw [← Nat.add_one_mul, Nat.sub_add_cancel (by omega)]
      ring
    have whole : u ≤ binade * u := Nat.le_mul_of_pos_left u one
    have top : binade * (2 * u) = 2 * (binade * u) := by ring
    have double : 2 * binade * u = 2 * (binade * u) := by ring
    refine ⟨roundedQuotient_of_near unit ?_ ?_ (.inl (Nat.mul_mod_right 2 _)), ?_, ?_⟩
    all_goals omega
  obtain ⟨near, above, below⟩ := near
  have same : (e + 1) * binade + binade = e * binade + 2 * binade := by ring
  rw [same] at finite ⊢
  exact nearestRank_of_shift positive (.inr above) below near finite

open Decimal (RoundingInterval)

theorem lower_ofRank (rank : Nat) :
    4 * significand rank - 2 ≤ (RoundingInterval.ofRank rank).lower := by
  unfold RoundingInterval.ofRank
  simp only
  split <;> omega

/-- Below the least number of a binade the next number is nearer. -/
theorem lower_ofRank_of_binade (large : 0 < exponent rank) (least : significand rank = binade) :
    (RoundingInterval.ofRank rank).lower = 4 * binade - 1 := by
  have whole := rank_eq rank
  have more : 1 * binade ≤ exponent rank * binade := Nat.mul_le_mul_right _ large
  unfold RoundingInterval.ofRank
  simp only [least]
  rw [if_pos]
  refine ⟨?_, by omega⟩
  rw [← whole, least, ← Nat.add_one_mul]
  exact Nat.mul_mod_left _ _

/-- In the interval of a rank the significand is the nearest integer, in units of the rank. -/
theorem near_of_contains {a u : Nat}
    (inside : (RoundingInterval.ofRank rank).contains (a * 4) u) :
    2 * (significand rank * u) ≤ 2 * a + u ∧ 2 * a ≤ 2 * (significand rank * u) + u ∧
      (significand rank % 2 = 0 ∨
        (2 * (significand rank * u) < 2 * a + u ∧ 2 * a < 2 * (significand rank * u) + u)) := by
  obtain ⟨low, high, ties⟩ := RoundingInterval.bounds inside
  have bottom := Nat.mul_le_mul_right u (lower_ofRank rank)
  rw [Nat.sub_mul, Nat.mul_assoc] at bottom
  have ceiling : (RoundingInterval.ofRank rank).upper * u =
      4 * (significand rank * u) + 2 * u := by
    unfold RoundingInterval.ofRank
    ring
  have even : (RoundingInterval.ofRank rank).closed = true → significand rank % 2 = 0 := by
    simp [RoundingInterval.ofRank]
  refine ⟨by omega, by omega, ties.imp even fun inner => ?_⟩
  omega

/-- What lies in the interval of a rank is rounded to the double of that rank. -/
theorem nearestRank_of_contains (positive : 0 < denominator) (finite : rank < infinityRank)
    (inside : (RoundingInterval.ofRank rank).contains (numerator * scale * 4)
      (denominator * 2 ^ exponent rank)) :
    nearestRank numerator denominator = rank := by
  obtain ⟨low, high, ties⟩ := near_of_contains inside
  have unit : 0 < denominator * 2 ^ exponent rank := Nat.mul_pos positive (Nat.two_pow_pos _)
  have whole := rank_eq rank
  by_cases below : 0 < exponent rank ∧
      numerator * scale < binade * (denominator * 2 ^ exponent rank)
  · obtain ⟨large, below⟩ := below
    -- Only the least number of a binade is so near to the binade below.
    have least : significand rank = binade := by
      by_contra other
      have more := Nat.mul_le_mul_right (denominator * 2 ^ exponent rank)
        (Nat.lt_of_le_of_ne (binade_le_significand large) (Ne.symm other))
      rw [Nat.succ_mul] at more
      omega
    have close := (RoundingInterval.bounds inside).1
    rw [lower_ofRank_of_binade large least] at close
    rw [least] at whole
    obtain ⟨e, next⟩ := Nat.exists_eq_add_of_lt large
    rw [Nat.zero_add] at next
    rw [next] at close below whole
    rw [← whole]
    have finite' : (e + 1) * binade + binade < infinityRank := by
      rw [whole]
      exact finite
    exact nearestRank_of_below positive close below finite'
  · have near := roundedQuotient_of_near unit low high ties
    have top := Nat.mul_le_mul_right (denominator * 2 ^ exponent rank) (significand_lt rank)
    rw [Nat.succ_mul] at top
    conv_rhs => rw [← whole]
    refine nearestRank_of_shift positive ?_ ?_ near (by omega)
    · omega
    · omega

end Binary64
end Launcher
