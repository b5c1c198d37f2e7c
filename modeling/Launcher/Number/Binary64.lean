/-! Double-precision numbers as ranks. The non-negative doubles in increasing order, infinity
last, are numbered from zero; a sign makes the others, and one value stands for every NaN. So
rounding is a computation on natural numbers, and every value of the type is a double. -/
namespace Launcher

/-- The rank of infinity, and so the number of finite doubles that are not negative. -/
def infinityRank : Nat := 0x7FF0000000000000

inductive Binary64
  | nan
  | signed (negative : Bool) (rank : Fin 0x7FF0000000000001)
  deriving DecidableEq, Repr

namespace Binary64

/-- How many doubles there are between a power of two and the next one. -/
def binade : Nat := 0x10000000000000

def significand (rank : Nat) : Nat :=
  if rank < binade then rank else binade + rank % binade

/-- The unit of this rank, as a power of two counted from the least positive double. -/
def exponent (rank : Nat) : Nat := rank / binade - 1

/-- One is `2 ^ 1074` times the least positive double. -/
def scale : Nat := Nat.pow 2 1074

/-- The finite number of this rank, counted in least positive doubles. -/
def units (rank : Nat) : Nat := significand rank * Nat.pow 2 (exponent rank)

/-- The quotient rounded to the nearest integer, a half to the even one. -/
def roundedQuotient (numerator denominator : Nat) : Nat :=
  let floor := numerator / denominator
  let rest := 2 * (numerator % denominator)
  if rest < denominator ∨ (rest = denominator ∧ floor % 2 = 0) then floor else floor + 1

/-- The rank of the double nearest to a quotient, a half going to the even significand and a
number too large to infinity. -/
def nearestRank (numerator denominator : Nat) : Nat :=
  let scaled := numerator * scale
  let magnitude := scaled / denominator
  let shift := if magnitude < 2 * binade then 0 else magnitude.log2 - 52
  min (shift * binade + roundedQuotient scaled (denominator * Nat.pow 2 shift)) infinityRank

/-- The double nearest to a quotient of natural numbers under a sign. -/
def ofQuotient (negative : Bool) (numerator denominator : Nat) : Binary64 :=
  .signed negative ⟨nearestRank numerator denominator,
    Nat.lt_succ_of_le (Nat.min_le_right _ _)⟩

def infinity (negative : Bool) : Binary64 := .signed negative ⟨infinityRank, by decide⟩

def zero (negative : Bool) : Binary64 := .signed negative 0

/-- The exact value of a finite double as a signed numerator over `scale`. -/
def numerator? : Binary64 → Option Int
  | .nan => none
  | .signed negative rank =>
    if rank.val = infinityRank then none
    else some (if negative then -(units rank.val : Int) else units rank.val)

/-- Exact comparison with an integer; a NaN is below nothing. -/
def ltInt (x : Binary64) (n : Int) : Bool :=
  match x with
  | .nan => false
  | .signed negative rank =>
    if rank.val = infinityRank then negative
    else
      let value : Int := if negative then -(units rank.val : Int) else units rank.val
      value < n * scale

/-- The nearest double to a non-negative integer scaled by a power of ten. -/
def ofDecimal (negative : Bool) (digits : Nat) (exponent : Int) : Binary64 :=
  if digits = 0 then zero negative
  else
    let length : Int := (Nat.toDigits 10 digits).length
    if length + exponent > 400 then infinity negative
    else if length + exponent < -400 then zero negative
    else if 0 ≤ exponent then ofQuotient negative (digits * Nat.pow 10 exponent.toNat) 1
    else ofQuotient negative digits (Nat.pow 10 (-exponent).toNat)

end Binary64
end Launcher
