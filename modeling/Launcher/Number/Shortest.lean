import Launcher.Number.Binary64

/-! The shortest decimal that reads back as a given double, and of those of that length the
nearest one. -/
namespace Launcher

/-- The number `digits * 10 ^ exponent`. -/
structure Decimal where
  digits : Nat
  exponent : Int
  deriving DecidableEq, Repr

namespace Decimal

/-- The number of decimal digits, none for zero. -/
def digitCount (n : Nat) : Nat := if n = 0 then 0 else (Nat.toDigits 10 n).length

def leadingExponent (numerator denominator : Nat) : Int :=
  if denominator ≤ numerator then (digitCount (numerator / denominator) : Int) - 1
  else -(digitCount ((denominator - 1) / numerator) : Int)

/-- The numbers that round to the double of a rank lie between two bounds, given here in quarters
of the rank's unit; the bounds themselves do so when the significand is even. -/
structure RoundingInterval where
  lower : Nat
  upper : Nat
  closed : Bool

def RoundingInterval.ofRank (rank : Nat) : RoundingInterval :=
  let m := Binary64.significand rank
  { lower :=
      if rank % Binary64.binade = 0 ∧ 2 * Binary64.binade ≤ rank then 4 * m - 1 else 4 * m - 2
    upper := 4 * m + 2
    closed := m % 2 = 0 }

/-- Whether `numerator / denominator` quarters of a unit are in the interval. -/
def RoundingInterval.contains (i : RoundingInterval) (numerator denominator : Nat) : Bool :=
  if i.closed then i.lower * denominator ≤ numerator ∧ numerator ≤ i.upper * denominator
  else i.lower * denominator < numerator ∧ numerator < i.upper * denominator

/-- Removes the zeros at the end of the digits, at most `fuel` of them. -/
def trim : Nat → Decimal → Decimal
  | 0, d => d
  | fuel + 1, d =>
    if d.digits ≠ 0 ∧ d.digits % 10 = 0 then trim fuel ⟨d.digits / 10, d.exponent + 1⟩ else d

/-- The multiple of a power of ten that is nearest to the double of a rank and rounds to it. -/
def onGrid? (rank : Nat) (grid : Int) : Option Decimal :=
  let interval := RoundingInterval.ofRank rank
  -- Both scales turn a multiple of the power of ten into quarters of the rank's unit.
  let up := if 0 ≤ grid then Nat.pow 10 grid.toNat else 1
  let down := if 0 ≤ grid then 1 else Nat.pow 10 (-grid).toNat
  let factor := up * 4 * Binary64.scale
  let divisor := down * Nat.pow 2 (Binary64.exponent rank)
  let value := 4 * Binary64.significand rank * divisor
  let below := value / factor
  let candidates := [below, below + 1].filter fun n => interval.contains (n * factor) divisor
  match candidates with
  | [] => none
  | [n] => some ⟨n, grid⟩
  | _ =>
    let rest := 2 * (value % factor)
    some ⟨if rest < factor ∨ (rest = factor ∧ below % 2 = 0) then below else below + 1, grid⟩

/-- The shortest decimal of the finite positive double of a rank; seventeen digits always do. -/
def shortest (rank : Nat) : Decimal :=
  let lead := leadingExponent (Binary64.units rank) Binary64.scale
  let found := (List.range 17).findSome? fun (count : Nat) => onGrid? rank (lead - count)
  trim 17 (found.getD ⟨0, 0⟩)

end Decimal
end Launcher
