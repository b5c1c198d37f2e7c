import Launcher.Number.Binary64

/-! How long to wait for the network: a whole number of nanoseconds that fits into 64 bits. -/
namespace Launcher

inductive TimeoutError
  | notNumber
  | negative
  | tooLong
  deriving DecidableEq, Repr

namespace Timeout

/-- Seconds in nanoseconds, a part of one counting as a whole one. They fit into 64 bits. -/
def nanoseconds : Binary64 → Except TimeoutError Int
  | .nan => .error .notNumber
  | .signed negative rank =>
    if rank.val = infinityRank then .error .tooLong
    else
      let units := Binary64.nearestRank (Binary64.units rank.val * 1000000000) Binary64.scale
      let count := (Binary64.units units + (Binary64.scale - 1)) / Binary64.scale
      let n : Int := if negative then -count else count
      if units = infinityRank || n < -0x8000000000000000 || 0x8000000000000000 ≤ n then
        .error .tooLong
      else .ok n

/-- Nanoseconds in seconds. Unless they are whole seconds their count is rounded to a double
before it is divided. -/
def secondsOf (nanoseconds : Nat) : Binary64 :=
  if nanoseconds % 1000000000 = 0 then .ofQuotient false (nanoseconds / 1000000000) 1
  else
    let rounded := Binary64.nearestRank nanoseconds 1
    .ofQuotient false (Binary64.units rounded) (Binary64.scale * 1000000000)

/-- The time that is waited, in seconds, when so many seconds are asked for. -/
def seconds (x : Binary64) : Except TimeoutError Binary64 := do
  let n ← nanoseconds x
  if n < 0 then throw .negative
  return secondsOf n.toNat

end Timeout

def TimeoutError.message : TimeoutError → String
  | .notNumber => "Invalid value NaN (not a number)"
  | .negative => "Timeout value out of range"
  | .tooLong => "Timeout value too large"

end Launcher
