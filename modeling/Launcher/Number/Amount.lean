import Launcher.Number.Printed

/-! Amounts with a suffix for thousands, millions or thousands of millions. From a thousand on they
have one decimal place, further places being cut off. -/
namespace Launcher

inductive Amount
  | whole (n : Int)
  | real (x : Binary64)
  deriving DecidableEq, Repr

inductive AmountError
  | tooLarge
  | notNumber
  deriving DecidableEq, Repr

namespace Amount

def lt (a : Amount) (n : Int) : Bool :=
  match a with
  | .whole m => m < n
  | .real x => x.ltInt n

/-- The integer part, towards zero, of a double. -/
def truncate : Binary64 → Except AmountError Int
  | .nan => .error .notNumber
  | .signed negative rank =>
    if rank.val = infinityRank then .error .tooLarge
    else
      let whole : Int := Binary64.units rank.val / Binary64.scale
      .ok (if negative then -whole else whole)

def divided (a : Amount) (n : Nat) : Except AmountError Binary64 :=
  match a with
  | .whole m =>
    let quotient := Binary64.ofQuotient (m < 0) m.natAbs n
    if quotient = .infinity (m < 0) then .error .tooLarge else .ok quotient
  | .real (.signed negative rank) =>
    if rank.val = infinityRank then .ok (.signed negative rank)
    else .ok (.ofQuotient negative (Binary64.units rank.val) (Binary64.scale * n))
  | .real .nan => .ok .nan

/-- The amount in units of ten times `tenth`, cut to one decimal place. -/
def inUnits (a : Amount) (tenth : Nat) : Except AmountError String := do
  let count ← truncate (← a.divided tenth)
  return Number.fixedTenths (← (Amount.whole count).divided 10)

def text (a : Amount) : Except AmountError String := do
  if a.lt 1000 then
    match a with
    | .whole n => return s!"{n} "
    | .real x => return s!"{← truncate x} "
  else if a.lt 1000000 then return (← a.inUnits 100) ++ " k"
  else if a.lt 1000000000 then return (← a.inUnits 100000) ++ " M"
  else return (← a.inUnits 100000000) ++ " G"

end Amount
end Launcher
