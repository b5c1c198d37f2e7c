import Launcher.Number.Shortest

/-! How numbers are written: doubles by their shortest decimal, or with one decimal place. -/
namespace Launcher.Number

def zeros (n : Nat) : List Char := List.replicate n '0'

/-- Positional notation of digits whose point stands after the first `point` of them. -/
def positional (digits : List Char) (point : Int) : List Char :=
  if point ≤ 0 then '0' :: '.' :: (zeros (-point).toNat ++ digits)
  else if digits.length ≤ point.toNat then
    digits ++ zeros (point.toNat - digits.length) ++ ['.', '0']
  else digits.take point.toNat ++ '.' :: digits.drop point.toNat

/-- Scientific notation: one digit before the point, an exponent of a sign and two digits. -/
def scientific (digits : List Char) (exponent : Int) : List Char :=
  let mantissa := match digits with
    | [] => []
    | [d] => [d]
    | d :: rest => d :: '.' :: rest
  let magnitude := Nat.toDigits 10 exponent.natAbs
  mantissa ++ 'e' :: (if exponent < 0 then '-' else '+') ::
    (zeros (2 - magnitude.length) ++ magnitude)

/-- A decimal is positional from `10 ^ -4` up to `10 ^ 16`. -/
def decimalText (d : Decimal) : List Char :=
  let digits := Nat.toDigits 10 d.digits
  let point : Int := digits.length + d.exponent
  if -4 < point ∧ point ≤ 16 then positional digits point else scientific digits (point - 1)

/-- The text of a double: the shortest decimal that reads back, with a point or an exponent. -/
def text : Binary64 → String
  | .nan => "nan"
  | .signed negative rank =>
    let magnitude :=
      if rank.val = infinityRank then "inf".toList
      else if rank.val = 0 then "0.0".toList
      else decimalText (Decimal.shortest rank.val)
    String.ofList (if negative then '-' :: magnitude else magnitude)

/-- A quotient with one decimal place, a half going to the even digit. -/
def tenths (negative : Bool) (numerator denominator : Nat) : String :=
  let n := Binary64.roundedQuotient (numerator * 10) denominator
  (if negative then "-" else "") ++ toString (n / 10) ++ "." ++ toString (n % 10)

def fixedTenths : Binary64 → String
  | .nan => "nan"
  | .signed negative rank =>
    if rank.val = infinityRank then if negative then "-inf" else "inf"
    else tenths negative (Binary64.units rank.val) Binary64.scale

end Launcher.Number
