/-! Digits, runs of decimal ones, and exponents of ten, as they are written. -/
namespace Launcher.Number

def isDigit (c : Char) : Bool := '0' ≤ c && c ≤ '9'

def digitsValue (digits : List Char) : Nat :=
  digits.foldl (fun n c => n * 10 + (c.toNat - 48)) 0

def hexValue? (c : Char) : Option Nat :=
  if '0' ≤ c && c ≤ '9' then some (c.toNat - 48)
  else if 'a' ≤ c && c ≤ 'f' then some (c.toNat - 87)
  else if 'A' ≤ c && c ≤ 'F' then some (c.toNat - 55)
  else none

def maxDigits : Nat := 4300

/-- Tells that an integer is written with so many digits, which are too many. -/
def tooManyDigits (digits : Nat) : String :=
  s!"Exceeds the limit ({maxDigits} digits) for integer string conversion: value has {digits} " ++
    "digits; use sys.set_int_max_str_digits() to increase the limit"

def exponent? (text : List Char) : Option (Int × List Char) :=
  match text with
  | e :: rest =>
    if e = 'e' || e = 'E' then
      let (negative, rest) := match rest with
        | '-' :: rest => (true, rest)
        | '+' :: rest => (false, rest)
        | _ => (false, rest)
      let (digits, rest) := rest.span isDigit
      if digits.isEmpty then none
      else some (if negative then -(digitsValue digits : Int) else digitsValue digits, rest)
    else none
  | [] => none

end Launcher.Number
