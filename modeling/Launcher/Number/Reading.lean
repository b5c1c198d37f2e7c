import Launcher.Number.Binary64
import Launcher.Number.Digits
import Launcher.Text.Blank

/-! Numbers as people type them: with blanks around them, digits of any script, and low lines
between digits. -/
namespace Launcher.Number

/-- The plain form of a character: the digit for a digit of another script, a space for a blank that
is not ASCII. -/
def plainChar (c : Char) : Char :=
  if c.toNat < 0x7F then c
  else if Text.isBlank c then ' '
  else match Text.digitValue? c with
    | some d => Char.ofNat (48 + d)
    | none => '?'

/-- Whether a character may stand around a number. -/
def isMargin (c : Char) : Bool := c = ' ' || (0x09 ≤ c.toNat && c.toNat ≤ 0x0D)

def plain (text : String) : List Char :=
  (((text.toList.map plainChar).dropWhile isMargin).reverse.dropWhile isMargin).reverse

/-- Takes away the low lines, each of which must be between two digits. -/
def joinDigits? (afterDigit : Bool) : List Char → Option (List Char)
  | [] => some []
  | c :: rest =>
    if c = '_' then
      if afterDigit && rest.head?.any isDigit then joinDigits? false rest else none
    else (joinDigits? (isDigit c) rest).map (c :: ·)

/-- Whether a text has a minus in front, and what is behind its sign. -/
def unsigned (text : List Char) : Bool × List Char :=
  match text with
  | '-' :: rest => (true, rest)
  | '+' :: rest => (false, rest)
  | _ => (false, text)

def readInt? (text : String) : Option Int := do
  let (negative, digits) := unsigned (← joinDigits? false (plain text))
  if digits.isEmpty || !digits.all isDigit || maxDigits < digits.length then none
  else
    let n : Int := digitsValue digits
    return if negative then -n else n

/-- The number that digits with a point or an exponent stand for; one digit is needed before the
exponent. -/
def decimal? (negative : Bool) (text : List Char) : Option Binary64 :=
  let (whole, rest) := text.span isDigit
  let (places, rest) := match rest with
    | '.' :: rest => rest.span isDigit
    | _ => ([], rest)
  let number (power : Int) : Binary64 :=
    .ofDecimal negative (digitsValue (whole ++ places)) (power - places.length)
  if whole.isEmpty && places.isEmpty then none
  else if rest.isEmpty then some (number 0)
  else match exponent? rest with
    | some (power, []) => some (number power)
    | _ => none

def readReal? (text : String) : Option Binary64 := do
  let (negative, magnitude) := unsigned (← joinDigits? false (plain text))
  match String.ofList (magnitude.map Char.toLower) with
  | "inf" => return .infinity negative
  | "infinity" => return .infinity negative
  | "nan" => return .nan
  | _ => decimal? negative magnitude

end Launcher.Number
