import Launcher.Bytes
import Launcher.Text.Printable

/-! Quoted texts in messages: single quotes, or double ones around a text with a single quote and
no double one, with escapes for what does not print. -/
namespace Launcher.Text

def hexDigits (n digits : Nat) : List Char :=
  (List.range digits).reverse.map fun i => Bytes.hexDigit (n / Nat.pow 16 i % 16)

def quoteMark (text : List Char) : Char :=
  if text.contains '\'' && !text.contains '"' then '"' else '\''

/-- The letter that stands behind a backslash for a control character. -/
def controlLetter? : Char → Option Char
  | '\t' => some 't'
  | '\n' => some 'n'
  | '\r' => some 'r'
  | _ => none

def codeEscape (n : Nat) : List Char :=
  if n < 0x100 then '\\' :: 'x' :: hexDigits n 2
  else if n < 0x10000 then '\\' :: 'u' :: hexDigits n 4
  else '\\' :: 'U' :: hexDigits n 8

def quotedChar (mark c : Char) : List Char :=
  if c = mark || c = '\\' then ['\\', c]
  else match controlLetter? c with
    | some letter => ['\\', letter]
    | none => if isPrintable c then [c] else codeEscape c.toNat

def quotedChars (text : List Char) : List Char :=
  let mark := quoteMark text
  mark :: (text.flatMap (quotedChar mark) ++ [mark])

def quoted (text : String) : String := String.ofList (quotedChars text.toList)

/-- One byte between quotes: what is not printable ASCII is escaped. -/
def quotedByte (mark : Char) (b : UInt8) : List Char :=
  if b < 0x7F then quotedChar mark (Char.ofNat b.toNat)
  else '\\' :: 'x' :: hexDigits b.toNat 2

def quotedBytes (bytes : Bytes) : String :=
  let mark := quoteMark (bytes.map fun b => Char.ofNat b.toNat)
  String.ofList ('b' :: mark :: (bytes.flatMap (quotedByte mark) ++ [mark]))

end Launcher.Text
