import Launcher.Number.Digits
import Launcher.Text.Pieces

/-! Internet addresses in text, as hosts in brackets must be. -/
namespace Launcher.Url

open Number (digitsValue hexValue? isDigit)
open Text (splitOn)

def isHexDigit (c : Char) : Bool := (hexValue? c).isSome

/-- A decimal number below 256 without leading zeros. -/
def isOctet (text : List Char) : Bool :=
  !text.isEmpty && text.all isDigit && text.length ≤ 3 &&
    (text = ['0'] || text.head? ≠ some '0') && digitsValue text ≤ 255

/-- Four numbers between points. -/
def isAddress4 (text : List Char) : Bool :=
  let pieces := splitOn '.' text
  pieces.length = 4 && pieces.all isOctet

def isGroup (text : List Char) : Bool :=
  !text.isEmpty && text.length ≤ 4 && text.all isHexDigit

/-- Whether the pieces between colons make a 16-byte address: eight groups, or fewer about a single
empty piece, which a text that starts or ends with it doubles. -/
def areGroups (pieces : List (List Char)) : Bool :=
  let inner := (pieces.drop 1).dropLast
  if pieces.length < 3 || 9 < pieces.length then false
  else match inner.findIdx? (·.isEmpty) with
    | none => pieces.length = 8 && pieces.all isGroup
    | some i =>
      let high := pieces.take (i + 1)
      let low := pieces.drop (i + 2)
      let high' := if high.head? = some [] then high.drop 1 else high
      let low' := if low.getLast? = some [] then low.dropLast else low
      (high.head? ≠ some [] || high'.isEmpty) && (low.getLast? ≠ some [] || low'.isEmpty) &&
        high'.length + low'.length ≤ 7 && high'.all isGroup && low'.all isGroup

/-- A 16-byte address, whose last four bytes may be written with points and which a zone may
follow after a percent sign. -/
def isAddress6 (text : List Char) : Bool :=
  let (address, zone) := text.span (· ≠ '%')
  let zoneOk := match zone with
    | [] => true
    | _ :: name => !name.isEmpty && !name.contains '%'
  let pieces := splitOn ':' address
  let pieces := match pieces.getLast? with
    | some last => if last.contains '.' then
        if isAddress4 last then pieces.dropLast ++ [['0'], ['0']] else []
      else pieces
    | none => pieces
  zoneOk && !text.contains '/' && 3 ≤ (splitOn ':' address).length && areGroups pieces

/-- The form of addresses to come: a version in hexadecimal, a point and an address. -/
def isFutureAddress (text : List Char) : Bool :=
  match text with
  | 'v' :: rest =>
    let (version, rest) := rest.span isHexDigit
    !version.isEmpty && (match rest with
      | '.' :: address => !address.isEmpty && !address.contains '\n'
      | _ => false)
  | _ => false

end Launcher.Url
