import Launcher.Json.Basic
import Launcher.Number.Digits
import Launcher.Text.Encoding

/-! Reading of JSON texts. Besides the standard's numbers, `NaN`, `Infinity` and `-Infinity` are
read; a fault is reported with its line, column and place, each in characters. -/
namespace Launcher
namespace Json

inductive SyntaxCause
  | expectedValue
  | expectedName
  | expectedColon
  | expectedComma
  | extraData
  | unterminatedString
  | controlCharacter
  | invalidEscape
  | invalidUnicodeEscape
  | byteOrderMark
  deriving DecidableEq, Repr

def SyntaxCause.text : SyntaxCause → String
  | .expectedValue => "Expecting value"
  | .expectedName => "Expecting property name enclosed in double quotes"
  | .expectedColon => "Expecting ':' delimiter"
  | .expectedComma => "Expecting ',' delimiter"
  | .extraData => "Extra data"
  | .unterminatedString => "Unterminated string starting at"
  | .controlCharacter => "Invalid control character at"
  | .invalidEscape => "Invalid \\escape"
  | .invalidUnicodeEscape => "Invalid \\uXXXX escape"
  | .byteOrderMark => "Unexpected UTF-8 BOM (decode using utf-8-sig)"

structure SyntaxError where
  cause : SyntaxCause
  line : Nat
  column : Nat
  position : Nat
  deriving DecidableEq, Repr

def SyntaxError.message (e : SyntaxError) : String :=
  s!"{e.cause.text}: line {e.line} column {e.column} (char {e.position})"

inductive ReadError
  | malformed (error : SyntaxError)
  | undecodable (error : DecodingError)
  | integerTooLong (digits : Nat)
  deriving DecidableEq, Repr

def ReadError.message : ReadError → String
  | .malformed e => e.message
  | .undecodable e => e.message
  | .integerTooLong digits => Number.tooManyDigits digits

namespace Parser

open Number (isDigit digitsValue exponent? hexValue? maxDigits)

/-- A fault inside the text: a cause with the number of characters from its place to the end, or
the number of digits of an integer that is too long. -/
inductive Fault
  | at (cause : SyntaxCause) (left : Nat)
  | tooLong (digits : Nat)

abbrev Result (α : Type) := Except Fault (α × List Char)

def fail {α : Type} (cause : SyntaxCause) (rest : List Char) : Except Fault α :=
  .error (.at cause rest.length)

def isSpace (c : Char) : Bool := c = ' ' || c = '\t' || c = '\n' || c = '\r'

def skipSpace : List Char → List Char
  | [] => []
  | c :: rest => if isSpace c then skipSpace rest else c :: rest

def hexQuad? : List Char → Option Nat
  | [a, b, c, d] => do
    let a ← hexValue? a
    let b ← hexValue? b
    let c ← hexValue? c
    let d ← hexValue? d
    return ((a * 16 + b) * 16 + c) * 16 + d
  | _ => none

def escaped? : Char → Option Char
  | '"' => some '"'
  | '\\' => some '\\'
  | '/' => some '/'
  | 'b' => some '\x08'
  | 'f' => some '\x0C'
  | 'n' => some '\n'
  | 'r' => some '\r'
  | 't' => some '\t'
  | _ => none

/-- The low surrogate that a second escape right after a first one gives. The second escape is
looked at only if a character follows it. -/
def lowSurrogate? (rest : List Char) : Except Fault (Option Nat) :=
  match rest with
  | '\\' :: 'u' :: digits =>
    if digits.length ≤ 4 then .ok none
    else match hexQuad? (digits.take 4) with
      | none => .error (.at .invalidUnicodeEscape (digits.length + 1))
      | some n => .ok (if Encoding.isLowSurrogate n then some n else none)
  | _ => .ok none

/-- The rest of a string literal; `opening` counts the characters from its opening quote on, and
`fuel` is at least the number of characters left. -/
def stringRest (opening : Nat) : (fuel : Nat) → List Char → List Char → Result String
  | 0, _, _ => .error (.at .unterminatedString opening)
  | _ + 1, [], _ => .error (.at .unterminatedString opening)
  | fuel + 1, c :: rest, done =>
    if c = '"' then .ok (String.ofList done.reverse, rest)
    else if c = '\\' then
      match rest with
      | [] => .error (.at .unterminatedString opening)
      | 'u' :: digits =>
        -- The four digits must not end the text.
        if digits.length ≤ 4 then .error (.at .invalidUnicodeEscape (digits.length + 1))
        else match hexQuad? (digits.take 4) with
          | none => .error (.at .invalidUnicodeEscape (digits.length + 1))
          | some high =>
            if Encoding.isHighSurrogate high then
              match lowSurrogate? (digits.drop 4) with
              | .error fault => .error fault
              | .ok (some low) =>
                stringRest opening fuel (digits.drop 10) (Encoding.joinSurrogates high low :: done)
              | .ok none => stringRest opening fuel (digits.drop 4) ('\uFFFD' :: done)
            else stringRest opening fuel (digits.drop 4) (Encoding.ofCodePoint high :: done)
      | e :: rest' =>
        match escaped? e with
        | some c => stringRest opening fuel rest' (c :: done)
        | none => fail .invalidEscape (c :: rest)
    else if c.toNat < 0x20 then fail .controlCharacter (c :: rest)
    else stringRest opening fuel rest (c :: done)

/-- A string literal, the text starting after its opening quote. -/
def stringLiteral (text : List Char) : Result String :=
  stringRest (text.length + 1) (text.length + 1) text []

/-- The fraction at the front of a text: the digits after a point, at least one. -/
def fraction (text : List Char) : List Char × List Char :=
  match text with
  | '.' :: rest => if (rest.head?.map isDigit).getD false then rest.span isDigit else ([], text)
  | _ => ([], text)

/-- The digits of an integer part: a zero, or digits that start with none. -/
def integerDigits (text : List Char) : List Char × List Char :=
  match text with
  | '0' :: rest => (['0'], rest)
  | _ => text.span isDigit

def number (text : List Char) : Result Json :=
  let (negative, unsigned) := match text with
    | '-' :: rest => (true, rest)
    | _ => (false, text)
  let (whole, rest) := integerDigits unsigned
  if whole.isEmpty then fail .expectedValue text
  else
    let (places, rest) := fraction rest
    match exponent? rest with
    | some (power, rest) =>
      .ok (.float (Binary64.ofDecimal negative (digitsValue (whole ++ places))
        (power - places.length)), rest)
    | none =>
      if places.isEmpty then
        if maxDigits < whole.length then .error (.tooLong whole.length)
        else
          let n : Int := digitsValue whole
          .ok (.int (if negative then -n else n), rest)
      else
        .ok (.float (Binary64.ofDecimal negative (digitsValue (whole ++ places))
          (-(places.length : Int))), rest)

def word? : List Char → List Char → Option (List Char)
  | [], text => some text
  | _ :: _, [] => none
  | c :: word, d :: text => if c = d then word? word text else none

def literal? (text : List Char) : Option (Json × List Char) :=
  [("null", Json.null), ("true", .bool true), ("false", .bool false), ("NaN", .float .nan),
    ("Infinity", .float (Binary64.infinity false)),
    ("-Infinity", .float (Binary64.infinity true))].findSome? fun (word, value) =>
      (word? word.toList text).map ((value, ·))

mutual

/-- A value at the front of the text; `fuel` bounds the nesting of calls. -/
def value : (fuel : Nat) → List Char → Result Json
  | 0, text => fail .expectedValue text
  | fuel + 1, text =>
    match text with
    | '"' :: rest => (stringLiteral rest).map fun (s, rest) => (.string s, rest)
    | '{' :: rest =>
      match skipSpace rest with
      | '}' :: rest => .ok (.object [], rest)
      | rest => (members fuel rest).map fun (pairs, rest) => (.object (Members.ofList pairs), rest)
    | '[' :: rest =>
      match skipSpace rest with
      | ']' :: rest => .ok (.list [], rest)
      | rest => (items fuel rest).map fun (values, rest) => (.list values, rest)
    | _ =>
      match literal? text with
      | some found => .ok found
      | none => number text

/-- The items of a list up to its closing bracket, at least one. -/
def items : (fuel : Nat) → List Char → Except Fault (List Json × List Char)
  | 0, text => fail .expectedValue text
  | fuel + 1, text => do
    let (first, rest) ← value fuel text
    match skipSpace rest with
    | ']' :: rest => .ok ([first], rest)
    | ',' :: rest => do
      let (more, rest) ← items fuel (skipSpace rest)
      return (first :: more, rest)
    | rest => fail .expectedComma rest

def members : (fuel : Nat) → List Char → Except Fault (List (String × Json) × List Char)
  | 0, text => fail .expectedValue text
  | fuel + 1, text =>
    match text with
    | '"' :: rest => do
      let (name, rest) ← stringLiteral rest
      match skipSpace rest with
      | ':' :: rest => do
        let (content, rest) ← value fuel (skipSpace rest)
        match skipSpace rest with
        | '}' :: rest => .ok ([(name, content)], rest)
        | ',' :: rest => do
          let (more, rest) ← members fuel (skipSpace rest)
          return ((name, content) :: more, rest)
        | rest => fail .expectedComma rest
      | rest => fail .expectedColon rest
    | _ => fail .expectedName text

end

def document (text : List Char) : Except Fault Json := do
  let start := skipSpace text
  let (content, rest) ← value (2 * text.length + 2) start
  match skipSpace rest with
  | [] => .ok content
  | rest => fail .extraData rest

/-- The line and the column of a place are counted from one. -/
def errorAt (text : List Char) (cause : SyntaxCause) (position : Nat) : SyntaxError :=
  let before := text.take position
  { cause, position
    line := before.count '\n' + 1
    column := (before.reverse.takeWhile (· ≠ '\n')).length + 1 }

end Parser

def parseChars (text : List Char) : Except ReadError Json :=
  match Parser.document text with
  | .ok value => .ok value
  | .error (.at cause left) => .error (.malformed (Parser.errorAt text cause (text.length - left)))
  | .error (.tooLong digits) => .error (.integerTooLong digits)

/-- Reads the text of a file, which must not start with a byte-order mark. -/
def parseText (text : List Char) : Except ReadError Json :=
  if text.head? = some '\uFEFF' then .error (.malformed (Parser.errorAt text .byteOrderMark 0))
  else parseChars text

/-- The encoding of a document, told by a byte-order mark or by the zeros among its first bytes,
with the number of bytes of the mark to skip. -/
def detectEncoding : Bytes → Encoding × Nat
  | 0x00 :: 0x00 :: 0xFE :: 0xFF :: _ => (.utf32 true, 4)
  | 0xFF :: 0xFE :: 0x00 :: 0x00 :: _ => (.utf32 false, 4)
  | 0xFE :: 0xFF :: _ => (.utf16 true, 2)
  | 0xFF :: 0xFE :: _ => (.utf16 false, 2)
  | 0xEF :: 0xBB :: 0xBF :: _ => (.utf8, 3)
  | a :: b :: c :: d :: _ =>
    if a = 0 then (if b = 0 then .utf32 true else .utf16 true, 0)
    else if b = 0 then (if c = 0 && d = 0 then .utf32 false else .utf16 false, 0)
    else (.utf8, 0)
  | [a, b] => (if a = 0 then .utf16 true else if b = 0 then .utf16 false else .utf8, 0)
  | _ => (.utf8, 0)

/-- The text of a document. Places in it are counted after a mark of UTF-8, but with the marks of
the wider forms. -/
def decodeText (bytes : Bytes) : Except DecodingError (List Char) :=
  let (encoding, mark) := detectEncoding bytes
  encoding.decode true (if encoding = .utf8 then 0 else mark) (bytes.drop mark)

def parse (bytes : Bytes) : Except ReadError Json :=
  match decodeText bytes with
  | .error e => .error (.undecodable e)
  | .ok text => parseChars text

end Json
end Launcher
