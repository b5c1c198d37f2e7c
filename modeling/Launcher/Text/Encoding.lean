import Launcher.Bytes

/-! Decoding of byte strings in the Unicode encoding forms. The first fault is reported with the
bytes it spans, which are the longest start of a well-formed sequence. A surrogate that stands
alone, where it is let through, becomes the replacement character. -/
namespace Launcher

inductive Encoding
  | utf8
  | utf16 (bigEndian : Bool)
  | utf32 (bigEndian : Bool)
  deriving DecidableEq, Repr

inductive DecodingCause
  | invalidStart
  | invalidContinuation
  | unexpectedEnd
  | truncated
  | outOfRange
  deriving DecidableEq, Repr

/-- The bytes from `start` to before `stop` cannot be decoded; `first` is the first of them. -/
structure DecodingError where
  encoding : Encoding
  start : Nat
  stop : Nat
  first : UInt8
  cause : DecodingCause
  deriving DecidableEq, Repr

def Encoding.name : Encoding → String
  | .utf8 => "utf-8"
  | .utf16 bigEndian => if bigEndian then "utf-16-be" else "utf-16-le"
  | .utf32 bigEndian => if bigEndian then "utf-32-be" else "utf-32-le"

def DecodingCause.text : DecodingCause → String
  | .invalidStart => "invalid start byte"
  | .invalidContinuation => "invalid continuation byte"
  | .unexpectedEnd => "unexpected end of data"
  | .truncated => "truncated data"
  | .outOfRange => "code point not in range(0x110000)"

def DecodingError.message (e : DecodingError) : String :=
  let place :=
    if e.stop = e.start + 1 then "byte 0x" ++ Bytes.hex [e.first] ++ s!" in position {e.start}"
    else s!"bytes in position {e.start}-{e.stop - 1}"
  s!"'{e.encoding.name}' codec can't decode {place}: {e.cause.text}"

namespace Encoding

def isContinuation (b : UInt8) : Bool := 0x80 ≤ b && b < 0xC0

/-- The bytes that may follow the first byte of a sequence of three or four bytes. -/
def secondRange (first : UInt8) : UInt8 × UInt8 :=
  if first = 0xE0 then (0xA0, 0xBF)
  else if first = 0xED then (0x80, 0x9F)
  else if first = 0xF0 then (0x90, 0xBF)
  else if first = 0xF4 then (0x80, 0x8F)
  else (0x80, 0xBF)

def isSecond (first b : UInt8) : Bool :=
  let (low, high) := secondRange first
  low ≤ b && b ≤ high

/-- The payload of a lead byte and of the continuation bytes after it. -/
def payload (lead : Nat) (rest : List UInt8) : Char :=
  Char.ofNat (rest.foldl (fun n b => n * 64 + b.toNat % 64) lead)

/-- The number of bytes in the sequence that starts with this byte, zero if none does. -/
def sequenceLength (first : UInt8) : Nat :=
  if first < 0x80 then 1
  else if first < 0xC2 then 0
  else if first < 0xE0 then 2
  else if first < 0xF0 then 3
  else if first < 0xF5 then 4
  else 0

/-- A fault at the front of the input: how many bytes it spans and why. -/
structure Fault where
  length : Nat
  cause : DecodingCause

/-- The rest of a sequence: `wanted` continuation bytes, after `seen` bytes of the sequence. -/
def continuations : Nat → Nat → List UInt8 → Except Fault (List UInt8)
  | 0, _, _ => .ok []
  | _ + 1, seen, [] => .error ⟨seen, .unexpectedEnd⟩
  | wanted + 1, seen, b :: rest =>
    if isContinuation b then (continuations wanted (seen + 1) rest).map (b :: ·)
    else .error ⟨seen, .invalidContinuation⟩

def utf8Step (surrogates : Bool) (first : UInt8) (rest : List UInt8) : Except Fault (Char × Nat) :=
  match sequenceLength first with
  | 0 => .error ⟨1, .invalidStart⟩
  | 1 => .ok (Char.ofNat first.toNat, 1)
  | 2 => (continuations 1 1 rest).map fun tail => (payload (first.toNat % 32) tail, 2)
  | length =>
    match rest with
    | [] => .error ⟨1, .unexpectedEnd⟩
    | second :: third =>
      if isSecond first second then
        (continuations (length - 2) 2 third).map fun tail =>
          (payload (first.toNat % (if length = 3 then 16 else 8)) (second :: tail), length)
      else if surrogates && first = 0xED && isContinuation second &&
          (third.head?.map isContinuation).getD false then .ok ('\uFFFD', 3)
      else .error ⟨1, .invalidContinuation⟩

/-- Decodes UTF-8 from a position on; `fuel` is at least the number of bytes left. -/
def decodeUtf8 (surrogates : Bool) :
    (fuel position : Nat) → Bytes → List Char → Except DecodingError (List Char)
  | 0, _, _, done => .ok done.reverse
  | _ + 1, _, [], done => .ok done.reverse
  | fuel + 1, position, first :: rest, done =>
    match utf8Step surrogates first rest with
    | .error fault => .error ⟨.utf8, position, position + fault.length, first, fault.cause⟩
    | .ok (c, length) =>
      decodeUtf8 surrogates fuel (position + length) (rest.drop (length - 1)) (c :: done)

def isHighSurrogate (n : Nat) : Bool := 0xD800 ≤ n && n < 0xDC00
def isLowSurrogate (n : Nat) : Bool := 0xDC00 ≤ n && n < 0xE000

def joinSurrogates (high low : Nat) : Char :=
  Char.ofNat (0x10000 + (high - 0xD800) * 0x400 + (low - 0xDC00))

/-- The character of one code point, a surrogate being replaced. -/
def ofCodePoint (n : Nat) : Char :=
  if isHighSurrogate n || isLowSurrogate n then '\uFFFD' else Char.ofNat n

def ofUnits : List Nat → List Char
  | [] => []
  | [n] => [ofCodePoint n]
  | high :: low :: rest =>
    if isHighSurrogate high && isLowSurrogate low then joinSurrogates high low :: ofUnits rest
    else ofCodePoint high :: ofUnits (low :: rest)

def units16 (bigEndian : Bool) (position : Nat) : Bytes → Except DecodingError (List Nat)
  | [] => .ok []
  | [b] => .error ⟨.utf16 bigEndian, position, position + 1, b, .truncated⟩
  | a :: b :: rest =>
    let unit := if bigEndian then a.toNat * 256 + b.toNat else b.toNat * 256 + a.toNat
    (units16 bigEndian (position + 2) rest).map (unit :: ·)

def decodeUtf32 (bigEndian : Bool) (position : Nat) : Bytes → Except DecodingError (List Char)
  | [] => .ok []
  | a :: b :: c :: d :: rest =>
    let code := Bytes.littleEndian (if bigEndian then [d, c, b, a] else [a, b, c, d])
    if code < 0x110000 then
      (decodeUtf32 bigEndian (position + 4) rest).map (ofCodePoint code :: ·)
    else .error ⟨.utf32 bigEndian, position, position + 4, a, .outOfRange⟩
  | a :: rest =>
    .error ⟨.utf32 bigEndian, position, position + rest.length + 1, a, .truncated⟩

/-- Decodes bytes whose first one stands at `position` of a longer input. -/
def decode (encoding : Encoding) (surrogates : Bool) (position : Nat) (bytes : Bytes) :
    Except DecodingError (List Char) :=
  match encoding with
  | .utf8 => decodeUtf8 surrogates bytes.length position bytes []
  | .utf16 bigEndian => (units16 bigEndian position bytes).map ofUnits
  | .utf32 bigEndian => decodeUtf32 bigEndian position bytes

end Encoding

def Bytes.text? (bytes : Bytes) : Option String :=
  (Encoding.utf8.decode false 0 bytes).toOption.map String.ofList

end Launcher
