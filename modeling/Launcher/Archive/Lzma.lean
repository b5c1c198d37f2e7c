import Launcher.Bytes

/-! Decompression of data in which literal bytes and repetitions of earlier ones are written by a
range coder: every choice between zero and one narrows a range, in proportion to how often it came
before in the same context. Decompression stops at the end of the data, for want of input, or at a
fault. -/
namespace Launcher.Lzma

/-- What is wrong with the data or with the properties in front of them. -/
inductive Fault
  | properties
  | data
  deriving DecidableEq, Repr

def Fault.text : Fault → String
  | .properties => "Invalid or unsupported options"
  | .data => "Corrupt input data"

/-- Why decompression stops before the end of the data. -/
inductive Stop
  | starved
  | corrupt (fault : Fault)
  deriving DecidableEq, Repr

/-- How the contexts of choices are told apart: the number of high bits of the byte before and of
low bits of the place that count for a literal, the number of low bits of the place that count for
repetitions, and how far these reach back. -/
structure Properties where
  literalBits : Nat
  placeBits : Nat
  positionBits : Nat
  reach : Nat
  deriving Repr

/-- Reads properties, which have five bytes. The reach is 4096 at least and rounded up to a multiple
of sixteen. -/
def Properties.ofBytes? (bytes : Bytes) : Option Properties :=
  match bytes with
  | [kinds, _, _, _, _] =>
    let kinds := kinds.toNat
    let literalBits := kinds % 9
    let placeBits := kinds / 9 % 5
    if 225 ≤ kinds || 4 < literalBits + placeBits then none
    else some ⟨literalBits, placeBits, kinds / 45,
      (max 4096 (bytes.field 1 4) + 15) / 16 * 16⟩
  | _ => none

/-- The range coder over its input, with the chance of a zero in every context, out of 2048, and the
bytes that were put out. -/
structure State where
  input : Array UInt8
  position : Nat
  range : UInt32
  code : UInt32
  chances : Array UInt32
  output : Array UInt8

abbrev Step (α : Type) := ExceptT Stop (StateM State) α

def requireValid (holds : Bool) : Step Unit := if holds then pure () else throw (.corrupt .data)

def takeByte : Step Unit := do
  let s ← get
  match s.input[s.position]? with
  | none => throw .starved
  | some byte => set { s with position := s.position + 1, code := (s.code <<< 8) ||| byte.toUInt32 }

def widen : Step Unit := do
  if (← get).range < 0x1000000 then
    takeByte
    modify fun s => { s with range := s.range <<< 8 }

/-- Takes a bit in a context, whose chances follow. -/
def bit (context : Nat) : Step Nat := do
  widen
  modifyGet fun (s : State) =>
    let chance := s.chances.getD context 0
    let bound := (s.range >>> 11) * chance
    if s.code < bound then
      (0, { s with
        range := bound
        chances := s.chances.setIfInBounds context (chance + ((2048 - chance) >>> 5)) })
    else
      (1, { s with
        range := s.range - bound
        code := s.code - bound
        chances := s.chances.setIfInBounds context (chance - (chance >>> 5)) })

def evenBit : Step Nat := do
  widen
  modifyGet fun (s : State) =>
    let range := s.range >>> 1
    let code := s.code - range
    if code >>> 31 = 1 then (0, { s with range, code := code + range })
    else (1, { s with range, code })

/-- Takes bits in a tree of contexts from the highest bit on; `path` is one followed by those
taken. -/
def tree (contexts : Nat) : (count path : Nat) → Step Nat
  | 0, path => return path
  | count + 1, path => do tree contexts count (2 * path + (← bit (contexts + path)))

def number (contexts count : Nat) : Step Nat := do
  return (← tree contexts count 1) - Nat.pow 2 count

def reversedNumber (contexts : Nat) : (count path weight : Nat) → Step Nat
  | 0, _, _ => return 0
  | count + 1, path, weight => do
    let b ← bit (contexts + path)
    return b * weight + (← reversedNumber contexts count (2 * path + b) (2 * weight))

def evenBits : (count value : Nat) → Step Nat
  | 0, value => return value
  | count + 1, value => do evenBits count (2 * value + (← evenBit))

/-! Where the contexts of each kind begin. -/

def isMatch (history position : Nat) : Nat := 16 * history + position
def isRepeated (history : Nat) : Nat := 192 + history
def isOlder (history : Nat) : Nat := 204 + history
def isThird (history : Nat) : Nat := 216 + history
def isFourth (history : Nat) : Nat := 228 + history
def isLong (history position : Nat) : Nat := 240 + 16 * history + position
def slots (length : Nat) : Nat := 432 + 64 * min (length - 2) 3
def nearDistances : Nat := 688
def lowDistances : Nat := 816
def newLengths : Nat := 832
def repeatedLengths : Nat := 1346
def literals : Nat := 1860

def contexts (p : Properties) : Nat := literals + 768 * Nat.pow 2 (p.literalBits + p.placeBits)

/-- What the next choices depend on: the kinds of the symbols before, as a number below twelve, and
the four distances that were used last, each less one. -/
structure Past where
  history : Nat
  distances : List Nat

def Past.start : Past := ⟨0, [0, 0, 0, 0]⟩

namespace Past

def distance (p : Past) : Nat := p.distances.headD 0

def isLiteral (p : Past) : Bool := p.history < 7

def afterLiteral (p : Past) : Past :=
  { p with history := if p.history < 4 then 0 else if p.history < 10 then p.history - 3
      else p.history - 6 }

def afterMatch (p : Past) (distance : Nat) : Past :=
  ⟨if p.isLiteral then 7 else 10, distance :: p.distances.take 3⟩

def afterRepeated (p : Past) (place : Nat) : Past :=
  ⟨if p.isLiteral then 8 else 11, p.distances.getD place 0 :: p.distances.eraseIdx place⟩

def afterSingle (p : Past) : Past := { p with history := if p.isLiteral then 9 else 11 }

end Past

/-- The byte at a distance, less one, before the end of the output; zero before its beginning. -/
def byteAt (distance : Nat) : Step UInt8 := do
  let s ← get
  return if distance < s.output.size then s.output.getD (s.output.size - 1 - distance) 0 else 0

def emit (byte : UInt8) : Step Unit := modify fun s => { s with output := s.output.push byte }

def copy (distance : Nat) : (count : Nat) → Step Unit
  | 0 => pure ()
  | count + 1 => do
    emit (← byteAt distance)
    copy distance count

/-- Takes the bits of a literal that follows a repetition: its contexts tell whether it has agreed
so far with the byte that the repetition would have had next. -/
def differing (contexts : Nat) : (count path : Nat) → (agrees : Bool) → (expected : Nat) → Step Nat
  | 0, path, _, _ => return path
  | count + 1, path, agrees, expected => do
    let expectedBit := expected / 128 % 2
    let b ← bit (contexts + path + (if agrees then 256 + 256 * expectedBit else 0))
    differing contexts count (2 * path + b) (agrees && b = expectedBit) (2 * expected)

def literal (p : Properties) (past : Past) : Step Unit := do
  let place := (← get).output.size % Nat.pow 2 p.placeBits
  let before ← byteAt 0
  let context := literals + 768 * (place * Nat.pow 2 p.literalBits +
    before.toNat / Nat.pow 2 (8 - p.literalBits))
  let path ←
    if past.isLiteral then tree context 8 1
    else differing context 8 1 true (← byteAt past.distance).toNat
  emit (UInt8.ofNat (path % 256))

/-- Takes a length, which is at least two. -/
def length (contexts position : Nat) : Step Nat := do
  if (← bit contexts) = 0 then return 2 + (← number (contexts + 2 + 8 * position) 3)
  if (← bit (contexts + 1)) = 0 then return 10 + (← number (contexts + 130 + 8 * position) 3)
  return 18 + (← number (contexts + 258) 8)

/-- Takes a distance, less one, for a repetition of some length. -/
def newDistance (length : Nat) : Step Nat := do
  let slot ← number (slots length) 6
  if slot < 4 then return slot
  let count := slot / 2 - 1
  let high := 2 + slot % 2
  if slot < 14 then
    let start := high * Nat.pow 2 count
    return start + (← reversedNumber (nearDistances + start - slot - 1) count 1 1)
  let high ← evenBits (count - 4) high
  return 16 * high + (← reversedNumber lowDistances 4 1 1)

def endDistance : Nat := 0xFFFFFFFF

/-- Takes the kind of a repetition at a distance that was used before, and the past after it; none
of a single byte at the distance used last. -/
def repeated (past : Past) (position : Nat) : Step (Option Past) := do
  if (← bit (isOlder past.history)) = 0 then
    if (← bit (isLong past.history position)) = 0 then return none
    return some (past.afterRepeated 0)
  if (← bit (isThird past.history)) = 0 then return some (past.afterRepeated 1)
  if (← bit (isFourth past.history)) = 0 then return some (past.afterRepeated 2)
  return some (past.afterRepeated 3)

/-- Takes symbols up to the end of the data; `fuel` is more than their number. -/
def symbols (p : Properties) : (fuel : Nat) → Past → Step Unit
  | 0, _ => throw .starved
  | fuel + 1, past => do
    let size := (← get).output.size
    let position := size % Nat.pow 2 p.positionBits
    if (← bit (isMatch past.history position)) = 0 then
      literal p past
      symbols p fuel past.afterLiteral
    else if (← bit (isRepeated past.history)) = 0 then
      let count ← length newLengths position
      let distance ← newDistance count
      if distance = endDistance then
        widen
        requireValid ((← get).code = 0)
      else
        requireValid (distance < min size p.reach)
        copy distance count
        symbols p fuel (past.afterMatch distance)
    else
      requireValid (0 < size)
      match ← repeated past position with
      | none =>
        copy past.distance 1
        symbols p fuel past.afterSingle
      | some past =>
        let count ← length repeatedLengths position
        copy past.distance count
        symbols p fuel past

/-- Takes the bytes that start the range coder, of which the first is zero, and the symbols. The
rarest bit takes a fiftieth of a bit of the input at least. -/
def stream (p : Properties) : Step Unit := do
  match (← get).input[0]? with
  | none => throw .starved
  | some first =>
    requireValid (first = 0)
    modify fun s => { s with position := 1 }
    takeByte
    takeByte
    takeByte
    takeByte
    symbols p (8 * 50 * ((← get).input.size + 1)) .start

/-- What decompression gives: all output so far, and why it stopped, none at the end of the data. -/
structure Result where
  output : Array UInt8
  stop : Option Stop

/-- Decompresses data behind a header of four bytes, the last two of which are the size of the
properties that follow. -/
def run (data : Bytes) : Result :=
  let size := data.field 2 2
  if data.length ≤ 4 || data.length ≤ 4 + size then ⟨#[], some .starved⟩
  else match Properties.ofBytes? (data.slice 4 size) with
    | none => ⟨#[], some (.corrupt .properties)⟩
    | some p =>
      let (end?, s) := (stream p).run.run
        ⟨(data.drop (4 + size)).toArray, 0, 0xFFFFFFFF, 0, Array.replicate (contexts p) 1024, #[]⟩
      { output := s.output
        stop := match end? with
          | .ok () => none
          | .error stop => some stop }

end Launcher.Lzma
