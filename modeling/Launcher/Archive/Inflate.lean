import Launcher.Archive.PrefixCode

/-! Decompression of deflated data. It stops at the end of the data, for want of input, at a fault,
or when the output has the length that was asked for; so data can be taken in portions by running
it again over more input with a greater length. -/
namespace Launcher.Inflate

inductive Fault
  | blockType
  | storedLengths
  | codeCount
  | codeLengths
  | repetition
  | endCode
  | literalLengths
  | distanceLengths
  | literal
  | distance
  | reach
  deriving DecidableEq, Repr

def Fault.text : Fault → String
  | .blockType => "invalid block type"
  | .storedLengths => "invalid stored block lengths"
  | .codeCount => "too many length or distance symbols"
  | .codeLengths => "invalid code lengths set"
  | .repetition => "invalid bit length repeat"
  | .endCode => "invalid code -- missing end-of-block"
  | .literalLengths => "invalid literal/lengths set"
  | .distanceLengths => "invalid distances set"
  | .literal => "invalid literal/length code"
  | .distance => "invalid distance code"
  | .reach => "invalid distance too far back"

inductive Stop
  | starved
  | full
  | corrupt (fault : Fault)
  deriving DecidableEq, Repr

structure State where
  input : Array UInt8
  /-- The number of bits taken from the input, those of a byte from the lowest on. -/
  position : Nat
  output : Array UInt8
  limit : Nat

abbrev Step (α : Type) := ExceptT Stop (StateM State) α

def bits (count : Nat) : Step Nat := do
  let s ← get
  if 8 * s.input.size < s.position + count then throw .starved
  set { s with position := s.position + count }
  return (List.range count).foldl (fun n i =>
    let place := s.position + i
    n + (((s.input.getD (place / 8) 0).toNat >>> (place % 8)) % 2) * Nat.pow 2 i) 0

def needRoom : Step Unit := do
  let s ← get
  if s.limit ≤ s.output.size then throw .full

def emit (byte : UInt8) : Step Unit := do
  needRoom
  modify fun s => { s with output := s.output.push byte }

/-- What is left of the code space when the words of each length are taken, and whether they were
ever too many. -/
def remaining (counts : List Nat) : Int × Bool :=
  counts.foldl (fun (state : Int × Bool) (count : Nat) =>
    let left := 2 * state.1 - (count : Int)
    (left, state.2 || decide (left < 0))) (1, false)

/-- The code whose symbols have these lengths. A code must leave nothing over, unless it is empty,
or has a single symbol of one bit and `single` admits that. -/
def code? (lengths : List Nat) (single : Bool) : Option PrefixCode :=
  let code := PrefixCode.ofLengths 15 lengths
  let (left, tooMany) := remaining (code.counts.toList.drop 1)
  if code.longest ≠ 0 && (tooMany || (decide (0 < left) && !(single && code.longest = 1))) then none
  else some code

/-- Takes one symbol of a code, none if its bits are no word. At least one bit is taken. -/
def decode (code : PrefixCode) : Step (Option Nat) := code.decode (bits 1) (max 1 code.longest)

def lengthBases : List (Nat × Nat) := [(3, 0), (4, 0), (5, 0), (6, 0), (7, 0), (8, 0), (9, 0),
  (10, 0), (11, 1), (13, 1), (15, 1), (17, 1), (19, 2), (23, 2), (27, 2), (31, 2), (35, 3), (43, 3),
  (51, 3), (59, 3), (67, 4), (83, 4), (99, 4), (115, 4), (131, 5), (163, 5), (195, 5), (227, 5),
  (258, 0)]

def distanceBases : List (Nat × Nat) := [(1, 0), (2, 0), (3, 0), (4, 0), (5, 1), (7, 1), (9, 2),
  (13, 2), (17, 3), (25, 3), (33, 4), (49, 4), (65, 5), (97, 5), (129, 6), (193, 6), (257, 7),
  (385, 7), (513, 8), (769, 8), (1025, 9), (1537, 9), (2049, 10), (3073, 10), (4097, 11),
  (6145, 11), (8193, 12), (12289, 12), (16385, 13), (24577, 13)]

def copy (distance : Nat) : (count : Nat) → Step Unit
  | 0 => pure ()
  | count + 1 => do
    let s ← get
    emit (s.output.getD (s.output.size - distance) 0)
    copy distance count

def orCorrupt {α : Type} (fault : Fault) : Option α → Step α
  | some a => pure a
  | none => throw (.corrupt fault)

/-- The symbols of a block up to its end; `fuel` is more than the number of bits left. -/
def symbols (literals distances : PrefixCode) : (fuel : Nat) → Step Unit
  | 0 => throw .starved
  | fuel + 1 => do
    let symbol ← orCorrupt .literal (← decode literals)
    if symbol < 256 then
      emit (UInt8.ofNat symbol)
      symbols literals distances fuel
    else if symbol = 256 then pure ()
    else
      let (base, extra) ← orCorrupt .literal lengthBases[symbol - 257]?
      let length := base + (← bits extra)
      let symbol ← orCorrupt .distance (← decode distances)
      let (base, extra) ← orCorrupt .distance distanceBases[symbol]?
      let distance := base + (← bits extra)
      needRoom
      if (← get).output.size < distance then throw (.corrupt .reach)
      copy distance length
      symbols literals distances fuel

def fixedLiterals : Option PrefixCode := code?
  (List.replicate 144 8 ++ List.replicate 112 9 ++ List.replicate 24 7 ++ List.replicate 8 8) false

def fixedDistances : Option PrefixCode := code? (List.replicate 32 5) false

/-- The order in which the lengths of the code for lengths are written. -/
def lengthOrder : List Nat := [16, 17, 18, 0, 8, 7, 9, 6, 10, 5, 11, 4, 12, 3, 13, 2, 14, 1, 15]

/-- Lengths up to a total, some of them written as repetitions. Bits that are no code count as the
length zero. -/
def lengths (code : PrefixCode) (total : Nat) : (fuel : Nat) → List Nat → Step (List Nat)
  | 0, _ => throw .starved
  | fuel + 1, done => do
    if total ≤ done.length then return done
    let symbol := (← decode code).getD 0
    if symbol < 16 then lengths code total fuel (done ++ [symbol])
    else
      let (value, least, width) := if symbol = 16 then (done.getLast?, 3, 2)
        else if symbol = 17 then (some 0, 3, 3) else (some 0, 11, 7)
      let count := least + (← bits width)
      let value ← orCorrupt .repetition value
      if total < done.length + count then throw (.corrupt .repetition)
      lengths code total fuel (done ++ List.replicate count value)

def dynamicCodes (fuel : Nat) : Step (PrefixCode × PrefixCode) := do
  let counts ← bits 14
  let literalCount := 257 + counts % 32
  let distanceCount := 1 + counts / 32 % 32
  let lengthCount := 4 + counts / 1024
  if 286 < literalCount || 30 < distanceCount then throw (.corrupt .codeCount)
  let widths ← (List.range lengthCount).mapM fun _ => bits 3
  let byOrder := lengthOrder.zip widths
  let code ← orCorrupt .codeLengths (code? ((List.range 19).map fun n =>
    ((byOrder.find? (·.1 == n)).map (·.2)).getD 0) false)
  let all ← lengths code (literalCount + distanceCount) fuel []
  if all.getD 256 0 = 0 then throw (.corrupt .endCode)
  let literals ← orCorrupt .literalLengths (code? (all.take literalCount) true)
  let distances ← orCorrupt .distanceLengths (code? (all.drop literalCount) true)
  return (literals, distances)

def stored : (count : Nat) → Step Unit
  | 0 => pure ()
  | count + 1 => do
    needRoom
    emit (UInt8.ofNat (← bits 8))
    stored count

/-- The blocks up to the last one; `fuel` is at least the number of bits left. -/
def blocks : (fuel : Nat) → Step Unit
  | 0 => throw .starved
  | fuel + 1 => do
    let head ← bits 3
    match head / 2 with
    | 0 =>
      modify fun s => { s with position := (s.position + 7) / 8 * 8 }
      let lengths ← bits 32
      if lengths % 65536 + lengths / 65536 ≠ 65535 then throw (.corrupt .storedLengths)
      stored (lengths % 65536)
    | 1 =>
      symbols (← orCorrupt .literalLengths fixedLiterals)
        (← orCorrupt .distanceLengths fixedDistances) fuel
    | 2 =>
      let (literals, distances) ← dynamicCodes fuel
      symbols literals distances fuel
    | _ => throw (.corrupt .blockType)
    if head % 2 = 1 then pure () else blocks fuel

/-- What decompression gives: the output, the number of input bytes it began to take, and why it
stopped, none at the end of the data. -/
structure Result where
  output : Array UInt8
  consumed : Nat
  stop : Option Stop

def run (input : Array UInt8) (limit : Nat) : Result :=
  let (end?, s) := (blocks (8 * input.size + 1)).run.run ⟨input, 0, #[], limit⟩
  { output := s.output
    consumed := (s.position + 7) / 8
    stop := match end? with
      | .ok () => none
      | .error stop => some stop }

end Launcher.Inflate
