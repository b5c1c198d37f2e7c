import Launcher.Archive.PrefixCode
import Launcher.Bytes

/-! Decompression of block-sorted data. Each block holds a text whose runs were shortened, whose
bytes were sorted by what follows them, and whose sorted bytes were moved to the front and written
in prefix codes. Decompression stops at the end of the data, for want of input, or at a fault. -/
namespace Launcher.Bzip2

inductive Stop
  | starved
  | corrupt
  deriving DecidableEq, Repr

structure State where
  input : Array UInt8
  /-- The number of bits taken from the input, those of a byte from the highest on. -/
  position : Nat
  output : Array UInt8

abbrev Step (α : Type) := ExceptT Stop (StateM State) α

def bits (count : Nat) : Step Nat := do
  let s ← get
  if 8 * s.input.size < s.position + count then throw .starved
  set { s with position := s.position + count }
  return (List.range count).foldl (fun n i =>
    let place := s.position + i
    2 * n + ((s.input.getD (place / 8) 0).toNat >>> (7 - place % 8)) % 2) 0

def require (holds : Bool) : Step Unit := if holds then pure () else throw .corrupt

def expect : List Nat → Step Unit
  | [] => pure ()
  | byte :: rest => do
    require ((← bits 8) = byte)
    expect rest

/-- Absorbs a byte into the checksum of a block, whose register moves to the left. -/
def absorb (register : UInt32) (byte : UInt8) : UInt32 :=
  (List.range 8).foldl (fun r _ =>
    if r &&& 0x80000000 = 0 then r <<< 1 else (r <<< 1) ^^^ 0x04C11DB7)
    (register ^^^ (byte.toUInt32 <<< 24))

def checksum (bytes : Array UInt8) : UInt32 := ~~~ (bytes.foldl absorb 0xFFFFFFFF)

/-- The checksum of all blocks, from that of the blocks before and the one of the next. -/
def combine (checksum next : UInt32) : UInt32 := ((checksum <<< 1) ||| (checksum >>> 31)) ^^^ next

/-- The distances between the bytes whose lowest bit is turned over in a perturbed block, beginning
anew after the last one. -/
def distances : List Nat := [
  619, 720, 127, 481, 931, 816, 813, 233, 566, 247, 985, 724, 205, 454, 863, 491, 741, 242, 949,
  214, 733, 859, 335, 708, 621, 574, 73, 654, 730, 472, 419, 436, 278, 496, 867, 210, 399, 680,
  480, 51, 878, 465, 811, 169, 869, 675, 611, 697, 867, 561, 862, 687, 507, 283, 482, 129, 807,
  591, 733, 623, 150, 238, 59, 379, 684, 877, 625, 169, 643, 105, 170, 607, 520, 932, 727, 476,
  693, 425, 174, 647, 73, 122, 335, 530, 442, 853, 695, 249, 445, 515, 909, 545, 703, 919, 874,
  474, 882, 500, 594, 612, 641, 801, 220, 162, 819, 984, 589, 513, 495, 799, 161, 604, 958, 533,
  221, 400, 386, 867, 600, 782, 382, 596, 414, 171, 516, 375, 682, 485, 911, 276, 98, 553, 163,
  354, 666, 933, 424, 341, 533, 870, 227, 730, 475, 186, 263, 647, 537, 686, 600, 224, 469, 68,
  770, 919, 190, 373, 294, 822, 808, 206, 184, 943, 795, 384, 383, 461, 404, 758, 839, 887, 715,
  67, 618, 276, 204, 918, 873, 777, 604, 560, 951, 160, 578, 722, 79, 804, 96, 409, 713, 940,
  652, 934, 970, 447, 318, 353, 859, 672, 112, 785, 645, 863, 803, 350, 139, 93, 354, 99, 820,
  908, 609, 772, 154, 274, 580, 184, 79, 626, 630, 742, 653, 282, 762, 623, 680, 81, 927, 626,
  789, 125, 411, 521, 938, 300, 821, 78, 343, 175, 128, 250, 170, 774, 972, 275, 999, 639, 495,
  78, 352, 126, 857, 956, 358, 619, 580, 124, 737, 594, 701, 612, 669, 112, 134, 694, 363, 992,
  809, 743, 168, 974, 944, 375, 748, 52, 600, 747, 642, 182, 862, 81, 344, 805, 988, 739, 511,
  655, 814, 334, 249, 515, 897, 955, 664, 981, 649, 113, 974, 459, 893, 228, 433, 837, 553, 268,
  926, 240, 102, 654, 459, 51, 686, 754, 806, 760, 493, 403, 415, 394, 687, 700, 946, 670, 656,
  610, 738, 392, 760, 799, 887, 653, 978, 321, 576, 617, 626, 502, 894, 679, 243, 440, 680, 879,
  194, 572, 640, 724, 926, 56, 204, 700, 707, 151, 457, 449, 797, 195, 791, 558, 945, 679, 297,
  59, 87, 824, 713, 663, 412, 693, 342, 606, 134, 108, 571, 364, 631, 212, 174, 643, 304, 329,
  343, 97, 430, 751, 497, 314, 983, 374, 822, 928, 140, 206, 73, 263, 980, 736, 876, 478, 430,
  305, 170, 514, 364, 692, 829, 82, 855, 953, 676, 246, 369, 970, 294, 750, 807, 827, 150, 790,
  288, 923, 804, 378, 215, 828, 592, 281, 565, 555, 710, 82, 896, 831, 547, 261, 524, 462, 293,
  465, 502, 56, 661, 821, 976, 991, 658, 869, 905, 758, 745, 193, 768, 550, 608, 933, 378, 286,
  215, 979, 792, 961, 61, 688, 793, 644, 986, 403, 106, 366, 905, 644, 372, 567, 466, 434, 645,
  210, 389, 550, 919, 135, 780, 773, 635, 389, 707, 100, 626, 958, 165, 504, 920, 176, 193, 713,
  857, 265, 203, 50, 668, 108, 645, 990, 626, 197, 510, 357, 358, 850, 858, 364, 936, 638]

def perturbed (size : Nat) : (fuel start : Nat) → List Nat → List Nat
  | 0, _, _ => []
  | fuel + 1, start, [] => if size ≤ start then [] else perturbed size fuel start distances
  | fuel + 1, start, d :: rest =>
    if size < start + d - 1 then [] else (start + d - 2) :: perturbed size fuel (start + d) rest

def toFront {α : Type} (items : List α) (place : Nat) : List α :=
  match items[place]? with
  | some item => item :: items.eraseIdx place
  | none => items

/-- The bytes that occur in a block, from two levels of bits: which groups of sixteen occur, and
which bytes of each. -/
def alphabet : Step (List UInt8) := do
  let groups ← bits 16
  let places ← (List.range 16).mapM fun group => do
    if groups.testBit (15 - group) then
      let members ← bits 16
      return (List.range 16).filterMap fun i =>
        if members.testBit (15 - i) then some (UInt8.ofNat (16 * group + i)) else none
    else return []
  return places.flatten

/-- A number as so many ones with a zero behind them, which must be below a limit. -/
def unary (limit : Nat) : (fuel value : Nat) → Step Nat
  | 0, _ => throw .corrupt
  | fuel + 1, value => do
    if (← bits 1) = 0 then return value
    require (value + 1 < limit)
    unary limit fuel (value + 1)

def mostSelectors : Nat := 18002

/-- The numbers of the codes in the order of their use; those beyond `mostSelectors` are taken and
dropped. -/
def selectors (groups : Nat) : (count taken : Nat) → List Nat → Array Nat → Step (Array Nat)
  | 0, _, _, done => return done
  | count + 1, taken, recent, done => do
    let place ← unary groups groups 0
    if mostSelectors ≤ taken then selectors groups count taken recent done
    else
      let recent := toFront recent place
      selectors groups count (taken + 1) recent (done.push (recent.headD 0))

/-- A length that differs from the one before by steps of one; `fuel` is more than the number of
bits left. -/
def length : (fuel current : Nat) → Step Nat
  | 0, _ => throw .starved
  | fuel + 1, current => do
    require (1 ≤ current && current ≤ 20)
    if (← bits 1) = 0 then return current
    length fuel (if (← bits 1) = 0 then current + 1 else current - 1)

/-- The lengths of the words of a code for so many symbols. -/
def lengths (fuel : Nat) : (count current : Nat) → List Nat → Step (List Nat)
  | 0, _, done => return done.reverse
  | count + 1, current, done => do
    let current ← length fuel current
    lengths fuel count current (current :: done)

/-- The codes of a block, and the numbers of those that are used one after another. -/
structure Codes where
  codes : Array PrefixCode
  order : Array Nat

def groupSize : Nat := 50

/-- Takes the symbol of a block that has this number. A word of more than twenty bits is a fault. -/
def Codes.symbol (c : Codes) (number : Nat) : Step Nat := do
  match c.order[number / groupSize]?.bind fun i => c.codes[i]? with
  | none => throw .corrupt
  | some code =>
    match ← code.decode (bits 1) 20 with
    | some symbol => return symbol
    | none =>
      let _ ← bits 1
      throw .corrupt

/-- The sorted bytes of a block, `capacity` at most. The symbols zero and one are the digits of the
number of times that the byte in front is repeated: `run` is that number so far and `weight` the
value of the next digit. The symbol `last` ends the block. -/
def column (codes : Codes) (capacity last : Nat) :
    (fuel number : Nat) → (front : List UInt8) → (run weight : Nat) → Array UInt8 →
    Step (Array UInt8)
  | 0, _, _, _, _, _ => throw .starved
  | fuel + 1, number, front, run, weight, done => do
    let symbol ← codes.symbol number
    if symbol < 2 then
      require (weight < 2097152)
      column codes capacity last fuel (number + 1) front (run + (symbol + 1) * weight) (2 * weight)
        done
    else
      require (done.size + run ≤ capacity)
      let done := done ++ Array.replicate run (front.headD 0)
      if symbol = last then return done
      require (done.size < capacity)
      let front := toFront front (symbol - 1)
      column codes capacity last fuel (number + 1) front 0 1 (done.push (front.headD 0))

structure Block where
  checksum : Nat
  isPerturbed : Bool
  origin : Nat
  column : Array UInt8

def block (fuel capacity : Nat) : Step Block := do
  let checksum ← bits 32
  let isPerturbed := (← bits 1) = 1
  let origin ← bits 24
  require (origin ≤ 10 + capacity)
  let alphabet ← alphabet
  require (!alphabet.isEmpty)
  let groups ← bits 3
  require (2 ≤ groups && groups ≤ 6)
  let count ← bits 15
  require (1 ≤ count)
  let order ← selectors groups count 0 (List.range groups) #[]
  let codes ← (List.range groups).mapM fun _ => do
    return PrefixCode.ofLengths 20 (← lengths fuel (alphabet.length + 2) (← bits 5) [])
  let column ← column ⟨codes.toArray, order⟩ capacity (alphabet.length + 1) fuel 0 alphabet 0 1 #[]
  require (origin < column.size)
  return { checksum, isPerturbed, origin, column }

namespace Block

/-- The place behind each one: the bytes of the column in their sorted order, equal ones as they
stand. -/
def successors (b : Block) : Array Nat :=
  let counts := b.column.foldl (fun counts byte => counts.modify byte.toNat (· + 1))
    (Array.replicate 256 0)
  let (starts, _) := counts.foldl (fun (starts, sum) count => (starts.push sum, sum + count))
    ((#[] : Array Nat), 0)
  let (next, _, _) := b.column.foldl (fun (next, starts, i) byte =>
    let place := starts.getD byte.toNat 0
    (next.setIfInBounds place i, starts.setIfInBounds byte.toNat (place + 1), i + 1))
    (Array.replicate b.column.size 0, starts, 0)
  next

def walk (column : Array UInt8) (next : Array Nat) : (count place : Nat) → Array UInt8 → Array UInt8
  | 0, _, done => done
  | count + 1, place, done => walk column next count (next.getD place 0)
      (done.push (column.getD place 0))

/-- The bytes before they were sorted, and one more, with which they begin anew. -/
def unsorted (b : Block) : Array UInt8 :=
  let next := b.successors
  let bytes := walk b.column next (b.column.size + 1) (next.getD b.origin 0) #[]
  if b.isPerturbed then
    (perturbed bytes.size bytes.size 0 []).foldl (fun bytes i => bytes.modify i (· ^^^ 1)) bytes
  else bytes

/-- Restores runs from a place on: behind four equal bytes stands how often the byte is repeated
further. `size` is the number of bytes, of which one more is there; false if that one is needed. -/
def runsFrom (bytes : Array UInt8) (size : Nat) : (fuel place : Nat) → Array UInt8 →
    Array UInt8 × Bool
  | 0, _, done => (done, true)
  | fuel + 1, place, done =>
    if size ≤ place then (done, place = size)
    else
      let byte := bytes.getD place 0
      let same (i : Nat) : Bool := place + i < size && bytes.getD (place + i) 0 = byte
      let count := if !same 1 then 1 else if !same 2 then 2 else if !same 3 then 3 else 4
      if count < 4 then
        runsFrom bytes size fuel (place + count) (done ++ Array.replicate count byte)
      else
        runsFrom bytes size fuel (place + 5)
          (done ++ Array.replicate (4 + (bytes.getD (place + 4) 0).toNat) byte)

def text (b : Block) : Array UInt8 × Bool :=
  runsFrom b.unsorted b.column.size (b.column.size + 1) 0 #[]

end Block

/-- Output is put into portions of room, of which the next one is there only if input is left or the
portion before is not full. -/
def portions : List Nat := [32, 64, 256, 1024, 4096, 8192, 16384, 16384].map (· * 1024)

def room (used : Nat) : List Nat → Nat → Nat
  | [], sum => max used sum
  | portion :: rest, sum =>
    if used ≤ sum + portion then sum + portion else room used rest (sum + portion)

/-- Puts out the text of a block, of whose output `given` bytes were taken away before. If the input
is used up, output ends where the room does. -/
def put (b : Block) (given : Nat) : Step Unit := do
  let (text, isWhole) := b.text
  let s ← get
  let limit := given + room (s.output.size - given) portions 0
  set { s with output := s.output ++ text }
  if s.input.size ≤ (s.position + 7) / 8 && limit < s.output.size + text.size then
    modify fun s => { s with output := s.output.take limit }
    throw .starved
  require isWhole
  require ((checksum text).toNat = b.checksum)

/-- The blocks up to the end of the data, and the checksum of them all. -/
def blocks (capacity given : Nat) : (fuel : Nat) → UInt32 → Step Unit
  | 0, _ => throw .starved
  | fuel + 1, all => do
    if (← bits 8) = 0x17 then
      expect [0x72, 0x45, 0x38, 0x50, 0x90]
      require ((← bits 32) = all.toNat)
    else
      modify fun s => { s with position := s.position - 8 }
      expect [0x31, 0x41, 0x59, 0x26, 0x53, 0x59]
      let b ← block fuel capacity
      put b given
      blocks capacity given fuel (combine all (UInt32.ofNat b.checksum))

/-- The mark of the data and the greatest size of a block, and the blocks. -/
def stream (given : Nat) : Step Unit := do
  expect [0x42, 0x5A, 0x68]
  let level ← bits 8
  require (0x31 ≤ level && level ≤ 0x39)
  blocks (100000 * (level - 0x30)) given (8 * (← get).input.size + 1) 0

/-- What decompression gives: all output so far, and why it stopped, none at the end of the data. -/
structure Result where
  output : Array UInt8
  stop : Option Stop

/-- Decompresses input of which the first portions were decompressed before and gave so many
bytes. -/
def run (input : Array UInt8) (given : Nat) : Result :=
  let (end?, s) := (stream given).run.run ⟨input, 0, #[]⟩
  { output := s.output
    stop := match end? with
      | .ok () => none
      | .error stop => some stop }

end Launcher.Bzip2
