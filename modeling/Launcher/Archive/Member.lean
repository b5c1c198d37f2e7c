import Launcher.Archive.CodePage
import Launcher.Archive.Fault

/-! The members that the directory of an archive lists. -/
namespace Launcher.Archive

structure Member where
  fullName : List Char
  flags : Nat
  method : Nat
  checksum : Nat
  compressedSize : Nat
  size : Nat
  attributes : Nat
  headerOffset : Int
  /-- Where the next member or the directory begins. -/
  stop : Int
  deriving Repr

namespace Member

/-- The name up to the first NUL. -/
def name (m : Member) : List Char := m.fullName.takeWhile (· ≠ '\x00')

def isDirectory (m : Member) : Bool := m.name.getLast? = some '/'

def baseName (m : Member) : List Char := (m.name.reverse.takeWhile (· ≠ '/')).reverse

def isEncrypted (m : Member) : Bool := m.flags.testBit 0
def isPatched (m : Member) : Bool := m.flags.testBit 5
def isStronglyEncrypted (m : Member) : Bool := m.flags.testBit 6

def methodName (method : Nat) : String :=
  match [(1, "shrink"), (2, "reduce"), (3, "reduce"), (4, "reduce"), (5, "reduce"), (6, "implode"),
      (7, "tokenize"), (8, "deflate"), (9, "deflate64"), (10, "implode"), (12, "bzip2"),
      (14, "lzma"), (18, "terse"), (19, "lz77"), (97, "wavpack"), (98, "ppmd")].lookup method with
  | some name => name
  | none => toString method

def kindLetter (mode : Nat) : Char :=
  ([(8, '-'), (4, 'd'), (10, 'l'), (6, 'b'), (2, 'c'), (1, 'p'), (12, 's')].lookup
    (mode / 4096 % 16)).getD '?'

/-- The three letters of a group of permissions; `special` is the letter for a set bit that is
not a permission. -/
def permissionLetters (bits : Nat) (isSpecial : Bool) (special : Char) : List Char :=
  [if bits.testBit 2 then 'r' else '-', if bits.testBit 1 then 'w' else '-',
    match isSpecial, bits.testBit 0 with
    | true, true => special
    | true, false => special.toUpper
    | false, true => 'x'
    | false, false => '-']

def modeText (mode : Nat) : String :=
  String.ofList (kindLetter mode ::
    (permissionLetters (mode / 64) (mode.testBit 11) 's' ++
      permissionLetters (mode / 8) (mode.testBit 10) 's' ++
      permissionLetters mode (mode.testBit 9) 't'))

def description (m : Member) : String :=
  let high := m.attributes / 65536
  let low := m.attributes % 65536
  String.join ["<ZipInfo filename=", Text.quoted (String.ofList m.name),
    if m.method = 0 then "" else " compress_type=" ++ methodName m.method,
    if high = 0 then "" else " filemode=" ++ Text.quoted (modeText high),
    if low = 0 then "" else " external_attr=0x" ++ String.ofList (Nat.toDigits 16 low),
    s!" file_size={m.size}",
    if m.method = 0 && m.size = m.compressedSize then "" else s!" compress_size={m.compressedSize}",
    ">"]

end Member

/-- The characters of a name in an archive; a flag tells that it is in UTF-8. -/
def decodeName (flags : Nat) (bytes : Bytes) : Except ArchiveError (List Char) :=
  if flags.testBit 11 then
    (Encoding.utf8.decode false 0 bytes).mapError fun e => .crashed (.undecodable bytes e)
  else .ok (CodePage.decode bytes)

/-- Takes a number of eight bytes from the front of an extra field if a member needs it. -/
def takeWide (isNeeded : Bool) (field : WideField) (value : Nat) (data : Bytes) :
    Except ArchiveError (Nat × Bytes) :=
  if !isNeeded then .ok (value, data)
  else if data.length < 8 then .error (FormatFault.wideFieldMissing field).error
  else .ok (data.field 0 8, data.drop 8)

/-- The numbers of a member for which the directory may have no room. -/
structure WideNumbers where
  size : Nat
  compressedSize : Nat
  headerOffset : Nat

/-- Reads the numbers that the extra fields of a member hold instead of the directory. -/
def WideNumbers.ofExtra (numbers : WideNumbers) (extra : Bytes) :
    Except ArchiveError WideNumbers :=
  if extra.length < 4 then .ok numbers
  else
    let id := extra.field 0 2
    let length := extra.field 2 2
    if extra.length < length + 4 then .error (FormatFault.extraField id length).error
    else do
      let mut numbers := numbers
      if id = 1 then
        let data := extra.slice 4 length
        let (size, data) ← takeWide (numbers.size = 0xFFFFFFFFFFFFFFFF || numbers.size = 0xFFFFFFFF)
          .size numbers.size data
        let (compressedSize, data) ← takeWide (numbers.compressedSize = 0xFFFFFFFF)
          .compressedSize numbers.compressedSize data
        let (headerOffset, _) ← takeWide (numbers.headerOffset = 0xFFFFFFFF)
          .headerOffset numbers.headerOffset data
        numbers := ⟨size, compressedSize, headerOffset⟩
      numbers.ofExtra (extra.drop (length + 4))
termination_by extra.length
decreasing_by simp only [List.length_drop]; omega

/-- The members in the bytes of a directory, in order; `shift` is how far the archive stands from
the beginning of its file. -/
def membersOf (shift : Int) (directory : Bytes) : Except ArchiveError (List Member) :=
  if directory = [] then .ok []
  else if h : directory.length < 46 then .error FormatFault.directoryCut.error
  else if directory.take 4 ≠ [0x50, 0x4B, 1, 2] then .error FormatFault.directoryMark.error
  else do
    let nameLength := directory.field 28 2
    let extraLength := directory.field 30 2
    let commentLength := directory.field 32 2
    let flags := directory.field 8 2
    let name ← decodeName flags (directory.slice 46 nameLength)
    let version := directory.field 6 1
    if 63 < version then throw (.failed (.unsupported (.version version)))
    let numbers ← WideNumbers.ofExtra
      ⟨directory.field 24 4, directory.field 20 4, directory.field 42 4⟩
      (directory.slice (46 + nameLength) extraLength)
    let rest ← membersOf shift
      (directory.drop (46 + nameLength + extraLength + commentLength))
    return { fullName := name, flags, method := directory.field 10 2
             checksum := directory.field 16 4, compressedSize := numbers.compressedSize
             size := numbers.size, attributes := directory.field 38 4
             headerOffset := numbers.headerOffset + shift, stop := 0 } :: rest
termination_by directory.length
decreasing_by simp only [List.length_drop]; omega

/-- Tells each member where the next one begins: from the last header to the first, each ends
where the one behind it starts, and the last one at the directory. -/
def withStops (directoryStart : Int) (members : List Member) : List Member :=
  let placed := members.zipIdx.mergeSort fun a b => decide (b.1.headerOffset ≤ a.1.headerOffset)
  let stops := placed.zip (directoryStart :: placed.map (·.1.headerOffset))
  members.zipIdx.map fun (m, i) =>
    match stops.find? (·.1.2 == i) with
    | some (_, stop) => { m with stop }
    | none => m

end Launcher.Archive
