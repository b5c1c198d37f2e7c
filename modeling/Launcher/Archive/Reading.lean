import Launcher.Archive.Bzip2
import Launcher.Archive.Member
import Launcher.Digest.Crc32
import Launcher.Files.Access

/-! Reading an archive: finding its directory, opening its members and taking their contents in
portions. The archive is read from the file tree as it stands, so a member that is written over the
archive changes what is read afterwards. -/
namespace Launcher.Archive

/-- An archive that is being read: where it is, how far reading has come, and the file tree. -/
structure Reading where
  location : Location
  file : OpenFile
  tree : FileTree

abbrev Reader (α : Type) := ExceptT ArchiveError (StateM Reading) α

def content : Reader Bytes := do
  let s ← get
  match s.tree.get? s.location with
  | some (.file bytes) => return bytes
  | _ => return []

def goTo (found : Except SeekError OpenFile) : Reader Unit := do
  match found with
  | .ok file => modify fun s => { s with file }
  | .error e => throw (.ofSeek e)

/-- Reads up to `count` bytes, or all that is left. -/
def take (count : Option Nat) : Reader Bytes := do
  let s ← get
  let bytes ← content
  let (bytes, file) := match count with
    | some count => s.file.read bytes count
    | none => s.file.readRest bytes
  set { s with file }
  return bytes

def takeAt (place : Int) (count : Nat) : Reader Bytes := do
  goTo ((← get).file.seek place)
  take (some count)

def formatFault {α : Type} (fault : FormatFault) : Reader α := throw fault.error

/-- The record at the end of an archive: the size and the offset of its directory, and the place
behind the directory. -/
structure EndRecord where
  directorySize : Nat
  directoryOffset : Nat
  directoryStop : Int

def EndRecord.ofBytes (place : Nat) (bytes : Bytes) : EndRecord :=
  ⟨bytes.field 12 4, bytes.field 16 4, place⟩

def endMark : Bytes := [0x50, 0x4B, 5, 6]
def wideLocatorMark : Bytes := [0x50, 0x4B, 6, 7]
def wideEndMark : Bytes := [0x50, 0x4B, 6, 6]

def lastPlace? (mark : Bytes) (bytes : Bytes) : Option Nat :=
  go bytes 0 none
where
  go : Bytes → Nat → Option Nat → Option Nat
    | [], _, found => found
    | b :: rest, place, found =>
      go rest (place + 1) (if mark.isPrefixOf (b :: rest) then some place else found)

/-- The record in its wide form, if there is one before the narrow record, which begins at an
offset from the end of the file. -/
def wideEndRecord (narrow : EndRecord) (offset : Int) : Reader EndRecord := do
  match OpenFile.seekEnd (← content) (offset - 20) with
  | .error _ => return narrow
  | .ok file =>
    modify fun s => { s with file }
    let locator ← take (some 20)
    if locator.length ≠ 20 || locator.take 4 ≠ wideLocatorMark then return narrow
    if locator.field 4 4 ≠ 0 || 1 < locator.field 16 4 then formatFault .severalDisks
    match OpenFile.seekEnd (← content) (offset - 76) with
    | .error _ => formatFault .notArchive
    | .ok file =>
      modify fun s => { s with file }
      let record ← take (some 56)
      if record.length ≠ 56 || record.take 4 ≠ wideEndMark then return narrow
      return ⟨record.field 40 8, record.field 48 8, narrow.directoryStop - 76⟩

/-- The record at the end of the archive, which a comment of less than 65536 bytes may follow. -/
def endRecord : Reader EndRecord := do
  let bytes ← content
  let size := bytes.length
  if size < 22 then formatFault .notArchive
  modify fun s => { s with file := ⟨size, [], 0⟩ }
  let last := bytes.drop (size - 22)
  if last.take 4 = endMark && last.drop 20 = [0, 0] then
    wideEndRecord (.ofBytes (size - 22) last) (-22)
  else
    let start := size - (65536 + 22)
    match lastPlace? endMark (bytes.drop start) with
    | none => formatFault .notArchive
    | some place =>
      let record := bytes.slice (start + place) 22
      if record.length ≠ 22 then formatFault .notArchive
      wideEndRecord (.ofBytes (start + place) record) ((start + place : Int) - size)

def members : Reader (List Member) := do
  let record ← endRecord
  let start := record.directoryStop - record.directorySize
  if start < 0 then formatFault .directoryOffset
  let directory ← takeAt start record.directorySize
  match membersOf (start - record.directoryOffset) directory with
  | .ok members => return withStops start members
  | .error e => throw e

structure Content where
  member : Member
  /-- The place of the next byte in the archive. -/
  place : Int
  compressedLeft : Nat
  left : Nat
  checksum : UInt32
  isFinished : Bool
  /-- The compressed bytes that were taken, the number of those that decompression has not come
  to, and the number of bytes it gave. -/
  compressed : Array UInt8
  unused : Nat
  given : Nat
  /-- What was read beyond the last portion. -/
  pending : Bytes

/-- Opens a member: its own header must agree with the directory. -/
def openMember (m : Member) : Reader Content := do
  let header ← takeAt m.headerOffset 30
  if header.length ≠ 30 then formatFault .headerCut
  if header.take 4 ≠ [0x50, 0x4B, 3, 4] then formatFault .headerMark
  let place := m.headerOffset + 30
  let name ← takeAt place (header.field 26 2)
  let place := place + name.length
  let mut place := place
  if header.field 28 2 ≠ 0 then
    place := place + (← takeAt place (header.field 28 2)).length
  if m.isPatched then throw (.failed (.unsupported .patched))
  if m.isStronglyEncrypted then throw (.failed (.unsupported .strongEncryption))
  match decodeName (header.field 6 2) name with
  | .error e => throw e
  | .ok text => if text ≠ m.fullName then formatFault (.nameDiffers m.fullName name)
  if m.stop < place + m.compressedSize then formatFault (.overlap m.fullName)
  if m.isEncrypted then throw (.failed (.encrypted m.description))
  if !([0, 8, 12, 14].contains m.method) then throw (.failed (.unsupported .compression))
  return { member := m, place, compressedLeft := m.compressedSize, left := m.size, checksum := 0
           isFinished := false, compressed := #[], unused := 0, given := 0, pending := [] }

namespace Content

/-- Takes about `wanted` bytes from the archive, at least 4096 if there are so many left. -/
def fetch (c : Content) (wanted : Nat) : Reader (Bytes × Content) := do
  if c.compressedLeft = 0 then return ([], c)
  let bytes ← takeAt c.place (min (max wanted 4096) c.compressedLeft)
  if bytes = [] then throw (.failed .cutShort)
  return (bytes, { c with place := c.place + bytes.length
                          compressedLeft := c.compressedLeft - bytes.length })

/-- Decompresses some more bytes, `wanted` or at least 4096. All that is left comes when the
compressed bytes are used up. -/
def inflate (c : Content) (wanted : Nat) : Reader (Bytes × Content) := do
  let (bytes, c) ← if c.unused < wanted then c.fetch (wanted - c.unused) else pure ([], c)
  let compressed := c.compressed ++ bytes.toArray
  let result := Inflate.run compressed (c.given + max wanted 4096)
  if let some (.corrupt fault) := result.stop then throw (.failed (.corrupt fault))
  let unused := if result.stop = some .full then compressed.size - result.consumed else 0
  let isFinished := result.stop.isNone || (c.compressedLeft = 0 && unused = 0)
  let output := if isFinished && result.stop.isSome
    then (Inflate.run compressed (max result.output.size (c.given + c.left))).output
    else result.output
  return ((output.toList.drop c.given),
    { c with compressed, unused, isFinished, given := output.size })

/-- Decompresses what comes of some more compressed bytes, all of it; a stop tells whether it is at
its end. -/
def unpack (c : Content) (wanted : Nat) : Reader (Bytes × Content) := do
  let (bytes, c) ← c.fetch wanted
  let compressed := c.compressed ++ bytes.toArray
  let (output, isFinished) ← if c.member.method = 12 then
      let result := Bzip2.run compressed c.given
      if result.stop = some .corrupt then throw (.failed .unsortable)
      pure (result.output, result.stop.isNone)
    else
      let result := Lzma.run compressed.toList
      if let some (.corrupt fault) := result.stop then throw (.crashed (.rangeCoder fault))
      pure (result.output, result.stop.isNone)
  return (output.toList.drop c.given,
    { c with compressed, isFinished := isFinished || c.compressedLeft = 0, given := output.size })

/-- Takes some bytes of the content. At the end the checksum must be right. -/
def more (c : Content) (wanted : Nat) : Reader (Bytes × Content) := do
  let (bytes, c) ← if c.member.method = 0 then do
      let (bytes, c) ← c.fetch wanted
      pure (bytes, { c with isFinished := c.compressedLeft = 0 })
    else if c.member.method = 8 then c.inflate wanted
    else c.unpack wanted
  let bytes := bytes.take c.left
  let left := c.left - bytes.length
  let checksum := Crc32.update c.checksum bytes
  let isFinished := c.isFinished || left = 0
  if isFinished && checksum.toNat ≠ c.member.checksum then
    formatFault (.checksum c.member.name)
  return (bytes, { c with left, checksum, isFinished })

/-- Takes bytes until a portion is there; every round leaves fewer to take. -/
def gather (portion : Nat) : (fuel : Nat) → Content → Reader Content
  | 0, c => return c
  | fuel + 1, c => do
    if c.isFinished || portion ≤ c.pending.length then return c
    let (bytes, c) ← c.more (portion - c.pending.length)
    gather portion fuel { c with pending := c.pending ++ bytes }

/-- The next bytes of the content, none at its end. -/
def next (c : Content) (portion : Nat) : Reader (Bytes × Content) := do
  let c ← gather portion (c.compressedLeft + c.left + 1) c
  return (c.pending.take portion, { c with pending := c.pending.drop portion })

end Content

def create (p : Path) : Reader Location := do
  let s ← get
  match s.tree.target p with
  | .error e => throw (.ofAccess e)
  | .ok location =>
    set { s with tree := s.tree.insert location (.file []) }
    return location

/-- Writes content to a location in portions; `written` is there already. -/
def copyContent (location : Location) : (fuel : Nat) → Content → (written : Bytes) → Reader Unit
  | 0, _, _ => pure ()
  | fuel + 1, c, written => do
    let (bytes, c) ← c.next 65536
    if bytes = [] then return
    let written := written ++ bytes
    modify fun s => { s with tree := s.tree.insert location (.file written) }
    copyContent location fuel c written

end Launcher.Archive
