import Launcher.Archive.Inflate
import Launcher.Archive.Lzma
import Launcher.Files.OpenFile
import Launcher.Text.Encoding
import Launcher.Text.Quoted

/-! What can be wrong with an archive, and the texts that say so. -/
namespace Launcher.Archive

/-- A number that the directory leaves to the extra field of a member. -/
inductive WideField
  | size
  | compressedSize
  | headerOffset
  deriving DecidableEq, Repr

def WideField.text : WideField → String
  | .size => "File size"
  | .compressedSize => "Compress size"
  | .headerOffset => "Header offset"

inductive FormatFault
  | notArchive
  | severalDisks
  | directoryOffset
  | directoryCut
  | directoryMark
  | extraField (id size : Nat)
  | wideFieldMissing (field : WideField)
  | headerCut
  | headerMark
  | nameDiffers (name : List Char) (header : Bytes)
  | overlap (name : List Char)
  | checksum (name : List Char)
  deriving DecidableEq, Repr

def fourDigits (n : Nat) : String :=
  let digits := Nat.toDigits 16 n
  String.ofList (List.replicate (4 - digits.length) '0' ++ digits)

def FormatFault.message : FormatFault → String
  | .notArchive => "File is not a zip file"
  | .severalDisks => "zipfiles that span multiple disks are not supported"
  | .directoryOffset => "Bad offset for central directory"
  | .directoryCut => "Truncated central directory"
  | .directoryMark => "Bad magic number for central directory"
  | .extraField id size => s!"Corrupt extra field {fourDigits id} (size={size})"
  | .wideFieldMissing field => s!"Corrupt zip64 extra field. {field.text} not found."
  | .headerCut => "Truncated file header"
  | .headerMark => "Bad magic number for file header"
  | .nameDiffers name header =>
    "File name in directory " ++ Text.quoted (String.ofList name) ++ " and header " ++
      Text.quotedBytes header ++ " differ."
  | .overlap name =>
    s!"Overlapped entries: {Text.quoted (String.ofList name)} (possible zip bomb)"
  | .checksum name => s!"Bad CRC-32 for file {Text.quoted (String.ofList name)}"

inductive Unsupported
  | version (tenths : Nat)
  | patched
  | strongEncryption
  | compression
  deriving DecidableEq, Repr

def Unsupported.message : Unsupported → String
  | .version tenths => s!"zip file version {tenths / 10}.{tenths % 10}"
  | .patched => "compressed patched data (flag bit 5)"
  | .strongEncryption => "strong encryption (flag bit 6)"
  | .compression => "That compression method is not supported"

/-- Why one archive could not be extracted, the others being none the worse for it. -/
inductive Failure
  | system (error : SystemError)
  | format (fault : FormatFault)
  | unsupported (feature : Unsupported)
  | encrypted (member : String)
  | cutShort
  | corrupt (fault : Inflate.Fault)
  | unsortable
  deriving DecidableEq, Repr

def Failure.message : Failure → String
  | .system error => error.message
  | .format fault => fault.message
  | .unsupported feature => feature.message
  | .encrypted member => s!"File {member} is encrypted, password required for extraction"
  | .cutShort => ""
  | .corrupt fault => "Error -3 while decompressing data: " ++ fault.text
  | .unsortable => "Invalid data stream"

/-- Why extraction was given up altogether. -/
inductive Crash
  | embeddedNul
  | undecodable (name : Bytes) (error : DecodingError)
  | tooFar
  | nameless
  | rangeCoder (fault : Lzma.Fault)
  deriving DecidableEq, Repr

inductive ArchiveError
  | failed (failure : Failure)
  | crashed (crash : Crash)
  deriving DecidableEq, Repr

def ArchiveError.ofAccess : AccessError → ArchiveError
  | .system error => .failed (.system error)
  | .embeddedNul => .crashed .embeddedNul

def ArchiveError.ofSeek : SeekError → ArchiveError
  | .system error => .failed (.system error)
  | .tooFar => .crashed .tooFar

def FormatFault.error (fault : FormatFault) : ArchiveError := .failed (.format fault)

end Launcher.Archive
