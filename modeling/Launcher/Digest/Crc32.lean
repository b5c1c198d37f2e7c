import Launcher.Bytes

/-! The CRC-32 checksum of archives, absorbed byte by byte. -/
namespace Launcher.Crc32

def shift (register : UInt32) : UInt32 :=
  if register &&& 1 = 1 then (register >>> 1) ^^^ 0xEDB88320 else register >>> 1

def push (register : UInt32) (byte : UInt8) : UInt32 :=
  (List.range 8).foldl (fun r _ => shift r) (register ^^^ byte.toUInt32)

def update (checksum : UInt32) (bytes : Bytes) : UInt32 :=
  ~~~ (bytes.foldl push (~~~ checksum))

def checksum (bytes : Bytes) : UInt32 := update 0 bytes

end Launcher.Crc32
