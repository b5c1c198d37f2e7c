/-! Byte strings: the UTF-8 form of a text, hexadecimal text and little-endian fields. -/
namespace Launcher

abbrev Bytes := List UInt8

namespace Bytes

def ofText (text : String) : Bytes := text.toList.flatMap String.utf8EncodeChar

def hexDigit (n : Nat) : Char :=
  if n < 10 then Char.ofNat (48 + n) else Char.ofNat (87 + n)

def hexByte (b : UInt8) : List Char := [hexDigit (b.toNat / 16), hexDigit (b.toNat % 16)]

def hex (bytes : Bytes) : String := String.ofList (bytes.flatMap hexByte)

def littleEndian : Bytes → Nat
  | [] => 0
  | b :: rest => b.toNat + 256 * littleEndian rest

/-- The `size` bytes from `offset` on, fewer at the end. -/
def slice (bytes : Bytes) (offset size : Nat) : Bytes := (bytes.drop offset).take size

/-- The little-endian number in the `size` bytes from `offset` on. -/
def field (bytes : Bytes) (offset size : Nat) : Nat := littleEndian (bytes.slice offset size)

theorem hex_append (a b : Bytes) : hex (a ++ b) = hex a ++ hex b := by
  simp [hex, String.ofList_append]

theorem ofText_append (a b : String) : ofText (a ++ b) = ofText a ++ ofText b := by
  simp [ofText]

end Bytes
end Launcher
