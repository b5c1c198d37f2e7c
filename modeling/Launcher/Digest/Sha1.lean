import Launcher.InputStream

/-! The SHA-1 digest, taken byte by byte: a state absorbs one byte at a time, so a digest does not
depend on how its input was cut. A stream is absorbed read by read, and a file is read as a stream. -/
namespace Launcher

/-- Five words of chaining value, the bytes of the block begun, latest first, and the number of
bytes absorbed so far. -/
structure Sha1 where
  a : UInt32
  b : UInt32
  c : UInt32
  d : UInt32
  e : UInt32
  pending : List UInt8
  count : Nat
  deriving DecidableEq, Repr

namespace Sha1

def initial : Sha1 := ⟨0x67452301, 0xEFCDAB89, 0x98BADCFE, 0x10325476, 0xC3D2E1F0, [], 0⟩

def rotate (x : UInt32) (n : UInt32) : UInt32 := (x <<< n) ||| (x >>> (32 - n))

def words : List UInt8 → List UInt32
  | a :: b :: c :: d :: rest =>
    (a.toUInt32 <<< 24 ||| b.toUInt32 <<< 16 ||| c.toUInt32 <<< 8 ||| d.toUInt32) :: words rest
  | _ => []

def schedule (block : List UInt8) : Array UInt32 :=
  (List.range 64).foldl (fun w i =>
    w.push (rotate (w.getD (i + 13) 0 ^^^ w.getD (i + 8) 0 ^^^ w.getD (i + 2) 0 ^^^ w.getD i 0) 1))
    (words block).toArray

def roundTerm (i : Nat) (b c d : UInt32) : UInt32 :=
  if i < 20 then ((b &&& c) ||| (~~~b &&& d)) + 0x5A827999
  else if i < 40 then (b ^^^ c ^^^ d) + 0x6ED9EBA1
  else if i < 60 then ((b &&& c) ||| (b &&& d) ||| (c &&& d)) + 0x8F1BBCDC
  else (b ^^^ c ^^^ d) + 0xCA62C1D6

def compress (s : Sha1) (block : List UInt8) : Sha1 :=
  let w := schedule block
  let (a, b, c, d, e) := (List.range 80).foldl (fun (a, b, c, d, e) i =>
    (rotate a 5 + roundTerm i b c d + e + w.getD i 0, a, rotate b 30, c, d))
    (s.a, s.b, s.c, s.d, s.e)
  { s with a := s.a + a, b := s.b + b, c := s.c + c, d := s.d + d, e := s.e + e, pending := [] }

def push (s : Sha1) (byte : UInt8) : Sha1 :=
  let s' := { s with pending := byte :: s.pending, count := s.count + 1 }
  if s'.count % 64 = 0 then s'.compress s'.pending.reverse else s'

def update (s : Sha1) (bytes : Bytes) : Sha1 := bytes.foldl push s

def bigEndian (n size : Nat) : Bytes :=
  (List.range size).reverse.map fun i => UInt8.ofNat (n / Nat.pow 256 i % 256)

/-- The padding: a one bit, zeros up to eight bytes before a block's end, the length in bits. -/
def padding (count : Nat) : Bytes :=
  0x80 :: (List.replicate ((119 - count % 64) % 64) 0 ++ bigEndian (8 * count) 8)

def finish (s : Sha1) : Bytes :=
  let s := s.update (padding s.count)
  [s.a, s.b, s.c, s.d, s.e].flatMap fun w => bigEndian w.toNat 4

/-- The digest as forty lower-case hexadecimal digits. -/
def hexDigest (s : Sha1) : String := Bytes.hex s.finish

theorem update_append (s : Sha1) (x y : Bytes) : s.update (x ++ y) = (s.update x).update y := by
  simp [update]

end Sha1

def sha1Hex (bytes : Bytes) : String := (Sha1.initial.update bytes).hexDigest

/-- The digest of a stream that is read through a buffer of some length. -/
def InputStream.sha1Hex (s : InputStream) (bufferLength : Nat) : String :=
  (s.fold Sha1.update .initial (.ofCapacity bufferLength)).hexDigest

/-- The length of the buffer, if none is asked for. -/
def InputStream.bufferLength : Nat := 8192

/-- The digest of the content of a file, which is read as a stream. -/
def fileSha1Hex (content : Bytes) : String :=
  (InputStream.ofBytes content).sha1Hex InputStream.bufferLength

/-- A buffer with some room leads to the digest of the content at once. -/
theorem InputStream.sha1Hex_eq (s : InputStream) {bufferLength : Nat} (room : 0 < bufferLength) :
    s.sha1Hex bufferLength = Launcher.sha1Hex s.content := by
  rw [sha1Hex, fold_eq (fun _ => rfl) (fun s x y => (s.update_append x y).symm) room]
  rfl

theorem fileSha1Hex_eq (content : Bytes) : fileSha1Hex content = sha1Hex content := by
  rw [fileSha1Hex, InputStream.sha1Hex_eq _ (by decide), InputStream.content_ofBytes]

end Launcher
