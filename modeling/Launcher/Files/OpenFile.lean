import Launcher.Files.SystemError

/-! Reading an open file through a window. The file can change while it is open, so what a read
gives depends on what the window took before; the window is refilled in blocks of a fixed size. -/
namespace Launcher

/-- Where reading stands: `next` is the place in the file behind the window, `window` what was
taken from before that place and is not yet read, `passed` how much of the window was read. -/
structure OpenFile where
  next : Nat
  window : Bytes
  passed : Nat
  deriving Repr

inductive SeekError
  | system (error : SystemError)
  | tooFar
  deriving DecidableEq, Repr

namespace OpenFile

/-- The size of a block, and so of a full window. -/
def blockSize : Nat := 4096

def lastPlace : Nat := 0xFFFFFFFF000

def start : OpenFile := ⟨0, [], 0⟩

def ahead (f : OpenFile) : Nat := f.window.length - f.passed

def place (f : OpenFile) : Nat := f.next - f.ahead

/-- Goes to a place. The window stays if the place is in it or at its end and it is not used up. -/
def seek (f : OpenFile) (place : Int) : Except SeekError OpenFile :=
  if 0x8000000000000000 ≤ place || place < -0x8000000000000000 then .error .tooFar
  else if 0 < f.ahead && decide ((f.next : Int) - f.window.length ≤ place) &&
      decide (place ≤ f.next) then
    .ok { f with passed := place.toNat - (f.next - f.window.length) }
  else if place < 0 || (lastPlace : Int) < place then .error (.system .invalidSeek)
  else .ok ⟨place.toNat, [], 0⟩

def seekEnd (content : Bytes) (offset : Int) : Except SeekError OpenFile :=
  let place := (content.length : Int) + offset
  if place < 0 then .error (.system .invalidSeek) else .ok ⟨place.toNat, [], 0⟩

/-- Reads up to a number of bytes: from the window, then whole blocks from the file, then from a
new window. -/
def read (f : OpenFile) (content : Bytes) (count : Nat) : Bytes × OpenFile :=
  let unread := f.window.drop f.passed
  if count ≤ unread.length then (unread.take count, { f with passed := f.passed + count })
  else
    let missing := count - unread.length
    let whole := missing / blockSize * blockSize
    let blocks := content.slice f.next whole
    let next := f.next + blocks.length
    if blocks.length < whole then (unread ++ blocks, ⟨next, [], 0⟩)
    else
      let left := missing - whole
      let window := if left = 0 then [] else content.slice next blockSize
      let last := window.take left
      (unread ++ blocks ++ last, ⟨next + window.length, window, last.length⟩)

def readRest (f : OpenFile) (content : Bytes) : Bytes × OpenFile :=
  let unread := f.window.drop f.passed
  let rest := content.drop f.next
  (unread ++ rest, ⟨f.next + rest.length, [], 0⟩)

end OpenFile
end Launcher
