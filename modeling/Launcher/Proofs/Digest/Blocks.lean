import Launcher.Digest.Sha1
import Mathlib.Data.List.Induction

/-! The digest of a message that is there as a whole: it is padded to whole blocks, and the blocks
are compressed one after the other. Taking in the message byte by byte leads to the same digest: at
any time the whole blocks of what came so far are compressed, and the rest of it waits. -/
namespace Launcher.Sha1

/-- The whole blocks of a message, without a rest that fills none. -/
def blocks (message : Bytes) : List Bytes :=
  (List.range (message.length / 64)).map fun i => message.slice (64 * i) 64

/-- What is behind the whole blocks of a message. -/
def remainder (message : Bytes) : Bytes := message.drop (64 * (message.length / 64))

def padded (message : Bytes) : Bytes := message ++ padding message.length

/-- The chaining value of a message. -/
def chain (message : Bytes) : Sha1 := (blocks message).foldl compress initial

/-- The bytes of a chaining value. -/
def result (s : Sha1) : Bytes := [s.a, s.b, s.c, s.d, s.e].flatMap fun w => bigEndian w.toNat 4

/-- The digest of a message as a whole. -/
def ofMessage (message : Bytes) : String := Bytes.hex (chain (padded message)).result

/-- The state that has taken in a message. -/
def absorbed (message : Bytes) : Sha1 :=
  { chain message with pending := (remainder message).reverse, count := message.length }

section Blocks
variable {message : Bytes}

theorem slice_append {offset size : Nat} (inside : offset + size ≤ message.length)
    (more : Bytes) : Bytes.slice (message ++ more) offset size = message.slice offset size := by
  unfold Bytes.slice
  rw [List.drop_append_of_le_length (by omega), List.take_append_of_le_length]
  rw [List.length_drop]
  omega

/-- What is put behind a message changes none of its blocks. -/
theorem blocks_of_append (more : Bytes) :
    (List.range (message.length / 64)).map (fun i => Bytes.slice (message ++ more) (64 * i) 64) =
      blocks message := by
  refine List.map_congr_left fun i member => slice_append ?_ more
  have := List.mem_range.mp member
  omega

/-- A byte that does not fill a block is left behind the blocks. -/
theorem blocks_concat_of_partial (byte : UInt8)
    (unfilled : (message.length + 1) % 64 ≠ 0) :
    blocks (message ++ [byte]) = blocks message ∧
      remainder (message ++ [byte]) = remainder message ++ [byte] := by
  have same : (message ++ [byte]).length / 64 = message.length / 64 := by
    rw [List.length_append, List.length_singleton]
    omega
  constructor
  · rw [blocks, same, blocks_of_append]
  · rw [remainder, same, List.drop_append_of_le_length (by omega), remainder]

/-- A byte that fills a block adds it to the blocks, and nothing is left behind them. -/
theorem blocks_concat_of_full (byte : UInt8) (filled : (message.length + 1) % 64 = 0) :
    blocks (message ++ [byte]) = blocks message ++ [remainder message ++ [byte]] ∧
      remainder (message ++ [byte]) = [] := by
  have length : (message ++ [byte]).length = message.length + 1 := by simp
  have one : (message ++ [byte]).length / 64 = message.length / 64 + 1 := by omega
  have last : Bytes.slice (message ++ [byte]) (64 * (message.length / 64)) 64 =
      remainder message ++ [byte] := by
    rw [Bytes.slice, List.drop_append_of_le_length (by omega)]
    refine List.take_of_length_le ?_
    rw [List.length_append, List.length_drop, List.length_singleton]
    omega
  constructor
  · rw [blocks, one, List.range_succ, List.map_append, blocks_of_append, List.map_singleton, last]
  · rw [remainder, one]
    exact List.drop_of_length_le (by omega)

/-- The blocks of a message and what is behind them are the message. -/
theorem flatten_blocks (message : Bytes) :
    (blocks message).flatten ++ remainder message = message := by
  induction message using List.reverseRecOn with
  | nil => rfl
  | append_singleton message byte ih =>
    by_cases filled : (message.length + 1) % 64 = 0
    · obtain ⟨more, none⟩ := blocks_concat_of_full byte filled
      rw [more, none, List.flatten_append, List.flatten_singleton, List.append_nil,
        ← List.append_assoc, ih]
    · obtain ⟨same, more⟩ := blocks_concat_of_partial byte filled
      rw [same, more, ← List.append_assoc, ih]

/-- A padded message has whole blocks only, and no more of them than are needed. -/
theorem length_padded (message : Bytes) : (padded message).length % 64 = 0 ∧
    (padded message).length < message.length + 9 + 64 := by
  simp only [padded, padding, bigEndian, List.length_append, List.length_cons,
    List.length_replicate, List.length_map, List.length_reverse, List.length_range]
  omega

/-- Nothing of a padded message is left out of its blocks. -/
theorem flatten_blocks_padded (message : Bytes) :
    (blocks (padded message)).flatten = padded message := by
  have none : remainder (padded message) = [] := by
    have := (length_padded message).1
    exact List.drop_of_length_le (by omega)
  have whole := flatten_blocks (padded message)
  rwa [none, List.append_nil] at whole

end Blocks

section Absorbing

/-- Taking in one more byte is having taken in the longer message. -/
theorem push_absorbed (message : Bytes) (byte : UInt8) :
    (absorbed message).push byte = absorbed (message ++ [byte]) := by
  have count : (message ++ [byte]).length = message.length + 1 := by simp
  by_cases filled : (message.length + 1) % 64 = 0
  · obtain ⟨more, none⟩ := blocks_concat_of_full byte filled
    have pushed : (absorbed message).push byte =
        { (chain message).compress (remainder message ++ [byte]) with
          pending := [], count := message.length + 1 } := by
      simp [push, absorbed, filled, compress]
    have chained : chain (message ++ [byte]) =
        (chain message).compress (remainder message ++ [byte]) := by
      rw [chain, more, List.foldl_append, List.foldl_cons, List.foldl_nil, chain]
    rw [pushed, absorbed, chained, none, count]
    rfl
  · obtain ⟨same, more⟩ := blocks_concat_of_partial byte filled
    have pushed : (absorbed message).push byte =
        { chain message with
          pending := byte :: (remainder message).reverse, count := message.length + 1 } := by
      simp [push, absorbed, filled]
    have unchained : chain (message ++ [byte]) = chain message := by rw [chain, same, chain]
    rw [pushed, absorbed, unchained, more, List.reverse_append, count]
    rfl

/-- Taking in a message, byte by byte from the beginning, compresses its whole blocks. -/
theorem update_initial (message : Bytes) : initial.update message = absorbed message := by
  induction message using List.reverseRecOn with
  | nil => rfl
  | append_singleton message byte ih =>
    rw [update_append, ih]
    exact push_absorbed message byte

/-- The digest that takes in a message byte by byte is that of the message as a whole. -/
theorem sha1Hex_eq_ofMessage (message : Bytes) : sha1Hex message = ofMessage message := by
  have count : (initial.update message).count = message.length := by
    rw [update_initial]
    rfl
  rw [sha1Hex, hexDigest, finish, count, ← update_append, ofMessage, padded, update_initial]
  rfl

end Absorbing

end Launcher.Sha1
