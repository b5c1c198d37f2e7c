/-! Prefix codes that are given by the lengths of their words alone. The words of one length are
consecutive numbers in the order of their symbols, and longer words begin behind shorter ones. -/
namespace Launcher

/-- How many words each length has, the greatest length, and the symbols in the order of their
words. -/
structure PrefixCode where
  counts : Array Nat
  longest : Nat
  symbols : Array Nat

namespace PrefixCode

/-- The code whose symbols have these lengths, zero for a symbol without a word. No length is
greater than `limit`. -/
def ofLengths (limit : Nat) (lengths : List Nat) : PrefixCode where
  counts := ((List.range (limit + 1)).map fun n => if n = 0 then 0 else lengths.count n).toArray
  longest := lengths.foldl max 0
  symbols := ((List.range limit).flatMap fun n =>
    (lengths.zipIdx.filter fun (length, _) => length = n + 1).map (·.2)).toArray

/-- Takes one symbol bit by bit, none if the bits are no word. `code` is what was taken of the word
so far, `first` the first word of that length and `index` the place of its symbol; `fuel` counts
the lengths left to try. -/
@[specialize]
def decodeFrom {m : Type → Type} [Monad m] (bit : m Nat) (c : PrefixCode) :
    (fuel length code first index : Nat) → m (Option Nat)
  | 0, _, _, _, _ => pure none
  | fuel + 1, length, code, first, index => do
    let code := code + (← bit)
    let count := c.counts.getD length 0
    if code < first + count then pure c.symbols[index + (code - first)]?
    else decodeFrom bit c fuel (length + 1) (2 * code) (2 * (first + count)) (index + count)

/-- Takes one symbol, whose word has `longest` bits at most. -/
@[specialize]
def decode {m : Type → Type} [Monad m] (bit : m Nat) (c : PrefixCode) (longest : Nat) :
    m (Option Nat) :=
  c.decodeFrom bit longest 1 0 0 0

end PrefixCode
end Launcher
