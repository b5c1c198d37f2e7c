import Launcher.Text.Alphanumeric
import Launcher.Text.Blank
import Launcher.Text.Capital

/-! Sets of characters as expressions name them. -/
namespace Launcher

inductive CharClass
  | digit
  | word
  | space
  deriving DecidableEq, Repr

def CharClass.contains (c : Char) : CharClass → Bool
  | .digit => (Text.digitValue? c).isSome
  | .word => Text.isAlphanumeric c || c = '_'
  | .space => Text.isBlank c

/-- A character by its code, characters by their codes from one to another, or those that are in a
class or are not. -/
inductive CharItem
  | single (code : Nat)
  | range (low high : Nat)
  | ofClass (c : CharClass) (isInside : Bool)
  deriving DecidableEq, Repr

/-- Characters that are in one of the items, or those that are in none. -/
structure CharSet where
  items : List CharItem
  isExcluded : Bool
  deriving DecidableEq, Repr

/-- Whether an item holds a character if case does not count: so it is if it holds the same letter
in another case. Beside other items, a letter beyond the basic plane is found by its lower-case form
alone. -/
def CharItem.containsFolded (isAlone : Bool) (c : Char) : CharItem → Bool
  | .single code =>
    if isAlone || code ≤ 0xFFFF then (Text.variants c).contains code
    else (Text.lowerChar c).map Char.toNat = [code]
  | .range low high => (Text.variants c).any fun code => low ≤ code && code ≤ high
  | .ofClass kind isInside => kind.contains c == isInside

def CharItem.contains (c : Char) : CharItem → Bool
  | .single code => c.toNat = code
  | .range low high => low ≤ c.toNat && c.toNat ≤ high
  | .ofClass kind isInside => kind.contains c == isInside

namespace CharSet

def single (code : Nat) : CharSet := ⟨[.single code], false⟩

def ofClass (c : CharClass) (isInside : Bool) : CharSet := ⟨[.ofClass c isInside], false⟩

def inLine : CharSet := ⟨[.single 0x0A], true⟩

def contains (ignoreCase : Bool) (c : Char) (s : CharSet) : Bool :=
  let found :=
    if ignoreCase then s.items.any (·.containsFolded (s.items.length = 1) c)
    else s.items.any (·.contains c)
  found != s.isExcluded

end CharSet
end Launcher
