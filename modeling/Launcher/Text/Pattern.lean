import Launcher.Text.CharSet

/-! Regular expressions as metadata uses them to tell system versions: literals, sets, anchors,
groups, alternatives and repetition. A match is searched anywhere in a text. -/
namespace Launcher

/-- How often a body is repeated rather: as often as it can be, as seldom, or as often as it can be
without coming back to it when what follows does not match. -/
inductive Repetition
  | greedy
  | reluctant
  | possessive
  deriving DecidableEq, Repr

inductive Pattern
  | empty
  | set (s : CharSet)
  | start
  /-- The end of the text, or the place before a line end there. -/
  | lineEnd
  | finish
  /-- A place between a word and something else, or any other place. An empty text has neither. -/
  | boundary (wanted : Bool)
  | concat (first second : Pattern)
  | either (first second : Pattern)
  | repeated (low : Nat) (high : Option Nat) (kind : Repetition) (body : Pattern)
  deriving DecidableEq, Repr

structure Expression where
  ignoreCase : Bool
  pattern : Pattern
  deriving DecidableEq, Repr

namespace Pattern

def isWordAt (text : List Char) (i : Nat) : Bool :=
  (text[i]?.map (CharClass.contains · .word)).getD false

/-- Whether a place is between a word and something else. -/
def isBoundary (text : List Char) (i : Nat) : Bool :=
  (if i = 0 then false else isWordAt text (i - 1)) != isWordAt text i

/-! A step gives the places that a body leads to from a place, the preferred one first. -/

def iterate (step : Nat → List Nat) : (count : Nat) → List Nat → List Nat
  | 0, places => places
  | count + 1, places => iterate step count (places.flatMap step).eraseDups

/-- The places after at most `count` steps from a place, each of which gets further, behind those
found before. A place is noted with the number of steps that it leaves. -/
def extend (step : Nat → List Nat) (isGreedy : Bool) :
    (count : Nat) → Nat → List (Nat × Nat) → List (Nat × Nat)
  | 0, i, found => if found.contains (i, 0) then found else found ++ [(i, 0)]
  | count + 1, i, found =>
    if found.contains (i, count + 1) then found
    else
      let further (found : List (Nat × Nat)) :=
        (step i).foldl
          (fun found j => if i < j then extend step isGreedy count j found else found) found
      if isGreedy then further found ++ [(i, count + 1)] else further (found ++ [(i, count + 1)])

def advance? (step : Nat → List Nat) : (count : Nat) → Nat → Option Nat
  | 0, i => some i
  | count + 1, i => (step i).head?.bind (advance? step count)

/-- The place after as many steps as there are, `count` at most, each to its preferred place, which
must be further. -/
def exhaust (step : Nat → List Nat) : (count : Nat) → Nat → Nat
  | 0, i => i
  | count + 1, i =>
    match step i with
    | j :: _ => if i < j then exhaust step count j else j
    | [] => i

/-- The places where a match from a place can end, the preferred one first. A repeated body need not
be tried more often than the text is long. -/
def ends (ignoreCase : Bool) (text : List Char) : Pattern → Nat → List Nat
  | .empty, i => [i]
  | .set s, i =>
    match text[i]? with
    | some c => if s.contains ignoreCase c then [i + 1] else []
    | none => []
  | .start, i => if i = 0 then [i] else []
  | .lineEnd, i =>
    if i = text.length || (i + 1 = text.length && text[i]? = some '\n') then [i] else []
  | .finish, i => if i = text.length then [i] else []
  | .boundary wanted, i => if !text.isEmpty && isBoundary text i = wanted then [i] else []
  | .concat a b, i => ((ends ignoreCase text a i).flatMap (ends ignoreCase text b)).eraseDups
  | .either a b, i => (ends ignoreCase text a i ++ ends ignoreCase text b i).eraseDups
  | .repeated low high kind body, i =>
    let step := ends ignoreCase text body
    let least := min low (text.length + 1)
    let extra := match high with
      | some high => min (high - low) (text.length + 1)
      | none => text.length + 1
    match kind with
    | .possessive => ((advance? step least i).map (exhaust step extra)).toList
    | kind =>
      (((iterate step least [i]).flatMap fun j =>
        (extend step (kind = .greedy) extra j []).map Prod.fst)).eraseDups

def search (e : Expression) (text : List Char) : Bool :=
  (List.range (text.length + 1)).any fun i => !(ends e.ignoreCase text e.pattern i).isEmpty

end Pattern
end Launcher
