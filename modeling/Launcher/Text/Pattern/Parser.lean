import Launcher.Number.Digits
import Launcher.Text.Pattern

/-! Reading expressions. What is read first decides which of several faults is told. -/
namespace Launcher

inductive PatternFault
  | malformed
  /-- A body is to be repeated too often. -/
  | countTooLarge
  /-- The number of repetitions has too many digits. -/
  | countTooLong (digits : Nat)
  deriving DecidableEq, Repr

def PatternFault.message : PatternFault → String
  | .malformed => ""
  | .countTooLarge => "the repetition number is too large"
  | .countTooLong digits => Number.tooManyDigits digits

namespace Pattern

open Number (digitsValue hexValue? isDigit)

def refuse {α : Type} : Except PatternFault α := .error .malformed

def isOctal (c : Char) : Bool := '0' ≤ c && c ≤ '7'

def octalValue (digits : List Char) : Nat := digits.foldl (fun n c => 8 * n + (c.toNat - 48)) 0

def hexCode (count : Nat) (text : List Char) : Except PatternFault (Nat × List Char) :=
  let values := (text.take count).filterMap hexValue?
  if values.length = count then .ok (values.foldl (fun n d => 16 * n + d) 0, text.drop count)
  else refuse

def classEscape? : Char → Option CharItem
  | 'd' => some (.ofClass .digit true)
  | 'D' => some (.ofClass .digit false)
  | 'w' => some (.ofClass .word true)
  | 'W' => some (.ofClass .word false)
  | 's' => some (.ofClass .space true)
  | 'S' => some (.ofClass .space false)
  | _ => none

/-- The code of the character that is meant by a character behind a backslash and what follows; an
unknown letter is a fault. -/
def charEscape (c : Char) (rest : List Char) : Except PatternFault (Nat × List Char) :=
  match c with
  | 'n' => .ok (0x0A, rest)
  | 't' => .ok (0x09, rest)
  | 'r' => .ok (0x0D, rest)
  | 'f' => .ok (0x0C, rest)
  | 'v' => .ok (0x0B, rest)
  | 'a' => .ok (0x07, rest)
  | 'x' => hexCode 2 rest
  | 'u' => hexCode 4 rest
  | 'U' => do
    let (code, rest) ← hexCode 8 rest
    if code ≤ 0x10FFFF then return (code, rest) else refuse
  | c => if c.isAlphanum then refuse else .ok (c.toNat, rest)

def octalCode (digits rest : List Char) : Except PatternFault (Nat × List Char) :=
  if octalValue digits ≤ 0xFF then .ok (octalValue digits, rest) else refuse

/-- An escape in a set: a class, or a character by its code. -/
def setEscape (c : Char) (rest : List Char) : Except PatternFault (CharItem × List Char) :=
  match classEscape? c with
  | some item => .ok (item, rest)
  | none => do
    let (code, rest) ←
      if c = 'b' then pure (0x08, rest)
      else if isOctal c then
        let more := (rest.take 2).takeWhile isOctal
        octalCode (c :: more) (rest.drop more.length)
      else charEscape c rest
    return (.single code, rest)

def literalEscape (c : Char) (rest : List Char) : Except PatternFault (Nat × List Char) :=
  if c = '0' then
    let more := (rest.take 2).takeWhile isOctal
    .ok (octalValue more, rest.drop more.length)
  else if isDigit c then
    if isOctal c && (rest.take 2).length = 2 && (rest.take 2).all isOctal then
      octalCode (c :: rest.take 2) (rest.drop 2)
    else refuse
  else charEscape c rest

def setItem : List Char → Except PatternFault (CharItem × List Char)
  | [] => refuse
  | ['\\'] => refuse
  | '\\' :: c :: rest => setEscape c rest
  | c :: rest => .ok (.single c.toNat, rest)

/-- The members of a set up to its closing bracket, which is a member if it comes first. A minus
between two characters makes a range, and in front of the closing bracket it is a member. -/
def setItems : (fuel : Nat) → List CharItem → List Char →
    Except PatternFault (List CharItem × List Char)
  | 0, _, _ => refuse
  | fuel + 1, done, text =>
    match text, done with
    | ']' :: rest, _ :: _ => .ok (done, rest)
    | text, done => do
      let (item, rest) ← setItem text
      match rest with
      | '-' :: ']' :: rest => return (done ++ [item, .single 0x2D], rest)
      | '-' :: rest =>
        let (last, rest) ← setItem rest
        match item, last with
        | .single low, .single high =>
          if high < low then refuse else setItems fuel (done ++ [.range low high]) rest
        | _, _ => refuse
      | rest => setItems fuel (done ++ [item]) rest

def bracket (text : List Char) : Except PatternFault (Pattern × List Char) := do
  let (isExcluded, text) := match text with
    | '^' :: rest => (true, rest)
    | text => (false, text)
  let (items, rest) ← setItems (text.length + 1) [] text
  return (.set ⟨items.eraseDups, isExcluded⟩, rest)

def countLimit : Nat := 4294967295

def count (digits : List Char) : Except PatternFault Nat :=
  if Number.maxDigits < digits.length then .error (.countTooLong digits.length)
  else if countLimit ≤ digitsValue digits then .error .countTooLarge
  else .ok (digitsValue digits)

/-- The digits of the bounds behind a brace, if what follows the brace is such. Nothing is bounds
only with a comma. -/
def bounds? (text : List Char) : Option (List Char × List Char × List Char) :=
  let (low, rest) := text.span isDigit
  match rest with
  | '\x7d' :: rest => if low.isEmpty then none else some (low, low, rest)
  | ',' :: rest =>
    let (high, rest) := rest.span isDigit
    match rest with
    | '\x7d' :: rest => some (low, high, rest)
    | _ => none
  | _ => none

/-- The bounds that digits stand for. A backslash that ends the text behind them is noticed first.
-/
def boundsOf (low high rest : List Char) : Except PatternFault (Nat × Option Nat) := do
  if rest = ['\\'] then refuse
  let least ← if low.isEmpty then pure 0 else count low
  let most ← if high.isEmpty then pure none else (count high).map some
  if (most.map fun most => decide (most < least)).getD false then refuse
  return (least, most)

def quantifier? (text : List Char) :
    Except PatternFault (Option ((Nat × Option Nat) × List Char)) :=
  match text with
  | '*' :: rest => .ok (some ((0, none), rest))
  | '+' :: rest => .ok (some ((1, none), rest))
  | '?' :: rest => .ok (some ((0, some 1), rest))
  | '\x7b' :: rest =>
    match bounds? rest with
    | some (low, high, rest) => (boundsOf low high rest).map fun bounds => some (bounds, rest)
    | none => .ok none
  | _ => .ok none

def repetition : List Char → Repetition × List Char
  | '?' :: rest => (.reluctant, rest)
  | '+' :: rest => (.possessive, rest)
  | rest => (.greedy, rest)

/-- An item under the quantifier that follows it, if there is one. A second quantifier is a fault.
-/
def quantified (item : Pattern) (isRepeatable : Bool) (text : List Char) :
    Except PatternFault (Pattern × List Char) := do
  match ← quantifier? text with
  | none => return (item, text)
  | some ((low, high), rest) =>
    if !isRepeatable then refuse
    let (kind, rest) := repetition rest
    match ← quantifier? rest with
    | some _ => refuse
    | none => return (.repeated low high kind item, rest)

def ofItems (items : List Pattern) : Pattern := items.foldr .concat .empty

/-- How many items a branch has in front that the other ones have as well. -/
def countShared : List Pattern → (others : List (List Pattern)) → Nat
  | [], _ => 0
  | item :: rest, others =>
    if others.all (·.head? = some item) then countShared rest (others.map (·.drop 1)) + 1 else 0

def members? : List Pattern → Option (List CharItem)
  | [.set ⟨items, false⟩] => some items
  | _ => none

/-- What branches have in common, and then one of them, which is a single set if all are sets. -/
def ofBranches : List (List Pattern) → Pattern
  | [] => .empty
  | [items] => ofItems items
  | first :: others =>
    let shared := countShared first others
    let branches := (first :: others).map (·.drop shared)
    let choice := match branches.mapM members? with
      | some members => .set ⟨members.flatten.eraseDups, false⟩
      | none => (branches.dropLast.map ofItems).foldr .either (ofItems (branches.getLastD []))
    .concat (ofItems (first.take shared)) choice

mutual

def alternatives : (fuel : Nat) → List Char →
    Except PatternFault (List (List Pattern) × List Char)
  | 0, _ => refuse
  | fuel + 1, text => do
    let (first, rest) ← sequence fuel text
    match rest with
    | '|' :: rest =>
      let (others, rest) ← alternatives fuel rest
      return (first :: others, rest)
    | _ => return ([first], rest)

def sequence : (fuel : Nat) → List Char → Except PatternFault (List Pattern × List Char)
  | 0, _ => refuse
  | fuel + 1, text =>
    match text with
    | [] => .ok ([], [])
    | '|' :: _ => .ok ([], text)
    | ')' :: _ => .ok ([], text)
    | _ => do
      let (item, isRepeatable, rest) ← item fuel text
      let (item, rest) ← quantified item isRepeatable rest
      let (more, rest) ← sequence fuel rest
      return (item :: more, rest)

/-- One item, whether it can be repeated, and the text after it. A quantifier is none. -/
def item : (fuel : Nat) → List Char → Except PatternFault (Pattern × Bool × List Char)
  | 0, _ => refuse
  | fuel + 1, text =>
    match text with
    | [] => refuse
    | '^' :: rest => .ok (.start, false, rest)
    | '$' :: rest => .ok (.lineEnd, false, rest)
    | '.' :: rest => .ok (.set .inLine, true, rest)
    | '(' :: '?' :: ':' :: rest => group fuel rest
    | '(' :: '?' :: _ => refuse
    | '(' :: rest => group fuel rest
    | '[' :: rest => do
      let (pattern, rest) ← bracket rest
      return (pattern, true, rest)
    | ['\\'] => refuse
    | '\\' :: 'A' :: rest => .ok (.start, false, rest)
    | '\\' :: 'Z' :: rest => .ok (.finish, false, rest)
    | '\\' :: 'b' :: rest => .ok (.boundary true, false, rest)
    | '\\' :: 'B' :: rest => .ok (.boundary false, false, rest)
    | '\\' :: c :: rest =>
      match classEscape? c with
      | some item => .ok (.set ⟨[item], false⟩, true, rest)
      | none => do
        let (code, rest) ← literalEscape c rest
        return (.set (.single code), true, rest)
    | c :: rest => do
      match ← quantifier? text with
      | some _ => refuse
      | none => return (.set (.single c.toNat), true, rest)

def group : (fuel : Nat) → List Char → Except PatternFault (Pattern × Bool × List Char)
  | 0, _ => refuse
  | fuel + 1, text => do
    let (branches, rest) ← alternatives fuel text
    match rest with
    | ')' :: rest => return (ofBranches branches, true, rest)
    | _ => refuse

end

/-- Takes the marks at the front of an expression which say that case does not count, and tells
whether there are any. -/
def marks : List Char → Bool × List Char
  | '(' :: '?' :: 'i' :: ')' :: rest => (true, (marks rest).2)
  | text => (false, text)

def parse (text : List Char) : Except PatternFault Expression := do
  let (ignoreCase, body) := marks text
  match ← alternatives (4 * body.length + 4) body with
  | (branches, []) => return ⟨ignoreCase, ofBranches branches⟩
  | _ => refuse

end Pattern
end Launcher
