import Launcher.Text.Quoted

/-! Texts with placeholders such as `${name}`. A placeholder starts at the leftmost mark that a
closing brace follows somewhere, and ends at the first such brace. Values put in are not read
again. -/
namespace Launcher

inductive TemplatePiece
  | char (c : Char)
  | placeholder (name : String)
  deriving DecidableEq, Repr

/-- Values by placeholder name. -/
abbrev Replacements := List (String × String)

def Replacements.get? (table : Replacements) (name : String) : Option String :=
  (table.find? (·.1 == name)).map (·.2)

/-- A placeholder without a value, and the template in which it stands. -/
structure UnresolvedPlaceholder where
  name : String
  template : String
  deriving DecidableEq, Repr

def UnresolvedPlaceholder.message (u : UnresolvedPlaceholder) : String :=
  "unresolved $\x7b" ++ u.name ++ "\x7d in argument " ++ Text.quoted u.template

namespace Template

def pieces : List Char → List TemplatePiece
  | [] => []
  | '$' :: '\x7b' :: rest =>
    if rest.contains '\x7d' then
      .placeholder (String.ofList (rest.takeWhile (· ≠ '\x7d'))) ::
        pieces ((rest.dropWhile (· ≠ '\x7d')).drop 1)
    else .char '$' :: pieces ('\x7b' :: rest)
  | c :: rest => .char c :: pieces rest
termination_by text => text.length
decreasing_by
  · have := (List.dropWhile_suffix (l := rest) (· ≠ '\x7d')).length_le
    simp only [List.length_drop, List.length_cons]
    omega
  · simp
  · simp

def names (text : String) : List String :=
  (pieces text.toList).filterMap fun
    | .char _ => none
    | .placeholder name => some name

def fill (table : Replacements) : TemplatePiece → Except String (List Char)
  | .char c => .ok [c]
  | .placeholder name =>
    match table.get? name with
    | some value => .ok value.toList
    | none => .error name

def fillAll (table : Replacements) : List TemplatePiece → Except String (List Char)
  | [] => .ok []
  | piece :: rest =>
    match fill table piece with
    | .error name => .error name
    | .ok text => (fillAll table rest).map (text ++ ·)

def substitute (text : String) (table : Replacements) : Except UnresolvedPlaceholder String :=
  match fillAll table (pieces text.toList) with
  | .ok filled => .ok (String.ofList filled)
  | .error name => .error ⟨name, text⟩

end Template
end Launcher
