import Launcher.Text.Pieces
import Launcher.Text.Quoted

/-! Path names. Parts that are empty or a single dot are dropped when a path is read, and two dots
stay: what they lead to is the file tree's matter. -/
namespace Launcher

/-- Where a path starts: at the working directory, at the root, or at a root of two slashes. -/
inductive Anchor
  | relative
  | root
  | doubleRoot
  deriving DecidableEq, Repr

structure Path where
  anchor : Anchor
  parts : List String
  deriving DecidableEq, Repr

namespace Path

/-- The pieces of a text between slashes that name something. -/
def partsOf (text : List Char) : List String :=
  ((Text.splitOn '/' text).filter fun piece => piece ≠ [] && piece ≠ ['.']).map String.ofList

def ofChars (text : List Char) : Path :=
  match text with
  | '/' :: '/' :: '/' :: _ => ⟨.root, partsOf text⟩
  | '/' :: '/' :: _ => ⟨.doubleRoot, partsOf text⟩
  | '/' :: _ => ⟨.root, partsOf text⟩
  | _ => ⟨.relative, partsOf text⟩

def ofText (text : String) : Path := ofChars text.toList

def anchorText : Anchor → String
  | .relative => ""
  | .root => "/"
  | .doubleRoot => "//"

/-- The name of a path; the working directory is a dot. -/
def text (p : Path) : String :=
  let name := anchorText p.anchor ++ "/".intercalate p.parts
  if name = "" then "." else name

/-- Reads `name` as a path from `p` on, which an anchored name ignores. -/
def join (p : Path) (name : String) : Path :=
  let q := ofText name
  if q.anchor = .relative then ⟨p.anchor, p.parts ++ q.parts⟩ else q

instance : HDiv Path String Path := ⟨join⟩

/-- The path without its last part, the path itself if it has none. -/
def parent (p : Path) : Path := ⟨p.anchor, p.parts.dropLast⟩

/-- The last part, empty if there is none. -/
def name (p : Path) : String := p.parts.getLast?.getD ""

def quoted (p : Path) : String := Text.quoted p.text

theorem join_parts_of_relative (p : Path) (name : String) (h : (ofText name).anchor = .relative) :
    (p / name).parts = p.parts ++ (ofText name).parts := by
  show (join p name).parts = _
  simp [join, h]

end Path
end Launcher
