import Launcher.Json.Basic

/-! Places in documents and what is wanted there. -/
namespace Launcher

inductive Step
  | member (name : String)
  | item (index : Nat)
  deriving DecidableEq, Repr

structure Place where
  root : String
  steps : List Step
  deriving DecidableEq, Repr

namespace Place

def ofText (root : String) : Place := ⟨root, []⟩

def member (p : Place) (name : String) : Place := ⟨p.root, p.steps ++ [.member name]⟩

def item (p : Place) (index : Nat) : Place := ⟨p.root, p.steps ++ [.item index]⟩

def stepText : Step → String
  | .member name => "/" ++ name
  | .item index => "/" ++ toString index

def text (p : Place) : String := p.root ++ String.join (p.steps.map stepText)

end Place

def metadataPlace : Place := .ofText "metadata: "

inductive Need
  | object
  | list
  | string
  | boolean
  | integer
  | digest
  | action
  | listOrString
  | argument
  deriving DecidableEq, Repr

def Need.text : Need → String
  | .object => "an object"
  | .list => "a list"
  | .string => "a string"
  | .boolean => "a boolean"
  | .integer => "an integer"
  | .digest => "a 40 characters lowercase hex string"
  | .action => "'allow' or 'disallow'"
  | .listOrString => "a list or a string"
  | .argument => "an object, a list or a string"

structure Malformed where
  place : Place
  need : Need
  deriving DecidableEq, Repr

def Malformed.message (m : Malformed) : String := s!"{m.place.text} must be {m.need.text}"

/-- A whole number of a document. The truth values count as one and zero and keep their names. -/
inductive Whole
  | number (value : Int)
  | truth (value : Bool)
  deriving DecidableEq, Repr

namespace Whole

def value : Whole → Int
  | .number n => n
  | .truth b => if b then 1 else 0

def text : Whole → String
  | .number n => toString n
  | .truth b => if b then "True" else "False"

end Whole

namespace Json

def asObject (v : Json) (place : Place) : Except Malformed Members :=
  match v with
  | .object members => .ok members
  | _ => .error ⟨place, .object⟩

theorem asObject_ok {v : Json} {place : Place} {members : Members} :
    v.asObject place = .ok members ↔ v = .object members := by
  unfold asObject
  split <;> simp_all

def asList (v : Json) (place : Place) : Except Malformed (List Json) :=
  match v with
  | .list items => .ok items
  | _ => .error ⟨place, .list⟩

def asString (v : Json) (place : Place) : Except Malformed String :=
  match v with
  | .string s => .ok s
  | _ => .error ⟨place, .string⟩

theorem asString_ok {v : Json} {place : Place} {text : String} :
    v.asString place = .ok text ↔ v = .string text := by
  unfold asString
  split <;> simp_all

/-- A text or nothing: null stands for an absent value. -/
def asString? (v : Json) (place : Place) : Except Malformed (Option String) :=
  match v with
  | .null => .ok none
  | .string s => .ok (some s)
  | _ => .error ⟨place, .string⟩

def asWhole? (v : Json) (place : Place) : Except Malformed (Option Whole) :=
  match v with
  | .null => .ok none
  | .int n => .ok (some (.number n))
  | .bool b => .ok (some (.truth b))
  | _ => .error ⟨place, .integer⟩

end Json
end Launcher
