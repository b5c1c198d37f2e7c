import Launcher.Number.Binary64

/-! JSON documents. Integers are unbounded and apart from doubles; an object keeps its members in
the order in which their names first came, each with the value that came last. -/
namespace Launcher

inductive Json
  | null
  | bool (value : Bool)
  | int (value : Int)
  | float (value : Binary64)
  | string (value : String)
  | list (items : List Json)
  | object (members : List (String × Json))
  deriving Repr, Inhabited

abbrev Members := List (String × Json)

namespace Members

def get? (members : Members) (name : String) : Option Json :=
  (members.find? fun member => member.1 == name).map (·.2)

/-- The member's value, null if there is no such member. -/
def getD (members : Members) (name : String) : Json := (members.get? name).getD .null

def contains (members : Members) (name : String) : Bool :=
  members.any fun member => member.1 == name

/-- Sets a member: in its place if the name is there, else at the end. -/
def insert (members : Members) (name : String) (value : Json) : Members :=
  if members.contains name then
    members.map fun member => if member.1 == name then (name, value) else member
  else members ++ [(name, value)]

def ofList (pairs : List (String × Json)) : Members :=
  pairs.foldl (fun members pair => members.insert pair.1 pair.2) []

end Members

namespace Json

/-- Whether a value counts as true where a condition is wanted: all do but null, false, zero and
what is empty. -/
def isTruthy : Json → Bool
  | .null => false
  | .bool b => b
  | .int n => n != 0
  | .float (.signed _ rank) => rank.val != 0
  | .float .nan => true
  | .string s => s != ""
  | .list items => !items.isEmpty
  | .object members => !members.isEmpty

end Json
end Launcher
