import Launcher.Metadata.Place
import Launcher.Text.Pattern.Parser
import Launcher.Text.Quoted

/-! Rules that allow or disallow their subject on a platform and with features. Of a list of rules
the last one that matches decides, and a list in which none matches allows. -/
namespace Launcher

/-- What is known of the platform: the names by which metadata calls its system and architecture,
the width of pointers, and the version text of its kernel. -/
structure Platform where
  os : Option String
  arch : Option String
  bits : Option Int
  version : String
  deriving DecidableEq, Repr

inductive RuleAction
  | allow
  | disallow
  deriving DecidableEq, Repr

/-- Features by name, each wanted or not, or each present or not. -/
abbrev Features := List (String × Bool)

def Features.get? (features : Features) (name : String) : Option Bool :=
  (features.find? (·.1 == name)).map (·.2)

structure Rule where
  action : RuleAction
  osName : Option String
  osArch : Option String
  osVersion : Option String
  features : Features
  deriving DecidableEq, Repr

structure InvalidPattern where
  text : String
  fault : PatternFault
  deriving DecidableEq, Repr

def RuleAction.text : RuleAction → String
  | .allow => "allow"
  | .disallow => "disallow"

namespace Rule

def parseFeatures (place : Place) : Members → Except Malformed Features
  | [] => .ok []
  | (name, .bool b) :: rest => (parseFeatures place rest).map ((name, b) :: ·)
  | (name, _) :: _ => .error ⟨place.member name, .boolean⟩

def parse (v : Json) (place : Place) : Except Malformed Rule := do
  let members ← v.asObject place
  let action ← match members.getD "action" with
    | .string "allow" => .ok RuleAction.allow
    | .string "disallow" => .ok RuleAction.disallow
    | _ => .error ⟨place.member "action", .action⟩
  let osPlace := place.member "os"
  let (osName, osArch, osVersion) ← match members.getD "os" with
    | .null => .ok (none, none, none)
    | os => do
      let os ← os.asObject osPlace
      let name ← (os.getD "name").asString? (osPlace.member "name")
      let arch ← (os.getD "arch").asString? (osPlace.member "arch")
      let version ← (os.getD "version").asString? (osPlace.member "version")
      .ok (name, arch, version)
  let features ← ((members.get? "features").getD (.object [])).asObject (place.member "features")
  let features ← parseFeatures (place.member "features") features
  return { action, osName, osArch, osVersion, features }

def parseItems (place : Place) (index : Nat) : List Json → Except Malformed (List Rule)
  | [] => .ok []
  | v :: rest => do
    let rule ← parse v (place.item index)
    let rules ← parseItems place (index + 1) rest
    return rule :: rules

def parseList (v : Json) (place : Place) : Except Malformed (List Rule) := do
  parseItems place 0 (← v.asList place)

/-- Whether an expression is found in a text. -/
def searchPattern (expression text : String) : Except InvalidPattern Bool :=
  match Pattern.parse expression.toList with
  | .ok e => .ok (Pattern.search e text.toList)
  | .error fault => .error ⟨expression, fault⟩

/-- Whether the given features are as wanted, a missing one being off. -/
def featuresMatch (wanted features : Features) : Bool :=
  wanted.all fun (name, expected) => (features.get? name).getD false == expected

/-- Whether a rule applies to a system, an architecture and features. The version is looked at
last before the features. -/
def isMatch (rule : Rule) (version : String) (features : Features) (osName osArch : Option String) :
    Except InvalidPattern Bool :=
  if rule.osName.isSome && rule.osName ≠ osName then .ok false
  else if rule.osArch.isSome && rule.osArch ≠ osArch then .ok false
  else match rule.osVersion with
    | none => .ok (featuresMatch rule.features features)
    | some expression =>
      (searchPattern expression version).map fun found =>
        found && featuresMatch rule.features features

def verdictFrom (version : String) (features : Features) (osName osArch : Option String) :
    Bool → List Rule → Except InvalidPattern Bool
  | verdict, [] => .ok verdict
  | verdict, rule :: rest =>
    match rule.isMatch version features osName osArch with
    | .error e => .error e
    | .ok true => verdictFrom version features osName osArch (rule.action = .allow) rest
    | .ok false => verdictFrom version features osName osArch verdict rest

def allows (platform : Platform) (features : Features) (rules : List Rule) :
    Except InvalidPattern Bool :=
  verdictFrom platform.version features platform.os platform.arch true rules

def shownFeatures (features : Features) : String :=
  let shown := features.map fun (name, b) =>
    Text.quoted name ++ ": " ++ (if b then "True" else "False")
  "\x7b" ++ ", ".intercalate shown ++ "\x7d"

def shown (rule : Rule) : String :=
  "<Rule " ++ rule.action.text ++ " os=" ++ rule.osName.getD "None" ++ "/" ++
    rule.osArch.getD "None" ++ " features=" ++
    shownFeatures rule.features ++ ">"

def shownList (rules : List Rule) : String :=
  "[" ++ ", ".intercalate (rules.map shown) ++ "]"

end Rule
end Launcher
