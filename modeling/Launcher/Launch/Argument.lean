import Launcher.Metadata.Rule

/-! Argument trees: texts, lists of arguments, and arguments under rules. -/
namespace Launcher

inductive Argument
  | literal (text : String)
  | conditional (rules : List Rule) (value : Argument)
  | list (items : List Argument)
  deriving Repr

namespace Argument

mutual

def parse (v : Json) (place : Place) : Except Malformed Argument :=
  match v with
  | .string text => .ok (.literal text)
  | .list items => (parseItems place 0 items).map .list
  | .object members =>
    let rules := (Members.get? members "rules").getD (.list [])
    match Rule.parseList rules (place.member "rules") with
    | .error e => .error e
    | .ok rules => (parseValue place members).map (.conditional rules)
  | _ => .error ⟨place, .argument⟩

def parseItems (place : Place) (index : Nat) : List Json → Except Malformed (List Argument)
  | [] => .ok []
  | v :: rest =>
    match parse v (place.item index) with
    | .error e => .error e
    | .ok argument => (parseItems place (index + 1) rest).map (argument :: ·)

def parseValue (place : Place) : List (String × Json) → Except Malformed Argument
  | [] => .error ⟨place.member "value", .listOrString⟩
  | (name, v) :: rest =>
    if name = "value" then parse v (place.member "value") else parseValue place rest

end

mutual

def shown : Argument → String
  | .literal text => "<LiteralArgument " ++ Text.quoted text ++ ">"
  | .conditional rules value =>
    "<ConditionalArgument " ++ Rule.shownList rules ++ " " ++ shown value ++ ">"
  | .list items => "<ListArgument [" ++ ", ".intercalate (shownItems items) ++ "]>"

def shownItems : List Argument → List String
  | [] => []
  | a :: rest => shown a :: shownItems rest

end

end Argument
end Launcher
