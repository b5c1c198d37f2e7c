import Launcher.Launch.Argument
import Launcher.Launch.Template

/-! Evaluation of argument trees. Every literal that the rules include gives one item; one that
names a dropped placeholder gives an empty place, which collapsing takes away. -/
namespace Launcher

structure Phase where
  platform : Platform
  replacements : Replacements
  features : Features
  dropped : List String
  deriving Repr

structure Evaluation where
  items : List (Option String)
  names : List String
  deriving DecidableEq, Repr

inductive EvaluationError
  | unresolved (error : UnresolvedPlaceholder)
  | pattern (error : InvalidPattern)
  deriving DecidableEq, Repr

namespace Evaluation

def empty : Evaluation := ⟨[], []⟩

/-- The arguments that items leave. A dropped item takes the last argument with it if the item
before was dropped too or is empty. -/
def collapse (items : List (Option String)) : List String :=
  (items.foldl (fun (args, afterGap) item =>
    match item with
    | none => (if afterGap then args.dropLast else args, true)
    | some text => (args ++ [text], text = "")) (([] : List String), false)).1

end Evaluation

namespace Phase

/-- Whether a rule lets its argument be: a custom resolution is never supported, other features
must be known ones, and what an allowing rule wants of them must hold. -/
def admits (features : Features) (rule : Rule) : Bool :=
  rule.features.all fun (name, expected) =>
    if name = "has_custom_resolution" then false
    else match features.get? name with
      | none => false
      | some present => !(rule.action = .allow && present != expected)

def includes (phase : Phase) (rules : List Rule) : Except InvalidPattern Bool :=
  (Rule.allows phase.platform phase.features rules).map fun verdict =>
    verdict && rules.all (admits phase.features)

def push (phase : Phase) (text : String) (state : Evaluation) :
    Except EvaluationError Unit × Evaluation :=
  let names := Template.names text
  let state := { state with names := state.names ++ names }
  if names.any (phase.dropped.contains ·) then
    (.ok (), { state with items := state.items ++ [none] })
  else match Template.substitute text phase.replacements with
    | .ok filled => (.ok (), { state with items := state.items ++ [some filled] })
    | .error e => (.error (.unresolved e), state)

mutual

/-- Evaluates a tree from a state on; a fault leaves what was evaluated before it. -/
def evaluate (phase : Phase) : Argument → Evaluation → Except EvaluationError Unit × Evaluation
  | .literal text, state => phase.push text state
  | .conditional rules value, state =>
    match phase.includes rules with
    | .error e => (.error (.pattern e), state)
    | .ok false => (.ok (), state)
    | .ok true => evaluate phase value state
  | .list items, state => evaluateAll phase items state

def evaluateAll (phase : Phase) :
    List Argument → Evaluation → Except EvaluationError Unit × Evaluation
  | [], state => (.ok (), state)
  | a :: rest, state =>
    match evaluate phase a state with
    | (.error e, state) => (.error e, state)
    | (.ok (), state) => evaluateAll phase rest state

end

def arguments (phase : Phase) (a : Argument) :
    Except EvaluationError (List String) × Evaluation :=
  match phase.evaluate a .empty with
  | (.error e, state) => (.error e, state)
  | (.ok (), state) => (.ok (Evaluation.collapse state.items), state)

end Phase
end Launcher
