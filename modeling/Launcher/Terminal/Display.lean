import Launcher.Terminal.Output

/-! What a command shows, in order: tasks, each of which stands in the current line until it is
finished, and texts of their own. -/
namespace Launcher

inductive Display
  | task (state : Option String) (message : String)
  | finish
  | print (text : String)
  deriving DecidableEq, Repr

namespace Display

/-- A task with a message of the launcher, whose values fit their fields. -/
def progress (state : Option String) (key : String) (values : Members) : Display :=
  .task state ((Message.text key values).toOption.getD key)

def line (state : Option String) (key : String) (values : Members) : List Display :=
  [progress state key values, .finish]

end Display

namespace Output

/-- Shows one thing. A text leaves the task in progress as it was. -/
def write (columns : Nat) (o : Output) : Display → String × Output
  | .task state message => o.task columns state message
  | .finish => o.finish
  | .print text => (text ++ "\n", o)

def writeAll (columns : Nat) : Output → List Display → String × Output
  | o, [] => ("", o)
  | o, d :: rest =>
    let (text, o) := o.write columns d
    let (texts, o) := o.writeAll columns rest
    (text ++ texts, o)

end Output
end Launcher
