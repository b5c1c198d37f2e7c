import Launcher.Terminal.Message

/-! Lines that tell of tasks. Each starts with the state of its task, and is written over in place
until the task is finished. -/
namespace Launcher

inductive OutputKind
  | colored
  | plain
  deriving DecidableEq, Repr

namespace OutputKind

def text : OutputKind → String
  | .colored => "human-color"
  | .plain => "human"

def all : List OutputKind := [.colored, .plain]

def ofText? (text : String) : Option OutputKind := all.find? (·.text == text)

end OutputKind

/-- How far the message on the current line reaches, if a task is in progress. -/
structure Output where
  isColored : Bool
  lineLength : Option Nat
  deriving Repr

namespace Output

def stateLength : Nat := 9

def colors : List (String × String) := [
  ("OK", "\x1b[92m"), ("FAILED", "\x1b[31m"), ("WARN", "\x1b[33m"), ("INFO", "\x1b[34m"),
  ("HALT", "\x1b[33m")]

/-- A text in the middle of six columns, further to the left if the blanks are odd. -/
def centered (text : String) : String :=
  let blanks := 6 - text.length
  String.ofList (List.replicate (blanks / 2) ' ') ++ text ++
    String.ofList (List.replicate (blanks - blanks / 2) ' ')

/-- A state as it stands at the beginning of a line; no state is blank. -/
def stateText (isColored : Bool) : Option String → String
  | none => String.ofList (List.replicate stateLength ' ')
  | some state =>
    match if isColored then colors.lookup state else none with
    | none => "[" ++ centered state ++ "] "
    | some color => "[" ++ color ++ centered state ++ "\x1b[0m] "

/-- A message cut to what is left of a line of some columns; a very narrow terminal cuts nothing. -/
def cut (columns : Nat) (message : List Char) : List Char :=
  if 20 ≤ columns && columns < message.length + stateLength then
    message.take (columns - stateLength - 3) ++ ['.', '.', '.']
  else message

/-- Writes a message with a state on the current line. What is left of a longer message before is
blanked. -/
def task (o : Output) (columns : Nat) (state : Option String) (message : String) :
    String × Output :=
  let message := cut columns message.toList
  let blanks := o.lineLength.getD 0 - message.length
  ("\r" ++ stateText o.isColored state ++ String.ofList message ++
      String.ofList (List.replicate blanks ' '),
    { o with lineLength := some message.length })

def finish (o : Output) : String × Output :=
  match o.lineLength with
  | none => ("", o)
  | some _ => ("\n", { o with lineLength := none })

def ofKind (kind : OutputKind) : Output := ⟨kind = .colored, none⟩

end Output
end Launcher
