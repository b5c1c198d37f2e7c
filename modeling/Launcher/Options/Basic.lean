import Launcher.Options.Setting
import Launcher.Text.Quoted

/-! What a command takes on its command line: options, which change its settings in the order in
which they are given, and operands. The settings are of any type. -/
namespace Launcher

inductive ValueFault
  | notInteger (text : String)
  | notReal (text : String)
  | notChoice (text : String) (choices : List String)
  deriving DecidableEq, Repr

inductive Misuse
  /-- A shortened option is short for several ones. -/
  | ambiguous (text : String) (names : List String)
  | missingValue (option : String)
  | needlessValue (option value : String)
  | badValue (name : String) (fault : ValueFault)
  | unrecognized (texts : List String)
  deriving DecidableEq, Repr

inductive OptionAction (σ : Type)
  | help
  | change (set : σ → σ)
  /-- Takes a value, for which a placeholder stands in texts, or is cleared. -/
  | value (placeholder : String) (set : String → σ → Except ValueFault σ) (clear : σ → σ)

structure OptionSpec (σ : Type) where
  names : List String
  action : OptionAction σ
  explanation : String

inductive OperandSpec (σ : Type)
  | single (name explanation : String) (set : String → σ → σ)
  /-- A command by its name, to which all arguments after the name belong. -/
  | command (title : String) (commands : List (String × String))

structure CommandSpec (σ : Type) where
  program : String
  description : Option String
  options : List (OptionSpec σ)
  abbreviates : Bool
  operands : OperandSpec σ

namespace OptionSpec

variable {σ : Type}

def title (o : OptionSpec σ) : String := "/".intercalate o.names

def takesValue (o : OptionSpec σ) : Bool :=
  match o.action with
  | .value .. => true
  | _ => false

/-- What stands in the place of a value if the option is to be cleared. -/
def clearing : String := "--"

def help : OptionSpec σ := ⟨["-h", "--help"], .help, "show this help message and exit"⟩

end OptionSpec

namespace CommandSpec

variable {σ : Type}

def names (c : CommandSpec σ) : List (String × OptionSpec σ) :=
  c.options.flatMap fun o => o.names.map (·, o)

def find? (c : CommandSpec σ) (name : String) : Option (OptionSpec σ) := c.names.lookup name

end CommandSpec

def choiceText (texts : List String) : String := "\x7b" ++ ",".intercalate texts ++ "\x7d"

def quotedList (texts : List String) : String := ", ".intercalate (texts.map Text.quoted)

def ValueFault.message : ValueFault → String
  | .notInteger text => s!"invalid int value: {Text.quoted text}"
  | .notReal text => s!"invalid float value: {Text.quoted text}"
  | .notChoice text choices =>
    s!"invalid choice: {Text.quoted text} (choose from {quotedList choices})"

def Misuse.message : Misuse → String
  | .ambiguous text names =>
    "ambiguous option: " ++ text ++ " could match " ++ ", ".intercalate names
  | .missingValue option => s!"argument {option}: expected one argument"
  | .needlessValue option value =>
    s!"argument {option}: ignored explicit argument {Text.quoted value}"
  | .badValue name fault => s!"argument {name}: {fault.message}"
  | .unrecognized texts => "unrecognized arguments: " ++ " ".intercalate texts

end Launcher
