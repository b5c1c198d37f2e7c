import Launcher.Options.Basic
import Launcher.Text.Blank

/-! What the arguments of a command are by their looks. A single `--` separates options from
operands that may look like options. -/
namespace Launcher

inductive Word (σ : Type)
  | operand (text : String)
  | separator
  /-- An option by its full name, with a value that is part of the same argument. -/
  | option (text : String) (name : String) (option : OptionSpec σ) (value : Option String)
  | unknown (text : String)

namespace Word

variable {σ : Type}

def text : Word σ → String
  | .operand text => text
  | .separator => "--"
  | .option text .. => text
  | .unknown text => text

/-- A minus and digits, which may have a point before the last ones; a line may end behind them. -/
def isNegativeNumber (text : List Char) : Bool :=
  let isDigit (c : Char) := (Text.digitValue? c).isSome
  let body := if text.getLast? = some '\n' then text.dropLast else text
  match body with
  | '-' :: number =>
    match number.span isDigit with
    | (whole, []) => !whole.isEmpty
    | (_, '.' :: places) => !places.isEmpty && places.all isDigit
    | _ => false
  | _ => false

def atEquals (text : List Char) : String × Option String :=
  match text.span (· ≠ '=') with
  | (name, []) => (String.ofList name, none)
  | (name, _ :: value) => (String.ofList name, some (String.ofList value))

/-- The options that an argument may be short for, or that begin a bundle of one-letter options. -/
def guesses (c : CommandSpec σ) (text : String) : List (Word σ) :=
  match text.toList with
  | '-' :: '-' :: _ =>
    let (start, value) := atEquals text.toList
    if c.abbreviates then
      (c.names.filter fun entry => start.toList.isPrefixOf entry.1.toList).map fun (name, o) =>
        .option text name o value
    else []
  | first :: second :: rest =>
    let name := String.ofList [first, second]
    match c.find? name with
    | some o => [.option text name o (some (String.ofList rest))]
    | none => []
  | _ => []

/-- An argument that looks like an option and is none by its full name. -/
def guess (c : CommandSpec σ) (text : String) : Except Misuse (Word σ) :=
  match guesses c text with
  | [word] => .ok word
  | [] =>
    if isNegativeNumber text.toList || text.toList.contains ' ' then .ok (.operand text)
    else .ok (.unknown text)
  | words =>
    .error (.ambiguous text (words.filterMap fun
      | .option _ name _ _ => some name
      | _ => none))

def ofText (c : CommandSpec σ) (text : String) : Except Misuse (Word σ) :=
  if text = "-" || text.toList.head? ≠ some '-' then .ok (.operand text)
  else match c.find? text with
    | some o => .ok (.option text text o none)
    | none =>
      let (name, value) := atEquals text.toList
      match c.find? name, value with
      | some o, some value => .ok (.option text name o (some value))
      | _, _ => guess c text

def ofTexts (c : CommandSpec σ) : List String → Except Misuse (List (Word σ))
  | [] => .ok []
  | text :: rest =>
    if text = "--" then .ok (.separator :: rest.map .operand)
    else do
      let word ← ofText c text
      let words ← ofTexts c rest
      return word :: words

end Word
end Launcher
