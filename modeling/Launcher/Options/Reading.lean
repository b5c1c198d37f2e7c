import Launcher.Options.Usage
import Launcher.Options.Word

/-! Reading the arguments of a command in their order. What the command does not know is set aside,
because a fault in a later argument comes first. -/
namespace Launcher

inductive Refusal
  | help (usage : Usage)
  | misuse (program : String) (misuse : Misuse)
  deriving Repr

structure Reading (σ : Type) where
  settings : σ
  command : List String
  unrecognized : List String

namespace Reading

variable {σ : Type}

def setAside (r : Reading σ) (texts : List String) : Reading σ :=
  { r with unrecognized := r.unrecognized ++ texts }

def take (r : Reading σ) (set : String → σ → σ) (text : String) : Reading σ :=
  { r with settings := set text r.settings }

end Reading

namespace CommandSpec

variable {σ : Type}

def refuse (c : CommandSpec σ) (misuse : Misuse) : Refusal := .misuse c.program misuse

/-- The options in an argument that starts with an option and goes on with a value for it. If a
one-letter option takes none, one-letter options may follow without a minus: those before the last
one, and the last one with its value. -/
def bundle (c : CommandSpec σ) (o : OptionSpec σ) :
    List Char → Except Misuse (List (OptionSpec σ) × OptionSpec σ × Option String)
  | [] => .ok ([], o, none)
  | letter :: rest =>
    if o.takesValue then .ok ([], o, some (String.ofList (letter :: rest)))
    else match c.find? (String.ofList ['-', letter]) with
      | none => .error (.needlessValue o.title (String.ofList (letter :: rest)))
      | some next => do
        let (before, last) ← bundle c next rest
        return (o :: before, last)

/-- The options in an argument: those before the last one, and the last one with its value. -/
def uses (c : CommandSpec σ) (name : String) (o : OptionSpec σ) :
    Option String → Except Misuse (List (OptionSpec σ) × OptionSpec σ × Option String)
  | none => .ok ([], o, none)
  | some value =>
    if o.takesValue then .ok ([], o, some value)
    else if value = "" || "--".toList.isPrefixOf name.toList then
      .error (.needlessValue o.title value)
    else bundle c o value.toList

/-- Does what an option does, its value being there if it takes one. The separator is no operand, so
a value that clears the option is part of the same argument. -/
def perform (c : CommandSpec σ) (o : OptionSpec σ) (value : String) (settings : σ) :
    Except Refusal σ :=
  match o.action with
  | .help => .error (.help c.usage)
  | .change set => .ok (set settings)
  | .value _ set clear =>
    if value = OptionSpec.clearing then .ok (clear settings)
    else (set value settings).mapError fun fault => c.refuse (.badValue o.title fault)

def performAll (c : CommandSpec σ) (options : List (OptionSpec σ)) (settings : σ) :
    Except Refusal σ :=
  options.foldlM (fun settings o => c.perform o "" settings) settings

/-- Reads words in their order; `taken` tells whether the one operand was there. A separator counts
with the operand before or behind it. -/
def readWords (c : CommandSpec σ) : (taken : Bool) → List (Word σ) → Reading σ →
    Except Refusal (Reading σ)
  | _, [], r => .ok r
  | taken, .unknown text :: rest, r => readWords c taken rest (r.setAside [text])
  | taken, .operand text :: rest, r =>
    match c.operands with
    | .command .. => .ok { r with command := text :: rest.map Word.text }
    | .single _ _ set =>
      if taken then readWords c true rest (r.setAside [text])
      else match rest with
        | .separator :: rest => readWords c true rest (r.take set text)
        | rest => readWords c true rest (r.take set text)
  | taken, .separator :: rest, r =>
    match c.operands, taken, rest.map Word.text with
    | .command .., _, [] => .ok (r.setAside ["--"])
    | .command .., _, texts => .ok { r with command := "--" :: texts }
    | .single .., true, texts => .ok (r.setAside ("--" :: texts))
    | .single _ _ set, false, text :: texts => .ok ((r.take set text).setAside texts)
    | .single .., false, [] => .ok r
  | taken, .option _ name o value :: rest, r => do
    let (before, last, value) ← (c.uses name o value).mapError c.refuse
    match last.takesValue, value, rest with
    | true, none, .operand value :: rest =>
      let settings ← c.performAll before r.settings
      readWords c taken rest { r with settings := ← c.perform last value settings }
    | true, none, _ => .error (c.refuse (.missingValue last.title))
    | _, value, rest =>
      let settings ← c.performAll before r.settings
      readWords c taken rest { r with settings := ← c.perform last (value.getD "") settings }
termination_by _ words _ => words.length

def read (c : CommandSpec σ) (settings : σ) (arguments : List String) :
    Except Refusal (Reading σ) := do
  let words ← (Word.ofTexts c arguments).mapError c.refuse
  c.readWords false words ⟨settings, [], []⟩

end CommandSpec
end Launcher
