import Launcher.Options.Basic

/-! How a command is used, as its help tells it in lines of limited width: a summary, what the
command is for, and its operands and options with their explanations in a column. -/
namespace Launcher

/-- A line of help: a name with what it stands for, further to the right for a command. -/
structure UsageEntry where
  indent : Nat
  heading : String
  explanation : Option String
  deriving Repr

structure UsageSection where
  title : String
  entries : List UsageEntry
  deriving Repr

structure Usage where
  program : String
  /-- The parts of the summary for options, and those for operands. -/
  options : List String
  operands : List String
  description : Option String
  sections : List UsageSection
  deriving Repr

namespace Usage

/-- Words in lines of a width; a word that is wider has a line of its own. -/
def wrap (width : Nat) (words : List String) : List String :=
  let (last, lines) := words.foldl (fun (line, done) word =>
    if line = "" then (word, done)
    else if line.length + 1 + word.length ≤ width then (line ++ " " ++ word, done)
    else (word, done ++ [line])) ("", ([] : List String))
  if last = "" then lines else lines ++ [last]

def blanks (n : Nat) : String := String.ofList (List.replicate n ' ')

def wordsOf (text : String) : List String := text.splitOn " "

/-- The summary: on one line if it fits, else options and operands start lines of their own behind
the name of the command. -/
def summary (u : Usage) (width : Nat) : List String :=
  let start := "usage: " ++ u.program
  let whole := " ".intercalate (start :: u.options ++ u.operands)
  if whole.length ≤ width then [whole]
  else
    let indent := start.length + 1
    let lines := wrap (width - indent) u.options ++ wrap (width - indent) u.operands
    (start ++ " " ++ lines.headD "") :: lines.tail.map (blanks indent ++ ·)

def column (u : Usage) (width : Nat) : Nat :=
  let headings := u.sections.flatMap fun s => s.entries.map fun e => e.heading.length
  min (headings.foldl max 0 + 4) (min 24 (max (width - 20) 4))

/-- The lines of an entry. The explanation begins on the line of a heading that ends before its
column. -/
def entryLines (column width : Nat) (e : UsageEntry) : List String :=
  let start := blanks (2 + e.indent) ++ e.heading
  match e.explanation with
  | none => [start]
  | some explanation =>
    let lines := wrap (max (width - column) 11) (wordsOf explanation)
    if start.length + 2 ≤ column then
      (start ++ blanks (column - start.length) ++ lines.headD "") ::
        lines.tail.map (blanks column ++ ·)
    else start :: lines.map (blanks column ++ ·)

def paragraphs (u : Usage) (width : Nat) : List (List String) :=
  [u.summary width] ++ (u.description.map fun text => wrap width (wordsOf text)).toList ++
    u.sections.map fun s =>
      (s.title ++ ":") :: s.entries.flatMap (entryLines (u.column width) width)

def help (u : Usage) (columns : Nat) : String :=
  String.join ((([""] : List String).intercalate (u.paragraphs (columns - 2))).map (· ++ "\n"))

end Usage

namespace OptionSpec

variable {σ : Type}

def form (o : OptionSpec σ) (name : String) : String :=
  match o.action with
  | .value placeholder .. => name ++ " " ++ placeholder
  | _ => name

def entry (o : OptionSpec σ) : UsageEntry :=
  ⟨0, ", ".intercalate (o.names.map o.form), some o.explanation⟩

end OptionSpec

namespace CommandSpec

variable {σ : Type}

def usage (c : CommandSpec σ) : Usage :=
  let options : UsageSection := ⟨"options", c.options.map OptionSpec.entry⟩
  let summary := c.options.map fun o => "[" ++ o.form (o.names.headD "") ++ "]"
  match c.operands with
  | .single name explanation _ =>
    ⟨c.program, summary, ["[" ++ name ++ "]"], c.description,
      [⟨"positional arguments", [⟨0, name, some explanation⟩]⟩, options]⟩
  | .command title commands =>
    let choice := choiceText (commands.map Prod.fst)
    ⟨c.program, summary, [choice, "..."], c.description,
      [options, ⟨title, ⟨0, choice, none⟩ ::
        commands.map fun (name, explanation) => ⟨2, name, some explanation⟩⟩]⟩

end CommandSpec
end Launcher
