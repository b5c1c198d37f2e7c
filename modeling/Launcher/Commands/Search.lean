import Launcher.Commands.Basic
import Launcher.Terminal.Table

/-! The search for versions of the index: all of them, those whose identifier contains a text, or
the latest of a kind. -/
namespace Launcher

inductive VersionFilter
  | all
  | containing (text : String)
  | identified (id : Json)
  deriving Repr

namespace VersionFilter

/-- The filter for a text, which may stand for the latest version of a kind. -/
def ofText : Option String → Action VersionFilter
  | none => return .all
  | some text => do
    let (id, isAlias) ← VersionIndex.latest text
    return if isAlias then .identified id else .containing text

def occurs (part : List Char) : List Char → Bool
  | [] => part.isEmpty
  | c :: rest => part.isPrefixOf (c :: rest) || occurs part rest

def admits (f : VersionFilter) (id : String) : Bool :=
  match f with
  | .all => true
  | .containing text => occurs text.toList id.toList
  | .identified (.string text) => text = id
  | .identified _ => false

/-- The rows for versions: their kind, their identifier, and whether their metadata are there. -/
def rows (d : Directories) : List VersionEntry → Action Table
  | [] => return []
  | entry :: rest => do
    let isLocal ← Action.inspect Fault.system fun files => files.isFile (d.metadataFile entry.id)
    let flags := if isLocal then Message.plain "search.flags.local" else ""
    return some [entry.type.display, entry.id, flags] :: (← rows d rest)

/-- The table of the versions that are wanted. -/
def table (d : Directories) (filter : Option String) : Action Table := do
  let filter ← VersionFilter.ofText filter
  let entries ← VersionIndex.entries
  let found ← rows d (entries.filter fun entry => filter.admits entry.id)
  return some (["search.type", "search.name", "search.flags"].map Message.plain) :: none ::
    found

end VersionFilter

def CommandSettings.search (c : CommandSettings) (filter : Option String) : CommandAction Int := do
  let table ← CommandAction.onWorld (VersionFilter.table c.directories filter)
  CommandAction.tell [.print ("\n".intercalate table.lines)]
  return 0

end Launcher
