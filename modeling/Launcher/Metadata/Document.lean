import Launcher.Json.Parser
import Launcher.Metadata.Place

/-! Documents that come from outside as bytes: what can be wrong with one. -/
namespace Launcher

/-- Why a document cannot be used: it is no JSON text, it is no object, or a place of it does not
hold what it must. -/
inductive DocumentError
  | unreadable (name : String) (error : Json.ReadError)
  | notObject (name : String)
  | malformed (error : Malformed)
  deriving DecidableEq, Repr

def DocumentError.message : DocumentError → String
  | .unreadable name error => s!"{name}: {error.message}"
  | .notObject name => s!"{name}: / must be an object"
  | .malformed error => error.message

end Launcher
