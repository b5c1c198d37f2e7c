import Launcher.Metadata.Rule

/-! The player on whose behalf the game is started. -/
namespace Launcher

/-- An offline player has no identity; an online one was identified elsewhere. -/
inductive Session
  | offline (demo : Bool)
  | online (username accessToken uuid clientId xuid : String) (demo : Bool)
  deriving DecidableEq, Repr

namespace Session

def isOffline : Session → Bool
  | .offline _ => true
  | .online .. => false

def demo : Session → Bool
  | .offline demo => demo
  | .online _ _ _ _ _ demo => demo

def userType : Session → String
  | .offline _ => "legacy"
  | .online .. => "msa"

def username : Session → String
  | .offline _ => ""
  | .online username _ _ _ _ _ => username

def uuid : Session → String
  | .offline _ => ""
  | .online _ _ uuid _ _ _ => uuid

def clientId : Session → String
  | .offline _ => ""
  | .online _ _ _ clientId _ _ => clientId

def xuid : Session → String
  | .offline _ => ""
  | .online _ _ _ _ xuid _ => xuid

def token : Session → String
  | .offline _ => ""
  | .online _ accessToken _ _ _ _ => accessToken

/-- The access token as old versions take it, with the player's identifier. -/
def legacyToken : Session → String
  | .offline _ => ""
  | .online _ accessToken uuid _ _ _ => s!"token:{accessToken}:{uuid}"

/-- The features that a session gives to rules. -/
def features (s : Session) : Features :=
  [("is_demo_user", s.demo), ("has_custom_resolution", false)]

def shown (s : Session) : String :=
  let demo := if s.demo then "True" else "False"
  match s with
  | .offline _ => s!"<OfflineAuthSession demo={demo}>"
  | .online username .. => s!"<OnlineAuthSession {username} demo={demo}>"

end Session
end Launcher
