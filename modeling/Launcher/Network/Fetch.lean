import Launcher.Digest.Integrity
import Launcher.Identity
import Launcher.Network.Basic
import Launcher.Text.Blank
import Launcher.Text.Capital
import Launcher.Text.Unencodable
import Launcher.Url.Join

/-! Fetching one document, redirections being followed. -/
namespace Launcher

structure Response where
  status : Nat
  data : Bytes
  headers : Headers
  deriving DecidableEq, Repr

/-- A request without a response of status 2xx. The status is zero, with a reason, if the server
was not reached. -/
structure HttpError where
  url : String
  status : Nat
  headers : Headers
  reason : String
  deriving DecidableEq, Repr

def HttpError.message (e : HttpError) : String :=
  "GET " ++ e.url ++ ": " ++ (if e.status = 0 then e.reason else toString e.status)

inductive FetchError
  | http (error : HttpError)
  | connection (fault : ConnectionFault)
  | url (error : UrlError)
  | encoding (error : EncodingError)
  | integrity (error : IntegrityError)
  deriving DecidableEq, Repr

/-- The headers of a request, by names with a capital in front. -/
abbrev RequestHeaders := Members

namespace RequestHeaders

/-- Headers by their names with a capital in front; what comes last for a name counts. -/
def ofMembers (headers : Members) : RequestHeaders :=
  Members.ofList (headers.map fun (name, value) =>
    (String.ofList (Text.capitalize name.toList), value))

def lowerName (name : String) : String := String.ofList (Text.lower name.toList)

/-- The headers by their names in lower case, as they are recorded. -/
def recorded (headers : RequestHeaders) : Members :=
  Members.ofList (headers.map fun (name, value) => (lowerName name, value))

/-- The headers of a request that follows a redirection: all but those about a body. -/
def redirected (headers : RequestHeaders) : RequestHeaders :=
  ofMembers (headers.filter fun (name, _) =>
    lowerName name ≠ "content-length" && lowerName name ≠ "content-type")

end RequestHeaders

namespace Fetch

/-- A URL without the blanks, the angle brackets and the mark that may surround it in text. -/
def unwrap (text : List Char) : List Char :=
  let text := Text.strip text
  let text := match text with
    | '<' :: rest => if rest.getLast? = some '>' then Text.strip rest.dropLast else text
    | _ => text
  match text with
  | 'U' :: 'R' :: 'L' :: ':' :: rest => Text.strip rest
  | _ => text

/-- A URL to request: its text, its scheme and its host, which may be empty. -/
structure Target where
  url : List Char
  scheme : List Char
  host : List Char

/-- Reads the target of a request; an empty fragment is dropped with its mark. -/
def target (text : List Char) : Except UrlError Target :=
  let url := unwrap text
  let fragment := Url.afterLast '#' url
  let url := if url.contains '#' && fragment.isEmpty then url.dropLast else url
  let locator := if url.contains '#' then url.take (url.length - fragment.length - 1) else url
  let (scheme, rest) := locator.span fun c => c ≠ ':' && c ≠ '/'
  match rest with
  | ':' :: rest =>
    if scheme.isEmpty then .error (.unknownType (String.ofList url))
    else .ok ⟨url, Text.lower scheme, (Url.splitAuthority rest).1⟩
  | _ => .error (.unknownType (String.ofList url))

/-- Reads the target of a first request, which must be a URL in all its parts. -/
def firstTarget (text : List Char) : Except UrlError Target := do
  let goal ← target text
  let _ ← Url.parse goal.url
  return goal

def isRedirection (status : Nat) : Bool := [301, 302, 303, 307, 308].contains status

def isSuccess (status : Nat) : Bool := 200 ≤ status && status < 300

/-- The schemes to which a redirection may lead; one without a scheme stays at the current one. -/
def followedSchemes : List String := ["http", "https", "ftp", ""]

/-- The URL that a redirection leads to from `current`; none if it may not be followed. -/
def redirectTarget (current : List Char) (location : String) :
    Except FetchError (Option (List Char)) := do
  let u ← (Url.parse location.toList).mapError .url
  if !followedSchemes.contains (String.ofList u.scheme) then return none
  let u := if u.path.isEmpty && !u.authority.isEmpty then { u with path := ['/'] } else u
  match EncodingError.first? "latin-1" 256 u.text with
  | some e => throw (.encoding e)
  | none =>
    let url ← (Url.join current (Url.percentEncode u.text)).mapError .url
    return some url

/-- A URL as it is requested after a redirection, where blanks of the current URL may be left. -/
def withoutBlanks (url : List Char) : List Char :=
  url.flatMap fun c => if c = ' ' then ['%', '2', '0'] else [c]

abbrev Visits := List (List Char × Nat)

def Visits.count (visits : Visits) (url : List Char) : Nat :=
  ((visits.find? (·.1 == url)).map (·.2)).getD 0

def Visits.add (visits : Visits) (url : List Char) : Visits :=
  if visits.any (·.1 == url) then
    visits.map fun visit => if visit.1 == url then (url, visit.2 + 1) else visit
  else visits ++ [(url, 1)]

/-- A URL is visited at most four times, and at most ten are. -/
def Visits.exhausted (visits : Visits) (url : List Char) : Bool :=
  4 ≤ visits.count url || 10 ≤ visits.length

/-- Requests a target and follows redirections. `origin` is the URL asked for, which faults name;
`fuel` bounds the number of requests, of which there are at most 41. -/
def exchange (origin : String) (certified : Bool) : (fuel : Nat) → RequestHeaders → Visits →
    Target → Network → Except FetchError Response × Network
  | 0, _, _, _, network => (.error (.http ⟨origin, 0, [], ""⟩), network)
  | fuel + 1, headers, visits, goal, network =>
    let unreachable (reason : String) :=
      FetchError.http ⟨origin, 0, [], "<urlopen error " ++ reason ++ ">"⟩
    let scheme := String.ofList goal.scheme
    if scheme ≠ "http" ∧ scheme ≠ "https" then
      (.error (unreachable ("unknown url type: " ++ scheme)), network)
    else if goal.host.isEmpty then (.error (unreachable "no host given"), network)
    else
      let url := String.ofList goal.url
      let (reply, network) := (network.record (.fetch url headers.recorded certified)).answer url
      match reply with
      | .failure failure =>
        match failure.fault with
        | .system e => (.error (unreachable e.message), network)
        | fault => (.error (.connection fault), network)
      | .response status replyHeaders body cut =>
        let refused := FetchError.http ⟨origin, status, replyHeaders.firstValues, ""⟩
        if isSuccess status then
          match cut with
          | some failure => (.error (.connection failure.fault), network)
          | none => (.ok ⟨status, body, replyHeaders.lastValues⟩, network)
        else if isRedirection status then
          match (replyHeaders.find? "location").or (replyHeaders.find? "uri") with
          | none => (.error refused, network)
          | some location =>
            match redirectTarget goal.url location with
            | .error e => (.error e, network)
            | .ok none => (.error refused, network)
            | .ok (some next) =>
              match target (withoutBlanks next) with
              | .error e => (.error (.url e), network)
              | .ok nextGoal =>
                if visits.exhausted next then (.error refused, network)
                else match cut with
                  | some failure => (.error (.connection failure.fault), network)
                  | none =>
                    exchange origin certified fuel headers.redirected (visits.add next) nextGoal
                      network
        else (.error refused, network)

end Fetch

/-- Fetches a document: a response of status 2xx, whose body must have the digest if one is given.
Further headers replace the launcher's own. -/
def Network.fetch (network : Network) (url : String) (headers : Members)
    (accept sha1 : Option String) : Except FetchError Response × Network :=
  match Fetch.firstTarget url.toList with
  | .error e => (.error (.url e), network)
  | .ok goal =>
    let own : Members := [("User-Agent", .string userAgent)]
    let own := match accept with
      | some accept => own.insert "Accept" (.string accept)
      | none => own
    let all := headers.foldl (fun all (name, value) => all.insert name value) own
    let certified := "https:".toList.isPrefixOf url.toList
    match Fetch.exchange url certified 64 (.ofMembers all) [] goal network with
    | (.error e, network) => (.error e, network)
    | (.ok response, network) =>
      match sha1 with
      | none => (.ok response, network)
      | some expected =>
        let actual := sha1Hex response.data
        if actual = expected then (.ok response, network)
        else (.error (.integrity ⟨url, .sha1, expected, actual⟩), network)

end Launcher
