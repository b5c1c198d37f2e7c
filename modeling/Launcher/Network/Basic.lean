import Launcher.Files.SystemError
import Launcher.Json.Basic
import Launcher.Text.Lower

/-! The network as a script: which replies every URL has left, and what was done so far. A reply
either fails before any response, or is a response whose body may break off. -/
namespace Launcher

/-- Faults of an exchange of messages that the system knows nothing of. -/
inductive ExchangeError
  | incompleteRead
  | badStatusLine
  | controlChar (text : String) (char : Char)
  | portNotNumber (port : String)
  deriving DecidableEq, Repr

def ExchangeError.message : ExchangeError → String
  | .incompleteRead => "IncompleteRead(0 bytes read)"
  | .badStatusLine => "garbage"
  | .controlChar text char =>
    "URL can't contain control characters. " ++ Text.quoted text ++ " (found at least " ++
      Text.quoted (String.singleton char) ++ ")"
  | .portNotNumber port => "nonnumeric port: '" ++ port ++ "'"

inductive ConnectionFailure
  | refused
  | reset
  | timedOut
  | unknownHost
  | incomplete
  | badStatus
  | interrupted
  deriving DecidableEq, Repr

inductive ConnectionFault
  | system (error : SystemError)
  | exchange (error : ExchangeError)
  | interrupted
  deriving DecidableEq, Repr

def ConnectionFailure.fault : ConnectionFailure → ConnectionFault
  | .refused => .system .refused
  | .reset => .system .reset
  | .timedOut => .system .timedOut
  | .unknownHost => .system .unknownHost
  | .incomplete => .exchange .incompleteRead
  | .badStatus => .exchange .badStatusLine
  | .interrupted => .interrupted

/-- Names and values, in the order in which they were written. -/
abbrev Headers := List (String × String)

namespace Headers

def sameName (a b : String) : Bool := Text.lower a.toList == Text.lower b.toList

/-- The first value of a name, letter case aside. -/
def find? (headers : Headers) (name : String) : Option String :=
  (List.find? (fun header => sameName header.1 name) headers).map (·.2)

/-- One value for every name as written: the last one. -/
def lastValues (headers : Headers) : Headers :=
  headers.foldl (fun done (name, value) =>
    if done.any (·.1 == name) then
      done.map fun header => if header.1 == name then (name, value) else header
    else done ++ [(name, value)]) []

/-- One value for every name as written: the first one of that name, letter case aside. -/
def firstValues (headers : Headers) : Headers :=
  headers.foldl (fun done (name, value) =>
    if done.any (·.1 == name) then done
    else done ++ [(name, (find? headers name).getD value)]) []

end Headers

/-- What comes back for a request. A response that is cut off has the bytes that came before. -/
inductive Reply
  | failure (failure : ConnectionFailure)
  | response (status : Nat) (headers : Headers) (body : Bytes) (cut : Option ConnectionFailure)
  deriving DecidableEq, Repr

def Reply.notFound : Reply := .response 404 [] [] none

/-- What the network records: a document fetched with its headers and whether the launcher's
certificates were used, a request on a numbered connection, and the closing of one. -/
inductive NetworkEvent
  | fetch (url : String) (headers : List (String × Json)) (certified : Bool)
  | request (connection : Nat) (url : String)
  | close (connection : Nat)
  deriving Repr

structure Network where
  routes : List (String × List Reply)
  log : List NetworkEvent
  connections : Nat
  deriving Repr

namespace Network

def empty : Network := ⟨[], [], 0⟩

/-- The next reply of a list, and the list after it; the last reply repeats. -/
def nextReply : List Reply → Reply × List Reply
  | [] => (.notFound, [])
  | [reply] => (reply, [reply])
  | reply :: rest => (reply, rest)

def answer (network : Network) (url : String) : Reply × Network :=
  match network.routes.find? (·.1 == url) with
  | none => (.notFound, network)
  | some (_, replies) =>
    let (reply, rest) := nextReply replies
    (reply, { network with
      routes := network.routes.map fun route => if route.1 == url then (url, rest) else route })

def record (network : Network) (event : NetworkEvent) : Network :=
  { network with log := network.log ++ [event] }

end Network
end Launcher
