import Launcher.Text.Lower
import Launcher.Text.Quoted
import Launcher.Url.Address

/-! URLs by their parts. A fault of a URL is a value; its wording is `UrlError.message`. -/
namespace Launcher

inductive UrlError
  | misplacedBracket
  | futureAddress
  | bracketedAddress4
  | notAddress (host : String)
  | compatibilityCharacters (authority : String)
  | portNotNumber (port : String)
  | portTooLong (digits : Nat)
  | portOutOfRange
  | unsupportedScheme (scheme url : String)
  | missingHost (url : String)
  | unknownType (url : String)
  deriving DecidableEq, Repr

def UrlError.message : UrlError → String
  | .misplacedBracket => "Invalid IPv6 URL"
  | .futureAddress => "IPvFuture address is invalid"
  | .bracketedAddress4 => "An IPv4 address cannot be in brackets"
  | .notAddress host => Text.quoted host ++ " does not appear to be an IPv4 or IPv6 address"
  | .compatibilityCharacters authority =>
    "netloc '" ++ authority ++ "' contains invalid characters under NFKC normalization"
  | .portNotNumber port => "Port could not be cast to integer value as " ++ Text.quoted port
  | .portTooLong digits => Number.tooManyDigits digits
  | .portOutOfRange => "Port out of range 0-65535"
  | .unsupportedScheme scheme url => s!"unsupported scheme '{scheme}://' from url {url}"
  | .missingHost url => s!"missing host from url {url}"
  | .unknownType url => "unknown url type: " ++ Text.quoted url

/-- A URL `scheme://authority/path;parameters?query#fragment`; absent parts are empty. -/
structure Url where
  scheme : List Char
  authority : List Char
  path : List Char
  parameters : List Char
  query : List Char
  fragment : List Char
  deriving DecidableEq, Repr

namespace Url

/-- Drops control characters and spaces in front, and tabs and line ends everywhere. -/
def clean (text : List Char) : List Char :=
  (text.dropWhile fun c => c.toNat ≤ 0x20).filter fun c => c ≠ '\t' && c ≠ '\n' && c ≠ '\r'

def isSchemeChar (c : Char) : Bool :=
  c.isAlphanum || c = '+' || c = '-' || c = '.'

/-- The scheme in lower case and the text after its colon, if the text starts with one. -/
def splitScheme? (text : List Char) : Option (List Char × List Char) :=
  let (scheme, rest) := text.span (· ≠ ':')
  match rest with
  | ':' :: rest =>
    if (scheme.head?.map Char.isAlpha).getD false && scheme.all isSchemeChar then
      some (scheme.map Char.toLower, rest)
    else none
  | _ => none

def splitAuthority (text : List Char) : List Char × List Char :=
  match text with
  | '/' :: '/' :: rest => rest.span fun c => c ≠ '/' && c ≠ '?' && c ≠ '#'
  | _ => ([], text)

/-- The text before a character and the text after it, which is empty if there is none. -/
def cut (c : Char) (text : List Char) : List Char × List Char :=
  let (before, rest) := text.span (· ≠ c)
  (before, rest.drop 1)

/-- The text after the last occurrence of a character, all of it if there is none. -/
def afterLast (c : Char) (text : List Char) : List Char :=
  (text.reverse.takeWhile (· ≠ c)).reverse

/-- Characters whose compatibility forms hold a character that delimits the authority. -/
def foldsToDelimiter (c : Char) : Bool :=
  [0x2047, 0x2048, 0x2049, 0x2100, 0x2101, 0x2105, 0x2106, 0x2A74, 0xFE13, 0xFE16, 0xFE55, 0xFE56,
    0xFE5F, 0xFE6B, 0xFF03, 0xFF0F, 0xFF1A, 0xFF1F, 0xFF20].contains c.toNat

/-- The host in a location, which is an authority without user information. Nothing stands before
the bracket of a host in brackets, and nothing but a port behind the other one. -/
def splitHost (location : List Char) : Except UrlError (List Char) :=
  match location.span (· ≠ '[') with
  | (location, []) => .ok (cut ':' location).1
  | (before, _ :: bracketed) =>
    let (host, rest) := cut ']' bracketed
    if before.isEmpty && (rest.isEmpty || rest.head? = some ':') then .ok host
    else .error .misplacedBracket

/-- With brackets in an authority, its host must be an address of 16 bytes or of a form to come. -/
def checkAuthority (authority : List Char) : Except UrlError Unit := do
  if authority.contains '[' != authority.contains ']' then throw .misplacedBracket
  if authority.contains '[' then
    let host ← splitHost (afterLast '@' authority)
    if host.head? = some 'v' then
      if !isFutureAddress host then throw .futureAddress
    else if isAddress4 host then throw .bracketedAddress4
    else if !isAddress6 host then throw (.notAddress (String.ofList host))

def takesParameters (scheme : List Char) : Bool :=
  ["", "ftp", "hdl", "prospero", "http", "imap", "https", "shttp", "rtsp", "rtsps", "rtspu", "sip",
    "sips", "mms", "sftp", "tel"].contains (String.ofList scheme)

def takesAuthority (scheme : List Char) : Bool :=
  ["", "ftp", "http", "gopher", "nntp", "telnet", "imap", "wais", "file", "mms", "https", "shttp",
    "snews", "prospero", "rtsp", "rtsps", "rtspu", "rsync", "svn", "svn+ssh", "sftp", "nfs", "git",
    "git+ssh", "ws", "wss"].contains (String.ofList scheme)

def isRelative (scheme : List Char) : Bool :=
  ["", "ftp", "http", "gopher", "nntp", "imap", "wais", "file", "https", "shttp", "mms",
    "prospero", "rtsp", "rtsps", "rtspu", "sftp", "svn", "svn+ssh", "ws", "wss"].contains
    (String.ofList scheme)

/-- Cuts a path at the first semicolon of its last segment. -/
def splitParameters (path : List Char) : List Char × List Char :=
  let last := afterLast '/' path
  let (segment, parameters) := cut ';' last
  (path.take (path.length - last.length) ++ segment, parameters)

/-- Splits a URL, one without a scheme having the scheme given. -/
def parseUnder (scheme : List Char) (text : List Char) : Except UrlError Url := do
  let text := clean text
  let (scheme, rest) := (splitScheme? text).getD (scheme, text)
  let (authority, rest) := splitAuthority rest
  checkAuthority authority
  let (rest, fragment) := cut '#' rest
  let (path, query) := cut '?' rest
  if authority.any foldsToDelimiter then
    throw (.compatibilityCharacters (String.ofList authority))
  let (path, parameters) := if takesParameters scheme then splitParameters path else (path, [])
  return { scheme, authority, path, parameters, query, fragment }

def parse (text : List Char) : Except UrlError Url := parseUnder [] text

/-- The text of a URL; empty parts are left out with their delimiters. An empty authority has its
slashes if the scheme takes one, unless the path starts with two of its own. -/
def text (u : Url) : List Char :=
  let path := if u.parameters.isEmpty then u.path else u.path ++ ';' :: u.parameters
  let hasSlashes := !u.authority.isEmpty ||
    (!u.scheme.isEmpty && takesAuthority u.scheme && path.take 2 ≠ ['/', '/'])
  let path :=
    if hasSlashes then
      let path := if !path.isEmpty && path.head? ≠ some '/' then '/' :: path else path
      '/' :: '/' :: (u.authority ++ path)
    else path
  (if u.scheme.isEmpty then [] else u.scheme ++ [':']) ++ path ++
    (if u.query.isEmpty then [] else '?' :: u.query) ++
    (if u.fragment.isEmpty then [] else '#' :: u.fragment)

def hostAndPort (u : Url) : List Char × List Char :=
  let location := afterLast '@' u.authority
  if location.contains '[' then
    let (host, rest) := cut ']' (cut '[' location).2
    (host, (cut ':' rest).2)
  else cut ':' location

/-- The host in lower case, a zone after a percent sign being kept as written. -/
def host (u : Url) : List Char :=
  let (name, zone) := u.hostAndPort.1.span (· ≠ '%')
  Text.lower name ++ zone

def port (u : Url) : Except UrlError (Option Nat) :=
  let port := u.hostAndPort.2
  if port.isEmpty then .ok none
  else if port.all Number.isDigit then
    let n := Number.digitsValue port
    if Number.maxDigits < port.length then .error (.portTooLong port.length)
    else if n ≤ 65535 then .ok (some n) else .error .portOutOfRange
  else .error (.portNotNumber (String.ofList port))

end Url
end Launcher
