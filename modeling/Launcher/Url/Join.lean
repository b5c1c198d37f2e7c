import Launcher.Url.Basic

/-! References resolved against a base URL, and percent-encoding. -/
namespace Launcher.Url

open Text (splitOn joinWith)

/-- Walks path segments: a single dot stays, two dots go back one segment if there is one. -/
def resolveDots (segments : List (List Char)) : List (List Char) :=
  segments.foldl (fun done segment =>
    if segment = ['.', '.'] then done.dropLast
    else if segment = ['.'] then done
    else done ++ [segment]) []

/-- The path of a reference that has one, after the base's last directory if it is relative. -/
def mergePaths (base path : List Char) : List Char :=
  let segments :=
    if path.head? = some '/' then splitOn '/' path
    else
      let directory := splitOn '/' base
      let directory := if directory.getLast? = some [] then directory else directory.dropLast
      match directory ++ splitOn '/' path with
      | [] => []
      | first :: rest => first :: (rest.dropLast.filter (! ·.isEmpty) ++ rest.getLast?.toList)
  let resolved := resolveDots segments
  let resolved :=
    if segments.getLast? = some ['.'] || segments.getLast? = some ['.', '.'] then resolved ++ [[]]
    else resolved
  let joined := joinWith '/' resolved
  if joined.isEmpty then ['/'] else joined

def join (base reference : List Char) : Except UrlError (List Char) := do
  if base.isEmpty then return reference
  if reference.isEmpty then return base
  let b ← parse base
  let r ← parseUnder b.scheme reference
  if r.scheme ≠ b.scheme || !isRelative r.scheme then return reference
  if takesAuthority r.scheme && !r.authority.isEmpty then return r.text
  let authority := if takesAuthority r.scheme then b.authority else r.authority
  if r.path.isEmpty && r.parameters.isEmpty then
    return text { r with
      authority
      path := b.path
      parameters := b.parameters
      query := if r.query.isEmpty then b.query else r.query }
  return text { r with authority, path := mergePaths b.path r.path }

/-- Characters that percent-encoding leaves: ASCII letters, digits and punctuation. -/
def isPlain (c : Char) : Bool := 0x20 < c.toNat && c.toNat < 0x7F

def upperHex (n : Nat) : Char := (Bytes.hexDigit n).toUpper

/-- Percent-encodes the characters that are not plain, each as one byte. -/
def percentEncode (text : List Char) : List Char :=
  text.flatMap fun c =>
    if isPlain c then [c] else ['%', upperHex (c.toNat / 16 % 16), upperHex (c.toNat % 16)]

end Launcher.Url
