import Launcher.Digest.Sha1

/-! Texts of digests, and the fault of content that is not what was declared. -/
namespace Launcher

def isHexLower (c : Char) : Bool := ('0' ≤ c && c ≤ '9') || ('a' ≤ c && c ≤ 'f')

/-- Whether a text is taken for a SHA-1: forty lower-case hexadecimal digits, which one line end
may follow. -/
def isSha1 (text : String) : Bool :=
  let digits := text.toList
  let digits := if digits.getLast? = some '\n' then digits.dropLast else digits
  digits.length = 40 && digits.all isHexLower

inductive IntegrityKind
  | sha1
  | size
  deriving DecidableEq, Repr

/-- Content of `subject`, a file or a URL, whose digest or size is not the expected one. -/
structure IntegrityError where
  subject : String
  kind : IntegrityKind
  expected : String
  actual : String
  deriving DecidableEq, Repr

def IntegrityError.message (e : IntegrityError) : String :=
  let kind := match e.kind with
    | .sha1 => "sha1"
    | .size => "size"
  s!"{e.subject}: expected {kind} {e.expected}, got {e.actual}"

end Launcher
