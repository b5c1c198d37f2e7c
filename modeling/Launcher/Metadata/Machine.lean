import Launcher.Metadata.Rule

/-! The machine on which the launcher runs, and how its own words for itself are understood. -/
namespace Launcher

structure Machine where
  platform : Platform
  processors : Option Int
  deriving Repr

namespace Platform

def osOf (system : String) : Option String :=
  [("Linux", "linux"), ("Windows", "windows"), ("Darwin", "osx"), ("FreeBSD", "freebsd")].lookup
    system

/-- The name that metadata have for an architecture, letter case aside. -/
def archOf (machine : List Char) : Option String :=
  [("i386", "x86"), ("i686", "x86"), ("x86_64", "x86_64"), ("amd64", "x86_64"),
    ("arm64", "arm64"), ("aarch64", "arm64"), ("armv7l", "arm32"), ("armv6l", "arm32")].lookup
    (String.ofList machine)

def bitsOf (width : String) : Option Int := [("64bit", 64), ("32bit", 32)].lookup width

def jvmOf (system : String) : String := if system = "Windows" then "javaw.exe" else "java"

end Platform
end Launcher
