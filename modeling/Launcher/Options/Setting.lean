/-! What an option leaves behind: nothing if it is not given, else its value, or no value at all if
it is cleared by two minus signs in the place of one. -/
namespace Launcher

inductive Setting (α : Type)
  | unset
  | cleared
  | given (value : α)
  deriving DecidableEq, Repr

/-- The options that are of no use without a value once they are given. -/
inductive NeededOption
  | output
  | mainDir
  | timeout
  | workDir
  | jvm
  | jvmArgs
  | gameArgs
  deriving DecidableEq, Repr

namespace Setting

variable {α : Type}

def isCleared : Setting α → Bool
  | .cleared => true
  | _ => false

def value? : Setting α → Option α
  | .given value => some value
  | _ => none

/-- The value of an option that must not be cleared, none if it is not given. -/
def needed (s : Setting α) (option : NeededOption) : Except NeededOption (Option α) :=
  if s.isCleared then .error option else .ok s.value?

end Setting
end Launcher
