import Launcher.Text.Quoted

/-! Texts with characters that an encoding of few code points does not have. -/
namespace Launcher

/-- The characters from `start` to before `stop` are beyond the code points of an encoding. -/
structure EncodingError where
  codec : String
  limit : Nat
  text : String
  start : Nat
  stop : Nat
  first : Char
  deriving DecidableEq, Repr

namespace EncodingError

def first? (codec : String) (limit : Nat) (text : List Char) : Option EncodingError :=
  let beyond (c : Char) := limit ≤ c.toNat
  match text.findIdx? (beyond ·) with
  | none => none
  | some start =>
    let run := (text.drop start).takeWhile (beyond ·)
    some ⟨codec, limit, String.ofList text, start, start + run.length, run.headD ' '⟩

def reason (e : EncodingError) : String := s!"ordinal not in range({e.limit})"

def message (e : EncodingError) : String :=
  let place :=
    if e.stop = e.start + 1 then
      "character '" ++ String.ofList (Text.codeEscape e.first.toNat) ++ s!"' in position {e.start}"
    else s!"characters in position {e.start}-{e.stop - 1}"
  s!"'{e.codec}' codec can't encode {place}: {e.reason}"

end EncodingError
end Launcher
