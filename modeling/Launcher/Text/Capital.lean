import Launcher.Text.Lower

/-! Texts with a capital letter in front and all others in lower case. -/
namespace Launcher.Text

/-- The capitals of lower-case letters that share theirs with another letter or have several letters
for it. -/
def specialCapitals : List (Nat × List Nat) := [
  (0xB5, [0x39C]), (0xDF, [0x53, 0x73]), (0x131, [0x49]), (0x149, [0x2BC, 0x4E]), (0x17F, [0x53]),
  (0x1C4, [0x1C5]), (0x1C6, [0x1C5]), (0x1C7, [0x1C8]), (0x1C9, [0x1C8]), (0x1CA, [0x1CB]),
  (0x1CC, [0x1CB]), (0x1F0, [0x4A, 0x30C]), (0x1F1, [0x1F2]), (0x1F3, [0x1F2]), (0x345, [0x399]),
  (0x390, [0x399, 0x308, 0x301]), (0x3B0, [0x3A5, 0x308, 0x301]), (0x3C2, [0x3A3]),
  (0x3D0, [0x392]), (0x3D1, [0x398]), (0x3D5, [0x3A6]), (0x3D6, [0x3A0]), (0x3F0, [0x39A]),
  (0x3F1, [0x3A1]), (0x3F5, [0x395]), (0x587, [0x535, 0x582]), (0x1C80, [0x412]),
  (0x1C81, [0x414]), (0x1C82, [0x41E]), (0x1C83, [0x421]), (0x1C84, [0x422]), (0x1C85, [0x422]),
  (0x1C86, [0x42A]), (0x1C87, [0x462]), (0x1C88, [0xA64A]), (0x1E96, [0x48, 0x331]),
  (0x1E97, [0x54, 0x308]), (0x1E98, [0x57, 0x30A]), (0x1E99, [0x59, 0x30A]),
  (0x1E9A, [0x41, 0x2BE]), (0x1E9B, [0x1E60]), (0x1F50, [0x3A5, 0x313]),
  (0x1F52, [0x3A5, 0x313, 0x300]), (0x1F54, [0x3A5, 0x313, 0x301]),
  (0x1F56, [0x3A5, 0x313, 0x342]), (0x1FB2, [0x1FBA, 0x345]), (0x1FB4, [0x386, 0x345]),
  (0x1FB6, [0x391, 0x342]), (0x1FB7, [0x391, 0x342, 0x345]), (0x1FBE, [0x399]),
  (0x1FC2, [0x1FCA, 0x345]), (0x1FC4, [0x389, 0x345]), (0x1FC6, [0x397, 0x342]),
  (0x1FC7, [0x397, 0x342, 0x345]), (0x1FD2, [0x399, 0x308, 0x300]),
  (0x1FD3, [0x399, 0x308, 0x301]), (0x1FD6, [0x399, 0x342]), (0x1FD7, [0x399, 0x308, 0x342]),
  (0x1FE2, [0x3A5, 0x308, 0x300]), (0x1FE3, [0x3A5, 0x308, 0x301]), (0x1FE4, [0x3A1, 0x313]),
  (0x1FE6, [0x3A5, 0x342]), (0x1FE7, [0x3A5, 0x308, 0x342]), (0x1FF2, [0x1FFA, 0x345]),
  (0x1FF4, [0x38F, 0x345]), (0x1FF6, [0x3A9, 0x342]), (0x1FF7, [0x3A9, 0x342, 0x345]),
  (0xFB00, [0x46, 0x66]), (0xFB01, [0x46, 0x69]), (0xFB02, [0x46, 0x6C]),
  (0xFB03, [0x46, 0x66, 0x69]), (0xFB04, [0x46, 0x66, 0x6C]), (0xFB05, [0x53, 0x74]),
  (0xFB06, [0x53, 0x74]), (0xFB13, [0x544, 0x576]), (0xFB14, [0x544, 0x565]),
  (0xFB15, [0x544, 0x56B]), (0xFB16, [0x54E, 0x576]), (0xFB17, [0x544, 0x56D])]

/-- Whether a letter stays as it is at the front of a text, though it has an upper-case form. -/
def isUnicase (c : Char) : Bool :=
  (0x10D0 ≤ c.toNat && c.toNat ≤ 0x10FA) || (0x10FD ≤ c.toNat && c.toNat ≤ 0x10FF)

/-- The upper-case letters whose lower-case form is this character, by their codes in order. -/
def upperCodes (c : Char) : List Nat :=
  upperRuns.filterMap fun (first, last, step, distance) =>
    let code := (c.toNat : Int) - distance
    if first ≤ code && code ≤ last && (code - first) % step = 0 then some code.toNat else none

/-- A character as it stands at the front of a text. -/
def capitalChar (c : Char) : List Char :=
  if c.toNat < 0x80 then [c.toUpper]
  else match specialCapitals.lookup c.toNat with
    | some codes => codes.map Char.ofNat
    | none =>
      if isUnicase c then [c]
      else match upperCodes c with
        | code :: _ => [Char.ofNat code]
        | [] => [c]

/-- A text with a capital in front, what follows it being in lower case. -/
def capitalize : List Char → List Char
  | [] => []
  | c :: rest => capitalChar c ++ lowerFrom (!isPassedOver c && isCased c) rest

/-- Lower-case letters of which one has the same upper-case form as another. -/
def alikeLetters : List (List Nat) := [
  [0x69, 0x131], [0x73, 0x17F], [0xB5, 0x3BC], [0x345, 0x3B9, 0x1FBE], [0x390, 0x1FD3],
  [0x3B0, 0x1FE3], [0x3B2, 0x3D0], [0x3B5, 0x3F5], [0x3B8, 0x3D1], [0x3BA, 0x3F0], [0x3C0, 0x3D6],
  [0x3C1, 0x3F1], [0x3C2, 0x3C3], [0x3C6, 0x3D5], [0x432, 0x1C80], [0x434, 0x1C81],
  [0x43E, 0x1C82], [0x441, 0x1C83], [0x442, 0x1C84, 0x1C85], [0x44A, 0x1C86], [0x463, 0x1C87],
  [0x1C88, 0xA64B], [0x1E61, 0x1E9B], [0xFB05, 0xFB06]]

/-- The codes of all letters that a letter is the same as if case does not count. -/
def variants (c : Char) : List Nat :=
  let small := (lowerChar c).headD c
  let alike := (alikeLetters.find? (·.contains small.toNat)).getD [small.toNat]
  alike ++ alike.flatMap fun code =>
    (if 0x61 ≤ code && code ≤ 0x7A then [code - 32] else []) ++
      (if code = 0x69 then [0x130] else []) ++ upperCodes (Char.ofNat code)

end Launcher.Text
