import Launcher.Json.Parser
import Launcher.Json.Printer

/-! String literals of JSON texts. A text is printed in ASCII, other characters as escapes of their
units of UTF-16, and is read as itself. -/
namespace Launcher.Json
open Number (hexValue?)

section Hex

theorem hexValue?_hexDigit {n : Nat} (small : n < 16) : hexValue? (Bytes.hexDigit n) = some n := by
  have all : ∀ n : Fin 16, hexValue? (Bytes.hexDigit n) = some n.val := by decide
  exact all ⟨n, small⟩

theorem hexDigits_four (n : Nat) : Text.hexDigits n 4 =
    [Bytes.hexDigit (n / 4096 % 16), Bytes.hexDigit (n / 256 % 16), Bytes.hexDigit (n / 16 % 16),
      Bytes.hexDigit (n % 16)] := by
  simp [Text.hexDigits, List.range_succ]

/-- Four digits are read as the number that they were printed for. -/
theorem hexQuad?_hexDigits {n : Nat} (small : n < 0x10000) :
    Parser.hexQuad? (Text.hexDigits n 4) = some n := by
  rw [hexDigits_four]
  simp only [Parser.hexQuad?, hexValue?_hexDigit (Nat.mod_lt _ (by decide : 0 < 16)),
    Option.bind_eq_bind, Option.bind_some, Option.pure_def, Option.some.injEq]
  omega

end Hex

namespace Parser
variable {opening fuel : Nat} {tail done : List Char} {c : Char}

theorem take_hexDigits (n : Nat) (more : List Char) :
    (Text.hexDigits n 4 ++ more).take 4 = Text.hexDigits n 4 :=
  List.take_left' (by simp [Text.hexDigits])

theorem drop_hexDigits (n : Nat) (more : List Char) :
    (Text.hexDigits n 4 ++ more).drop 4 = more :=
  List.drop_left' (by simp [Text.hexDigits])

theorem length_hexDigits (n : Nat) (more : List Char) :
    (Text.hexDigits n 4 ++ more).length = more.length + 4 := by
  simp [Text.hexDigits, Nat.add_comm]

/-- One escape is read as the character of its unit, unless that starts a pair. -/
theorem stringRest_unitEscape {n : Nat} (small : n < 0x10000)
    (single : Encoding.isHighSurrogate n = false) (more : tail ≠ []) :
    stringRest opening (fuel + 1) (unitEscape n ++ tail) done =
      stringRest opening fuel tail (Encoding.ofCodePoint n :: done) := by
  have long : 0 < tail.length := List.length_pos_iff.mpr more
  rw [unitEscape, List.cons_append, List.cons_append, stringRest]
  simp only [reduceCtorEq, if_false, if_true, take_hexDigits, drop_hexDigits, length_hexDigits,
    hexQuad?_hexDigits small, single]
  rw [if_neg (by decide), if_neg (by omega)]

theorem lowSurrogate?_unitEscape {low : Nat} (second : Encoding.isLowSurrogate low = true)
    (more : tail ≠ []) : lowSurrogate? (unitEscape low ++ tail) = .ok (some low) := by
  have long : 0 < tail.length := List.length_pos_iff.mpr more
  have small : low < 0x10000 := by
    simp only [Encoding.isLowSurrogate, Bool.and_eq_true, decide_eq_true_eq] at second
    omega
  simp only [lowSurrogate?, unitEscape, List.cons_append, take_hexDigits, length_hexDigits,
    hexQuad?_hexDigits small, second, if_true]
  rw [if_neg (by omega)]

/-- Two escapes are read as the character that their units make. -/
theorem stringRest_pair {high low : Nat} (first : Encoding.isHighSurrogate high = true)
    (second : Encoding.isLowSurrogate low = true) (more : tail ≠ []) :
    stringRest opening (fuel + 1) (unitEscape high ++ (unitEscape low ++ tail)) done =
      stringRest opening fuel tail (Encoding.joinSurrogates high low :: done) := by
  have small : high < 0x10000 := by
    simp only [Encoding.isHighSurrogate, Bool.and_eq_true, decide_eq_true_eq] at first
    omega
  have behind := lowSurrogate?_unitEscape second more
  have beyond : (Text.hexDigits high 4 ++ (unitEscape low ++ tail)).drop 10 = tail := by
    rw [← List.drop_drop (i := 6) (j := 4), drop_hexDigits, unitEscape, List.cons_append,
      List.cons_append]
    exact drop_hexDigits low tail
  have long : 0 < (unitEscape low ++ tail).length := by simp [unitEscape]
  rw [unitEscape, List.cons_append, List.cons_append, stringRest]
  simp only [if_true, take_hexDigits, drop_hexDigits, length_hexDigits, hexQuad?_hexDigits small,
    first, behind, beyond]
  rw [if_neg (by decide), if_neg (by omega)]

/-- The number of a character is no surrogate. -/
theorem ofCodePoint_toNat (c : Char) : Encoding.isHighSurrogate c.toNat = false ∧
    Encoding.ofCodePoint c.toNat = c := by
  have valid : c.toNat < 0xD800 ∨ 0xDFFF < c.toNat ∧ c.toNat < 0x110000 := c.valid
  have high : Encoding.isHighSurrogate c.toNat = false := by
    simp only [Encoding.isHighSurrogate, Bool.and_eq_false_iff, decide_eq_false_iff_not]
    omega
  have low : Encoding.isLowSurrogate c.toNat = false := by
    simp only [Encoding.isLowSurrogate, Bool.and_eq_false_iff, decide_eq_false_iff_not]
    omega
  refine ⟨high, ?_⟩
  simp [Encoding.ofCodePoint, high, low]

theorem joinSurrogates_toNat {c : Char} (wide : 0x10000 ≤ c.toNat) :
    Encoding.isHighSurrogate (0xD800 + (c.toNat - 0x10000) / 0x400) = true ∧
      Encoding.isLowSurrogate (0xDC00 + (c.toNat - 0x10000) % 0x400) = true ∧
      Encoding.joinSurrogates (0xD800 + (c.toNat - 0x10000) / 0x400)
        (0xDC00 + (c.toNat - 0x10000) % 0x400) = c := by
  have valid : c.toNat < 0xD800 ∨ 0xDFFF < c.toNat ∧ c.toNat < 0x110000 := c.valid
  refine ⟨?_, ?_, ?_⟩
  · simp only [Encoding.isHighSurrogate, Bool.and_eq_true, decide_eq_true_eq]
    omega
  · simp only [Encoding.isLowSurrogate, Bool.and_eq_true, decide_eq_true_eq]
    omega
  · have whole : 0x10000 + (0xD800 + (c.toNat - 0x10000) / 0x400 - 0xD800) * 0x400 +
        (0xDC00 + (c.toNat - 0x10000) % 0x400 - 0xDC00) = c.toNat := by omega
    rw [Encoding.joinSurrogates, whole, Char.ofNat_toNat]

/-- What is printed for a character is read as it. -/
theorem stringRest_escapedChar (c : Char) (more : tail ≠ []) :
    stringRest opening (fuel + 1) (escapedChar c ++ tail) done =
      stringRest opening fuel tail (c :: done) := by
  unfold escapedChar
  split
  · rename_i letter named
    unfold escapeLetter? at named
    split at named
    all_goals
      cases named
      try simp [stringRest, escaped?]
  · rename_i unnamed
    split
    · rename_i visible
      have quote : c ≠ '"' := by
        rintro rfl
        cases unnamed
      have backslash : c ≠ '\\' := by
        rintro rfl
        cases unnamed
      have control : ¬ c.toNat < 0x20 := by simp_all
      simp only [List.singleton_append, stringRest, quote, backslash, control, if_false]
    · split
      · rename_i narrow
        obtain ⟨single, same⟩ := ofCodePoint_toNat c
        rw [stringRest_unitEscape narrow single more, same]
      · rename_i wide
        obtain ⟨high, low, same⟩ := joinSurrogates_toNat (Nat.not_lt.mp wide)
        rw [List.append_assoc, stringRest_pair high low more, same]

/-- What is printed for characters is read as them, up to the closing quote. -/
theorem stringRest_escaped (text rest : List Char) :
    stringRest opening (text.length + 1 + fuel) (text.flatMap escapedChar ++ '"' :: rest) done =
      .ok (String.ofList (done.reverse ++ text), rest) := by
  induction text generalizing done with
  | nil => simp [stringRest, Nat.add_comm 1]
  | cons c text ih =>
    rw [List.flatMap_cons, List.append_assoc, List.length_cons, Nat.add_right_comm text.length 1 1,
      Nat.add_right_comm _ 1 fuel, stringRest_escapedChar c (by simp), ih]
    simp

theorem escapedChar_ne_nil (c : Char) : escapedChar c ≠ [] := by
  unfold escapedChar
  split
  · simp
  · split
    · simp
    · split <;> simp [unitEscape]

theorem length_le_escaped (text : List Char) :
    text.length ≤ (text.flatMap escapedChar).length := by
  induction text with
  | nil => simp
  | cons c text ih =>
    have one := List.length_pos_iff.mpr (escapedChar_ne_nil c)
    simp only [List.flatMap_cons, List.length_append, List.length_cons]
    omega

/-- A printed string is read as itself. -/
theorem stringLiteral_renderString (s : String) (rest : List Char) :
    ∃ printed, renderString s = '"' :: printed ∧
      stringLiteral (printed ++ rest) = .ok (s, rest) := by
  refine ⟨s.toList.flatMap escapedChar ++ ['"'], rfl, ?_⟩
  have enough := length_le_escaped s.toList
  have length : (s.toList.flatMap escapedChar ++ ['"'] ++ rest).length + 1 = s.toList.length + 1 +
      ((s.toList.flatMap escapedChar).length - s.toList.length + rest.length + 1) := by
    simp only [List.length_append, List.length_cons, List.length_nil]
    omega
  rw [stringLiteral, length, List.append_assoc, List.singleton_append, stringRest_escaped]
  simp

end Parser
end Launcher.Json
