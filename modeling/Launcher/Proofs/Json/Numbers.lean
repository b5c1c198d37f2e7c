import Launcher.Json.Parser
import Launcher.Json.Printer
import Launcher.Proofs.Number.Shortest

/-! Numbers of JSON texts. What is printed for an integer or a double is read as that number, if a
comma or a closing bracket stands behind it or the text ends. -/
namespace Launcher.Json
open Number (isDigit digitsValue exponent? maxDigits)

/-- What may stand behind a value that is printed. -/
def Follows (rest : List Char) : Prop := ∀ c ∈ rest.head?, c = ',' ∨ c = ']' ∨ c = '}'

namespace Follows
variable {rest : List Char}

theorem not_isDigit (follows : Follows rest) : ∀ c ∈ rest.head?, ¬ isDigit c := by
  intro c first
  rcases follows c first with rfl | rfl | rfl <;> decide

theorem exponent? (follows : Follows rest) : Number.exponent? rest = none := by
  rcases rest with _ | ⟨c, rest⟩
  · rfl
  · rcases follows c rfl with rfl | rfl | rfl <;> rfl

end Follows

/-- A number as it is written: a sign, digits before and behind a point, and an exponent. -/
structure Numeral where
  negative : Bool
  whole : List Char
  places : List Char
  power : Option (Bool × List Char)

namespace Numeral

def placesText (places : List Char) : List Char := if places = [] then [] else '.' :: places

def powerText : Option (Bool × List Char) → List Char
  | none => []
  | some (negative, digits) => 'e' :: (if negative then '-' else '+') :: digits

def text (n : Numeral) : List Char :=
  (if n.negative then ['-'] else []) ++ (n.whole ++ (placesText n.places ++ powerText n.power))

def powerValue : Option (Bool × List Char) → Int
  | none => 0
  | some (negative, digits) => if negative then -(digitsValue digits : Int) else digitsValue digits

/-- An integer if there is neither a point nor an exponent, else a double. -/
def value (n : Numeral) : Json :=
  if n.places = [] ∧ n.power = none then
    .int (if n.negative then -(digitsValue n.whole : Int) else digitsValue n.whole)
  else
    .float (Binary64.ofDecimal n.negative (digitsValue (n.whole ++ n.places))
      (powerValue n.power - n.places.length))

/-- A numeral that can be read: before the point stands a zero, or digits that start with none, and
an integer is not too long. -/
structure IsProper (n : Numeral) : Prop where
  whole : n.whole ≠ []
  first : n.whole = ['0'] ∨ n.whole.head? ≠ some '0'
  wholeDigits : ∀ c ∈ n.whole, isDigit c
  placesDigits : ∀ c ∈ n.places, isDigit c
  power : ∀ power ∈ n.power, power.2 ≠ [] ∧ ∀ c ∈ power.2, isDigit c
  short : n.places = [] → n.power = none → n.whole.length ≤ maxDigits

variable {digits places tail rest : List Char}

theorem integerDigits_append (nonempty : digits ≠ [])
    (first : digits = ['0'] ∨ digits.head? ≠ some '0') (decimal : ∀ c ∈ digits, isDigit c)
    (ended : ∀ c ∈ tail.head?, ¬ isDigit c) :
    Parser.integerDigits (digits ++ tail) = (digits, tail) := by
  rcases first with rfl | first
  · rfl
  · obtain ⟨c, rest, rfl⟩ := List.exists_cons_of_ne_nil nonempty
    have other : c ≠ '0' := by simpa using first
    rw [List.cons_append, Parser.integerDigits.eq_2]
    · exact Number.span_digits decimal ended
    · rintro _ ⟨⟩
      exact other rfl

theorem fraction_append (decimal : ∀ c ∈ places, isDigit c)
    (ended : ∀ c ∈ tail.head?, ¬ isDigit c ∧ c ≠ '.') :
    Parser.fraction (placesText places ++ tail) = (places, tail) := by
  rcases places with _ | ⟨c, places⟩
  · rcases tail with _ | ⟨c, tail⟩
    · rfl
    · have other : c ≠ '.' := (ended c rfl).2
      simp [placesText, Parser.fraction, other]
  · have digit := decimal c List.mem_cons_self
    simp only [placesText, Parser.fraction, reduceCtorEq, if_false, List.cons_append,
      List.head?_cons, Option.map_some, digit, Option.getD_some, if_true]
    exact Number.span_digits decimal fun c first => (ended c first).1

theorem exponent?_append (negative : Bool) (nonempty : digits ≠ [])
    (decimal : ∀ c ∈ digits, isDigit c) (ended : ∀ c ∈ tail.head?, ¬ isDigit c) :
    exponent? (powerText (some (negative, digits)) ++ tail) =
      some (powerValue (some (negative, digits)), tail) := by
  have cut := Number.span_digits decimal ended
  have filled : digits.isEmpty = false := by simpa using nonempty
  cases negative
  all_goals simp only [powerText, powerValue, List.cons_append, exponent?, cut, filled,
    Bool.false_eq_true, if_false, if_true, decide_true, Bool.true_or]

variable {n : Numeral}

theorem power_ended (follows : Follows rest) (power : Option (Bool × List Char)) :
    ∀ c ∈ (powerText power ++ rest).head?, ¬ isDigit c ∧ c ≠ '.' := by
  intro c first
  rcases power with _ | ⟨negative, digits⟩
  · refine ⟨follows.not_isDigit c first, ?_⟩
    rintro rfl
    rcases follows _ first with h | h | h <;> cases h
  · cases first
    decide

theorem places_ended (follows : Follows rest) (places : List Char)
    (power : Option (Bool × List Char)) :
    ∀ c ∈ (placesText places ++ (powerText power ++ rest)).head?, ¬ isDigit c := by
  intro c first
  rcases places with _ | ⟨d, places⟩
  · exact (power_ended follows power c first).1
  · cases first
    decide

/-- Reading goes on behind the sign. -/
theorem number_sign (negative : Bool) {text whole tail places rest : List Char}
    (unsigned : ∀ more, text ≠ '-' :: more) (integer : Parser.integerDigits text = (whole, tail))
    (nonempty : whole ≠ []) (fractional : Parser.fraction tail = (places, rest)) :
    Parser.number ((if negative then ['-'] else []) ++ text) = match exponent? rest with
      | some (power, rest) =>
        .ok (.float (Binary64.ofDecimal negative (digitsValue (whole ++ places))
          (power - places.length)), rest)
      | none =>
        if places.isEmpty then
          if maxDigits < whole.length then .error (.tooLong whole.length)
          else .ok (.int (if negative then -(digitsValue whole : Int) else digitsValue whole), rest)
        else
          .ok (.float (Binary64.ofDecimal negative (digitsValue (whole ++ places))
            (-(places.length : Int))), rest) := by
  have filled : whole.isEmpty = false := by simpa using nonempty
  unfold Parser.number
  cases negative
  case false =>
    rcases found : exponent? rest with _ | ⟨power, rest'⟩
    all_goals simp only [Bool.false_eq_true, if_false, List.nil_append, integer, filled, fractional,
      found]
  case true =>
    rcases found : exponent? rest with _ | ⟨power, rest'⟩
    all_goals simp only [if_true, List.singleton_append, integer, filled, fractional,
      Bool.false_eq_true, if_false, found]

/-- A numeral is read as its value. -/
theorem number_text (proper : n.IsProper) (follows : Follows rest) :
    Parser.number (n.text ++ rest) = .ok (n.value, rest) := by
  have integer := integerDigits_append proper.whole proper.first proper.wholeDigits
    (places_ended follows n.places n.power)
  have fractional := fraction_append proper.placesDigits (power_ended follows n.power)
  have unsigned (more : List Char) :
      n.whole ++ (placesText n.places ++ (powerText n.power ++ rest)) ≠ '-' :: more := by
    intro same
    obtain ⟨c, others, first⟩ := List.exists_cons_of_ne_nil proper.whole
    rw [first] at same
    cases same
    have digit := proper.wholeDigits '-' (by simp [first])
    contradiction
  rw [text, List.append_assoc, List.append_assoc, List.append_assoc,
    number_sign n.negative unsigned integer proper.whole fractional, value]
  rcases power : n.power with _ | ⟨minus, digits⟩
  · simp only [powerText, List.nil_append, follows.exponent?, powerValue, Int.zero_sub]
    by_cases whole : n.places = []
    · have short := Nat.not_lt.mpr (proper.short whole power)
      simp [whole, short]
    · simp [whole]
  · obtain ⟨some, decimal⟩ := proper.power _ power
    simp [exponent?_append minus some decimal follows.not_isDigit]

/-- The numeral of an integer. -/
def ofInt (n : Int) : Numeral := ⟨n < 0, Nat.toDigits 10 n.natAbs, [], none⟩

theorem text_ofInt (n : Int) : (intText n).toList = (ofInt n).text := by
  unfold intText ofInt text
  rw [Int.toString_eq_repr]
  cases n with
  | ofNat n => simp [Int.repr, Nat.repr, placesText, powerText]
  | negSucc n => simp [Int.repr, Nat.repr, placesText, powerText, Int.negSucc_lt_zero]

theorem value_ofInt (n : Int) : (ofInt n).value = .int n := by
  simp only [value, ofInt, and_self, if_true, Number.digitsValue_toDigits, decide_eq_true_eq]
  congr 1
  omega

theorem isProper_ofInt {n : Int} (short : (Nat.toDigits 10 n.natAbs).length ≤ maxDigits) :
    (ofInt n).IsProper where
  whole := Nat.toDigits_ne_nil
  first := by
    by_cases positive : n.natAbs = 0
    · exact .inl (by simp [ofInt, positive])
    · exact .inr (Number.head?_toDigits positive)
  wholeDigits := fun _ member => Number.isDigit_of_mem_toDigits member
  placesDigits := nofun
  power := nofun
  short := fun _ _ => short

section Decimal
open Number (zeros)

variable (negative : Bool)

def positional (digits : List Char) (point : Int) : Numeral :=
  if point ≤ 0 then ⟨negative, ['0'], zeros (-point).toNat ++ digits, none⟩
  else if digits.length ≤ point.toNat then
    ⟨negative, digits ++ zeros (point.toNat - digits.length), ['0'], none⟩
  else ⟨negative, digits.take point.toNat, digits.drop point.toNat, none⟩

def scientific (digits : List Char) (exponent : Int) : Numeral :=
  let magnitude := Nat.toDigits 10 exponent.natAbs
  ⟨negative, digits.take 1, digits.drop 1,
    some (exponent < 0, zeros (2 - magnitude.length) ++ magnitude)⟩

theorem text_positional (some : digits ≠ []) (point : Int) :
    (if negative then ['-'] else []) ++ Number.positional digits point =
      (positional negative digits point).text := by
  by_cases low : point ≤ 0
  · simp [positional, Number.positional, low, text, placesText, powerText, some]
  · by_cases high : digits.length ≤ point.toNat
    · simp [positional, Number.positional, low, high, text, placesText, powerText]
    · have more : digits.drop point.toNat ≠ [] := by simpa using high
      simp [positional, Number.positional, low, high, text, placesText, powerText, more]

theorem text_scientific (some : digits ≠ []) (exponent : Int) :
    (if negative then ['-'] else []) ++ Number.scientific digits exponent =
      (scientific negative digits exponent).text := by
  obtain ⟨c, rest, rfl⟩ := List.exists_cons_of_ne_nil some
  rcases rest with _ | ⟨d, rest⟩
  · simp [scientific, Number.scientific, text, placesText, powerText]
  · simp [scientific, Number.scientific, text, placesText, powerText]

variable {negative} {n : Nat} {exponent : Int}

theorem digitsValue_zeros_append (count : Nat) (digits : List Char) :
    digitsValue (zeros count ++ digits) = digitsValue digits := by
  rw [Number.digitsValue_append, zeros, Number.digitsValue_zeros, Nat.zero_mul, Nat.zero_add]

theorem digitsValue_append_zeros (count : Nat) (digits : List Char) :
    digitsValue (digits ++ zeros count) = digitsValue digits * 10 ^ count := by
  rw [Number.digitsValue_append, zeros, Number.digitsValue_zeros, List.length_replicate,
    Nat.add_zero]

/-- Positional notation is read as the digits with the exponent that places the point. -/
theorem value_positional :
    (positional negative (Nat.toDigits 10 n) ((Nat.toDigits 10 n).length + exponent)).value =
      .float (Binary64.ofDecimal negative n exponent) := by
  have length := Nat.length_toDigits_pos (b := 10) (n := n)
  have read := Number.digitsValue_toDigits n
  generalize Nat.toDigits 10 n = digits at length read ⊢
  have some : digits ≠ [] := List.length_pos_iff.mp length
  unfold positional
  by_cases low : (digits.length : Int) + exponent ≤ 0
  · have fraction : digitsValue (['0'] ++ (zeros (-(digits.length + exponent)).toNat ++ digits)) =
        n := by
      rw [← read, ← digitsValue_zeros_append 1, ← digitsValue_zeros_append _ digits]
      rfl
    have places : (0 : Int) - (zeros (-(digits.length + exponent)).toNat ++ digits).length =
        exponent := by
      simp only [zeros, List.length_append, List.length_replicate]
      omega
    simp only [low, if_true, value, powerValue, fraction, places, List.append_eq_nil_iff, some,
      and_false, false_and, if_false]
  · by_cases high : digits.length ≤ ((digits.length : Int) + exponent).toNat
    · have more : ((digits.length : Int) + exponent).toNat - digits.length = exponent.toNat := by
        omega
      have whole : digitsValue (digits ++ zeros exponent.toNat ++ ['0']) =
          n * 10 ^ (exponent.toNat + 1) := by
        rw [← read, ← digitsValue_append_zeros, List.append_assoc, zeros, zeros,
          List.replicate_succ']
      have places : (0 : Int) - 1 + (exponent.toNat + 1 : Nat) = exponent := by omega
      simp only [low, high, if_true, if_false, value, powerValue, more, whole, reduceCtorEq,
        false_and, List.length_cons, List.length_nil, Binary64.ofDecimal_mul_pow]
      rw [show ((0 + 1 : Nat) : Int) = 1 from rfl, places]
    · have more : digits.drop ((digits.length : Int) + exponent).toNat ≠ [] := by simpa using high
      have places : (0 : Int) - (digits.drop ((digits.length : Int) + exponent).toNat).length =
          exponent := by
        rw [List.length_drop]
        omega
      simp only [low, high, if_false, value, powerValue, more, false_and, List.take_append_drop,
        read, places]

/-- Scientific notation is read as the digits with the exponent, less one for each place. -/
theorem value_scientific :
    (scientific negative (Nat.toDigits 10 n) ((Nat.toDigits 10 n).length + exponent - 1)).value =
      .float (Binary64.ofDecimal negative n exponent) := by
  have length := Nat.length_toDigits_pos (b := 10) (n := n)
  have read := Number.digitsValue_toDigits n
  generalize Nat.toDigits 10 n = digits at length read ⊢
  generalize shifted : (digits.length : Int) + exponent - 1 = power
  have magnitude : powerValue (some (power < 0, zeros (2 - (Nat.toDigits 10 power.natAbs).length) ++
      Nat.toDigits 10 power.natAbs)) = power := by
    simp only [powerValue, digitsValue_zeros_append, Number.digitsValue_toDigits,
      decide_eq_true_eq]
    omega
  have places : power - (digits.drop 1).length = exponent := by
    rw [List.length_drop]
    omega
  simp only [scientific, value, reduceCtorEq, and_false, if_false, List.take_append_drop, read,
    magnitude, places]

theorem zero_isDigit : ∀ c ∈ ['0'], isDigit c := List.forall_mem_singleton.mpr (by decide)

theorem isProper_positional (positive : n ≠ 0) (point : Int) :
    (positional negative (Nat.toDigits 10 n) point).IsProper := by
  have some := Nat.toDigits_ne_nil (b := 10) (n := n)
  have first := Number.head?_toDigits positive
  have decimal := fun c => Number.isDigit_of_mem_toDigits (n := n) (c := c)
  generalize Nat.toDigits 10 n = digits at some first decimal ⊢
  have zero (count : Nat) : ∀ c ∈ zeros count, isDigit c := by
    intro c member
    rw [List.eq_of_mem_replicate member]
    decide
  unfold positional
  split
  · refine ⟨List.cons_ne_nil _ _, .inl rfl, zero_isDigit, ?_, nofun, ?_⟩
    · exact List.forall_mem_append.mpr ⟨zero _, fun _ => decimal _⟩
    · intro none
      simp [some] at none
  · split
    · refine ⟨by simp [some], .inr ?_, ?_, zero_isDigit, nofun, nofun⟩
      · simpa [List.head?_append_of_ne_nil _ some] using first
      · exact List.forall_mem_append.mpr ⟨fun _ => decimal _, zero _⟩
    · rename_i low high
      refine ⟨?_, .inr ?_, ?_, ?_, nofun, ?_⟩
      · simp only [ne_eq, List.take_eq_nil_iff, some, or_false]
        omega
      · rwa [List.head?_take, if_neg (by omega)]
      · exact fun _ member => decimal _ (List.mem_of_mem_take member)
      · exact fun _ member => decimal _ (List.mem_of_mem_drop member)
      · intro none
        simp only [List.drop_eq_nil_iff] at none
        omega

theorem isProper_scientific (positive : n ≠ 0) (exponent : Int) :
    (scientific negative (Nat.toDigits 10 n) exponent).IsProper := by
  have some := Nat.toDigits_ne_nil (b := 10) (n := n)
  have first := Number.head?_toDigits positive
  have decimal := fun c => Number.isDigit_of_mem_toDigits (n := n) (c := c)
  generalize Nat.toDigits 10 n = digits at some first decimal ⊢
  refine ⟨by simp [scientific, some], .inr ?_, ?_, ?_, ?_, nofun⟩
  · rwa [scientific, List.head?_take, if_neg (by decide)]
  · exact fun _ member => decimal _ (List.mem_of_mem_take member)
  · exact fun _ member => decimal _ (List.mem_of_mem_drop member)
  · rintro _ ⟨⟩
    refine ⟨by simp, List.forall_mem_append.mpr ⟨fun c member => ?_, fun c member => ?_⟩⟩
    · rw [List.eq_of_mem_replicate member]
      decide
    · exact Number.isDigit_of_mem_toDigits member

end Decimal

/-- A numeral that stands for a value as it is printed. -/
structure Prints (n : Numeral) (v : Json) (printed : List Char) : Prop where
  proper : n.IsProper
  text : printed = n.text
  value : n.value = v

theorem exists_prints_int {n : Int} (short : (Nat.toDigits 10 n.natAbs).length ≤ maxDigits) :
    ∃ numeral : Numeral, numeral.Prints (.int n) (intText n).toList :=
  ⟨ofInt n, isProper_ofInt short, text_ofInt n, value_ofInt n⟩

/-- A finite double is printed as a numeral that is read as it. -/
theorem exists_prints_float (negative : Bool) {rank : Fin 0x7FF0000000000001}
    (finite : rank.val ≠ infinityRank) :
    ∃ numeral : Numeral, numeral.Prints (.float (.signed negative rank))
      (renderFloat (.signed negative rank)) := by
  have printed (magnitude : List Char) :
      (String.ofList (if negative then '-' :: magnitude else magnitude)).toList =
        (if negative then ['-'] else []) ++ magnitude := by
    cases negative <;> simp
  by_cases zero : rank = 0
  · subst zero
    refine ⟨⟨negative, ['0'], ['0'], none⟩, ⟨List.cons_ne_nil _ _, .inl rfl, zero_isDigit,
      zero_isDigit, nofun, nofun⟩, ?_, rfl⟩
    simp only [renderFloat, Number.text, finite, if_false, printed]
    rfl
  · have positive : rank.val ≠ 0 := fun none => zero (Fin.ext none)
    have reads := Decimal.shortest_reads rank (Nat.pos_of_ne_zero positive)
      (Nat.lt_of_le_of_ne (Nat.le_of_lt_succ rank.isLt) finite)
    simp only [renderFloat, Number.text, finite, positive, if_false, printed, Number.decimalText]
    generalize Decimal.shortest rank.val = d at reads ⊢
    have some : d.digits ≠ 0 := by
      intro none
      have read := reads negative
      rw [none] at read
      cases read
      exact zero rfl
    by_cases near : -4 < ((Nat.toDigits 10 d.digits).length : Int) + d.exponent ∧
        ((Nat.toDigits 10 d.digits).length : Int) + d.exponent ≤ 16
    · rw [if_pos near]
      refine ⟨_, isProper_positional some _, text_positional negative Nat.toDigits_ne_nil _, ?_⟩
      rw [value_positional, reads]
    · rw [if_neg near]
      refine ⟨_, isProper_scientific some _, text_scientific negative Nat.toDigits_ne_nil _, ?_⟩
      rw [value_scientific, reads]

end Numeral
end Launcher.Json
