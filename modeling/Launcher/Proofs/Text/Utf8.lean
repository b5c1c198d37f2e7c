import Launcher.Text.Encoding
import Mathlib.Tactic.SplitIfs

/-! Texts in UTF-8. The bytes of a text are decoded as the text. -/
namespace Launcher.Encoding
variable {b first : UInt8} {n : Nat}

theorem toNat_ofNat (small : n < 256) : (UInt8.ofNat n).toNat = n :=
  (UInt8.toNat_ofNat').trans (Nat.mod_eq_of_lt small)

/-- The byte that carries six bits of a number behind the first one. -/
def carrier (x : Nat) : UInt8 := UInt8.ofNat (x + 128)

theorem toNat_carrier {x : Nat} (small : x < 64) : (carrier x).toNat = x + 128 :=
  toNat_ofNat (by omega)

theorem isContinuation_carrier {x : Nat} (small : x < 64) : isContinuation (carrier x) = true := by
  simp only [isContinuation, Bool.and_eq_true, decide_eq_true_eq, UInt8.le_iff_toNat_le,
    UInt8.lt_iff_toNat_lt, toNat_carrier small, UInt8.reduceToNat]
  omega

theorem continuations_carriers {xs : List Nat} (small : ∀ x ∈ xs, x < 64) (seen : Nat)
    (more : Bytes) :
    continuations xs.length seen (xs.map carrier ++ more) = .ok (xs.map carrier) := by
  induction xs generalizing seen with
  | nil => rfl
  | cons x xs ih =>
    obtain ⟨first, others⟩ := List.forall_mem_cons.mp small
    rw [List.length_cons, List.map_cons, List.cons_append, continuations,
      if_pos (isContinuation_carrier first), ih others]
    rfl

theorem payload_carriers {xs : List Nat} (small : ∀ x ∈ xs, x < 64) (lead : Nat) :
    payload lead (xs.map carrier) = Char.ofNat (xs.foldl (fun n x => n * 64 + x) lead) := by
  unfold payload
  congr 1
  induction xs generalizing lead with
  | nil => rfl
  | cons x xs ih =>
    obtain ⟨first, others⟩ := List.forall_mem_cons.mp small
    rw [List.map_cons, List.foldl_cons, List.foldl_cons, toNat_carrier first, ih others]
    congr 2
    omega

/-- The first byte tells the number of bytes. -/
theorem sequenceLength_ofNat {n : Nat} (small : n < 256) : sequenceLength (UInt8.ofNat n) =
    if n < 0x80 then 1 else if n < 0xC2 then 0 else if n < 0xE0 then 2 else if n < 0xF0 then 3
    else if n < 0xF5 then 4 else 0 := by
  simp only [sequenceLength, UInt8.lt_iff_toNat_lt, toNat_ofNat small, UInt8.reduceToNat]

/-- The second byte is in its range if the number needs all its bytes, and is no surrogate and not
too large. -/
theorem isSecond_ofNat {a x : Nat} (small : a < 256) (small' : x < 64)
    (low : a = 0xE0 → 0x20 ≤ x) (low' : a = 0xF0 → 0x10 ≤ x) (high : a = 0xED → x < 0x20)
    (high' : a = 0xF4 → x < 0x10) :
    isSecond (UInt8.ofNat a) (carrier x) = true := by
  have second := toNat_carrier small'
  simp only [isSecond, secondRange, ← UInt8.toNat_inj, toNat_ofNat small, UInt8.reduceToNat]
  split_ifs
  all_goals
    simp only [Bool.and_eq_true, decide_eq_true_eq, UInt8.le_iff_toNat_le, second,
      UInt8.reduceToNat]
    omega

/-- A sequence of two bytes or more is decoded as the number that its bytes carry. -/
theorem utf8Step_pair {a x : Nat} {more : Bytes} (surrogates : Bool) (lead : a < 256)
    (small : x < 64) (long : sequenceLength (UInt8.ofNat a) = 2) :
    utf8Step surrogates (UInt8.ofNat a) ([x].map carrier ++ more) =
      .ok (Char.ofNat (a % 32 * 64 + x), 2) := by
  have one : ∀ y ∈ [x], y < 64 := List.forall_mem_cons.mpr ⟨small, nofun⟩
  have behind : continuations 1 1 ([x].map carrier ++ more) = .ok ([x].map carrier) :=
    continuations_carriers one 1 more
  rw [utf8Step, long]
  simp only [behind, Except.map, toNat_ofNat lead, payload_carriers one, List.foldl_cons,
    List.foldl_nil]

theorem utf8Step_carriers {a x : Nat} {xs : List Nat} {more : Bytes} (surrogates : Bool)
    (lead : a < 256) (small : ∀ y ∈ x :: xs, y < 64) (some : xs ≠ [])
    (long : sequenceLength (UInt8.ofNat a) = xs.length + 2)
    (second : isSecond (UInt8.ofNat a) (carrier x) = true) :
    utf8Step surrogates (UInt8.ofNat a) ((x :: xs).map carrier ++ more) =
      .ok (Char.ofNat ((x :: xs).foldl (fun n y => n * 64 + y)
        (a % (if xs.length = 1 then 16 else 8))), xs.length + 2) := by
  obtain ⟨y, ys, rfl⟩ := List.exists_cons_of_ne_nil some
  have behind := continuations_carriers (List.forall_mem_cons.mp small).2 2 more
  rw [utf8Step, long, List.map_cons, List.cons_append]
  simp only [List.length_cons] at behind ⊢
  simp only [second, if_true, Nat.add_sub_cancel, behind, Except.map, toNat_ofNat lead,
    ← List.map_cons, payload_carriers small, Nat.reduceEqDiff]

/-- The bytes of a character are decoded as it, whatever follows. -/
theorem utf8Step_encodeChar (surrogates : Bool) (c : Char) (more : Bytes) :
    ∃ first tail, String.utf8EncodeChar c = first :: tail ∧
      utf8Step surrogates first (tail ++ more) = .ok (c, tail.length + 1) := by
  have valid : c.toNat < 0xD800 ∨ 0xDFFF < c.toNat ∧ c.toNat < 0x110000 := c.valid
  have same := Char.ofNat_toNat c
  unfold String.utf8EncodeChar
  rw [Char.toNat_val]
  generalize c.toNat = v at valid same ⊢
  subst same
  have bits (n : Nat) : n % 64 < 64 := Nat.mod_lt _ (by decide)
  have one : ∀ x ∈ [v % 64], x < 64 := List.forall_mem_cons.mpr ⟨bits v, nofun⟩
  have two : ∀ x ∈ [v / 64 % 64, v % 64], x < 64 := List.forall_mem_cons.mpr ⟨bits _, one⟩
  have three : ∀ x ∈ [v / 4096 % 64, v / 64 % 64, v % 64], x < 64 :=
    List.forall_mem_cons.mpr ⟨bits _, two⟩
  -- The number needs one, two, three or four bytes.
  simp only
  split
  · refine ⟨_, [], rfl, ?_⟩
    rw [utf8Step, sequenceLength_ofNat (by omega), if_pos (by omega)]
    simp only [toNat_ofNat (show v < 256 by omega)]
    rfl
  split
  · have lead : v / 64 % 32 + 192 < 256 := by omega
    have value : (v / 64 % 32 + 192) % 32 * 64 + v % 64 = v := by omega
    have length : sequenceLength (UInt8.ofNat (v / 64 % 32 + 192)) = 2 := by
      rw [sequenceLength_ofNat lead, if_neg (by omega), if_neg (by omega), if_pos (by omega)]
    refine ⟨_, [v % 64].map carrier, rfl, ?_⟩
    rw [utf8Step_pair surrogates lead (bits v) length, value]
    rfl
  split
  · have lead : v / 4096 % 16 + 224 < 256 := by omega
    have value : ((v / 4096 % 16 + 224) % 16 * 64 + v / 64 % 64) * 64 + v % 64 = v := by omega
    have second := isSecond_ofNat lead (bits (v / 64)) (by omega) (by omega) (by omega) (by omega)
    have length : sequenceLength (UInt8.ofNat (v / 4096 % 16 + 224)) = 3 := by
      rw [sequenceLength_ofNat lead, if_neg (by omega), if_neg (by omega), if_neg (by omega),
        if_pos (by omega)]
    refine ⟨_, [v / 64 % 64, v % 64].map carrier, rfl, ?_⟩
    rw [utf8Step_carriers surrogates lead two (List.cons_ne_nil _ _) length second]
    simp only [List.length_cons, List.length_nil, Nat.zero_add, if_true, List.foldl_cons,
      List.foldl_nil, value]
    rfl
  · have lead : v / 262144 % 8 + 240 < 256 := by omega
    have value : (((v / 262144 % 8 + 240) % 8 * 64 + v / 4096 % 64) * 64 + v / 64 % 64) * 64 +
        v % 64 = v := by omega
    have second := isSecond_ofNat lead (bits (v / 4096)) (by omega) (by omega) (by omega)
      (by omega)
    have length : sequenceLength (UInt8.ofNat (v / 262144 % 8 + 240)) = 4 := by
      rw [sequenceLength_ofNat lead, if_neg (by omega), if_neg (by omega), if_neg (by omega),
        if_neg (by omega), if_pos (by omega)]
    refine ⟨_, [v / 4096 % 64, v / 64 % 64, v % 64].map carrier, rfl, ?_⟩
    rw [utf8Step_carriers surrogates lead three (List.cons_ne_nil _ _) length second]
    simp only [List.length_cons, List.length_nil, Nat.zero_add, Nat.reduceAdd, Nat.reduceEqDiff,
      if_false, List.foldl_cons, List.foldl_nil, value]
    rfl

theorem decodeUtf8_encoded (surrogates : Bool) (text : List Char) {fuel : Nat} (position : Nat)
    (done : List Char) (enough : (text.flatMap String.utf8EncodeChar).length ≤ fuel) :
    decodeUtf8 surrogates fuel position (text.flatMap String.utf8EncodeChar) done =
      .ok (done.reverse ++ text) := by
  induction text generalizing fuel position done with
  | nil => cases fuel <;> simp [decodeUtf8]
  | cons c text ih =>
    obtain ⟨first, tail, bytes, step⟩ :=
      utf8Step_encodeChar surrogates c (text.flatMap String.utf8EncodeChar)
    rw [List.flatMap_cons, bytes, List.cons_append] at enough ⊢
    simp only [List.length_cons, List.length_append] at enough
    cases fuel with
    | zero => omega
    | succ fuel =>
      rw [decodeUtf8, step]
      simp only [Nat.add_sub_cancel, List.drop_left]
      rw [ih _ _ (by omega)]
      simp

/-- The bytes of a text are decoded as it. -/
theorem decode_ofText (surrogates : Bool) (position : Nat) (text : String) :
    Encoding.utf8.decode surrogates position (Bytes.ofText text) = .ok text.toList := by
  rw [decode, Bytes.ofText]
  simpa using decodeUtf8_encoded surrogates text.toList position [] (Nat.le_refl _)

end Launcher.Encoding
