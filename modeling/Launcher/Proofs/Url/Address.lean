import Launcher.Proofs.Text.Pieces
import Launcher.Url.Address
import Mathlib.Data.List.TakeDrop
import Mathlib.Data.List.TakeWhile

/-! Addresses of 16 bytes as the generic syntax of URLs has them: eight groups of hexadecimal
digits, or fewer about a gap, the last two of which may be written as an address of four bytes.
All of them are read. -/
namespace Launcher.Url
open Text (splitOn joinWith)

/-- Groups between colons, and how many they stand for. -/
inductive Groups : List (List Char) → Nat → Prop
  | none : Groups [] 0
  /-- An address of four bytes stands for the last two groups. -/
  | dotted {text : List Char} : isAddress4 text = true → Groups [text] 2
  | group {text : List Char} {pieces : List (List Char)} {n : Nat} : isGroup text = true →
      Groups pieces n → Groups (text :: pieces) (n + 1)

/-- The text of an address of 16 bytes. -/
inductive Address6 : List Char → Prop
  | whole {pieces : List (List Char)} : Groups pieces 8 → Address6 (joinWith ':' pieces)
  /-- Two colons stand for the groups that are missing. -/
  | gapped {left right : List (List Char)} {n : Nat} : (∀ piece ∈ left, isGroup piece = true) →
      Groups right n → left.length + n ≤ 7 →
      Address6 (joinWith ':' left ++ ':' :: ':' :: joinWith ':' right)

theorem ne_of_isHexDigit {c d : Char} (digit : isHexDigit c = true) (other : isHexDigit d = false) :
    c ≠ d := by
  rintro rfl
  rw [digit] at other
  contradiction

theorem isHexDigit_of_isDigit {c : Char} (digit : Number.isDigit c = true) :
    isHexDigit c = true := by
  have decimal : ('0' ≤ c && c ≤ '9') = true := digit
  unfold isHexDigit Number.hexValue?
  rw [if_pos decimal]
  rfl

theorem isHexDigit_of_isGroup {text : List Char} (group : isGroup text = true) :
    text ≠ [] ∧ ∀ c ∈ text, isHexDigit c = true := by
  simp only [isGroup, Bool.and_eq_true, Bool.not_eq_true', List.isEmpty_eq_false_iff,
    List.all_eq_true] at group
  exact ⟨group.1.1, group.2⟩

theorem isDigit_of_isAddress4 {text : List Char} (address : isAddress4 text = true) :
    '.' ∈ text ∧ ∀ c ∈ text, c = '.' ∨ Number.isDigit c = true := by
  simp only [isAddress4, Bool.and_eq_true, decide_eq_true_eq, List.all_eq_true] at address
  constructor
  · by_contra free
    rw [Text.splitOn_free free] at address
    exact absurd address.1 (by simp)
  · intro c member
    rw [← Text.joinWith_splitOn '.' text] at member
    apply Or.imp_right _ (Text.mem_joinWith member)
    rintro ⟨piece, listed, inside⟩
    have octet := address.2 piece listed
    simp only [isOctet, Bool.and_eq_true, List.all_eq_true] at octet
    exact octet.1.1.1.2 c inside

/-- The groups that pieces stand for, none if the last piece has a point and is no address of four
bytes. -/
def expanded (pieces : List (List Char)) : List (List Char) :=
  match pieces.getLast? with
  | some last =>
    if last.contains '.' then
      if isAddress4 last then pieces.dropLast ++ [['0'], ['0']] else []
    else pieces
  | none => pieces

theorem isAddress6_of_splitOn {text : List Char} (zoneless : '%' ∉ text) (free : '/' ∉ text)
    (long : 3 ≤ (splitOn ':' text).length) (groups : areGroups (expanded (splitOn ':' text))) :
    isAddress6 text = true := by
  have span : text.span (· ≠ '%') = (text, []) := by
    rw [List.span_eq_takeWhile_dropWhile]
    have inside : ∀ c ∈ text, (decide (c ≠ '%')) = true := fun c member => by
      simpa using ne_of_mem_of_not_mem member zoneless
    rw [List.takeWhile_eq_self_iff.mpr inside, List.dropWhile_eq_nil_iff.mpr inside]
  have slashless : text.contains '/' = false := by simpa using free
  unfold isAddress6
  simp only [span, slashless, long, decide_true, Bool.not_false, Bool.and_true, Bool.true_and]
  exact groups

namespace Groups
variable {pieces : List (List Char)} {n : Nat}

/-- An address of four bytes is one piece for two groups. -/
theorem length (groups : Groups pieces n) : pieces.length ≤ n ∧ n ≤ pieces.length + 1 := by
  induction groups with
  | none => decide
  | dotted _ => simp
  | group _ _ ih =>
    simp only [List.length_cons]
    omega

/-- Pieces with a point at their end are expanded there. -/
theorem expand (groups : Groups pieces n) : ∃ all, all.length = n ∧
    (∀ group ∈ all, isGroup group = true) ∧ (pieces = [] → all = []) ∧
    (pieces ≠ [] → ∀ before, expanded (before ++ pieces) = before ++ all) := by
  -- Only the last piece is looked at, so that each group moves over to the pieces before.
  induction groups with
  | none => exact ⟨[], rfl, by simp, fun _ => rfl, absurd rfl⟩
  | @dotted text address =>
    refine ⟨[['0'], ['0']], rfl, by decide, nofun, fun _ before => ?_⟩
    simp [expanded, (isDigit_of_isAddress4 address).1, address]
  | @group text pieces n group groups ih =>
    obtain ⟨all, length, each, none, grown⟩ := ih
    refine ⟨text :: all, by simp [length], List.forall_mem_cons.mpr ⟨group, each⟩, nofun, ?_⟩
    intro _ before
    by_cases last : pieces = []
    · have pointless : '.' ∉ text := fun member =>
        absurd ((isHexDigit_of_isGroup group).2 '.' member) (by decide)
      subst last
      simp [expanded, pointless, none rfl]
    · simpa using grown last (before ++ [text])

theorem mem_free (groups : Groups pieces n) {c : Char} (hex : isHexDigit c = false)
    (point : c ≠ '.') : ∀ piece ∈ pieces, c ∉ piece := by
  induction groups with
  | none => simp
  | dotted address =>
    intro piece member inside
    obtain rfl := List.mem_singleton.mp member
    rcases (isDigit_of_isAddress4 address).2 c inside with dot | digit
    · exact point dot
    · exact ne_of_isHexDigit (isHexDigit_of_isDigit digit) hex rfl
  | group group _ ih =>
    refine List.forall_mem_cons.mpr ⟨fun inside => ?_, ih⟩
    exact ne_of_isHexDigit ((isHexDigit_of_isGroup group).2 c inside) hex rfl

end Groups

/-- Pieces of a text about a gap at its start or at its end, where there is an empty one. -/
def orEmpty (pieces : List (List Char)) : List (List Char) := if pieces = [] then [[]] else pieces

theorem joinWith_orEmpty (pieces : List (List Char)) :
    joinWith ':' (orEmpty pieces) = joinWith ':' pieces := by
  unfold orEmpty
  split
  · simp [*, joinWith]
  · rfl

theorem areGroups_of_whole {groups : List (List Char)} (eight : groups.length = 8)
    (each : ∀ group ∈ groups, isGroup group = true) : areGroups groups = true := by
  have inner : ((groups.drop 1).dropLast).findIdx? (·.isEmpty) = none := by
    rw [List.findIdx?_eq_none_iff]
    intro piece member
    have listed := List.mem_of_mem_drop (List.dropLast_subset _ member)
    simpa using (isHexDigit_of_isGroup (each piece listed)).1
  unfold areGroups
  simp only [inner, eight]
  simpa using each

section Gap
variable {left right : List (List Char)}

/-- The empty piece that a text starts with is no group. -/
theorem orEmpty_head (each : ∀ group ∈ left, isGroup group = true) :
    (if (orEmpty left).head? = some [] then (orEmpty left).drop 1 else orEmpty left) = left ∧
      ((orEmpty left).head? = some [] → left = []) := by
  cases left with
  | nil => exact ⟨rfl, fun _ => rfl⟩
  | cons group left =>
    have other : group ≠ [] := (isHexDigit_of_isGroup (each group List.mem_cons_self)).1
    simp [orEmpty, other]

theorem orEmpty_last (each : ∀ group ∈ right, isGroup group = true) :
    (if (orEmpty right).getLast? = some [] then (orEmpty right).dropLast else orEmpty right) =
        right ∧ ((orEmpty right).getLast? = some [] → right = []) := by
  by_cases none : right = []
  · subst none
    exact ⟨rfl, fun _ => rfl⟩
  · have other : right.getLast? ≠ some [] := fun last =>
      (isHexDigit_of_isGroup (each [] (List.mem_of_getLast? last))).1 rfl
    simp [orEmpty, none, other]

theorem length_orEmpty (pieces : List (List Char)) :
    (orEmpty pieces).length = max 1 pieces.length := by
  cases pieces with
  | nil => rfl
  | cons piece pieces => simp [orEmpty]

/-- The gap is found behind the groups on its left. -/
theorem areGroups_of_gapped (each : ∀ group ∈ left, isGroup group = true)
    (each' : ∀ group ∈ right, isGroup group = true) (few : left.length + right.length ≤ 7) :
    areGroups (orEmpty left ++ [] :: orEmpty right) = true := by
  obtain ⟨head, first⟩ := orEmpty_head each
  obtain ⟨tail, last⟩ := orEmpty_last each'
  have leftLength := length_orEmpty left
  have rightLength := length_orEmpty right
  have behind : orEmpty right ≠ [] := List.ne_nil_of_length_pos (by omega)
  -- The gap is the only empty piece that is neither the first nor the last one.
  have found : (((orEmpty left ++ [] :: orEmpty right).drop 1).dropLast).findIdx? (·.isEmpty) =
      some ((orEmpty left).length - 1) := by
    have full : ((orEmpty left).drop 1).findIdx? (·.isEmpty) = none := by
      rw [List.findIdx?_eq_none_iff]
      intro piece member
      unfold orEmpty at member
      split at member
      · simp at member
      · simpa using (isHexDigit_of_isGroup (each piece (List.mem_of_mem_drop member))).1
    rw [List.drop_append_of_le_length (by omega), List.dropLast_append_of_ne_nil (by simp),
      List.dropLast_cons_of_ne_nil behind, List.findIdx?_append, full]
    simp [List.findIdx?_cons]
  have high : (orEmpty left ++ [] :: orEmpty right).take ((orEmpty left).length - 1 + 1) =
      orEmpty left := by
    rw [Nat.sub_add_cancel (by omega), List.take_left]
  have low : (orEmpty left ++ [] :: orEmpty right).drop ((orEmpty left).length - 1 + 2) =
      orEmpty right := by
    rw [show (orEmpty left).length - 1 + 2 = (orEmpty left).length + 1 by omega, List.drop_append]
    simp
  have length : (orEmpty left ++ [] :: orEmpty right).length =
      (orEmpty left).length + (orEmpty right).length + 1 := by
    simp
    omega
  unfold areGroups
  rw [if_neg (by simp only [length, Bool.or_eq_true, decide_eq_true_eq]; omega)]
  simp only [found, high, low, head, tail]
  simp only [Bool.and_eq_true, decide_eq_true_eq, List.all_eq_true]
  refine ⟨⟨⟨⟨?_, ?_⟩, few⟩, each⟩, each'⟩
  · simpa [imp_iff_not_or] using first
  · simpa [imp_iff_not_or] using last

end Gap

/-- The pieces of an address between its colons. -/
theorem Address6.pieces {text : List Char} (address : Address6 text) :
    ∃ pieces, text = joinWith ':' pieces ∧ 3 ≤ pieces.length ∧
      (∀ piece ∈ pieces, ∀ c, isHexDigit c = false → c ≠ '.' → c ∉ piece) ∧
      areGroups (expanded pieces) = true := by
  cases address with
  | @whole pieces groups =>
    obtain ⟨all, eight, each, _, expand⟩ := groups.expand
    have length := groups.length
    refine ⟨pieces, rfl, by omega, fun piece listed c hex point =>
      groups.mem_free hex point piece listed, ?_⟩
    have whole : expanded pieces = all :=
      expand (List.ne_nil_of_length_pos (by omega)) []
    rw [whole]
    exact areGroups_of_whole eight each
  | @gapped left right n each groups few =>
    obtain ⟨all, same, each', none, expand⟩ := groups.expand
    have length := groups.length
    have leftLength := length_orEmpty left
    have rightLength := length_orEmpty right
    have some : orEmpty left ≠ [] := List.ne_nil_of_length_pos (by omega)
    have some' : orEmpty right ≠ [] := List.ne_nil_of_length_pos (by omega)
    refine ⟨orEmpty left ++ [] :: orEmpty right, ?_, ?_, fun piece listed c hex point => ?_, ?_⟩
    · rw [Text.joinWith_append some (by simp), Text.joinWith_cons _ some', joinWith_orEmpty,
        joinWith_orEmpty, List.nil_append]
    · simp only [List.length_append, List.length_cons]
      omega
    · have free {pieces : List (List Char)} (apart : ∀ piece ∈ pieces, c ∉ piece)
          (member : piece ∈ orEmpty pieces) : c ∉ piece := by
        unfold orEmpty at member
        split at member
        · simp_all
        · exact apart piece member
      rcases List.mem_append.mp listed with before | listed
      · refine free (fun group member inside => ?_) before
        exact ne_of_isHexDigit ((isHexDigit_of_isGroup (each group member)).2 c inside) hex rfl
      · rcases List.mem_cons.mp listed with rfl | behind
        · exact List.not_mem_nil
        · exact free (groups.mem_free hex point) behind
    · have expands : expanded (orEmpty left ++ [] :: orEmpty right) =
          orEmpty left ++ [] :: orEmpty all := by
        by_cases last : right = []
        · subst last
          simp [none rfl, expanded, orEmpty]
        · have left' : all ≠ [] := by
            have more := List.length_pos_iff.mpr last
            exact List.ne_nil_of_length_pos (by omega)
          have grown := expand last (orEmpty left ++ [[]])
          rw [List.append_assoc, List.append_assoc] at grown
          rw [show orEmpty right = right from if_neg last, show orEmpty all = all from if_neg left']
          exact grown
      rw [expands]
      exact areGroups_of_gapped each each' (by omega)

/-- The characters of an address. -/
theorem Address6.mem {text : List Char} (address : Address6 text) {c : Char} (member : c ∈ text) :
    isHexDigit c = true ∨ c = '.' ∨ c = ':' := by
  obtain ⟨pieces, rfl, _, free, _⟩ := address.pieces
  rcases Text.mem_joinWith member with colon | ⟨piece, listed, inside⟩
  · exact .inr (.inr colon)
  · cases hex : isHexDigit c with
    | true => exact .inl rfl
    | false =>
      refine .inr (.inl ?_)
      by_contra other
      exact free piece listed c hex other inside

theorem Address6.isAddress6 {text : List Char} (address : Address6 text) :
    Url.isAddress6 text = true := by
  have free {c : Char} (other : ¬ (isHexDigit c = true ∨ c = '.' ∨ c = ':')) : c ∉ text :=
    fun member => other (address.mem member)
  have zoneless : '%' ∉ text := free (by decide)
  have slashless : '/' ∉ text := free (by decide)
  obtain ⟨pieces, rfl, long, apart, groups⟩ := address.pieces
  have split : splitOn ':' (joinWith ':' pieces) = pieces := by
    refine Text.splitOn_joinWith (List.ne_nil_of_length_pos (by omega)) fun piece listed => ?_
    exact apart piece listed ':' (by decide) (by decide)
  refine isAddress6_of_splitOn zoneless slashless ?_ ?_
  · rwa [split]
  · rwa [split]

/-- An address of 16 bytes has colons, and one of four bytes has none. -/
theorem Address6.not_isAddress4 {text : List Char} (address : Address6 text) :
    isAddress4 text = false := by
  obtain ⟨pieces, rfl, long, _⟩ := address.pieces
  have colon : ':' ∈ joinWith ':' pieces := by
    obtain ⟨first, others, rfl⟩ :=
      List.exists_cons_of_ne_nil (List.ne_nil_of_length_pos (l := pieces) (by omega))
    rw [Text.joinWith_cons first (List.ne_nil_of_length_pos (by simp at long; omega))]
    simp
  by_contra four
  rcases (isDigit_of_isAddress4 (by simpa using four)).2 ':' colon with point | digit
  · contradiction
  · exact absurd digit (by decide)

theorem isGroup_of_areGroups {piece : List Char} {pieces : List (List Char)}
    (groups : areGroups (piece :: pieces) = true) (some : piece ≠ []) : isGroup piece = true := by
  unfold areGroups at groups
  simp only at groups
  split at groups
  · contradiction
  · split at groups
    · rw [Bool.and_eq_true, List.all_cons, Bool.and_eq_true] at groups
      exact groups.2.1
    · rename_i i _
      have first : (List.take (i + 1) (piece :: pieces)).head? ≠ Option.some [] := by
        simpa using some
      simp only [Bool.and_eq_true] at groups
      have high := groups.1.2
      rw [if_neg first, List.take_succ_cons, List.all_cons, Bool.and_eq_true] at high
      exact high.1

/-- An address of 16 bytes starts with a digit or a colon. -/
theorem head_of_isAddress6 {c : Char} {rest : List Char} (address : isAddress6 (c :: rest) = true)
    (noZone : c ≠ '%') : isHexDigit c = true ∨ c = ':' := by
  by_cases colon : c = ':'
  · exact .inr colon
  left
  obtain ⟨address', zone, span⟩ : ∃ address' zone,
      (c :: rest).span (· ≠ '%') = (c :: address', zone) := by
    rw [List.span_eq_takeWhile_dropWhile]
    simp [noZone]
  obtain ⟨piece, pieces, split⟩ := List.exists_cons_of_ne_nil (Text.splitOn_ne_nil ':' address')
  have first : splitOn ':' (c :: address') = (c :: piece) :: pieces := by
    simp [splitOn, split, colon]
  have groups : areGroups (expanded ((c :: piece) :: pieces)) = true ∧ 3 ≤ pieces.length + 1 := by
    unfold isAddress6 at address
    simp only [span, first, Bool.and_eq_true, decide_eq_true_eq, List.length_cons] at address
    exact ⟨address.2, address.1.2⟩
  obtain ⟨groups, long⟩ := groups
  have more : pieces ≠ [] := List.ne_nil_of_length_pos (by omega)
  have kept : expanded ((c :: piece) :: pieces) = [] ∨
      ∃ others, expanded ((c :: piece) :: pieces) = (c :: piece) :: others := by
    unfold expanded
    split
    · split
      · split
        · rw [List.dropLast_cons_of_ne_nil more]
          exact .inr ⟨_, rfl⟩
        · exact .inl rfl
      · exact .inr ⟨_, rfl⟩
    · exact .inr ⟨_, rfl⟩
  rcases kept with none | ⟨others, same⟩
  · rw [none] at groups
    contradiction
  · rw [same] at groups
    have group := isGroup_of_areGroups groups (List.cons_ne_nil _ _)
    exact (isHexDigit_of_isGroup group).2 c List.mem_cons_self

end Launcher.Url
