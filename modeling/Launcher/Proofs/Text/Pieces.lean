import Launcher.Text.Pieces
import Mathlib.Data.List.Destutter
import Mathlib.Data.List.DropRight
import Mathlib.Data.List.Induction

/-! Texts cut at a character, and pieces put together with one. What is cut there is the same pieces
again. The pieces that are not empty are the words of a text: putting them together leaves out what
separates no words. -/
namespace Launcher.Text
variable {c : Char} {text piece : List Char} {pieces : List (List Char)}

section Cutting

theorem splitOn_free (free : c ∉ piece) : splitOn c piece = [piece] := by
  induction piece with
  | nil => rfl
  | cons d piece ih =>
    rw [List.mem_cons, not_or] at free
    simp [splitOn, ih free.2, Ne.symm free.1]

theorem splitOn_piece (free : c ∉ piece) (rest : List Char) :
    splitOn c (piece ++ c :: rest) = piece :: splitOn c rest := by
  induction piece with
  | nil =>
    obtain ⟨first, others, same⟩ := List.exists_cons_of_ne_nil (splitOn_ne_nil c rest)
    simp [splitOn, same]
  | cons d piece ih =>
    rw [List.mem_cons, not_or] at free
    simp [splitOn, ih free.2, Ne.symm free.1]

theorem splitOn_append (text : List Char) {ending : List Char} (free : c ∉ ending) :
    ∃ pieces last, splitOn c text = pieces ++ [last] ∧
      splitOn c (text ++ ending) = pieces ++ [last ++ ending] := by
  induction text with
  | nil => exact ⟨[], [], rfl, splitOn_free free⟩
  | cons d rest ih =>
    obtain ⟨pieces, last, cut, cut'⟩ := ih
    simp only [List.cons_append, splitOn, cut, cut']
    rcases pieces with _ | ⟨piece, pieces⟩
    · simp only [List.nil_append]
      split
      · exact ⟨[[]], last, rfl, rfl⟩
      · exact ⟨[], d :: last, rfl, rfl⟩
    · simp only [List.cons_append]
      split
      · exact ⟨[] :: piece :: pieces, last, rfl, rfl⟩
      · exact ⟨(d :: piece) :: pieces, last, rfl, rfl⟩

theorem not_mem_of_mem_splitOn (inside : piece ∈ splitOn c text) : c ∉ piece := by
  induction text generalizing piece with
  | nil => simp_all [splitOn]
  | cons d rest ih =>
    rw [splitOn] at inside
    split at inside
    · exact absurd ‹_› (splitOn_ne_nil c rest)
    · rename_i first others cut
      rw [cut] at ih
      split at inside
      · rcases List.mem_cons.mp inside with rfl | later
        · exact List.not_mem_nil
        · exact ih later
      · rename_i other
        rcases List.mem_cons.mp inside with rfl | later
        · simpa [Ne.symm other] using ih List.mem_cons_self
        · exact ih (List.mem_cons_of_mem _ later)

end Cutting

section Joining

theorem joinWith_cons (piece : List Char) (some : pieces ≠ []) :
    joinWith c (piece :: pieces) = piece ++ c :: joinWith c pieces := by
  obtain ⟨first, others, rfl⟩ := List.exists_cons_of_ne_nil some
  rfl

theorem joinWith_append {first : List (List Char)} (some : first ≠ []) (some' : pieces ≠ []) :
    joinWith c (first ++ pieces) = joinWith c first ++ c :: joinWith c pieces := by
  induction first with
  | nil => contradiction
  | cons piece first ih =>
    by_cases last : first = []
    · subst last
      exact joinWith_cons piece some'
    · rw [List.cons_append, joinWith_cons _ (by simp [last]), ih last, joinWith_cons _ last,
        List.append_assoc, List.cons_append]

theorem mem_joinWith {d : Char} (member : d ∈ joinWith c pieces) :
    d = c ∨ ∃ piece ∈ pieces, d ∈ piece := by
  induction pieces with
  | nil => simp [joinWith] at member
  | cons piece pieces ih =>
    by_cases last : pieces = []
    · subst last
      exact .inr ⟨piece, List.mem_cons_self, member⟩
    · rw [joinWith_cons _ last, List.mem_append, List.mem_cons] at member
      rcases member with inside | same | later
      · exact .inr ⟨piece, List.mem_cons_self, inside⟩
      · exact .inl same
      · apply Or.imp_right _ (ih later)
        rintro ⟨other, listed, inside⟩
        exact ⟨other, List.mem_cons_of_mem _ listed, inside⟩

/-- Pieces are found again where they were put together. -/
theorem splitOn_joinWith (some : pieces ≠ []) (free : ∀ piece ∈ pieces, c ∉ piece) :
    splitOn c (joinWith c pieces) = pieces := by
  induction pieces with
  | nil => contradiction
  | cons piece pieces ih =>
    rw [List.forall_mem_cons] at free
    by_cases last : pieces = []
    · subst last
      exact splitOn_free free.1
    · rw [joinWith_cons _ last, splitOn_piece free.1, ih last free.2]

theorem joinWith_eq_intercalate : joinWith c pieces = [c].intercalate pieces := by
  induction pieces with
  | nil => rfl
  | cons piece rest ih => cases rest <;> simp_all [joinWith, List.intercalate_cons_cons]

end Joining

/-- Whether the second of two characters is kept behind the first one: not if both separate. -/
def Keeps (c a b : Char) : Prop := ¬ (a = c ∧ b = c)

instance (c : Char) : DecidableRel (Keeps c) := fun _ _ => inferInstanceAs (Decidable (¬ _))

/-- A text without the separators around it, and with one where several follow each other. -/
def squeeze (c : Char) (text : List Char) : List Char :=
  ((text.dropWhile (· == c)).rdropWhile (· == c)).destutter (Keeps c)

section Words

theorem Keeps.of_ne_left {a : Char} (other : a ≠ c) (b : Char) : Keeps c a b :=
  fun both => other both.1

theorem Keeps.of_ne_right {b : Char} (other : b ≠ c) (a : Char) : Keeps c a b :=
  fun both => other both.2

theorem destutter'_of_not_mem (free : c ∉ piece) (a : Char) :
    piece.destutter' (Keeps c) a = a :: piece := by
  induction piece generalizing a with
  | nil => rfl
  | cons d piece ih =>
    obtain ⟨other, free⟩ := List.ne_and_not_mem_of_not_mem_cons free
    rw [List.destutter'_cons_pos _ (Keeps.of_ne_right other.symm a), ih free]

theorem destutter'_append {a : Char} (other : a ≠ c) (free : c ∉ piece) (text : List Char) :
    (piece ++ c :: text).destutter' (Keeps c) a = a :: piece ++ text.destutter' (Keeps c) c := by
  induction piece generalizing a with
  | nil => exact List.destutter'_cons_pos _ (Keeps.of_ne_left other c)
  | cons d piece ih =>
    obtain ⟨next, free⟩ := List.ne_and_not_mem_of_not_mem_cons free
    rw [List.cons_append, List.destutter'_cons_pos _ (Keeps.of_ne_left other d), ih next.symm free]
    rfl

/-- Empty pieces at the beginning and at the end are none of the words. -/
theorem filter_trimmed : ((pieces.dropWhile (· = [])).rdropWhile (· = [])).filter (· ≠ []) =
    pieces.filter (· ≠ []) := by
  have none {empty : List (List Char)} (each : ∀ piece ∈ empty, piece = []) :
      empty.filter (· ≠ []) = [] := List.filter_eq_nil_iff.mpr (by simpa using each)
  have front : (pieces.takeWhile (· = [])).filter (· ≠ []) = [] :=
    none fun piece inside => by simpa using List.mem_takeWhile_imp inside
  have back : ((pieces.dropWhile (· = [])).rtakeWhile (· = [])).filter (· ≠ []) = [] :=
    none fun piece inside => by simpa using List.mem_rtakeWhile_imp inside
  conv_rhs =>
    rw [← List.takeWhile_append_dropWhile (p := (· = [])) (l := pieces),
      ← List.rdropWhile_append_rtakeWhile (p := (· = [])) (l := pieces.dropWhile (· = []))]
  rw [List.filter_append, List.filter_append, front, back, List.nil_append, List.append_nil]

variable (free : ∀ piece ∈ pieces, c ∉ piece)
include free

theorem dropWhile_joinWith : (joinWith c pieces).dropWhile (· == c) =
    joinWith c (pieces.dropWhile (· = [])) := by
  induction pieces with
  | nil => rfl
  | cons piece rest ih =>
    cases piece with
    | nil =>
      rcases eq_or_ne rest [] with rfl | given
      · rfl
      · have later := ih fun piece inside => free piece (List.mem_cons_of_mem _ inside)
        rw [joinWith_cons _ given]
        simpa using later
    | cons d piece =>
      have other : d ≠ c := fun same => free _ List.mem_cons_self (by simp [same])
      cases rest <;> simp [joinWith, other]

theorem rdropWhile_joinWith : (joinWith c pieces).rdropWhile (· == c) =
    joinWith c (pieces.rdropWhile (· = [])) := by
  induction pieces using List.reverseRecOn with
  | nil => rfl
  | append_singleton rest piece ih =>
    have later := ih fun piece inside => free piece (List.mem_append_left _ inside)
    rcases List.eq_nil_or_concat piece with rfl | ⟨front, d, rfl⟩
    · rw [List.rdropWhile_concat_pos _ _ _ (by simp), ← later]
      rcases eq_or_ne rest [] with rfl | given
      · rfl
      · rw [joinWith_append given (by simp)]
        exact List.rdropWhile_concat_pos _ _ _ (by simp)
    · rw [List.concat_eq_append] at free ⊢
      have other : c ≠ d := fun same => free (front ++ [d]) (by simp) (by simp [same])
      have kept (before : List Char) :
          (before ++ [d]).rdropWhile (· == c) = before ++ [d] :=
        List.rdropWhile_concat_neg _ before d (by simpa using other.symm)
      rw [List.rdropWhile_concat_neg _ _ _ (by simp)]
      rcases eq_or_ne rest [] with rfl | given
      · exact kept front
      · rw [joinWith_append given (by simp), joinWith, ← List.cons_append, ← List.append_assoc,
          kept]

theorem destutter'_joinWith (given : pieces ≠ []) (ended : pieces.getLast given ≠ []) :
    (joinWith c pieces).destutter' (Keeps c) c = c :: joinWith c (pieces.filter (· ≠ [])) := by
  induction pieces with
  | nil => exact absurd rfl given
  | cons piece rest ih =>
    have inside := free piece List.mem_cons_self
    rcases eq_or_ne rest [] with rfl | more
    · have kept : ([piece].filter (· ≠ [])) = [piece] := by simpa using ended
      rw [kept, joinWith, destutter'_of_not_mem inside]
    have last : rest.getLast more ≠ [] := by rwa [List.getLast_cons more] at ended
    have later := ih (fun piece inside => free piece (List.mem_cons_of_mem _ inside)) more last
    rw [joinWith_cons _ more]
    cases piece with
    | nil =>
      have dropped : ¬ Keeps c c c := fun kept => kept ⟨rfl, rfl⟩
      rw [List.nil_append, List.destutter'_cons_neg _ dropped, later,
        List.filter_cons_of_neg (by simp)]
    | cons d piece =>
      obtain ⟨other, clear⟩ := List.ne_and_not_mem_of_not_mem_cons inside
      have words : rest.filter (· ≠ []) ≠ [] :=
        List.ne_nil_of_mem (List.mem_filter.mpr ⟨List.getLast_mem more, by simpa using last⟩)
      rw [List.cons_append, List.destutter'_cons_pos _ (Keeps.of_ne_right other.symm c),
        destutter'_append other.symm clear, later, List.filter_cons_of_pos (by simp),
        joinWith_cons _ words]

theorem squeeze_joinWith :
    squeeze c (joinWith c pieces) = joinWith c (pieces.filter (· ≠ [])) := by
  have left := fun piece inside => free piece ((List.dropWhile_sublist (· = [])).mem inside)
  have inner := fun piece inside => left piece ((List.rdropWhile_prefix (· = []) _).mem inside)
  rw [squeeze, dropWhile_joinWith free, rdropWhile_joinWith left, ← filter_trimmed]
  rcases eq_or_ne ((pieces.dropWhile (· = [])).rdropWhile (· = [])) [] with none | given
  · rw [none]
    rfl
  have ended := List.rdropWhile_last_not (· = []) (pieces.dropWhile (· = [])) given
  have begun : ((pieces.dropWhile (· = [])).rdropWhile (· = [])).head given ≠ [] := by
    rw [(List.rdropWhile_prefix (· = []) _).head given]
    simpa using List.head_dropWhile_not (· = []) _
  have words := destutter'_joinWith inner given (by simpa using ended)
  generalize (pieces.dropWhile (· = [])).rdropWhile (· = []) = trimmed at *
  obtain ⟨first, rest, rfl⟩ := List.exists_cons_of_ne_nil given
  obtain ⟨d, piece, rfl⟩ := List.exists_cons_of_ne_nil begun
  have other : c ≠ d := (List.ne_and_not_mem_of_not_mem_cons (inner _ List.mem_cons_self)).1
  obtain ⟨others, front⟩ : ∃ others, joinWith c ((d :: piece) :: rest) = d :: others := by
    cases rest <;> simp [joinWith]
  -- Nothing is dropped at the first word, whether or not a separator is before it.
  rw [front, List.destutter'_cons_pos _ (Keeps.of_ne_right other.symm c)] at words
  rw [front, List.destutter_cons']
  exact List.tail_eq_of_cons_eq words

omit free in
/-- Putting the words of a text together gives the text without what separates no words. -/
theorem squeeze_eq (c : Char) (text : List Char) :
    squeeze c text = joinWith c ((splitOn c text).filter (· ≠ [])) := by
  conv_lhs => rw [← joinWith_splitOn c text]
  exact squeeze_joinWith fun piece inside => not_mem_of_mem_splitOn inside

end Words
end Launcher.Text
