import Launcher.Launch.CommandLine
import Launcher.Proofs.Text.Pieces

/-! Command lines as they are shown. What stands between the spaces outside double quotes of a line,
without the quotes, is its arguments again, so no two command lines look the same. Only an argument
with a double quote of its own can be taken for another one. -/
namespace Launcher

namespace Text

/-- The pieces of a text between the separators outside quotes. The quotes are left in the pieces;
`quoted` tells whether the text begins within quotes. -/
def splitOutside (separator quote : Char) : (quoted : Bool) → List Char → List (List Char)
  | _, [] => [[]]
  | quoted, c :: rest =>
    if c = separator ∧ quoted = false then [] :: splitOutside separator quote false rest
    else (splitOutside separator quote (if c = quote then !quoted else quoted) rest).modifyHead
      (c :: ·)

/-- A text that separators leave whole: what is behind it is cut as if it began there. -/
def IsWhole (separator quote : Char) (piece : List Char) : Prop :=
  ∀ rest, splitOutside separator quote false (piece ++ rest) =
    (splitOutside separator quote false rest).modifyHead (piece ++ ·)

section Whole
variable {separator quote : Char} {piece : List Char} {pieces : List (List Char)}

/-- Letters that are no quotes are kept together, and separators among them within quotes. -/
theorem splitOutside_append {quoted : Bool} (unquoted : quote ∉ piece)
    (unseparated : quoted = false → separator ∉ piece) (rest : List Char) :
    splitOutside separator quote quoted (piece ++ rest) =
      (splitOutside separator quote quoted rest).modifyHead (piece ++ ·) := by
  induction piece with
  | nil => exact (congrFun List.modifyHead_id _).symm
  | cons c piece ih =>
    obtain ⟨other, unquoted⟩ := List.ne_and_not_mem_of_not_mem_cons unquoted
    have kept : ¬ (c = separator ∧ quoted = false) := by
      rintro ⟨rfl, outside⟩
      exact unseparated outside List.mem_cons_self
    have later := ih unquoted fun outside inside =>
      unseparated outside (List.mem_cons_of_mem c inside)
    rw [List.cons_append, splitOutside, if_neg kept, if_neg other.symm, later,
      List.modifyHead_modifyHead]
    rfl

theorem isWhole_of_free (unquoted : quote ∉ piece) (unseparated : separator ∉ piece) :
    IsWhole separator quote piece :=
  splitOutside_append unquoted fun _ => unseparated

theorem isWhole_quoted (different : quote ≠ separator) (unquoted : quote ∉ piece) :
    IsWhole separator quote (quote :: piece ++ [quote]) := by
  intro rest
  have opening : splitOutside separator quote false (quote :: (piece ++ quote :: rest)) =
      (splitOutside separator quote true (piece ++ quote :: rest)).modifyHead (quote :: ·) := by
    simp [splitOutside, different]
  have closing : splitOutside separator quote true (quote :: rest) =
      (splitOutside separator quote false rest).modifyHead (quote :: ·) := by
    simp [splitOutside]
  have inside : splitOutside separator quote true (piece ++ quote :: rest) =
      (splitOutside separator quote true (quote :: rest)).modifyHead (piece ++ ·) :=
    splitOutside_append unquoted (fun outside : true = false => nomatch outside) _
  rw [List.append_assoc, List.cons_append, List.singleton_append, opening, inside, closing,
    List.modifyHead_modifyHead, List.modifyHead_modifyHead]
  congr 1
  funext tail
  simp

/-- Pieces that are left whole are found again where they were put together. -/
theorem splitOutside_joinWith (some : pieces ≠ [])
    (whole : ∀ piece ∈ pieces, IsWhole separator quote piece) :
    splitOutside separator quote false (joinWith separator pieces) = pieces := by
  induction pieces with
  | nil => contradiction
  | cons piece pieces ih =>
    rw [List.forall_mem_cons] at whole
    by_cases last : pieces = []
    · subst last
      have cut := whole.1 []
      rw [List.append_nil] at cut
      simpa [joinWith, splitOutside] using cut
    · have separated : splitOutside separator quote false
          (separator :: joinWith separator pieces) = [] :: pieces := by
        rw [splitOutside, if_pos ⟨rfl, rfl⟩, ih last whole.2]
      rw [joinWith_cons _ last, whole.1, separated, List.modifyHead_cons, List.append_nil]

theorem eq_nil_of_joinWith (empty : joinWith separator (piece :: pieces) = []) : piece = [] := by
  cases pieces with
  | nil => exact empty
  | cons next rest => exact (List.append_eq_nil_iff.mp empty).1

end Whole
end Text

namespace CommandLine

/-- An argument as it stands in a line. -/
def written (argument : String) : String :=
  if needsQuotes argument then "\"" ++ argument ++ "\"" else argument

/-- The arguments in a line: its pieces between the spaces outside double quotes, without the
quotes. An empty line has no pieces. -/
def readLine (line : String) : List String :=
  if line = "" then []
  else (Text.splitOutside ' ' '"' false line.toList).map fun piece =>
    String.ofList (piece.filter fun c => c ≠ '"')

/-- No argument has a double quote. -/
def Unquoted (arguments : List String) : Prop := ∀ argument ∈ arguments, '"' ∉ argument.toList

instance : DecidablePred Unquoted := fun _ => List.decidableBAll _ _

section Reading
variable {argument : String}

theorem written_isWhole (unquoted : '"' ∉ argument.toList) :
    Text.IsWhole ' ' '"' (written argument).toList := by
  unfold written
  split
  · rw [String.toList_append, String.toList_append]
    exact Text.isWhole_quoted (show '"' ≠ ' ' by decide) unquoted
  · rename_i plain
    refine Text.isWhole_of_free unquoted fun spaced => plain ?_
    simp [needsQuotes, spaced]

theorem written_ne_empty (argument : String) : written argument ≠ "" := by
  unfold written
  split
  · intro empty
    simpa using congrArg String.toList empty
  · rename_i plain
    rintro rfl
    exact plain rfl

theorem filter_written (unquoted : '"' ∉ argument.toList) :
    (written argument).toList.filter (fun c => c ≠ '"') = argument.toList := by
  have kept : argument.toList.filter (fun c => c ≠ '"') = argument.toList := by
    refine List.filter_eq_self.mpr fun c inside => ?_
    have other : c ≠ '"' := fun same => unquoted (same ▸ inside)
    simpa using other
  unfold written
  split
  · simpa using kept
  · exact kept

theorem toList_line (arguments : List String) :
    (line arguments).toList = Text.joinWith ' ' (arguments.map fun a => (written a).toList) := by
  rw [line, String.toList_intercalate, Text.joinWith_eq_intercalate, List.map_map]
  rfl

theorem line_eq_empty {arguments : List String} : line arguments = "" ↔ arguments = [] := by
  constructor
  · intro empty
    cases arguments with
    | nil => rfl
    | cons first rest =>
      have letters := congrArg String.toList empty
      rw [toList_line, List.map_cons] at letters
      have none : written first = "" := String.toList_injective (Text.eq_nil_of_joinWith letters)
      exact absurd none (written_ne_empty first)
  · rintro rfl
    rfl

theorem readLine_line {arguments : List String} (unquoted : Unquoted arguments) :
    readLine (line arguments) = arguments := by
  rcases eq_or_ne arguments [] with rfl | given
  · rfl
  have cut : Text.splitOutside ' ' '"' false (line arguments).toList =
      arguments.map fun a => (written a).toList := by
    rw [toList_line]
    refine Text.splitOutside_joinWith (by simpa using given) fun piece inside => ?_
    obtain ⟨argument, listed, rfl⟩ := List.mem_map.mp inside
    exact written_isWhole (unquoted argument listed)
  rw [readLine, if_neg (line_eq_empty.not.mpr given), cut, List.map_map]
  refine (List.map_congr_left fun argument listed => ?_).trans (List.map_id _)
  exact (congrArg String.ofList (filter_written (unquoted argument listed))).trans
    String.ofList_toList

theorem unquoted_readLine (line : String) : Unquoted (readLine line) := by
  unfold readLine
  split
  · exact nofun
  · intro argument inside
    obtain ⟨piece, _, rfl⟩ := List.mem_map.mp inside
    simp

/-- A line is read back exactly if none of its arguments has a double quote. -/
theorem readLine_line_iff {arguments : List String} :
    readLine (line arguments) = arguments ↔ Unquoted arguments :=
  ⟨fun same => same ▸ unquoted_readLine _, readLine_line⟩

/-- Arguments without double quotes are read back from their line, whatever spaces they have and
whether they are empty. So a line belongs to one list of them only. -/
theorem line_rereads {arguments : List String} (unquoted : Unquoted arguments) :
    readLine (line arguments) = arguments ∧
    ∀ others, Unquoted others → (line others = line arguments ↔ others = arguments) := by
  refine ⟨readLine_line unquoted, ?_⟩
  intro others unquoted'
  constructor
  · intro same
    calc others = readLine (line others) := (readLine_line unquoted').symm
      _ = readLine (line arguments) := by rw [same]
      _ = arguments := readLine_line unquoted
  · rintro rfl
    rfl

/-- Arguments that spaces and quotes keep apart only. -/
theorem line_rereads_spaces :
    let arguments := ["java", "", " a  b ", "-cp", " "]
    Unquoted arguments ∧ line arguments = "java \"\" \" a  b \" -cp \" \"" ∧
      readLine (line arguments) = arguments ∧ Unquoted ["java", " ", "a b", "-cp", ""] ∧
      line ["java", " ", "a b", "-cp", ""] ≠ line arguments := by
  intro arguments
  have unquoted : Unquoted arguments := by decide
  have unquoted' : Unquoted ["java", " ", "a b", "-cp", ""] := by decide
  obtain ⟨read, unique⟩ := line_rereads unquoted
  exact ⟨unquoted, by decide, read, unquoted', (unique _ unquoted').not.mpr (by decide)⟩

/-- A double quote of an argument looks like one around it. -/
example : line ["\"\""] = line [""] := by decide

end Reading

end CommandLine
end Launcher
