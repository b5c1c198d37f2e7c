/-! Texts cut at a character and put together again. -/
namespace Launcher.Text

def splitOn (c : Char) : List Char → List (List Char)
  | [] => [[]]
  | d :: rest =>
    match splitOn c rest with
    | [] => [[d]]
    | piece :: pieces => if d = c then [] :: piece :: pieces else (d :: piece) :: pieces

def joinWith (c : Char) : List (List Char) → List Char
  | [] => []
  | [piece] => piece
  | piece :: rest => piece ++ c :: joinWith c rest

theorem splitOn_ne_nil (c : Char) (text : List Char) : splitOn c text ≠ [] := by
  induction text with
  | nil => simp [splitOn]
  | cons d rest ih =>
    rw [splitOn]
    split
    · exact absurd ‹_› ih
    · split <;> simp

/-- Cutting a text and putting a character between the pieces gives the text again. -/
theorem joinWith_splitOn (c : Char) (text : List Char) : joinWith c (splitOn c text) = text := by
  induction text with
  | nil => rfl
  | cons d rest ih =>
    rw [splitOn]
    split
    · exact absurd ‹_› (splitOn_ne_nil c rest)
    · rename_i piece pieces h
      rw [h] at ih
      split
      · rename_i hd
        simp [joinWith, ih, hd]
      · cases pieces <;> simp_all [joinWith]

end Launcher.Text
