import Launcher.Proofs.Json.Numbers
import Launcher.Proofs.Json.Regular
import Launcher.Proofs.Json.Strings
import Launcher.Proofs.Text.Utf8

/-! Printed documents are read as what was printed. It holds of every value that a text can stand
for, whatever its integers, doubles and texts are. -/
namespace Launcher.Json
open Number (isDigit)

namespace Parser
variable {rest : List Char} {fuel : Nat}

theorem skipSpace_of_first {c : Char} (visible : isSpace c = false) (text : List Char) :
    skipSpace (c :: text) = c :: text := by
  simp [skipSpace, visible]

theorem skipSpace_space {c : Char} (visible : isSpace c = false) (text : List Char) :
    skipSpace (' ' :: c :: text) = c :: text := by
  simp [skipSpace, visible, show isSpace ' ' = true by decide]

/-- What starts with neither a quote nor a bracket is a word or a number. -/
theorem value_of_first {c : Char} (quote : c ≠ '"') (brace : c ≠ '\x7b') (bracket : c ≠ '[')
    (text : List Char) :
    value (fuel + 1) (c :: text) = match literal? (c :: text) with
      | some found => .ok found
      | none => number (c :: text) := by
  unfold value
  split
  · rename_i same
    cases same
    exact absurd rfl quote
  · rename_i same
    cases same
    exact absurd rfl brace
  · rename_i same
    cases same
    exact absurd rfl bracket
  · rfl

end Parser

namespace Numeral
variable {n : Numeral} {v : Json} {printed rest : List Char}

/-- A numeral starts with a digit, or with a sign and a digit. -/
theorem IsProper.first_char (proper : n.IsProper) : ∃ c more, isDigit c = true ∧
    (n.text = c :: more ∨ n.text = '-' :: c :: more) := by
  obtain ⟨c, others, same⟩ := List.exists_cons_of_ne_nil proper.whole
  refine ⟨c, others ++ (placesText n.places ++ powerText n.power),
    proper.wholeDigits c (by simp [same]), ?_⟩
  unfold text
  cases n.negative <;> simp [same]

theorem ne_of_isDigit {c d : Char} (digit : isDigit c = true) (other : isDigit d = false) :
    c ≠ d := by
  rintro rfl
  simp [other] at digit

/-- A numeral is no word, so a value that starts with one is a number. -/
theorem IsProper.value_eq (proper : n.IsProper) (fuel : Nat) (rest : List Char) :
    Parser.value (fuel + 1) (n.text ++ rest) = Parser.number (n.text ++ rest) := by
  obtain ⟨c, more, digit, first⟩ := proper.first_char
  have other {d : Char} (letter : isDigit d = false) : c ≠ d := ne_of_isDigit digit letter
  have other' {d : Char} (letter : isDigit d = false) : d ≠ c := (other letter).symm
  rcases first with first | first
  · have word : Parser.literal? (c :: (more ++ rest)) = none := by
      simp [Parser.literal?, Parser.word?, other' (d := 'n') (by decide),
        other' (d := 't') (by decide), other' (d := 'f') (by decide),
        other' (d := 'N') (by decide), other' (d := 'I') (by decide),
        other' (d := '-') (by decide)]
    rw [first, List.cons_append, Parser.value_of_first (other (by decide)) (other (by decide))
      (other (by decide)), word]
  · have word : Parser.literal? ('-' :: c :: (more ++ rest)) = none := by
      simp [Parser.literal?, Parser.word?, other' (d := 'I') (by decide)]
    rw [first, List.cons_append, List.cons_append, Parser.value_of_first (by decide) (by decide)
      (by decide), word]

theorem Prints.value_eq (prints : n.Prints v printed) (follows : Follows rest) (fuel : Nat) :
    Parser.value (fuel + 1) (printed ++ rest) = .ok (v, rest) := by
  rw [prints.text, prints.proper.value_eq, number_text prints.proper follows, prints.value]

theorem Prints.first_char (prints : n.Prints v printed) :
    ∃ c more, printed = c :: more ∧ (isDigit c = true ∨ c = '-') := by
  obtain ⟨c, more, digit, first | first⟩ := prints.proper.first_char
  · exact ⟨c, more, prints.text.trans first, .inl digit⟩
  · exact ⟨'-', c :: more, prints.text.trans first, .inr rfl⟩

end Numeral

/-- A printed double is read as itself, infinities and NaN being words. -/
theorem value_renderFloat (x : Binary64) {rest : List Char} (follows : Follows rest) (fuel : Nat) :
    Parser.value (fuel + 1) (renderFloat x ++ rest) = .ok (.float x, rest) := by
  match x with
  | .nan => rfl
  | .signed negative rank =>
    by_cases infinite : rank.val = infinityRank
    · have same : rank = ⟨infinityRank, by decide⟩ := Fin.ext infinite
      subst same
      cases negative <;> rfl
    · obtain ⟨numeral, prints⟩ := Numeral.exists_prints_float negative infinite
      exact prints.value_eq follows fuel

theorem renderFloat_first (x : Binary64) :
    ∃ c more, renderFloat x = c :: more ∧ (isDigit c = true ∨ c = '-' ∨ c = 'N' ∨ c = 'I') := by
  match x with
  | .nan => exact ⟨'N', _, rfl, by simp⟩
  | .signed negative rank =>
    by_cases infinite : rank.val = infinityRank
    · have same : rank = ⟨infinityRank, by decide⟩ := Fin.ext infinite
      subst same
      cases negative
      · exact ⟨'I', _, rfl, by simp⟩
      · exact ⟨'-', _, rfl, by simp⟩
    · obtain ⟨numeral, prints⟩ := Numeral.exists_prints_float negative infinite
      obtain ⟨c, more, same, first⟩ := prints.first_char
      exact ⟨c, more, same, first.imp_right .inl⟩

/-- A character that can start a value. -/
def StartsValue (c : Char) : Prop := Parser.isSpace c = false ∧ c ≠ ']' ∧ c ≠ '\x7d'

instance (c : Char) : Decidable (StartsValue c) := inferInstanceAs (Decidable (_ ∧ _))

theorem startsValue_of_isDigit {c : Char} (digit : isDigit c = true) : StartsValue c := by
  refine ⟨?_, Numeral.ne_of_isDigit digit (by decide), Numeral.ne_of_isDigit digit (by decide)⟩
  simp [Parser.isSpace, Numeral.ne_of_isDigit digit (by decide : isDigit ' ' = false),
    Numeral.ne_of_isDigit digit (by decide : isDigit '\t' = false),
    Numeral.ne_of_isDigit digit (by decide : isDigit '\n' = false),
    Numeral.ne_of_isDigit digit (by decide : isDigit '\r' = false)]

theorem render_first {v : Json} (regular : IsRegular v) :
    ∃ c more, render v = c :: more ∧ StartsValue c := by
  cases regular with
  | null => exact ⟨'n', _, rfl, by decide⟩
  | bool b => cases b <;> exact ⟨_, _, rfl, by decide⟩
  | int short =>
    obtain ⟨numeral, prints⟩ := Numeral.exists_prints_int short
    obtain ⟨c, more, same, digit | rfl⟩ := prints.first_char
    · exact ⟨c, more, by rw [render, same], startsValue_of_isDigit digit⟩
    · exact ⟨'-', more, by rw [render, same], by decide⟩
  | float x =>
    obtain ⟨c, more, same, digit | rfl | rfl | rfl⟩ := renderFloat_first x
    · exact ⟨c, more, by rw [render, same], startsValue_of_isDigit digit⟩
    all_goals exact ⟨_, more, by rw [render, same], by decide⟩
  | string s => exact ⟨'"', _, by rw [render, renderString], by decide⟩
  | list each => exact ⟨'[', _, by rw [render], by decide⟩
  | object distinct each => exact ⟨'\x7b', _, by rw [render], by decide⟩

theorem renderItems_cons (v w : Json) (more : List Json) :
    renderItems (v :: w :: more) = render v ++ ',' :: ' ' :: renderItems (w :: more) := by
  rw [renderItems]
  simp

theorem renderMembers_cons (pair other : String × Json) (more : List (String × Json)) :
    renderMembers (pair :: other :: more) = renderString pair.1 ++
      ':' :: ' ' :: (render pair.2 ++ ',' :: ' ' :: renderMembers (other :: more)) := by
  rw [renderMembers]
  simp

theorem renderItems_first {v : Json} (regular : IsRegular v) (more : List Json) :
    ∃ c behind, renderItems (v :: more) = c :: behind ∧ StartsValue c := by
  obtain ⟨c, behind, same, starts⟩ := render_first regular
  cases more with
  | nil => exact ⟨c, behind, by rw [renderItems, same], starts⟩
  | cons w more => exact ⟨c, _, by rw [renderItems_cons, same, List.cons_append], starts⟩

theorem renderMembers_first (pair : String × Json) (more : List (String × Json)) :
    ∃ behind, renderMembers (pair :: more) = '"' :: behind := by
  cases more with
  | nil => exact ⟨_, by rw [renderMembers, renderString, List.cons_append]⟩
  | cons other more => exact ⟨_, by rw [renderMembers_cons, renderString, List.cons_append]⟩

theorem follows_comma (text : List Char) : Follows (',' :: text) := by
  rintro _ ⟨⟩
  exact .inl rfl

theorem follows_bracket (text : List Char) : Follows (']' :: text) := by
  rintro _ ⟨⟩
  exact .inr (.inl rfl)

theorem follows_brace (text : List Char) : Follows ('\x7d' :: text) := by
  rintro _ ⟨⟩
  exact .inr (.inr rfl)

namespace Parser

/-- With enough fuel a printed value is read as itself, and so are the items of a list and the
members of an object, up to the closing bracket. -/
structure Rereads (fuel : Nat) : Prop where
  value : ∀ v rest, IsRegular v → Follows rest → (render v).length ≤ fuel →
    value fuel (render v ++ rest) = .ok (v, rest)
  items : ∀ v more rest, (∀ w ∈ v :: more, IsRegular w) →
    (renderItems (v :: more)).length < fuel →
    items fuel (renderItems (v :: more) ++ ']' :: rest) = .ok (v :: more, rest)
  members : ∀ pair more rest, (∀ p ∈ pair :: more, IsRegular p.2) →
    (renderMembers (pair :: more)).length < fuel →
    members fuel (renderMembers (pair :: more) ++ '\x7d' :: rest) = .ok (pair :: more, rest)

namespace Rereads
variable {fuel : Nat} (rereads : Rereads fuel) {rest : List Char}
include rereads

theorem value_list {values : List Json} (each : ∀ v ∈ values, IsRegular v)
    (enough : (render (.list values)).length ≤ fuel + 1) :
    Parser.value (fuel + 1) (render (.list values) ++ rest) = .ok (.list values, rest) := by
  cases values with
  | nil => rfl
  | cons v more =>
    obtain ⟨c, behind, same, visible, bracket, _⟩ :=
      renderItems_first (each v List.mem_cons_self) more
    have read := rereads.items v more rest each (by simp [render] at enough; omega)
    rw [same, List.cons_append] at read
    rw [render, List.cons_append, List.append_assoc, List.singleton_append, Parser.value, same,
      List.cons_append, skipSpace_of_first visible]
    split
    · rename_i first
      cases first
      exact absurd rfl bracket
    · rw [read]
      rfl

theorem value_object {pairs : Members} (distinct : (pairs.map (·.1)).Nodup)
    (each : ∀ pair ∈ pairs, IsRegular pair.2)
    (enough : (render (.object pairs)).length ≤ fuel + 1) :
    Parser.value (fuel + 1) (render (.object pairs) ++ rest) = .ok (.object pairs, rest) := by
  cases pairs with
  | nil => rfl
  | cons pair more =>
    obtain ⟨behind, same⟩ := renderMembers_first pair more
    have read := rereads.members pair more rest each (by simp [render] at enough; omega)
    rw [same, List.cons_append] at read
    rw [render, List.cons_append, List.append_assoc, List.singleton_append, Parser.value, same,
      List.cons_append, skipSpace_of_first (by decide)]
    split
    · rename_i first
      exact absurd (List.cons.inj first).1 (by decide)
    · rw [read]
      simp only [Except.map, Members.ofList_of_nodup distinct]

theorem value_succ {v : Json} (regular : IsRegular v) (follows : Follows rest)
    (enough : (render v).length ≤ fuel + 1) :
    Parser.value (fuel + 1) (render v ++ rest) = .ok (v, rest) := by
  cases regular with
  | null => rfl
  | bool b => cases b <;> rfl
  | int short =>
    obtain ⟨numeral, prints⟩ := Numeral.exists_prints_int short
    exact prints.value_eq follows fuel
  | float x => exact value_renderFloat x follows fuel
  | string s =>
    obtain ⟨printed, same, read⟩ := stringLiteral_renderString s rest
    rw [render, same, List.cons_append, Parser.value, read]
    rfl
  | list each => exact rereads.value_list each enough
  | object distinct each => exact rereads.value_object distinct each enough

theorem items_succ {v : Json} {more : List Json} (each : ∀ w ∈ v :: more, IsRegular w)
    (enough : (renderItems (v :: more)).length < fuel + 1) :
    Parser.items (fuel + 1) (renderItems (v :: more) ++ ']' :: rest) = .ok (v :: more, rest) := by
  have regular := each v List.mem_cons_self
  cases more with
  | nil =>
    have read := rereads.value v (']' :: rest) regular (follows_bracket rest)
      (by simp [renderItems] at enough; omega)
    rw [Parser.items, renderItems, read]
    rfl
  | cons w more =>
    rw [renderItems_cons] at enough ⊢
    simp only [List.length_append, List.length_cons] at enough
    have read := rereads.value v (',' :: ' ' :: (renderItems (w :: more) ++ ']' :: rest)) regular
      (follows_comma _) (by omega)
    have others := rereads.items w more rest
      (fun u member => each u (List.mem_cons_of_mem _ member)) (by omega)
    obtain ⟨c, behind, same, visible, _⟩ :=
      renderItems_first (each w (List.mem_cons_of_mem _ List.mem_cons_self)) more
    rw [same, List.cons_append] at read others
    rw [Parser.items, same, List.append_assoc, List.cons_append, List.cons_append,
      List.cons_append, read]
    simp only [bind, Except.bind, skipSpace_of_first (by decide : isSpace ',' = false),
      skipSpace_space visible, others]
    rfl

theorem members_succ {pair : String × Json} {more : Members}
    (each : ∀ p ∈ pair :: more, IsRegular p.2)
    (enough : (renderMembers (pair :: more)).length < fuel + 1) :
    Parser.members (fuel + 1) (renderMembers (pair :: more) ++ '\x7d' :: rest) =
      .ok (pair :: more, rest) := by
  obtain ⟨name, v⟩ := pair
  have regular := each (name, v) List.mem_cons_self
  cases more with
  | nil =>
    rw [renderMembers] at enough ⊢
    simp only [List.length_append, List.length_cons] at enough
    obtain ⟨printed, quoted, literal⟩ := stringLiteral_renderString name
      (':' :: ' ' :: (render v ++ '\x7d' :: rest))
    have read := rereads.value v ('\x7d' :: rest) regular (follows_brace rest) (by omega)
    obtain ⟨c, behind, same, visible, _⟩ := render_first regular
    rw [same, List.cons_append] at read literal
    rw [same, quoted, List.append_assoc, List.cons_append, List.cons_append, List.cons_append,
      List.cons_append]
    unfold Parser.members
    simp only [literal, bind, Except.bind, skipSpace_of_first (by decide : isSpace ':' = false),
      skipSpace_space visible, read]
    rfl
  | cons other more =>
    rw [renderMembers_cons] at enough ⊢
    simp only [List.length_append, List.length_cons] at enough
    obtain ⟨printed, quoted, literal⟩ := stringLiteral_renderString name
      (':' :: ' ' :: (render v ++ ',' :: ' ' :: (renderMembers (other :: more) ++
        '\x7d' :: rest)))
    have read := rereads.value v (',' :: ' ' :: (renderMembers (other :: more) ++ '\x7d' :: rest))
      regular (follows_comma _) (by omega)
    have others := rereads.members other more rest
      (fun p member => each p (List.mem_cons_of_mem _ member)) (by omega)
    obtain ⟨c, behind, same, visible, _⟩ := render_first regular
    obtain ⟨behind', same'⟩ := renderMembers_first other more
    rw [same', List.cons_append] at read literal others
    rw [same, List.cons_append] at read literal
    rw [same, same', quoted, List.append_assoc]
    simp only [List.cons_append, List.append_assoc]
    unfold Parser.members
    simp only [literal, bind, Except.bind, skipSpace_of_first (by decide : isSpace ':' = false),
      skipSpace_space visible, read, skipSpace_of_first (by decide : isSpace ',' = false),
      skipSpace_space (by decide : isSpace '"' = false), others]
    rfl

end Rereads

theorem rereads (fuel : Nat) : Rereads fuel := by
  induction fuel with
  | zero =>
    constructor
    case value =>
      intro v rest regular _ short
      obtain ⟨c, more, same, _⟩ := render_first regular
      simp [same] at short
    case items => exact fun _ _ _ _ short => absurd short (Nat.not_lt_zero _)
    case members => exact fun _ _ _ _ short => absurd short (Nat.not_lt_zero _)
  | succ fuel ih =>
    constructor
    case value => exact fun _ _ regular follows enough => ih.value_succ regular follows enough
    case items => exact fun _ _ _ each enough => ih.items_succ each enough
    case members => exact fun _ _ _ each enough => ih.members_succ each enough

/-- A printed document is read as the value that was printed. -/
theorem document_render {v : Json} (regular : IsRegular v) : document (render v) = .ok v := by
  obtain ⟨c, behind, same, visible, _⟩ := render_first regular
  have read := (rereads (2 * (render v).length + 2)).value v [] regular nofun (by omega)
  rw [List.append_nil] at read
  unfold document
  rw [same] at read ⊢
  simp only [skipSpace_of_first visible, read, bind, Except.bind]
  rfl

end Parser
/-- Printed text of an object is read as the object, with no mark in front of it. -/
theorem parseText_render {members : Members} (regular : IsRegular (.object members)) :
    parseText (render (.object members)) = .ok (.object members) := by
  have read := Parser.document_render regular
  have first : (render (.object members)).head? = some '\x7b' := by
    rw [render, List.head?_cons]
  rw [parseText, if_neg (by rw [first]; decide), parseChars, read]

end Launcher.Json
