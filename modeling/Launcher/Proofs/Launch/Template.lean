import Launcher.Launch.Phase
import Mathlib.Data.List.TakeWhile

/-! How a text with placeholders is read. It is a sequence of placeholders with plain text between
them, found from left to right by the text alone. What is put in for the placeholders is not looked
at, so texts can be put together before their placeholders are filled or afterwards, unless their
joint makes a new mark or closes an open one. -/
namespace Launcher

namespace Replacements
variable {table : Replacements} {names : List String} {name : String}

/-- Whether a placeholder has no value. -/
def lacks (table : Replacements) (name : String) : Bool := (table.get? name).isNone

@[simp] theorem lacks_eq_true : table.lacks name = true ↔ table.get? name = none :=
  Option.isNone_iff_eq_none

@[simp] theorem lacks_eq_false : table.lacks name = false ↔ table.get? name ≠ none := by
  rw [← Bool.not_eq_true, lacks_eq_true]

/-- The characters that are put in for a placeholder, none if it has no value. -/
def value (table : Replacements) (name : String) : List Char := ((table.get? name).getD "").toList

/-- All names have values. -/
def Knows (table : Replacements) (names : List String) : Prop :=
  ∀ name ∈ names, table.get? name ≠ none

/-- The name is the leftmost one that has no value. -/
def FirstLacks (table : Replacements) (names : List String) (name : String) : Prop :=
  ∃ before after, names = before ++ name :: after ∧ table.Knows before ∧ table.get? name = none

theorem find?_lacks_eq_none : names.find? table.lacks = none ↔ table.Knows names := by
  simp [Knows]

theorem find?_lacks_eq_some :
    names.find? table.lacks = some name ↔ table.FirstLacks names name := by
  rw [List.find?_eq_some_iff_append]
  simp only [lacks_eq_true, FirstLacks, Knows, Bool.not_eq_true', lacks_eq_false]
  constructor
  · rintro ⟨unknown, before, after, split, known⟩
    exact ⟨before, after, split, known, unknown⟩
  · rintro ⟨before, after, split, known, unknown⟩
    exact ⟨unknown, before, after, split, known⟩

theorem not_knows_iff : ¬ table.Knows names ↔ ∃ name, table.FirstLacks names name := by
  simp only [← find?_lacks_eq_none, ← find?_lacks_eq_some]
  exact Option.ne_none_iff_exists'

end Replacements

namespace TemplatePiece
variable {table : Replacements} {c : Char} {name : String}

def name? : TemplatePiece → Option String
  | char _ => none
  | placeholder name => some name

@[simp] theorem name?_char : (char c).name? = none := rfl

@[simp] theorem name?_placeholder : (placeholder name).name? = some name := rfl

def filled (table : Replacements) : TemplatePiece → List Char
  | char c => [c]
  | placeholder name => table.value name

@[simp] theorem filled_char : (char c).filled table = [c] := rfl

@[simp] theorem filled_placeholder : (placeholder name).filled table = table.value name := rfl

end TemplatePiece

/-- Whatever comes of a literal, its placeholders are taken note of. -/
theorem Phase.push_names (phase : Phase) (text : String) (state : Evaluation) :
    (phase.push text state).2.names = state.names ++ Template.names text := by
  unfold push
  simp only
  split
  · rfl
  · split <;> rfl

namespace Template

section Pieces
variable {c : Char} {text name before tail : List Char}

/-- A character at which no placeholder starts stands for itself. -/
theorem pieces_cons (plain : ∀ after, c :: text = '$' :: '\x7b' :: after → '\x7d' ∉ after) :
    pieces (c :: text) = .char c :: pieces text := by
  rw [pieces.eq_def]
  split
  · contradiction
  · rename_i rest same
    obtain ⟨rfl, rfl⟩ := List.cons.inj same
    have unclosed : ¬ rest.contains '\x7d' = true := by simpa using plain rest rfl
    rw [if_neg unclosed]
  · rename_i same
    obtain ⟨rfl, rfl⟩ := List.cons.inj same
    rfl

/-- A name and what is behind it, cut at the first brace. -/
theorem cut_at_brace (first : '\x7d' ∉ name) (after : List Char) :
    (name ++ '\x7d' :: after).takeWhile (· ≠ '\x7d') = name ∧
      ((name ++ '\x7d' :: after).dropWhile (· ≠ '\x7d')).drop 1 = after := by
  have inside : ∀ c ∈ name, decide (c ≠ '\x7d') = true := by
    intro c member
    exact decide_eq_true fun same => first (same ▸ member)
  rw [List.takeWhile_append_of_pos inside, List.dropWhile_append_of_pos inside]
  simp

/-- A placeholder ends at the first brace that closes it. -/
theorem pieces_placeholder (first : '\x7d' ∉ name) (after : List Char) :
    pieces ('$' :: '\x7b' :: (name ++ '\x7d' :: after)) =
      .placeholder (String.ofList name) :: pieces after := by
  have closed : (name ++ '\x7d' :: after).contains '\x7d' = true := by simp
  have ⟨inside, behind⟩ := cut_at_brace first after
  rw [pieces, if_pos closed, inside, behind]

/-- A text in which no placeholder starts stands for itself, whatever follows it. -/
theorem pieces_append_of_plain
    (plain : ∀ other after, before ++ tail = other ++ '$' :: '\x7b' :: after → '\x7d' ∈ after →
      before.length ≤ other.length) :
    pieces (before ++ tail) = before.map .char ++ pieces tail := by
  induction before with
  | nil => rfl
  | cons c before ih =>
    have here : ∀ after, c :: (before ++ tail) = '$' :: '\x7b' :: after → '\x7d' ∉ after := by
      intro after same closed
      have bound := plain [] after same closed
      simp at bound
    have later := ih fun other after same closed => by
      have bound := plain (c :: other) after (congrArg (c :: ·) same) closed
      simpa using bound
    rw [List.cons_append, pieces_cons here, later]
    rfl

end Pieces

section Filling
variable {table : Replacements} {text : String}

/-- Pieces are filled unless a placeholder has no value, of which the leftmost one is told. -/
theorem fillAll_eq (table : Replacements) (pieces : List TemplatePiece) :
    fillAll table pieces =
      match (pieces.filterMap TemplatePiece.name?).find? table.lacks with
      | some name => .error name
      | none => .ok (pieces.flatMap (·.filled table)) := by
  induction pieces with
  | nil => rfl
  | cons piece rest ih =>
    rw [fillAll, ih]
    cases piece with
    | char c =>
      rw [List.filterMap_cons_none rfl]
      cases (rest.filterMap TemplatePiece.name?).find? table.lacks <;> rfl
    | placeholder name =>
      rw [List.filterMap_cons_some TemplatePiece.name?_placeholder, List.find?_cons,
        Replacements.lacks]
      rcases known : table.get? name with _ | value
      · simp [fill, known]
      · cases (rest.filterMap TemplatePiece.name?).find? table.lacks <;>
          simp [fill, known, Except.map, Replacements.value]

theorem names_eq (text : String) :
    names text = (pieces text.toList).filterMap TemplatePiece.name? := rfl

/-- A text is filled unless a placeholder has no value, of which the leftmost one is told. -/
theorem substitute_eq (text : String) (table : Replacements) :
    substitute text table =
      match (names text).find? table.lacks with
      | some name => .error ⟨name, text⟩
      | none => .ok (String.ofList ((pieces text.toList).flatMap (·.filled table))) := by
  rw [substitute, fillAll_eq, ← names_eq]
  cases (names text).find? table.lacks <;> rfl

theorem substitute_ok_iff {filled : String} : substitute text table = .ok filled ↔
    table.Knows (names text) ∧
      filled = String.ofList ((pieces text.toList).flatMap (·.filled table)) := by
  rw [substitute_eq, ← Replacements.find?_lacks_eq_none]
  cases (names text).find? table.lacks <;> simp [eq_comm]

theorem substitute_error_iff {e : UnresolvedPlaceholder} : substitute text table = .error e ↔
    e.template = text ∧ table.FirstLacks (names text) e.name := by
  rw [substitute_eq, ← Replacements.find?_lacks_eq_some]
  obtain ⟨name, template⟩ := e
  cases (names text).find? table.lacks <;> simp [and_comm, eq_comm]

end Filling

/-- How a text is read: the name of each placeholder, with the text between it and the one before
it, and the text behind the last one. -/
structure Reading where
  placeholders : List (List Char × String)
  rest : List Char
  deriving DecidableEq, Repr

namespace Reading

def names (reading : Reading) : List String := reading.placeholders.map (·.2)

/-- The text with a value for each placeholder. -/
def filled (reading : Reading) (table : Replacements) : List Char :=
  reading.placeholders.flatMap (fun (before, name) => before ++ table.value name) ++ reading.rest

def pieces (reading : Reading) : List TemplatePiece :=
  reading.placeholders.flatMap (fun (before, name) =>
    before.map .char ++ [.placeholder name]) ++ reading.rest.map .char

/-- A reading of a text with one more character in front. -/
def cons (c : Char) : Reading → Reading
  | ⟨[], rest⟩ => ⟨[], c :: rest⟩
  | ⟨(before, name) :: later, rest⟩ => ⟨(c :: before, name) :: later, rest⟩

def ofPieces : List TemplatePiece → Reading
  | [] => ⟨[], []⟩
  | .char c :: rest => (ofPieces rest).cons c
  | .placeholder name :: rest =>
    ⟨([], name) :: (ofPieces rest).placeholders, (ofPieces rest).rest⟩

theorem ofPieces_map_char (text : List Char) : ofPieces (text.map .char) = ⟨[], text⟩ := by
  induction text with
  | nil => rfl
  | cons c text ih => rw [List.map_cons, ofPieces, ih, cons]

theorem ofPieces_placeholder (before : List Char) (name : String) (rest : List TemplatePiece) :
    ofPieces (before.map .char ++ .placeholder name :: rest) =
      ⟨(before, name) :: (ofPieces rest).placeholders, (ofPieces rest).rest⟩ := by
  induction before with
  | nil => rfl
  | cons c before ih => rw [List.map_cons, List.cons_append, ofPieces, ih, cons]

theorem ofPieces_pieces (reading : Reading) : ofPieces reading.pieces = reading := by
  obtain ⟨placeholders, rest⟩ := reading
  induction placeholders with
  | nil => exact ofPieces_map_char rest
  | cons placeholder later ih =>
    obtain ⟨before, name⟩ := placeholder
    have split : pieces ⟨(before, name) :: later, rest⟩ =
        before.map .char ++ .placeholder name :: pieces ⟨later, rest⟩ := by
      simp [pieces]
    rw [split, ofPieces_placeholder, ih]

theorem filterMap_pieces (reading : Reading) :
    reading.pieces.filterMap TemplatePiece.name? = reading.names := by
  have plain (text : List Char) :
      (text.map TemplatePiece.char).filterMap TemplatePiece.name? = [] := by
    simp [List.filterMap_eq_nil_iff]
  rw [pieces, List.filterMap_append, List.filterMap_flatMap, plain]
  simp only [List.filterMap_append, plain]
  simp [names, List.map_eq_flatMap]

theorem flatMap_pieces (reading : Reading) (table : Replacements) :
    reading.pieces.flatMap (·.filled table) = reading.filled table := by
  have plain (text : List Char) :
      (text.map TemplatePiece.char).flatMap (·.filled table) = text := by
    simp [List.flatMap_map]
  rw [pieces, List.flatMap_append, List.flatMap_assoc, plain]
  simp only [List.flatMap_append, plain]
  simp [filled]

end Reading

/-- A text is read from left to right. A placeholder starts at the leftmost mark that is closed
later, and ends at the first brace that closes it. -/
inductive Reads : List Char → Reading → Prop
  /-- No mark is closed, and the text stands for itself. -/
  | rest {text : List Char}
      (unclosed : ∀ before after, text = before ++ '$' :: '\x7b' :: after → '\x7d' ∉ after) :
      Reads text ⟨[], text⟩
  | placeholder {before name after : List Char} {later : Reading}
      (leftmost : ∀ other inside,
        before ++ '$' :: '\x7b' :: (name ++ '\x7d' :: after) = other ++ '$' :: '\x7b' :: inside →
        '\x7d' ∈ inside → before.length ≤ other.length)
      (first : '\x7d' ∉ name) (behind : Reads after later) :
      Reads (before ++ '$' :: '\x7b' :: (name ++ '\x7d' :: after))
        ⟨(before, String.ofList name) :: later.placeholders, later.rest⟩

section Reads
variable {text : List Char} {reading : Reading}

theorem Reads.pieces (reads : Reads text reading) : pieces text = reading.pieces := by
  induction reads with
  | @rest text unclosed =>
    have plain := @pieces_append_of_plain text [] fun other after same closed => by
      rw [List.append_nil] at same
      exact absurd closed (unclosed other after same)
    rw [List.append_nil] at plain
    simpa [Reading.pieces, Template.pieces] using plain
  | placeholder leftmost first _ ih =>
    rw [pieces_append_of_plain leftmost, pieces_placeholder first, ih]
    simp [Reading.pieces]

/-- A text can be read in one way at most. -/
theorem Reads.unique {other : Reading} (reads : Reads text reading) (reads' : Reads text other) :
    other = reading := by
  rw [← Reading.ofPieces_pieces other, ← Reading.ofPieces_pieces reading, ← reads'.pieces,
    ← reads.pieces]

/-- A character at which no placeholder starts belongs to the text that it stands before. -/
theorem Reads.cons {c : Char} (reads : Reads text reading)
    (plain : ∀ after, c :: text = '$' :: '\x7b' :: after → '\x7d' ∉ after) :
    Reads (c :: text) (reading.cons c) := by
  -- A mark of the longer text is its first one, or one of the shorter text.
  have marks : ∀ other after, c :: text = other ++ '$' :: '\x7b' :: after → '\x7d' ∈ after →
      ∃ shorter, other = c :: shorter ∧ text = shorter ++ '$' :: '\x7b' :: after := by
    intro other after same closed
    cases other with
    | nil => exact absurd closed (plain after same)
    | cons d shorter =>
      obtain ⟨rfl, behind⟩ := List.cons.inj same
      exact ⟨shorter, rfl, behind⟩
  cases reads with
  | rest unclosed =>
    refine .rest fun before after same closed => ?_
    obtain ⟨shorter, _, same⟩ := marks before after same closed
    exact unclosed shorter after same closed
  | @placeholder before name after later leftmost first behind =>
    refine @Reads.placeholder (c :: before) name after later ?_ first behind
    intro other inside same closed
    obtain ⟨shorter, rfl, within⟩ := marks other inside same closed
    simpa using leftmost shorter inside within closed

theorem exists_reads (text : List Char) : ∃ reading, Reads text reading := by
  fun_induction Template.pieces text with
  | case1 => exact ⟨_, .rest (by simp)⟩
  | case2 rest closed ih =>
    obtain ⟨name, after, rfl, first⟩ :=
      List.eq_append_cons_of_mem (List.contains_iff_mem.mp closed)
    rw [(cut_at_brace first after).2] at ih
    obtain ⟨later, behind⟩ := ih
    exact ⟨_, @Reads.placeholder [] name after later (fun _ _ _ _ => Nat.zero_le _) first behind⟩
  | case3 rest unclosed ih =>
    obtain ⟨reading, reads⟩ := ih
    refine ⟨_, reads.cons ?_⟩
    rintro after ⟨⟩
    simpa using unclosed
  | case4 c rest other ih =>
    obtain ⟨reading, reads⟩ := ih
    refine ⟨_, reads.cons fun after same => ?_⟩
    obtain ⟨rfl, rfl⟩ := List.cons.inj same
    exact absurd rfl (other after rfl)

end Reads

section Append
variable {a b : List Char}

/-- Every mark of a text is closed in it. -/
def IsClosed (text : List Char) : Prop :=
  ∀ before after, text = before ++ '$' :: '\x7b' :: after → '\x7d' ∈ after

theorem IsClosed.of_append (before : List Char) (closed : IsClosed (before ++ a)) :
    IsClosed a := by
  intro other after same
  apply closed (before ++ other) after
  rw [same, List.append_assoc]

/-- The placeholders of two texts together are those of the first one and those of the second one,
if the first one leaves no mark open and their joint makes none. -/
theorem pieces_append (closed : IsClosed a)
    (joint : a.getLast? = some '$' → b.head? ≠ some '\x7b') :
    pieces (a ++ b) = pieces a ++ pieces b := by
  fun_induction pieces a with
  | case1 => rfl
  | case2 rest brace ih =>
    obtain ⟨name, after, rfl, first⟩ :=
      List.eq_append_cons_of_mem (List.contains_iff_mem.mp brace)
    rw [(cut_at_brace first after).2] at ih ⊢
    rw [(cut_at_brace first after).1]
    have whole : '$' :: '\x7b' :: (name ++ '\x7d' :: after) =
        ('$' :: '\x7b' :: (name ++ ['\x7d'])) ++ after := by simp
    have later := ih (IsClosed.of_append _ (whole ▸ closed)) fun last => by
      apply joint
      rw [whole, List.getLast?_append, last]
      rfl
    simp only [List.cons_append, List.append_assoc]
    rw [pieces_placeholder first, later]
  | case3 rest unclosed _ =>
    have brace := closed [] rest rfl
    exact absurd (List.contains_iff_mem.mpr brace) unclosed
  | case4 c rest other ih =>
    have later := ih (IsClosed.of_append [c] closed) fun last => by
      apply joint
      rw [List.getLast?_cons, last]
      rfl
    have plain : ∀ after, c :: (rest ++ b) = '$' :: '\x7b' :: after → '\x7d' ∉ after := by
      intro after same
      obtain ⟨rfl, behind⟩ := List.cons.inj same
      cases rest with
      | nil => exact absurd (congrArg List.head? behind) (joint rfl)
      | cons d rest =>
        obtain ⟨rfl, _⟩ := List.cons.inj behind
        exact absurd rfl (other rest rfl)
    rw [List.cons_append, pieces_cons plain, later]
    rfl

theorem substitute_append {table : Replacements} {a b filledA filledB : String}
    (closed : IsClosed a.toList)
    (joint : a.toList.getLast? = some '$' → b.toList.head? ≠ some '\x7b')
    (first : substitute a table = .ok filledA) (second : substitute b table = .ok filledB) :
    substitute (a ++ b) table = .ok (filledA ++ filledB) := by
  obtain ⟨knownA, rfl⟩ := substitute_ok_iff.mp first
  obtain ⟨knownB, rfl⟩ := substitute_ok_iff.mp second
  have pieces_eq : pieces (a ++ b).toList = pieces a.toList ++ pieces b.toList := by
    rw [String.toList_append, pieces_append closed joint]
  apply substitute_ok_iff.mpr
  constructor
  · intro name member
    rw [names_eq, pieces_eq, List.filterMap_append, List.mem_append] at member
    exact member.elim (knownA name) (knownB name)
  · rw [pieces_eq, List.flatMap_append, String.ofList_append]

end Append

/-- A text is read in exactly one way. Its placeholders are those that a phase takes note of. If all
have values, it is filled with these and unchanged between them, else the leftmost one that has none
is told. Texts put together are filled as each one is, if the first one leaves no mark open and
their joint makes none. -/
theorem substitute_reads (table : Replacements) :
    (∀ text : String, ∃ reading, Reads text.toList reading ∧
      (∀ other, Reads text.toList other → other = reading) ∧
      (∀ (phase : Phase) (state : Evaluation),
        (phase.push text state).2.names = state.names ++ reading.names) ∧
      (table.Knows reading.names →
        substitute text table = .ok (String.ofList (reading.filled table))) ∧
      ∀ e, substitute text table = .error e ↔
        e.template = text ∧ table.FirstLacks reading.names e.name) ∧
    ∀ a b filledA filledB : String, IsClosed a.toList →
      (a.toList.getLast? = some '$' → b.toList.head? ≠ some '\x7b') →
      substitute a table = .ok filledA → substitute b table = .ok filledB →
      substitute (a ++ b) table = .ok (filledA ++ filledB) := by
  constructor
  · intro text
    obtain ⟨reading, reads⟩ := exists_reads text.toList
    have listed : names text = reading.names := by
      rw [names_eq, reads.pieces, reading.filterMap_pieces]
    refine ⟨reading, reads, fun other => reads.unique, fun phase state => ?_, fun known => ?_, ?_⟩
    · rw [Phase.push_names, listed]
    · rw [substitute_ok_iff, listed, reads.pieces, reading.flatMap_pieces]
      exact ⟨known, rfl⟩
    · intro e
      rw [substitute_error_iff, listed]
  · intro a b filledA filledB
    exact substitute_append

/-- What a placeholder is filled with is not read again, nor together with the text behind it. -/
theorem filled_text_unread :
    let table : Replacements := [("x", "$\x7by\x7d$")]
    IsClosed "$\x7bx\x7d".toList ∧
      substitute ("$\x7bx\x7d" ++ "\x7by\x7d") table = .ok "$\x7by\x7d$\x7by\x7d" := by
  intro table
  have closed : IsClosed "$\x7bx\x7d".toList := by
    intro before after same
    cases before with
    | nil =>
      obtain rfl : ['x', '\x7d'] = after := (List.cons.inj (List.cons.inj same).2).2
      decide
    | cons c before =>
      have behind : ['\x7b', 'x', '\x7d'] = before ++ '$' :: '\x7b' :: after :=
        (List.cons.inj same).2
      have mark : '$' ∈ ['\x7b', 'x', '\x7d'] := by simp [behind]
      exact absurd mark (by decide)
  have first : substitute "$\x7bx\x7d" table = .ok "$\x7by\x7d$" := by decide +kernel
  have second : substitute "\x7by\x7d" table = .ok "\x7by\x7d" := by decide +kernel
  exact ⟨closed, (substitute_reads table).2 _ _ _ _ closed (by decide +kernel) first second⟩

end Template
end Launcher
