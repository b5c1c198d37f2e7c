import Launcher.Proofs.Archive.Rereading
import Launcher.Proofs.Files.Putting

/-! What an archive holds. Reading it changes nothing and depends on nothing but its bytes and on
where reading stands, so the files in it are the same in all file trees that have the archive. -/
namespace Launcher.Archive

/-- A reader that looks at the archive alone. -/
structure IsReading {α : Type} (reader : Reader α) : Prop where
  keeps : ∀ K, Keeps K reader
  rereads : ∀ kept later r, Rereads kept later reader r

/-- What a reader takes from an archive that holds these bytes, wherever else the file trees
differ: its result, and where reading then stands. -/
def Takes {α : Type} (location : Location) (bytes : Bytes) (reader : Reader α) (file : OpenFile)
    (result : Except ArchiveError α) (file' : OpenFile) : Prop :=
  ∀ tree : FileTree, tree.get? location = some (.file bytes) →
    reader.run.run ⟨location, file, tree⟩ = (result, ⟨location, file', tree⟩)

namespace IsReading
variable {α β : Type} {reader : Reader α}

theorem pure (value : α) : IsReading (pure value : Reader α) :=
  ⟨fun _ => .pure _, fun _ _ _ => .pure _⟩

theorem bind {next : α → Reader β} (first : IsReading reader)
    (second : ∀ value, IsReading (next value)) : IsReading (reader >>= next) :=
  ⟨fun K => .bind (first.keeps K) fun value => (second value).keeps K,
    fun kept later r => .bind (first.rereads kept later r) fun value r' _ =>
      (second value).rereads kept later r'⟩

theorem ite {condition : Prop} [Decidable condition] {yes no : Reader α} (first : IsReading yes)
    (second : IsReading no) : IsReading (if condition then yes else no) := by
  split
  · exact first
  · exact second

theorem throw_bind {next : α → Reader β} (e : ArchiveError) :
    IsReading ((MonadExcept.throw e : Reader α) >>= next) :=
  ⟨fun _ => .throw_bind trivial, fun _ _ _ => .throw_bind _⟩

theorem members : IsReading members := ⟨fun _ => members_keeps, fun _ _ _ => members_rereads⟩

theorem openMember (m : Member) : IsReading (openMember m) :=
  ⟨fun _ => openMember_keeps m, fun _ _ _ => openMember_rereads m⟩

theorem next (c : Content) (portion : Nat) : IsReading (c.next portion) :=
  ⟨fun _ => Content.next_keeps c portion, fun _ _ _ => Content.next_rereads c portion⟩

/-- The bytes of the archive and the place of reading decide everything. -/
theorem takes (reading : IsReading reader) {location : Location} (below : location ≠ [])
    (bytes : Bytes) (file : OpenFile) :
    ∃ result file', Takes location bytes reader file result file' := by
  -- Reading is the same as in a file tree that has nothing but the archive.
  let alone : FileTree := ⟨[(location, .file bytes)]⟩
  have there : alone.get? location = some (.file bytes) := by
    simp [alone, FileTree.get?, below]
  let r : Reading := ⟨location, file, alone⟩
  have still : (reader.run.run r).2.tree = alone := (reading.keeps (· = alone) r rfl).1
  obtain ⟨_, again⟩ := reading.rereads (· = location) alone r (fun _ _ => trivial)
    (still ▸ .refl _ _)
  refine ⟨(reader.run.run r).1, (reader.run.run r).2.file, fun tree stored => ?_⟩
  have retains : alone.Retains (· = location) tree := by
    have only (l : Location) (entry : FileEntry) (has : alone.get? l = some entry)
        (named : l ≠ []) : l = location ∧ entry = .file bytes := by
      simp only [alone, FileTree.get?, if_neg named, List.find?_singleton] at has
      split at has
      · rename_i same
        cases has
        exact ⟨(beq_iff_eq.mp same).symm, rfl⟩
      · cases has
    constructor
    case directories =>
      intro l directory
      by_cases root : l = []
      · rw [root, FileTree.get?_root]
      · cases (only l _ directory root).2
    case files =>
      rintro l ⟨content, has⟩
      have named : l ≠ [] := by
        rintro rfl
        rw [FileTree.get?_root] at has
        cases has
      obtain ⟨rfl, _⟩ := only l _ has named
      exact ⟨bytes, stored⟩
    case contents =>
      rintro l rfl content has
      rw [there] at has
      rw [stored, has]
  obtain ⟨r', ran, follows⟩ := again ⟨location, file, tree⟩
    ⟨rfl, rfl, ⟨rfl, bytes, there⟩, retains⟩
  have tree_eq : r'.tree = tree := by
    have kept := (reading.keeps (· = tree) ⟨location, file, tree⟩ rfl).1
    rwa [ran] at kept
  rw [ran]
  obtain ⟨l', f', t'⟩ := r'
  simp only at tree_eq
  rw [show l' = location from follows.location.trans follows.archive.1,
    show f' = _ from follows.file, tree_eq]

end IsReading

namespace Takes
variable {α β : Type} {location : Location} {bytes : Bytes} {reader : Reader α}
  {file file₁ file' : OpenFile}

theorem unique {result result' : Except ArchiveError α} {file'' : OpenFile} (below : location ≠ [])
    (first : Takes location bytes reader file result file')
    (second : Takes location bytes reader file result' file'') :
    result = result' ∧ file' = file'' := by
  let alone : FileTree := ⟨[(location, .file bytes)]⟩
  have there : alone.get? location = some (.file bytes) := by
    simp [alone, FileTree.get?, below]
  have same := (first alone there).symm.trans (second alone there)
  cases same
  exact ⟨rfl, rfl⟩

theorem bind_ok {next : α → Reader β} {value : α} {result : Except ArchiveError β}
    (first : Takes location bytes reader file (.ok value) file₁)
    (second : Takes location bytes (next value) file₁ result file') :
    Takes location bytes (reader >>= next) file result file' := by
  intro tree there
  rw [run_bind, first tree there]
  exact second tree there

theorem bind_error {next : α → Reader β} {e : ArchiveError}
    (first : Takes location bytes reader file (.error e) file') :
    Takes location bytes (reader >>= next) file (.error e) file' := by
  intro tree there
  rw [run_bind, first tree there]

theorem pure (value : α) :
    Takes location bytes (pure value : Reader α) file (.ok value) file := fun _ _ => rfl

/-- What ended well began well, and went on from there. -/
theorem of_bind {next : α → Reader β} {value : β} (below : location ≠ [])
    (reading : IsReading reader)
    (took : Takes location bytes (reader >>= next) file (.ok value) file') :
    ∃ middle file₁, Takes location bytes reader file (.ok middle) file₁ ∧
      Takes location bytes (next middle) file₁ (.ok value) file' := by
  obtain ⟨result, file₁, first⟩ := reading.takes below bytes file
  rcases result with e | middle
  · cases (took.unique below (.bind_error first)).1
  · refine ⟨middle, file₁, first, fun tree there => ?_⟩
    rw [← took tree there, run_bind, first tree there]

end Takes

/-- Takes a content in portions to its end; `taken` was taken before. -/
def contentFrom : (fuel : Nat) → Content → (taken : Bytes) → Reader Bytes
  | 0, _, taken => return taken
  | fuel + 1, c, taken => do
    let (bytes, c) ← c.next 65536
    if bytes = [] then return taken
    contentFrom fuel c (taken ++ bytes)

/-- A file that an archive holds, without the directories that it is in. -/
structure PackedFile where
  name : String
  content : Bytes
  deriving DecidableEq, Repr

/-- The content of the last file of a name. -/
def lastNamed? (fs : List PackedFile) (name : String) : Option Bytes :=
  (fs.reverse.find? (·.name == name)).map (·.content)

/-- The files among members, in order; what has no base name, such as a directory, is none. -/
def filesOf : List Member → Reader (List PackedFile)
  | [] => return []
  | m :: rest => do
    if m.name = [] then throw (.crashed .nameless)
    if m.baseName = [] then return ← filesOf rest
    let content ← contentFrom (m.size + 1) (← openMember m) []
    return ⟨String.ofList m.baseName, content⟩ :: (← filesOf rest)

/-- The files of an archive, if all of it can be read. -/
def files (tree : FileTree) (archive : Path) : Except ArchiveError (List PackedFile) :=
  match tree.openFile archive with
  | .error e => .error (.ofAccess e)
  | .ok (location, _) => ((members >>= filesOf).run.run ⟨location, .start, tree⟩).1

theorem contentFrom_isReading (fuel : Nat) (c : Content) (taken : Bytes) :
    IsReading (contentFrom fuel c taken) := by
  induction fuel generalizing c taken with
  | zero => exact .pure _
  | succ fuel ih => exact .bind (.next _ _) fun _ => .ite (.pure _) (ih _ _)

theorem filesOf_passed {m : Member} (named : m.name ≠ []) (unbased : m.baseName = [])
    (rest : List Member) : filesOf (m :: rest) = filesOf rest := by
  rw [filesOf, if_neg named, if_pos unbased]

theorem filesOf_based {m : Member} (based : m.baseName ≠ []) (rest : List Member) :
    filesOf (m :: rest) = do
      let content ← contentFrom (m.size + 1) (← openMember m) []
      return ⟨String.ofList m.baseName, content⟩ :: (← filesOf rest) := by
  rw [filesOf, if_neg (Member.name_of_baseName based), if_neg based]

theorem filesOf_isReading (members : List Member) : IsReading (filesOf members) := by
  induction members with
  | nil => exact .pure _
  | cons m rest ih =>
    by_cases unnamed : m.name = []
    · rw [filesOf, if_pos unnamed]
      exact .throw_bind _
    · by_cases based : m.baseName = []
      · rw [filesOf_passed unnamed based]
        exact ih
      · rw [filesOf_based based]
        exact .bind (.openMember m) fun _ => .bind (contentFrom_isReading _ _ _) fun _ =>
          .bind ih fun _ => .pure _

section Files
variable {location : Location} {bytes : Bytes} {m : Member} {rest : List Member}
  {file file' : OpenFile} {fs : List PackedFile}

/-- The first of some files that can all be read, and the others. -/
theorem filesOf_ok (below : location ≠ []) (based : m.baseName ≠ [])
    (took : Takes location bytes (filesOf (m :: rest)) file (.ok fs) file') :
    ∃ c file₁ content file₂ others, Takes location bytes (openMember m) file (.ok c) file₁ ∧
      Takes location bytes (contentFrom (m.size + 1) c []) file₁ (.ok content) file₂ ∧
      Takes location bytes (filesOf rest) file₂ (.ok others) file' ∧
      fs = ⟨String.ofList m.baseName, content⟩ :: others := by
  rw [filesOf_based based] at took
  obtain ⟨c, file₁, opened, took⟩ := took.of_bind below (.openMember m)
  obtain ⟨content, file₂, copied, took⟩ := took.of_bind below (contentFrom_isReading _ _ _)
  obtain ⟨others, file₃, rest, took⟩ := took.of_bind below (filesOf_isReading _)
  obtain ⟨same, rfl⟩ := took.unique below (.pure _)
  cases same
  exact ⟨c, file₁, content, file₂, others, opened, copied, rest, rfl⟩

/-- Files are called by base names. -/
theorem filesOf_named (below : location ≠ []) {members : List Member}
    (took : Takes location bytes (filesOf members) file (.ok fs) file') :
    ∀ f ∈ fs, ∃ m : Member, m.baseName ≠ [] ∧ f.name = String.ofList m.baseName := by
  induction members generalizing file fs with
  | nil =>
    cases (took.unique below (.pure [])).1
    exact nofun
  | cons m rest ih =>
    by_cases unnamed : m.name = []
    · rw [filesOf, if_pos unnamed] at took
      cases (took.unique below (.bind_error (fun _ _ => rfl))).1
    · by_cases based : m.baseName = []
      · rw [filesOf_passed unnamed based] at took
        exact ih took
      · obtain ⟨_, _, content, _, others, _, _, further, rfl⟩ := filesOf_ok below based took
        intro f member
        rcases List.mem_cons.mp member with rfl | member
        · exact ⟨m, based, rfl⟩
        · exact ih further f member

end Files

section Stored

/-- The bytes of a number, the least first. -/
def littleBytes : (size : Nat) → Nat → Bytes
  | 0, _ => []
  | size + 1, n => UInt8.ofNat (n % 256) :: littleBytes size (n / 256)

/-- What a header of a stored file and its line in the directory have in common. -/
def storedFields (flags : Nat) (name content : Bytes) : Bytes :=
  littleBytes 2 20 ++ littleBytes 2 flags ++ [0, 0, 0, 0, 33, 0] ++
    littleBytes 4 (Crc32.update 0 content).toNat ++ littleBytes 4 content.length ++
    littleBytes 4 content.length ++ littleBytes 2 name.length ++ [0, 0]

/-- An archive that stores files as they are: the name and the content of each. -/
def stored (flags : Nat) (entries : List (Bytes × Bytes)) : Bytes :=
  let (headers, directory) := entries.foldl (fun (headers, directory) (name, content) =>
    (headers ++ [0x50, 0x4B, 3, 4] ++ storedFields flags name content ++ name ++ content,
      directory ++ [0x50, 0x4B, 1, 2, 20, 3] ++ storedFields flags name content ++
        [0, 0, 0, 0, 0, 0, 0, 0, 128, 1] ++ littleBytes 4 headers.length ++ name)) ([], [])
  headers ++ directory ++ [0x50, 0x4B, 5, 6, 0, 0, 0, 0] ++ littleBytes 2 entries.length ++
    littleBytes 2 entries.length ++ littleBytes 4 directory.length ++
    littleBytes 4 headers.length ++ [0, 0]

/-- Archives in the working directory, each by its name. -/
def inWorkingDirectory (archives : List (String × Bytes)) : FileTree :=
  archives.foldl (fun tree (name, bytes) =>
    tree.insert (FileTree.workingDirectory ++ [name]) (.file bytes)) .empty

end Stored
end Launcher.Archive
