import Launcher.Proofs.Archive.Extraction
import Launcher.Proofs.Files.Retention
import Launcher.Proofs.Repetition

/-! Reading an archive again, in a file tree that has what the first reader left. As long as the
archive is not written over, everything is read as before, and what could be put somewhere can be
put there again. -/
namespace Launcher
namespace Archive

/-- Two readings of one archive, the second one in a file tree that keeps what `later` has. -/
structure Reading.Follows (kept : Location → Prop) (later : FileTree) (r t : Reading) : Prop where
  location : t.location = r.location
  file : t.file = r.file
  archive : kept r.location ∧ r.tree.IsFileAt r.location
  tree : later.Retains kept t.tree

/-- A reader reads again what it read, whether it fails or not, if everything is in `later` in the
end. -/
def Rereads {α : Type} (kept : Location → Prop) (later : FileTree) (reader : Reader α)
    (r : Reading) : Prop :=
  Repeats (fun _ => True) (fun r => r.tree.Retains kept later) (Reading.Follows kept later) reader r

section Reading
variable {kept : Location → Prop} {later : FileTree}

theorem Reading.Follows.seek {r t : Reading} (follows : r.Follows kept later t) (file : OpenFile) :
    Reading.Follows kept later { r with file } { t with file } :=
  ⟨follows.location, rfl, follows.archive, follows.tree⟩

/-- The bytes of the archive. -/
def Reading.bytes (r : Reading) : Bytes :=
  match r.tree.get? r.location with
  | some (.file bytes) => bytes
  | _ => []

theorem content_eq (r : Reading) : content.run.run r = (.ok r.bytes, r) := by
  rw [content, run_bind, run_get, Reading.bytes]
  simp only
  rcases r.tree.get? r.location with _ | _ | _ <;> rfl

theorem Reading.Follows.bytes {r t : Reading} (follows : r.Follows kept later t)
    (before : r.tree.Retains kept later) : t.bytes = r.bytes := by
  obtain ⟨member, content, there⟩ := follows.archive
  have still := follows.tree.contents _ member _ (before.contents _ member _ there)
  simp only [Reading.bytes, follows.location, there, still]

variable {r : Reading}

theorem content_rereads : Rereads kept later content r := by
  rw [Rereads, Repeats.iff_of_run (content_eq r)]
  intro _ before
  refine ⟨before, fun t follows => ⟨t, ?_, follows⟩⟩
  rw [content_eq, follows.bytes before]

theorem seek_rereads (file : OpenFile) :
    Rereads kept later (modify fun r => { r with file }) r :=
  .modify (fun before => before) fun _ _ follows => follows.seek file

theorem goTo_rereads (found : Except SeekError OpenFile) : Rereads kept later (goTo found) r := by
  unfold goTo
  split
  · exact seek_rereads _
  · exact .throw _

theorem formatFault_rereads {α : Type} (fault : FormatFault) :
    Rereads kept later (formatFault fault : Reader α) r := .throw _

theorem take_eq (count : Option Nat) (r : Reading) :
    (take count).run.run r =
      match (match count with
        | some count => r.file.read r.bytes count
        | none => r.file.readRest r.bytes) with
      | (bytes, file) => (.ok bytes, { r with file }) := by
  rw [take, run_bind, run_get]
  simp only [run_bind, content_eq]
  cases count <;> rfl

theorem take_rereads (count : Option Nat) : Rereads kept later (take count) r := by
  rw [Rereads, Repeats.iff_of_run (take_eq count r)]
  intro _ before
  refine ⟨before, fun t follows => ?_⟩
  rw [take_eq, follows.bytes before, follows.file]
  exact ⟨_, rfl, follows.seek _⟩

theorem takeAt_rereads (place : Int) (count : Nat) : Rereads kept later (takeAt place count) r :=
  .get_bind (fun t follows => by rw [follows.file])
    (.bind (goTo_rereads _) fun _ _ _ => take_rereads _)

theorem wideEndRecord_rereads (narrow : EndRecord) (offset : Int) :
    Rereads kept later (wideEndRecord narrow offset) r := by
  refine .bind content_rereads fun bytes _ _ => ?_
  split
  · exact .pure _
  · refine .bind (seek_rereads _) fun _ _ _ => .bind (take_rereads _) fun locator _ _ => ?_
    split
    · exact .pure _
    · refine .guard (.bind content_rereads fun bytes _ _ => ?_)
      split
      · exact formatFault_rereads _
      · refine .bind (seek_rereads _) fun _ _ _ => .bind (take_rereads _) fun record _ _ => ?_
        split <;> exact .pure _

theorem endRecord_rereads : Rereads kept later endRecord r := by
  refine .bind content_rereads fun bytes _ _ =>
    .guard (.bind (seek_rereads _) fun _ _ _ => ?_)
  refine .ite (fun _ => wideEndRecord_rereads _ _) fun _ => ?_
  simp only
  split
  · exact formatFault_rereads _
  · exact .guard (wideEndRecord_rereads _ _)

theorem members_rereads : Rereads kept later members r := by
  refine .bind endRecord_rereads fun record _ _ => .guard ?_
  refine .bind (takeAt_rereads _ _) fun directory _ _ => ?_
  split
  · exact .pure _
  · exact .throw _

theorem openMember_rereads (m : Member) : Rereads kept later (openMember m) r := by
  refine .bind (takeAt_rereads _ _) fun header _ _ => .guard (.guard ?_)
  refine .bind (takeAt_rereads _ _) fun name _ _ => ?_
  refine .ite (fun _ => .bind (takeAt_rereads _ _) fun extra _ _ => ?_) fun _ => ?_
  all_goals
    refine .guard (.guard ?_)
    rcases decodeName (header.field 6 2) name with e | text
    · exact .throw_bind _
    · exact .guard (.guard (.guard (.guard (.pure _))))

namespace Content

theorem fetch_rereads (c : Content) (wanted : Nat) : Rereads kept later (c.fetch wanted) r :=
  .ite (fun _ => .pure _) fun _ => .bind (takeAt_rereads _ _) fun _ _ _ => .guard (.pure _)

theorem inflate_rereads (c : Content) (wanted : Nat) : Rereads kept later (c.inflate wanted) r := by
  refine .ite (fun _ => .bind (fetch_rereads _ _) fun _ _ _ => ?_)
    fun _ => .bind (.pure _) fun _ _ _ => ?_
  all_goals
    simp only
    split
    · exact .throw_bind _
    · exact .pure _

theorem unpack_rereads (c : Content) (wanted : Nat) : Rereads kept later (c.unpack wanted) r := by
  refine .bind (fetch_rereads _ _) fun fetched _ _ => ?_
  refine .ite (fun _ => .guard (.bind (.pure _) fun _ _ _ => .pure _)) fun _ => ?_
  simp only
  split
  · exact .throw_bind _
  · exact .bind (.pure _) fun _ _ _ => .pure _

theorem more_rereads (c : Content) (wanted : Nat) : Rereads kept later (c.more wanted) r := by
  refine .ite (fun _ => .bind (fetch_rereads _ _) fun _ _ _ => .bind (.pure _) fun _ _ _ => ?_)
    fun _ => .ite (fun _ => .bind (inflate_rereads _ _) fun _ _ _ => ?_)
      fun _ => .bind (unpack_rereads _ _) fun _ _ _ => ?_
  all_goals exact .guard (.pure _)

theorem gather_rereads (portion fuel : Nat) (c : Content) :
    Rereads kept later (gather portion fuel c) r := by
  induction fuel generalizing c r with
  | zero => exact .pure _
  | succ fuel ih =>
    unfold gather
    exact .ite (fun _ => .pure _) fun _ => .bind (more_rereads _ _) fun _ _ _ => ih _

theorem next_rereads (c : Content) (portion : Nat) : Rereads kept later (c.next portion) r :=
  .bind (gather_rereads _ _ _) fun _ _ _ => .pure _

end Content
end Reading

section Writing
variable {kept : Location → Prop} {later : FileTree} {r : Reading} {directory : Path}

theorem create_eq (p : Path) (r : Reading) :
    (create p).run.run r = match r.tree.target p with
      | .error e => (.error (.ofAccess e), r)
      | .ok l => (.ok l, { r with tree := r.tree.insert l (.file []) }) := by
  rw [create, run_bind, run_get]
  simp only
  rcases r.tree.target p with e | l <;> rfl

/-- A file may come to a location that is not kept, in the first reading and in the second one. -/
theorem insert_rereads {l : Location} {content : Bytes} (free : ¬ kept l)
    (other : r.tree.get? l ≠ some .directory) :
    ({ r with tree := r.tree.insert l (.file content) } : Reading).tree.Retains kept later →
      r.tree.Retains kept later ∧ ∀ t, r.Follows kept later t →
        t.tree.get? l ≠ some .directory ∧
        Reading.Follows kept later { r with tree := r.tree.insert l (.file content) }
          { t with tree := t.tree.insert l (.file content) } := by
  intro before
  have inserted : r.tree.Retains kept (r.tree.insert l (.file content)) :=
    .insert other fun member => absurd member free
  refine ⟨inserted.trans before, fun t follows => ?_⟩
  have there : t.tree.get? l ≠ some .directory :=
    (follows.tree.files l (before.files l (FileTree.isFileAt_insert other content))).not_directory
  refine ⟨there, follows.location, follows.file, ?_, ?_⟩
  · exact ⟨follows.archive.1, inserted.files _ follows.archive.2⟩
  · exact follows.tree.trans (.insert there fun member => absurd member free)

theorem create_rereads {name : String} (slashless : '/' ∉ name.toList)
    (housed : r.tree.isDirectory directory = .ok true)
    (apart : ∀ l r', (create (directory / name)).run.run r = (.ok l, r') → ¬ kept l) :
    Rereads kept later (create (directory / name)) r := by
  have same (before : r.tree.Retains kept later) (t : Reading) (follows : r.Follows kept later t)
      (clear : ∀ l, r.tree.target (directory / name) = .ok l → t.tree.get? l ≠ some .directory) :
      t.tree.target (directory / name) = r.tree.target (directory / name) :=
    FileTree.target_in_directory housed (before.trans follows.tree).directories
      (Path.length_ofText_of_slashless slashless) (Path.ofText_of_slashless slashless).1 clear
  have ran := create_eq (directory / name) r
  rcases aimed : r.tree.target (directory / name) with e | l
  · rw [aimed] at ran
    rw [Rereads, Repeats.iff_of_run ran]
    refine fun _ before => ⟨before, fun t follows => ⟨t, ?_, follows⟩⟩
    rw [create_eq, same before t follows (by simp [aimed]), aimed]
  · rw [aimed] at ran
    have free := apart _ _ ran
    obtain ⟨_, _, rfl, other⟩ := FileTree.target_ok aimed
    rw [Rereads, Repeats.iff_of_run ran]
    intro _ before
    obtain ⟨began, again⟩ := insert_rereads free other before
    refine ⟨began, ?_⟩
    intro t follows
    obtain ⟨there, follows'⟩ := again t follows
    refine ⟨_, ?_, follows'⟩
    have clear : ∀ l, r.tree.target (directory / name) = .ok l →
        t.tree.get? l ≠ some .directory := by
      intro l goal
      obtain rfl := Except.ok.inj (aimed.symm.trans goal)
      exact there
    rw [create_eq, same began t follows clear, aimed]

theorem copyContent_rereads {l : Location} (free : ¬ kept l) (fuel : Nat) (c : Content)
    (written : Bytes) (file : r.tree.IsFileAt l) :
    Rereads kept later (copyContent l fuel c written) r := by
  induction fuel generalizing c written r with
  | zero => exact .pure _
  | succ fuel ih =>
    refine .bind (Content.next_rereads _ _) fun taken r₁ ran => .ite (fun _ => .pure _) fun _ => ?_
    have stays : Keeps (fun tree => tree.IsFileAt l) (c.next 65536) := Content.next_keeps _ _
    have still : r₁.tree.IsFileAt l := stays.gives r file _ _ ran
    refine .bind (.modify ?_ ?_) fun _ r₂ ran => ih _ _ ?_
    · exact fun before => (insert_rereads free still.not_directory before).1
    · exact fun before t follows =>
        ((insert_rereads free still.not_directory before).2 t follows).2
    · cases ran
      exact FileTree.isFileAt_insert still.not_directory _

end Writing
end Archive

end Launcher
