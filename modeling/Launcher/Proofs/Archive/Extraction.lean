import Launcher.Archive.Natives
import Launcher.Proofs.Action
import Launcher.Proofs.Files.Retention

/-! What extracting archives does to the file tree: directories and files stay, and new files come
into the directory of the extraction. Reading an archive changes nothing. -/
namespace Launcher
namespace Archive

/-- A reader that keeps whatever holds of the file tree. -/
def Keeps {α : Type} (K : FileTree → Prop) (reader : Reader α) : Prop :=
  Safe (fun r => K r.tree) (fun _ => True) reader

variable {K : FileTree → Prop}

theorem content_run (r : Reading) : ∃ bytes, content.run.run r = (.ok bytes, r) := by
  rw [content, run_bind, run_get]
  simp only
  split <;> exact ⟨_, rfl⟩

theorem content_keeps : Keeps K content := by
  intro r h
  obtain ⟨bytes, ran⟩ := content_run r
  rw [ran]
  exact ⟨h, fun _ _ => trivial⟩

theorem goTo_keeps (found : Except SeekError OpenFile) : Keeps K (goTo found) := by
  unfold goTo
  split
  · exact .modify fun _ h => h
  · exact .throw trivial

theorem formatFault_keeps {α : Type} (fault : FormatFault) :
    Keeps K (formatFault fault : Reader α) := .throw trivial

theorem take_keeps (count : Option Nat) : Keeps K (take count) := by
  refine .get_bind fun r h => ?_
  obtain ⟨bytes, ran⟩ := content_run r
  rw [run_bind, ran]
  cases count <;> exact ⟨h, fun _ _ => trivial⟩

theorem takeAt_keeps (place : Int) (count : Nat) : Keeps K (takeAt place count) :=
  .bind .get fun _ => .bind (goTo_keeps _) fun _ => take_keeps _

theorem wideEndRecord_keeps (narrow : EndRecord) (offset : Int) :
    Keeps K (wideEndRecord narrow offset) := by
  refine .bind content_keeps fun bytes => ?_
  split
  · exact .pure _
  · refine .bind (.modify fun _ h => h) fun _ => .bind (take_keeps _) fun locator => ?_
    split
    · exact .pure _
    · refine .guard trivial (.bind content_keeps fun bytes => ?_)
      split
      · exact formatFault_keeps _
      · refine .bind (.modify fun _ h => h) fun _ => .bind (take_keeps _) fun record => ?_
        split <;> exact .pure _

theorem endRecord_keeps : Keeps K endRecord := by
  refine .bind content_keeps fun bytes => .guard trivial (.bind (.modify fun _ h => h) fun _ => ?_)
  refine .ite (wideEndRecord_keeps _ _) ?_
  simp only
  split
  · exact formatFault_keeps _
  · exact .guard trivial (wideEndRecord_keeps _ _)

theorem members_keeps : Keeps K members := by
  refine .bind endRecord_keeps fun record => .guard trivial ?_
  refine .bind (takeAt_keeps _ _) fun directory => ?_
  split
  · exact .pure _
  · exact .throw trivial

theorem openMember_keeps (m : Member) : Keeps K (openMember m) := by
  refine .bind (takeAt_keeps _ _) fun header => .guard trivial (.guard trivial ?_)
  refine .bind (takeAt_keeps _ _) fun name => ?_
  refine .ite (.bind (takeAt_keeps _ _) fun extra => ?_) ?_
  all_goals
    refine .guard trivial (.guard trivial ?_)
    rcases decodeName (header.field 6 2) name with e | text
    · exact .throw_bind trivial
    · exact .guard trivial (.guard trivial (.guard trivial (.guard trivial (.pure _))))

namespace Content

theorem fetch_keeps (c : Content) (wanted : Nat) : Keeps K (c.fetch wanted) := by
  refine .ite (.pure _) (.bind (takeAt_keeps _ _) fun bytes => .guard trivial (.pure _))

theorem inflate_keeps (c : Content) (wanted : Nat) : Keeps K (c.inflate wanted) := by
  refine .ite (.bind (fetch_keeps _ _) fun _ => ?_) (.bind (.pure _) fun _ => ?_)
  all_goals
    simp only
    split
    · exact .throw_bind trivial
    · exact .pure _

theorem unpack_keeps (c : Content) (wanted : Nat) : Keeps K (c.unpack wanted) := by
  refine .bind (fetch_keeps _ _) fun fetched => ?_
  refine .ite (.guard trivial (.bind (.pure _) fun _ => .pure _)) ?_
  simp only
  split
  · exact .throw_bind trivial
  · exact .bind (.pure _) fun _ => .pure _

theorem more_keeps (c : Content) (wanted : Nat) : Keeps K (c.more wanted) := by
  refine .ite (.bind (fetch_keeps _ _) fun _ => .bind (.pure _) fun _ => ?_)
    (.ite (.bind (inflate_keeps _ _) fun _ => ?_) (.bind (unpack_keeps _ _) fun _ => ?_))
  all_goals exact .guard trivial (.pure _)

theorem gather_keeps (portion fuel : Nat) (c : Content) : Keeps K (gather portion fuel c) := by
  induction fuel generalizing c with
  | zero => exact .pure _
  | succ fuel ih =>
    unfold gather
    exact .ite (.pure _) (.bind (more_keeps _ _) fun _ => ih _)

theorem next_keeps (c : Content) (portion : Nat) : Keeps K (c.next portion) :=
  .bind (gather_keeps _ _ _) fun _ => .pure _

end Content

/-- A base name leads to what is directly in a directory. -/
theorem Member.baseName_slashless (m : Member) : '/' ∉ (String.ofList m.baseName).toList := by
  rw [String.toList_ofList, Member.baseName, List.mem_reverse]
  intro member
  simpa using List.all_eq_true.mp (List.all_takeWhile) '/' member

/-- A base name ends before the first NUL. -/
theorem Member.baseName_whole (m : Member) : '\x00' ∉ (String.ofList m.baseName).toList := by
  rw [String.toList_ofList, Member.baseName, List.mem_reverse]
  intro member
  have inside := List.mem_reverse.mp ((List.takeWhile_sublist _).subset member)
  simpa using List.all_eq_true.mp List.all_takeWhile _ inside

theorem Member.baseName_of_isDirectory {m : Member} (h : m.isDirectory = true) :
    m.baseName = [] := by
  have last : m.name.getLast? = some '/' := by simpa [isDirectory] using h
  obtain ⟨before, name⟩ := List.getLast?_eq_some_iff.mp last
  simp [baseName, name]

theorem Member.name_of_baseName {m : Member} (based : m.baseName ≠ []) : m.name ≠ [] := by
  intro unnamed
  simp [baseName, unnamed] at based

/-- What holds of a file tree still holds when a file comes to a location. -/
def Admits (K : FileTree → Prop) (l : Location) : Prop :=
  ∀ tree content, K tree → tree.get? l ≠ some .directory → K (tree.insert l (.file content))

theorem Admits.advances {places : Location → Prop} {l : Location} (place : places l)
    (start : FileTree) : Admits (start.Advances places) l :=
  fun _ _ advances other => advances.trans (.insert other place)

theorem Admits.retains {kept : Location → Prop} {l : Location} (free : ¬ kept l)
    (start : FileTree) : Admits (start.Retains kept) l :=
  fun _ _ retains other => retains.trans (.insert other fun member => absurd member free)

section Writing

/-- A new file comes to the location of its path. -/
theorem create_run (p : Path) (r : Reading) :
    (∃ e, (create p).run.run r = (.error e, r)) ∨
      (r.tree.get? p.location ≠ some .directory ∧ (create p).run.run r =
        (.ok p.location, { r with tree := r.tree.insert p.location (.file []) })) := by
  rw [create, run_bind, run_get]
  simp only
  rcases aimed : r.tree.target p with e | l
  · exact .inl ⟨_, rfl⟩
  · obtain ⟨_, _, rfl, other⟩ := FileTree.target_ok aimed
    exact .inr ⟨other, rfl⟩

theorem create_keeps {p : Path} (admits : Admits K p.location) : Keeps K (create p) := by
  intro r before
  rcases create_run p r with ⟨e, ran⟩ | ⟨other, ran⟩
  · rw [ran]
    exact ⟨before, fun _ _ => trivial⟩
  · rw [ran]
    exact ⟨admits _ _ before other, fun _ _ => trivial⟩

/-- Where a file was made there is no directory, and one more content can be put there. -/
theorem create_gives {p : Path} (admits : Admits K p.location) :
    Gives (fun r => K r.tree) (create p) fun l r =>
      Admits K l ∧ K r.tree ∧ r.tree.get? l ≠ some .directory := by
  intro r before l r' ended
  rcases create_run p r with ⟨e, ran⟩ | ⟨other, ran⟩
  · rw [ran] at ended
    cases ended
  · rw [ran] at ended
    cases ended
    refine ⟨admits, admits _ _ before other, ?_⟩
    rw [FileTree.get?_insert _ _ _ _ (FileTree.ne_root other), if_pos rfl]
    exact fun h => nomatch h

theorem copyContent_keeps {l : Location} (admits : Admits K l) (fuel : Nat) (c : Content)
    (written : Bytes) :
    Keeps (fun tree => K tree ∧ tree.get? l ≠ some .directory) (copyContent l fuel c written) := by
  induction fuel generalizing c written with
  | zero => exact .pure _
  | succ fuel ih =>
    have next : Keeps (fun tree => K tree ∧ tree.get? l ≠ some .directory) (c.next 65536) :=
      Content.next_keeps _ _
    refine .bind next fun _ => .ite (.pure _) (.bind (.modify ?_) fun _ => ih _ _)
    rintro r ⟨before, other⟩
    refine ⟨admits _ _ before other, ?_⟩
    rw [FileTree.get?_insert _ _ _ _ (FileTree.ne_root other), if_pos rfl]
    exact fun h => nomatch h

end Writing
end Archive

namespace Natives
open Archive (Keeps Admits)
variable {K : FileTree → Prop} {directory : Path}

theorem extractMembers_passed (directory : Path) {m : Archive.Member} (named : m.name ≠ [])
    (unbased : m.baseName = []) (rest : List Archive.Member) :
    extractMembers directory (m :: rest) = extractMembers directory rest := by
  rw [extractMembers, if_neg named]
  simp only [unbased, decide_true, Bool.or_true, if_true]

theorem extractMembers_based (directory : Path) {m : Archive.Member} (based : m.baseName ≠ [])
    (rest : List Archive.Member) :
    extractMembers directory (m :: rest) = do
      let content ← Archive.openMember m
      let location ← Archive.create (directory / String.ofList m.baseName)
      Archive.copyContent location (m.size + 1) content []
      return String.ofList m.baseName :: (← extractMembers directory rest) := by
  have file : m.isDirectory = false := by
    by_contra directory
    exact based (Archive.Member.baseName_of_isDirectory (by simpa using directory))
  rw [extractMembers, if_neg (Archive.Member.name_of_baseName based)]
  simp [file, based]

/-- Nothing but the base names of members tells where files come to. -/
theorem extractMembers_keeps_of {members : List Archive.Member}
    (into : ∀ m ∈ members, m.baseName ≠ [] →
      Admits K (directory / String.ofList m.baseName).location) :
    Keeps K (extractMembers directory members) := by
  induction members with
  | nil => exact .pure _
  | cons m rest ih =>
    have others := ih fun m' listed => into m' (List.mem_cons_of_mem _ listed)
    by_cases unnamed : m.name = []
    · rw [extractMembers, if_pos unnamed]
      exact .throw_bind trivial
    · by_cases based : m.baseName = []
      · rw [extractMembers_passed directory unnamed based]
        exact others
      · have admits := into m List.mem_cons_self based
        rw [extractMembers_based directory based]
        refine .bind (Archive.openMember_keeps m) fun content => ?_
        refine .bind_of (Archive.create_keeps admits) (Archive.create_gives admits) ?_
        rintro l r ⟨again, before, other⟩
        exact Safe.bind_from (Archive.copyContent_keeps again (m.size + 1) content [])
          (fun _ kept => kept.1) (fun _ => .bind others fun _ => .pure _) ⟨before, other⟩

section Extracting
variable (into : ∀ name : String, '/' ∉ name.toList → Admits K (directory / name).location)
include into

theorem extractMembers_keeps (members : List Archive.Member) :
    Keeps K (extractMembers directory members) :=
  extractMembers_keeps_of fun m _ _ => into _ m.baseName_slashless

theorem extract_keeps {tree : FileTree} (archive : Path) (before : K tree) :
    K (extract tree archive directory).2 := by
  unfold extract
  rcases tree.openFile archive with e | ⟨location, content⟩
  · exact before
  · have extracted : Keeps K (Archive.members >>= extractMembers directory) :=
      .bind Archive.members_keeps (extractMembers_keeps into)
    exact (extracted ⟨location, .start, tree⟩ before).1

theorem extractEach_keeps {tree : FileTree} (archives : List Path) (before : K tree) :
    K (extractEach directory archives tree).2 := by
  induction archives generalizing tree with
  | nil => exact before
  | cons archive rest ih =>
    have first := extract_keeps into archive before
    unfold extractEach
    generalize extract tree archive directory = outcome at first ⊢
    obtain ⟨(origin | crash) | names, after⟩ := outcome
    · exact ih first
    · exact first
    · exact ih first

/-- What making the directory leaves true, extraction leaves true that puts files into it. -/
theorem install_keeps {tree : FileTree} (archives : List Path)
    (before : ∀ made, FileTree.Grows directory tree made → K made) :
    K (install tree archives directory).2 := by
  have grows := FileTree.makeDirectories_grows directory tree
  unfold install
  generalize (FileTree.makeDirectories directory).run.run tree = outcome at grows ⊢
  obtain ⟨e | _, made⟩ := outcome
  · exact before made grows
  · exact extractEach_keeps into archives (before made grows)

end Extracting

variable {start : FileTree}

/-- Extraction puts files into its directory only. -/
theorem install_advances {places : Location → Prop}
    (into : ∀ name : String, places (directory / name).location) (archives : List Path) :
    start.Advances places (install start archives directory).2 :=
  install_keeps (fun name _ => .advances (into name) start) archives fun _ => .ofGrows _

/-- Extraction keeps what does not lie in its directory. -/
theorem install_retains {kept : Location → Prop}
    (apart : ∀ name : String, '/' ∉ name.toList → ¬ kept (directory / name).location)
    (archives : List Path) : start.Retains kept (install start archives directory).2 :=
  install_keeps (fun name slashless => .retains (apart name slashless) start) archives
    fun _ => .ofGrows _

end Natives
end Launcher
