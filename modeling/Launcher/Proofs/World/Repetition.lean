import Launcher.Proofs.Files.Retention
import Launcher.Proofs.Repetition
import Launcher.Proofs.World

/-! Actions on the world that are done again. What one of them made is found in its place, so it
is made again without a fault, and no request is made for it. -/
namespace Launcher

/-- What a world has, a later one has as well: its files, some of them with their contents, and the
index as it is known. -/
structure World.LeadsTo (kept : Location → Prop) (w later : World) : Prop where
  files : w.files.Retains kept later.files
  index : w.index = later.index

/-- A world that goes on from `later` without a request. -/
structure World.GoesOn (kept : Location → Prop) (later t : World) : Prop where
  files : later.files.Retains kept t.files
  network : t.network = later.network

namespace Action
variable {α ε : Type} {w w' : World}

theorem ofExcept_run (fault : ε → Fault) (result : Except ε α) (w : World) :
    (ofExcept fault result).run.run w = (result.mapError fault, w) := by
  cases result <;> rfl

theorem ofExcept_ok {fault : ε → Fault} {result : Except ε α} {value : α}
    (h : (ofExcept fault result).run.run w = (.ok value, w')) : result = .ok value ∧ w' = w := by
  rw [ofExcept_run] at h
  cases result with
  | ok value' => cases h; exact ⟨rfl, rfl⟩
  | error e => cases h

theorem ofExcept_bind_ok {β : Type} {fault : ε → Fault} {result : Except ε α}
    {next : α → Action β} {value : β}
    (h : (ofExcept fault result >>= next).run.run w = (.ok value, w')) :
    ∃ middle, result = .ok middle ∧ (next middle).run.run w = (.ok value, w') := by
  obtain ⟨middle, w₁, first, onward⟩ := run_bind_ok h
  obtain ⟨same, rfl⟩ := ofExcept_ok first
  exact ⟨middle, same, onward⟩

theorem changeFiles_run (change : FileTree → Except AccessError FileTree) (w : World) :
    (changeFiles change).run.run w = match change w.files with
      | .ok files => (.ok ⟨⟩, { w with files })
      | .error e => (.error (.ofAccess e), w) := by
  rw [changeFiles, inspect, run_bind, run_bind, run_get]
  simp only [ofExcept_run]
  cases change w.files <;> rfl

theorem makeDirectories_run (p : Path) (w : World) :
    (makeDirectories p).run.run w = match (FileTree.makeDirectories p).run.run w.files with
      | (result, files) => (result.mapError Fault.ofAccess, { w with files }) := by
  rw [makeDirectories, run_bind, run_get]
  simp only
  obtain ⟨result, files⟩ := (FileTree.makeDirectories p).run.run w.files
  simp only [run_bind, run_set, ofExcept_run]

theorem makeDirectories_ok {p : Path}
    (h : (makeDirectories p).run.run w = (.ok ⟨⟩, w')) :
    ∃ files, (FileTree.makeDirectories p).run.run w.files = (.ok ⟨⟩, files) ∧
      w' = { w with files } := by
  rw [makeDirectories_run] at h
  rcases made : (FileTree.makeDirectories p).run.run w.files with ⟨e | _, files⟩
  · rw [made] at h
    cases h
  · rw [made] at h
    cases h
    exact ⟨files, rfl, rfl⟩

theorem writeBelow_ok {p : Path} {content : Bytes}
    (h : (writeBelow p content).run.run w = (.ok ⟨⟩, w')) :
    ∃ made files, (FileTree.makeDirectories p.parent).run.run w.files = (.ok ⟨⟩, made) ∧
      made.write p content = .ok files ∧ w' = { w with files } := by
  obtain ⟨_, w₁, began, h⟩ := run_bind_ok h
  obtain ⟨made, parents, rfl⟩ := makeDirectories_ok began
  rw [changeFiles_run] at h
  rcases wrote : made.write p content with e | files
  · simp only [wrote] at h
    cases h
  · simp only [wrote] at h
    cases h
    exact ⟨made, files, parents, wrote, rfl⟩

/-- A file that was written below new directories can be read, and others are left alone. -/
theorem writeBelow_retains {p : Path} {content : Bytes}
    (h : (writeBelow p content).run.run w = (.ok ⟨⟩, w')) :
    w'.files.read p = .ok content ∧ w'.index = w.index ∧
      ∀ kept : Location → Prop, ¬ kept p.location → w.files.Retains kept w'.files := by
  obtain ⟨made, files, parents, wrote, rfl⟩ := writeBelow_ok h
  refine ⟨FileTree.read_write wrote, rfl, ?_⟩
  intro kept free
  have grown : w.files.Retains kept made := .ofMakeDirectories kept parents
  exact grown.trans (.write wrote fun member => absurd member free)

/-- A document that was fetched has the digest that was asked for. -/
theorem fetch_ok {url : String} {headers : List (String × Json)} {accept sha1 : Option String}
    {response : Response} (h : (fetch url headers accept sha1).run.run w = (.ok response, w')) :
    (∀ expected, sha1 = some expected → sha1Hex response.data = expected) ∧
      w'.files = w.files ∧ w'.index = w.index := by
  obtain ⟨reply, w₁, asked, h⟩ := run_bind_ok h
  obtain ⟨rfl, rfl⟩ := ofExcept_ok h
  rw [tryFetch, run_bind, run_get] at asked
  simp only [run_bind, run_set, run_pure] at asked
  generalize fetched : w.network.fetch url headers accept sha1 = outcome at asked
  obtain ⟨result, network⟩ := outcome
  cases asked
  refine ⟨?_, rfl, rfl⟩
  rintro expected rfl
  unfold Network.fetch at fetched
  split at fetched
  · cases fetched
  · simp only at fetched
    split at fetched
    · cases fetched
    · split at fetched
      · rename_i same
        cases fetched
        exact same
      · cases fetched

/-- An action ends as it did when it is done again in a world that has what it came to, and makes no
request. -/
def Redoes (kept : Location → Prop) (later : World) (action : Action α) (w : World) : Prop :=
  Repeats (fun _ => False) (World.LeadsTo kept · later) (fun _ => World.GoesOn kept later) action w

section Redoes
variable {kept : Location → Prop} {later : World}

theorem makeDirectories_redoes (p : Path) : Redoes kept later (makeDirectories p) w := by
  rcases ran : (makeDirectories p).run.run w with ⟨e | _, w'⟩
  · exact .of_fault (by rw [ran]) id
  · obtain ⟨files, made, rfl⟩ := makeDirectories_ok ran
    rw [Redoes, Repeats.iff_of_run ran]
    intro _ before
    have grown : w.files.Retains kept files := .ofMakeDirectories kept made
    refine ⟨⟨grown.trans before.files, before.index⟩, fun t goes => ⟨t, ?_, goes⟩⟩
    have housed := FileTree.isDirectory_of_makeDirectories made
    have there := goes.files.isDirectory (before.files.isDirectory housed)
    rw [makeDirectories_run, FileTree.makeDirectories_of_isDirectory there]
    rfl

/-- A change that puts a file to a place where it finds one again can be made again. -/
theorem changeFiles_redoes {change : FileTree → Except AccessError FileTree} {p : Path}
    (free : ¬ kept p.location)
    (writes : ∀ a b, change a = .ok b → ∃ content, a.write p content = .ok b)
    (again : ∀ b t, change w.files = .ok b → w.files.Retains kept t → t.HasFile p →
      ∃ t', change t = .ok t') : Redoes kept later (changeFiles change) w := by
  have ran := changeFiles_run change w
  rcases changed : change w.files with e | files
  · rw [changed] at ran
    exact .of_fault (by rw [ran]) id
  · rw [changed] at ran
    rw [Redoes, Repeats.iff_of_run ran]
    intro _ before
    obtain ⟨content, wrote⟩ := writes _ _ changed
    have written : w.files.Retains kept files := .write wrote fun member => absurd member free
    have began := written.trans before.files
    refine ⟨⟨began, before.index⟩, ?_⟩
    intro t goes
    have there := goes.files.hasFile (before.files.hasFile (FileTree.hasFile_write wrote))
    obtain ⟨files', changed'⟩ := again _ t.files changed (began.trans goes.files) there
    obtain ⟨content', wrote'⟩ := writes _ _ changed'
    refine ⟨{ t with files := files' }, by rw [changeFiles_run, changed'], ?_, goes.network⟩
    exact goes.files.trans (.write wrote' fun member => absurd member free)

theorem write_redoes {p : Path} (content : Bytes) (free : ¬ kept p.location) :
    Redoes kept later (changeFiles fun files => files.write p content) w :=
  changeFiles_redoes free (fun _ _ wrote => ⟨content, wrote⟩)
    fun _ _ _ _ there => ⟨_, there.write content⟩

theorem copy_redoes {source dest : Path} (free : ¬ kept dest.location) :
    Redoes kept later (changeFiles fun files => files.copy source dest) w := by
  refine changeFiles_redoes free (fun a b copied => ?_) fun b t copied stays there => ?_
  · obtain ⟨_, content, _, wrote⟩ := FileTree.copy_ok_iff.mp copied
    exact ⟨content, wrote⟩
  · obtain ⟨different, _, read, _⟩ := FileTree.copy_ok_iff.mp copied
    obtain ⟨content, read'⟩ := (stays.hasFile (FileTree.hasFile_of_read read)).read
    exact ⟨_, FileTree.copy_ok_iff.mpr ⟨different, content, read', there.write content⟩⟩

theorem writeBelow_redoes {p : Path} (content : Bytes) (free : ¬ kept p.location) :
    Redoes kept later (writeBelow p content) w :=
  .bind (makeDirectories_redoes _) fun _ _ _ => write_redoes content free

end Redoes
end Action
end Launcher
