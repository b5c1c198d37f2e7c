import Launcher.Proofs.Files.Content
import Launcher.Proofs.World.Repetition

/-! Single steps of actions on the world: a request, and a file that is put to its place. A response
is one of success, and a file that could not be written cannot be opened either. -/
namespace Launcher

theorem Fetch.exchange_isSuccess {origin : String} {certified : Bool} {fuel : Nat}
    {headers : RequestHeaders} {visits : Visits} {goal : Target} {network network' : Network}
    {response : Response}
    (fetched : exchange origin certified fuel headers visits goal network =
      (.ok response, network')) : isSuccess response.status = true := by
  induction fuel generalizing headers visits goal network with
  | zero => cases fetched
  | succ fuel ih =>
    unfold exchange at fetched
    simp only at fetched
    repeat' split at fetched
    all_goals first
      | exact ih fetched
      | (cases fetched; done)
      | (cases fetched; assumption)

/-- A response that fetching a document gives is one of success. -/
theorem Network.fetch_isSuccess {network network' : Network} {url : String} {headers : Members}
    {accept sha1 : Option String} {response : Response}
    (fetched : network.fetch url headers accept sha1 = (.ok response, network')) :
    Fetch.isSuccess response.status = true := by
  unfold Network.fetch at fetched
  simp only at fetched
  split at fetched
  · cases fetched
  · split at fetched
    · cases fetched
    · rename_i exchanged
      have success := Fetch.exchange_isSuccess exchanged
      split at fetched
      · cases fetched
        exact success
      · split at fetched
        · cases fetched
          exact success
        · cases fetched

namespace Action
variable {w w' : World} {p : Path} {content : Bytes}

theorem ofExcept_fails {α ε : Type} {E : Fault → Prop} {fault : ε → Fault} {result : Except ε α}
    (kind : ∀ e, result = .error e → E (fault e)) : FailsBy E (ofExcept fault result) := by
  cases result with
  | ok value => exact .pure value
  | error e => exact .throw (kind e rfl)

theorem tryFetch_run (url : String) (headers : List (String × Json)) (accept sha1 : Option String)
    (w : World) : (tryFetch url headers accept sha1).run.run w =
      (.ok (w.network.fetch url headers accept sha1).1,
        { w with network := (w.network.fetch url headers accept sha1).2 }) := by
  rw [tryFetch, run_bind, run_get]
  rfl

theorem fetch_run (url : String) (headers : List (String × Json)) (accept sha1 : Option String)
    (w : World) : (fetch url headers accept sha1).run.run w =
      ((w.network.fetch url headers accept sha1).1.mapError Fault.ofFetch,
        { w with network := (w.network.fetch url headers accept sha1).2 }) := by
  rw [fetch, run_bind, tryFetch_run]
  simp only [ofExcept_run]

/-- Writing a file below new directories is a change of the files alone. -/
theorem writeBelow_run (p : Path) (content : Bytes) (w : World) :
    (writeBelow p content).run.run w =
      match (FileTree.makeDirectories p.parent).run.run w.files with
      | (.error e, made) => (.error (.ofAccess e), { w with files := made })
      | (.ok (), made) =>
        match made.write p content with
        | .error e => (.error (.ofAccess e), { w with files := made })
        | .ok files => (.ok (), { w with files }) := by
  rw [writeBelow, run_bind, makeDirectories_run]
  rcases (FileTree.makeDirectories p.parent).run.run w.files with ⟨e | _, made⟩
  · rfl
  · simp only [Except.mapError, changeFiles_run]
    rcases made.write p content with _ | _ <;> rfl

theorem writeBelow_leaves {result : Except Fault Unit}
    (ran : (writeBelow p content).run.run w = (result, w')) :
    w'.network = w.network ∧ w'.index = w.index := by
  rw [writeBelow_run] at ran
  split at ran
  · cases ran
    exact ⟨rfl, rfl⟩
  · split at ran
    · cases ran
      exact ⟨rfl, rfl⟩
    · cases ran
      exact ⟨rfl, rfl⟩

theorem writeBelow_fault {e : Fault} (failed : (writeBelow p content).run.run w = (.error e, w')) :
    ∃ access, e = .ofAccess access := by
  rw [writeBelow_run] at failed
  split at failed
  · cases failed
    exact ⟨_, rfl⟩
  · split at failed
    · cases failed
      exact ⟨_, rfl⟩
    · cases failed

/-- If a file cannot be written, some directories above it may be new, but the file cannot be
opened, unless it could before and has no name. -/
theorem writeBelow_failed {e : Fault}
    (failed : (writeBelow p content).run.run w = (.error e, w')) :
    w'.index = w.index ∧ FileTree.Grows p.parent w.files w'.files ∧
      (¬ w.files.HasFile p ∨ p.parts ≠ [] → ¬ w'.files.HasFile p) := by
  rw [writeBelow_run] at failed
  have grows := FileTree.makeDirectories_grows p.parent w.files
  rcases making : (FileTree.makeDirectories p.parent).run.run w.files with ⟨e' | _, made⟩
  · rw [making] at failed grows
    cases failed
    refine ⟨rfl, grows, fun before present => ?_⟩
    have named : p.parts ≠ [] := by
      rcases before with absent | named
      · exact fun unnamed => absent (grows.hasFile_of_parts unnamed present)
      · exact named
    obtain ⟨nul, way, _⟩ := FileTree.hasFile_iff.mp present
    exact FileTree.not_isDirectory_of_makeDirectories p.parent making
      (FileTree.isDirectory_parent nul way named)
  · rw [making] at failed grows
    simp only at failed
    split at failed
    · rename_i refused
      cases failed
      refine ⟨rfl, grows, fun _ present => ?_⟩
      rw [present.write content] at refused
      cases refused
    · cases failed

/-- A file that is written has a name. -/
theorem parts_of_writeBelow (wrote : (writeBelow p content).run.run w = (.ok (), w')) :
    p.parts ≠ [] := by
  obtain ⟨made, files, parents, written, _⟩ := writeBelow_ok wrote
  intro unnamed
  have same : p.parent = p := by
    cases p
    simp_all [Path.parent]
  have housed := FileTree.isDirectory_of_makeDirectories parents
  rw [same] at housed
  exact (FileTree.write_ok written).2.2.1 (FileTree.isDirectory_iff.mp housed).2.2

end Action
end Launcher
