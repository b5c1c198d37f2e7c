import Launcher.Proofs.Action
import Launcher.Proofs.Files.Presence
import Launcher.Versions.Loading

/-! What actions on the world leave of its files. Directories and files stay, and new files come to
the places that an action is known to write: those that learn of versions write the file in which
the index is kept, and that of the metadata. None of these actions fails as downloads do. -/
namespace Launcher

/-- The fault of downloads that failed. -/
def Fault.IsDownloads : Fault → Prop
  | .downloads _ => True
  | _ => False

namespace Fault

@[simp] theorem not_isDownloads_ofAccess (e : AccessError) : ¬ (ofAccess e).IsDownloads := by
  cases e <;> exact id

@[simp] theorem not_isDownloads_ofConnection (fault : ConnectionFault) :
    ¬ (ofConnection fault).IsDownloads := by
  cases fault <;> exact id

@[simp] theorem not_isDownloads_ofFetch (e : FetchError) : ¬ (ofFetch e).IsDownloads := by
  cases e with
  | connection fault => exact not_isDownloads_ofConnection fault
  | _ => exact id

@[simp] theorem not_isDownloads_ofAdd (e : AddError) : ¬ (ofAdd e).IsDownloads := by
  cases e <;> exact id

@[simp] theorem not_isDownloads_ofLaunch (e : LaunchError) : ¬ (ofLaunch e).IsDownloads := by
  cases e <;> exact id

@[simp] theorem not_isDownloads_ofExtraction (e : Natives.InstallError) :
    ¬ (ofExtraction e).IsDownloads := by
  cases e with
  | access e => exact not_isDownloads_ofAccess e
  | crash crash => cases crash <;> exact id

end Fault

/-- The faults of bytes that are not read as a document. -/
inductive Fault.IsUnread : Fault → Prop
  | unreadable (name : String) (e : Json.ReadError) : IsUnread (.document (.unreadable name e))
  | notObject (name : String) : IsUnread (.document (.notObject name))
  | tooLong (digits : Nat) : IsUnread (.integerTooLong digits)
  | undecodable (bytes : Bytes) (e : DecodingError) : IsUnread (.undecodable bytes e)

theorem Fault.IsUnread.not_isDownloads {e : Fault} (unread : e.IsUnread) : ¬ e.IsDownloads := by
  cases unread <;> exact id

theorem readDocument_error {name : String} {bytes : Bytes} {e : Fault}
    (failed : readDocument name bytes = .error e) : e.IsUnread := by
  unfold readDocument at failed
  split at failed
  · cases failed
    exact .tooLong _
  · cases failed
    exact .unreadable _ _
  · contradiction
  · cases failed
    exact .notObject _

theorem readDocument_ok {name : String} {bytes : Bytes} {members : Members} :
    readDocument name bytes = .ok members ↔ Json.parse bytes = .ok (.object members) := by
  unfold readDocument
  split <;> simp_all

/-- One world comes from another: its files are an advance that leaves alone all but some places,
and the index of versions is kept where it was. -/
structure World.Derives (places : Location → Prop) (start w : World) : Prop where
  files : start.files.Advances places w.files
  cache : w.index.cache = start.index.cache

theorem World.Derives.refl (places : Location → Prop) (w : World) : World.Derives places w w :=
  ⟨.refl places _, rfl⟩

/-- An action writes no files but at some places, and does not fail as downloads do. -/
def Action.Within {α : Type} (places : Location → Prop) (start : World) (action : Action α) :
    Prop :=
  Safe (World.Derives places start) (fun e => ¬ e.IsDownloads) action

namespace Action
variable {places : Location → Prop} {start : World} {α ε : Type}

theorem ofExcept_within {fault : ε → Fault} {result : Except ε α}
    (kind : ∀ e, result = .error e → ¬ (fault e).IsDownloads) :
    Within places start (ofExcept fault result) := by
  cases result with
  | ok value => exact .pure value
  | error e => exact .throw (kind e rfl)

theorem readDocument_within (name : String) (bytes : Bytes) :
    Within places start (ofExcept id (readDocument name bytes)) :=
  ofExcept_within fun _ failed => (readDocument_error failed).not_isDownloads

theorem inspect_within {fault : ε → Fault} (look : FileTree → Except ε α)
    (kind : ∀ e, ¬ (fault e).IsDownloads) : Within places start (inspect fault look) :=
  .bind .get fun _ => ofExcept_within fun e _ => kind e

theorem changeFiles_within {change : FileTree → Except AccessError FileTree}
    (advance : ∀ files files', change files = .ok files' → files.Advances places files') :
    Within places start (changeFiles change) := by
  intro w h
  rw [changeFiles, inspect, run_bind, run_bind, run_get]
  rcases changed : change w.files with e | files
  · simp only [changed, ofExcept, run_throw]
    exact ⟨h, fun e' failed => by cases failed; exact Fault.not_isDownloads_ofAccess e⟩
  · simp only [changed, ofExcept, run_pure, run_modify]
    exact ⟨⟨h.files.trans (advance _ _ changed), h.cache⟩, fun e failed => nomatch failed⟩

theorem makeDirectories_within (p : Path) : Within places start (makeDirectories p) := by
  refine .get_bind fun w h => ?_
  have grows := FileTree.makeDirectories_grows p w.files
  generalize (FileTree.makeDirectories p).run.run w.files = outcome at grows ⊢
  obtain ⟨result, files⟩ := outcome
  have derives : World.Derives places start { w with files } :=
    ⟨h.files.trans (.ofGrows _ grows), h.cache⟩
  have ended : Within places start (ofExcept Fault.ofAccess result) :=
    ofExcept_within fun e _ => Fault.not_isDownloads_ofAccess e
  simp only [run_bind, run_set]
  exact ended _ derives

theorem writeBelow_within {p : Path} (content : Bytes) (place : places p.location) :
    Within places start (writeBelow p content) :=
  .bind (makeDirectories_within p.parent) fun _ =>
    changeFiles_within fun _ _ wrote => .write wrote place

theorem tryFetch_within (url : String) (headers : List (String × Json))
    (accept sha1 : Option String) : Within places start (tryFetch url headers accept sha1) := by
  refine .get_bind fun w h => ?_
  generalize w.network.fetch url headers accept sha1 = outcome
  obtain ⟨result, network⟩ := outcome
  exact ⟨⟨h.files, h.cache⟩, fun e failed => nomatch failed⟩

theorem fetch_within (url : String) (headers : List (String × Json))
    (accept sha1 : Option String) : Within places start (fetch url headers accept sha1) :=
  .bind (tryFetch_within _ _ _ _) fun _ =>
    ofExcept_within fun e _ => Fault.not_isDownloads_ofFetch e

end Action

namespace VersionIndex
variable {places : Location → Prop} {start : World}

open Launcher.Action (Within)

theorem ofKept_error {bytes : Bytes} {e : Fault} (failed : ofKept bytes = .error e) :
    e.IsUnread := by
  unfold ofKept at failed
  split at failed
  · cases failed
    exact .undecodable _ _
  · split at failed
    all_goals cases failed
    exact .tooLong _

theorem kept_within : Within places start kept := by
  refine .bind .get fun w => ?_
  split
  · exact .pure _
  · refine .bind .get fun w => ?_
    split
    · exact Action.ofExcept_within fun _ failed => (ofKept_error failed).not_isDownloads
    · exact .pure _
    · exact .throw id

theorem ofResponse_error {response : Response} {e : Fault}
    (failed : ofResponse response = .error e) : e.IsUnread := by
  rcases bind_error failed with failed | ⟨_, _, failed⟩
  · exact readDocument_error failed
  · split at failed <;> contradiction

theorem keep_within (cache : ∀ file ∈ start.index.cache, places file.location) (data : Members) :
    Within places start (keep data) := by
  refine .get_bind fun w h => ?_
  split
  · exact Safe.pure _ w h
  · rename_i file kept
    exact Action.writeBelow_within _ (cache file (h.cache ▸ kept)) w h

theorem learn_within (data : Members) : Within places start (learn data) :=
  .bind (.modify fun _ h => ⟨h.files, h.cache⟩) fun _ => .pure _

theorem load_within (cache : ∀ file ∈ start.index.cache, places file.location) :
    Within places start load := by
  refine .bind .get fun w => ?_
  split
  · exact .pure _
  · refine .bind kept_within fun old => .bind .get fun w =>
      .bind (Action.tryFetch_within _ _ _ _) ?_
    intro reply
    split
    · refine .bind (Action.ofExcept_within fun _ failed =>
        (ofResponse_error failed).not_isDownloads) fun data => ?_
      exact .bind (keep_within cache data) fun _ => learn_within data
    · split
      · split
        · exact learn_within _
        · exact .throw id
      · exact .throw id
    · exact .throw (Fault.not_isDownloads_ofFetch _)

theorem find?_within (cache : ∀ file ∈ start.index.cache, places file.location)
    (version : String) : Within places start (find? version) := by
  refine .bind ?_ fun _ => .pure _
  exact .bind (load_within cache) fun _ => Action.ofExcept_within fun _ _ => id

theorem keptMetadata_within (entry : VersionEntry) (name : String) (file : Path) :
    Within places start (keptMetadata entry name file) := by
  unfold keptMetadata
  split
  · exact .pure _
  · refine .bind .get fun w => ?_
    split
    · exact .pure _
    · exact .throw id
    · split
      · exact .bind (Action.readDocument_within _ _) fun _ => .pure _
      · exact .pure _

/-- Loading the metadata of a version writes the file of the index and that of the metadata. -/
theorem metadata_within (cache : ∀ file ∈ start.index.cache, places file.location)
    (version : String) {file : Path} (place : places file.location) :
    Within places start (metadata version file) := by
  refine .bind (find?_within cache version) fun found => ?_
  split
  · exact .throw id
  · refine .bind (keptMetadata_within _ _ _) fun kept => ?_
    split
    · exact .pure _
    · refine .bind (Action.fetch_within _ _ _ _) fun response => ?_
      refine .bind (Action.readDocument_within _ _) fun data => ?_
      exact .bind (Action.writeBelow_within _ place) fun _ => .pure _

end VersionIndex
end Launcher
