import Launcher.Commands.Execution
import Launcher.Proofs.Install.Finishing
import Launcher.Proofs.Network.Failure
import Launcher.Proofs.Versions.Outcome

/-! The faults that can end what a command does. Something is told of most of them. The others slip
through: what the system does not know of a request, and for a client expressions, placeholders and
archives that nothing is prepared for. -/
namespace Launcher

namespace Fault

/-- A fault that ends an operation, and of which something is told. -/
def IsTold : Fault → Prop
  | .batch .unending => False
  | fault => fault.report?.isSome

theorem IsTold.report {f : Fault} (told : f.IsTold) : ∃ displays, f.report? = some displays := by
  refine Option.isSome_iff_exists.mp ?_
  unfold IsTold at told
  split at told
  · exact told.elim
  · exact told

/-- The faults of which nothing is told. Some of them only a client can have. -/
inductive Slips : (client : Bool) → Fault → Prop
  | incompleteRead {client : Bool} : Slips client (.exchange .incompleteRead)
  | badStatusLine {client : Bool} : Slips client (.exchange .badStatusLine)
  | unresolved (e : UnresolvedPlaceholder) : Slips true (.evaluation (.unresolved e))
  | malformedPattern (text : String) : Slips true (.evaluation (.pattern ⟨text, .malformed⟩))
  | countTooLarge (text : String) : Slips true (.evaluation (.pattern ⟨text, .countTooLarge⟩))
  | nameless : Slips true .namelessMember
  | rangeCoder (fault : Lzma.Fault) : Slips true (.rangeCoder fault)

theorem Slips.untold {client : Bool} {f : Fault} (slips : f.Slips client) : f.report? = none := by
  cases slips <;> rfl

/-- The faults that can end what is done for a client or for a server. -/
def Ends (client : Bool) (f : Fault) : Prop := f.IsTold ∨ f.Slips client

/-- The faults that can end an installation, the downloads of which may go on for ever. -/
def EndsInstall (client : Bool) (f : Fault) : Prop := f.Ends client ∨ f = .batch .unending

variable {client : Bool}

theorem isTold_ofAccess (e : AccessError) : (ofAccess e).IsTold := by
  cases e <;> exact rfl

theorem isTold_ofAdd (e : AddError) : (ofAdd e).IsTold := by
  cases e <;> exact rfl

theorem ends_ofFailure (failure : ConnectionFailure) : (ofConnection failure.fault).Ends client := by
  cases failure with
  | incomplete => exact .inr .incompleteRead
  | badStatus => exact .inr .badStatusLine
  | _ => exact .inl rfl

theorem ends_ofFetch {e : FetchError}
    (failed : ∀ fault, e = .connection fault → ∃ failure : ConnectionFailure,
      failure.fault = fault) : (ofFetch e).Ends client := by
  cases e with
  | connection fault =>
    obtain ⟨failure, rfl⟩ := failed fault rfl
    exact ends_ofFailure failure
  | _ => exact .inl rfl

theorem ends_pattern (e : InvalidPattern) : (Fault.evaluation (.pattern e)).Ends true := by
  obtain ⟨text, fault⟩ := e
  cases fault with
  | malformed => exact .inr (.malformedPattern text)
  | countTooLarge => exact .inr (.countTooLarge text)
  | countTooLong digits => exact .inl rfl

theorem ends_ofLaunch (e : LaunchError) : (ofLaunch e).Ends true := by
  cases e with
  | malformed e => exact .inl rfl
  | evaluation e =>
    cases e with
    | unresolved e => exact .inr (.unresolved e)
    | pattern e => exact ends_pattern e

theorem ends_ofExtraction (e : Natives.InstallError) : (ofExtraction e).Ends true := by
  cases e with
  | access e => exact .inl (isTold_ofAccess e)
  | crash crash =>
    cases crash with
    | nameless => exact .inr .nameless
    | rangeCoder fault => exact .inr (.rangeCoder fault)
    | _ => exact .inl rfl

theorem IsUnread.isTold {e : Fault} (unread : e.IsUnread) : e.IsTold := by
  cases unread <;> exact rfl

theorem endsInstall_batch (e : BatchError) : (Fault.batch e).EndsInstall client := by
  cases e with
  | unending => exact .inr rfl
  | _ => exact .inl (.inl rfl)

end Fault

variable {client : Bool}

namespace Action
variable {α : Type}

theorem readDocument_fails (name : String) (bytes : Bytes) :
    FailsBy (Fault.Ends client) (ofExcept id (readDocument name bytes)) :=
  ofExcept_fails fun _ failed => .inl (readDocument_error failed).isTold

theorem inspect_fails (look : FileTree → Except SystemError α) :
    FailsBy (Fault.Ends client) (inspect Fault.system look) :=
  .bind .get fun _ => ofExcept_fails fun _ _ => .inl rfl

theorem makeDirectories_fails (p : Path) : FailsBy (Fault.Ends client) (makeDirectories p) := by
  intro w _
  rw [makeDirectories_run]
  refine ⟨trivial, fun e failed => ?_⟩
  obtain ⟨e, -, rfl⟩ := mapError_error failed
  exact .inl (Fault.isTold_ofAccess e)

theorem changeFiles_fails (change : FileTree → Except AccessError FileTree) :
    FailsBy (Fault.Ends client) (changeFiles change) :=
  .bind (.bind .get fun _ => ofExcept_fails fun e _ => .inl (Fault.isTold_ofAccess e)) fun _ =>
    .modify fun _ _ => trivial

theorem writeBelow_fails (p : Path) (content : Bytes) :
    FailsBy (Fault.Ends client) (writeBelow p content) :=
  .bind (makeDirectories_fails _) fun _ => changeFiles_fails _

theorem fetch_fails (url : String) (headers : List (String × Json)) (accept sha1 : Option String) :
    FailsBy (Fault.Ends client) (fetch url headers accept sha1) := by
  intro w _
  rw [fetch_run]
  refine ⟨trivial, fun e failed => ?_⟩
  obtain ⟨e, broken, rfl⟩ := mapError_error failed
  exact Fault.ends_ofFetch fun fault same => Network.fetch_fault (same ▸ broken)

end Action

namespace VersionIndex

theorem keep_fails (data : Members) : FailsBy (Fault.Ends client) (keep data) := by
  refine .bind .get fun w => ?_
  split
  · exact .pure _
  · exact Action.writeBelow_fails _ _

theorem load_fails : FailsBy (Fault.Ends client) load := by
  intro w _
  refine ⟨trivial, fun e failed => ?_⟩
  cases known : w.index.data with
  | some data =>
    rw [load_known known] at failed
    cases failed
  | none =>
    have loads := load_loads known
    rw [failed] at loads
    generalize (load.run.run w).2 = left at loads
    cases loads with
    | unreadable kept =>
      rcases keptIn_error kept with unread | rfl
      · exact .inl unread.isTold
      · exact .inl rfl
    | refused _ asked _ =>
      refine Fault.ends_ofFetch fun fault same => ?_
      subst same
      exact Network.fetch_fault (congrArg Prod.fst asked)
    | unusable _ _ read => exact .inl (ofResponse_error read).isTold
    | @unkept _ _ network data _ _ _ _ _ put =>
      exact (keep_fails data { w with network } trivial).2 e (congrArg Prod.fst put)

theorem entries_fails : FailsBy (Fault.Ends client) entries :=
  .bind load_fails fun _ => Action.ofExcept_fails fun _ _ => .inl rfl

/-- The latest version of a kind is looked for in an object. -/
theorem latest_fails (version : String) :
    FailsBy (fun f => f.Ends client ∨ f = .latestNotObject ∧ isAlias version = true)
      (latest version) := by
  unfold latest
  cases named : isAlias version with
  | false => exact .pure _
  | true =>
    refine .bind (load_fails.weaken fun _ => .inl) fun data => ?_
    split
    · split <;> exact .pure _
    · exact .throw (.inr ⟨rfl, rfl⟩)

theorem metadata_fails (version : String) (file : Path) :
    FailsBy (Fault.Ends client) (metadata version file) := by
  refine .bind (.bind entries_fails fun _ => .pure _) fun found => ?_
  cases found with
  | none => exact .throw (.inl rfl)
  | some entry =>
    refine .bind ?_ fun kept => ?_
    · unfold keptMetadata
      split
      · exact .pure _
      · refine .bind .get fun w => ?_
        split
        · exact .pure _
        · exact .throw (.inl rfl)
        · refine .ite ?_ (.pure _)
          exact .bind (Action.readDocument_fails _ _) fun _ => .pure _
    · cases kept with
      | some data => exact .pure _
      | none =>
        refine .bind (Action.fetch_fails _ _ _ _) fun response => ?_
        refine .bind (Action.readDocument_fails _ _) fun data => ?_
        exact .bind (Action.writeBelow_fails _ _) fun _ => .pure _

end VersionIndex

namespace InstallPlan
variable {α : Type}

theorem onWorld_fails {E : Fault → Prop} {action : Action α} (fails : FailsBy E action) :
    FailsBy E (onWorld action) := by
  intro s _
  rw [onWorld_run]
  exact ⟨trivial, (fails s.world trivial).2⟩

theorem require_fails (entry : DownloadEntry) : FailsBy (Fault.Ends client) (require entry) := by
  refine .bind .get fun s => ?_
  split
  · exact .modify fun _ _ => trivial
  · exact .throw (.inl (Fault.isTold_ofAdd _))

theorem planAllowed_fails (platform : Platform) (features : Features)
    (librariesDir nativesDir : Path) (libraries : List Library) :
    FailsBy (Fault.Ends true)
      (planAllowed platform features librariesDir nativesDir libraries) := by
  induction libraries with
  | nil => exact .pure _
  | cons library rest ih =>
    unfold planAllowed
    split
    · exact .throw (Fault.ends_pattern _)
    · exact .bind (.bind (require_fails _) fun _ => .modify fun _ _ => trivial) fun _ => ih
    · exact ih

theorem assetsIndex_fails (info : Members) (version : String) (file : Path) :
    FailsBy (Fault.Ends client) (assetsIndex info version file) := by
  refine .bind .get fun w => ?_
  split
  · exact Action.readDocument_fails _ _
  · refine .bind (Action.ofExcept_fails fun _ _ => .inl rfl) fun url => ?_
    refine .bind (Action.ofExcept_fails fun _ _ => .inl rfl) fun sha1 => ?_
    refine .bind (Action.fetch_fails _ _ _ _) fun response => ?_
    refine .bind (Action.readDocument_fails _ _) fun index => ?_
    exact .bind (Action.writeBelow_fails _ _) fun _ => .pure _
  · exact .throw (.inl (Fault.isTold_ofAccess _))

theorem planObjects_fails (objectsDir : Path) (resources : String) (place : Place)
    (objects : List (String × Json)) :
    FailsBy (Fault.Ends client) (planObjects objectsDir resources place objects) := by
  induction objects with
  | nil => exact .pure _
  | cons object rest ih =>
    obtain ⟨id, v⟩ := object
    unfold planObjects
    split
    · exact .throw (.inl rfl)
    · exact .bind (require_fails _) fun _ => .bind (.modify fun _ _ => trivial) fun _ => ih

theorem planAssets_fails (metadata : Members) (assetsDir : Path) (version resources : String) :
    FailsBy (Fault.Ends client) (planAssets metadata assetsDir version resources) := by
  unfold planAssets
  split
  · exact .pure _
  · split
    · exact .throw (.inl rfl)
    · refine .bind (onWorld_fails (assetsIndex_fails _ _ _)) fun index => ?_
      simp only
      split
      · exact .throw (.inl rfl)
      · exact .bind (planObjects_fails _ _ _ _) fun _ => .modify fun _ _ => trivial

/-- Only the rules of libraries have faults of which nothing is told. -/
theorem planAll_fails (platform : Platform) (features : Features) (metadata : Members)
    (directories : Directories) (version resources : String) :
    FailsBy (Fault.Ends true)
      (planAll platform features metadata directories version resources) := by
  refine .bind ?_ fun _ => planAssets_fails _ _ _ _
  unfold planLibraries
  split
  · exact .throw (.inl rfl)
  · exact planAllowed_fails _ _ _ _ _

end InstallPlan

namespace Installation
variable {α : Type}

/-- A step that is ended by faults of an installation, and does not plan archives of a server. -/
def Faults (client : Bool) (step : InstallAction α) : Prop :=
  Safe (fun i => client = false → i.plan.natives = []) (Fault.EndsInstall client) step

theorem tell_faults (event : InstallEvent) : Faults client (tell event) :=
  .modify fun _ => id

theorem ofExcept_faults {ε : Type} {fault : ε → Fault} {result : Except ε α}
    (kind : ∀ e, (fault e).Ends client) : Faults client (ofExcept fault result) :=
  ofExcept_safe fun e => .inl (kind e)

theorem onWorld_faults {action : Action α} (fails : FailsBy (Fault.Ends client) action) :
    Faults client (onWorld action) :=
  onWorld_safe fun i bare => ⟨bare, fun e failed => .inl ((fails i.world trivial).2 e failed)⟩

theorem loadMetadata_faults (s : InstallSettings) : Faults client (loadMetadata s) :=
  .bind (tell_faults _) fun _ =>
    .bind (onWorld_faults (VersionIndex.metadata_fails _ _)) fun _ =>
      .bind (tell_faults _) fun _ => .pure _

theorem require_faults (entry : DownloadEntry) :
    Faults client (onPlan (InstallPlan.require entry)) := by
  intro i bare
  rw [onPlan_run, InstallPlan.require_run]
  cases i.plan.jobs.add i.world.files entry true with
  | ok added => exact ⟨bare, fun _ failed => nomatch failed⟩
  | error e =>
    refine ⟨bare, fun _ failed => ?_⟩
    cases failed
    exact .inl (.inl (Fault.isTold_ofAdd e))

theorem planJar_faults (kind : JarKind) (jar : Path) (metadata : Members) :
    Faults client (planJar kind jar metadata) := by
  refine .bind (ofExcept_faults fun _ => .inl rfl) fun offered => ?_
  cases offered with
  | some entry => exact .bind (require_faults entry) fun _ => tell_faults _
  | none =>
    refine .bind (onWorld_faults (Action.inspect_fails _)) fun isThere => ?_
    exact .guard (.inl (.inl rfl)) (tell_faults _)

theorem planFiles_faults (machine : Machine) (s : InstallSettings) (metadata : Members) :
    Faults true (planFiles machine s metadata) := by
  refine .bind (tell_faults _) fun _ => .bind ?_ fun _ => ?_
  · intro i _
    rw [onPlan_run]
    refine ⟨nofun, fun e failed => .inl ?_⟩
    exact (InstallPlan.planAll_fails _ _ _ _ _ _ ⟨i.world, i.plan⟩ trivial).2 e failed
  · refine .bind .get fun i => .bind (tell_faults _) fun _ => ?_
    split
    · exact tell_faults _
    · exact .pure _

theorem settle_faults (batch : Batch) : Faults client (settle batch) := by
  unfold settle
  split
  · exact .throw (Fault.endsInstall_batch _)
  · refine .ite ?_ (.throw (.inl (.inl rfl)))
    exact .bind (.modify fun _ => id) fun _ => tell_faults _

theorem download_faults (machine : Machine) (s : InstallSettings) :
    Faults client (download machine s) := by
  refine .bind .get fun i => .ite (.pure _) ?_
  refine .bind (tell_faults _) fun _ => .bind (.modify fun _ => id) fun _ => ?_
  exact .bind (.modify fun _ => id) fun _ => settle_faults _

/-- Without archives nothing is extracted. -/
theorem installNatives_faults (s : InstallSettings) : Faults client (installNatives s) := by
  intro i bare
  rw [installNatives_run]
  split
  · exact ⟨bare, fun _ failed => nomatch failed⟩
  · rename_i some
    cases client with
    | false => exact absurd (bare rfl) some
    | true =>
      split
      · exact ⟨nofun, fun _ failed => nomatch failed⟩
      · refine ⟨nofun, fun _ failed => ?_⟩
        cases failed
        exact .inl (Fault.ends_ofExtraction _)

theorem copyAssets_fails (directory : Path) (assets : List (String × Path)) :
    FailsBy (Fault.Ends client) (copyAssets directory assets) := by
  induction assets with
  | nil => exact .pure _
  | cons asset rest ih =>
    exact .bind (Action.makeDirectories_fails _) fun _ =>
      .bind (Action.changeFiles_fails _) fun _ => ih

theorem placeAssets_faults : Faults client placeAssets := by
  refine .bind .get fun i => ?_
  simp only
  split
  · exact onWorld_faults (copyAssets_fails _ _)
  · exact .pure _

theorem clientEnvironment_faults (machine : Machine) (s : InstallSettings) (metadata : Members) :
    Faults true (clientEnvironment machine s metadata) := by
  refine .bind (onWorld_faults (Action.makeDirectories_fails _)) fun _ => .bind .get fun i => ?_
  refine .bind (ofExcept_faults fun _ => .inl rfl) fun versionType => ?_
  exact .bind (ofExcept_faults Fault.ends_ofLaunch) fun arguments => .pure _

theorem serverEnvironment_faults (s : InstallSettings) : Faults client (serverEnvironment s) :=
  .bind (onWorld_faults (Action.writeBelow_fails _ _)) fun _ =>
    .bind (tell_faults _) fun _ => .pure _

/-- The faults that can end an installation are those of its kind. -/
theorem steps_faults (machine : Machine) (s : InstallSettings) :
    Faults (decide (s.kind = .client)) (steps machine s) := by
  refine .bind (.bind (loadMetadata_faults s) fun metadata =>
    .bind (planJar_faults _ _ _) fun _ => ?_) fun metadata =>
    .bind (download_faults machine s) fun _ => .bind (installNatives_faults s) fun _ =>
    .bind placeAssets_faults fun _ => ?_
  · cases s.kind with
    | client => exact .bind (planFiles_faults machine s metadata) fun _ => .pure _
    | server => exact .pure _
  · cases s.kind with
    | client => exact clientEnvironment_faults machine s metadata
    | server => exact serverEnvironment_faults s

theorem stepsNowhere_fails (s : InstallSettings) :
    Safe (fun i => client = false → i.plan.natives = [])
      (fun f => f.EndsInstall client ∨ f = .cleared .workDir) (stepsNowhere s) :=
  .bind ((loadMetadata_faults s).weaken fun _ => .inl) fun _ => .throw (.inr rfl)

end Installation
end Launcher
