import Launcher.Proofs.Download.Run
import Launcher.Proofs.Files.Content

/-! Where a change of the file tree can be seen. Files change at some places only, directories come
at others only, and everything else is as it was. An action is looked at through the file tree in
its state. -/
namespace Launcher

/-- From the first tree to the second one files may change at some places, directories come at
others, and nothing else happens. -/
def FileTree.Alters (places made : Location → Prop) (a b : FileTree) : Prop :=
  ∀ l, b.get? l = a.get? l ∨ (a.get? l = none ∧ b.get? l = some .directory ∧ made l) ∨ places l

/-- A file may change at a path, and the directories above it may come. -/
structure Path.IsFree (places made : Location → Prop) (p : Path) : Prop where
  file : places p.location
  above : ∀ n, made (p.parent.ancestor n).location

namespace FileTree
namespace Alters
variable {places places' made made' : Location → Prop} {a b c : FileTree} {p : Path}

theorem refl (a : FileTree) : Alters places made a a := fun _ => .inl rfl

theorem trans (first : Alters places made a b) (second : Alters places made b c) :
    Alters places made a c := by
  intro l
  rcases second l with same | ⟨absent, directory, new⟩ | place
  · rw [same]
    exact first l
  · rcases first l with same | ⟨_, directory', _⟩ | place
    · exact .inr (.inl ⟨same ▸ absent, directory, new⟩)
    · rw [directory'] at absent
      contradiction
    · exact .inr (.inr place)
  · exact .inr (.inr place)

theorem mono (alters : Alters places made a b) (more : ∀ l, places l → places' l)
    (more' : ∀ l, made l → made' l) : Alters places' made' a b := by
  intro l
  rcases alters l with same | ⟨absent, directory, new⟩ | place
  · exact .inl same
  · exact .inr (.inl ⟨absent, directory, more' l new⟩)
  · exact .inr (.inr (more l place))

theorem ofGrows (grows : Grows p a b) (above : ∀ n, made (p.ancestor n).location) :
    Alters places made a b := by
  intro l
  rcases grows l with same | ⟨absent, directory, n, rfl⟩
  · exact .inl same
  · exact .inr (.inl ⟨absent, directory, above n⟩)

/-- Trees that differ in one location are an alteration if files may change there. -/
theorem at_location {l : Location} (other : ∀ l', l' ≠ l → b.get? l' = a.get? l')
    (place : places l) : Alters places made a b := by
  intro l'
  by_cases here : l' = l
  · exact .inr (.inr (here ▸ place))
  · exact .inl (other l' here)

theorem write {content : Bytes} (wrote : a.write p content = .ok b) (place : places p.location) :
    Alters places made a b :=
  at_location (fun l' other => by rw [get?_write wrote, if_neg other]) place

theorem effect {entry : DownloadEntry} {reply : Reply} {ending : JobEnd}
    (effect : Worker.Effect entry reply a ending b) (free : entry.destination.IsFree places made) :
    Alters places made a b := by
  intro l
  by_cases here : l = entry.destination.location
  · exact .inr (.inr (here ▸ free.file))
  · rcases effect.get?_other here with same | ⟨absent, directory, n, rfl⟩
    · exact .inl same
    · exact .inr (.inl ⟨absent, directory, free.above n⟩)

/-- A change of what a file holds comes to a place where files may change. -/
theorem content? (alters : Alters places made a b) (l : Location) :
    b.content? l = a.content? l ∨ places l := by
  rcases alters l with same | ⟨absent, directory, _⟩ | place
  · exact .inl (content?_congr same)
  · left
    rw [FileTree.content?, FileTree.content?, absent, directory]
  · exact .inr place

end Alters

variable {places made : Location → Prop}

theorem makeDirectories_alters (p : Path) (a : FileTree)
    (above : ∀ n, made (p.ancestor n).location) :
    Alters places made a ((makeDirectories p).run.run a).2 :=
  .ofGrows (makeDirectories_grows p a) above

end FileTree

section Downloads
variable {places made : Location → Prop}

/-- The run of a worker changes files at the destinations of its jobs only. -/
theorem Runs.alters {w w' : Worker} {turns : List Turn} {crash : Option CrashCause}
    (runs : Runs w turns crash w')
    (free : ∀ entry ∈ w.entries, entry.destination.IsFree places made) :
    w.files.Alters places made w'.files := by
  refine runs.files_invariant (motive := fun files => w.files.Alters places made files)
    (fun t member before => ?_) (.refl _)
  exact before.trans (.effect t.effect (free _ (runs.entry_mem member)))

theorem DownloadList.download_alters (list : DownloadList) (threads : Int) (files : FileTree)
    (network : Network) (free : ∀ entry ∈ list.entries, entry.destination.IsFree places made) :
    files.Alters places made (list.download threads files network).files := by
  rcases list.download_cases threads files network with ⟨crash, w, runs, same⟩ | ⟨_, _, same⟩
  · rw [same]
    refine runs.alters fun entry member => free entry ?_
    exact (list.worker_entries files network).mem_iff.mp member
  · rw [same]
    exact .refl files

end Downloads

/-- What an action does to the file tree in its state, whether it fails or not. -/
def AltersFrom {ε σ α : Type} (files : σ → FileTree) (places made : Location → Prop) (s : σ)
    (action : ExceptT ε (StateM σ) α) : Prop :=
  (files s).Alters places made (files (action.run.run s).2)

namespace AltersFrom
variable {ε σ α β : Type} {files : σ → FileTree} {places made : Location → Prop} {s : σ}

theorem of_same {action : ExceptT ε (StateM σ) α}
    (same : files (action.run.run s).2 = files s) : AltersFrom files places made s action := by
  rw [AltersFrom, same]
  exact .refl _

theorem pure (value : α) :
    AltersFrom files places made s (pure value : ExceptT ε (StateM σ) α) := of_same rfl

theorem throw (e : ε) : AltersFrom files places made s (throw e : ExceptT ε (StateM σ) α) :=
  of_same rfl

/-- What follows an action is looked at from where the action ends. -/
theorem bind {action : ExceptT ε (StateM σ) α} {next : α → ExceptT ε (StateM σ) β}
    (first : AltersFrom files places made s action)
    (second : ∀ value s', action.run.run s = (.ok value, s') →
      AltersFrom files places made s' (next value)) :
    AltersFrom files places made s (action >>= next) := by
  unfold AltersFrom at first second ⊢
  rw [run_bind]
  rcases ran : action.run.run s with ⟨e | value, s'⟩
  · rw [ran] at first
    exact first
  · rw [ran] at first
    exact first.trans (second value s' ran)

/-- What is done with the state itself is looked at in that state. -/
theorem get_bind {next : σ → ExceptT ε (StateM σ) β}
    (onward : AltersFrom files places made s (next s)) :
    AltersFrom files places made s (MonadState.get >>= next) := by
  rw [AltersFrom, run_bind]
  exact onward

end AltersFrom
end Launcher
