import Launcher.Proofs.Versions.Coherence
import Launcher.Proofs.Versions.Resolution

/-! Questions to one index of versions, asked one after another while files and network change. All
answers come from the content that was loaded first. Until then every question that needs it loads
it anew, with one request each, unless what is kept of it can be opened but not read. -/
namespace Launcher
namespace VersionIndex

inductive Query
  | latest (version : String)
  | entries
  | find? (version : String)
  | metadata (version : String) (file : Path)

inductive Answer
  | latest (version : Json) (isLatest : Bool)
  | entries (entries : List VersionEntry)
  | entry (found : Option VersionEntry)
  | metadata (data : Members)

namespace Query

def run : Query → Action Answer
  | latest version => do
    let (name, isLatest) ← VersionIndex.latest version
    return .latest name isLatest
  | entries => return .entries (← VersionIndex.entries)
  | find? version => return .entry (← VersionIndex.find? version)
  | metadata version file => return .metadata (← VersionIndex.metadata version file)

/-- The content of the index matters to all questions but that for the latest of what is no kind. -/
def needsIndex : Query → Bool
  | latest version => isAlias version
  | _ => true

/-- The question is about the index alone. -/
def IsLookup : Query → Prop
  | metadata _ _ => False
  | _ => True

end Query

/-- A world with nothing but the content of an index. -/
def knowing (data : Members) : World := ⟨.empty, .empty, ⟨none, "", some data⟩⟩

/-- What a question comes to for the content of an index. The index alone is enough for a lookup,
which leaves the world as it is. For metadata it is enough to find the entry of the version. -/
inductive Query.Answers (data : Members) (w : World) :
    Query → Except Fault Answer → World → Prop
  | lookup {query : Query} (isLookup : query.IsLookup) :
      Answers data w query (query.run.run.run (knowing data)).1 w
  | unknown {version : String} {file : Path} {e : Fault}
      (found : ((VersionIndex.find? version).run.run (knowing data)).1 = .error e) :
      Answers data w (metadata version file) (.error e) w
  | unlisted {version : String} {file : Path}
      (found : ((VersionIndex.find? version).run.run (knowing data)).1 = .ok none) :
      Answers data w (metadata version file) (.error (.versionNotFound (.string version))) w
  | listed {version : String} {file : Path} {entry : VersionEntry}
      {result : Except Fault Members} {left : World}
      (found : ((VersionIndex.find? version).run.run (knowing data)).1 = .ok (some entry))
      (resolves : Resolves s!"version {version}" file entry w result left) :
      Answers data w (metadata version file) (result.map .metadata) left

theorem load_knowing (data : Members) :
    load.run.run (knowing data) = (.ok data, knowing data) := load_known rfl

/-- An action loads the index, and takes its result from that alone. -/
structure ReadsIndex {α : Type} (action : Action α) : Prop where
  failed : ∀ {w left : World} {e : Fault}, load.run.run w = (.error e, left) →
    action.run.run w = (.error e, left)
  loaded : ∀ {w left : World} {data : Members}, load.run.run w = (.ok data, left) →
    action.run.run w = ((action.run.run (knowing data)).1, left)

namespace ReadsIndex
variable {α β : Type}

/-- What follows the loading neither looks at the world nor changes it. -/
theorem load_bind {next : Members → Action α}
    (still : ∀ data w, (next data).run.run w = (((next data).run.run (knowing data)).1, w)) :
    ReadsIndex (load >>= next) := by
  constructor
  case failed =>
    intro w left e failed
    rw [run_bind, failed]
  case loaded =>
    intro w left data loaded
    rw [run_bind, run_bind, loaded, load_knowing]
    exact still data left

theorem map {action : Action α} (reads : ReadsIndex action) (f : α → β) :
    ReadsIndex (do return f (← action)) := by
  constructor
  case failed =>
    intro w left e failed
    rw [run_bind, reads.failed failed]
  case loaded =>
    intro w left data loaded
    rw [run_bind, run_bind, reads.loaded loaded]
    rcases action.run.run (knowing data) with ⟨_ | _, _⟩ <;> rfl

theorem latest {version : String} (kind : isAlias version = true) :
    ReadsIndex (VersionIndex.latest version) := by
  unfold VersionIndex.latest
  simp only [kind, Bool.not_true, Bool.false_eq_true, if_false]
  apply load_bind
  intro data w
  rcases (data.get? "latest").getD (.object []) with _ | _ | _ | _ | _ | _ | names
  case object =>
    simp only
    cases Members.getD names version <;> rfl
  all_goals rfl

theorem entries : ReadsIndex VersionIndex.entries := by
  apply load_bind
  intro data w
  simp only [Action.ofExcept_run]

theorem find? (version : String) : ReadsIndex (VersionIndex.find? version) := entries.map _

end ReadsIndex

section Query
variable {query : Query} {data : Members} {w left : World} {e : Fault}

theorem latest_of_not_isAlias {version : String} (other : isAlias version = false) (w : World) :
    (latest version).run.run w = (.ok (.string version, false), w) := by
  simp only [latest, other, Bool.not_false, if_true]
  rfl

theorem Query.readsIndex (lookup : query.IsLookup) (needed : query.needsIndex = true) :
    ReadsIndex query.run := by
  cases query with
  | latest version =>
    exact (ReadsIndex.latest needed).map fun (name, isLatest) => Answer.latest name isLatest
  | entries => exact ReadsIndex.entries.map Answer.entries
  | find? version => exact (ReadsIndex.find? version).map Answer.entry
  | metadata => exact lookup.elim

theorem Query.isLookup_or (query : Query) :
    query.IsLookup ∨ ∃ version file, query = metadata version file := by
  cases query with
  | metadata version file => exact .inr ⟨version, file, rfl⟩
  | latest | entries | find? => exact .inl trivial

/-- A question that needs the index ends with the fault of loading it. -/
theorem Query.run_failed (needed : query.needsIndex = true)
    (failed : load.run.run w = (.error e, left)) : query.run.run.run w = (.error e, left) := by
  obtain lookup | ⟨version, file, rfl⟩ := query.isLookup_or
  · exact (readsIndex lookup needed).failed failed
  · rw [run, run_bind, metadata_of_failed ((ReadsIndex.find? version).failed failed)]

/-- A question that needs the index is answered from the one that is loaded. -/
theorem Query.run_loaded (needed : query.needsIndex = true)
    (loaded : load.run.run w = (.ok data, left)) :
    query.Answers data left (query.run.run.run w).1 (query.run.run.run w).2 := by
  obtain lookup | ⟨version, file, rfl⟩ := query.isLookup_or
  · rw [(readsIndex lookup needed).loaded loaded]
    exact .lookup lookup
  · have found := (ReadsIndex.find? version).loaded loaded
    rw [run, run_bind]
    rcases lookup : ((VersionIndex.find? version).run.run (knowing data)).1 with e | _ | entry
    · rw [lookup] at found
      rw [metadata_of_failed found]
      exact .unknown lookup
    · rw [lookup] at found
      rw [metadata_of_unlisted found]
      exact .unlisted lookup
    · rw [lookup] at found
      have listed := Answers.listed lookup (@metadata_resolves _ version file _ _ found)
      generalize (VersionIndex.metadata version file).run.run w = outcome at listed ⊢
      rcases outcome with ⟨_ | _, _⟩
      · exact listed
      · exact listed

theorem Query.run_needless (needless : query.needsIndex = false) (data : Members) (w : World) :
    query.Answers data w (query.run.run.run w).1 (query.run.run.run w).2 := by
  cases query with
  | latest version =>
    have same (w : World) : (latest version).run.run.run w =
        (.ok (.latest (.string version) false), w) := by
      rw [run, run_bind, latest_of_not_isAlias needless]
      rfl
    have answered : (latest version).Answers data w _ w := .lookup trivial
    rw [same] at answered ⊢
    exact answered
  | entries | find? | metadata => cases needless

end Query

section Leaves
variable {w left : World}

theorem with_data_of_unknown {index : VersionIndex} (unknown : index.data = none) :
    { index with data := none } = index := by
  rw [← unknown]

/-- An attempt to load the index that fails leaves it unknown, and one that does not makes its
content known. -/
theorem load_index (unknown : w.index.data = none) :
    (load.run.run w).2.index = { w.index with data := (load.run.run w).1.toOption } := by
  have same := with_data_of_unknown unknown
  have loads := load_loads unknown
  generalize (load.run.run w).1 = result, (load.run.run w).2 = left at loads ⊢
  cases loads with
  | unreadable | refused | unusable => exact same.symm
  | excused => rfl
  | unkept _ _ _ put =>
    rw [(keep_leaves put).2]
    exact same.symm
  | fetched _ _ _ put => simp only [(keep_leaves put).2, Except.toOption]

/-- An index that is not known is asked for once, if what is kept of it can be read. -/
theorem load_asks (unknown : w.index.data = none) {old : Option Members}
    (kept : keptIn w.files w.index.cache = .ok old) :
    (load.run.run w).2.network = (ask w old).2 := by
  have loads := load_loads unknown
  generalize (load.run.run w).1 = result, (load.run.run w).2 = left at loads ⊢
  cases loads with
  | unreadable kept' => cases kept.symm.trans kept'
  | refused kept' asked | excused kept' asked | unusable kept' asked =>
    cases kept.symm.trans kept'
    rw [asked]
  | unkept kept' asked _ put | fetched kept' asked _ put =>
    cases kept.symm.trans kept'
    rw [asked]
    exact (keep_leaves put).1

/-- If what is kept of the index cannot be read, it is neither asked for nor made known. -/
theorem load_unreadable (unknown : w.index.data = none) {e : Fault}
    (kept : keptIn w.files w.index.cache = .error e) : load.run.run w = (.error e, w) := by
  rw [load, run_bind, run_get]
  simp only [unknown]
  rw [run_bind, kept_run, kept]

theorem Resolves.index {name : String} {file : Path} {entry : VersionEntry}
    {result : Except Fault Members} (resolves : Resolves name file entry w result left) :
    left.index = w.index := by
  cases resolves with
  | kept | unreadable | refused | unusable => rfl
  | fetched _ _ _ wrote => exact (Action.writeBelow_leaves wrote).2

theorem Query.Answers.index {query : Query} {data : Members} {result : Except Fault Answer}
    (answers : query.Answers data w result left) : left.index = w.index := by
  cases answers with
  | lookup | unknown | unlisted => rfl
  | listed _ resolves => exact resolves.index

end Leaves

/-- A question, and the files and the network as they are when it is asked. -/
structure Inquiry where
  files : FileTree
  network : Network
  query : Query

namespace Inquiry
variable (inquiry : Inquiry) (index : VersionIndex)

def world : World := ⟨inquiry.files, inquiry.network, index⟩

def outcome : Except Fault Answer × World := inquiry.query.run.run.run (inquiry.world index)

/-- The content that the question loads, if it needs the index and can load it. -/
def loaded? : Option Members :=
  if inquiry.query.needsIndex then (load.run.run (inquiry.world index)).1.toOption else none

end Inquiry

/-- The index as it is after questions, the first one being asked first. -/
def indexAfter (index : VersionIndex) : List Inquiry → VersionIndex
  | [] => index
  | inquiry :: later => indexAfter (inquiry.outcome index).2.index later

/-- The content of the index that the first question to succeed with it loads. -/
def firstLoaded? (index : VersionIndex) (inquiries : List Inquiry) : Option Members :=
  inquiries.findSome? (·.loaded? index)

section History
variable {index : VersionIndex} {data : Members}

/-- A question to an index that is known. -/
theorem Inquiry.answers_known (inquiry : Inquiry) (known : index.data = some data) :
    inquiry.query.Answers data (inquiry.world index) (inquiry.outcome index).1
      (inquiry.outcome index).2 := by
  cases needed : inquiry.query.needsIndex with
  | true => exact Query.run_loaded needed (load_known known)
  | false => exact Query.run_needless needed data _

/-- A question leaves an unknown index as it is, unless it loads it. -/
theorem Inquiry.index_outcome (inquiry : Inquiry) (unknown : index.data = none) :
    (inquiry.outcome index).2.index = { index with data := inquiry.loaded? index } := by
  cases needed : inquiry.query.needsIndex with
  | false =>
    have answers := Query.run_needless needed [] (inquiry.world index)
    simp only [loaded?, needed, Bool.false_eq_true, if_false]
    exact answers.index.trans (with_data_of_unknown unknown).symm
  | true =>
    have learnt := load_index (w := inquiry.world index) unknown
    simp only [loaded?, needed, if_true]
    rcases loading : load.run.run (inquiry.world index) with ⟨e | data, left⟩
    · rw [loading] at learnt
      rw [outcome, Query.run_failed needed loading]
      exact learnt
    · rw [loading] at learnt
      exact (Query.run_loaded needed loading).index.trans learnt

theorem indexAfter_known (known : index.data = some data) (inquiries : List Inquiry) :
    indexAfter index inquiries = index := by
  induction inquiries with
  | nil => rfl
  | cons inquiry later ih =>
    have left : (inquiry.outcome index).2.index = index := (inquiry.answers_known known).index
    rw [indexAfter, left, ih]

/-- An index holds what was loaded first. -/
theorem indexAfter_eq (unknown : index.data = none) (inquiries : List Inquiry) :
    indexAfter index inquiries = { index with data := firstLoaded? index inquiries } := by
  induction inquiries with
  | nil =>
    rw [indexAfter, firstLoaded?, List.findSome?_nil, ← unknown]
  | cons inquiry later ih =>
    rw [indexAfter, inquiry.index_outcome unknown]
    rcases loads : inquiry.loaded? index with _ | data
    · rw [with_data_of_unknown unknown, ih]
      simp only [firstLoaded?, List.findSome?_cons, loads]
    · rw [indexAfter_known rfl]
      simp only [firstLoaded?, List.findSome?_cons, loads]

/-- A question that needs an index asks for it, if what is kept of it can be read, and is answered
from what is loaded. -/
theorem Inquiry.outcome_asked (inquiry : Inquiry) (unknown : index.data = none)
    (needed : inquiry.query.needsIndex = true) {old : Option Members}
    (kept : keptIn inquiry.files index.cache = .ok old) :
    ∃ result left, load.run.run (inquiry.world index) = (result, left) ∧
      left.network = (ask (inquiry.world index) old).2 ∧
      (∀ e, result = .error e → inquiry.outcome index = (.error e, left) ∧ left.index = index) ∧
      ∀ data, result = .ok data →
        (inquiry.outcome index).2.index = { index with data := some data } ∧
          inquiry.query.Answers data left (inquiry.outcome index).1 (inquiry.outcome index).2 := by
  have asked := load_asks (w := inquiry.world index) unknown kept
  have learnt := load_index (w := inquiry.world index) unknown
  rcases loading : load.run.run (inquiry.world index) with ⟨result, left⟩
  rw [loading] at asked learnt
  refine ⟨result, left, rfl, asked, ?_, ?_⟩
  · rintro e rfl
    exact ⟨Query.run_failed needed loading, learnt.trans (with_data_of_unknown unknown)⟩
  · rintro data rfl
    have answers := Query.run_loaded needed loading
    exact ⟨answers.index.trans learnt, answers⟩

end History

/-- Questions are answered from the content of the index that was loaded first, and it is not asked
for again. While none was loaded, the index stays unknown, and every question that needs it asks for
it anew. Only if there is something kept of it that cannot be read, that is the fault, and nothing
is asked for. -/
theorem inquiry_snapshot (cache : Option Path) (url : String) (earlier : List Inquiry)
    (next : Inquiry) :
    let start := unknown cache url
    let index := indexAfter start earlier
    let w := next.world index
    let outcome := next.outcome index
    (∀ data, firstLoaded? start earlier = some data →
      index = ⟨cache, url, some data⟩ ∧ outcome.2.index = index ∧
        next.query.Answers data w outcome.1 outcome.2) ∧
    (firstLoaded? start earlier = none → index = start ∧
      (next.query.needsIndex = false → outcome.2.index = start ∧
        ∀ data, next.query.Answers data w outcome.1 outcome.2) ∧
      (next.query.needsIndex = true →
        (∀ e, keptIn next.files cache = .error e → outcome = (.error e, w)) ∧
        ∀ old, keptIn next.files cache = .ok old → ∃ result left,
          load.run.run w = (result, left) ∧ left.network = (ask w old).2 ∧
          (∀ e, result = .error e → outcome = (.error e, left) ∧ left.index = start) ∧
          ∀ data, result = .ok data → outcome.2.index = ⟨cache, url, some data⟩ ∧
            next.query.Answers data left outcome.1 outcome.2)) := by
  intro start index w outcome
  have holds : index = ⟨cache, url, firstLoaded? start earlier⟩ := indexAfter_eq rfl earlier
  clear_value index
  rcases loaded : firstLoaded? start earlier with _ | first
  · rw [loaded] at holds
    subst holds
    refine ⟨nofun, fun _ => ⟨rfl, ?_, ?_⟩⟩
    · intro needless
      have answers := Query.run_needless needless
      exact ⟨(answers [] w).index, fun data => answers data w⟩
    · intro needed
      refine ⟨fun e kept => Query.run_failed needed (load_unreadable rfl kept), ?_⟩
      intro old kept
      exact next.outcome_asked rfl needed kept
  · rw [loaded] at holds
    subst holds
    refine ⟨?_, nofun⟩
    rintro data ⟨⟩
    have answers : next.query.Answers first w outcome.1 outcome.2 := next.answers_known rfl
    exact ⟨rfl, answers.index, answers⟩

/-- Files where the index is kept as some bytes. -/
def filesKeeping (bytes : Bytes) : FileTree :=
  ⟨FileTree.empty.entries ++ [(FileTree.workingDirectory ++ ["index.json"], .file bytes)]⟩

/-- The index that the questions below are about. -/
def remote : VersionIndex := unknown (some (.ofText "index.json")) "http://h/m"

/-- The server cannot be reached when a version is looked for. -/
def Inquiry.unreached : Inquiry where
  files := .empty
  network := ⟨[("http://h/m", [.failure .refused])], [], 0⟩
  query := .find? "v"

/-- The server has the index when all versions are asked for. -/
def Inquiry.served (files : FileTree) : Inquiry where
  files
  network := ⟨[("http://h/m", [.response 200 [] (Bytes.ofText "\x7b\"versions\":[]\x7d") none])],
    [], 0⟩
  query := .entries

/-- All versions are known from the index that was loaded first, although the server has none by
now, and what is kept is no text. -/
theorem inquiry_snapshot_served :
    let next : Inquiry := ⟨filesKeeping [0xff], .empty, .entries⟩
    let index := indexAfter remote [.unreached, .served .empty]
    ∃ data, firstLoaded? remote [.unreached, .served .empty] = some data ∧
      next.query.Answers data (next.world index) (next.outcome index).1 (next.outcome index).2 := by
  intro next index
  have loaded : (firstLoaded? remote [.unreached, .served .empty]).isSome := by decide +kernel
  obtain ⟨data, first⟩ := Option.isSome_iff_exists.mp loaded
  have snapshot := inquiry_snapshot (some (.ofText "index.json")) "http://h/m"
    [.unreached, .served .empty] next
  obtain ⟨_, _, answers⟩ := snapshot.1 data first
  exact ⟨data, first, answers⟩

/-- An index that could not be loaded is not asked for again if what is kept of it by then is no
text. -/
theorem unreadable_unasked :
    let next := Inquiry.served (filesKeeping [0xff])
    let outcome := next.outcome (indexAfter remote [.unreached])
    firstLoaded? remote [.unreached] = none ∧ next.query.needsIndex = true ∧
      outcome.1.toBool = false ∧ outcome.2.network.log = [] := by
  intro next outcome
  have failed : (firstLoaded? remote [.unreached]).isNone := by decide +kernel
  have ended : outcome.1.toBool = false ∧ outcome.2.network.log.length = 0 := by decide +kernel
  exact ⟨Option.isNone_iff_eq_none.mp failed, rfl, ended.1, List.eq_nil_of_length_eq_zero ended.2⟩

end VersionIndex
end Launcher
