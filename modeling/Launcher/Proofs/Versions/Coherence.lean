import Launcher.Proofs.Json.Rereading
import Launcher.Proofs.Versions.Outcome

/-! The index over many runs that keep it in one file. What a run returns was either in the response
to its own request, or in that of the latest earlier run that fetched an index. The file holds the
index as printed text, so this rests on printed text being read as what was printed. -/
namespace Launcher

/-- The index in a response: the object of the body, with the time of its last change if a header
tells it. -/
structure Response.Brings (response : Response) (data : Members) : Prop where
  success : 200 ≤ response.status ∧ response.status < 300
  body : ∃ body : Members, Json.parse response.data = .ok (.object body) ∧
    data = match response.headers.lookup "Last-Modified" with
      | some time => body.insert "last_modified" (.string time)
      | none => body

namespace VersionIndex

theorem ofResponse_ok {response : Response} {data : Members} :
    ofResponse response = .ok data ↔
      ∃ body : Members, Json.parse response.data = .ok (.object body) ∧
      data = match response.headers.lookup "Last-Modified" with
        | some time => body.insert "last_modified" (.string time)
        | none => body := by
  have dated (body : Members) : (match response.headers.lookup "Last-Modified" with
      | some time => (return body.insert changedMember (.string time) : Except Fault Members)
      | none => return body) = .ok (match response.headers.lookup "Last-Modified" with
      | some time => body.insert "last_modified" (.string time)
      | none => body) := by
    rcases response.headers.lookup "Last-Modified" with _ | time <;> rfl
  unfold ofResponse
  constructor
  · intro read
    obtain ⟨body, parsed, rest⟩ := bind_ok read
    have same := (dated body).symm.trans rest
    exact ⟨body, readDocument_ok.mp parsed, (Except.ok.inj same).symm⟩
  · rintro ⟨body, parsed, rfl⟩
    rw [readDocument_ok.mpr parsed]
    exact dated body

/-- An index in a response has distinct names, and no integers that are too long to be written. -/
theorem ofResponse_regular {response : Response} {data : Members}
    (read : ofResponse response = .ok data) : Json.IsRegular (.object data) := by
  obtain ⟨body, parsed, rfl⟩ := ofResponse_ok.mp read
  have regular := Json.parse_regular parsed
  split
  · exact regular.insert (.string _)
  · exact regular

/-- An index that was asked for is in a response of success. -/
theorem ofResponse_brings {w : World} {old : Option Members} {response : Response}
    {network : Network} {data : Members} (asked : ask w old = (.ok response, network))
    (read : ofResponse response = .ok data) : response.Brings data := by
  constructor
  case success => simpa [Fetch.isSuccess] using Network.fetch_isSuccess asked
  case body => exact ofResponse_ok.mp read

/-- The bytes that keep an index. -/
def keptBytes (data : Members) : Bytes := Bytes.ofText (String.ofList (Json.render (.object data)))

/-- An index is read from its file as it was put there. -/
theorem ofKept_keptBytes {data : Members} (regular : Json.IsRegular (.object data)) :
    ofKept (keptBytes data) = .ok (some data) := by
  have read := Json.parseText_render regular
  rw [ofKept, keptBytes, Encoding.decode_ofText]
  simp only [String.toList_ofList, read]

section Kept
variable {files : FileTree} {cache : Path}

theorem keptIn_of_read {bytes : Bytes} (read : files.read cache = .ok bytes) :
    keptIn files (some cache) = ofKept bytes := by
  simp only [keptIn, read]

theorem keptIn_of_absent (absent : ¬ files.HasFile cache) :
    keptIn files (some cache) =
      if FileTree.hasNul cache then .error .embeddedNul else .ok none := by
  rcases FileTree.read_of_absent absent with ⟨nul, read⟩ | ⟨nul, e, read⟩
  · simp only [keptIn, read, nul, if_true]
  · simp only [keptIn, read, nul, Bool.false_eq_true, if_false]

end Kept

/-- A run of the launcher as far as the index matters: where the index is, and what the network does.
The file that keeps the index is the same for all runs. -/
structure Run where
  url : String
  network : Network

namespace Run
variable (r : Run) (cache : Path) (files : FileTree)

def world : World := ⟨files, r.network, .unknown (some cache) r.url⟩

/-- What loading the index comes to, and the world it leaves. -/
def outcome : Except Fault Members × World := load.run.run (r.world cache files)

/-- The reply to the request, if it comes to that. -/
def reply? : Option (Except FetchError Response) :=
  (keptIn files (some cache)).toOption.map fun old => (ask (r.world cache files) old).1

/-- The index that the run fetched. -/
def fetched? : Option Members :=
  match r.reply? cache files with
  | some (.ok response) => (ofResponse response).toOption
  | _ => none

end Run

/-- The files that runs leave, the first run being done first. -/
def filesAfter (cache : Path) (files : FileTree) : List Run → FileTree
  | [] => files
  | r :: runs => filesAfter cache (r.outcome cache files).2.files runs

/-- The index that the latest of some runs fetched, the first run being done first. -/
def lastFetched? (cache : Path) (files : FileTree) : List Run → Option Members
  | [] => none
  | r :: runs => (lastFetched? cache (r.outcome cache files).2.files runs).or
      (r.fetched? cache files)

/-- If the file can be opened, it holds the index that was fetched last. -/
structure Caches (cache : Path) (files : FileTree) (last : Option Members) : Prop where
  named : files.HasFile cache → cache.parts ≠ []
  holds : files.HasFile cache → ∃ data, last = some data ∧ Json.IsRegular (.object data) ∧
    files.content? cache.location = some (keptBytes data)

section Caches
variable {cache : Path} {files : FileTree} {last : Option Members}

theorem Caches.of_absent (absent : ¬ files.HasFile cache) : Caches cache files last :=
  ⟨fun present => absurd present absent, fun present => absurd present absent⟩

/-- What is kept is the index that was fetched last, if anything is kept. -/
theorem Caches.keptIn_some (caches : Caches cache files last) {data : Members}
    (kept : keptIn files (some cache) = .ok (some data)) : last = some data := by
  by_cases present : files.HasFile cache
  · obtain ⟨data', same, regular, content⟩ := caches.holds present
    obtain ⟨nul, way, _⟩ := FileTree.hasFile_iff.mp present
    have read := FileTree.read_iff.mpr ⟨nul, way, FileTree.content?_eq_some.mp content⟩
    rw [keptIn_of_read read, ofKept_keptBytes regular] at kept
    cases kept
    exact same
  · rw [keptIn_of_absent present] at kept
    split at kept <;> cases kept

/-- What a run may come to when the file holds the index that was fetched last. -/
structure Run.IsCoherent (r : Run) (cache : Path) (files : FileTree) (last : Option Members)
    (result : Except Fault Members) (left : World) : Prop where
  caches : Caches cache left.files ((r.fetched? cache files).or last)
  known : ∀ data, result = .ok data → load.run.run left = (.ok data, left)
  returned : ∀ data, result = .ok data →
    (∃ response, r.reply? cache files = some (.ok response) ∧ response.Brings data) ∨
      ∃ e, r.reply? cache files = some (.error (.http e)) ∧ (e.status = 0 ∨ e.status = 304) ∧
        last = some data
  failed : ∀ fault, result = .error fault →
    keptIn left.files (some cache) = keptIn files (some cache) ∧
      ∀ l, left.files.content? l = files.content? l

/-- A run may fail that got no index and left the files as they were. -/
theorem Caches.isCoherent_of_unfetched (caches : Caches cache files last) {r : Run} {e : Fault}
    {left : World} (unfetched : r.fetched? cache files = none) (same : left.files = files) :
    r.IsCoherent cache files last (.error e) left := by
  constructor
  case caches =>
    rw [unfetched, same]
    exact caches
  case known => exact nofun
  case returned => exact nofun
  case failed =>
    intro _ _
    exact ⟨by rw [same], fun _ => by rw [same]⟩

section Asked
variable {r : Run} {old : Option Members} {response : Response} {network : Network}
  {data : Members} {left : World}

theorem Run.reply?_of_kept (kept : keptIn files (some cache) = .ok old) :
    r.reply? cache files = some (ask (r.world cache files) old).1 := by
  rw [Run.reply?, kept]
  rfl

/-- The file of the index is known, hence keeping an index is writing that file. -/
theorem Run.keep_run (r : Run) (data : Members) (network : Network) :
    (keep data).run.run { r.world cache files with network } =
      (Action.writeBelow cache (keptBytes data)).run.run
        { r.world cache files with network } := by
  rw [keep, run_bind, run_get]
  rfl

theorem Caches.isCoherent_of_excused (caches : Caches cache files last) {h : HttpError}
    (kept : keptIn files (some cache) = .ok (some data))
    (asked : ask (r.world cache files) (some data) = (.error (.http h), network))
    (excuse : isExcused h = true) (same : left.files = files)
    (learnt : left.index.data = some data) : r.IsCoherent cache files last (.ok data) left := by
  constructor
  case caches =>
    rw [Run.fetched?, Run.reply?_of_kept kept, asked, same]
    exact ⟨caches.named, caches.holds⟩
  case known =>
    rintro _ ⟨⟩
    exact load_known learnt
  case returned =>
    rintro _ ⟨⟩
    refine .inr ⟨_, by rw [Run.reply?_of_kept kept, asked], ?_, caches.keptIn_some kept⟩
    simpa [isExcused] using excuse
  case failed => exact nofun

/-- If an index cannot be kept, its file cannot be opened, before and after. -/
theorem Caches.isCoherent_of_unkept (caches : Caches cache files last) {e : Fault}
    (failed : (Action.writeBelow cache (keptBytes data)).run.run
      { r.world cache files with network } = (.error e, left)) :
    r.IsCoherent cache files last (.error e) left := by
  obtain ⟨_, grows, closed⟩ := Action.writeBelow_failed failed
  have before : ¬ files.HasFile cache := fun present =>
    closed (.inr (caches.named present))
      (present.mono grows.keepsDirectories (grows.isFileAt _).mpr)
  have after := closed (.inl before)
  constructor
  case caches => exact .of_absent after
  case known => exact nofun
  case returned => exact nofun
  case failed =>
    intro _ _
    exact ⟨by rw [keptIn_of_absent before, keptIn_of_absent after], grows.content?⟩

theorem Run.isCoherent_of_fetched (kept : keptIn files (some cache) = .ok old)
    (asked : ask (r.world cache files) old = (.ok response, network))
    (read : ofResponse response = .ok data)
    (wrote : (Action.writeBelow cache (keptBytes data)).run.run
      { r.world cache files with network } = (.ok (), left)) :
    r.IsCoherent cache files last (.ok data)
      { left with index := { left.index with data := some data } } := by
  have named := Action.parts_of_writeBelow wrote
  obtain ⟨_, files', _, write, rfl⟩ := Action.writeBelow_ok wrote
  have there : files'.content? cache.location = some (keptBytes data) :=
    FileTree.content?_eq_some.mpr (by rw [FileTree.get?_write write, if_pos rfl])
  have fetched : r.fetched? cache files = some data := by
    simp only [Run.fetched?, Run.reply?_of_kept kept, asked, read]
    rfl
  constructor
  case caches =>
    rw [fetched]
    exact ⟨fun _ => named, fun _ => ⟨data, rfl, ofResponse_regular read, there⟩⟩
  case known =>
    rintro _ ⟨⟩
    exact load_known rfl
  case returned =>
    rintro _ ⟨⟩
    exact .inl ⟨response, by rw [Run.reply?_of_kept kept, asked], ofResponse_brings asked read⟩
  case failed => exact nofun

end Asked

theorem Caches.isCoherent (caches : Caches cache files last) (r : Run) :
    r.IsCoherent cache files last (r.outcome cache files).1 (r.outcome cache files).2 := by
  have loads : Loads (r.world cache files) (r.outcome cache files).1 (r.outcome cache files).2 :=
    load_loads rfl
  generalize (r.outcome cache files).1 = result, (r.outcome cache files).2 = left at loads ⊢
  cases loads with
  | unreadable kept =>
    have kept' : keptIn files (some cache) = .error _ := kept
    refine caches.isCoherent_of_unfetched ?_ rfl
    rw [Run.fetched?, Run.reply?, kept']
    rfl
  | refused kept asked unexcused =>
    have reply : r.reply? cache files = _ := Run.reply?_of_kept kept
    exact caches.isCoherent_of_unfetched (by rw [Run.fetched?, reply, asked]) rfl
  | unusable kept asked read =>
    have reply : r.reply? cache files = _ := Run.reply?_of_kept kept
    refine caches.isCoherent_of_unfetched ?_ rfl
    simp only [Run.fetched?, reply, asked, read]
    rfl
  | excused kept asked excuse => exact caches.isCoherent_of_excused kept asked excuse rfl rfl
  | unkept kept asked read failed =>
    rw [r.keep_run] at failed
    exact caches.isCoherent_of_unkept failed
  | fetched kept asked read wrote =>
    rw [r.keep_run] at wrote
    exact Run.isCoherent_of_fetched kept asked read wrote

/-- The file that keeps the index holds the one that was fetched last, after any runs. -/
theorem Caches.filesAfter (caches : Caches cache files last) (runs : List Run) :
    Caches cache (filesAfter cache files runs) ((lastFetched? cache files runs).or last) := by
  induction runs generalizing files last with
  | nil => exact caches
  | cons r runs ih =>
    have later := ih (caches.isCoherent r).caches
    rw [← Option.or_assoc] at later
    exact later

end Caches

variable {cache : Path} {files : FileTree}

/-- A launcher that reaches the server, and one that does not. -/
def Run.online : Run where
  url := "http://h/m"
  network := ⟨[("http://h/m", [.response 200 [("Last-Modified", "then")]
    (Bytes.ofText "\x7b\"latest\":\x7b\"release\":\"1\"\x7d,\"versions\":[-0.0,\"\\u00e9\"]\x7d")
    none])], [], 0⟩

def Run.offline : Run where
  url := "http://h/m"
  network := ⟨[("http://h/m", [.failure .refused])], [], 0⟩

end VersionIndex
end Launcher
