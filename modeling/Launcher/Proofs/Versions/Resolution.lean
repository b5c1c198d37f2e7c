import Launcher.Proofs.Versions.Outcome

/-! Resolving a version: its metadata, and the file that keeps them. That file is written last, when
everything that can be wrong with the metadata was looked at. So a fault leaves it alone, and what
it holds afterwards is what was returned, whether it was there before or was fetched. -/
namespace Launcher

/-- The fault of a version that the index does not list. -/
def Fault.IsVersionNotFound : Fault → Prop
  | .versionNotFound _ => True
  | _ => False

namespace Fault

@[simp] theorem not_isVersionNotFound_ofAccess (e : AccessError) :
    ¬ (ofAccess e).IsVersionNotFound := by
  cases e <;> exact id

@[simp] theorem not_isVersionNotFound_ofFetch (e : FetchError) :
    ¬ (ofFetch e).IsVersionNotFound := by
  cases e with
  | connection fault => cases fault <;> exact id
  | _ => exact id

theorem IsUnread.not_isVersionNotFound {e : Fault} (unread : e.IsUnread) :
    ¬ e.IsVersionNotFound := by
  cases unread <;> exact id

end Fault

section Elsewhere
variable {kept : Location → Prop} {w w' : World}

/-- From the first tree to the second one the files at some locations stay, and no other ones come
there. -/
structure FileTree.Spares (kept : Location → Prop) (a b : FileTree) : Prop where
  retains : Retains kept a b
  contents : ∀ l, kept l → b.content? l = a.content? l

theorem FileTree.Spares.refl (kept : Location → Prop) (a : FileTree) : Spares kept a a :=
  ⟨.refl kept a, fun _ _ => rfl⟩

/-- Whether a file is written below new directories or not, what is elsewhere stays. -/
theorem Action.writeBelow_spares {p : Path} {content : Bytes} {result : Except Fault Unit}
    (elsewhere : ¬ kept p.location) (ran : (writeBelow p content).run.run w = (result, w')) :
    w.files.Spares kept w'.files := by
  cases result with
  | error e =>
    obtain ⟨_, grows, _⟩ := writeBelow_failed ran
    exact ⟨.ofGrows kept grows, fun l _ => grows.content? l⟩
  | ok =>
    obtain ⟨made, files, parents, wrote, rfl⟩ := writeBelow_ok ran
    have grows := FileTree.makeDirectories_grows p.parent w.files
    rw [parents] at grows
    have written : made.Retains kept files := .write wrote fun member => absurd member elsewhere
    refine ⟨(FileTree.Retains.ofGrows kept grows).trans written, fun l member => ?_⟩
    have other : l ≠ p.location := fun same => elsewhere (same ▸ member)
    rw [← grows.content? l]
    exact FileTree.content?_congr (by rw [FileTree.get?_write wrote, if_neg other])

theorem Action.writeBelow_not_isVersionNotFound {p : Path} {content : Bytes} {e : Fault}
    (ran : (writeBelow p content).run.run w = (.error e, w')) : ¬ e.IsVersionNotFound := by
  obtain ⟨_, rfl⟩ := writeBelow_fault ran
  exact Fault.not_isVersionNotFound_ofAccess _

end Elsewhere

namespace VersionIndex
variable {w w' : World} {kept : Location → Prop}

/-- Keeping an index leaves all files but the one that keeps it. -/
theorem keep_spares {data : Members} {result : Except Fault Unit}
    (ran : (keep data).run.run w = (result, w'))
    (elsewhere : ∀ cache ∈ w.index.cache, ¬ kept cache.location) :
    w.files.Spares kept w'.files := by
  rw [keep, run_bind, run_get] at ran
  simp only at ran
  split at ran
  · cases ran
    exact .refl _ _
  · rename_i cache there
    exact Action.writeBelow_spares (elsewhere cache there) ran

theorem keep_not_isVersionNotFound {data : Members} {e : Fault}
    (ran : (keep data).run.run w = (.error e, w')) : ¬ e.IsVersionNotFound := by
  rw [keep, run_bind, run_get] at ran
  simp only at ran
  split at ran
  · cases ran
  · exact Action.writeBelow_not_isVersionNotFound ran

/-- Loading an index leaves all files but the one that keeps it. -/
theorem load_spares (elsewhere : ∀ cache ∈ w.index.cache, ¬ kept cache.location) :
    w.files.Spares kept (load.run.run w).2.files := by
  rcases known : w.index.data with _ | data
  · have loads := load_loads known
    generalize (load.run.run w).1 = result, (load.run.run w).2 = left at loads
    cases loads with
    | unreadable | refused | excused | unusable => exact .refl _ _
    | unkept _ _ _ put | fetched _ _ _ put =>
      have spares := keep_spares put elsewhere
      exact spares
  · rw [load_known known]
    exact .refl _ _

/-- No fault of loading an index says that a version is not listed. -/
theorem load_not_isVersionNotFound {e : Fault} (failed : (load.run.run w).1 = .error e) :
    ¬ e.IsVersionNotFound := by
  rcases known : w.index.data with _ | data
  · have loads := load_loads known
    generalize (load.run.run w).1 = result, (load.run.run w).2 = left at loads failed
    cases loads with
    | unreadable kept =>
      cases failed
      rcases keptIn_error kept with unread | rfl
      · exact unread.not_isVersionNotFound
      · exact id
    | refused =>
      cases failed
      exact Fault.not_isVersionNotFound_ofFetch _
    | excused | fetched => cases failed
    | unusable _ _ read =>
      cases failed
      exact (ofResponse_error read).not_isVersionNotFound
    | unkept _ _ _ put =>
      cases failed
      exact keep_not_isVersionNotFound put
  · rw [load_known known] at failed
    cases failed

/-- What is found of a version is what the index that was loaded tells. -/
theorem find?_run (version : String) (w : World) :
    (find? version).run.run w =
      match load.run.run w with
      | (.error e, left) => (.error e, left)
      | (.ok data, left) =>
        match entriesOf data with
        | .error e => (.error (.document (.malformed e)), left)
        | .ok entries => (.ok (entries.find? (·.id == version)), left) := by
  rw [find?, run_bind, entries, run_bind]
  rcases load.run.run w with ⟨e | data, left⟩
  · rfl
  · simp only [Action.ofExcept_run]
    cases entriesOf data <;> rfl

/-- What resolving a version comes to once the index lists it. -/
inductive Resolves (name : String) (file : Path) (entry : VersionEntry) (w : World) :
    Except Fault Members → World → Prop
  /-- The file has the digest that the index tells. -/
  | kept {bytes : Bytes} {result : Except Fault Members}
      (digest : entry.sha1 = some (sha1Hex bytes)) (read : w.files.read file = .ok bytes)
      (parsed : readDocument name bytes = result) : Resolves name file entry w result w
  /-- The path of the file has a NUL. -/
  | unreadable : Resolves name file entry w (.error .embeddedNul) w
  /-- The file does not do, and the request failed. -/
  | refused {e : FetchError} {network : Network}
      (asked : w.network.fetch entry.url [] jsonType entry.sha1 = (.error e, network)) :
      Resolves name file entry w (.error (.ofFetch e)) { w with network }
  /-- The file does not do, and the response is no document. -/
  | unusable {response : Response} {network : Network} {e : Fault}
      (asked : w.network.fetch entry.url [] jsonType entry.sha1 = (.ok response, network))
      (parsed : readDocument name response.data = .error e) :
      Resolves name file entry w (.error e) { w with network }
  /-- The file does not do, and the response is put there, or cannot be. -/
  | fetched {response : Response} {network : Network} {data : Members} {put : Except Fault Unit}
      {w' : World}
      (stale : ∀ bytes, w.files.read file = .ok bytes → entry.sha1 ≠ some (sha1Hex bytes))
      (asked : w.network.fetch entry.url [] jsonType entry.sha1 = (.ok response, network))
      (parsed : readDocument name response.data = .ok data)
      (wrote : (Action.writeBelow file response.data).run.run { w with network } = (put, w')) :
      Resolves name file entry w (put.map fun _ => data) w'

section Resolves
variable {name version : String} {file : Path} {entry : VersionEntry} {left : World}

/-- What resolving a version does when its file does not do. -/
theorem resolves_of_stale
    (stale : ∀ bytes, w.files.read file = .ok bytes → entry.sha1 ≠ some (sha1Hex bytes)) :
    let outcome := (do
      let response ← Action.fetch entry.url [] jsonType entry.sha1
      let data ← Action.ofExcept id (readDocument name response.data)
      Action.writeBelow file response.data
      return data : Action Members).run.run w
    Resolves name file entry w outcome.1 outcome.2 := by
  intro outcome
  simp only [outcome, run_bind, Action.fetch_run]
  rcases asked : w.network.fetch entry.url [] jsonType entry.sha1 with ⟨e | response, network⟩
  · exact .refused asked
  · simp only [Except.mapError, Action.ofExcept_run]
    rcases parsed : readDocument name response.data with e | data
    · exact .unusable asked parsed
    · simp only
      rcases wrote : (Action.writeBelow file response.data).run.run { w with network } with ⟨e | _, w'⟩
      · exact .fetched stale asked parsed wrote
      · exact .fetched stale asked parsed wrote

theorem metadata_of_failed {e : Fault} (failed : (find? version).run.run w = (.error e, left)) :
    (metadata version file).run.run w = (.error e, left) := by
  rw [metadata, run_bind, failed]

theorem metadata_of_unlisted (unlisted : (find? version).run.run w = (.ok none, left)) :
    (metadata version file).run.run w =
      (.error (.versionNotFound (.string version)), left) := by
  rw [metadata, run_bind, unlisted]
  rfl

theorem metadata_resolves (found : (find? version).run.run w = (.ok (some entry), left)) :
    Resolves s!"version {version}" file entry left ((metadata version file).run.run w).1
      ((metadata version file).run.run w).2 := by
  rw [metadata, run_bind, found]
  simp only
  rw [run_bind, keptMetadata]
  rcases digest : entry.sha1 with _ | sha1
  · simp only [run_pure]
    rw [← digest]
    exact resolves_of_stale (by simp [digest])
  · simp only [run_bind, run_get, fileSha1Hex_eq]
    rcases read : left.files.read file with (e | _) | bytes
    · simp only [run_pure]
      rw [← digest]
      exact resolves_of_stale (by simp [read])
    · exact .unreadable
    · by_cases same : sha1Hex bytes = sha1
      · subst same
        simp only [if_true, run_bind, Action.ofExcept_run]
        rcases parsed : readDocument s!"version {version}" bytes with e | data
        · exact .kept digest read parsed
        · exact .kept digest read parsed
      · simp only [same, if_false, run_pure]
        rw [← digest]
        refine resolves_of_stale fun bytes' read' expected => same ?_
        cases read.symm.trans read'
        exact Option.some.inj (expected.symm.trans digest)

/-- Metadata that are returned are in their file. A file with the right digest is not fetched again,
and what has no digest is always fetched. -/
theorem Resolves.returned {data : Members} (resolves : Resolves name file entry left (.ok data) w') :
    (∀ sha1, entry.sha1 = some sha1 →
      (∃ bytes, w'.files.read file = .ok bytes ∧ sha1Hex bytes = sha1 ∧
        Json.parse bytes = .ok (.object data)) ∧
      ∀ bytes, left.files.read file = .ok bytes → sha1Hex bytes = sha1 →
        w'.network = left.network) ∧
    (entry.sha1 = none → ∃ response,
      left.network.fetch entry.url [] jsonType none = (.ok response, w'.network) ∧
        w'.files.read file = .ok response.data ∧
        Json.parse response.data = .ok (.object data)) := by
  generalize same : Except.ok data = result at resolves
  cases resolves with
  | unreadable | refused | unusable => cases same
  | kept digest read parsed =>
    subst same
    refine ⟨fun sha1 expected => ?_, fun missing => ?_⟩
    · exact ⟨⟨_, read, Option.some.inj (digest.symm.trans expected), readDocument_ok.mp parsed⟩,
        fun _ _ _ => rfl⟩
    · cases digest.symm.trans missing
  | @fetched response network data' put _ stale asked parsed wrote =>
    cases put with
    | error => cases same
    | ok =>
      cases same
      obtain ⟨there, _, _⟩ := Action.writeBelow_retains wrote
      obtain ⟨_, _, _, _, rfl⟩ := Action.writeBelow_ok wrote
      have parse := readDocument_ok.mp parsed
      refine ⟨fun sha1 expected => ⟨⟨_, there, ?_, parse⟩, ?_⟩, fun missing => ?_⟩
      · rw [expected] at asked
        have fetched : (Action.fetch entry.url [] jsonType (some sha1)).run.run left =
            (.ok response, { left with network }) := by
          rw [Action.fetch_run, asked]
          rfl
        exact (Action.fetch_ok fetched).1 sha1 rfl
      · intro bytes read same
        exact absurd (same ▸ expected) (stale bytes read)
      · rw [missing] at asked
        exact ⟨response, asked, there, parse⟩

/-- A fault leaves all files, and does not say that the version is not listed. -/
theorem Resolves.failed {e : Fault} (resolves : Resolves name file entry left (.error e) w') :
    ¬ e.IsVersionNotFound ∧ ∀ l, w'.files.content? l = left.files.content? l := by
  generalize same : Except.error e = result at resolves
  cases resolves with
  | unreadable =>
    cases same
    exact ⟨id, fun _ => rfl⟩
  | refused =>
    cases same
    exact ⟨Fault.not_isVersionNotFound_ofFetch _, fun _ => rfl⟩
  | unusable _ parsed =>
    cases same
    exact ⟨(readDocument_error parsed).not_isVersionNotFound, fun _ => rfl⟩
  | kept _ _ parsed =>
    subst same
    exact ⟨(readDocument_error parsed).not_isVersionNotFound, fun _ => rfl⟩
  | @fetched _ _ _ put _ _ _ _ wrote =>
    cases put with
    | ok => cases same
    | error =>
      cases same
      obtain ⟨_, grows, _⟩ := Action.writeBelow_failed wrote
      exact ⟨Action.writeBelow_not_isVersionNotFound wrote, grows.content?⟩

end Resolves

variable {version : String} {file : Path}

/-- The metadata that are returned for a version are in their file, with the digest that the index
tells, if it does; a file that had this digest is not fetched again. Metadata without a digest are
what was fetched. If there is a fault, the file is as it was. The fault says that the version is not
listed exactly if the index was read and does not list it. -/
theorem metadata_resolved (other : ∀ cache ∈ w.index.cache, cache.location ≠ file.location) :
    let loading := load.run.run w
    let outcome := (metadata version file).run.run w
    (∀ data, outcome.1 = .ok data → ∃ index entries entry, loading.1 = .ok index ∧
      entriesOf index = .ok entries ∧ entries.find? (·.id == version) = some entry ∧
      (∀ sha1, entry.sha1 = some sha1 →
        (∃ bytes, outcome.2.files.read file = .ok bytes ∧ sha1Hex bytes = sha1 ∧
          Json.parse bytes = .ok (.object data)) ∧
        ∀ bytes, w.files.read file = .ok bytes → sha1Hex bytes = sha1 →
          outcome.2.network = loading.2.network) ∧
      (entry.sha1 = none → ∃ response,
        loading.2.network.fetch entry.url [] jsonType none = (.ok response, outcome.2.network) ∧
          outcome.2.files.read file = .ok response.data ∧
          Json.parse response.data = .ok (.object data))) ∧
    (∀ fault, outcome.1 = .error fault →
      outcome.2.files.content? file.location = w.files.content? file.location) ∧
    ∀ id, outcome.1 = .error (.versionNotFound id) ↔ id = .string version ∧
      ∃ index entries, loading.1 = .ok index ∧ entriesOf index = .ok entries ∧
        ∀ entry ∈ entries, entry.id ≠ version := by
  have spares : w.files.Spares (· = file.location) (load.run.run w).2.files := load_spares other
  have known : ∀ {e}, (load.run.run w).1 = .error e → ¬ e.IsVersionNotFound :=
    load_not_isVersionNotFound
  have found := find?_run version w
  generalize load.run.run w = loading at spares known found ⊢
  obtain ⟨e | index, before⟩ := loading
  · -- no index
    rw [metadata_of_failed found]
    refine ⟨nofun, fun _ _ => spares.contents _ rfl, fun id => ⟨?_, nofun⟩⟩
    rintro ⟨⟩
    exact absurd trivial (known rfl)
  simp only at found spares
  rcases listed : entriesOf index with e | entries
  · -- an index without a list of versions
    rw [listed] at found
    rw [metadata_of_failed found]
    refine ⟨nofun, fun _ _ => spares.contents _ rfl, fun id => ⟨nofun, ?_⟩⟩
    rintro ⟨_, _, _, ⟨⟩, listed', _⟩
    cases listed.symm.trans listed'
  simp only [listed] at found
  rcases first : entries.find? (·.id == version) with _ | entry
  · -- a version that is not listed
    rw [first] at found
    rw [metadata_of_unlisted found]
    have unlisted : ∀ entry ∈ entries, entry.id ≠ version := by
      simpa using first
    refine ⟨nofun, fun _ _ => spares.contents _ rfl, fun id => ⟨?_, ?_⟩⟩
    · rintro ⟨⟩
      exact ⟨rfl, index, entries, rfl, listed, unlisted⟩
    · rintro ⟨rfl, _⟩
      rfl
  · rw [first] at found
    have resolves := @metadata_resolves _ version file _ _ found
    generalize (metadata version file).run.run w = outcome at resolves ⊢
    obtain ⟨result, after⟩ := outcome
    refine ⟨?_, ?_, fun id => ⟨?_, ?_⟩⟩
    · rintro data rfl
      obtain ⟨digested, undigested⟩ := resolves.returned
      refine ⟨index, entries, entry, rfl, listed, first, fun sha1 expected => ?_, undigested⟩
      obtain ⟨held, quiet⟩ := digested sha1 expected
      exact ⟨held, fun bytes read same => quiet bytes (spares.retains.read rfl read) same⟩
    · rintro fault rfl
      rw [resolves.failed.2, spares.contents _ rfl]
    · rintro rfl
      exact absurd trivial resolves.failed.1
    · rintro ⟨_, _, _, ⟨⟩, listed', unlisted⟩
      cases listed.symm.trans listed'
      have named := List.find?_some first
      exact absurd (beq_iff_eq.mp named) (unlisted _ (List.mem_of_find?_eq_some first))

/-- A world with an index of one version, whose metadata are there but not as the index tells. -/
def stale : World where
  files := ⟨FileTree.empty.entries ++ [(FileTree.workingDirectory ++ ["v.json"], .file [1])]⟩
  network := ⟨[("http://v", [.response 200 [] (Bytes.ofText "\x7b\x7d") none])], [], 0⟩
  index := ⟨some (.ofText "index.json"), "http://h/m", some [("versions", .list [.object
    [("id", .string "v"), ("url", .string "http://v"),
      ("sha1", .string "bf21a9e8fbc5a3846fb05b4fa0859e0917b2202f")]])]⟩

theorem stale_metadata_resolved :
    let file := Path.ofText "v.json"
    (∀ cache ∈ stale.index.cache, cache.location ≠ file.location) ∧
      ∃ data bytes, ((metadata "v" file).run.run stale).1 = .ok data ∧
        ((metadata "v" file).run.run stale).2.files.read file = .ok bytes ∧
        sha1Hex bytes = "bf21a9e8fbc5a3846fb05b4fa0859e0917b2202f" ∧
        Json.parse bytes = .ok (.object data) := by
  intro file
  have other : ∀ cache ∈ stale.index.cache, cache.location ≠ file.location := by
    rintro cache ⟨⟩
    decide +kernel
  have run : ((metadata "v" file).run.run stale).1.toBool ∧
      ∀ index, (load.run.run stale).1.toOption = some index →
        ((entriesOf index).toOption.bind (·.find? (·.id == "v"))).map (·.sha1) =
          some (some "bf21a9e8fbc5a3846fb05b4fa0859e0917b2202f") := by
    refine ⟨by decide +kernel, ?_⟩
    rintro index ⟨⟩
    decide +kernel
  refine ⟨other, ?_⟩
  rcases returned : ((metadata "v" file).run.run stale).1 with _ | data
  · rw [returned] at run
    cases run.1
  obtain ⟨index, entries, entry, loaded, listed, first, digested, _⟩ :=
    (metadata_resolved other).1 data returned
  have digest := run.2 index (by rw [loaded]; rfl)
  rw [listed] at digest
  simp only [Except.toOption, Option.bind_some, first, Option.map_some, Option.some.injEq] at digest
  obtain ⟨⟨bytes, read, same, parse⟩, _⟩ := digested _ digest
  exact ⟨data, bytes, rfl, read, same, parse⟩

end VersionIndex
end Launcher
