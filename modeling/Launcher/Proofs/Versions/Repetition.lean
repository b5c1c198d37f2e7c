import Launcher.Proofs.World.Repetition

/-! Metadata that were found are found again. The index is known by then, and the file of the
metadata has the digest that the index tells. -/
namespace Launcher
namespace VersionIndex

/-- The entry of a version in an index that is known. -/
def entryOf (index : VersionIndex) (version : String) : Option VersionEntry :=
  index.data.bind fun data => (entriesOf data).toOption.bind fun entries =>
    entries.find? (·.id == version)

variable {w w' : World}

theorem learn_ok {data value : Members} (h : (learn data).run.run w = (.ok value, w')) :
    value = data ∧ w'.index.data = some data := by
  rw [learn, run_bind, run_modify] at h
  cases h
  exact ⟨rfl, rfl⟩

theorem load_ok {data : Members} (h : load.run.run w = (.ok data, w')) :
    w'.index.data = some data := by
  obtain ⟨_, _, got, h⟩ := run_bind_ok h
  cases got
  split at h
  · rename_i known
    cases h
    exact known
  · obtain ⟨old, w₁, _, h⟩ := run_bind_ok h
    obtain ⟨_, _, got, h⟩ := run_bind_ok h
    cases got
    obtain ⟨reply, w₂, _, h⟩ := run_bind_ok h
    split at h
    · obtain ⟨data', w₃, _, h⟩ := run_bind_ok h
      obtain ⟨_, w₄, _, h⟩ := run_bind_ok h
      obtain ⟨rfl, known⟩ := learn_ok h
      exact known
    · split at h
      · split at h
        · obtain ⟨rfl, known⟩ := learn_ok h
          exact known
        · cases h
      · cases h
    · cases h

theorem find?_ok {version : String} {found : Option VersionEntry}
    (h : (find? version).run.run w = (.ok found, w')) : w'.index.entryOf version = found := by
  obtain ⟨entries, w₁, listed, h⟩ := run_bind_ok h
  cases h
  obtain ⟨data, w₂, loaded, listed⟩ := run_bind_ok listed
  obtain ⟨read, rfl⟩ := Action.ofExcept_ok listed
  simp [entryOf, load_ok loaded, read, Except.toOption]

/-- A known index is not asked for. -/
theorem find?_known {version : String} {entry : VersionEntry}
    (known : w.index.entryOf version = some entry) :
    (find? version).run.run w = (.ok (some entry), w) := by
  unfold entryOf at known
  obtain ⟨data, there, known⟩ := Option.bind_eq_some_iff.mp known
  obtain ⟨entries, read, found⟩ := Option.bind_eq_some_iff.mp known
  have read : entriesOf data = .ok entries := by
    cases listed : entriesOf data with
    | error e => simp [listed, Except.toOption] at read
    | ok entries' => simpa [listed, Except.toOption] using read
  have loaded : load.run.run w = (.ok data, w) := by
    rw [load, run_bind, run_get]
    simp only [there]
    rfl
  have listed : VersionIndex.entries.run.run w = (.ok entries, w) := by
    rw [VersionIndex.entries, run_bind, loaded]
    simp only [Action.ofExcept_run, read]
    rfl
  rw [find?, run_bind, listed]
  simp only [found]
  rfl

/-- A file holds the metadata of a version: its digest is right, and it can be read. -/
def Keeps (files : FileTree) (file : Path) (version sha1 : String) (data : Members) : Prop :=
  ∃ bytes, files.read file = .ok bytes ∧ sha1Hex bytes = sha1 ∧
    readDocument s!"version {version}" bytes = .ok data

theorem keptMetadata_ok {entry : VersionEntry} {version : String} {file : Path}
    {found : Option Members}
    (h : (keptMetadata entry s!"version {version}" file).run.run w = (.ok found, w')) :
    w' = w ∧ ∀ data, found = some data → ∀ sha1, entry.sha1 = some sha1 →
      Keeps w.files file version sha1 data := by
  unfold keptMetadata at h
  split at h
  · cases h
    exact ⟨rfl, nofun⟩
  · rename_i sha1 digest
    obtain ⟨_, _, got, h⟩ := run_bind_ok h
    cases got
    split at h
    · cases h
      exact ⟨rfl, nofun⟩
    · cases h
    · rename_i bytes read
      split at h
      · rename_i same
        obtain ⟨data, parsed, h⟩ := Action.ofExcept_bind_ok h
        cases h
        refine ⟨rfl, ?_⟩
        rintro _ ⟨⟩ _ expected
        cases digest.symm.trans expected
        exact ⟨bytes, read, fileSha1Hex_eq bytes ▸ same, parsed⟩
      · cases h
        exact ⟨rfl, nofun⟩

/-- Where metadata come from, they are in their file afterwards. -/
theorem metadata_ok {version : String} {file : Path} {data : Members}
    (h : (metadata version file).run.run w = (.ok data, w')) :
    ∃ entry, w'.index.entryOf version = some entry ∧
      ∀ sha1, entry.sha1 = some sha1 → Keeps w'.files file version sha1 data := by
  obtain ⟨found, w₁, sought, h⟩ := run_bind_ok h
  have known := find?_ok sought
  split at h
  · cases h
  · rename_i entry
    obtain ⟨kept, w₂, looked, h⟩ := run_bind_ok h
    obtain ⟨same, held⟩ := keptMetadata_ok looked
    split at h
    · cases h
      rw [same]
      exact ⟨entry, known, held _ rfl⟩
    · obtain ⟨response, w₃, fetched, h⟩ := run_bind_ok h
      obtain ⟨digest, _, index⟩ := Action.fetch_ok fetched
      obtain ⟨data', parsed, h⟩ := Action.ofExcept_bind_ok h
      obtain ⟨_, w₄, put, h⟩ := run_bind_ok h
      cases h
      obtain ⟨read, index', _⟩ := Action.writeBelow_retains put
      refine ⟨entry, by rw [← known, ← same, ← index, ← index'], ?_⟩
      intro sha1 expected
      exact ⟨response.data, read, digest sha1 expected, parsed⟩

/-- Metadata in their file are read from there, and nothing else happens. -/
theorem metadata_again {version sha1 : String} {file : Path} {data : Members}
    {entry : VersionEntry} (known : w.index.entryOf version = some entry)
    (digest : entry.sha1 = some sha1) (held : Keeps w.files file version sha1 data) :
    (metadata version file).run.run w = (.ok data, w) := by
  obtain ⟨bytes, read, same, parsed⟩ := held
  have kept : (keptMetadata entry s!"version {version}" file).run.run w =
      (.ok (some data), w) := by
    rw [keptMetadata]
    simp only [digest, run_bind, run_get, read, fileSha1Hex_eq, same, if_true, Action.ofExcept_run,
      parsed]
    rfl
  rw [metadata, run_bind, find?_known known]
  simp only [run_bind, kept]
  rfl

end VersionIndex
end Launcher
