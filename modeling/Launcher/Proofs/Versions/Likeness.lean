import Launcher.Proofs.Files.Likeness
import Launcher.Proofs.Versions.Pursuit

/-! Learning of a version on file trees that are alike. However the documents come about, what was
kept of them or what is fetched, the trees differ in nothing but what the files of the documents
hold. -/
namespace Launcher
variable {loose : Location → Prop} {p : Path}

namespace FileTree.Alike
variable {a b a' b' : FileTree} {x y : Bytes}

theorem hasFile (alike : Alike loose a b) : b.HasFile p ↔ a.HasFile p := by
  unfold HasFile
  rw [alike.isFile_congr]

/-- A file at a loose place is overwritten. -/
theorem overwrite (present : a.IsFileAt p.location) (free : loose p.location)
    (wrote : a.write p x = .ok b) : Alike loose a b := by
  intro l
  unfold IsFileAt
  rw [get?_write wrote]
  by_cases here : l = p.location
  · subst here
    rw [if_pos rfl]
    exact .inr ⟨free, present, ⟨x, rfl⟩⟩
  · rw [if_neg here]
    exact .inl rfl

/-- Files are written to the same loose place. -/
theorem write_loose (alike : Alike loose a b) (free : loose p.location)
    (wrote : a.write p x = .ok a') (wrote' : b.write p y = .ok b') : Alike loose a' b' := by
  obtain ⟨_, _, other, rfl⟩ := write_ok wrote
  obtain ⟨_, _, _, rfl⟩ := write_ok wrote'
  exact alike.insert_loose (ne_root other) free x y

end FileTree.Alike

/-- A document is lodged in a file: there was one, which stays, or it is put there. -/
inductive Lodges (p : Path) : FileTree → FileTree → Prop
  | stays {files : FileTree} : files.HasFile p → Lodges p files files
  | put {content : Bytes} {w w' : World} :
      (Action.writeBelow p content).run.run w = (.ok (), w') → Lodges p w.files w'.files

namespace Lodges
variable {a b a' b' : FileTree}

/-- To put a document where a file was needs no directory. -/
theorem replaced {content : Bytes} {w w' : World} (present : w.files.HasFile p)
    (wrote : (Action.writeBelow p content).run.run w = (.ok (), w')) (free : loose p.location) :
    w.files.Alike loose w'.files := by
  have named := Action.parts_of_writeBelow wrote
  obtain ⟨made, files, parents, written, rfl⟩ := Action.writeBelow_ok wrote
  obtain ⟨nul, way, there⟩ := FileTree.hasFile_iff.mp present
  rw [FileTree.makeDirectories_of_isDirectory (FileTree.isDirectory_parent nul way named)]
    at parents
  cases parents
  exact .overwrite there free written

theorem alike (first : Lodges p a a') (second : Lodges p b b') (alike : a.Alike loose b)
    (free : loose p.location) : a'.Alike loose b' := by
  cases first with
  | stays present =>
    cases second with
    | stays _ => exact alike
    | put wrote => exact alike.trans (replaced (alike.hasFile.mpr present) wrote free)
  | put wrote =>
    cases second with
    | stays present => exact (replaced (alike.hasFile.mp present) wrote free).symm.trans alike
    | put wrote' =>
      obtain ⟨made, files, parents, written, rfl⟩ := Action.writeBelow_ok wrote
      obtain ⟨made', files', parents', written', rfl⟩ := Action.writeBelow_ok wrote'
      obtain ⟨_, housed⟩ := alike.makeDirectories p.parent
      rw [parents, parents'] at housed
      exact housed.write_loose free written written'

end Lodges

namespace VersionIndex
variable {w w' v v' : World} {data data' : Members}

theorem keep_lodges (ran : (keep data).run.run w = (.ok (), w')) :
    match w.index.cache with
    | none => w'.files = w.files
    | some file => Lodges file w.files w'.files := by
  rw [keep, run_bind, run_get] at ran
  cases cached : w.index.cache with
  | none =>
    simp only [cached] at ran
    cases ran
    rfl
  | some file =>
    simp only [cached] at ran
    exact .put ran

/-- An index that was not known is lodged in its file, if it has one. -/
theorem load_lodges (unknown : w.index.data = none) (ran : load.run.run w = (.ok data, w')) :
    match w.index.cache with
    | none => w'.files = w.files
    | some file => Lodges file w.files w'.files := by
  have loads := load_loads unknown
  rw [ran] at loads
  generalize same : Except.ok data = result at loads
  cases loads with
  | unreadable | refused | unusable | unkept => cases same
  | excused kept =>
    cases cached : w.index.cache with
    | none => rfl
    | some file =>
      rw [cached, keptIn] at kept
      rcases read : w.files.read file with (_ | _) | bytes
      · rw [read] at kept
        cases kept
      · rw [read] at kept
        cases kept
      · obtain ⟨nul, way, there⟩ := FileTree.read_iff.mp read
        exact .stays (FileTree.hasFile_iff.mpr ⟨nul, way, _, there⟩)
  | fetched _ _ _ put =>
    have lodged := keep_lodges put
    exact lodged

theorem load_alike (ran : load.run.run w = (.ok data, w')) (ran' : load.run.run v = (.ok data', v'))
    (alike : w.files.Alike loose v.files) (cache : v.index.cache = w.index.cache)
    (known : v.index.data.isSome = w.index.data.isSome)
    (free : ∀ file ∈ w.index.cache, loose file.location) : w'.files.Alike loose v'.files := by
  cases here : w.index.data with
  | some _ =>
    rw [here] at known
    obtain ⟨_, there⟩ := Option.isSome_iff_exists.mp known
    rw [load_known here] at ran
    rw [load_known there] at ran'
    cases ran
    cases ran'
    exact alike
  | none =>
    rw [here] at known
    have there : v.index.data = none := by simpa using known
    have lodged := load_lodges here ran
    have lodged' := load_lodges there ran'
    rw [cache] at lodged'
    cases cached : w.index.cache with
    | none =>
      rw [cached] at lodged lodged'
      rw [lodged, lodged']
      exact alike
    | some file =>
      rw [cached] at lodged lodged'
      exact lodged.alike lodged' alike (free file cached)

theorem load_of_find? {version : String} {found : Option VersionEntry}
    (ran : (find? version).run.run w = (.ok found, w')) :
    ∃ index, load.run.run w = (.ok index, w') := by
  obtain ⟨entries, w₁, listed, h⟩ := run_bind_ok ran
  cases h
  obtain ⟨index, w₂, loaded, listed⟩ := run_bind_ok listed
  obtain ⟨_, rfl⟩ := Action.ofExcept_ok listed
  exact ⟨index, loaded⟩

/-- Metadata that are returned are lodged in their file. -/
theorem metadata_lodges {version : String} {file : Path}
    (ran : (metadata version file).run.run w = (.ok data, w')) :
    ∃ index left, load.run.run w = (.ok index, left) ∧ Lodges file left.files w'.files := by
  rcases found : (find? version).run.run w with ⟨e | _ | entry, left⟩
  · cases (metadata_of_failed found).symm.trans ran
  · cases (metadata_of_unlisted found).symm.trans ran
  · obtain ⟨index, loaded⟩ := load_of_find? found
    have resolves := @metadata_resolves _ version file _ _ found
    rw [ran] at resolves
    simp only at resolves
    refine ⟨index, left, loaded, ?_⟩
    generalize same : Except.ok data = result at resolves
    cases resolves with
    | unreadable | refused | unusable => cases same
    | kept _ read =>
      obtain ⟨nul, way, there⟩ := FileTree.read_iff.mp read
      exact .stays (FileTree.hasFile_iff.mpr ⟨nul, way, _, there⟩)
    | @fetched _ network _ put _ _ _ _ wrote =>
      cases put with
      | error => cases same
      | ok => exact .put (w := { left with network }) wrote

/-- Metadata of a version that are learned from two worlds leave trees that differ in the documents
alone. -/
theorem metadata_alike {version : String} {file : Path}
    (ran : (metadata version file).run.run w = (.ok data, w'))
    (ran' : (metadata version file).run.run v = (.ok data', v'))
    (alike : w.files.Alike loose v.files) (cache : v.index.cache = w.index.cache)
    (known : v.index.data.isSome = w.index.data.isSome)
    (free : ∀ file ∈ w.index.cache, loose file.location) (free' : loose file.location) :
    w'.files.Alike loose v'.files := by
  obtain ⟨_, _, loaded, lodged⟩ := metadata_lodges ran
  obtain ⟨_, _, loaded', lodged'⟩ := metadata_lodges ran'
  exact lodged.alike lodged' (load_alike loaded loaded' alike cache known free) free'

end VersionIndex
end Launcher
