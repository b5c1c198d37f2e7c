import Launcher.Proofs.Install.Inventory

/-! That the files of a version have places of their own. Each of them lies below the main directory
or is the program, which the working directory holds, and no two of them share a location. What is
extracted or copied when the downloads are over comes to none of these places. -/
namespace Launcher

open Launcher.Path (LeadsDown Below ofText)
open InstallPlan (AssetObject objectFile)

namespace Directories
variable (d : Directories) {version path : String}

/-- The working directory lies outside of the directories in which the files of versions lie. -/
structure IsApart : Prop where
  versions : ¬ d.versions.location <+: d.work.location
  libraries : ¬ d.libraries.location <+: d.work.location
  assets : ¬ d.assets.location <+: d.work.location

theorem versions_below : d.main.Below ["versions"] d.versions :=
  (show LeadsDown "versions" by decide).below d.main

theorem libraries_below : d.main.Below ["libraries"] d.libraries :=
  (show LeadsDown "libraries" by decide).below d.main

theorem assets_below : d.main.Below ["assets"] d.assets :=
  (show LeadsDown "assets" by decide).below d.main

theorem virtual_below : d.main.Below ["assets", "virtual"] (d.assets / "virtual") :=
  d.assets_below.trans ((show LeadsDown "virtual" by decide).below d.assets)

theorem library_below (inside : LeadsDown path) :
    d.main.Below ("libraries" :: (ofText path).parts) (d.libraries / path) :=
  d.libraries_below.trans (inside.below _)

theorem object_below {object : AssetObject} (digest : isSha1 object.hash) :
    ∃ names, d.main.Below ("assets" :: "objects" :: names)
      (objectFile (d.assets / "objects") object) := by
  obtain ⟨shelf, hash⟩ := object.leadsDown digest
  have objects := (show LeadsDown "objects" by decide).below d.assets
  exact ⟨_, ((d.assets_below.trans objects).trans (shelf.below _)).trans (hash.below _)⟩

theorem native_below (down : LeadsDown version) (inside : LeadsDown path) :
    ∃ names, d.main.Below ("versions" :: names) (d.natives version / path) := by
  have natives := (show LeadsDown "natives" by decide).below (d.versions / version)
  exact ⟨_, ((d.versions_below.trans (down.below _)).trans natives).trans (inside.below _)⟩

variable {d}

/-- The program of a client is put to none of the directories in which other files lie. -/
theorem IsApart.clientJar (apart : d.IsApart) {top : String}
    (member : top ∈ ["versions", "libraries", "assets"]) :
    ¬ d.main.location ++ [top] <+: d.clientJar.location := by
  have place : d.clientJar.location = d.work.location ++ ["client.jar"] :=
    (show LeadsDown "client.jar" by decide).location d.work
  have outside : ¬ d.main.location ++ [top] <+: d.work.location := by
    simp only [List.mem_cons, List.not_mem_nil, or_false] at member
    rcases member with rfl | rfl | rfl
    · rw [← d.versions_below.location]
      exact apart.versions
    · rw [← d.libraries_below.location]
      exact apart.libraries
    · rw [← d.assets_below.location]
      exact apart.assets
  rw [place, List.prefix_concat_iff]
  rintro (same | above)
  · have last := List.singleton_inj.mp (List.append_inj' same rfl).2
    subst last
    exact absurd member (by decide)
  · exact outside above

end Directories

namespace InstallSettings
variable (s : InstallSettings)

/-- The paths of the files that a version consists of. -/
inductive Stores : Path → Prop
  | jar : Stores s.directories.clientJar
  | library {path : String} : LeadsDown path → Stores (s.directories.libraries / path)
  | native {path : String} : LeadsDown path → Stores (s.natives / path)
  | object {object : AssetObject} : isSha1 object.hash →
    Stores (objectFile (s.directories.assets / "objects") object)

/-- The places to which nothing is extracted or copied. -/
def Keeps (l : Location) : Prop :=
  ¬ s.directories.versions.location <+: l ∧ ¬ (s.directories.assets / "virtual").location <+: l

variable {s} {p q : Path}

section Stored
variable (down : LeadsDown s.version)
include down

theorem Stores.below (stores : s.Stores p) :
    p = s.directories.clientJar ∨ ∃ top ∈ ["versions", "libraries", "assets"], ∃ names,
      s.directories.main.Below (top :: names) p := by
  cases stores with
  | jar => exact .inl rfl
  | library inside => exact .inr ⟨_, by simp, _, s.directories.library_below inside⟩
  | native inside => exact .inr ⟨_, by simp, s.directories.native_below down inside⟩
  | object digest =>
    obtain ⟨names, below⟩ := s.directories.object_below digest
    exact .inr ⟨_, by simp, _, below⟩

/-- Different files of a version have different places. -/
theorem Stores.eq_of_location (apart : s.directories.IsApart) (stores : s.Stores p)
    (stores' : s.Stores q) (same : p.location = q.location) : p = q := by
  have outside {r : Path} {top : String} {names : List String}
      (member : top ∈ ["versions", "libraries", "assets"])
      (below : s.directories.main.Below (top :: names) r) :
      s.directories.clientJar.location ≠ r.location := by
    intro same
    refine apart.clientJar member ?_
    rw [same, below.location]
    exact (List.prefix_append_right_inj _).mpr ⟨names, rfl⟩
  rcases stores.below down with rfl | ⟨top, member, names, below⟩
  · rcases stores'.below down with rfl | ⟨top, member, names, below⟩
    · rfl
    · exact absurd same (outside member below)
  · rcases stores'.below down with rfl | ⟨top', member', names', below'⟩
    · exact absurd same.symm (outside member below)
    · exact below.eq_of_location below' same

/-- No document of the version lies at one of these places. -/
theorem Stores.not_isDocument (client : s.kind = .client) (stores : s.Stores p) :
    ¬ s.IsDocument p.location := by
  cases stores with
  | jar =>
    have outside := jar_not_isDocument (s := s) down
    rwa [InstallSettings.jar, client] at outside
  | library inside => exact library_not_isDocument down inside
  | native inside =>
    rw [inside.location]
    exact (native_not_isDocument down _).1
  | object digest => exact object_not_isDocument down digest

/-- The file in which the index of versions is kept lies at none of these places. -/
theorem Stores.ne_indexFile (stores : s.Stores p) :
    s.directories.indexFile.location ≠ p.location := by
  have place : s.directories.main.Below ["version_manifest.json"] s.directories.indexFile :=
    (show LeadsDown "version_manifest.json" by decide).below _
  intro same
  rw [place.location] at same
  rcases stores.below down with rfl | ⟨top, member, names, below⟩
  · have jar : s.directories.clientJar.location = _ ++ ["client.jar"] :=
      (show LeadsDown "client.jar" by decide).location s.directories.work
    rw [jar] at same
    exact absurd (List.append_inj' same rfl).2 (by decide)
  · rw [below.location] at same
    have first := (List.cons.inj (List.append_cancel_left same)).1
    subst first
    exact absurd member (by decide)

end Stored

theorem jar_keeps (apart : s.directories.IsApart) : s.Keeps s.directories.clientJar.location := by
  constructor
  · rw [s.directories.versions_below.location]
    exact apart.clientJar (by simp)
  · rw [s.directories.virtual_below.location]
    intro within
    have assets : s.directories.main.location ++ ["assets"] <+:
        s.directories.main.location ++ ["assets", "virtual"] :=
      (List.prefix_append_right_inj _).mpr ⟨["virtual"], rfl⟩
    exact apart.clientJar (by simp) (assets.trans within)

/-- What lies below the main directory is kept unless its first names say otherwise. -/
theorem keeps_of_below {names : List String} (below : s.directories.main.Below names p)
    (versions : ¬ ["versions"] <+: names) (virtual : ¬ ["assets", "virtual"] <+: names) :
    s.Keeps p.location := by
  rw [Keeps, s.directories.versions_below.location, s.directories.virtual_below.location,
    below.location, List.prefix_append_right_inj, List.prefix_append_right_inj]
  exact ⟨versions, virtual⟩

theorem library_keeps {path : String} (inside : LeadsDown path) :
    s.Keeps (s.directories.libraries / path).location :=
  keeps_of_below (s.directories.library_below inside) (by simp [List.cons_prefix_cons])
    (by simp [List.cons_prefix_cons])

theorem object_keeps {object : AssetObject} (digest : isSha1 object.hash) :
    s.Keeps (objectFile (s.directories.assets / "objects") object).location := by
  obtain ⟨names, below⟩ := s.directories.object_below digest
  exact keeps_of_below below (by simp [List.cons_prefix_cons]) (by simp [List.cons_prefix_cons])

/-- An archive is extracted with the versions. -/
theorem extracted_not_keeps (down : LeadsDown s.version) {name : String}
    (slashless : '/' ∉ name.toList) : ¬ s.Keeps (s.natives / name).location := by
  intro keeps
  refine keeps.1 ?_
  have version : s.directories.main.Below _ (s.directories.versions / s.version) :=
    s.directories.versions_below.trans (down.below _)
  have natives : (s.directories.versions / s.version).Below ["natives"] s.natives :=
    (show LeadsDown "natives" by decide).below _
  rcases Path.leadsDown_of_slashless slashless s.natives with up | inside
  · rw [up, natives.location, List.dropLast_concat, down.location]
    exact List.prefix_append _ _
  · rw [inside.location, natives.location, down.location, List.append_assoc, List.append_assoc]
    exact List.prefix_append _ _

/-- An asset is copied to the directory of copies. -/
theorem copied_not_keeps (down : LeadsDown s.version) {id : String} (inside : LeadsDown id) :
    ¬ s.Keeps (s.virtual / id).location := by
  intro keeps
  refine keeps.2 ?_
  rw [inside.location, virtual, down.location, List.append_assoc]
  exact List.prefix_append _ _

end InstallSettings
end Launcher
