import Launcher.Proofs.Network.Pursuit
import Launcher.Proofs.Versions.Resolution

/-! What is asked for to learn of a version: the index unless it is known, and the metadata at the URL
that the index tells. -/
namespace Launcher.VersionIndex

/-- Nothing but the index is asked for to load it, and that only if it is not known. -/
theorem load_pursues (w : World) :
    ∃ urls, (w.index.data.isSome → urls = []) ∧
      Fetch.Pursues w.network.script w.index.url urls ∧
      w.network.Asks urls (load.run.run w).2.network ∧
      (load.run.run w).2.network.connections = w.network.connections := by
  cases known : w.index.data with
  | some data =>
    rw [load_known known]
    exact ⟨[], fun _ => rfl, .inl rfl, .refl _, rfl⟩
  | none =>
    have loads := load_loads known
    generalize (load.run.run w).1 = result at loads
    generalize (load.run.run w).2 = left at loads ⊢
    cases loads with
    | unreadable => exact ⟨[], nofun, .inl rfl, .refl _, rfl⟩
    | refused _ asked | excused _ asked | unusable _ asked =>
      obtain ⟨urls, pursues, asks, count⟩ := Fetch.fetch_pursues asked
      exact ⟨urls, nofun, pursues, asks, count⟩
    | unkept _ asked _ put | fetched _ asked _ put =>
      obtain ⟨urls, pursues, asks, count⟩ := Fetch.fetch_pursues asked
      have same := (keep_leaves put).1
      refine ⟨urls, nofun, pursues, ?_, ?_⟩
      · simp only [same]
        exact asks
      · simp only [same]
        exact count

theorem find?_left (version : String) (w : World) :
    ((find? version).run.run w).2 = (load.run.run w).2 := by
  rw [find?_run]
  generalize load.run.run w = outcome
  obtain ⟨e | data, left⟩ := outcome
  · rfl
  · simp only
    cases entriesOf data <;> rfl

/-- To learn of a version these URLs were asked for: those of the index, unless it was known, and
those of the metadata, at the URL that the index tells if it lists the version. -/
structure Inquires (version : String) (w left : World) (index document : List String) : Prop where
  unknown : w.index.data.isSome → index = []
  listing : Fetch.Pursues w.network.script w.index.url index
  metadata : document = [] ∨ ∃ entry, left.index.entryOf version = some entry ∧
    Fetch.Pursues (index.foldl Script.next w.network.script) entry.url document
  asks : w.network.Asks (index ++ document) left.network
  connections : left.network.connections = w.network.connections

theorem metadata_pursues (version : String) (file : Path) (w : World) :
    ∃ index document,
      Inquires version w ((metadata version file).run.run w).2 index document := by
  obtain ⟨index, unknown, pursues, asks, count⟩ := load_pursues w
  rw [← find?_left version] at asks count
  rcases found : (find? version).run.run w with ⟨e | _ | entry, listed⟩
  · rw [found] at asks count
    rw [metadata_of_failed found]
    exact ⟨index, [], unknown, pursues, .inl rfl, (List.append_nil index).symm ▸ asks, count⟩
  · rw [found] at asks count
    rw [metadata_of_unlisted found]
    exact ⟨index, [], unknown, pursues, .inl rfl, (List.append_nil index).symm ▸ asks, count⟩
  · rw [found] at asks count
    have lists := find?_ok found
    have resolves := @metadata_resolves _ version file _ _ found
    generalize ((metadata version file).run.run w).1 = result at resolves
    generalize ((metadata version file).run.run w).2 = left at resolves ⊢
    have fetching {network : Network}
        (fetched : ∃ result, listed.network.fetch entry.url [] jsonType entry.sha1 =
          (result, network))
        (network' : left.network = network) (index' : left.index = listed.index) :
        ∃ index document, Inquires version w left index document := by
      obtain ⟨_, asked⟩ := fetched
      obtain ⟨urls, further, more, still⟩ := Fetch.fetch_pursues asked
      subst network'
      refine ⟨index, urls, unknown, pursues, .inr ⟨entry, index' ▸ lists, ?_⟩, asks.trans more,
        still.trans count⟩
      rw [← asks.script]
      exact further
    cases resolves with
    | kept | unreadable =>
      exact ⟨index, [], unknown, pursues, .inl rfl, (List.append_nil index).symm ▸ asks, count⟩
    | refused asked | unusable asked => exact fetching ⟨_, asked⟩ rfl rfl
    | fetched _ asked _ wrote =>
      obtain ⟨network', index'⟩ := Action.writeBelow_leaves wrote
      exact fetching ⟨_, asked⟩ network' index'

end Launcher.VersionIndex
