import Launcher.Proofs.Versions.Repetition
import Launcher.Proofs.World.Writing

/-! All that loading the index of versions can come to. An index that is not known is asked for
once, whatever is kept of it. -/
namespace Launcher
namespace VersionIndex

/-- What is kept of an index in a file, if it is kept at all. A file that cannot be opened counts as
none. -/
def keptIn (files : FileTree) : Option Path → Except Fault (Option Members)
  | none => .ok none
  | some file =>
    match files.read file with
    | .ok bytes => ofKept bytes
    | .error (.system _) => .ok none
    | .error .embeddedNul => .error .embeddedNul

theorem keptIn_error {files : FileTree} {cache : Option Path} {e : Fault}
    (failed : keptIn files cache = .error e) : e.IsUnread ∨ e = .embeddedNul := by
  unfold keptIn at failed
  split at failed
  · cases failed
  · split at failed
    · exact .inl (ofKept_error failed)
    · cases failed
    · cases failed
      exact .inr rfl

theorem kept_run (w : World) : kept.run.run w = (keptIn w.files w.index.cache, w) := by
  rw [kept, run_bind, run_get]
  rcases cached : w.index.cache with _ | file
  · simp only [cached]
    rfl
  · simp only [cached, run_bind, run_get, keptIn]
    rcases w.files.read file with (_ | _) | bytes
    · rfl
    · rfl
    · simp only [Action.ofExcept_run]
      cases ofKept bytes <;> rfl

/-- The reply to the one request that loading an index makes, and the network afterwards. -/
def ask (w : World) (old : Option Members) : Except FetchError Response × Network :=
  w.network.fetch w.index.url (conditions old) jsonType none

/-- Loading an index that is not known: what it can give, and the world that it leaves. -/
inductive Loads (w : World) : Except Fault Members → World → Prop
  /-- What is kept cannot be read as text. -/
  | unreadable {e : Fault} (kept : keptIn w.files w.index.cache = .error e) : Loads w (.error e) w
  /-- The request failed, and nothing that is kept makes up for it. -/
  | refused {old : Option Members} {e : FetchError} {network : Network}
      (kept : keptIn w.files w.index.cache = .ok old) (asked : ask w old = (.error e, network))
      (unexcused : ∀ h, e = .http h → isExcused h = true → old = none) :
      Loads w (.error (.ofFetch e)) { w with network }
  /-- The request failed, and what is kept makes up for it. -/
  | excused {data : Members} {h : HttpError} {network : Network}
      (kept : keptIn w.files w.index.cache = .ok (some data))
      (asked : ask w (some data) = (.error (.http h), network)) (excuse : isExcused h = true) :
      Loads w (.ok data) { w with network, index := { w.index with data := some data } }
  /-- The response is no index. -/
  | unusable {old : Option Members} {response : Response} {network : Network} {e : Fault}
      (kept : keptIn w.files w.index.cache = .ok old) (asked : ask w old = (.ok response, network))
      (read : ofResponse response = .error e) : Loads w (.error e) { w with network }
  /-- The index of the response cannot be kept. -/
  | unkept {old : Option Members} {response : Response} {network : Network} {data : Members}
      {e : Fault} {w' : World} (kept : keptIn w.files w.index.cache = .ok old)
      (asked : ask w old = (.ok response, network)) (read : ofResponse response = .ok data)
      (put : (keep data).run.run { w with network } = (.error e, w')) : Loads w (.error e) w'
  /-- The index of the response is kept. -/
  | fetched {old : Option Members} {response : Response} {network : Network} {data : Members}
      {w' : World} (kept : keptIn w.files w.index.cache = .ok old)
      (asked : ask w old = (.ok response, network)) (read : ofResponse response = .ok data)
      (put : (keep data).run.run { w with network } = (.ok (), w')) :
      Loads w (.ok data) { w' with index := { w'.index with data := some data } }

variable {w : World}

theorem learn_run (data : Members) (w : World) : (learn data).run.run w =
    (.ok data, { w with index := { w.index with data := some data } }) := rfl

/-- An index that is known is not asked for. -/
theorem load_known {data : Members} (known : w.index.data = some data) :
    load.run.run w = (.ok data, w) := by
  rw [load, run_bind, run_get]
  simp only [known]
  rfl

theorem load_loads (unknown : w.index.data = none) :
    Loads w (load.run.run w).1 (load.run.run w).2 := by
  rw [load, run_bind, run_get]
  simp only [unknown]
  rw [run_bind, kept_run]
  rcases kept : keptIn w.files w.index.cache with e | old
  · exact .unreadable kept
  · simp only [run_bind, run_get, Action.tryFetch_run]
    rcases asked : ask w old with ⟨reply, network⟩
    have fetched : w.network.fetch w.index.url (conditions old) jsonType none =
      (reply, network) := asked
    rw [fetched]
    rcases reply with e | response
    · cases e with
      | http h =>
        rcases old with _ | data
        · exact .refused kept asked fun _ _ _ => rfl
        · by_cases excuse : isExcused h = true
          · simp only [excuse, if_true, learn_run]
            exact .excused kept asked excuse
          · simp only [excuse, Bool.false_eq_true, if_false, run_throw]
            refine .refused kept asked ?_
            rintro _ ⟨⟩ excuse'
            exact absurd excuse' excuse
      | _ => exact .refused kept asked (by rintro _ ⟨⟩)
    · simp only [run_bind, Action.ofExcept_run]
      rcases read : ofResponse response with e | data
      · exact .unusable kept asked read
      · simp only [Except.mapError]
        rcases put : (keep data).run.run { w with network } with ⟨e | _, w'⟩
        · exact .unkept kept asked read put
        · exact .fetched kept asked read put

/-- Keeping an index changes files alone. -/
theorem keep_leaves {w' : World} {data : Members} {result : Except Fault Unit}
    (ran : (keep data).run.run w = (result, w')) :
    w'.network = w.network ∧ w'.index = w.index := by
  rw [keep, run_bind, run_get] at ran
  simp only at ran
  split at ran
  · cases ran
    exact ⟨rfl, rfl⟩
  · exact Action.writeBelow_leaves ran

end VersionIndex
end Launcher
