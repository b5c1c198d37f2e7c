import Launcher.Proofs.Versions.Snapshot

/-! What is kept of the index when that is no index: bytes that are no text, text that is no JSON,
documents that are no objects. Loading goes on as if nothing were kept and replaces the file, unless
reading the file stops at one of two faults, which then end it before anything is asked for. -/
namespace Launcher

namespace FileTree
variable {tree left : FileTree} {p : Path}

theorem insert_erase (tree : FileTree) (l : Location) (entry : FileEntry) :
    (tree.erase l).insert l entry = tree.insert l entry := by
  simp [insert, erase]

/-- To write a file that was taken away comes to overwriting it. -/
theorem HasFile.write_unlink (present : tree.HasFile p) (taken : tree.unlink p = .ok left)
    (content : Bytes) : left.write p content = tree.write p content := by
  obtain ⟨nul, way, _⟩ := hasFile_iff.mp present
  have reached := resolve_mono (unlink_keepsDirectories taken) way
  have free : left.get? p.location = none := by rw [get?_unlink taken, if_pos rfl]
  have again : left.write p content = .ok (left.insert p.location (.file content)) := by
    simp [FileTree.write, target, nul, reached, free, Except.map]
  rw [again, present.write, (unlink_ok taken).2, insert_erase]

/-- The directory of a file is there, whether the file is taken away or not. -/
theorem HasFile.housed (present : tree.HasFile p) (named : p.parts ≠ []) :
    tree.isDirectory p.parent = .ok true :=
  have ⟨nul, way, _⟩ := hasFile_iff.mp present
  isDirectory_parent nul way named

end FileTree

/-- Putting a file to its place after it was taken away leaves what overwriting it leaves. -/
theorem Action.writeBelow_unlink {w : World} {p : Path} {left : FileTree}
    (present : w.files.HasFile p) (named : p.parts ≠ []) (taken : w.files.unlink p = .ok left)
    (content : Bytes) :
    (writeBelow p content).run.run { w with files := left } = (writeBelow p content).run.run w := by
  have housed := present.housed named
  have still := FileTree.isDirectory_mono (FileTree.unlink_keepsDirectories taken) housed
  rw [writeBelow_run, writeBelow_run, FileTree.makeDirectories_of_isDirectory housed,
    FileTree.makeDirectories_of_isDirectory still]
  simp only [present.write_unlink taken, present.write]

namespace VersionIndex

/-- The bytes are not the UTF-8 text of an object. -/
def IsDamaged (bytes : Bytes) : Prop :=
  ∀ text members, Encoding.utf8.decode false 0 bytes = .ok text →
    Json.parseText text ≠ .ok (.object members)

/-- The faults at which reading a kept index stops: it is no UTF-8, or an integer in it has too many
digits. All else that can be wrong with it makes it count as none. -/
inductive Stops (bytes : Bytes) : Fault → Prop
  | undecodable {e : DecodingError} : Encoding.utf8.decode false 0 bytes = .error e →
      Stops bytes (.undecodable bytes e)
  | tooLong {text : List Char} {digits : Nat} : Encoding.utf8.decode false 0 bytes = .ok text →
      Json.parseText text = .error (.integerTooLong digits) → Stops bytes (.integerTooLong digits)

section Reading
variable {bytes : Bytes}

theorem ofKept_of_stops {e : Fault} (stops : Stops bytes e) : ofKept bytes = .error e := by
  cases stops with
  | undecodable failed => simp only [ofKept, failed]
  | tooLong decoded failed => simp only [ofKept, decoded, failed]

/-- What is damaged counts as none, or stops the reading. -/
theorem ofKept_of_isDamaged (damaged : IsDamaged bytes) :
    ofKept bytes = .ok none ∨ ∃ e, Stops bytes e := by
  rcases decoded : Encoding.utf8.decode false 0 bytes with e | text
  · exact .inr ⟨_, .undecodable decoded⟩
  · rcases parsed : Json.parseText text with (_ | _ | digits) | value
    case error.integerTooLong => exact .inr ⟨_, .tooLong decoded parsed⟩
    case error.malformed | error.undecodable => exact .inl (by simp only [ofKept, decoded, parsed])
    case ok =>
      cases value with
      | object members => exact absurd parsed (damaged text members decoded)
      | _ => exact .inl (by simp only [ofKept, decoded, parsed])

end Reading

section Load
variable {w : World}

/-- Loading an index that is neither known nor kept. -/
theorem load_of_unkept (unknown : w.index.data = none)
    (kept : keptIn w.files w.index.cache = .ok none) :
    load.run.run w =
      match (ask w none).1 with
      | .error e => (.error (.ofFetch e), { w with network := (ask w none).2 })
      | .ok response =>
        match ofResponse response with
        | .error e => (.error e, { w with network := (ask w none).2 })
        | .ok data =>
          match (keep data).run.run { w with network := (ask w none).2 } with
          | (.error e, left) => (.error e, left)
          | (.ok (), left) => (learn data).run.run left := by
  rw [load, run_bind, run_get]
  simp only [unknown]
  rw [run_bind, kept_run, kept]
  simp only [run_bind, run_get, Action.tryFetch_run]
  rcases asked : ask w none with ⟨reply, network⟩
  have fetched : w.network.fetch w.index.url (conditions none) jsonType none = (reply, network) :=
    asked
  rw [fetched]
  rcases reply with e | response
  · cases e <;> rfl
  · simp only [run_bind, Action.ofExcept_run]
    rcases ofResponse response with e | data
    · rfl
    · simp only [Except.mapError]
      rcases (keep data).run.run { w with network } with ⟨e | _, left⟩ <;> rfl

theorem keep_run {file : Path} (cached : w.index.cache = some file) (data : Members) :
    (keep data).run.run w = (Action.writeBelow file (keptBytes data)).run.run w := by
  rw [keep, run_bind, run_get]
  simp only [cached]
  rfl

/-- An index is kept in a file that is there already. -/
theorem keep_of_present {file : Path} (cached : w.index.cache = some file)
    (present : w.files.HasFile file) (named : file.parts ≠ []) (data : Members) :
    ∃ files, (keep data).run.run w = (.ok (), { w with files }) ∧
      files.read file = .ok (keptBytes data) := by
  have wrote := present.write (keptBytes data)
  refine ⟨_, ?_, FileTree.read_write wrote⟩
  rw [keep_run cached, Action.writeBelow_run,
    FileTree.makeDirectories_of_isDirectory (present.housed named)]
  simp only [wrote]

/-- Loading an index of which something damaged is kept. If reading it does not stop, the same is
asked for and comes back as without the file, which holds the new index afterwards if there is
one. -/
theorem load_damaged {file : Path} {bytes : Bytes} {left : FileTree} (named : file.parts ≠ [])
    (unknown : w.index.data = none) (cached : w.index.cache = some file)
    (read : w.files.read file = .ok bytes) (damaged : IsDamaged bytes)
    (taken : w.files.unlink file = .ok left) :
    let kept := load.run.run w
    let absent := load.run.run { w with files := left }
    (∀ e, Stops bytes e → kept = (.error e, w)) ∧
    ((∀ e, ¬ Stops bytes e) →
      kept.1 = absent.1 ∧ kept.2.network = absent.2.network ∧ kept.2.index = absent.2.index ∧
      (∀ data, kept.1 = .ok data →
        kept.2 = absent.2 ∧ kept.2.files.read file = .ok (keptBytes data)) ∧
      ∀ e, kept.1 = .error e → kept.2.files = w.files ∧ absent.2.files = left) := by
  intro kept absent
  have present := FileTree.hasFile_of_read read
  have there : keptIn w.files w.index.cache = ofKept bytes := by
    rw [cached, keptIn_of_read read]
  refine ⟨fun e stops => load_unreadable unknown (there.trans (ofKept_of_stops stops)), ?_⟩
  intro readable
  have ignored : keptIn w.files w.index.cache = .ok none := by
    rcases ofKept_of_isDamaged damaged with ignored | ⟨e, stops⟩
    · exact there.trans ignored
    · exact absurd stops (readable e)
  have gone : keptIn left w.index.cache = .ok none := by
    have nul := (FileTree.hasFile_iff.mp present).1
    have absent : ¬ left.HasFile file := by
      intro still
      obtain ⟨content, held⟩ := (FileTree.hasFile_iff.mp still).2.2
      simp [FileTree.get?_unlink taken] at held
    rw [cached, keptIn_of_absent absent, nul]
    rfl
  -- Both ask for the same, and differ in what the file holds until the new index is put there.
  have first : kept = _ := load_of_unkept unknown ignored
  have second : absent = _ := load_of_unkept (w := { w with files := left }) unknown gone
  have same : ask { w with files := left } none = ask w none := rfl
  rw [same] at second
  rw [first, second]
  rcases ask w none with ⟨e | response, network⟩
  · exact ⟨rfl, rfl, rfl, nofun, fun _ _ => ⟨rfl, rfl⟩⟩
  · rcases brought : ofResponse response with e | data
    · simp only [brought]
      exact ⟨trivial, trivial, trivial, nofun, fun _ _ => ⟨trivial, trivial⟩⟩
    · obtain ⟨files, put, reads⟩ :=
        keep_of_present (w := { w with network }) cached present named data
      have anew : (keep data).run.run { w with files := left, network } =
          (.ok (), { w with files, network }) := by
        rw [keep_run (w := { w with files := left, network }) cached,
          Action.writeBelow_unlink (w := { w with network }) present named taken,
          ← keep_run (w := { w with network }) cached, put]
      simp only [brought, put, anew, learn_run]
      refine ⟨trivial, trivial, trivial, ?_, nofun⟩
      rintro _ ⟨⟩
      exact ⟨trivial, reads⟩

end Load

/-- The files where something else than an index is kept, without it. -/
theorem unlink_filesKeeping (bytes : Bytes) :
    (filesKeeping bytes).unlink (.ofText "index.json") = .ok .empty := by
  have taken : (filesKeeping bytes).unlink (.ofText "index.json") =
      .ok ((filesKeeping bytes).erase (FileTree.workingDirectory ++ ["index.json"])) := rfl
  rw [taken]
  rfl

/-- A list is kept in place of the index, which is fetched and replaces it. -/
theorem load_damaged_list :
    let w := (Inquiry.served (filesKeeping (Bytes.ofText "[]"))).world remote
    IsDamaged (Bytes.ofText "[]") ∧ (∀ e, ¬ Stops (Bytes.ofText "[]") e) ∧
      w.files.unlink (.ofText "index.json") = .ok .empty ∧
      (load.run.run w).1 = (load.run.run { w with files := .empty }).1 ∧
      ∃ data, (load.run.run w).2.files.read (.ofText "index.json") = .ok (keptBytes data) := by
  intro w
  have decoded : Encoding.utf8.decode false 0 (Bytes.ofText "[]") = .ok ['[', ']'] := by rfl
  have parsed : Json.parseText ['[', ']'] = .ok (.list []) := by rfl
  have damaged : IsDamaged (Bytes.ofText "[]") := by
    intro text members decoded' parsed'
    cases decoded.symm.trans decoded'
    cases parsed.symm.trans parsed'
  have readable : ∀ e, ¬ Stops (Bytes.ofText "[]") e := by
    intro e stops
    cases stops with
    | undecodable failed => cases decoded.symm.trans failed
    | tooLong decoded' failed =>
      cases decoded.symm.trans decoded'
      cases parsed.symm.trans failed
  have read : w.files.read (.ofText "index.json") = .ok (Bytes.ofText "[]") := by decide +kernel
  have taken : w.files.unlink (.ofText "index.json") = .ok .empty := unlink_filesKeeping _
  obtain ⟨_, harmless⟩ := load_damaged (w := w) (by decide) rfl rfl read damaged taken
  obtain ⟨same, _, _, replaced, _⟩ := harmless readable
  have succeeds : (load.run.run w).1.toBool = true := by decide +kernel
  obtain ⟨data, loaded⟩ := exists_ok_of_toBool succeeds
  exact ⟨damaged, readable, taken, same, data, (replaced data loaded).2⟩

/-- A byte that no text has ends the loading of an index that would succeed without it. -/
theorem undecodable_index_stops :
    let w := (Inquiry.served (filesKeeping [0xff])).world remote
    IsDamaged [0xff] ∧ w.files.read (.ofText "index.json") = .ok [0xff] ∧
      w.files.unlink (.ofText "index.json") = .ok .empty ∧
      (load.run.run w).1.toBool = false ∧ (load.run.run w).2.network.log = [] ∧
      (load.run.run { w with files := .empty }).1.toBool = true := by
  intro w
  have damaged : IsDamaged [0xff] := by
    intro text members decoded
    cases decoded
  have ended : (load.run.run w).1.toBool = false ∧ (load.run.run w).2.network.log.length = 0 ∧
      (load.run.run { w with files := .empty }).1.toBool = true := by decide +kernel
  have unasked := List.eq_nil_of_length_eq_zero ended.2.1
  exact ⟨damaged, by decide +kernel, unlink_filesKeeping _, ended.1, unasked, ended.2.2⟩

end VersionIndex
end Launcher
