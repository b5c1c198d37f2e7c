import Launcher.Proofs.Metadata.Places
import Launcher.Proofs.Versions.Snapshot

/-! What looking something up can come to in an index that the server gave, whatever is in it. The
list of versions is checked before it is used. What tells of the latest versions is not, and an
integer with too many digits ends the reading of any document: nothing else leads to a fault that is
not documented, or to a latest version whose name is no text. -/
namespace Launcher

/-- The faults that looking up a version is documented to end with, once the index is there: a
document is not as it must be, or a version is not listed. -/
def Fault.isForeseen : Fault → Bool
  | .document _ | .versionNotFound _ => true
  | _ => false

/-- What an operation comes to is a result or a documented fault. -/
def EndsForeseen {α : Type} (result : Except Fault α) : Prop :=
  ∀ e, result = .error e → e.isForeseen

section EndsForeseen
variable {α β : Type}

theorem endsForeseen_ok (value : α) : EndsForeseen (.ok value) := nofun

theorem endsForeseen_error {e : Fault} :
    EndsForeseen (.error e : Except Fault α) ↔ e.isForeseen := by
  constructor
  · intro ends
    exact ends e rfl
  · rintro foreseen _ ⟨⟩
    exact foreseen

instance : (result : Except Fault α) → Decidable (EndsForeseen result)
  | .ok value => .isTrue (endsForeseen_ok value)
  | .error _ => decidable_of_iff _ endsForeseen_error.symm

theorem endsForeseen_bind {first : Except Fault α} {next : α → Except Fault β} :
    EndsForeseen (first >>= next) ↔
      EndsForeseen first ∧ ∀ value, first = .ok value → EndsForeseen (next value) := by
  cases first with
  | error e =>
    constructor
    · intro ends
      exact ⟨endsForeseen_error.mpr (ends e rfl), nofun⟩
    · rintro ⟨ends, _⟩
      exact endsForeseen_error.mpr (endsForeseen_error.mp ends)
  | ok value =>
    constructor
    · intro ends
      refine ⟨nofun, ?_⟩
      rintro _ ⟨⟩
      exact ends
    · intro ends
      exact ends.2 value rfl

end EndsForeseen

/-- An integer in the body of a response has more digits than one may have. -/
def Response.Overflows (response : Response) : Prop :=
  ∃ digits, Json.parse response.data = .error (.integerTooLong digits)

/-- What the body of a response tells of the latest versions. -/
def Response.Latest (response : Response) (value : Json) : Prop :=
  ∃ body : Members, Json.parse response.data = .ok (.object body) ∧
    body.get? "latest" = some value

/-- If the body of a response tells of the latest versions, then in an object. -/
def Response.TellsLatest (response : Response) : Prop :=
  ∀ value, response.Latest value → ∃ names, value = .object names

/-- If the body of a response names the latest version of a kind, then by a text. -/
def Response.NamesLatest (response : Response) (kind : String) : Prop :=
  ∀ (names : Members) value, response.Latest (.object names) → names.get? kind = some value →
    value = .null ∨ value.IsText

/-- If the name of a latest version was found, it is a text. -/
def IsNamedByText (result : Except Fault (Json × Bool)) : Prop :=
  ∀ name, result = .ok (name, true) → name.IsText

theorem isNamedByText_ok {name : Json} : IsNamedByText (.ok (name, true)) ↔ name.IsText := by
  constructor
  · intro named
    exact named name rfl
  · rintro text _ ⟨⟩
    exact text

instance : (result : Except Fault (Json × Bool)) → Decidable (IsNamedByText result)
  | .error _ | .ok (_, false) => .isTrue nofun
  | .ok (_, true) => decidable_of_iff _ isNamedByText_ok.symm

namespace VersionIndex

/-- The content of an index is that of a response, which came earlier, or comes now that the index
is asked for. Neither what is kept of it, nor keeping it, stands in the way. -/
inductive IsServed (w : World) (response : Response) : Prop
  | before {data : Members} (known : w.index.data = some data)
      (read : ofResponse response = .ok data)
  | now {old : Option Members} {network : Network} (unknown : w.index.data = none)
      (kept : keptIn w.files w.index.cache = .ok old) (asked : ask w old = (.ok response, network))
      (keeps : ∀ data, ofResponse response = .ok data →
        ∃ left, (keep data).run.run { w with network } = (.ok (), left))

section Served
variable {w : World} {response : Response} {data : Members}

theorem IsServed.load_run (served : IsServed w response) :
    ∃ left, load.run.run w = (ofResponse response, left) := by
  cases served with
  | before known read => exact ⟨w, by rw [load_known known, read]⟩
  | now unknown kept asked keeps =>
    have loads := load_loads unknown
    rcases loading : load.run.run w with ⟨result, left⟩
    rw [loading] at loads
    refine ⟨left, congrArg (·, left) ?_⟩
    simp only at loads
    cases loads with
    | unreadable kept' => cases kept.symm.trans kept'
    | refused kept' asked' | excused kept' asked' =>
      cases kept.symm.trans kept'
      cases asked.symm.trans asked'
    | unusable kept' asked' read | fetched kept' asked' read =>
      cases kept.symm.trans kept'
      cases asked.symm.trans asked'
      exact read.symm
    | unkept kept' asked' read put =>
      cases kept.symm.trans kept'
      cases asked.symm.trans asked'
      obtain ⟨_, keeps⟩ := keeps _ read
      cases put.symm.trans keeps

theorem endsForeseen_ofResponse : EndsForeseen (ofResponse response) ↔ ¬ response.Overflows := by
  unfold ofResponse Response.Overflows
  rw [endsForeseen_bind, and_iff_left fun body _ => by split <;> exact endsForeseen_ok _,
    readDocument]
  rcases Json.parse response.data with (_ | _ | digits) | value
  case error.integerTooLong => simp [endsForeseen_error, Fault.isForeseen]
  case error.malformed | error.undecodable => simp [endsForeseen_error, Fault.isForeseen]
  case ok => cases value <;> simp [endsForeseen_error, endsForeseen_ok, Fault.isForeseen]

/-- The time of the last change does not touch what is told of the latest versions. -/
theorem ofResponse_latest (read : ofResponse response = .ok data) :
    ∃ body : Members, Json.parse response.data = .ok (.object body) ∧
      data.get? "latest" = body.get? "latest" := by
  obtain ⟨body, parsed, rfl⟩ := ofResponse_ok.mp read
  refine ⟨body, parsed, ?_⟩
  split
  · exact Members.get?_insert_of_ne (by decide)
  · rfl

theorem latest_iff {value : Json} : response.Latest value ↔
    ∃ data, ofResponse response = .ok data ∧ data.get? "latest" = some value := by
  constructor
  · rintro ⟨body, parsed, told⟩
    have read := ofResponse_ok.mpr ⟨body, parsed, rfl⟩
    obtain ⟨body', parsed', same⟩ := ofResponse_latest read
    cases parsed.symm.trans parsed'
    exact ⟨_, read, same.trans told⟩
  · rintro ⟨data, read, told⟩
    obtain ⟨body, parsed, same⟩ := ofResponse_latest read
    exact ⟨body, parsed, same.symm.trans told⟩

/-- What reads the index comes to what it makes of the response. -/
theorem ReadsIndex.run_served {α : Type} {action : Action α} (reads : ReadsIndex action)
    (served : IsServed w response) :
    (action.run.run w).1 =
      ofResponse response >>= fun data => (action.run.run (knowing data)).1 := by
  obtain ⟨left, loading⟩ := served.load_run
  rcases read : ofResponse response with e | data
  · rw [read] at loading
    rw [reads.failed loading]
    rfl
  · rw [read] at loading
    rw [reads.loaded loading]
    rfl

theorem ReadsIndex.endsForeseen_iff {α : Type} {action : Action α} (reads : ReadsIndex action)
    (served : IsServed w response) :
    EndsForeseen (action.run.run w).1 ↔ ¬ response.Overflows ∧
      ∀ data, ofResponse response = .ok data →
        EndsForeseen (action.run.run (knowing data)).1 := by
  rw [reads.run_served served, endsForeseen_bind, endsForeseen_ofResponse]

end Served

section Content
variable (data : Members) {version : String}

/-- A list of versions that is not as it must be is a documented fault, however it differs. -/
theorem entries_knowing : EndsForeseen (entries.run.run (knowing data)).1 := by
  rw [entries, run_bind, load_knowing]
  simp only [Action.ofExcept_run]
  intro e failed
  obtain ⟨_, _, rfl⟩ := mapError_error failed
  trivial

theorem find?_knowing (version : String) :
    EndsForeseen ((find? version).run.run (knowing data)).1 := by
  have ends := entries_knowing data
  rw [find?, run_bind]
  generalize entries.run.run (knowing data) = outcome at ends ⊢
  obtain ⟨e | listed, left⟩ := outcome
  · exact endsForeseen_error.mpr (endsForeseen_error.mp ends)
  · exact endsForeseen_ok _

theorem latest_knowing (kind : isAlias version = true) :
    ((latest version).run.run (knowing data)).1 =
      match (data.get? "latest").getD (.object []) with
      | .object names =>
        match Members.getD names version with
        | .null => .ok (.string version, false)
        | name => .ok (name, true)
      | _ => .error .latestNotObject := by
  unfold latest
  simp only [kind, Bool.not_true, Bool.false_eq_true, if_false]
  rw [run_bind, load_knowing]
  simp only
  rcases (data.get? "latest").getD (.object []) with _ | _ | _ | _ | _ | _ | names
  case object =>
    simp only
    cases Members.getD names version <;> rfl
  all_goals rfl

theorem endsForeseen_latest (kind : isAlias version = true) :
    EndsForeseen ((latest version).run.run (knowing data)).1 ↔
      ∀ value, data.get? "latest" = some value → ∃ names, value = .object names := by
  rw [latest_knowing data kind]
  rcases data.get? "latest" with _ | value
  · simp [Members.getD, Members.get?, endsForeseen_ok]
  · cases value with
    | object names =>
      simp only [Option.getD_some]
      constructor
      · rintro _ _ ⟨⟩
        exact ⟨names, rfl⟩
      · intro _
        split <;> exact endsForeseen_ok _
    | _ => simp [endsForeseen_error, Fault.isForeseen]

theorem latest_named_iff (kind : isAlias version = true) :
    IsNamedByText ((latest version).run.run (knowing data)).1 ↔
      ∀ (names : Members) value, data.get? "latest" = some (.object names) →
        names.get? version = some value → value = .null ∨ value.IsText := by
  rw [latest_knowing data kind]
  rcases data.get? "latest" with _ | value
  · exact ⟨nofun, nofun⟩
  · cases value with
    | object names =>
      simp only [Option.getD_some, Members.getD, Option.some.injEq, Json.object.injEq]
      constructor
      · rintro text _ value rfl named
        rw [named] at text
        cases value with
        | null => exact .inl rfl
        | _ => exact .inr (isNamedByText_ok.mp text)
      · intro text name resolved
        split at resolved
        · cases resolved
        · rename_i unset
          cases resolved
          rcases named : Members.get? names version with _ | value
          · exact absurd (by rw [named]; rfl) unset
          · rcases text names value rfl named with rfl | ⟨id, rfl⟩
            · exact absurd (by rw [named]; rfl) unset
            · exact ⟨id, rfl⟩
    | _ => simp [IsNamedByText]

end Content

section Lookup
variable {w : World} {response : Response}

/-- Resolving a version fails as its entry is looked for, or with the entry alone. -/
theorem metadata_foreseen_iff (version : String) (file : Path) :
    (∀ e, ((metadata version file).run.run w).1 = .error e → e.isForeseen ∨
        ∃ entry left after, (find? version).run.run w = (.ok (some entry), left) ∧
          Resolves s!"version {version}" file entry left (.error e) after) ↔
      EndsForeseen ((find? version).run.run w).1 := by
  rcases found : (find? version).run.run w with ⟨e | _ | entry, left⟩
  · rw [metadata_of_failed found]
    constructor
    · intro each
      rcases each e rfl with foreseen | ⟨_, _, _, ⟨⟩, _⟩
      exact endsForeseen_error.mpr foreseen
    · rintro ends _ ⟨⟩
      exact .inl (endsForeseen_error.mp ends)
  · rw [metadata_of_unlisted found]
    refine ⟨fun _ => endsForeseen_ok _, ?_⟩
    rintro _ _ ⟨⟩
    exact .inl rfl
  · refine ⟨fun _ => endsForeseen_ok _, ?_⟩
    intro _ e failed
    have resolves := @metadata_resolves _ version file _ _ found
    rw [failed] at resolves
    exact .inr ⟨entry, left, _, rfl, resolves⟩

theorem latest_foreseen_iff (served : IsServed w response) (version : String) :
    EndsForeseen ((latest version).run.run w).1 ↔
      (isAlias version = true → ¬ response.Overflows ∧ response.TellsLatest) := by
  cases kind : isAlias version with
  | false =>
    rw [latest_of_not_isAlias kind]
    exact ⟨nofun, fun _ => endsForeseen_ok _⟩
  | true =>
    rw [(ReadsIndex.latest kind).endsForeseen_iff served, forall_prop_of_true rfl]
    refine and_congr_right fun _ => ?_
    simp only [endsForeseen_latest _ kind]
    constructor
    · intro each value told
      obtain ⟨data, read, told⟩ := latest_iff.mp told
      exact each data read value told
    · intro tells data read value told
      exact tells value (latest_iff.mpr ⟨data, read, told⟩)

theorem isNamedByText_latest_iff (served : IsServed w response) (version : String) :
    IsNamedByText ((latest version).run.run w).1 ↔
      (isAlias version = true → response.NamesLatest version) := by
  cases kind : isAlias version with
  | false =>
    rw [latest_of_not_isAlias kind]
    exact ⟨nofun, nofun⟩
  | true =>
    rw [forall_prop_of_true rfl, (ReadsIndex.latest kind).run_served served]
    constructor
    · intro text names value told
      obtain ⟨data, read, told⟩ := latest_iff.mp told
      rw [read] at text
      exact (latest_named_iff data kind).mp text names value told
    · intro text name resolved
      obtain ⟨data, read, resolved⟩ := bind_ok resolved
      refine (latest_named_iff data kind).mpr ?_ name resolved
      intro names value told
      exact text names value (latest_iff.mpr ⟨data, read, told⟩)

/-- Looking something up in an index that the server gave comes to a result or a documented fault,
but for an integer with too many digits; what is listed in it may be anything. The same goes for the
latest version of a kind if what tells of the latest versions is an object, and only then. The name
of a latest version is a text exactly if what stands for it in the index is one. -/
theorem lookup_foreseen (served : IsServed w response) (version : String) (file : Path) :
    (EndsForeseen (entries.run.run w).1 ↔ ¬ response.Overflows) ∧
    (EndsForeseen ((find? version).run.run w).1 ↔ ¬ response.Overflows) ∧
    ((∀ e, ((metadata version file).run.run w).1 = .error e → e.isForeseen ∨
        ∃ entry left after, (find? version).run.run w = (.ok (some entry), left) ∧
          Resolves s!"version {version}" file entry left (.error e) after) ↔
      ¬ response.Overflows) ∧
    (EndsForeseen ((latest version).run.run w).1 ↔
      (isAlias version = true → ¬ response.Overflows ∧ response.TellsLatest)) ∧
    (IsNamedByText ((latest version).run.run w).1 ↔
      (isAlias version = true → response.NamesLatest version)) := by
  have found : EndsForeseen ((find? version).run.run w).1 ↔ ¬ response.Overflows := by
    rw [(ReadsIndex.find? version).endsForeseen_iff served]
    exact and_iff_left fun data _ => find?_knowing data version
  refine ⟨?_, found, (metadata_foreseen_iff version file).trans found,
    latest_foreseen_iff served version, isNamedByText_latest_iff served version⟩
  rw [ReadsIndex.entries.endsForeseen_iff served]
  exact and_iff_left fun data _ => entries_knowing data

end Lookup

/-- A server whose index is a text. -/
def serving (body : String) : World where
  files := .empty
  network := ⟨[("http://h/m", [.response 200 [] (Bytes.ofText body) none])], [], 0⟩
  index := unknown none "http://h/m"

theorem isServed_serving {body : String} {response : Response}
    (answered : (ask (serving body) none).1.toOption = some response) :
    IsServed (serving body) response := by
  rcases asked : ask (serving body) none with ⟨_ | reply, network⟩
  · rw [asked] at answered
    cases answered
  · rw [asked] at answered
    cases answered
    exact @IsServed.now _ _ none network rfl rfl asked fun _ _ => ⟨_, rfl⟩

/-- The list of versions is not as it must be, which is foreseen. -/
theorem lookup_foreseen_misshapen :
    let body := "\x7b\"latest\":\x7b\"release\":\"1\"\x7d,\"versions\":[\x7b\"id\":5\x7d]\x7d"
    let w := serving body
    let response : Response := ⟨200, Bytes.ofText body, []⟩
    IsServed w response ∧ ¬ response.Overflows ∧ (entries.run.run w).1.toBool = false ∧
      EndsForeseen (entries.run.run w).1 ∧ EndsForeseen ((find? "1").run.run w).1 := by
  intro body w response
  have served : IsServed w response := isServed_serving (by decide +kernel)
  have short : ¬ response.Overflows := endsForeseen_ofResponse.mp (by decide +kernel)
  obtain ⟨listing, finding, _⟩ := lookup_foreseen served "1" (.ofText "1.json")
  exact ⟨served, short, by decide +kernel, listing.mpr short, finding.mpr short⟩

/-- What tells of the latest versions is a list, or names one by an integer. -/
theorem latest_unforeseen :
    let list := "\x7b\"latest\":[]\x7d"
    let number := "\x7b\"latest\":\x7b\"release\":5\x7d\x7d"
    (∃ body, Json.parse (Bytes.ofText list) = .ok (.object body)) ∧
    (∃ body, Json.parse (Bytes.ofText number) = .ok (.object body)) ∧
      IsServed (serving list) ⟨200, Bytes.ofText list, []⟩ ∧
      IsServed (serving number) ⟨200, Bytes.ofText number, []⟩ ∧
      ¬ EndsForeseen ((latest "release").run.run (serving list)).1 ∧
      ¬ IsNamedByText ((latest "release").run.run (serving number)).1 := by
  intro list number
  have parsed {text : String} (read : (readDocument "" (Bytes.ofText text)).toBool) :
      ∃ body, Json.parse (Bytes.ofText text) = .ok (.object body) := by
    obtain ⟨body, read⟩ := exists_ok_of_toBool read
    exact ⟨body, readDocument_ok.mp read⟩
  refine ⟨parsed (by decide +kernel), parsed (by decide +kernel),
    isServed_serving (by decide +kernel), isServed_serving (by decide +kernel),
    by decide +kernel, by decide +kernel⟩

end VersionIndex
end Launcher
