import Launcher.Proofs.Install.Inventory
import Launcher.Proofs.World.Writing

/-! Assets indexes that are rejected. An index is put to its file once it is known to be an object,
before its objects are looked at. So an index that is no object is fetched again, but one that is an
object and lists no assets is found in its file from then on, whatever the server has. -/
namespace Launcher

/-- The fault of a document that is not as it should be. -/
def Fault.IsDocument : Fault → Prop
  | .document _ => True
  | _ => False

namespace Fault

@[simp] theorem not_isDocument_ofAccess (e : AccessError) : ¬ (ofAccess e).IsDocument := by
  cases e <;> exact id

@[simp] theorem not_isDocument_ofFetch (e : FetchError) : ¬ (ofFetch e).IsDocument := by
  cases e with
  | connection fault => cases fault <;> exact id
  | _ => exact id

@[simp] theorem not_isDocument_ofAdd (e : AddError) : ¬ (ofAdd e).IsDocument := by
  cases e <;> exact id

end Fault

/-- An entry can be added to any list of downloads. -/
structure DownloadEntry.IsAddable (entry : DownloadEntry) (files : FileTree) : Prop where
  seen : ∃ present, files.isFile entry.destination = .ok present
  target : ∃ target, DownloadTarget.ofUrl entry.url = .ok target

theorem DownloadEntry.IsAddable.add {entry : DownloadEntry} {files : FileTree}
    (addable : entry.IsAddable files) (list : DownloadList) :
    ∃ added, list.add files entry true = .ok added := by
  obtain ⟨⟨present, seen⟩, target, read⟩ := addable
  unfold DownloadList.add
  split
  · exact ⟨_, rfl⟩
  · simp only [DownloadList.isPresent, if_true, seen, read]
    cases present with
    | true => exact ⟨_, rfl⟩
    | false => exact ⟨_, rfl⟩

namespace InstallPlan

/-- Whether an object is one of an assets index does not depend on where it is. -/
theorem AssetObject.parse_elsewhere {v : Json} {place : Place} {object : AssetObject}
    (parsed : AssetObject.parse v place = .ok object) (other : Place) :
    AssetObject.parse v other = .ok object := by
  obtain ⟨members, isObject, parsed⟩ := bind_ok parsed
  obtain rfl := Json.asObject_ok.mp isObject
  simp only [AssetObject.parse, Json.asObject, bind, Except.bind, pure, Except.pure] at parsed ⊢
  generalize members.getD "hash" = hash, members.getD "size" = size at parsed ⊢
  cases hash with
  | string hash =>
    simp only at parsed ⊢
    by_cases digest : isSha1 hash
    · simp only [digest, if_true] at parsed ⊢
      cases size with
      | null | int | bool => exact parsed
      | _ => cases parsed
    · simp only [digest, Bool.false_eq_true, if_false] at parsed
      cases parsed
  | _ => cases parsed

/-- Where an assets index is kept. -/
def indexFile (assetsDir : Path) (version : String) : Path :=
  assetsDir / "indexes" / (version ++ ".json")

/-- There is nothing at the place of a file. -/
def IsMissing (files : FileTree) (file : Path) : Prop :=
  ∃ p, files.read file = .error (.system (.file .notFound p))

/-- Where the metadata say that the assets index is, and its digest if they know it. -/
structure IsSource (info : Members) (url : String) (sha1 : Option String) : Prop where
  url : info.getD "url" = .string url
  sha1 : DownloadEntry.parseSha1 (info.getD "sha1")
    ((metadataPlace.member "assetIndex").member "sha1") = .ok sha1

section Fetching
variable {info : Members} {version : String} {file : Path} {w : World} {url : String}
  {sha1 : Option String}

/-- An assets index that is not kept is fetched, and put to its file if it is an object. -/
theorem assetsIndex_run (missing : IsMissing w.files file) (source : IsSource info url sha1) :
    (assetsIndex info version file).run.run w =
      match w.network.fetch url [] jsonType sha1 with
      | (.error e, network) => (.error (.ofFetch e), { w with network })
      | (.ok response, network) =>
        match readDocument (documentName version) response.data with
        | .error e => (.error e, { w with network })
        | .ok index =>
          match (Action.writeBelow file response.data).run.run { w with network } with
          | (.error e, left) => (.error e, left)
          | (.ok (), left) => (.ok index, left) := by
  obtain ⟨p, missing⟩ := missing
  rw [assetsIndex, run_bind, run_get]
  simp only [missing, run_bind, source.url, Json.asString, Action.ofExcept_run, Except.mapError,
    source.sha1, Action.fetch_run]
  rcases w.network.fetch url [] jsonType sha1 with ⟨e | response, network⟩
  · rfl
  · simp only
    rcases readDocument (documentName version) response.data with e | index
    · rfl
    · simp only
      rcases (Action.writeBelow file response.data).run.run { w with network } with ⟨e | _, left⟩
      · rfl
      · rfl

/-- Unless an assets index is kept, it is fetched from where the metadata say, or there is at once a
fault that is not about it. -/
theorem assetsIndex_cases (absent : ¬ w.files.HasFile file) :
    (IsMissing w.files file ∧ ∃ url sha1, IsSource info url sha1) ∨
    ∃ e, ¬ e.IsDocument ∧ (assetsIndex info version file).run.run w = (.error e, w) := by
  rcases read : w.files.read file with e | bytes
  · by_cases missing : ∃ p, e = .system (.file .notFound p)
    · obtain ⟨p, rfl⟩ := missing
      rcases located : (info.getD "url").asString
        ((metadataPlace.member "assetIndex").member "url") with e | url
      · refine .inr ⟨.malformed e, id, ?_⟩
        rw [assetsIndex, run_bind, run_get]
        simp only [read, run_bind, located, Action.ofExcept_run, Except.mapError]
      rcases digest : DownloadEntry.parseSha1 (info.getD "sha1")
        ((metadataPlace.member "assetIndex").member "sha1") with e | sha1
      · refine .inr ⟨.malformed e, id, ?_⟩
        rw [assetsIndex, run_bind, run_get]
        simp only [read, run_bind, located, Action.ofExcept_run, Except.mapError, digest]
      · exact .inl ⟨⟨p, read⟩, url, sha1, Json.asString_ok.mp located, digest⟩
    · refine .inr ⟨.ofAccess e, Fault.not_isDocument_ofAccess e, ?_⟩
      rw [assetsIndex, run_bind, run_get]
      simp only [read]
      split
      · rename_i found
        cases found
      · rename_i found
        cases found
        exact absurd ⟨_, rfl⟩ missing
      · rename_i found
        cases found
        rfl
  · exact absurd (FileTree.hasFile_of_read read) absent

/-- What finding an assets index that is not kept can come to. -/
inductive Finds (info : Members) (version : String) (file : Path) (w : World) :
    Except Fault Members → World → Prop
  /-- There is a fault that is not about the index. -/
  | failed {e : Fault} {left : World} (other : ¬ e.IsDocument) :
      Finds info version file w (.error e) left
  /-- The response is no index, and is not kept. -/
  | rejected {url : String} {sha1 : Option String} {response : Response} {network : Network}
      {e : Fault} (missing : IsMissing w.files file) (source : IsSource info url sha1)
      (fetched : w.network.fetch url [] jsonType sha1 = (.ok response, network))
      (read : readDocument (documentName version) response.data = .error e) :
      Finds info version file w (.error e) { w with network }
  /-- The response is an object, and is kept. -/
  | found {url : String} {sha1 : Option String} {response : Response} {network : Network}
      {index : Members} {left : World} (source : IsSource info url sha1)
      (fetched : w.network.fetch url [] jsonType sha1 = (.ok response, network))
      (read : readDocument (documentName version) response.data = .ok index)
      (put : (Action.writeBelow file response.data).run.run { w with network } = (.ok (), left)) :
      Finds info version file w (.ok index) left

theorem assetsIndex_finds (absent : ¬ w.files.HasFile file) :
    Finds info version file w ((assetsIndex info version file).run.run w).1
      ((assetsIndex info version file).run.run w).2 := by
  obtain ⟨missing, url, sha1, source⟩ | ⟨e, other, ran⟩ :=
    @assetsIndex_cases info version file w absent
  · rw [assetsIndex_run missing source]
    rcases fetched : w.network.fetch url [] jsonType sha1 with ⟨e | response, network⟩
    · exact .failed (Fault.not_isDocument_ofFetch e)
    simp only
    rcases read : readDocument (documentName version) response.data with e | index
    · exact .rejected missing source fetched read
    simp only
    rcases put : (Action.writeBelow file response.data).run.run { w with network } with
      ⟨e | _, left⟩
    · obtain ⟨access, rfl⟩ := Action.writeBelow_fault put
      exact .failed (Fault.not_isDocument_ofAccess access)
    · exact .found source fetched read put
  · rw [ran]
    exact .failed other

end Fetching

/-- What planning objects comes to: they are required one after another, until one of them is no
object of an assets index or cannot be added. -/
inductive PlansObjects (objectsDir : Path) (resources : String) (place : Place) :
    Members → Planning → Except Fault Unit → Planning → Prop
  | nil {s : Planning} : PlansObjects objectsDir resources place [] s (.ok ()) s
  | malformed {s : Planning} {id : String} {v : Json} {rest : Members} {e : Malformed}
      (parsed : AssetObject.parse v (place.member id) = .error e) :
      PlansObjects objectsDir resources place ((id, v) :: rest) s
        (.error (.document (.malformed e))) s
  | refused {s : Planning} {id : String} {v : Json} {rest : Members} {object : AssetObject}
      {e : AddError} (parsed : AssetObject.parse v (place.member id) = .ok object)
      (added : s.plan.jobs.add s.world.files (objectEntry objectsDir resources (id, object)) true =
        .error e) :
      PlansObjects objectsDir resources place ((id, v) :: rest) s (.error (.ofAdd e)) s
  | cons {s left : Planning} {id : String} {v : Json} {rest : Members} {object : AssetObject}
      {plan : InstallPlan} {result : Except Fault Unit}
      (parsed : AssetObject.parse v (place.member id) = .ok object)
      (later : PlansObjects objectsDir resources place rest { s with plan } result left) :
      PlansObjects objectsDir resources place ((id, v) :: rest) s result left

section Objects
variable {objectsDir : Path} {resources : String} {place : Place} {members : Members}
  {s left : Planning} {result : Except Fault Unit}

theorem plansObjects (members : Members) (s : Planning) :
    PlansObjects objectsDir resources place members s
      ((planObjects objectsDir resources place members).run.run s).1
      ((planObjects objectsDir resources place members).run.run s).2 := by
  induction members generalizing s with
  | nil => exact .nil
  | cons member rest ih =>
    obtain ⟨id, v⟩ := member
    rcases parsed : AssetObject.parse v (place.member id) with e | object
    · rw [planObjects, parsed]
      exact .malformed parsed
    · rw [planObjects, parsed]
      simp only [run_bind, require_run]
      rcases added : s.plan.jobs.add s.world.files _ true with e | ⟨new, jobs⟩
      · exact .refused parsed added
      · exact .cons parsed (ih _)

namespace PlansObjects

theorem world (plans : PlansObjects objectsDir resources place members s result left) :
    left.world = s.world := by
  induction plans with
  | nil | malformed | refused => rfl
  | cons _ _ ih => exact ih

/-- Objects are planned in the end only if all of them are objects of an assets index. -/
theorem parses (plans : PlansObjects objectsDir resources place members s result left)
    (planned : result = .ok ()) : ∀ member ∈ members, ∃ object,
      AssetObject.parse member.2 (place.member member.1) = .ok object := by
  induction plans with
  | nil => exact nofun
  | malformed | refused => cases planned
  | cons parsed _ ih =>
    intro member inside
    rcases List.mem_cons.mp inside with rfl | later
    · exact ⟨_, parsed⟩
    · exact ih planned member later

/-- A fault of the document is found at one of the objects. -/
theorem rejected {e : DocumentError}
    (plans : PlansObjects objectsDir resources place members s result left)
    (rejected : result = .error (.document e)) :
    ∃ member ∈ members, ∃ e', AssetObject.parse member.2 (place.member member.1) = .error e' := by
  induction plans with
  | nil => cases rejected
  | malformed parsed => exact ⟨_, List.mem_cons_self, _, parsed⟩
  | @refused _ _ _ _ _ e' =>
    have same : Fault.ofAdd e' = .document e := Except.error.inj rejected
    exact absurd (same ▸ trivial) (Fault.not_isDocument_ofAdd e')
  | cons _ _ ih =>
    obtain ⟨member, inside, fault⟩ := ih rejected
    exact ⟨member, List.mem_cons_of_mem _ inside, fault⟩

/-- Objects that can be added are planned. -/
theorem addable (plans : PlansObjects objectsDir resources place members s result left)
    (fits : ∀ member ∈ members, ∃ object,
      AssetObject.parse member.2 (place.member member.1) = .ok object ∧
        (objectEntry objectsDir resources (member.1, object)).IsAddable s.world.files) :
    result = .ok () := by
  induction plans with
  | nil => rfl
  | malformed parsed =>
    obtain ⟨object, parsed', _⟩ := fits _ List.mem_cons_self
    cases parsed.symm.trans parsed'
  | refused parsed refused =>
    obtain ⟨object, parsed', addable⟩ := fits _ List.mem_cons_self
    cases parsed.symm.trans parsed'
    obtain ⟨jobs, added⟩ := addable.add _
    cases refused.symm.trans added
  | cons _ _ ih => exact ih fun member inside => fits member (List.mem_cons_of_mem _ inside)

end PlansObjects
end Objects

/-- Plans the assets that an index lists. -/
def planIndex (assetsDir : Path) (version resources : String) (index : Members) :
    PlanAction Unit := do
  let place := (Place.ofText (documentName version ++ ": ")).member "objects"
  match (index.getD "objects").asObject place with
  | .error e => throw (.document (.malformed e))
  | .ok objects =>
    planObjects (assetsDir / "objects") resources place objects
    let isVirtual := (index.getD "virtual").isTruthy || (index.getD "map_to_resources").isTruthy
    modify fun s => { s with plan := { s.plan with
      indexName := some version
      virtualDir := if isVirtual then some (assetsDir / "virtual" / version)
        else s.plan.virtualDir } }

section Index
variable {assetsDir : Path} {version resources : String} {metadata info index : Members}
  {s t : Planning}

theorem planAssets_run (info' : metadata.getD "assetIndex" = .object info) (s : Planning) :
    (planAssets metadata assetsDir version resources).run.run s =
      match (assetsIndex info version (indexFile assetsDir version)).run.run s.world with
      | (.error e, world) => (.error e, { s with world })
      | (.ok index, world) =>
        (planIndex assetsDir version resources index).run.run { s with world } := by
  rw [planAssets, info']
  simp only [Json.asObject, run_bind, onWorld_run, indexFile]
  rcases (assetsIndex info version (assetsDir / "indexes" / (version ++ ".json"))).run.run s.world
    with ⟨e | index, world⟩
  · rfl
  · rfl

/-- Where the objects of an assets index are. -/
def objectsPlace (version : String) : Place :=
  (Place.ofText (documentName version ++ ": ")).member "objects"

/-- An index comes to what its objects come to. -/
theorem planIndex_run {objects : Members} (listed : index.getD "objects" = .object objects)
    (s : Planning) :
    let planned := (planObjects (assetsDir / "objects") resources (objectsPlace version)
      objects).run.run s
    ((planIndex assetsDir version resources index).run.run s).1 = planned.1 ∧
      ((planIndex assetsDir version resources index).run.run s).2.world = planned.2.world := by
  intro planned
  simp only [planIndex, listed, Json.asObject, run_bind, planned, objectsPlace]
  rcases (planObjects (assetsDir / "objects") resources
    ((Place.ofText (documentName version ++ ": ")).member "objects") objects).run.run s
    with ⟨e | _, left⟩
  · exact ⟨rfl, rfl⟩
  · exact ⟨rfl, rfl⟩

theorem planIndex_malformed {e : Malformed}
    (unlisted : (index.getD "objects").asObject (objectsPlace version) = .error e) (s : Planning) :
    (planIndex assetsDir version resources index).run.run s =
      (.error (.document (.malformed e)), s) := by
  unfold objectsPlace at unlisted
  simp only [planIndex, unlisted]
  rfl

theorem planIndex_world (index : Members) (s : Planning) :
    ((planIndex assetsDir version resources index).run.run s).2.world = s.world := by
  rcases listed : (index.getD "objects").asObject (objectsPlace version) with e | objects
  · rw [planIndex_malformed listed]
  · rw [(planIndex_run (Json.asObject_ok.mp listed) s).2, (plansObjects _ _).world]

/-- An index that is rejected once is no index for any plan. -/
theorem planIndex_rejected {e : DocumentError}
    (rejected : ((planIndex assetsDir version resources index).run.run s).1 =
      .error (.document e)) (t : Planning) :
    ∃ fault, ((planIndex assetsDir version resources index).run.run t).1 = .error fault := by
  rcases listed : (index.getD "objects").asObject (objectsPlace version) with e' | objects
  · exact ⟨_, by rw [planIndex_malformed listed]⟩
  · have isObject := Json.asObject_ok.mp listed
    rw [(planIndex_run isObject s).1] at rejected
    obtain ⟨member, inside, e', malformed⟩ := (plansObjects objects s).rejected rejected
    rw [(planIndex_run isObject t).1]
    rcases planned : ((planObjects (assetsDir / "objects") resources (objectsPlace version)
      objects).run.run t).1 with fault | _
    · exact ⟨fault, rfl⟩
    · obtain ⟨object, parsed⟩ := (plansObjects objects t).parses planned member inside
      cases malformed.symm.trans parsed

/-- The objects of an index are planned if they can be added. -/
theorem planIndex_addable {list : AssetList} {bytes : Bytes} (lists : list.IsIn bytes)
    (parsed : Json.parse bytes = .ok (.object index))
    (addable : ∀ asset ∈ list.objects,
      (objectEntry (assetsDir / "objects") resources asset).IsAddable s.world.files) :
    ((planIndex assetsDir version resources index).run.run s).1 = .ok () := by
  obtain ⟨index', objects, parsed', listed, each, _⟩ := lists
  cases parsed.symm.trans parsed'
  rw [(planIndex_run listed s).1]
  apply (plansObjects objects s).addable
  clear listed
  generalize list.objects = assets at each addable
  induction each with
  | nil => exact nofun
  | @cons member asset _ _ first _ ih =>
    intro member' inside
    rcases List.mem_cons.mp inside with rfl | later
    · obtain ⟨same, place, isObject⟩ := first
      refine ⟨asset.2, AssetObject.parse_elsewhere isObject _, ?_⟩
      rw [← same]
      exact addable asset List.mem_cons_self
    · exact ih (fun asset there => addable asset (List.mem_cons_of_mem _ there)) member' later

/-- A plan is rejected for its assets only if the metadata have a place for them. -/
theorem planAssets_document {e : DocumentError}
    (rejected : ((planAssets metadata assetsDir version resources).run.run s).1 =
      .error (.document e)) : ∃ info, metadata.getD "assetIndex" = .object info := by
  unfold planAssets at rejected
  split at rejected
  · cases rejected
  · split at rejected
    · cases rejected
    · rename_i info isObject
      exact ⟨info, Json.asObject_ok.mp isObject⟩

/-- An assets index in its file is planned from there. -/
theorem planAssets_kept {bytes : Bytes} (info' : metadata.getD "assetIndex" = .object info)
    (read : s.world.files.read (indexFile assetsDir version) = .ok bytes)
    (parsed : readDocument (documentName version) bytes = .ok index) :
    (planAssets metadata assetsDir version resources).run.run s =
      (planIndex assetsDir version resources index).run.run s := by
  rw [planAssets_run info', assetsIndex_again read parsed]

section Missing
variable {url : String} {sha1 : Option String}

/-- An assets index that is missing is asked for, and for nothing else. -/
theorem planAssets_asks (info' : metadata.getD "assetIndex" = .object info)
    (source : IsSource info url sha1)
    (missing : IsMissing s.world.files (indexFile assetsDir version)) :
    ((planAssets metadata assetsDir version resources).run.run s).2.world.network =
      (s.world.network.fetch url [] jsonType sha1).2 := by
  rw [planAssets_run info', assetsIndex_run missing source]
  rcases s.world.network.fetch url [] jsonType sha1 with ⟨e | response, network⟩
  · rfl
  simp only
  rcases readDocument (documentName version) response.data with e | index
  · rfl
  simp only
  rcases put : (Action.writeBelow (indexFile assetsDir version) response.data).run.run
    { s.world with network } with ⟨e | _, left⟩
  · exact (Action.writeBelow_leaves put).1
  · simp only [planIndex_world]
    exact (Action.writeBelow_leaves put).1

/-- A server has an assets index that can be put to its file, and whose objects can be added to any
list of downloads. -/
structure Serves (w : World) (url : String) (sha1 : Option String) (assetsDir : Path)
    (version resources : String) (response : Response) (left : World) : Prop where
  fetched : (w.network.fetch url [] jsonType sha1).1 = .ok response
  put : (Action.writeBelow (indexFile assetsDir version) response.data).run.run
    { w with network := (w.network.fetch url [] jsonType sha1).2 } = (.ok (), left)
  lists : ∃ list : AssetList, list.IsIn response.data ∧ ∀ asset ∈ list.objects,
    (objectEntry (assetsDir / "objects") resources asset).IsAddable left.files

/-- The assets are planned once the server has a valid index of them. -/
theorem planAssets_served {response : Response} {left : World}
    (info' : metadata.getD "assetIndex" = .object info) (source : IsSource info url sha1)
    (missing : IsMissing s.world.files (indexFile assetsDir version))
    (serves : Serves s.world url sha1 assetsDir version resources response left) :
    ((planAssets metadata assetsDir version resources).run.run s).1 = .ok () ∧
      ((planAssets metadata assetsDir version resources).run.run s).2.world = left := by
  obtain ⟨fetched, put, list, lists, addable⟩ := serves
  have holds := lists
  obtain ⟨index, _, parsed, _⟩ := holds
  have read : readDocument (documentName version) response.data = .ok index :=
    readDocument_ok.mpr parsed
  have found : (assetsIndex info version (indexFile assetsDir version)).run.run s.world =
      (.ok index, left) := by
    rw [assetsIndex_run missing source]
    rcases asked : s.world.network.fetch url [] jsonType sha1 with ⟨reply, network⟩
    rw [asked] at fetched put
    cases fetched
    simp only [read]
    simp only at put
    rw [put]
  rw [planAssets_run info', found]
  exact ⟨planIndex_addable lists parsed addable, planIndex_world index _⟩

end Missing

/-- An assets index that is rejected is kept exactly if it is an object. Then planning the assets
fails as long as its file is there, without any request. If it is not kept, the index is fetched
again as long as its file is missing, and the assets are planned if the server has a valid one by
then. -/
theorem planAssets_rejected {s' : Planning} {e : DocumentError}
    (absent : ¬ s.world.files.HasFile (indexFile assetsDir version))
    (rejected : (planAssets metadata assetsDir version resources).run.run s =
      (.error (.document e), s')) :
    let file := indexFile assetsDir version
    let again (t : Planning) := (planAssets metadata assetsDir version resources).run.run t
    ∃ info url sha1 response, metadata.getD "assetIndex" = .object info ∧
      IsSource info url sha1 ∧
      s.world.network.fetch url [] jsonType sha1 = (.ok response, s'.world.network) ∧
      (s'.world.files.HasFile file ↔ ∃ index, Json.parse response.data = .ok (.object index)) ∧
      (s'.world.files.HasFile file → s'.world.files.read file = .ok response.data ∧
        ∀ t, t.world.files.read file = .ok response.data →
          (∃ fault, (again t).1 = .error fault) ∧ (again t).2.world = t.world) ∧
      (¬ s'.world.files.HasFile file → IsMissing s'.world.files file ∧
        s'.world.files = s.world.files ∧ ∀ t, IsMissing t.world.files file →
          (again t).2.world.network = (t.world.network.fetch url [] jsonType sha1).2 ∧
          ∀ response' left, Serves t.world url sha1 assetsDir version resources response' left →
            (again t).1 = .ok () ∧ (again t).2.world = left) := by
  intro file again
  obtain ⟨info, info'⟩ := planAssets_document (congrArg Prod.fst rejected)
  have finds := @assetsIndex_finds info version _ _ absent
  rw [planAssets_run info'] at rejected
  generalize (assetsIndex info version (indexFile assetsDir version)).run.run s.world = outcome
    at finds rejected
  obtain ⟨result, w⟩ := outcome
  cases finds with
  | failed other =>
    cases rejected
    exact absurd trivial other
  | @rejected url sha1 response network _ missing source fetched read =>
    cases rejected
    refine ⟨info, url, sha1, response, info', source, fetched, ⟨?_, ?_⟩, ?_, fun _ => ?_⟩
    · intro present
      exact absurd present absent
    · rintro ⟨index, parsed⟩
      cases read.symm.trans (readDocument_ok.mpr parsed)
    · intro present
      exact absurd present absent
    · refine ⟨missing, rfl, fun t missing' => ⟨planAssets_asks info' source missing', ?_⟩⟩
      intro response' left serves
      exact planAssets_served info' source missing' serves
  | @found url sha1 response network index _ source fetched read put =>
    simp only at rejected put
    have world : s'.world = w := by
      rw [← congrArg (·.2.world) rejected]
      exact planIndex_world index _
    obtain ⟨kept, _, _⟩ := Action.writeBelow_retains put
    rw [← world] at put kept
    have network : s'.world.network = network := (Action.writeBelow_leaves put).1
    rw [← network] at fetched
    refine ⟨info, url, sha1, response, info', source, fetched, ⟨?_, ?_⟩, ?_, ?_⟩
    · exact fun _ => ⟨index, readDocument_ok.mp read⟩
    · exact fun _ => FileTree.hasFile_of_read kept
    · refine fun _ => ⟨kept, fun t read' => ?_⟩
      have same : again t = (planIndex assetsDir version resources index).run.run t :=
        planAssets_kept info' read' read
      rw [same]
      exact ⟨planIndex_rejected (congrArg Prod.fst rejected) t, planIndex_world index t⟩
    · exact fun gone => absurd (FileTree.hasFile_of_read kept) gone

end Index

/-- A result is the fault of a document. -/
def isRejected : Except Fault Unit → Bool
  | .error (.document _) => true
  | _ => false

theorem isRejected_iff {result : Except Fault Unit} :
    isRejected result = true ↔ ∃ e, result = .error (.document e) := by
  unfold isRejected
  split <;> simp_all

/-- Metadata with an assets index whose digest they do not know. -/
def indexed : Members := [("assetIndex", .object [("url", .string "http://h/i")])]

/-- A plan in the making, with a server that has something for the assets index. -/
def serving (body : String) : Planning where
  world := ⟨.empty, ⟨[("http://h/i", [.response 200 [] (Bytes.ofText body) none])], [], 0⟩,
    .unknown none ""⟩
  plan := .ofJobs .empty

theorem absent_serving (body : String) :
    ¬ (serving body).world.files.HasFile (indexFile (.ofText "a") "v") := by
  have absent : ¬ FileTree.empty.HasFile (indexFile (.ofText "a") "v") := by decide +kernel
  exact absent

/-- The text of an index with one object. -/
def oneObject : String :=
  "\x7b\"objects\":\x7b\"o\":\x7b\"hash\":\"da39a3ee5e6b4b0d3255bfef95601890afd80709\"\x7d\x7d\x7d"

/-- The object that an index lists, if it is valid and lists no other ones. -/
def onlyObject? (bytes : Bytes) : Option (String × AssetObject) :=
  match Json.parse bytes with
  | .ok (.object index) =>
    match Members.getD index "objects" with
    | .object [(id, v)] => (AssetObject.parse v (objectsPlace "v")).toOption.map (id, ·)
    | _ => none
  | _ => none

theorem onlyObject?_isIn {bytes : Bytes} {asset : String × AssetObject}
    (only : onlyObject? bytes = some asset) :
    ∃ list : AssetList, list.IsIn bytes ∧ list.objects = [asset] := by
  unfold onlyObject? at only
  split at only
  · rename_i index parsed
    split at only
    · rename_i id v listed
      rcases valid : AssetObject.parse v (objectsPlace "v") with e | object
      · rw [valid] at only
        cases only
      · rw [valid] at only
        cases only
        have each : List.Forall₂ IsObject [(id, v)] [(id, object)] :=
          .cons ⟨rfl, _, valid⟩ .nil
        exact ⟨⟨[(id, object)], _⟩, ⟨index, _, parsed, listed, each, rfl⟩, rfl⟩
    · cases only
  · cases only

theorem serves_oneObject : ∃ response left,
    Serves (serving oneObject).world "http://h/i" none (.ofText "a") "v" "http://h/" response
      left := by
  have fetched : ((serving oneObject).world.network.fetch "http://h/i" [] jsonType none).1 =
      .ok ⟨200, Bytes.ofText oneObject, []⟩ := by decide +kernel
  have only : onlyObject? (Bytes.ofText oneObject) =
      some ("o", ⟨"da39a3ee5e6b4b0d3255bfef95601890afd80709", none⟩) := by decide +kernel
  let entry := objectEntry (Path.ofText "a" / "objects") "http://h/"
    ("o", ⟨"da39a3ee5e6b4b0d3255bfef95601890afd80709", none⟩)
  let put := (Action.writeBelow (indexFile (.ofText "a") "v") (Bytes.ofText oneObject)).run.run
    { (serving oneObject).world with
      network := ((serving oneObject).world.network.fetch "http://h/i" [] jsonType none).2 }
  have wrote : put.1.toBool = true := by decide +kernel
  have addable : entry.IsAddable put.2.files :=
    ⟨exists_ok_of_toBool (by decide +kernel), exists_ok_of_toBool (by decide +kernel)⟩
  obtain ⟨list, listed, objects⟩ := onlyObject?_isIn only
  refine ⟨_, put.2, fetched, ?_, list, listed, ?_⟩
  · obtain ⟨_, written⟩ := exists_ok_of_toBool wrote
    exact Prod.ext written rfl
  · rw [objects]
    intro asset inside
    obtain rfl := List.mem_singleton.mp inside
    exact addable

/-- An index that is no object is not kept, and the assets are planned when it is valid. -/
theorem planAssets_rejected_list :
    let run (s : Planning) := (planAssets indexed (.ofText "a") "v" "http://h/").run.run s
    (∃ e s', run (serving "[]") = (.error (.document e), s') ∧
      ¬ s'.world.files.HasFile (indexFile (.ofText "a") "v")) ∧
    (run (serving oneObject)).1 = .ok () := by
  intro run
  have rejected : isRejected (run (serving "[]")).1 = true := by decide +kernel
  have gone : ¬ (run (serving "[]")).2.world.files.HasFile (indexFile (.ofText "a") "v") := by
    decide +kernel
  have missing : IsMissing FileTree.empty (indexFile (.ofText "a") "v") :=
    ⟨indexFile (.ofText "a") "v", by decide +kernel⟩
  obtain ⟨e, rejected⟩ := isRejected_iff.mp rejected
  have ran : run (serving "[]") = (.error (.document e), (run (serving "[]")).2) :=
    Prod.ext rejected rfl
  obtain ⟨_, _, _, _, info, source, _, _, _, later⟩ := planAssets_rejected (absent_serving "[]") ran
  cases info
  cases source.url
  cases source.sha1
  obtain ⟨response, left, serves⟩ := serves_oneObject
  obtain ⟨_, _, again⟩ := later gone
  exact ⟨⟨e, _, ran, gone⟩, ((again (serving oneObject) missing).2 response left serves).1⟩

/-- An index that is an object without assets is kept, although it is rejected. -/
theorem unlisted_index_kept :
    let s := serving "\x7b\x7d"
    let outcome := (planAssets indexed (.ofText "a") "v" "http://h/").run.run s
    ¬ s.world.files.HasFile (indexFile (.ofText "a") "v") ∧
      (∃ e, outcome.1 = .error (.document e)) ∧
      outcome.2.world.files.HasFile (indexFile (.ofText "a") "v") := by
  intro s outcome
  have rejected : isRejected outcome.1 = true := by decide +kernel
  exact ⟨absent_serving _, isRejected_iff.mp rejected, by decide +kernel⟩

end InstallPlan
end Launcher
