import Launcher.Proofs.Install.Rejection
import Launcher.Proofs.Metadata.Digests

/-! Digests in the documents of assets. Every object of an assets index is planned at a file that is
called like its digest, on a shelf that is called like the first two digits. The metadata and the
index are refused only over what is amiss in them. -/
namespace Launcher

namespace Fault

/-- What a fault says of a place of a document, if it is about one. -/
def malformed? : Fault → Option Malformed
  | .malformed e => some e
  | .document (.malformed e) => some e
  | _ => none

@[simp] theorem malformed?_ofAccess (e : AccessError) : (ofAccess e).malformed? = none := by
  cases e <;> rfl

@[simp] theorem malformed?_ofFetch (e : FetchError) : (ofFetch e).malformed? = none := by
  cases e with
  | connection fault => cases fault <;> rfl
  | _ => rfl

@[simp] theorem malformed?_ofAdd (e : AddError) : (ofAdd e).malformed? = none := by
  cases e <;> rfl

/-- A fault that is about a place of a document tells one that is amiss. -/
def IsFair (name : String) (v : Json) (place : Place) (fault : Fault) : Prop :=
  ∀ e, fault.malformed? = some e → TellsAmiss name v place e

theorem IsFair.of_malformed {name : String} {v : Json} {place : Place} {e : Malformed}
    (tells : TellsAmiss name v place e) : (malformed e).IsFair name v place := by
  rintro _ ⟨⟩
  exact tells

theorem IsFair.of_none {name : String} {v : Json} {place : Place} {fault : Fault}
    (elsewhere : fault.malformed? = none) : fault.IsFair name v place := by
  intro e told
  rw [elsewhere] at told
  contradiction

theorem IsUnread.malformed?_eq_none {fault : Fault} (unread : fault.IsUnread) :
    fault.malformed? = none := by
  cases unread <;> rfl

end Fault

section Inside
variable {name outer : String} {v : Json} {members : Members} {place : Place}

theorem CarriesDigest.member {digest : Option String} (carries : CarriesDigest name v digest)
    (inside : (outer, v) ∈ members) : CarriesDigest name (.object members) digest := by
  obtain ⟨admitted, steps, inner, leads, there⟩ := carries
  exact ⟨admitted, .member outer :: steps, inner, .member inside leads, there⟩

theorem Fault.IsFair.member {fault : Fault} (fair : fault.IsFair name v (place.member outer))
    (inside : (outer, v) ∈ members) : fault.IsFair name (.object members) place :=
  fun e told => (fair e told).member inside

end Inside

namespace InstallPlan

section Recording
variable {assets : List (String × Path)} {id other : String} {file there : Path}

/-- Assets with one more under its id, in the place of one that had this id. -/
def recordAsset (assets : List (String × Path)) (id : String) (file : Path) :
    List (String × Path) :=
  if assets.any (·.1 == id)
  then assets.map fun asset => if asset.1 == id then (id, file) else asset
  else assets ++ [(id, file)]

theorem mem_recordAsset : (other, there) ∈ recordAsset assets id file ↔
    other = id ∧ there = file ∨ other ≠ id ∧ (other, there) ∈ assets := by
  unfold recordAsset
  split
  · rename_i listed
    obtain ⟨⟨first, old⟩, inside, same⟩ := List.any_eq_true.mp listed
    rw [List.mem_map]
    constructor
    · rintro ⟨⟨name, kept⟩, member, moved⟩
      by_cases named : name = id
      · simp only [named, beq_self_eq_true, if_true, Prod.mk.injEq] at moved
        exact .inl ⟨moved.1.symm, moved.2.symm⟩
      · simp only [beq_iff_eq, named, if_false, Prod.mk.injEq] at moved
        obtain ⟨rfl, rfl⟩ := moved
        exact .inr ⟨named, member⟩
    · rintro (⟨rfl, rfl⟩ | ⟨named, member⟩)
      · exact ⟨(first, old), inside, if_pos same⟩
      · exact ⟨(other, there), member, if_neg (by simpa using named)⟩
  · rename_i unlisted
    have unnamed (member : (id, there) ∈ assets) : False :=
      unlisted (List.any_eq_true.mpr ⟨_, member, beq_self_eq_true id⟩)
    rw [List.mem_append, List.mem_singleton, Prod.mk.injEq]
    constructor
    · rintro (member | new)
      · exact .inr ⟨by rintro rfl; exact unnamed member, member⟩
      · exact .inl new
    · rintro (new | ⟨-, member⟩)
      · exact .inr new
      · exact .inl member

end Recording

section Objects
variable {objectsDir : Path} {resources : String} {place : Place} {members : Members}
  {s s' : Planning}

/-- Objects are planned: each is recorded under its id, at its file and not at another one, and what
had the id before is not recorded any more. There is a download for every file that is missing. -/
structure ArePlanned (objectsDir : Path) (objects : List (String × AssetObject))
    (s s' : Planning) : Prop where
  recorded : ∀ id file, (id, file) ∈ s'.plan.assets ↔
    (∃ object, (id, object) ∈ objects ∧ file = objectFile objectsDir object) ∨
      id ∉ objects.map (·.1) ∧ (id, file) ∈ s.plan.assets
  required : ∀ asset ∈ objects, s'.world.files.HasFile (objectFile objectsDir asset.2) ∨
    objectFile objectsDir asset.2 ∈ s'.plan.jobs.destinations

/-- Planning one object, and then the others. -/
theorem planObjects_cons_ok {id : String} {v : Json}
    (ended : (planObjects objectsDir resources place ((id, v) :: members)).run.run s =
      (.ok (), s')) :
    ∃ object jobs added, AssetObject.parse v (place.member id) = .ok object ∧
      DownloadList.Gains s.world.files s.world.files
        [objectEntry objectsDir resources (id, object)] s.plan.jobs jobs added ∧
      (planObjects objectsDir resources place members).run.run
        { s with plan := { s.plan with
          jobs
          assets := recordAsset s.plan.assets id (objectFile objectsDir object) } } =
        (.ok (), s') := by
  unfold planObjects at ended
  split at ended
  · cases ended
  · rename_i object parsed
    obtain ⟨_, s₁, required, ended⟩ := run_bind_ok ended
    obtain ⟨jobs, added, gains, rfl⟩ := require_ok required
    exact ⟨object, jobs, added, parsed, gains, ended⟩

theorem names_of_isObject {objects : List (String × AssetObject)}
    (each : List.Forall₂ IsObject members objects) : objects.map (·.1) = members.map (·.1) := by
  induction each with
  | nil => rfl
  | cons first _ ih => rw [List.map_cons, List.map_cons, ih, first.1]

/-- An entry that was added goes to a file that is there, or has a download. -/
theorem hasFile_or_mem_destinations {files : FileTree} {entry : DownloadEntry}
    {before after : DownloadList} {added : List DownloadJob}
    (gains : DownloadList.Gains files files [entry] before after added) :
    files.HasFile entry.destination ∨ entry.destination ∈ after.destinations := by
  rw [gains.destinations, List.mem_append]
  by_cases there : files.HasFile entry.destination
  · exact .inl there
  · by_cases taken : entry.destination ∈ before.destinations
    · exact .inr (.inl taken)
    · exact .inr (.inr (gains.all _ (by simp) there taken))

/-- Objects with different ids are all planned. -/
theorem planObjects_arePlanned (distinct : (members.map (·.1)).Nodup)
    (ended : (planObjects objectsDir resources place members).run.run s = (.ok (), s')) :
    ∃ objects, List.Forall₂ IsObject members objects ∧ ArePlanned objectsDir objects s s' ∧
      s'.world = s.world ∧ s.plan.jobs.destinations ⊆ s'.plan.jobs.destinations := by
  induction members generalizing s with
  | nil =>
    cases ended
    exact ⟨[], .nil, ⟨by simp, nofun⟩, rfl, fun _ => id⟩
  | cons member rest ih =>
    obtain ⟨id, v⟩ := member
    rw [List.map_cons, List.nodup_cons] at distinct
    obtain ⟨object, jobs, added, parsed, gains, ended⟩ := planObjects_cons_ok ended
    obtain ⟨objects, each, planned, world, grown⟩ := ih distinct.2 ended
    have names := names_of_isObject each
    refine ⟨(id, object) :: objects, .cons ⟨rfl, _, parsed⟩ each, ⟨fun other file => ?_, ?_⟩, world,
      ?_⟩
    · rw [planned.recorded, mem_recordAsset, List.map_cons, List.mem_cons, not_or]
      constructor
      · rintro (⟨found, later, rfl⟩ | ⟨unlisted, ⟨rfl, rfl⟩ | ⟨named, kept⟩⟩)
        · exact .inl ⟨found, List.mem_cons_of_mem _ later, rfl⟩
        · exact .inl ⟨object, List.mem_cons_self, rfl⟩
        · exact .inr ⟨⟨named, unlisted⟩, kept⟩
      · rintro (⟨found, inside, rfl⟩ | ⟨⟨named, unlisted⟩, kept⟩)
        · rcases List.mem_cons.mp inside with same | later
          · obtain ⟨rfl, rfl⟩ := Prod.mk.inj same
            exact .inr ⟨names ▸ distinct.1, .inl ⟨rfl, rfl⟩⟩
          · exact .inl ⟨found, later, rfl⟩
        · exact .inr ⟨unlisted, .inr ⟨named, kept⟩⟩
    · rw [List.forall_mem_cons]
      refine ⟨?_, planned.required⟩
      rw [world]
      exact (hasFile_or_mem_destinations gains).imp_right fun listed => grown listed
    · refine fun p listed => grown ?_
      rw [gains.destinations]
      exact List.mem_append_left _ listed

/-- A fault of planning objects that is about a place is about one of the objects. -/
theorem PlansObjects.refuses_object {left : Planning} {result : Except Fault Unit} {fault : Fault}
    {e : Malformed} (plans : PlansObjects objectsDir resources place members s result left)
    (failed : result = .error fault) (told : fault.malformed? = some e) :
    ∃ member ∈ members, AssetObject.parse member.2 (place.member member.1) = .error e := by
  induction plans with
  | nil => contradiction
  | malformed parsed =>
    obtain rfl := Except.error.inj failed
    obtain rfl := Option.some.inj told
    exact ⟨_, List.mem_cons_self, parsed⟩
  | refused _ _ =>
    obtain rfl := Except.error.inj failed
    rw [Fault.malformed?_ofAdd] at told
    contradiction
  | cons _ _ ih =>
    obtain ⟨member, inside, refused⟩ := ih failed
    exact ⟨member, List.mem_cons_of_mem _ inside, refused⟩

end Objects

section Files
variable {object : AssetObject}

/-- The file of an object below the directory of assets: it is called like the digest, and lies on a
shelf that is called like the first two digits. -/
structure AssetObject.IsShelved (assetsDir : Path) (object : AssetObject) (file : Path) : Prop where
  anchor : file.anchor = assetsDir.anchor
  parts : file.parts = assetsDir.parts ++ ["objects", object.shelf, object.hash]
  length : object.shelf.length = 2
  digits : ∀ c ∈ object.shelf.toList, c ∈ "0123456789abcdef".toList

/-- What is taken for a digest begins like a digest. -/
theorem take_of_isSha1 {text : String} (admitted : isSha1 text) :
    ∃ digest, IsDigest digest ∧ text.toList.take 2 = digest.toList.take 2 := by
  rcases isSha1_iff.mp admitted with form | ⟨digest, form, rfl⟩
  · exact ⟨text, form, rfl⟩
  · have long : 2 ≤ digest.toList.length := by
      rw [String.length_toList, form.length]
      decide
    exact ⟨digest, form, by rw [String.toList_append, List.take_append_of_le_length long]⟩

theorem isShelved_objectFile (admitted : isSha1 object.hash) (assetsDir : Path) :
    object.IsShelved assetsDir (objectFile (assetsDir / "objects") object) := by
  obtain ⟨digest, form, same⟩ := take_of_isSha1 admitted
  have shelf : object.shelf.toList = digest.toList.take 2 := by
    rw [AssetObject.shelf, String.toList_ofList, same]
  have length : object.shelf.length = 2 := by
    rw [← String.length_toList, shelf, List.length_take, String.length_toList, form.length]
    rfl
  have digits : ∀ c ∈ object.shelf.toList, c ∈ "0123456789abcdef".toList := by
    intro c inside
    rw [shelf] at inside
    exact form.digits c (List.mem_of_mem_take inside)
  have name : (Path.ofText object.shelf).parts = [object.shelf] := by
    refine Path.parts_of_free (fun slash => ?_) (fun dot => ?_) fun empty => ?_
    · exact absurd (digits _ slash) (by decide)
    · exact absurd (digits _ dot) (by decide)
    · rw [← String.length_toList, empty] at length
      contradiction
  obtain ⟨shelfDown, hashDown⟩ := object.leadsDown admitted
  have objectsDown : Path.LeadsDown "objects" := by decide
  have first := objectsDown.below assetsDir
  have second := shelfDown.below (assetsDir / "objects")
  have third := hashDown.below (assetsDir / "objects" / object.shelf)
  refine ⟨third.anchor.trans (second.anchor.trans first.anchor), ?_, length, digits⟩
  rw [objectFile, third.parts, second.parts, first.parts, name, Path.parts_of_isSha1 admitted,
    show (Path.ofText "objects").parts = ["objects"] by decide]
  simp

end Files

section Planned
variable {assetsDir : Path} {version resources : String} {metadata info index : Members}
  {s s' : Planning}

theorem fetch_isFair {name : String} {v : Json} {place : Place} (url : String) (headers : Members)
    (accept sha1 : Option String) :
    FailsBy (Fault.IsFair name v place) (Action.fetch url headers accept sha1) := by
  intro w _
  rw [Action.fetch_run]
  refine ⟨trivial, fun fault failed => ?_⟩
  obtain ⟨e, -, rfl⟩ := mapError_error failed
  exact .of_none (Fault.malformed?_ofFetch e)

theorem writeBelow_isFair {name : String} {v : Json} {place : Place} (file : Path)
    (content : Bytes) : FailsBy (Fault.IsFair name v place) (Action.writeBelow file content) := by
  refine fun w _ => ⟨trivial, fun fault failed => ?_⟩
  obtain ⟨access, rfl⟩ := Action.writeBelow_fault (Prod.ext failed rfl)
  exact .of_none (Fault.malformed?_ofAccess access)

/-- Finding an assets index fails over the metadata only if they are amiss. -/
theorem assetsIndex_isFair (info : Members) (version : String) (file : Path) :
    FailsBy (Fault.IsFair "sha1" (.object info) (metadataPlace.member "assetIndex"))
      (assetsIndex info version file) := by
  refine .bind .get fun w => ?_
  split
  · exact Action.ofExcept_fails fun _ failed =>
      .of_none (readDocument_error failed).malformed?_eq_none
  · refine .bind (Action.ofExcept_fails fun _ refused =>
      .of_malformed (.of_getD (.of_asString refused))) fun url => ?_
    refine .bind (Action.ofExcept_fails fun _ refused =>
      .of_malformed (.of_parseSha1 refused)) fun sha1 => ?_
    refine .bind (fetch_isFair url [] jsonType sha1) fun response => ?_
    refine .bind (Action.ofExcept_fails fun _ failed =>
      .of_none (readDocument_error failed).malformed?_eq_none) fun index => ?_
    exact .bind (writeBelow_isFair file response.data) fun _ => .pure _
  · exact .throw (.of_none (Fault.malformed?_ofAccess _))

theorem planIndex_ok
    (ended : (planIndex assetsDir version resources index).run.run s = (.ok (), s')) :
    ∃ members left, index.getD "objects" = .object members ∧
      (planObjects (assetsDir / "objects") resources (objectsPlace version) members).run.run s =
        (.ok (), left) ∧
      s'.world = left.world ∧ s'.plan.assets = left.plan.assets ∧
      s'.plan.jobs = left.plan.jobs := by
  unfold planIndex at ended
  simp only at ended
  split at ended
  · cases ended
  · rename_i members listed
    obtain ⟨_, left, planned, ended⟩ := run_bind_ok ended
    cases ended
    exact ⟨members, left, Json.asObject_ok.mp listed, planned, rfl, rfl, rfl⟩

/-- What is wrong with an index is found at its objects. -/
theorem planIndex_isFair {fault : Fault}
    (failed : ((planIndex assetsDir version resources index).run.run s).1 = .error fault) :
    fault.IsFair "hash" (.object index) (Place.ofText (documentName version ++ ": ")) := by
  rcases listed : (index.getD "objects").asObject (objectsPlace version) with unlisted | members
  · rw [planIndex_malformed listed] at failed
    obtain rfl := Except.error.inj failed
    exact .of_malformed (.of_getD (.of_asObject listed))
  · have same := Json.asObject_ok.mp listed
    rw [(planIndex_run same s).1] at failed
    intro e told
    obtain ⟨⟨id, v⟩, inside, refused⟩ := (plansObjects members s).refuses_object failed told
    exact ((AssetObject.parse_admitsDigests.refuses refused).member inside).member
      (Members.mem_of_getD_object same)

/-- Objects carry the digests that the index has. -/
theorem carriesDigest_of_isObject {members : Members} {objects : List (String × AssetObject)}
    (same : index.getD "objects" = .object members) (each : List.Forall₂ IsObject members objects)
    {asset : String × AssetObject} (inside : asset ∈ objects) :
    CarriesDigest "hash" (.object index) (some asset.2.hash) := by
  obtain ⟨⟨id, v⟩, listed, _, place, parsed⟩ := exists_of_isObject each inside
  exact ((AssetObject.parse_admitsDigests.admits parsed (List.mem_singleton_self _)).member
    listed).member (Members.mem_of_getD_object same)

/-- Metadata either name no assets, or have an object for them, or are malformed. -/
theorem planAssets_cases (metadata : Members) (assetsDir : Path) (version resources : String)
    (s : Planning) :
    (metadata.getD "assetIndex" = .null ∧
      (planAssets metadata assetsDir version resources).run.run s = (.ok (), s)) ∨
    (∃ info, metadata.getD "assetIndex" = .object info) ∨
    Need.object.isMet (metadata.getD "assetIndex") = false ∧
      (planAssets metadata assetsDir version resources).run.run s =
        (.error (.malformed ⟨metadataPlace.member "assetIndex", .object⟩), s) := by
  unfold planAssets
  cases metadata.getD "assetIndex" with
  | null => exact .inl ⟨rfl, rfl⟩
  | object info => exact .inr (.inl ⟨info, rfl⟩)
  | _ => exact .inr (.inr ⟨rfl, rfl⟩)

/-- Assets that are planned are those of the index in its file, unless the metadata name none. -/
theorem planAssets_arePlanned
    (ended : (planAssets metadata assetsDir version resources).run.run s = (.ok (), s')) :
    metadata.getD "assetIndex" = .null ∧ s' = s ∨
    ∃ (bytes : Bytes) (index : Members) (list : AssetList),
      s'.world.files.read (indexFile assetsDir version) = .ok bytes ∧
      Json.parse bytes = .ok (.object index) ∧ list.IsIn bytes ∧
      ArePlanned (assetsDir / "objects") list.objects s s' := by
  rcases planAssets_cases metadata assetsDir version resources s with
    ⟨unnamed, ran⟩ | ⟨info, given⟩ | ⟨-, ran⟩
  · cases ran.symm.trans ended
    exact .inl ⟨unnamed, rfl⟩
  · rw [planAssets_run given] at ended
    rcases found : (assetsIndex info version (indexFile assetsDir version)).run.run s.world
      with ⟨fault | index, w⟩
    · rw [found] at ended
      cases ended
    rw [found] at ended
    obtain ⟨⟨bytes, read, parsed⟩, -⟩ := assetsIndex_ok found
    have parse := readDocument_ok.mp parsed
    obtain ⟨members, left, listed, planned, world, assets, jobs⟩ := planIndex_ok ended
    obtain ⟨objects, each, ⟨recorded, required⟩, same, -⟩ :=
      planObjects_arePlanned (Json.nodup_of_parse parse listed) planned
    refine .inr ⟨bytes, index, ⟨objects, _⟩, ?_, parse, ⟨index, members, parse, listed, each, rfl⟩,
      ⟨?_, ?_⟩⟩
    · rw [world, same]
      exact read
    · rw [assets]
      exact recorded
    · rw [world, jobs]
      exact required
  · cases ran.symm.trans ended

theorem planAssets_isFair {fault : Fault}
    (ended : (planAssets metadata assetsDir version resources).run.run s = (.error fault, s')) :
    fault.IsFair "sha1" (.object metadata) metadataPlace ∨
    ∃ (bytes : Bytes) (index : Members),
      s'.world.files.read (indexFile assetsDir version) = .ok bytes ∧
      Json.parse bytes = .ok (.object index) ∧
      fault.IsFair "hash" (.object index) (Place.ofText (documentName version ++ ": ")) := by
  rcases planAssets_cases metadata assetsDir version resources s with
    ⟨-, ran⟩ | ⟨info, given⟩ | ⟨unmet, ran⟩
  · cases ran.symm.trans ended
  · rw [planAssets_run given] at ended
    rcases found : (assetsIndex info version (indexFile assetsDir version)).run.run s.world
      with ⟨fault | index, w⟩
    · rw [found] at ended
      cases ended
      have fair := (assetsIndex_isFair info version (indexFile assetsDir version) s.world trivial).2
        fault (by rw [found])
      exact .inl (fair.member (Members.mem_of_getD_object given))
    · rw [found] at ended
      obtain ⟨⟨bytes, read, parsed⟩, -⟩ := assetsIndex_ok found
      refine .inr ⟨bytes, index, ?_, readDocument_ok.mp parsed,
        planIndex_isFair (congrArg Prod.fst ended)⟩
      rw [← congrArg (·.2.world) ended, planIndex_world]
      exact read
  · cases ran.symm.trans ended
    exact .inl (.of_malformed (.of_getD (.here unmet nofun)))

end Planned

/-- What planning the assets comes to. The objects of the index in its file are planned, each at the
place that its digest tells, or else there is a fault: if it is about a place of the metadata or of
the index, this place is amiss. -/
inductive PlansDigests (metadata : Members) (assetsDir : Path) (version : String) (s : Planning) :
    Except Fault Unit → Planning → Prop
  | unnamed (none : metadata.getD "assetIndex" = .null) :
      PlansDigests metadata assetsDir version s (.ok ()) s
  | planned {s' : Planning} {bytes : Bytes} {index : Members} {list : AssetList}
      (read : s'.world.files.read (indexFile assetsDir version) = .ok bytes)
      (parsed : Json.parse bytes = .ok (.object index)) (listed : list.IsIn bytes)
      (carried : ∀ asset ∈ list.objects, CarriesDigest "hash" (.object index) (some asset.2.hash))
      (shelved : ∀ asset ∈ list.objects,
        asset.2.IsShelved assetsDir (objectFile (assetsDir / "objects") asset.2))
      (planned : ArePlanned (assetsDir / "objects") list.objects s s') :
      PlansDigests metadata assetsDir version s (.ok ()) s'
  | misled {s' : Planning} {fault : Fault}
      (fair : fault.IsFair "sha1" (.object metadata) metadataPlace) :
      PlansDigests metadata assetsDir version s (.error fault) s'
  | refused {s' : Planning} {fault : Fault} {bytes : Bytes} {index : Members}
      (read : s'.world.files.read (indexFile assetsDir version) = .ok bytes)
      (parsed : Json.parse bytes = .ok (.object index))
      (fair : fault.IsFair "hash" (.object index)
        (Place.ofText (documentName version ++ ": "))) :
      PlansDigests metadata assetsDir version s (.error fault) s'

theorem planAssets_plansDigests (metadata : Members) (assetsDir : Path)
    (version resources : String) (s : Planning) :
    PlansDigests metadata assetsDir version s
      ((planAssets metadata assetsDir version resources).run.run s).1
      ((planAssets metadata assetsDir version resources).run.run s).2 := by
  rcases ended : (planAssets metadata assetsDir version resources).run.run s with ⟨fault | _, s'⟩
  · rcases planAssets_isFair ended with fair | ⟨bytes, index, read, parsed, fair⟩
    · exact .misled fair
    · exact .refused read parsed fair
  · rcases planAssets_arePlanned ended with
      ⟨none, rfl⟩ | ⟨bytes, index, list, read, parsed, listed, planned⟩
    · exact .unnamed none
    · refine .planned read parsed listed (fun asset inside => ?_) (fun asset inside => ?_) planned
      · obtain ⟨index', members, parsed', same, each, -⟩ := listed
        cases parsed.symm.trans parsed'
        exact carriesDigest_of_isObject same each inside
      · exact isShelved_objectFile (listed.digest asset inside) assetsDir

/-- Digests that are admitted are those that are written with forty lower-case hexadecimal digits,
as all digests of contents are, and these with a line end behind them. What is read of digests from
entries of the index of versions, libraries, downloads and objects was admitted. Each of them is
refused only over a place that is not as it must be, and a digest of this form is as it must be; so
are the metadata and the index of assets. The assets that are planned are those of the index, each
at the place that its digest tells. -/
theorem digests_admitted (text : String) (state : Sha1) (platform : Platform) (destination : Path)
    (metadata : Members) (assetsDir : Path) (version resources : String) (s : Planning) :
    (isSha1 text ↔ IsDigest text ∨ ∃ digest, IsDigest digest ∧ text = digest ++ "\n") ∧
    (IsDigest text ↔ ∃ bytes : Bytes, bytes.length = 20 ∧ text = Bytes.hex bytes) ∧
    IsDigest state.hexDigest ∧
    AdmitsDigests "sha1" VersionEntry.parse (fun entry => [entry.sha1]) ∧
    AdmitsDigests "sha1" (Library.parse platform) (fun result => result.toList.map (·.sha1)) ∧
    AdmitsDigests "sha1" (fun v place => DownloadEntry.parse v destination place)
      (fun entry => [entry.sha1]) ∧
    PlansDigests metadata assetsDir version s
      ((planAssets metadata assetsDir version resources).run.run s).1
      ((planAssets metadata assetsDir version resources).run.run s).2 :=
  ⟨isSha1_iff, isDigest_iff_hex, state.hexDigest_isDigest, VersionEntry.parse_admitsDigests,
    Library.parse_admitsDigests platform, DownloadEntry.parse_admitsDigests destination,
    planAssets_plansDigests metadata assetsDir version resources s⟩

/-- An index with one object, whose file is planned. -/
theorem digests_admitted_object :
    let s := serving oneObject
    let run := (planAssets indexed (.ofText "a") "v" "http://h/").run.run s
    run.1 = .ok () ∧ ∃ list : AssetList,
      (∀ asset ∈ list.objects, asset.2.IsShelved (.ofText "a")
        (objectFile (Path.ofText "a" / "objects") asset.2)) ∧
      ArePlanned (Path.ofText "a" / "objects") list.objects s run.2 := by
  intro s run
  have succeeds : run.1.toBool = true := by decide +kernel
  have admitted : PlansDigests indexed (.ofText "a") "v" s run.1 run.2 :=
    (digests_admitted "" .initial Library.linux (.ofText "d") indexed (.ofText "a") "v"
      "http://h/" s).2.2.2.2.2.2
  clear_value run s
  obtain ⟨result, left⟩ := run
  cases admitted with
  | unnamed none => exact absurd none nofun
  | planned _ _ _ _ shelved planned => exact ⟨rfl, _, shelved, planned⟩
  | misled | refused => cases succeeds

/-- A text of forty-one characters is admitted though it is the digest of nothing. The file that is
planned for it has a line end in its name. -/
theorem lineEnd_admitted :
    let text := "da39a3ee5e6b4b0d3255bfef95601890afd80709\n"
    let object : AssetObject := ⟨text, none⟩
    isSha1 text ∧ ¬ IsDigest text ∧ (∀ content, sha1Hex content ≠ text) ∧
      AssetObject.parse (.object [("hash", .string text)]) (objectsPlace "v") = .ok object ∧
      object.IsShelved (.ofText "a") (objectFile (Path.ofText "a" / "objects") object) ∧
      (objectFile (Path.ofText "a" / "objects") object).name = text := by
  intro text object
  have admitted : isSha1 text := by decide +kernel
  have other : ¬ IsDigest text := fun digest => absurd digest.length (by decide +kernel)
  have unproduced : ∀ content, sha1Hex content ≠ text := fun content same =>
    other (same ▸ Sha1.hexDigest_isDigest _)
  have parsed : AssetObject.parse (.object [("hash", .string text)]) (objectsPlace "v") =
      .ok object := by decide +kernel
  have shelved : object.IsShelved (.ofText "a") (objectFile (Path.ofText "a" / "objects") object) :=
    @isShelved_objectFile object admitted _
  have named : (objectFile (Path.ofText "a" / "objects") object).name = text := by decide +kernel
  exact ⟨admitted, other, unproduced, parsed, shelved, named⟩

end InstallPlan
end Launcher
