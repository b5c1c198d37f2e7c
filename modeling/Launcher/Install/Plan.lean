import Launcher.Files.Directories
import Launcher.Metadata.Library
import Launcher.World

/-! The plan of an installation: which files are to be downloaded, and which libraries, archives
and assets the version consists of. Files that are there are not downloaded again. -/
namespace Launcher

structure InstallPlan where
  jobs : DownloadList
  natives : List Path
  libraries : List Path
  assets : List (String × Path)
  indexName : Option String
  /-- Where assets are copied to under their names, for versions that want that. -/
  virtualDir : Option Path
  deriving Repr

structure Planning where
  world : World
  plan : InstallPlan

abbrev PlanAction (α : Type) := ExceptT Fault (StateM Planning) α

namespace InstallPlan

def ofJobs (jobs : DownloadList) : InstallPlan := ⟨jobs, [], [], [], none, none⟩

def shown (p : InstallPlan) : String :=
  s!"<InstallPlan jobs={p.jobs.count} natives={p.natives.length}>"

def officialResources : String := "http://resources.download.minecraft.net/"

def onWorld {α : Type} (action : Action α) : PlanAction α := do
  let s ← get
  let (result, world) := action.run.run s.world
  set { s with world }
  match result with
  | .ok value => pure value
  | .error e => throw e

/-- Plans a download unless the file is there. -/
def require (entry : DownloadEntry) : PlanAction Unit := do
  let s ← get
  match s.plan.jobs.add s.world.files entry true with
  | .ok (_, jobs) => set { s with plan := { s.plan with jobs } }
  | .error e => throw (.ofAdd e)

/-- Adds a path at the end unless it is listed. -/
def list (paths : List Path) (p : Path) : List Path :=
  if paths.contains p then paths else paths ++ [p]

/-- Plans one library: archives go to the directory of natives, others to that of libraries. -/
def planLibrary (librariesDir nativesDir : Path) (library : Library) : PlanAction Unit := do
  let file := (if library.isNative then nativesDir else librariesDir) / library.path
  require ⟨library.url, file, library.size, library.sha1, library.name⟩
  modify fun s => { s with plan :=
    if library.isNative then { s.plan with natives := list s.plan.natives file }
    else { s.plan with libraries := list s.plan.libraries file } }

def planAllowed (platform : Platform) (features : Features) (librariesDir nativesDir : Path) :
    List Library → PlanAction Unit
  | [] => pure ()
  | library :: rest => do
    match Rule.allows platform features library.rules with
    | .error e => throw (.evaluation (.pattern e))
    | .ok true => planLibrary librariesDir nativesDir library
    | .ok false => pure ()
    planAllowed platform features librariesDir nativesDir rest

def planLibraries (platform : Platform) (features : Features) (metadata : Members)
    (librariesDir nativesDir : Path) : PlanAction Unit := do
  match Library.parseAll platform metadata with
  | .error e => throw (.malformed e)
  | .ok libraries => planAllowed platform features librariesDir nativesDir libraries

def documentName (version : String) : String := s!"assets index {version}"

/-- The assets index of a version: the one that is kept, else it is fetched and kept. -/
def assetsIndex (info : Members) (version : String) (file : Path) : Action Members := do
  let name := documentName version
  match (← get).files.read file with
  | .ok bytes => Action.ofExcept id (readDocument name bytes)
  | .error (.system (.file .notFound _)) =>
    let place := metadataPlace.member "assetIndex"
    let url ← Action.ofExcept .malformed ((info.getD "url").asString (place.member "url"))
    let sha1 ← Action.ofExcept .malformed
      (DownloadEntry.parseSha1 (info.getD "sha1") (place.member "sha1"))
    let response ← Action.fetch url [] jsonType sha1
    let index ← Action.ofExcept id (readDocument name response.data)
    Action.writeBelow file response.data
    return index
  | .error e => throw (.ofAccess e)

/-- An object of an assets index: the digest that names its file, and its size. -/
structure AssetObject where
  hash : String
  size : Option Whole
  deriving DecidableEq, Repr

def AssetObject.parse (v : Json) (place : Place) : Except Malformed AssetObject := do
  let members ← v.asObject place
  let hash ← match members.getD "hash" with
    | .string hash =>
      if isSha1 hash then .ok hash else .error ⟨place.member "hash", .digest⟩
    | _ => .error ⟨place.member "hash", .digest⟩
  let size ← (members.getD "size").asWhole? (place.member "size")
  return { hash, size }

def AssetObject.shelf (o : AssetObject) : String := String.ofList (o.hash.toList.take 2)

/-- Plans the objects of an assets index, in order. -/
def planObjects (objectsDir : Path) (resources : String) (place : Place) :
    List (String × Json) → PlanAction Unit
  | [] => pure ()
  | (id, v) :: rest => do
    match AssetObject.parse v (place.member id) with
    | .error e => throw (.document (.malformed e))
    | .ok object =>
      let file := objectsDir / object.shelf / object.hash
      require ⟨resources ++ object.shelf ++ "/" ++ object.hash, file, object.size,
        some object.hash, id⟩
      modify fun s =>
        let assets := if s.plan.assets.any (·.1 == id)
          then s.plan.assets.map fun asset => if asset.1 == id then (id, file) else asset
          else s.plan.assets ++ [(id, file)]
        { s with plan := { s.plan with assets } }
    planObjects objectsDir resources place rest

/-- Plans the assets of metadata; old versions have none. -/
def planAssets (metadata : Members) (assetsDir : Path) (version resources : String) :
    PlanAction Unit := do
  match metadata.getD "assetIndex" with
  | .null => pure ()
  | info =>
    match info.asObject (metadataPlace.member "assetIndex") with
    | .error e => throw (.malformed e)
    | .ok info =>
      let index ← onWorld
        (assetsIndex info version (assetsDir / "indexes" / (version ++ ".json")))
      let place := (Place.ofText (documentName version ++ ": ")).member "objects"
      match (index.getD "objects").asObject place with
      | .error e => throw (.document (.malformed e))
      | .ok objects =>
        planObjects (assetsDir / "objects") resources place objects
        let isVirtual := (index.getD "virtual").isTruthy || (index.getD "map_to_resources").isTruthy
        modify fun s => { s with plan := { s.plan with
          indexName := some version
          virtualDir := if isVirtual then some (assetsDir / "virtual" / version)
            else s.plan.virtualDir } }

def planAll (platform : Platform) (features : Features) (metadata : Members)
    (directories : Directories) (version resources : String) : PlanAction Unit := do
  planLibraries platform features metadata directories.libraries (directories.natives version)
  planAssets metadata directories.assets version resources

end InstallPlan
end Launcher
