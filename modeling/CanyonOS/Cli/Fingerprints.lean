import Mathlib
import CanyonOS.Cli.Sync

/-!
# Fingerprints

Whether the running deploy holds the project as it is now: `project_fingerprints` digests the
project's files, those under `config`, which a sync applies live, apart from the rest, and
`_require_current_deploy` compares the digests with those recorded. The images are built from the
contexts that `generate_docker` assembles.
-/

namespace CanyonOS.Fingerprints

open CodePoints FileTree Sync

/-! ### Files -/

/-- A file's bytes, or the target of a link, and the permission bits. -/
structure FileData where
  bytes : List UInt8
  mode : ℕ
deriving DecidableEq

abbrev Project := Sync.Project FileData

def text (string : String) : CodePoints :=
  ofString string

def configName : CodePoints :=
  text "config"

def grpcStubs : CodePoints :=
  text "grpc_stubs"

def manifestPath : Path :=
  [configName, text "global_controller.yaml"]

/-- `_SKIPPED_DIRS`, and `_UNBUILT_DIRS` of the command line. -/
def skippedDirs : List CodePoints :=
  [text "__pycache__", text "node_modules", text "venv", text "site-packages"]

/-- `_ROOT_SKIPPED_DIRS`. -/
def rootSkippedDirs : List CodePoints :=
  [text "docker_container", text "stubs", grpcStubs, configName]

/-- `RESERVED_CONTEXT_NAMES`. -/
def reservedNames : List CodePoints :=
  [text "Dockerfile", text "requirements.txt"]

def isHidden (name : CodePoints) : Bool :=
  name.head? = some (ofChar '.')

def endsWith (name suffix : CodePoints) : Bool :=
  suffix.isSuffixOf name

/-- A directory that neither the digests nor the images go into. -/
def isUnbuilt (name : CodePoints) : Bool :=
  isHidden name || skippedDirs.contains name || endsWith name (text ".egg-info")

/-- What the machine adds to the tree: where links lead. -/
structure Links where
  toDirectory : Tree CodePoints FileData → Path → Bool
  /-- what a file opened through a link has -/
  follow : Tree CodePoints FileData → Path → Option FileData

/-- What opening it gives. -/
def readFile (links : Links) (tree : Tree CodePoints FileData) (path : Path) : Option FileData :=
  match tree.get path with
  | some (.file data) => some data
  | some .directory => none
  | some (.link _) => if links.toDirectory tree path then none else links.follow tree path
  | none => if crossesLink tree path then links.follow tree path else none

/-! ### Digests -/

inductive Part where
  | code
  | config
deriving DecidableEq

def partOf (path : Path) : Part :=
  if path.head? = some configName then .config else .code

/-- The walk comes by it. -/
def isWalked (links : Links) (tree : Tree CodePoints FileData) (path : Path) : Bool :=
  path.dropLast.all (fun name => !isUnbuilt name) &&
    match tree.get path with
    | some (.file _) => true
    | some (.link _) => !links.toDirectory tree path
    | some .directory | none => false

/-- A path's node in the digests: the `.env` of another folder stands for the root's. -/
def nodeAt (project : Project) (path : Path) : Option (Node FileData) :=
  match project.env with
  | .elsewhere data => if path = [envName] then some (.file data) else project.root.get path
  | .absent | .inRoot => project.root.get path

/-- The name of a file in the project. -/
def relative (path : Path) : CodePoints :=
  [ofChar '/'].intercalate path

def nameLE (first second : Path) : Bool :=
  decide (relative first < relative second) || decide (relative first = relative second)

def walkedPaths (links : Links) (project : Project) : List Path :=
  let walked := project.root.paths.filter (isWalked links project.root)
  match project.env with
  | .elsewhere _ => if [envName] ∈ walked then walked else walked ++ [[envName]]
  | .absent | .inRoot => walked

/-- The files of a part, in the order of their names. -/
def listing (links : Links) (project : Project) (part : Part) : List (Path × Node FileData) :=
  (((walkedPaths links project).filter fun path => partOf path = part).mergeSort nameLE).filterMap
    fun path => (nodeAt project path).map fun node => (path, node)

def bytesOf : Node FileData → List UInt8
  | .file data | .link data => data.bytes
  | .directory => []

/-- What a digest is fed: a file's name, a null and its bytes, one after another. -/
def fed (files : List (Path × Node FileData)) : Option (List UInt8) :=
  (files.mapM fun file =>
    (encodeUtf8? (relative file.1)).map fun name => name ++ 0 :: bytesOf file.2).map List.flatten

/-- `project_fingerprints`; none when a name or a link's target has no encoding. -/
def projectFingerprints {Digest : Type} (links : Links) (sha256 : List UInt8 → Digest)
    (project : Project) : Option (Part → Digest) :=
  match fed (listing links project .code), fed (listing links project .config) with
  | some code, some config =>
      some fun
        | .code => sha256 code
        | .config => sha256 config
  | _, _ => none

/-! ### Build contexts -/

structure FunctionSpec where
  name : CodePoints
  /-- with the annotation of each -/
  arguments : List (CodePoints × Option CodePoints)
deriving DecidableEq

/-- An agent as the schema has it, for the other agents' images. -/
structure StubSpec where
  name : CodePoints
  entrypoint : Path
  functions : List FunctionSpec

/-- An agent as the config has it, for its own image. -/
structure ImageSpec where
  name : CodePoints
  entrypoint : Path
  requirements : List CodePoints

/-- The agents with code. -/
structure Manifest where
  stubs : List StubSpec
  images : List ImageSpec

inductive Artifact where
  | copied (data : FileData)
  /-- a file of CanyonOS itself -/
  | package (source : Path)
  /-- what `generate_stub` makes of an agent -/
  | stub (name : CodePoints) (functions : List FunctionSpec)
  | written (text : CodePoints)
  | dockerfile (name basename : CodePoints) (requirements : List CodePoints)
deriving DecidableEq

abbrev Context := Path → Option Artifact

structure Setup where
  links : Links
  /-- what a config says, read with a `.env` -/
  parse : List UInt8 → Option (List UInt8) → Option Manifest

/-- `_AGENT_FLAT_SOURCES`. -/
def flatModules : List CodePoints :=
  [text "future.py", text "canyonos_context.py", text "gateway_headers.py",
    text "canyonos_governance.py", text "canyonos_health.py", text "local_controller.py",
    text "local_controller_frontend.py", text "redis_client.py", text "grpc_options.py",
    text "log_entry.py", text "gpu_metrics.py", text "log_handler.py", text "human_input.py"]

/-- What the protos are compiled to. -/
def compiledModules : List CodePoints :=
  [text "global_controller_pb2.py", text "global_controller_pb2_grpc.py",
    text "local_controller_pb2.py", text "local_controller_pb2_grpc.py"]

/-- What `_copy_llm_gateway` copies under `canyonos_core`. -/
def gatewayFiles : List Path :=
  let gateway := text "llm_gateway"
  let providers := text "providers"
  [[text "__init__.py"], [gateway, text "README.md"], [gateway, text "__init__.py"],
    [gateway, text "__main__.py"], [gateway, text "app.py"], [gateway, text "config.py"],
    [gateway, text "core.py"], [gateway, text "hooks.py"], [gateway, text "llm_prices.json"],
    [gateway, text "llms.py"], [gateway, text "pricing.py"], [gateway, text "prompts.py"],
    [gateway, providers, text "__init__.py"], [gateway, providers, text "anthropic.py"],
    [gateway, providers, text "base.py"], [gateway, providers, text "bedrock.py"],
    [gateway, providers, text "openai.py"], [gateway, text "proxy.py"],
    [gateway, text "requirements.txt"], [gateway, text "routing.py"]]

/-- `BASE_AGENT_REQUIREMENTS`. -/
def baseRequirements : List CodePoints :=
  [text "grpcio>=1.76.0", text "protobuf>=6.31.1", text "redis>=3.5"]

def requirementsTxt (requirements : List CodePoints) : CodePoints :=
  [ofChar '\n'].intercalate (baseRequirements ++ requirements) ++ [ofChar '\n']

def bytes (string : String) : List UInt8 :=
  string.toUTF8.data.toList

def contains (content part : List UInt8) : Bool :=
  content.tails.any part.isPrefixOf

/-- `_looks_like_private_key`. -/
def looksLikePrivateKey (name : CodePoints) (data : FileData) : Bool :=
  let head := data.bytes.take 4096
  [text ".p12", text ".pfx", text ".jks"].any (endsWith name) ||
    (contains head (bytes "-----BEGIN") && contains head (bytes "PRIVATE KEY-----"))

/-- `_sweep_project_files` takes it. -/
def isSwept (path : Path) (data : FileData) : Bool :=
  path.dropLast.all (fun name => !isUnbuilt name) &&
    (path.dropLast.head?.all fun name => !rootSkippedDirs.contains name) &&
    path.getLast?.any fun name =>
      !isHidden name && !([text ".pyc", text ".pyo", text ".pyd"].any (endsWith name)) &&
        !looksLikePrivateKey name data && !(path.length = 1 && reservedNames.contains name)

def sweepProjectFiles (tree : Tree CodePoints FileData) : Context := fun path =>
  match tree.get path with
  | some (.file data) => if isSwept path data then some (.copied data) else none
  | some .directory | some (.link _) | none => none

/-- The `.py` files of `grpc_stubs`, into which the protos are compiled. -/
def grpcFiles (setup : Setup) (tree : Tree CodePoints FileData) : Context
  | [name] =>
      if endsWith name (text ".py") then
        if name ∈ compiledModules then some (.package [grpcStubs, name])
        else (readFile setup.links tree [grpcStubs, name]).map .copied
      else none
  | _ => none

def Context.place (context : Context) (path : Path) (artifact : Artifact) : Context :=
  Function.update context path (some artifact)

def Context.over (upper lower : Context) : Context := fun path =>
  (upper path).or (lower path)

/-- A stub lies in `stubs` under its entrypoint, the last agent's of one entrypoint. -/
def stubArtifact (stubs : List StubSpec) (entrypoint : Path) : Option Artifact :=
  (stubs.reverse.find? fun stub => stub.entrypoint = entrypoint).map fun stub =>
    .stub stub.name stub.functions

/-- `_stub_destination`. -/
def stubDestination (stubs : List StubSpec) (basename : Option CodePoints) : Option Path :=
  (stubs.reverse.find? fun stub => stub.entrypoint.getLast? = basename).map StubSpec.entrypoint

/-- A stub, by its file's name and in the place of the module it stands for. -/
def placeStub (stubs : List StubSpec) (context : Context) (stub : StubSpec) : Context :=
  match stub.entrypoint.getLast?, stubArtifact stubs stub.entrypoint,
    stubDestination stubs stub.entrypoint.getLast? with
  | some basename, some artifact, some destination =>
      (context.place [basename] artifact).place destination artifact
  | _, _, _ => context

/-- `generate_docker`; none when the agent's file is not there. -/
def generateDocker (setup : Setup) (tree : Tree CodePoints FileData) (stubs : List StubSpec)
    (image : ImageSpec) : Option Context := do
  let basename ← image.entrypoint.getLast?
  let agentFile ← readFile setup.links tree image.entrypoint
  let written : Context := Context.place (fun _ => none) [text "requirements.txt"]
    (.written (requirementsTxt image.requirements))
  let swept := (sweepProjectFiles tree).over written
  let flat := flatModules.foldl (fun context name => context.place [name] (.package [name])) swept
  let stubbed := stubs.foldl (placeStub stubs) flat
  let compiled := (grpcFiles setup tree).over stubbed
  let gateway := gatewayFiles.foldl
    (fun context path => context.place (text "canyonos_core" :: path) (.package path)) compiled
  some ((gateway.place [basename] (.copied agentFile)).place [text "Dockerfile"]
    (.dockerfile image.name basename image.requirements))

/-- The `.env` the config is read with. -/
def envBytes (setup : Setup) (project : Project) : Option (List UInt8) :=
  match project.env with
  | .elsewhere data => some data.bytes
  | .absent | .inRoot => (readFile setup.links project.root [envName]).map FileData.bytes

def manifestBytes (setup : Setup) (project : Project) : Option (List UInt8) :=
  (readFile setup.links project.root manifestPath).map FileData.bytes

def manifestOf (setup : Setup) (project : Project) : Option Manifest := do
  let bytes ← manifestBytes setup project
  setup.parse bytes (envBytes setup project)

/-- The context of each agent's image. -/
def buildContexts (setup : Setup) (project : Project) : Option (List (CodePoints × Context)) := do
  let manifest ← manifestOf setup project
  manifest.images.mapM fun image =>
    (generateDocker setup project.root manifest.stubs image).map fun context =>
      (image.name, context)

/-! ### Deploys and syncs -/

section Runs

variable {Digest : Type} [DecidableEq Digest]

structure State (Digest : Type) where
  project : Project
  /-- what the running deploy was built from -/
  built : Option Project
  /-- whose config was taken in last -/
  synced : Project
  deployed : Option (Part → Digest)

inductive Action where
  | edit (project : Project)
  | deploy
  /-- with the answer of the copy and of the reload -/
  | sync (succeeds : Bool)
  | stop

variable (setup : Setup) (sha256 : List UInt8 → Digest)

def deploy (state : State Digest) : State Digest :=
  match projectFingerprints setup.links sha256 state.project with
  | none => { state with built := none }
  | some fingerprints =>
      { state with
        built := (buildContexts setup state.project).map fun _ => state.project
        synced := state.project
        deployed := some fingerprints }

/-- `run_sync_and_reload`. -/
def syncAndReload (state : State Digest) (succeeds : Bool) : State Digest :=
  match state.built, projectFingerprints setup.links sha256 state.project, state.deployed with
  | some _, some fingerprints, some deployed =>
      if succeeds then
        { state with
          synced := state.project
          deployed := some fun
            | .code => deployed .code
            | .config => fingerprints .config }
      else state
  | _, _, _ => state

def system : TransitionSystem (State Digest) Action where
  step state
    | .edit project => some { state with project }
    | .deploy => some (deploy setup sha256 state)
    | .sync succeeds => some (syncAndReload setup sha256 state succeeds)
    | .stop => some { state with built := none }

/-- `_require_current_deploy` passes. -/
def requireCurrentDeploy (state : State Digest) : Bool :=
  match state.deployed, projectFingerprints setup.links sha256 state.project with
  | some deployed, some current =>
      current .code = deployed .code && current .config = deployed .config
  | _, _ => false

/-! ### When the digests tell -/

/-- Where the digest of a part is fed the same bytes for both, the files are the same. -/
def Told (part : Part) (project other : Project) : Prop :=
  ∀ bytes, fed (listing setup.links project part) = some bytes →
    fed (listing setup.links other part) = some bytes →
      listing setup.links project part = listing setup.links other part

def GrpcStubsHere (project : Project) : Prop :=
  ∀ target, project.root.get [grpcStubs] ≠ some (.link target)

/-- What the build opens by name are regular files in the digests. -/
structure Covered (project : Project) : Prop where
  manifest : ∃ data, project.root.get manifestPath = some (.file data)
  env : ∀ target, ([envName], .link target) ∉ listing setup.links project .code
  grpc : GrpcStubsHere project
  grpc_files : ∀ name target, project.root.get [grpcStubs, name] ≠ some (.link target)
  entrypoints : ∀ manifest ∈ manifestOf setup project, ∀ image ∈ manifest.images,
    ∃ data, (image.entrypoint, .file data) ∈ listing setup.links project .code ∧
      image.entrypoint ≠ [envName]

/-- The config says what the deploy's says of the agents. -/
structure SameAgents (project built : Project) : Prop where
  manifest : ∃ data, project.root.get manifestPath = some (.file data)
  agents : ((manifestBytes setup project).bind fun bytes =>
    setup.parse bytes (envBytes setup built)) = manifestOf setup built

/-- What the steps of a run keep to. -/
def Tells (state : State Digest) : Action → Prop
  | .edit project => ∀ built, state.built = some built →
      GrpcStubsHere project ∧ Told setup .code built project ∧
        Told setup .config state.synced project
  | .deploy => Covered setup state.project
  | .sync _ => ∀ built, state.built = some built → SameAgents setup state.project built
  | .stop => True

/-- No deploy has been made. -/
def start (project : Project) : State Digest where
  project := project
  built := none
  synced := project
  deployed := none

end Runs

/-! ### What the digests cover -/

section Listing

variable {links : Links} {project other : Project} {part : Part} {path : Path}
  {node : Node FileData}

theorem nodeAt_of_ne (hne : path ≠ [envName]) : nodeAt project path = project.root.get path := by
  unfold nodeAt
  cases project.env <;> simp [hne]

theorem mem_walkedPaths_of_ne (hne : path ≠ [envName]) :
    path ∈ walkedPaths links project ↔ isWalked links project.root path = true := by
  have hpaths (hwalked : isWalked links project.root path = true) : path ∈ project.root.paths := by
    rw [isWalked, Bool.and_eq_true] at hwalked
    cases hget : project.root.get path with
    | none => simp [hget] at hwalked
    | some node =>
        refine (project.root.mem_paths path).mpr ⟨fun hnil => ?_, by rw [hget]; rfl⟩
        rw [hnil, project.root.get_nil] at hwalked
        simp at hwalked
  unfold walkedPaths
  cases project.env with
  | absent => simpa using hpaths
  | inRoot => simpa using hpaths
  | elsewhere data =>
      simp only
      split_ifs
      · simpa using hpaths
      · simpa [hne] using hpaths

theorem mem_listing_of_ne (hne : path ≠ [envName]) : (path, node) ∈ listing links project part ↔
    isWalked links project.root path = true ∧ partOf path = part ∧
      project.root.get path = some node := by
  unfold listing
  rw [List.mem_filterMap]
  constructor
  · rintro ⟨walked, hmem, hnode⟩
    obtain ⟨found, hfound, heq⟩ := Option.map_eq_some_iff.mp hnode
    obtain ⟨rfl, rfl⟩ := Prod.mk.inj heq
    rw [List.mem_mergeSort, List.mem_filter, mem_walkedPaths_of_ne hne] at hmem
    exact ⟨hmem.1, of_decide_eq_true hmem.2, (nodeAt_of_ne hne).symm.trans hfound⟩
  · rintro ⟨hwalked, hpart, hget⟩
    refine ⟨path, ?_, by rw [nodeAt_of_ne hne, hget]; rfl⟩
    rw [List.mem_mergeSort, List.mem_filter, mem_walkedPaths_of_ne hne]
    exact ⟨hwalked, decide_eq_true hpart⟩

/-- Two projects of one listing have the same files where the walk comes by. -/
theorem get_of_listing (hlisting : listing links project part = listing links other part)
    (hne : path ≠ [envName]) (hwalked : isWalked links project.root path = true)
    (hpart : partOf path = part) : other.root.get path = project.root.get path := by
  cases hget : project.root.get path with
  | none => simp [isWalked, hget] at hwalked
  | some node =>
      have hmem : (path, node) ∈ listing links project part :=
        (mem_listing_of_ne hne).mpr ⟨hwalked, hpart, hget⟩
      rw [hlisting] at hmem
      exact ((mem_listing_of_ne hne).mp hmem).2.2

theorem isWalked_of_file {data : FileData} (hdirs : path.dropLast.all (fun name => !isUnbuilt name))
    (hget : project.root.get path = some (.file data)) :
    isWalked links project.root path = true := by
  rw [isWalked, hdirs, hget]
  rfl

end Listing

section Sweep

variable {setup : Setup} {project other : Project} {path : Path} {name : CodePoints}

theorem isUnbuilt_configName : isUnbuilt configName = false := by
  decide

theorem isUnbuilt_grpcStubs : isUnbuilt grpcStubs = false := by
  decide

theorem isHidden_envName : isHidden envName = true := by
  decide

/-- What goes into the images is in the digest of the code, a file `config` in the root apart. -/
theorem covered_of_swept {data : FileData} (hswept : isSwept path data = true)
    (hconfig : path ≠ [configName]) :
    path.dropLast.all (fun name => !isUnbuilt name) = true ∧ path ≠ [envName] ∧
      partOf path = .code := by
  rw [isSwept, Bool.and_eq_true, Bool.and_eq_true] at hswept
  obtain ⟨⟨hdirs, hroot⟩, hname⟩ := hswept
  refine ⟨hdirs, ?_, if_neg fun hhead => ?_⟩
  · rintro rfl
    simp [isHidden_envName] at hname
  · cases path with
    | nil => cases hhead
    | cons first rest =>
        obtain rfl : first = configName := Option.some.inj hhead
        cases rest with
        | nil => exact hconfig rfl
        | cons second rest => simp [rootSkippedDirs] at hroot

theorem sweep_of_listing
    (hlisting : listing setup.links project .code = listing setup.links other .code)
    (hconfig : project.root.get [configName] = some .directory) {artifact : Artifact}
    (hswept : sweepProjectFiles project.root path = some artifact) :
    sweepProjectFiles other.root path = some artifact := by
  unfold sweepProjectFiles at hswept ⊢
  cases hget : project.root.get path with
  | none => simp [hget] at hswept
  | some node =>
      cases node with
      | directory => simp [hget] at hswept
      | link target => simp [hget] at hswept
      | file data =>
          simp only [hget] at hswept
          split_ifs at hswept with hkeep
          have hne : path ≠ [configName] := by
            rintro rfl
            cases hconfig.symm.trans hget
          obtain ⟨hdirs, henv, hpart⟩ := covered_of_swept hkeep hne
          rw [get_of_listing hlisting henv (isWalked_of_file hdirs hget) hpart, hget]
          simp only [if_pos hkeep, hswept]

theorem sweep_eq (hlisting : listing setup.links project .code = listing setup.links other .code)
    (hconfig : project.root.get [configName] = some .directory)
    (hconfig' : other.root.get [configName] = some .directory) :
    sweepProjectFiles project.root = sweepProjectFiles other.root := by
  funext path
  apply Option.ext
  intro artifact
  exact ⟨sweep_of_listing hlisting hconfig, sweep_of_listing hlisting.symm hconfig'⟩

end Sweep

/-! ### What the build reads -/

section Read

variable {setup : Setup} {project other : Project} {path : Path}

theorem readFile_of_file {links : Links} {tree : Tree CodePoints FileData} {data : FileData}
    (hget : tree.get path = some (.file data)) : readFile links tree path = some data := by
  rw [readFile, hget]

theorem readFile_of_not_walked (hdirs : path.dropLast.all (fun name => !isUnbuilt name) = true)
    (hnot : isWalked setup.links project.root path = false)
    (hcross : crossesLink project.root path = false) :
    readFile setup.links project.root path = none := by
  rw [isWalked, hdirs, Bool.true_and] at hnot
  unfold readFile
  cases hget : project.root.get path with
  | none => simp [hcross]
  | some node =>
      rw [hget] at hnot
      cases node with
      | directory => rfl
      | file data => cases hnot
      | link target =>
          have hdirectory : setup.links.toDirectory project.root path = true := by simpa using hnot
          simp [hdirectory]

/-- Without links, a path in the digest of the code reads the same in both projects. -/
theorem readFile_of_listing
    (hlisting : listing setup.links project .code = listing setup.links other .code)
    (hdirs : path.dropLast.all (fun name => !isUnbuilt name) = true) (hne : path ≠ [envName])
    (hpart : partOf path = .code) (hlink : ∀ target, project.root.get path ≠ some (.link target))
    (hcross : crossesLink project.root path = false)
    (hcross' : crossesLink other.root path = false) :
    readFile setup.links project.root path = readFile setup.links other.root path := by
  by_cases hwalked : isWalked setup.links project.root path = true
  · have hother := get_of_listing hlisting hne hwalked hpart
    rw [isWalked, hdirs, Bool.true_and] at hwalked
    cases hget : project.root.get path with
    | none => simp [hget] at hwalked
    | some node =>
        cases node with
        | directory => simp [hget] at hwalked
        | link target => exact absurd hget (hlink target)
        | file data => rw [readFile_of_file hget, readFile_of_file (hother.trans hget)]
  · have hnot := Bool.eq_false_iff.mpr hwalked
    rw [readFile_of_not_walked hdirs hnot hcross, readFile_of_not_walked hdirs ?_ hcross']
    refine Bool.eq_false_iff.mpr fun hwalked' => hwalked ?_
    have hsame := get_of_listing hlisting.symm hne hwalked' hpart
    rw [isWalked, hdirs, Bool.true_and, ← hsame] at hwalked'
    cases hget : project.root.get path with
    | none => simp [hget] at hwalked'
    | some node =>
        cases node with
        | directory => simp [hget] at hwalked'
        | link target => exact absurd hget (hlink target)
        | file data => exact isWalked_of_file hdirs hget

theorem crossesLink_grpc (hgrpc : GrpcStubsHere project) (name : CodePoints) :
    crossesLink project.root [grpcStubs, name] = false := by
  have hlink : (project.root.get [grpcStubs]).any Node.isLink = false := by
    cases hget : project.root.get [grpcStubs] with
    | none => rfl
    | some node =>
        cases node with
        | directory => rfl
        | file data => rfl
        | link target => exact absurd hget (hgrpc target)
  rw [crossesLink, List.any_eq_false]
  intro above habove
  simp only [List.inits, List.map_cons, List.map_nil, List.dropLast, List.mem_cons,
    List.not_mem_nil, or_false] at habove
  rcases habove with rfl | rfl
  · simp [project.root.get_nil, Node.isLink]
  · rw [hlink]
    simp

theorem partOf_grpc (name : CodePoints) : partOf [grpcStubs, name] = .code := by
  have hne : grpcStubs ≠ configName := by decide
  exact if_neg fun heq => hne (Option.some.inj heq)

theorem grpcFiles_eq
    (hlisting : listing setup.links project .code = listing setup.links other .code)
    (hgrpc : GrpcStubsHere project) (hgrpc' : GrpcStubsHere other)
    (hlinks : ∀ name target, project.root.get [grpcStubs, name] ≠ some (.link target)) :
    grpcFiles setup project.root = grpcFiles setup other.root := by
  funext path
  unfold grpcFiles
  cases path with
  | nil => rfl
  | cons name rest =>
      cases rest with
      | cons => rfl
      | nil =>
          have hread : readFile setup.links project.root [grpcStubs, name] =
              readFile setup.links other.root [grpcStubs, name] :=
            readFile_of_listing hlisting (by simp [isUnbuilt_grpcStubs]) (by simp)
              (partOf_grpc name) (hlinks name) (crossesLink_grpc hgrpc name)
              (crossesLink_grpc hgrpc' name)
          simp only [hread]

/-- The `.env` the config is read with is in the digest of the code. -/
theorem envBytes_of_mem {data : FileData}
    (hmem : ([envName], .file data) ∈ listing setup.links project .code) :
    envBytes setup project = some data.bytes := by
  obtain ⟨path, -, hnode⟩ := List.mem_filterMap.mp hmem
  obtain ⟨node, hnode, heq⟩ := Option.map_eq_some_iff.mp hnode
  obtain ⟨rfl, rfl⟩ := Prod.mk.inj heq
  unfold nodeAt at hnode
  unfold envBytes
  cases henv : project.env with
  | elsewhere content =>
      simp only [henv, if_pos] at hnode
      cases hnode
      rfl
  | absent =>
      simp only [henv] at hnode
      rw [readFile_of_file hnode]
      rfl
  | inRoot =>
      simp only [henv] at hnode
      rw [readFile_of_file hnode]
      rfl

theorem partOf_envName : partOf [envName] = .code := by
  have hne : envName ≠ configName := by decide
  exact if_neg fun heq => hne (Option.some.inj heq)

theorem mem_listing_env {node : Node FileData}
    (hwalked : [envName] ∈ walkedPaths setup.links project)
    (hnode : nodeAt project [envName] = some node) :
    ([envName], node) ∈ listing setup.links project .code := by
  refine List.mem_filterMap.mpr ⟨[envName], ?_, by rw [hnode]; rfl⟩
  rw [List.mem_mergeSort, List.mem_filter]
  exact ⟨hwalked, decide_eq_true partOf_envName⟩

theorem envBytes_of_notMem
    (hnot : ∀ node, ([envName], node) ∉ listing setup.links project .code) :
    envBytes setup project = none := by
  have hcross : crossesLink project.root [envName] = false := by
    simp [crossesLink, project.root.get_nil, Node.isLink]
  have hroot (henv : ∀ content, project.env ≠ .elsewhere content) :
      readFile setup.links project.root [envName] = none := by
    refine readFile_of_not_walked (by simp) (Bool.eq_false_iff.mpr fun hwalked => ?_) hcross
    cases hget : project.root.get [envName] with
    | none => simp [isWalked, hget] at hwalked
    | some node =>
        refine hnot node (mem_listing_env ?_ ?_)
        · have hmem := (project.root.mem_paths [envName]).mpr ⟨by simp, by rw [hget]; rfl⟩
          unfold walkedPaths
          cases hcase : project.env with
          | elsewhere content => exact absurd hcase (henv content)
          | absent => exact List.mem_filter.mpr ⟨hmem, hwalked⟩
          | inRoot => exact List.mem_filter.mpr ⟨hmem, hwalked⟩
        · unfold nodeAt
          cases hcase : project.env with
          | elsewhere content => exact absurd hcase (henv content)
          | absent => exact hget
          | inRoot => exact hget
  unfold envBytes
  cases henv : project.env with
  | absent => simp only [hroot (by simp [henv]), Option.map_none]
  | inRoot => simp only [hroot (by simp [henv]), Option.map_none]
  | elsewhere content =>
      refine hnot (.file content) (mem_listing_env ?_ ?_) |>.elim
      · simp only [walkedPaths, henv]
        split_ifs with hmem
        · exact hmem
        · simp
      · simp [nodeAt, henv]

theorem directory_notMem_listing :
    ([envName], .directory) ∉ listing setup.links project .code := by
  intro hmem
  obtain ⟨path, hpath, hnode⟩ := List.mem_filterMap.mp hmem
  obtain ⟨node, hnode, heq⟩ := Option.map_eq_some_iff.mp hnode
  obtain ⟨rfl, rfl⟩ := Prod.mk.inj heq
  rw [List.mem_mergeSort, List.mem_filter] at hpath
  have hwalked := hpath.1
  unfold walkedPaths at hwalked
  unfold nodeAt at hnode
  cases henv : project.env with
  | elsewhere content => simp [henv] at hnode
  | absent =>
      simp only [henv] at hnode hwalked
      simp [isWalked, hnode] at hwalked
  | inRoot =>
      simp only [henv] at hnode hwalked
      simp [isWalked, hnode] at hwalked

theorem envBytes_eq
    (hlisting : listing setup.links project .code = listing setup.links other .code)
    (hlink : ∀ target, ([envName], .link target) ∉ listing setup.links project .code) :
    envBytes setup project = envBytes setup other := by
  by_cases hmem : ∃ node, ([envName], node) ∈ listing setup.links project .code
  · obtain ⟨node, hmem⟩ := hmem
    cases node with
    | link target => exact absurd hmem (hlink target)
    | file data => rw [envBytes_of_mem hmem, envBytes_of_mem (hlisting ▸ hmem)]
    | directory => exact absurd hmem directory_notMem_listing
  · have hnot := not_exists.mp hmem
    rw [envBytes_of_notMem hnot, envBytes_of_notMem (hlisting ▸ hnot)]

end Read

/-! ### Whether a deploy is current -/

section Current

variable {Digest : Type} {setup : Setup} {sha256 : List UInt8 → Digest}
  {project built : Project}

theorem configName_directory {data : FileData}
    (hget : project.root.get manifestPath = some (.file data)) :
    project.root.get [configName] = some .directory := by
  have hsome : (project.root.get manifestPath).isSome = true := by
    rw [hget]
    rfl
  exact Tree.get_of_prefix (List.prefix_append [configName] [text "global_controller.yaml"])
    (by simp) hsome

theorem mapM_congr {images : List ImageSpec} {first second : ImageSpec → Option α}
    (hsame : ∀ image ∈ images, first image = second image) :
    images.mapM first = images.mapM second := by
  induction images with
  | nil => rfl
  | cons image images ih =>
      rw [List.mapM_cons, List.mapM_cons, hsame image List.mem_cons_self,
        ih fun image hmem => hsame image (List.mem_cons_of_mem _ hmem)]

/-- The agent's file, what is swept and the compiled modules make a context. -/
theorem generateDocker_congr {tree other : Tree CodePoints FileData} {stubs : List StubSpec}
    {image : ImageSpec}
    (hread : readFile setup.links tree image.entrypoint =
      readFile setup.links other image.entrypoint)
    (hswept : sweepProjectFiles tree = sweepProjectFiles other)
    (hgrpc : grpcFiles setup tree = grpcFiles setup other) :
    generateDocker setup tree stubs image = generateDocker setup other stubs image := by
  unfold generateDocker
  rw [hread, hswept, hgrpc]

/-- What the digests cover and the agents the config names determine the contexts. -/
theorem buildContexts_eq (hcovered : Covered setup built)
    (hlisting : listing setup.links built .code = listing setup.links project .code)
    (hgrpc : GrpcStubsHere project) {data : FileData}
    (hmanifest : project.root.get manifestPath = some (.file data))
    (hagents : manifestOf setup project = manifestOf setup built) :
    buildContexts setup project = buildContexts setup built := by
  obtain ⟨data', hmanifest'⟩ := hcovered.manifest
  unfold buildContexts
  rw [hagents]
  cases hof : manifestOf setup built with
  | none => simp only [Option.bind_eq_bind, Option.bind_none]
  | some manifest =>
      have hdocker (image : ImageSpec) (himage : image ∈ manifest.images) :
          generateDocker setup project.root manifest.stubs image =
            generateDocker setup built.root manifest.stubs image := by
        obtain ⟨file, hmem, hne⟩ := hcovered.entrypoints manifest hof image himage
        have hget := ((mem_listing_of_ne hne).mp hmem).2.2
        rw [hlisting] at hmem
        have hget' := ((mem_listing_of_ne hne).mp hmem).2.2
        exact generateDocker_congr
          ((readFile_of_file hget').trans (readFile_of_file hget).symm)
          (sweep_eq hlisting (configName_directory hmanifest')
            (configName_directory hmanifest)).symm
          (grpcFiles_eq hlisting hcovered.grpc hgrpc hcovered.grpc_files).symm
      simp only [Option.bind_eq_bind, Option.bind_some]
      exact mapM_congr fun image himage => by rw [hdocker image himage]

/-- What holds while a deploy runs. -/
structure Consistent (setup : Setup) (sha256 : List UInt8 → Digest) (state : State Digest)
    (built : Project) : Prop where
  covered : Covered setup built
  grpc : GrpcStubsHere state.project
  code : Told setup .code built state.project
  config : Told setup .config state.synced state.project
  agents : SameAgents setup state.synced built
  deployed : ∃ deployed, state.deployed = some deployed ∧
    (∃ bytes, fed (listing setup.links built .code) = some bytes ∧
      deployed .code = sha256 bytes) ∧
    ∃ bytes, fed (listing setup.links state.synced .config) = some bytes ∧
      deployed .config = sha256 bytes

theorem told_refl {part : Part} : Told setup part project project :=
  fun _ _ _ => rfl

theorem fed_of_fingerprints {current : Part → Digest}
    (hcurrent : projectFingerprints setup.links sha256 project = some current) (part : Part) :
    ∃ bytes, fed (listing setup.links project part) = some bytes ∧
      current part = sha256 bytes := by
  unfold projectFingerprints at hcurrent
  cases hcode : fed (listing setup.links project .code) with
  | none => simp [hcode] at hcurrent
  | some code =>
      cases hconfig : fed (listing setup.links project .config) with
      | none => simp [hcode, hconfig] at hcurrent
      | some config =>
          simp only [hcode, hconfig, Option.some.injEq] at hcurrent
          subst hcurrent
          cases part with
          | code => exact ⟨code, hcode, rfl⟩
          | config => exact ⟨config, hconfig, rfl⟩

theorem manifestPath_walked {data : FileData}
    (hget : project.root.get manifestPath = some (.file data)) :
    isWalked setup.links project.root manifestPath = true :=
  isWalked_of_file (by simp [manifestPath, isUnbuilt_configName]) hget

theorem consistent_of_step {state after : State Digest} {action : Action}
    (hconsistent : ∀ built, state.built = some built → Consistent setup sha256 state built)
    (htells : Tells setup state action)
    (hstep : (system setup sha256).step state action = some after) :
    ∀ built, after.built = some built → Consistent setup sha256 after built := by
  intro built hbuilt
  cases action with
  | stop =>
      cases hstep
      cases hbuilt
  | edit project =>
      cases hstep
      obtain ⟨hgrpc, hcode, hconfig⟩ := htells built hbuilt
      exact { hconsistent built hbuilt with grpc := hgrpc, code := hcode, config := hconfig }
  | deploy =>
      cases hstep
      unfold deploy at hbuilt ⊢
      cases hprints : projectFingerprints setup.links sha256 state.project with
      | none => simp [hprints] at hbuilt
      | some fingerprints =>
          simp only [hprints, Option.map_eq_some_iff] at hbuilt ⊢
          obtain ⟨contexts, -, rfl⟩ := hbuilt
          exact {
            covered := htells
            grpc := htells.grpc
            code := told_refl
            config := told_refl
            agents := ⟨htells.manifest, rfl⟩
            deployed := ⟨fingerprints, rfl, fed_of_fingerprints hprints .code,
              fed_of_fingerprints hprints .config⟩ }
  | sync succeeds =>
      cases hstep
      unfold syncAndReload at hbuilt ⊢
      cases hbefore : state.built with
      | none => simp [hbefore] at hbuilt
      | some before =>
          have hkept := hconsistent before hbefore
          obtain ⟨deployed, hdeployed, hcode, hconfig⟩ := hkept.deployed
          cases hprints : projectFingerprints setup.links sha256 state.project with
          | none =>
              simp only [hbefore, hprints] at hbuilt ⊢
              cases hbuilt
              exact hkept
          | some fingerprints =>
              simp only [hbefore, hprints, hdeployed] at hbuilt ⊢
              split_ifs at hbuilt ⊢ with hsucceeds
              · cases hbuilt
                exact {
                  covered := hkept.covered
                  grpc := hkept.grpc
                  code := hkept.code
                  config := told_refl
                  agents := htells built hbefore
                  deployed := ⟨_, rfl, hcode, fed_of_fingerprints hprints .config⟩ }
              · exact hconsistent built hbuilt

variable [DecidableEq Digest]

theorem contexts_of_consistent {state : State Digest}
    (hinjective : Function.Injective sha256) (hconsistent : Consistent setup sha256 state built)
    (hcurrent : requireCurrentDeploy setup sha256 state = true) :
    buildContexts setup state.project = buildContexts setup built := by
  obtain ⟨deployed, hdeployed, ⟨code, hcode, hcode'⟩, ⟨config, hconfig, hconfig'⟩⟩ :=
    hconsistent.deployed
  unfold requireCurrentDeploy at hcurrent
  rw [hdeployed] at hcurrent
  cases hprints : projectFingerprints setup.links sha256 state.project with
  | none => simp [hprints] at hcurrent
  | some current =>
      simp only [hprints, Bool.and_eq_true, decide_eq_true_eq] at hcurrent
      obtain ⟨code₂, hfed, hsame⟩ := fed_of_fingerprints hprints .code
      obtain ⟨config₂, hfed', hsame'⟩ := fed_of_fingerprints hprints .config
      have hcodes : code₂ = code := hinjective (by rw [← hsame, hcurrent.1, hcode'])
      have hconfigs : config₂ = config := hinjective (by rw [← hsame', hcurrent.2, hconfig'])
      have hlisting := hconsistent.code code hcode (hcodes ▸ hfed)
      have hlisting' := hconsistent.config config hconfig (hconfigs ▸ hfed')
      obtain ⟨data, hmanifest⟩ := hconsistent.agents.manifest
      have hmanifest' := (get_of_listing hlisting' (by simp [manifestPath])
        (manifestPath_walked hmanifest) rfl).trans hmanifest
      refine buildContexts_eq hconsistent.covered hlisting hconsistent.grpc hmanifest' ?_
      rw [← hconsistent.agents.agents, manifestOf, manifestBytes, manifestBytes,
        readFile_of_file hmanifest, readFile_of_file hmanifest',
        envBytes_eq hlisting hconsistent.covered.env]
      rfl

/-- In a run whose steps keep to what the digests tell, a deploy that passes for current was built
from the contexts the project has now. -/
theorem current_deploy_is_built (hinjective : Function.Injective sha256) {first : Project}
    {actions : List Action} {state : State Digest}
    (htells : (system setup sha256).Guarded (Tells setup) (start first) actions)
    (hrun : (system setup sha256).run (start first) actions = some state)
    (hbuilt : state.built = some built)
    (hcurrent : requireCurrentDeploy setup sha256 state = true) :
    buildContexts setup state.project = buildContexts setup built := by
  have hstep (state : State Digest) (action : Action) (next : State Digest)
      (hconsistent : ∀ built, state.built = some built → Consistent setup sha256 state built)
      (htells : Tells setup state action)
      (hstep : (system setup sha256).step state action = some next) :
      ∀ built, next.built = some built → Consistent setup sha256 next built :=
    consistent_of_step hconsistent htells hstep
  have hconsistent := (system setup sha256).invariant_run hstep (by simp [start]) htells hrun
  exact contexts_of_consistent hinjective (hconsistent built hbuilt) hcurrent

end Current

section Requirements

variable {setup : Setup} {tree : Tree CodePoints FileData} {stubs : List StubSpec}
  {image : ImageSpec} {context : Context} {path : Path}

def requirementsName : CodePoints :=
  text "requirements.txt"

theorem place_of_ne {artifact : Artifact} {other : Path} (hne : other ≠ path) :
    context.place path artifact other = context other :=
  Function.update_of_ne hne ..

theorem foldl_place {α : Type} {items : List α} {target : α → Path} {artifact : α → Artifact}
    (hnot : ∀ item ∈ items, path ≠ target item) :
    items.foldl (fun context item => Context.place context (target item) (artifact item)) context
        path = context path := by
  induction items generalizing context with
  | nil => rfl
  | cons item items ih =>
      rw [List.foldl_cons, ih fun item hmem => hnot item (List.mem_cons_of_mem _ hmem),
        place_of_ne (hnot item List.mem_cons_self)]

theorem foldl_placeStub {items : List StubSpec}
    (hnot : ∀ stub ∈ stubs, ∀ basename ∈ stub.entrypoint.getLast?, path ≠ [basename])
    (hnot' : ∀ stub ∈ stubs, path ≠ stub.entrypoint) (hitems : ∀ stub ∈ items, stub ∈ stubs) :
    items.foldl (placeStub stubs) context path = context path := by
  induction items generalizing context with
  | nil => rfl
  | cons stub items ih =>
      rw [List.foldl_cons, ih fun stub hmem => hitems stub (List.mem_cons_of_mem _ hmem)]
      have hstub := hitems stub List.mem_cons_self
      unfold placeStub
      cases hbasename : stub.entrypoint.getLast? with
      | none => rfl
      | some basename =>
          cases stubArtifact stubs stub.entrypoint with
          | none => rfl
          | some artifact =>
              cases hdestination : stubDestination stubs (some basename) with
              | none => rfl
              | some destination =>
                  obtain ⟨found, hfound, rfl⟩ := Option.map_eq_some_iff.mp hdestination
                  have hmem := List.mem_reverse.mp (List.mem_of_find?_eq_some hfound)
                  simp only [place_of_ne (hnot' found hmem),
                    place_of_ne (hnot stub hstub basename hbasename)]

/-- An image's `requirements.txt` asks for what its agent does. -/
theorem generateDocker_requirements
    (hgenerate : generateDocker setup tree stubs image = some context)
    (hstubs : ∀ stub ∈ stubs, stub.entrypoint.getLast? ≠ some requirementsName)
    (himage : image.entrypoint.getLast? ≠ some requirementsName) :
    context [requirementsName] = some (.written (requirementsTxt image.requirements)) := by
  unfold generateDocker at hgenerate
  obtain ⟨basename, hbasename, hgenerate⟩ := Option.bind_eq_some_iff.mp hgenerate
  obtain ⟨agentFile, -, hgenerate⟩ := Option.bind_eq_some_iff.mp hgenerate
  cases hgenerate
  have hname : [requirementsName] ≠ [basename] := by
    rintro heq
    exact himage (hbasename.trans (by rw [List.singleton_inj.mp heq]))
  have hdocker : [requirementsName] ≠ [text "Dockerfile"] := by decide
  have hgateway : ∀ file ∈ gatewayFiles, [requirementsName] ≠ text "canyonos_core" :: file := by
    intro file _ heq
    exact absurd (List.cons.inj heq).1 (by decide)
  have hflat : ∀ name ∈ flatModules, [requirementsName] ≠ [name] := by decide
  have hgrpc : grpcFiles setup tree [requirementsName] = none := by
    have hsuffix : endsWith requirementsName (text ".py") = false := by decide
    simp [grpcFiles, hsuffix]
  have hswept : sweepProjectFiles tree [requirementsName] = none := by
    have hreserved : requirementsName ∈ reservedNames := by decide
    have hnot (data : FileData) : isSwept [requirementsName] data = false := by
      simp [isSwept, hreserved]
    unfold sweepProjectFiles
    cases tree.get [requirementsName] with
    | none => rfl
    | some node => cases node <;> simp [hnot]
  rw [place_of_ne hdocker, place_of_ne hname, foldl_place hgateway, Context.over, hgrpc,
    Option.none_or, foldl_placeStub ?_ ?_ fun _ h => h, foldl_place hflat, Context.over, hswept,
    Option.none_or]
  · exact Function.update_self ..
  · rintro stub hstub basename hbasename heq
    exact hstubs stub hstub (hbasename.trans (by rw [List.singleton_inj.mp heq]))
  · intro stub hstub heq
    exact hstubs stub hstub (by rw [← heq]; rfl)

end Requirements

section Example

def configText : List UInt8 :=
  bytes <| "endpoint:\n  agent: Planner\n  method: plan\n" ++
    "agents:\n- name: Planner\n  entrypoint: planner.py\n  functions:\n  - name: plan\n"

/-- The agent asks for another package. -/
def newConfigText : List UInt8 :=
  configText ++ bytes "  requirements:\n  - numpy\n"

def plannerFile : FileData where
  bytes := bytes "class Planner:\n    def plan(self):\n        return 1\n"
  mode := 420

def plannerPath : Path :=
  [text "planner.py"]

def plannerImage (requirements : List CodePoints) : ImageSpec where
  name := text "Planner"
  entrypoint := plannerPath
  requirements := requirements

def plannerManifest (requirements : List CodePoints) : Manifest where
  stubs := [⟨text "Planner", plannerPath, [⟨text "plan", []⟩]⟩]
  images := [plannerImage requirements]

def plannerSetup : Setup where
  links := ⟨fun _ _ => false, fun _ _ => none⟩
  parse content _ :=
    if content = configText then some (plannerManifest [])
    else if content = newConfigText then some (plannerManifest [text "numpy"])
    else none

def emptyFolder : Tree CodePoints FileData where
  get path := if path = [] then some .directory else none
  paths := []
  get_nil := if_pos rfl
  mem_paths := by simp
  parent := by simp

theorem nil_inequalities : [configName] ≠ [] ∧ manifestPath ≠ [] ∧ plannerPath ≠ [] := by
  decide

theorem path_inequalities : manifestPath ≠ [configName] ∧ plannerPath ≠ [configName] ∧
    plannerPath ≠ manifestPath := by
  decide

theorem get_emptyFolder {path : Path} (hne : path ≠ []) : emptyFolder.get path = none :=
  if_neg hne

def configFolder : Tree CodePoints FileData :=
  emptyFolder.put [configName] .directory nil_inequalities.1
    (by rw [List.dropLast_singleton]; exact emptyFolder.get_nil)
    (by rw [get_emptyFolder nil_inequalities.1]; simp)

theorem get_configFolder {path : Path} (hconfig : path ≠ [configName]) (hne : path ≠ []) :
    configFolder.get path = none :=
  (Tree.get_put_of_ne hconfig).trans (get_emptyFolder hne)

def configured (config : List UInt8) : Tree CodePoints FileData :=
  configFolder.put manifestPath (.file ⟨config, 420⟩) nil_inequalities.2.1
    (by
      rw [show manifestPath.dropLast = [configName] from rfl]
      exact Tree.get_put_self)
    (by rw [get_configFolder path_inequalities.1 nil_inequalities.2.1]; simp)

theorem get_configured {config : List UInt8} {path : Path} (hconfig : path ≠ [configName])
    (hmanifest : path ≠ manifestPath) (hne : path ≠ []) : (configured config).get path = none :=
  (Tree.get_put_of_ne hmanifest).trans (get_configFolder hconfig hne)

def plannerTree (config : List UInt8) : Tree CodePoints FileData :=
  (configured config).put plannerPath (.file plannerFile) nil_inequalities.2.2
    (by
      rw [show plannerPath.dropLast = [] from rfl]
      exact (configured config).get_nil)
    (by
      rw [get_configured path_inequalities.2.1 path_inequalities.2.2 nil_inequalities.2.2]
      simp)

def planner (config : List UInt8) : Project where
  root := plannerTree config
  env := .absent
  env_inRoot := by simp

variable {config : List UInt8}

theorem get_planner : (plannerTree config).get plannerPath = some (.file plannerFile) :=
  Tree.get_put_self

theorem get_manifest : (plannerTree config).get manifestPath = some (.file ⟨config, 420⟩) :=
  (Tree.get_put_of_ne path_inequalities.2.2.symm).trans Tree.get_put_self

theorem get_config : (plannerTree config).get [configName] = some .directory :=
  (Tree.get_put_of_ne path_inequalities.2.1.symm).trans
    ((Tree.get_put_of_ne path_inequalities.1.symm).trans Tree.get_put_self)

theorem get_other {path : Path} (hconfig : path ≠ [configName]) (hmanifest : path ≠ manifestPath)
    (hplanner : path ≠ plannerPath) (hne : path ≠ []) : (plannerTree config).get path = none :=
  (Tree.get_put_of_ne hplanner).trans (get_configured hconfig hmanifest hne)

theorem paths_planner : (plannerTree config).paths = [[configName], manifestPath, plannerPath] := by
  obtain ⟨hmanifest, hplanner, hboth⟩ := path_inequalities
  have hfolder : configFolder.paths = [[configName]] := Tree.paths_put (by simp [emptyFolder])
  have hconfigured : (configured config).paths = [[configName], manifestPath] := by
    rw [configured, Tree.paths_put (by simpa [hfolder] using hmanifest), hfolder]
    rfl
  rw [plannerTree, Tree.paths_put (by simpa [hconfigured] using ⟨hplanner, hboth⟩), hconfigured]
  rfl

theorem parts : partOf manifestPath = .config ∧ partOf plannerPath = .code := by
  decide

theorem walkedPaths_planner :
    walkedPaths plannerSetup.links (planner config) = [manifestPath, plannerPath] := by
  have hconfig : isWalked plannerSetup.links (plannerTree config) [configName] = false := by
    simp [isWalked, get_config]
  have hget : (planner config).root.get manifestPath = some (.file ⟨config, 420⟩) := get_manifest
  have hmanifest : isWalked plannerSetup.links (planner config).root manifestPath = true :=
    manifestPath_walked hget
  have hget' : (planner config).root.get plannerPath = some (.file plannerFile) := get_planner
  have hplanner : isWalked plannerSetup.links (planner config).root plannerPath = true :=
    isWalked_of_file (by simp [plannerPath]) hget'
  unfold walkedPaths
  simp only [planner, paths_planner] at hmanifest hplanner ⊢
  simp [hconfig, hmanifest, hplanner]

theorem listing_code : listing plannerSetup.links (planner config) .code =
    [(plannerPath, .file plannerFile)] := by
  have hnode : nodeAt (planner config) plannerPath = some (.file plannerFile) := get_planner
  simp [listing, walkedPaths_planner, parts, hnode]

theorem listing_config : listing plannerSetup.links (planner config) .config =
    [(manifestPath, .file ⟨config, 420⟩)] := by
  have hnode : nodeAt (planner config) manifestPath = some (.file ⟨config, 420⟩) := get_manifest
  simp [listing, walkedPaths_planner, parts, hnode]

theorem fed_singleton {path : Path} {data : FileData} {name : List UInt8}
    (hname : encodeUtf8? (relative path) = some name) :
    fed [(path, .file data)] = some (name ++ 0 :: data.bytes) := by
  simp [fed, hname, bytesOf]

theorem encode_ofString (string : String) : ∃ name, encodeUtf8? (ofString string) = some name := by
  rw [encodeUtf8?, toChars?_ofString]
  exact ⟨_, rfl⟩

theorem relative_manifest : relative manifestPath = text "config/global_controller.yaml" := by
  have hname : "config/global_controller.yaml" = "config" ++ ("/" ++ "global_controller.yaml") :=
    rfl
  rw [hname]
  simp [relative, manifestPath, configName, text, ofString, List.intercalate]

theorem relative_planner : relative plannerPath = text "planner.py" := by
  simp [relative, plannerPath, List.intercalate]

/-- The digest of the code is the same whatever the config is. -/
theorem fingerprints_planner : ∃ code name, ∀ config : List UInt8,
    projectFingerprints plannerSetup.links id (planner config) = some fun
      | .code => code
      | .config => name ++ 0 :: config := by
  obtain ⟨name, hname⟩ := encode_ofString "config/global_controller.yaml"
  obtain ⟨name', hname'⟩ := encode_ofString "planner.py"
  refine ⟨name' ++ 0 :: plannerFile.bytes, name, fun config => ?_⟩
  have hcode : fed [(plannerPath, .file plannerFile)] = some (name' ++ 0 :: plannerFile.bytes) :=
    fed_singleton (by rw [relative_planner]; exact hname')
  have hconfig : fed [(manifestPath, .file ⟨config, 420⟩)] = some (name ++ 0 :: config) :=
    fed_singleton (by rw [relative_manifest]; exact hname)
  unfold projectFingerprints
  rw [listing_code, listing_config, hcode, hconfig]
  rfl

theorem newConfigText_ne : newConfigText ≠ configText := by
  intro heq
  have hlength := congrArg List.length heq
  rw [newConfigText, List.length_append] at hlength
  have hpositive : (bytes "  requirements:\n  - numpy\n").length ≠ 0 := by decide
  omega

theorem manifestOf_planner : manifestOf plannerSetup (planner configText) =
      some (plannerManifest []) ∧
    manifestOf plannerSetup (planner newConfigText) = some (plannerManifest [text "numpy"]) := by
  have hbytes (config : List UInt8) :
      manifestBytes plannerSetup (planner config) = some config := by
    have hget : (planner config).root.get manifestPath = some (.file ⟨config, 420⟩) := get_manifest
    rw [manifestBytes, readFile_of_file hget]
    rfl
  have hparse (env : Option (List UInt8)) :
      plannerSetup.parse configText env = some (plannerManifest []) := by
    simp [plannerSetup]
  have hparse' (env : Option (List UInt8)) :
      plannerSetup.parse newConfigText env = some (plannerManifest [text "numpy"]) := by
    simp [plannerSetup, newConfigText_ne]
  constructor
  · rw [manifestOf, hbytes, Option.bind_eq_bind, Option.bind_some, hparse]
  · rw [manifestOf, hbytes, Option.bind_eq_bind, Option.bind_some, hparse']

theorem isSome_generateDocker {setup : Setup} {tree : Tree CodePoints FileData}
    {stubs : List StubSpec} {image : ImageSpec} {basename : CodePoints} {file : FileData}
    (hbasename : image.entrypoint.getLast? = some basename)
    (hread : readFile setup.links tree image.entrypoint = some file) :
    (generateDocker setup tree stubs image).isSome = true := by
  unfold generateDocker
  rw [hbasename, hread]
  simp only [Option.bind_eq_bind, Option.bind_some, Option.isSome_some]

theorem buildContexts_planner {requirements : List CodePoints}
    (hmanifest : manifestOf plannerSetup (planner config) = some (plannerManifest requirements)) :
    ∃ context : Context,
      buildContexts plannerSetup (planner config) = some [(text "Planner", context)] ∧
        context [requirementsName] = some (.written (requirementsTxt requirements)) := by
  have hget : (planner config).root.get plannerPath = some (.file plannerFile) := get_planner
  have hlast : plannerPath.getLast? = some (text "planner.py") := List.getLast?_singleton
  have hne : plannerPath.getLast? ≠ some requirementsName := by decide
  have hsome : (generateDocker plannerSetup (planner config).root
      (plannerManifest requirements).stubs (plannerImage requirements)).isSome = true :=
    isSome_generateDocker hlast (readFile_of_file hget)
  obtain ⟨context, hcontext⟩ := Option.isSome_iff_exists.mp hsome
  have hstubs : ∀ stub ∈ (plannerManifest requirements).stubs,
      stub.entrypoint.getLast? ≠ some requirementsName := by
    intro stub hstub
    obtain rfl := List.mem_singleton.mp hstub
    exact hne
  have himage : (plannerImage requirements).entrypoint.getLast? ≠ some requirementsName := hne
  have hwritten := generateDocker_requirements hcontext hstubs himage
  have himages : (plannerManifest requirements).images = [plannerImage requirements] := rfl
  have hbuild : buildContexts plannerSetup (planner config) = some [(text "Planner", context)] := by
    unfold buildContexts
    rw [hmanifest]
    simp only [Option.bind_eq_bind, Option.bind_some]
    rw [himages, List.mapM_cons, hcontext]
    rfl
  exact ⟨context, hbuild, hwritten⟩

/-- A sync takes in a config that asks for another package, and no image has it. -/
theorem synced_requirements_pass : ∃ state built,
    (system plannerSetup id).run (start (planner configText))
        [.deploy, .edit (planner newConfigText), .sync true] = some state ∧
      state.built = some built ∧ requireCurrentDeploy plannerSetup id state = true ∧
      buildContexts plannerSetup state.project ≠ buildContexts plannerSetup built := by
  obtain ⟨code, name, hprints⟩ := fingerprints_planner
  obtain ⟨context, hcontext, hrequirements⟩ := buildContexts_planner manifestOf_planner.1
  obtain ⟨context', hcontext', hrequirements'⟩ := buildContexts_planner manifestOf_planner.2
  refine ⟨⟨planner newConfigText, some (planner configText), planner newConfigText,
    some fun
      | .code => code
      | .config => name ++ 0 :: newConfigText⟩, planner configText, ?_, rfl, ?_, ?_⟩
  · simp only [TransitionSystem.run, system, start, deploy, syncAndReload, hprints, hcontext,
      Option.map_some, if_true]
  · simp [requireCurrentDeploy, hprints]
  · rw [hcontext, hcontext']
    intro heq
    simp only [Option.some.injEq, List.cons.injEq, Prod.mk.injEq, true_and, and_true] at heq
    rw [heq, hrequirements] at hrequirements'
    simp [requirementsTxt, baseRequirements, List.intercalate] at hrequirements'

theorem grpcStubsHere_planner : GrpcStubsHere (planner config) := by
  have hne : [grpcStubs] ≠ [configName] ∧ [grpcStubs] ≠ manifestPath ∧
      [grpcStubs] ≠ plannerPath ∧ [grpcStubs] ≠ [] := by decide
  have hget : (planner config).root.get [grpcStubs] = none :=
    get_other hne.1 hne.2.1 hne.2.2.1 hne.2.2.2
  simp [GrpcStubsHere, hget]

theorem covered_planner : Covered plannerSetup (planner configText) where
  manifest := ⟨_, get_manifest⟩
  env := by simp [listing_code]
  grpc := grpcStubsHere_planner
  grpc_files name target := by
    have hne : grpcStubs ≠ configName := by decide
    have hget : (planner configText).root.get [grpcStubs, name] = none :=
      get_other (by simp) (by simp [manifestPath, hne]) (by simp [plannerPath]) (by simp)
    simp [hget]
  entrypoints manifest hmanifest image himage := by
    rw [manifestOf_planner.1, Option.mem_some_iff] at hmanifest
    subst hmanifest
    obtain rfl := List.mem_singleton.mp himage
    have hne : plannerPath ≠ [envName] := by decide
    exact ⟨plannerFile, by rw [listing_code]; exact List.mem_singleton_self _, hne⟩

theorem told_planner {config other : List UInt8} (part : Part) :
    Told plannerSetup part (planner config) (planner other) := by
  obtain ⟨name, hname⟩ := encode_ofString "config/global_controller.yaml"
  have hfed (config : List UInt8) : fed [(manifestPath, .file ⟨config, 420⟩)] =
      some (name ++ 0 :: config) := fed_singleton (by rw [relative_manifest]; exact hname)
  intro bytes hbytes hother
  cases part with
  | code => rw [listing_code, listing_code]
  | config =>
      rw [listing_config, hfed] at hbytes hother
      rw [listing_config, listing_config]
      simp only [Option.some.injEq] at hbytes hother
      have hsame := hbytes.trans hother.symm
      simp only [List.append_cancel_left_eq, List.cons.injEq, true_and] at hsame
      rw [hsame]

/-- An edit that is undone. -/
theorem current_deploy_is_built_undone : ∃ state built,
    (system plannerSetup id).run (start (planner configText))
        [.deploy, .edit (planner newConfigText), .edit (planner configText)] = some state ∧
      state.built = some built ∧ requireCurrentDeploy plannerSetup id state = true ∧
      buildContexts plannerSetup state.project = buildContexts plannerSetup built := by
  obtain ⟨code, name, hprints⟩ := fingerprints_planner
  obtain ⟨context, hcontext, -⟩ := buildContexts_planner manifestOf_planner.1
  have hdeploy : deploy plannerSetup id (start (planner configText)) =
      ⟨planner configText, some (planner configText), planner configText, some fun
        | .code => code
        | .config => name ++ 0 :: configText⟩ := by
    simp only [deploy, start, hprints, hcontext, Option.map_some]
  have hrun : (system plannerSetup id).run (start (planner configText))
      [.deploy, .edit (planner newConfigText), .edit (planner configText)] =
        some (deploy plannerSetup id (start (planner configText))) := by
    simp only [TransitionSystem.run, system, hdeploy]
  have htells : (system plannerSetup id).Guarded (Tells plannerSetup) (start (planner configText))
      [.deploy, .edit (planner newConfigText), .edit (planner configText)] := by
    refine ⟨covered_planner, ?_, ?_, trivial⟩
    · rw [hdeploy]
      rintro built ⟨⟩
      exact ⟨grpcStubsHere_planner, told_planner _, told_planner _⟩
    · rw [hdeploy]
      rintro built ⟨⟩
      exact ⟨grpcStubsHere_planner, told_planner _, told_planner _⟩
  have hbuilt : (deploy plannerSetup id (start (planner configText))).built =
      some (planner configText) := by rw [hdeploy]
  have hcurrent : requireCurrentDeploy plannerSetup id
      (deploy plannerSetup id (start (planner configText))) = true := by
    simp [hdeploy, requireCurrentDeploy, hprints]
  exact ⟨_, _, hrun, hbuilt, hcurrent,
    current_deploy_is_built Function.injective_id htells hrun hbuilt hcurrent⟩

end Example

end CanyonOS.Fingerprints
