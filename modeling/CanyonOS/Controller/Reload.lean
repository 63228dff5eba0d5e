import Mathlib
import CanyonOS.Controller.Seeding
import CanyonOS.Lib.Raising

/-!
# Reloading the configuration

`reload_config`: the checks that read the edited folder, the writes that follow, and the conversions
made between the writes. Redis answers every command.
-/

namespace CanyonOS.Reload

open CodePoints JsonValue

inductive ReloadError where
  | schemaError (violations : List CodePoints)
  | runtimeError (message : CodePoints)
  | valueError
  | typeError
  | attributeError
  | unicodeEncodeError
  /-- `governance.parse` raised it -/
  | governance (error : Governance.PyError)

/-! ### What YAML holds -/

/-- A value without a JSON form: a date, a date-time, bytes or a set. -/
structure Foreign where
  /-- what `str` makes of it -/
  text : CodePoints
  /-- of bytes and sets -/
  length : Option ℕ

inductive Yaml where
  | null
  | bool (value : Bool)
  | int (value : Int)
  | float (value : FloatValue)
  | str (value : CodePoints)
  | list (items : List Yaml)
  | dict (items : List (Yaml × Yaml))
  | foreign (value : Foreign)

namespace Yaml

def isKey (key : String) : Yaml → Bool
  | str text => text = ofString key
  | _ => false

def get (items : List (Yaml × Yaml)) (key : String) : Option Yaml :=
  (items.find? fun entry => entry.1.isKey key).map Prod.snd

def isTruthy : Yaml → Bool
  | null => false
  | bool value => value
  | int value => value ≠ 0
  | float value => value ≠ .finite 0
  | str value => value ≠ []
  | list items => !items.isEmpty
  | dict items => !items.isEmpty
  | foreign value => value.length ≠ some 0

/-- `len` -/
def length : Yaml → Except ReloadError ℕ
  | str value => .ok (List.length value)
  | list items => .ok (List.length items)
  | dict items => .ok (List.length items)
  | foreign { length := some length, .. } => .ok length
  | null | bool _ | int _ | float _ | foreign _ => .error .typeError

/-- An integer of more digits is not printed. -/
@[irreducible]
def maxStrDigits : ℕ := 4300

def intText (value : Int) : Except ReloadError CodePoints :=
  if value.natAbs < 10 ^ maxStrDigits then .ok (ofString (toString value)) else .error .valueError

section Dumps

variable (floatText : FloatValue → CodePoints) (default : Foreign → Except ReloadError JsonValue)

/-- A mapping's key; `default` is not asked about those. -/
def dumpsKey : Yaml → Except ReloadError CodePoints
  | str key => .ok key
  | int key => intText key
  | float key => .ok (floatText key)
  | bool true => .ok (ofString "true")
  | bool false => .ok (ofString "false")
  | null => .ok (ofString "null")
  | list _ | dict _ | foreign _ => .error .typeError

mutual

/-- `json.dumps`: the JSON value it writes. -/
def dumps : Yaml → Except ReloadError JsonValue
  | null => .ok .null
  | bool value => .ok (.bool value)
  | int value => (intText value).map fun _ => .int value
  | float value => .ok (.float value)
  | str value => .ok (.str value)
  | list items => (dumpsItems items).map .list
  | dict items => (dumpsEntries items).map .dict
  | foreign value => default value

def dumpsItems : List Yaml → Except ReloadError (List JsonValue)
  | [] => .ok []
  | item :: items => do
      let item ← dumps item
      let items ← dumpsItems items
      .ok (item :: items)

def dumpsEntries : List (Yaml × Yaml) → Except ReloadError (List (CodePoints × JsonValue))
  | [] => .ok []
  | (key, value) :: entries => do
      let key ← dumpsKey floatText key
      let value ← dumps value
      let entries ← dumpsEntries entries
      .ok ((key, value) :: entries)

end

end Dumps

/-- `default=str` -/
def asText (value : Foreign) : Except ReloadError JsonValue :=
  .ok (.str value.text)

/-- Without a `default`. -/
def strict (_ : Foreign) : Except ReloadError JsonValue :=
  .error .typeError

end Yaml

/-! ### The edited folder -/

inductive Content where
  | notUtf8
  | invalidYaml (line : ℕ) (detail : CodePoints)
  /-- anything else the loader raises, over a date that is none for one -/
  | raises (error : ReloadError)
  | document (value : Yaml)

structure ConfigFile where
  name : CodePoints
  /-- with its dot -/
  extension : CodePoints
  content : Content

/-- A block of the manifest: the schema takes one without a value for one that is not there. -/
inductive Block (Value : Type) where
  | absent
  | empty
  | given (value : Value)

/-- Text that can be sent to Redis. -/
structure Text where
  points : CodePoints
  encodes : (encodeUtf8? points).isSome = true
deriving DecidableEq

/-- An entry of `agents` that the schema accepts. Of an agent the name is an identifier, of a
database any string. -/
structure AgentSpec where
  name : CodePoints
  replicas : Option Int
  stateful : Option Bool
  resources : Block (List (CodePoints × JsonValue))
  provider : Text
  /-- strings, numbers, lists and mappings of these -/
  others : List (CodePoints × JsonValue)

structure Destination where
  name : CodePoints
  endpoint : CodePoints
  others : List (CodePoints × JsonValue)

/-- What `_load_config` returns for a manifest that the schema accepts; the endpoint's spec is the
last of its agents. -/
structure Config where
  agents : List AgentSpec
  projectId : CodePoints
  pollInterval : Option JsonValue
  otel : Block (Option (List Destination))
  others : List (CodePoints × Yaml)

/-- What the endpoint's record takes from the checked manifest: the agent and method are identifiers
there. -/
structure Manifest where
  agent : Text
  method : Text
  arguments : List CodePoints
  apiPort : Option ℕ

/-- The folder as a reload finds it. `check_project` imports `.env`, so one that can't be read fails
there. -/
structure Edit where
  manifest : Except ReloadError Manifest
  config : Except ReloadError Config
  envFile : Option CodePoints
  /-- in the order of their names -/
  files : List ConfigFile

abbrev Host := CodePoints

/-- `CANYONOS_ENDPOINT_URL`, taken apart. -/
structure BaseUrl where
  publicHost : Text
  apiPort : ℕ
  text : Text

/-- What does not change while the controller runs. -/
structure Setup where
  /-- where `self.redis` is -/
  main : Host
  machines : List Host
  kubernetes : Bool
  /-- the exporter is registered with the supervisor -/
  exporting : Bool
  folder : CodePoints
  environ : CodePoints → Option CodePoints
  llmPrices : JsonValue
  baseUrl : Option BaseUrl
  publicIp : Text
  lastApiPort : ℕ
  dashboard : Option CodePoints
  projectName : Text
  now : CodePoints
  -- the standard library's, and the newest of a prompt's versions
  floatText : FloatValue → CodePoints
  fromisoformat : CodePoints → Option Governance.Datetime
  repr : CodePoints → CodePoints
  reprValue : JsonValue → CodePoints
  maxVersion : List JsonValue → Except ReloadError JsonValue

/-! ### `${VAR}` references -/

def isNameStart (char : CodePoint) : Bool :=
  char = ofChar '_' ∨ (ofChar 'A' ≤ char ∧ char ≤ ofChar 'Z') ∨
    (ofChar 'a' ≤ char ∧ char ≤ ofChar 'z')

def isNameChar (char : CodePoint) : Bool :=
  isNameStart char ∨ (ofChar '0' ≤ char ∧ char ≤ ofChar '9')

def openBrace : CodePoint := ofChar '\x7b'

def closeBrace : CodePoint := ofChar '\x7d'

/-- The name that a reference at the start of the text has, and what follows it. -/
def reference : CodePoints → Option (CodePoints × CodePoints)
  | dollar :: brace :: start :: rest =>
      let name := start :: rest.takeWhile isNameChar
      match rest.dropWhile isNameChar with
      | close :: after =>
          if dollar = ofChar '$' ∧ brace = openBrace ∧ isNameStart start ∧ close = closeBrace then
            some (name, after)
          else none
      | [] => none
  | _ => none

section Expand

variable (environ : CodePoints → Option CodePoints)

/-- `ENV_REF.sub`, of a text no longer than the first argument. -/
def expandText : ℕ → CodePoints → CodePoints
  | 0, text => text
  | _, [] => []
  | length + 1, char :: text =>
      match reference (char :: text) with
      | some (name, after) =>
          (environ name).getD (ofString "$\x7b" ++ name ++ [closeBrace]) ++ expandText length after
      | none => char :: expandText length text

def expandStr (text : CodePoints) : CodePoints :=
  expandText environ text.length text

mutual

/-- `expand_env_value` -/
def expandEnvValue : JsonValue → JsonValue
  | .str text => .str (expandStr environ text)
  | .list items => .list (expandItems items)
  | .dict items => .dict (expandEntries items)
  | .null => .null
  | .bool value => .bool value
  | .int value => .int value
  | .float value => .float value

def expandItems : List JsonValue → List JsonValue
  | [] => []
  | item :: items => expandEnvValue item :: expandItems items

def expandEntries : List (CodePoints × JsonValue) → List (CodePoints × JsonValue)
  | [] => []
  | (key, value) :: entries =>
      (expandStr environ key, expandEnvValue value) :: expandEntries entries

end

end Expand

/-! ### Reading the folder -/

/-- What `_read_config_folder` returns. -/
structure ConfigFiles where
  rules : List Yaml
  payloads : List (CodePoints × JsonValue)
  livePrompts : Option JsonValue
  governanceSeed : Option (List (CodePoints × Governance.AgentRules))

def isDict : JsonValue → Bool
  | .dict _ => true
  | _ => false

def isNumber : JsonValue → Bool
  | .int _ | .float _ => true
  | _ => false

section Reading

variable (setup : Setup)

def ConfigFile.path (file : ConfigFile) : CodePoints :=
  setup.folder ++ ofString "/" ++ file.name ++ file.extension

def ConfigFile.document (file : ConfigFile) : Except ReloadError Yaml :=
  match file.content with
  | .notUtf8 =>
      .error (.runtimeError (file.path setup ++ ofString " is not UTF-8 text; save it as UTF-8."))
  | .invalidYaml line detail =>
      .error (.runtimeError
        (file.path setup ++ ofString s!":{line}: is not valid YAML: " ++ detail))
  | .raises error => .error error
  | .document value => .ok value

/-- `_live_prompts` for one prompt. -/
def liveVersion (path : CodePoints) (prompt : CodePoints × JsonValue) :
    Except ReloadError (Option (CodePoints × JsonValue)) :=
  match prompt.2 with
  | .list versions =>
      if versions.all isDict then
        if versions = [] then .ok none
        else (setup.maxVersion versions).map fun version => some (prompt.1, version)
      else .error (.runtimeError (path ++ ofString ": prompt " ++ setup.repr prompt.1 ++
        ofString " must be a list of versions, each with `version` and `content`."))
  | _ => .error (.runtimeError (path ++ ofString ": prompt " ++ setup.repr prompt.1 ++
      ofString " must be a list of versions, each with `version` and `content`."))

def livePrompts (document : JsonValue) (path : CodePoints) : Except ReloadError JsonValue := do
  let shape : ReloadError :=
    .runtimeError (path ++ ofString " must have a `prompts:` mapping of prompt names.")
  match document with
  | .dict document =>
      match (JsonValue.get document (ofString "prompts")).filter isTruthy with
      | none => .ok (.dict [])
      | some (.dict prompts) => do
          let live ← prompts.mapM (liveVersion setup path)
          .ok (.dict live.reduceOption)
      | some _ => .error shape
  | _ => .error shape

def entryProblem (name : CodePoints) (problem : CodePoints) : ReloadError :=
  .runtimeError (ofString "llms.yaml entry " ++ name ++ ofString ": " ++ problem)

def validateCap (name : CodePoints) (cap : CodePoints × JsonValue) : Except ReloadError Unit :=
  match cap.2 with
  | .null => .ok ()
  | value =>
      if isNumber value then .ok ()
      else .error (entryProblem name (ofString "cap for " ++ cap.1 ++
        ofString " must be a number, got " ++ setup.reprValue value))

def validatePricedEntry (name : CodePoints) (llm : List (CodePoints × JsonValue)) :
    Except ReloadError Unit :=
  match (JsonValue.get llm (ofString "agents")).filter isTruthy with
  | none => .ok ()
  | some (.dict caps) =>
      if caps.all fun cap => cap.2 matches .null then .ok ()
      else if ((JsonValue.get llm (ofString "max_tokens")).filter isNumber).isNone then
        .error (entryProblem name (ofString "max_tokens must be a number to enforce a cap"))
      else caps.forM (validateCap setup name)
  | some _ => .error (entryProblem name (ofString
      "agents must map each agent name to its cap, like `IntentAgent: 0.01`"))

/-- What `index_llms` raises; the index itself is for the gateway. -/
def indexLlms (llms : JsonValue) : Except ReloadError Unit :=
  match llms with
  | .dict llms => llms.forM fun (name, llm) =>
      match llm with
      | .dict llm =>
          match (JsonValue.get llm (ofString "model_id")).filter isTruthy with
          | none => .ok ()
          | some modelId => do
              validatePricedEntry setup name llm
              match modelId with
              | .str _ => .ok ()
              | _ => .error .attributeError
      | _ => .ok ()
  | _ => .error .attributeError

def parseGovernance (document : JsonValue) :
    Except ReloadError (List (CodePoints × Governance.AgentRules)) :=
  match Governance.parse setup.fromisoformat setup.repr (expandEnvValue setup.environ document) with
  | .ok agents => .ok agents
  | .error (.valueError message) => .error (.runtimeError message)
  | .error error => .error (.governance error)

/-- A Python dict holds a key once. -/
def setPayload (key : CodePoints) (payload : JsonValue) (payloads : List (CodePoints × JsonValue)) :
    List (CodePoints × JsonValue) :=
  payloads.filter (fun entry => entry.1 ≠ key) ++ [(key, payload)]

def configKey (name : CodePoints) : CodePoints :=
  if name = ofString "prompts" then ofString "prompts:yaml" else name ++ ofString ":config"

def ConfigFile.isConfig (file : ConfigFile) : Bool :=
  (file.extension = ofString ".yaml" ∨ file.extension = ofString ".yml") ∧
    file.name.head? ≠ some (ofChar '.')

/-- The JSON text of the file, an empty document for one without anything. -/
def ConfigFile.payload (file : ConfigFile) : Except ReloadError JsonValue := do
  let document ← file.document setup
  let document := if document.isTruthy then document else .dict []
  document.dumps setup.floatText Yaml.asText

def readFile (files : ConfigFiles) (file : ConfigFile) : Except ReloadError ConfigFiles := do
  if file.isConfig then
    let payload ← file.payload setup
    if file.name = ofString "governance" then
      let agents ← parseGovernance setup payload
      .ok { files with governanceSeed := some agents }
    else
      let files :=
        { files with payloads := setPayload (configKey file.name) payload files.payloads }
      if file.name = ofString "prompts" then
        let live ← livePrompts setup payload (file.path setup)
        .ok { files with livePrompts := some live }
      else if file.name = ofString "llms" then
        indexLlms setup payload
        .ok files
      else .ok files
  else .ok files

def isMapping : Yaml → Bool
  | .dict _ => true
  | _ => false

def matchLength (rule : Yaml) : Except ReloadError ℕ :=
  match rule with
  | .dict rule => ((Yaml.get rule "match").getD (.dict [])).length
  | _ => .error .attributeError

/-- Most `match` keys first; of as many, as they are written. -/
def sortRules (rules : List Yaml) : Except ReloadError (List Yaml) := do
  let lengths ← rules.mapM matchLength
  .ok (((lengths.zip rules).mergeSort fun first second => second.1 ≤ first.1).map Prod.snd)

def ConfigFile.isPolicy (file : ConfigFile) : Bool :=
  file.name = ofString "policy" ∧ file.extension = ofString ".yaml"

def rulesOf : Yaml → Option (List Yaml)
  | .dict policy =>
      match Yaml.get policy "rules" with
      | none => some []
      | some (.list rules) => if rules.all isMapping then some rules else none
      | some _ => none
  | _ => none

/-- `_load_policy_rules` -/
def loadPolicyRules (files : List ConfigFile) : Except ReloadError (List Yaml) :=
  match files.find? ConfigFile.isPolicy with
  | none => .ok []
  | some file => do
      let policy ← file.document setup
      match rulesOf policy with
      | some rules => sortRules rules
      | none => .error (.runtimeError (file.path setup ++
          ofString " must be a mapping with a `rules:` list of mappings."))

def readConfigFolder (files : List ConfigFile) : Except ReloadError ConfigFiles := do
  let read ← files.foldlM (readFile setup)
    { rules := [], payloads := [], livePrompts := none, governanceSeed := none }
  let rules ← loadPolicyRules setup files
  .ok { read with rules }

end Reading

/-! ### Redis and the controller -/

structure Cell where
  key : Text
  /-- of a hash -/
  field : Option String
deriving DecidableEq

inductive Value where
  | json (value : JsonValue)
  | text (value : Text)
  | number (value : Int)
  | names (values : List Text)
  /-- a governance document that parses -/
  | document (value : Seeding.Document)

structure World where
  redis : Host → Cell → Option Value
  wakes : List CodePoints
  config : Config
  agentSpecs : List AgentSpec
  envFile : Option CodePoints
  pollInterval : JsonValue

def World.put (world : World) (host : Host) (cell : Cell) (value : Option Value) : World :=
  { world with
    redis := Function.update world.redis host (Function.update (world.redis host) cell value) }

abbrev Reloading := Raising World ReloadError

/-- No surrogate is in it. -/
abbrev Encodes (text : CodePoints) : Prop :=
  (encodeUtf8? text).isSome = true

def encode (text : CodePoints) : Reloading Text :=
  if hencodes : Encodes text then pure ⟨text, hencodes⟩ else throw .unicodeEncodeError

section Commands

variable (host : Host) (key : CodePoints)

def set (value : Value) : Reloading Unit := do
  let key ← encode key
  modify fun world => world.put host ⟨key, none⟩ (some value)

/-- `set` with `nx` -/
def setNew (value : Value) : Reloading Unit := do
  let key ← encode key
  modify fun world =>
    if (world.redis host ⟨key, none⟩).isSome then world
    else world.put host ⟨key, none⟩ (some value)

def hsetMultiple (mapping : List (String × Value)) : Reloading Unit := do
  let key ← encode key
  modify fun world => mapping.foldl
    (fun world (field, value) => world.put host ⟨key, some field⟩ (some value)) world

def delete : Reloading Unit := do
  let key ← encode key
  modify fun world => world.put host ⟨key, none⟩ none

/-- To a set that was just deleted. -/
def sadd (members : List CodePoints) : Reloading Unit := do
  let key ← encode key
  let members ← members.mapM encode
  modify fun world => world.put host ⟨key, none⟩ (some (.names members))

/-- The names in a list or a set. -/
def readNames : Reloading (List Text) := do
  let key ← encode key
  let world ← get
  match world.redis host ⟨key, none⟩ with
  | some (.names names) => pure names
  | _ => pure []

end Commands

/-! ### Writing -/

def agentKey (name : CodePoints) : CodePoints := ofString "agent:" ++ name ++ ofString ":"

def resourcesKey (name : CodePoints) : CodePoints :=
  ofString "agent:" ++ name ++ ofString ":resources"

def specKey (name : CodePoints) : CodePoints := ofString "agent:" ++ name ++ ofString ":spec"

def desiredKey (name : CodePoints) : CodePoints :=
  ofString "agent:" ++ name ++ ofString ":desired_replicas"

def Block.json : Block (List (CodePoints × JsonValue)) → JsonValue
  | .absent => .dict []
  | .empty => .null
  | .given value => .dict value

def AgentSpec.json (spec : AgentSpec) : JsonValue :=
  .dict ([(ofString "name", .str spec.name), (ofString "provider", .str spec.provider.points)] ++
    (spec.replicas.map fun replicas => (ofString "replicas", .int replicas)).toList ++
    (spec.stateful.map fun stateful => (ofString "stateful", .bool stateful)).toList ++
    (match spec.resources with
      | .absent => []
      | resources => [(ofString "resources", resources.json)]) ++ spec.others)

/-- `agent_spec.get("resources", {})`, asked for a key: nothing has no `get`. -/
def AgentSpec.resource (spec : AgentSpec) (key : String) (default : Int) : Reloading JsonValue :=
  match spec.resources with
  | .absent => pure (.int default)
  | .empty => throw .attributeError
  | .given resources => pure ((JsonValue.get resources (ofString key)).getD (.int default))

section Writing

variable (setup : Setup)

def Setup.targets : List Host :=
  if setup.machines.isEmpty then [setup.main] else setup.machines

def writeSpec (spec : AgentSpec) : Reloading Unit := do
  let replicas := JsonValue.int (spec.replicas.getD 1)
  hsetMultiple setup.main (agentKey spec.name) [
    ("resources", .json spec.resources.json),
    ("replicas", .json replicas),
    ("stateful", .json (.bool (spec.stateful.getD false))),
    ("provider", .text spec.provider)]
  let cpu ← spec.resource "cpu" 1
  let memory ← spec.resource "memory" 512
  hsetMultiple setup.main (resourcesKey spec.name) [
    ("cpu", .json cpu), ("memory", .json memory), ("replicas", .json replicas)]
  set setup.main (specKey spec.name) (.json spec.json)

def activeAgentsKey : CodePoints := ofString "agents:active"

def writeConfigSpecs (specs : List AgentSpec) : Reloading Unit := do
  specs.forM (writeSpec setup)
  let names ← specs.mapM fun spec => encode spec.name
  let published ← readNames setup.main activeAgentsKey
  let stale := published.filter (· ∉ names)
  let key ← encode activeAgentsKey
  modify fun world => world.put setup.main ⟨key, none⟩ (some (.names names))
  stale.forM fun name => delete setup.main (specKey name.points)

def wake (name : CodePoints) : Reloading Unit :=
  modify fun world => { world with wakes := name :: world.wakes }

/-- `_set_replicas` and `set_desired`. -/
def setReplicas (name : CodePoints) (count : Int) : Reloading Unit := do
  set setup.main (desiredKey name) (.number (max 0 count))
  wake name

/-- On Kubernetes the operator has the counts. -/
def applyConfiguredReplicas (specs : List AgentSpec) : Reloading Unit :=
  if setup.kubernetes then pure ()
  else specs.forM fun spec => setReplicas setup spec.name (spec.replicas.getD 1)

def policyRulesKey : CodePoints := ofString "policy:rules"

def llmPricesKey : CodePoints := ofString "llm_prices:models"

def configFilesKey : CodePoints := ofString "config:files"

def writePoliciesTo (files : ConfigFiles) (rules : JsonValue) (host : Host) : Reloading Unit := do
  set host policyRulesKey (.json rules)
  set host llmPricesKey (.json setup.llmPrices)
  let published ← readNames host configFilesKey
  let stale := published.filter fun key => key.points ∉ files.payloads.map Prod.fst
  stale.forM fun key => delete host key.points
  files.payloads.forM fun (key, payload) => set host key (.json payload)
  delete host configFilesKey
  sadd host configFilesKey (files.payloads.map Prod.fst)

/-- Kept where the dashboard has published its own. -/
def seedPrompts (live : Option JsonValue) : Reloading Unit :=
  match live with
  | some live =>
      setNew setup.main (ofString "prompts:config") (.json (.dict [(ofString "prompts", live)]))
  | none => pure ()

def governanceKey : CodePoints := ofString "governance:config"

/-- A stored document that does not parse is no document. -/
def seedGovernance (seed : Option (List (CodePoints × Governance.AgentRules))) : Reloading Unit :=
  match seed with
  | some agents => do
      let key ← encode governanceKey
      modify fun world =>
        let existing := match world.redis setup.main ⟨key, none⟩ with
          | some (.document existing) => some existing
          | _ => none
        world.put setup.main ⟨key, none⟩ (some (.document (Seeding.seed existing agents setup.now)))
  | none => pure ()

def writePolicies (files : ConfigFiles) : Reloading Unit := do
  let rules ← Raising.check (Yaml.dumpsItems setup.floatText Yaml.strict files.rules)
  setup.targets.forM (writePoliciesTo setup files (.list rules))
  seedPrompts setup files.livePrompts
  seedGovernance setup files.governanceSeed

def writeIdentity (config : Config) : Reloading Unit :=
  setup.targets.forM fun host => do
    let projectId ← encode config.projectId
    hsetMultiple host (ofString "controller:identity") [
      ("project_id", .text projectId), ("project_name", .text setup.projectName)]

def addressKey : CodePoints := ofString "endpoint:address"

/-- `endpoint_record`, published. -/
def writeEndpoint (manifest : Manifest) : Reloading Unit := do
  let key ← encode addressKey
  let world ← get
  let published := match world.redis setup.main ⟨key, some "api_port"⟩ with
    | some (.number port) => port
    | _ => setup.lastApiPort
  let (publicHost, apiPort, baseUrl) := match setup.baseUrl with
    | some base => (base.publicHost, (base.apiPort : Int), base.text.points)
    | none =>
        let apiPort := (manifest.apiPort.map Int.ofNat).getD published
        (setup.publicIp, apiPort, ofString "http://" ++ setup.publicIp.points ++
          ofString s!":{apiPort}")
  let url ← encode (baseUrl ++ ofString "/" ++ manifest.method.points)
  hsetMultiple setup.main addressKey [
    ("public_host", .text publicHost),
    ("api_port", .number apiPort),
    ("agent", .text manifest.agent),
    ("method", .text manifest.method),
    ("arguments", .json (.list (manifest.arguments.map .str))),
    ("url", .text url)]

def applyConfig (files : ConfigFiles) (manifest : Manifest) (config : Config) : Reloading Unit := do
  writeConfigSpecs setup config.agents
  applyConfiguredReplicas setup config.agents
  writePolicies setup files
  writeIdentity setup config
  writeEndpoint setup manifest

def forgetRemovedAgents (removed : List CodePoints) : Reloading Unit :=
  if setup.kubernetes then pure ()
  else do
    removed.forM fun name => delete setup.main (desiredKey name)
    wake (ofString "*")

def localDashboard : Destination where
  name := ofString "local"
  endpoint := ofString "http://host.docker.internal:3000"
  others := [(ofString "protocol", .str (ofString "http")), (ofString "headers", .dict [])]

def Destination.expand (destination : Destination) : Destination where
  name := expandStr setup.environ destination.name
  endpoint := expandStr setup.environ destination.endpoint
  others := expandEntries setup.environ destination.others

def Destination.json (destination : Destination) : JsonValue :=
  .dict ([(ofString "name", .str destination.name),
    (ofString "endpoint", .str destination.endpoint)] ++ destination.others)

def dashboardDestination (endpoint : CodePoints) : Destination where
  name := ofString "canyonos-dashboard"
  endpoint := endpoint
  others := [(ofString "protocol", .str (ofString "http")), (ofString "headers", .dict [])]

/-- An `otel:` without a value has no `get` either. -/
def configuredDestinations : Block (Option (List Destination)) →
    Reloading (Option (List Destination))
  | .absent => pure none
  | .empty => throw .attributeError
  | .given destinations => pure (destinations.filter (· ≠ []))

def otelDestinations (otel : Block (Option (List Destination))) : Reloading (List Destination) := do
  let configured ← configuredDestinations otel
  let expanded := (configured.getD [localDashboard]).map (Destination.expand setup)
  let kept := if setup.kubernetes then
      expanded.filter fun destination =>
        ¬ ofString "host.docker.internal" <:+: destination.endpoint
    else expanded
  pure (kept ++ ((setup.dashboard.filter (· ≠ [])).map dashboardDestination).toList)

def writeOtelDestinations (otel : Block (Option (List Destination))) : Reloading Unit := do
  let destinations ← otelDestinations setup otel
  if destinations = [] ∨ ¬ setup.exporting then pure ()
  else
    set setup.main (ofString "otel:destinations")
      (.json (.list (destinations.map Destination.json)))

/-- What is read before anything changes: `check_project`, `_read_config_folder` and
`_load_config`. -/
def readEdit (edit : Edit) : Except ReloadError (Manifest × ConfigFiles × Config) := do
  let manifest ← edit.manifest
  let files ← readConfigFolder setup edit.files
  let config ← edit.config
  .ok (manifest, files, config)

/-- The rest of `reload_config`, once the controller has the config. -/
def publish (manifest : Manifest) (files : ConfigFiles) (config : Config)
    (previous : List CodePoints) : Reloading Unit := do
  applyConfig setup files manifest config
  forgetRemovedAgents setup (previous.filter (· ∉ config.agents.map AgentSpec.name))
  writeOtelDestinations setup config.otel

def reloadConfig (edit : Edit) : Reloading Unit := do
  let (manifest, files, config) ← Raising.check (readEdit setup edit)
  modify fun world => { world with config, envFile := edit.envFile }
  let world ← get
  modify fun world => { world with
    agentSpecs := config.agents, pollInterval := config.pollInterval.getD (.int 5) }
  publish setup manifest files config (world.agentSpecs.map AgentSpec.name)

end Writing

/-! ### What a value without a JSON form does -/

namespace Yaml

mutual

/-- Nothing in it lacks a JSON form; keys aside. -/
def isPlain : Yaml → Bool
  | null | bool _ | int _ | float _ | str _ => true
  | list items => plainItems items
  | dict items => plainEntries items
  | foreign _ => false

def plainItems : List Yaml → Bool
  | [] => true
  | item :: items => isPlain item && plainItems items

def plainEntries : List (Yaml × Yaml) → Bool
  | [] => true
  | (_, value) :: entries => isPlain value && plainEntries entries

end

variable {floatText : FloatValue → CodePoints}

/-- What `outcome` is, where the same value was written before with `default=str`. -/
def StrictOutcome {Json : Type} (plain : Bool) (written : Json)
    (outcome : Except ReloadError Json) : Prop :=
  if plain then outcome = .ok written else ∃ error, outcome = .error error

theorem StrictOutcome.map {Json Other : Type} {plain : Bool} {written : Json}
    {outcome : Except ReloadError Json} (hstrict : StrictOutcome plain written outcome)
    (wrap : Json → Other) : StrictOutcome plain (wrap written) (outcome.map wrap) := by
  cases plain with
  | true =>
      rw [show outcome = .ok written from hstrict]
      rfl
  | false =>
      obtain ⟨error, rfl⟩ : ∃ error, outcome = .error error := hstrict
      exact ⟨error, rfl⟩

theorem StrictOutcome.bind {Json Other Both : Type} {plain others : Bool} {written : Json}
    {rest : Other} {outcome : Except ReloadError Json} {outcomes : Except ReloadError Other}
    (hfirst : StrictOutcome plain written outcome) (hrest : StrictOutcome others rest outcomes)
    (pair : Json → Other → Both) :
    StrictOutcome (plain && others) (pair written rest)
      (outcome >>= fun item => outcomes >>= fun items => .ok (pair item items)) := by
  cases plain with
  | false =>
      obtain ⟨error, rfl⟩ : ∃ error, outcome = .error error := hfirst
      exact ⟨error, rfl⟩
  | true =>
      rw [show outcome = .ok written from hfirst]
      cases others with
      | false =>
          obtain ⟨error, rfl⟩ : ∃ error, outcomes = .error error := hrest
          exact ⟨error, rfl⟩
      | true =>
          rw [show outcomes = .ok rest from hrest]
          rfl

theorem bind_eq_ok {Error First Second : Type} {first : Except Error First}
    {next : First → Except Error Second} {result : Second}
    (hresult : first >>= next = .ok result) :
    ∃ value, first = .ok value ∧ next value = .ok result := by
  cases first with
  | error error => cases hresult
  | ok value => exact ⟨value, rfl, hresult⟩

theorem map_eq_ok {Error First Second : Type} {first : Except Error First}
    {wrap : First → Second} {result : Second} (hresult : first.map wrap = .ok result) :
    ∃ value, first = .ok value ∧ wrap value = result := by
  cases first with
  | error error => cases hresult
  | ok value => exact ⟨value, rfl, Except.ok.inj hresult⟩

mutual

/-- `default=str` lets through what the strict encoder refuses: values without a JSON form, and
nothing else. -/
theorem strict_outcome : ∀ (value : Yaml) {written : JsonValue},
    dumps floatText asText value = .ok written →
      StrictOutcome value.isPlain written (dumps floatText strict value)
  | null, _, hwritten => hwritten
  | bool _, _, hwritten => hwritten
  | int _, _, hwritten => by
      rw [dumps] at hwritten
      rw [isPlain, StrictOutcome, if_pos rfl, dumps]
      exact hwritten
  | float _, _, hwritten => hwritten
  | str _, _, hwritten => hwritten
  | foreign _, _, _ => ⟨.typeError, rfl⟩
  | list items, _, hwritten => by
      rw [dumps] at hwritten
      obtain ⟨written, hitems, rfl⟩ := map_eq_ok hwritten
      rw [dumps, isPlain]
      exact (strict_outcome_items items hitems).map JsonValue.list
  | dict entries, _, hwritten => by
      rw [dumps] at hwritten
      obtain ⟨written, hentries, rfl⟩ := map_eq_ok hwritten
      rw [dumps, isPlain]
      exact (strict_outcome_entries entries hentries).map JsonValue.dict

theorem strict_outcome_items : ∀ (items : List Yaml) {written : List JsonValue},
    dumpsItems floatText asText items = .ok written →
      StrictOutcome (plainItems items) written (dumpsItems floatText strict items)
  | [], _, hwritten => hwritten
  | item :: items, _, hwritten => by
      rw [dumpsItems] at hwritten
      obtain ⟨first, hfirst, hrest⟩ := bind_eq_ok hwritten
      obtain ⟨rest, hitems, hpair⟩ := bind_eq_ok hrest
      cases hpair
      rw [dumpsItems, plainItems]
      exact (strict_outcome item hfirst).bind (strict_outcome_items items hitems) List.cons

theorem strict_outcome_entries : ∀ (entries : List (Yaml × Yaml))
    {written : List (CodePoints × JsonValue)},
    dumpsEntries floatText asText entries = .ok written →
      StrictOutcome (plainEntries entries) written (dumpsEntries floatText strict entries)
  | [], _, hwritten => hwritten
  | (key, value) :: entries, _, hwritten => by
      rw [dumpsEntries] at hwritten
      obtain ⟨name, hname, hvalues⟩ := bind_eq_ok hwritten
      obtain ⟨first, hfirst, hrest⟩ := bind_eq_ok hvalues
      obtain ⟨rest, hentries, hpair⟩ := bind_eq_ok hrest
      cases hpair
      rw [dumpsEntries, plainEntries, hname]
      exact (strict_outcome value hfirst).bind (strict_outcome_entries entries hentries)
        fun value entries => (name, value) :: entries

end

/-- Each of the items can be written. -/
theorem dumpsItems_ok_iff {default : Foreign → Except ReloadError JsonValue} {items : List Yaml} :
    (∃ written, dumpsItems floatText default items = .ok written) ↔
      ∀ item ∈ items, ∃ written, dumps floatText default item = .ok written := by
  induction items with
  | nil => exact ⟨fun _ _ hitem => (nomatch hitem), fun _ => ⟨[], rfl⟩⟩
  | cons item items ih =>
      rw [List.forall_mem_cons, ← ih]
      constructor
      · rintro ⟨written, hwritten⟩
        rw [dumpsItems] at hwritten
        obtain ⟨first, hfirst, hrest⟩ := bind_eq_ok hwritten
        obtain ⟨rest, hitems, -⟩ := bind_eq_ok hrest
        exact ⟨⟨first, hfirst⟩, rest, hitems⟩
      · rintro ⟨⟨first, hfirst⟩, rest, hitems⟩
        exact ⟨first :: rest, by rw [dumpsItems, hfirst, hitems]; rfl⟩

theorem plainItems_iff {items : List Yaml} :
    plainItems items ↔ ∀ item ∈ items, item.isPlain := by
  induction items with
  | nil => exact ⟨fun _ _ hitem => (nomatch hitem), fun _ => rfl⟩
  | cons item items ih => rw [plainItems, Bool.and_eq_true, ih, List.forall_mem_cons]

/-- The value of a key is written with the mapping. -/
theorem dumps_of_get {default : Foreign → Except ReloadError JsonValue}
    {entries : List (Yaml × Yaml)} {written : List (CodePoints × JsonValue)} {key : String}
    {value : Yaml} (hentries : dumpsEntries floatText default entries = .ok written)
    (hget : get entries key = some value) : ∃ json, dumps floatText default value = .ok json := by
  induction entries generalizing written with
  | nil => cases hget
  | cons entry entries ih =>
      rw [dumpsEntries] at hentries
      obtain ⟨name, -, hvalues⟩ := bind_eq_ok hentries
      obtain ⟨first, hfirst, hrest⟩ := bind_eq_ok hvalues
      obtain ⟨rest, hrest, -⟩ := bind_eq_ok hrest
      rw [get, List.find?_cons] at hget
      split at hget
      · cases hget
        exact ⟨first, hfirst⟩
      · exact ih hrest hget

end Yaml

/-! ### Which rules reach the writes -/

section Rules

variable {setup : Setup} {files : List ConfigFile}

theorem isConfig_of_isPolicy {file : ConfigFile} (hpolicy : file.isPolicy) : file.isConfig := by
  obtain ⟨hname, hextension⟩ := of_decide_eq_true hpolicy
  refine decide_eq_true ⟨Or.inl hextension, ?_⟩
  rw [hname]
  decide

/-- Every config file of a folder that was read could be written with `default=str`. -/
theorem exists_payload {read after : ConfigFiles}
    (hfold : files.foldlM (readFile setup) read = .ok after) {file : ConfigFile}
    (hfile : file ∈ files) (hconfig : file.isConfig) :
    ∃ payload, file.payload setup = .ok payload := by
  induction files generalizing read with
  | nil => cases hfile
  | cons first files ih =>
      rw [List.foldlM_cons] at hfold
      obtain ⟨middle, hread, hrest⟩ := Yaml.bind_eq_ok hfold
      rcases List.mem_cons.mp hfile with rfl | hfile
      · rw [readFile, if_pos hconfig] at hread
        obtain ⟨payload, hpayload, -⟩ := Yaml.bind_eq_ok hread
        exact ⟨payload, hpayload⟩
      · exact ih hrest hfile

theorem sortRules_perm {rules sorted : List Yaml} (hsorted : sortRules rules = .ok sorted) :
    sorted.Perm rules := by
  obtain ⟨lengths, hlengths, hresult⟩ := Yaml.bind_eq_ok hsorted
  cases hresult
  have hcount : lengths.length = rules.length := by
    clear hsorted
    induction rules generalizing lengths with
    | nil =>
        cases hlengths
        rfl
    | cons rule rules ih =>
        rw [List.mapM_cons] at hlengths
        obtain ⟨first, -, hrest⟩ := Yaml.bind_eq_ok hlengths
        obtain ⟨rest, htail, hlist⟩ := Yaml.bind_eq_ok hrest
        cases hlist
        rw [List.length_cons, List.length_cons, ih rest htail]
  have hzip : (lengths.zip rules).map Prod.snd = rules :=
    List.map_snd_zip (by omega)
  calc ((lengths.zip rules).mergeSort fun first second => second.1 ≤ first.1).map Prod.snd
      |>.Perm ((lengths.zip rules).map Prod.snd) := (List.mergeSort_perm _ _).map _
    _ = rules := hzip

/-- The rules that a folder is read with can be written with `default=str`. -/
theorem rules_writable {read : ConfigFiles} (hread : readConfigFolder setup files = .ok read) :
    ∃ written, Yaml.dumpsItems setup.floatText Yaml.asText read.rules = .ok written := by
  obtain ⟨before, hfold, hrules⟩ := Yaml.bind_eq_ok hread
  obtain ⟨rules, hload, hresult⟩ := Yaml.bind_eq_ok hrules
  cases hresult
  change ∃ written, Yaml.dumpsItems setup.floatText Yaml.asText rules = .ok written
  rw [loadPolicyRules] at hload
  split at hload
  case h_1 =>
    cases hload
    exact ⟨[], rfl⟩
  case h_2 file hfind =>
    have hpolicy : file.isPolicy := List.find?_some hfind
    obtain ⟨payload, hpayload⟩ :=
      exists_payload hfold (List.mem_of_find?_eq_some hfind) (isConfig_of_isPolicy hpolicy)
    obtain ⟨document, hdocument, hdumps⟩ := Yaml.bind_eq_ok hpayload
    obtain ⟨document', hdocument', hsort⟩ := Yaml.bind_eq_ok hload
    rw [hdocument] at hdocument'
    cases hdocument'
    split at hsort
    case h_2 => cases hsort
    case h_1 unsorted hof =>
      rw [Yaml.dumpsItems_ok_iff]
      intro rule hrule
      have hmem : rule ∈ unsorted := (sortRules_perm hsort).mem_iff.mp hrule
      obtain ⟨policy, rfl, hget⟩ : ∃ policy, document = .dict policy ∧
          Yaml.get policy "rules" = some (.list unsorted) := by
        unfold rulesOf at hof
        split at hof
        case h_2 => cases hof
        case h_1 policy =>
          split at hof
          case h_1 =>
            cases hof
            cases hmem
          case h_2 rules hget =>
            split_ifs at hof
            cases hof
            exact ⟨policy, rfl, hget⟩
          case h_3 => cases hof
      have hentries : ∃ written,
          Yaml.dumpsEntries setup.floatText Yaml.asText policy = .ok written := by
        cases policy with
        | nil => exact ⟨[], rfl⟩
        | cons entry entries =>
            rw [Yaml.isTruthy] at hdumps
            obtain ⟨written, hwritten, -⟩ := Yaml.map_eq_ok hdumps
            exact ⟨written, hwritten⟩
      obtain ⟨written, hwritten⟩ := hentries
      obtain ⟨json, hjson⟩ := Yaml.dumps_of_get hwritten hget
      obtain ⟨items, hitems, -⟩ := Yaml.map_eq_ok hjson
      exact Yaml.dumpsItems_ok_iff.mp ⟨items, hitems⟩ rule hmem

end Rules

/-! ### What can be sent -/

theorem encodes_append {first second : CodePoints} :
    Encodes (first ++ second) ↔ Encodes first ∧ Encodes second := by
  unfold Encodes encodeUtf8? toChars?
  rw [Option.isSome_map, Option.isSome_map, Option.isSome_map, List.mapM_append]
  cases List.mapM toChar? first with
  | none => exact ⟨fun hnone => (nomatch hnone), fun hnone => (nomatch hnone.1)⟩
  | some chars =>
      cases List.mapM toChar? second with
      | none => exact ⟨fun hnone => (nomatch hnone), fun hnone => (nomatch hnone.2)⟩
      | some rest => exact ⟨fun _ => ⟨rfl, rfl⟩, fun _ => rfl⟩

theorem encodes_ofString (text : String) : Encodes (ofString text) := by
  unfold Encodes encodeUtf8?
  rw [toChars?_ofString]
  rfl

/-- A key made of an agent's name can be sent when the name can. -/
theorem encodes_key {before after : String} {name : CodePoints} :
    Encodes (ofString before ++ name ++ ofString after) ↔ Encodes name := by
  rw [encodes_append, encodes_append]
  exact ⟨fun hencodes => hencodes.1.2,
    fun hname => ⟨⟨encodes_ofString before, hname⟩, encodes_ofString after⟩⟩

section Commands

variable {host : Host} {key : CodePoints}

theorem returns_encode (hencodes : Encodes key) : (encode key).Returns := by
  rw [encode, dif_pos hencodes]
  exact Raising.returns_pure _

theorem raises_encode (hencodes : ¬ Encodes key) : (encode key).Raises := by
  rw [encode, dif_neg hencodes]
  exact Raising.raises_throw _

theorem keeps_encode : (encode key).Keeps World.config := by
  unfold encode
  split
  · exact Raising.keeps_pure _
  · exact Raising.keeps_throw _

/-- A command with one key, that changes Redis only. -/
theorem keeps_command {change : Text → World → World}
    (hchange : ∀ key world, (change key world).config = world.config) :
    Raising.Keeps World.config (encode key >>= fun key => (modify (change key) : Reloading Unit)) :=
  keeps_encode.bind fun _ => Raising.keeps_modify (hchange _)

theorem returns_command {change : Text → World → World} (hencodes : Encodes key) :
    Raising.Returns (encode key >>= fun key => (modify (change key) : Reloading Unit)) :=
  (returns_encode hencodes).bind fun _ => Raising.returns_modify _

theorem raises_command {next : Text → Reloading Unit} (hencodes : ¬ Encodes key) :
    Raising.Raises (encode key >>= next) :=
  (raises_encode hencodes).bind _

theorem returns_set {value : Value} (hencodes : Encodes key) : (set host key value).Returns :=
  returns_command hencodes

theorem keeps_set {value : Value} : (set host key value).Keeps World.config :=
  keeps_command fun _ _ => rfl

theorem returns_setNew {value : Value} (hencodes : Encodes key) : (setNew host key value).Returns :=
  returns_command hencodes

theorem keeps_setNew {value : Value} : (setNew host key value).Keeps World.config := by
  refine keeps_command fun key world => ?_
  split_ifs <;> rfl

theorem returns_hsetMultiple {mapping : List (String × Value)} (hencodes : Encodes key) :
    (hsetMultiple host key mapping).Returns :=
  returns_command hencodes

theorem keeps_hsetMultiple {mapping : List (String × Value)} :
    (hsetMultiple host key mapping).Keeps World.config := by
  refine keeps_command fun key world => ?_
  induction mapping generalizing world with
  | nil => rfl
  | cons entry mapping ih =>
      rw [List.foldl_cons, ih]
      rfl

theorem returns_delete (hencodes : Encodes key) : (delete host key).Returns :=
  returns_command hencodes

theorem keeps_delete : (delete host key).Keeps World.config :=
  keeps_command fun _ _ => rfl

theorem returns_sadd {members : List CodePoints} (hencodes : Encodes key)
    (hmembers : ∀ member ∈ members, Encodes member) : (sadd host key members).Returns := by
  refine (returns_encode hencodes).bind fun _ => ?_
  refine (Raising.returns_mapM ?_).bind fun _ => Raising.returns_modify _
  exact fun member hmember => returns_encode (hmembers member hmember)

theorem keeps_sadd {members : List CodePoints} : (sadd host key members).Keeps World.config := by
  refine keeps_encode.bind fun _ => ?_
  refine (Raising.keeps_mapM ?_).bind fun _ => Raising.keeps_modify fun _ => rfl
  exact fun _ _ => keeps_encode

theorem returns_readNames (hencodes : Encodes key) : (readNames host key).Returns := by
  refine (returns_encode hencodes).bind fun _ => Raising.returns_get.bind fun world => ?_
  split <;> exact Raising.returns_pure _

theorem keeps_readNames : (readNames host key).Keeps World.config := by
  refine keeps_encode.bind fun _ => Raising.keeps_get.bind fun world => ?_
  split <;> exact Raising.keeps_pure _

end Commands

/-! ### What each of the writes needs -/

section Writes

variable {setup : Setup}

theorem returns_writeSpec {spec : AgentSpec} (hname : Encodes spec.name)
    (hresources : spec.resources ≠ .empty) : (writeSpec setup spec).Returns := by
  have hresource (key : String) (default : Int) : (spec.resource key default).Returns := by
    unfold AgentSpec.resource
    split
    case h_1 => exact Raising.returns_pure _
    case h_2 hempty => exact absurd hempty hresources
    case h_3 => exact Raising.returns_pure _
  refine (returns_hsetMultiple (encodes_key.mpr hname)).bind fun _ => ?_
  refine (hresource _ _).bind fun _ => (hresource _ _).bind fun _ => ?_
  refine (returns_hsetMultiple (encodes_key.mpr hname)).bind fun _ => ?_
  exact returns_set (encodes_key.mpr hname)

theorem raises_writeSpec {spec : AgentSpec}
    (hbad : ¬ Encodes spec.name ∨ spec.resources = .empty) : (writeSpec setup spec).Raises := by
  rcases hbad with hname | hempty
  · exact Raising.Raises.bind (raises_command (mt encodes_key.mp hname)) _
  · refine Raising.raises_bind fun _ => Raising.Raises.bind ?_ _
    rw [AgentSpec.resource, hempty]
    exact Raising.raises_throw _

theorem keeps_writeSpec (spec : AgentSpec) : (writeSpec setup spec).Keeps World.config := by
  have hresource (key : String) (default : Int) :
      (spec.resource key default).Keeps World.config := by
    unfold AgentSpec.resource
    split
    case h_1 => exact Raising.keeps_pure _
    case h_2 => exact Raising.keeps_throw _
    case h_3 => exact Raising.keeps_pure _
  refine keeps_hsetMultiple.bind fun _ => (hresource _ _).bind fun _ => ?_
  exact (hresource _ _).bind fun _ => keeps_hsetMultiple.bind fun _ => keeps_set

theorem returns_writeConfigSpecs {specs : List AgentSpec}
    (hnames : ∀ spec ∈ specs, Encodes spec.name)
    (hresources : ∀ spec ∈ specs, spec.resources ≠ .empty) :
    (writeConfigSpecs setup specs).Returns := by
  refine (Raising.returns_forM ?_).bind fun _ => (Raising.returns_mapM ?_).bind fun names => ?_
  · exact fun spec hspec => returns_writeSpec (hnames spec hspec) (hresources spec hspec)
  · exact fun spec hspec => returns_encode (hnames spec hspec)
  refine (returns_readNames (encodes_ofString _)).bind fun published => ?_
  refine (returns_encode (encodes_ofString _)).bind fun key => ?_
  refine (Raising.returns_modify _).bind fun _ => Raising.returns_forM fun name _ => ?_
  exact returns_delete (encodes_key.mpr name.encodes)

theorem raises_writeConfigSpecs {specs : List AgentSpec} {spec : AgentSpec} (hspec : spec ∈ specs)
    (hbad : ¬ Encodes spec.name ∨ spec.resources = .empty) :
    (writeConfigSpecs setup specs).Raises :=
  Raising.Raises.bind (Raising.raises_forM hspec (raises_writeSpec hbad)) _

theorem keeps_writeConfigSpecs (specs : List AgentSpec) :
    (writeConfigSpecs setup specs).Keeps World.config := by
  refine (Raising.keeps_forM ?_).bind fun _ => (Raising.keeps_mapM ?_).bind fun names => ?_
  · exact fun spec _ => keeps_writeSpec spec
  · exact fun _ _ => keeps_encode
  refine keeps_readNames.bind fun published => keeps_encode.bind fun key => ?_
  refine Raising.Keeps.bind (Raising.keeps_modify fun _ => rfl) fun _ => ?_
  exact Raising.keeps_forM fun _ _ => keeps_delete

theorem returns_setReplicas {name : CodePoints} {count : Int} (hname : Encodes name) :
    (setReplicas setup name count).Returns :=
  (returns_set (encodes_key.mpr hname)).bind fun _ => Raising.returns_modify _

theorem keeps_setReplicas {name : CodePoints} {count : Int} :
    (setReplicas setup name count).Keeps World.config :=
  keeps_set.bind fun _ => Raising.keeps_modify fun _ => rfl

theorem returns_applyConfiguredReplicas {specs : List AgentSpec}
    (hnames : ∀ spec ∈ specs, Encodes spec.name) :
    (applyConfiguredReplicas setup specs).Returns := by
  unfold applyConfiguredReplicas
  split
  · exact Raising.returns_pure _
  · exact Raising.returns_forM fun spec hspec => returns_setReplicas (hnames spec hspec)

theorem keeps_applyConfiguredReplicas (specs : List AgentSpec) :
    (applyConfiguredReplicas setup specs).Keeps World.config := by
  unfold applyConfiguredReplicas
  split
  · exact Raising.keeps_pure _
  · exact Raising.keeps_forM fun _ _ => keeps_setReplicas

theorem returns_writePoliciesTo {files : ConfigFiles} {rules : JsonValue} {host : Host}
    (hkeys : ∀ entry ∈ files.payloads, Encodes entry.1) :
    (writePoliciesTo setup files rules host).Returns := by
  refine (returns_set (encodes_ofString _)).bind fun _ => ?_
  refine (returns_set (encodes_ofString _)).bind fun _ => ?_
  refine (returns_readNames (encodes_ofString _)).bind fun published => ?_
  refine Raising.Returns.bind (Raising.returns_forM fun key _ => returns_delete key.encodes)
    fun _ => ?_
  refine Raising.Returns.bind (Raising.returns_forM ?_) fun _ => ?_
  · exact fun entry hentry => returns_set (hkeys entry hentry)
  refine (returns_delete (encodes_ofString _)).bind fun _ => returns_sadd (encodes_ofString _) ?_
  intro member hmember
  obtain ⟨entry, hentry, rfl⟩ := List.mem_map.mp hmember
  exact hkeys entry hentry

theorem raises_writePoliciesTo {files : ConfigFiles} {rules : JsonValue} {host : Host}
    {entry : CodePoints × JsonValue} (hentry : entry ∈ files.payloads)
    (hkey : ¬ Encodes entry.1) : (writePoliciesTo setup files rules host).Raises := by
  refine Raising.raises_bind fun _ => Raising.raises_bind fun _ => ?_
  refine Raising.raises_bind fun _ => Raising.raises_bind fun _ => ?_
  exact Raising.Raises.bind (Raising.raises_forM hentry (raises_command hkey)) _

theorem keeps_writePoliciesTo (files : ConfigFiles) (rules : JsonValue) (host : Host) :
    (writePoliciesTo setup files rules host).Keeps World.config := by
  refine keeps_set.bind fun _ => keeps_set.bind fun _ => keeps_readNames.bind fun published => ?_
  refine Raising.Keeps.bind (Raising.keeps_forM fun _ _ => keeps_delete) fun _ => ?_
  refine Raising.Keeps.bind (Raising.keeps_forM fun _ _ => keeps_set) fun _ => ?_
  exact keeps_delete.bind fun _ => keeps_sadd

theorem returns_seedPrompts (live : Option JsonValue) : (seedPrompts setup live).Returns := by
  unfold seedPrompts
  split
  · exact returns_setNew (encodes_ofString _)
  · exact Raising.returns_pure _

theorem keeps_seedPrompts (live : Option JsonValue) :
    (seedPrompts setup live).Keeps World.config := by
  unfold seedPrompts
  split
  · exact keeps_setNew
  · exact Raising.keeps_pure _

theorem returns_seedGovernance (seed : Option (List (CodePoints × Governance.AgentRules))) :
    (seedGovernance setup seed).Returns := by
  unfold seedGovernance
  split
  · exact returns_command (encodes_ofString _)
  · exact Raising.returns_pure _

theorem keeps_seedGovernance (seed : Option (List (CodePoints × Governance.AgentRules))) :
    (seedGovernance setup seed).Keeps World.config := by
  unfold seedGovernance
  split
  · exact keeps_command fun _ _ => rfl
  · exact Raising.keeps_pure _

theorem keeps_check {Value : Type} (outcome : Except ReloadError Value) :
    Raising.Keeps World.config (Raising.check outcome : Reloading Value) := by
  cases outcome with
  | ok value => exact Raising.keeps_pure _
  | error error => exact Raising.keeps_throw _

theorem returns_writePolicies {files : ConfigFiles} {written : List JsonValue}
    (hrules : Yaml.dumpsItems setup.floatText Yaml.strict files.rules = .ok written)
    (hkeys : ∀ entry ∈ files.payloads, Encodes entry.1) : (writePolicies setup files).Returns := by
  rw [writePolicies, hrules]
  refine Raising.Returns.bind (Raising.returns_pure _) fun rules => ?_
  refine Raising.Returns.bind (Raising.returns_forM ?_) fun _ => ?_
  · exact fun host _ => returns_writePoliciesTo hkeys
  exact (returns_seedPrompts _).bind fun _ => returns_seedGovernance _

theorem raises_writePolicies_of_rules {files : ConfigFiles} {error : ReloadError}
    (hrules : Yaml.dumpsItems setup.floatText Yaml.strict files.rules = .error error) :
    (writePolicies setup files).Raises := by
  rw [writePolicies, hrules]
  exact Raising.Raises.bind (Raising.raises_throw _) _

theorem targets_ne_nil : setup.targets ≠ [] := by
  unfold Setup.targets
  split
  · exact List.cons_ne_nil _ _
  · next hmachines => exact fun hnil => hmachines (by rw [hnil]; rfl)

theorem raises_writePolicies_of_keys {files : ConfigFiles} {entry : CodePoints × JsonValue}
    (hentry : entry ∈ files.payloads) (hkey : ¬ Encodes entry.1) :
    (writePolicies setup files).Raises := by
  obtain ⟨host, hhost⟩ := List.exists_mem_of_ne_nil _ targets_ne_nil
  refine Raising.raises_bind fun rules => Raising.Raises.bind ?_ _
  exact Raising.raises_forM hhost (raises_writePoliciesTo hentry hkey)

theorem keeps_writePolicies (files : ConfigFiles) :
    (writePolicies setup files).Keeps World.config := by
  refine (keeps_check _).bind fun rules => ?_
  refine Raising.Keeps.bind (Raising.keeps_forM ?_) fun _ => ?_
  · exact fun host _ => keeps_writePoliciesTo files _ host
  exact (keeps_seedPrompts _).bind fun _ => keeps_seedGovernance _

theorem returns_writeIdentity {config : Config} (hproject : Encodes config.projectId) :
    (writeIdentity setup config).Returns :=
  Raising.returns_forM fun _ _ => (returns_encode hproject).bind fun _ =>
    returns_hsetMultiple (encodes_ofString _)

theorem raises_writeIdentity {config : Config} (hproject : ¬ Encodes config.projectId) :
    (writeIdentity setup config).Raises := by
  obtain ⟨host, hhost⟩ := List.exists_mem_of_ne_nil _ targets_ne_nil
  exact Raising.raises_forM hhost (raises_command hproject)

theorem keeps_writeIdentity (config : Config) :
    (writeIdentity setup config).Keeps World.config :=
  Raising.keeps_forM fun _ _ => keeps_encode.bind fun _ => keeps_hsetMultiple

theorem returns_writeEndpoint (manifest : Manifest) : (writeEndpoint setup manifest).Returns := by
  have hurl (base : CodePoints) (hbase : Encodes base) :
      Encodes (base ++ ofString "/" ++ manifest.method.points) :=
    encodes_append.mpr
      ⟨encodes_append.mpr ⟨hbase, encodes_ofString _⟩, manifest.method.encodes⟩
  refine (returns_encode (encodes_ofString _)).bind fun key => ?_
  refine Raising.returns_get.bind fun world => ?_
  refine (returns_encode ?_).bind fun url => returns_hsetMultiple (encodes_ofString _)
  refine hurl _ ?_
  split
  · next base _ => exact base.text.encodes
  · exact encodes_append.mpr
      ⟨encodes_append.mpr ⟨encodes_ofString _, setup.publicIp.encodes⟩, encodes_ofString _⟩

theorem keeps_writeEndpoint (manifest : Manifest) :
    (writeEndpoint setup manifest).Keeps World.config := by
  refine keeps_encode.bind fun key => Raising.keeps_get.bind fun world => ?_
  exact keeps_encode.bind fun url => keeps_hsetMultiple

theorem returns_forgetRemovedAgents {removed : List CodePoints}
    (hremoved : ∀ name ∈ removed, Encodes name) : (forgetRemovedAgents setup removed).Returns := by
  unfold forgetRemovedAgents
  split
  · exact Raising.returns_pure _
  · refine Raising.Returns.bind (Raising.returns_forM ?_) fun _ => Raising.returns_modify _
    exact fun name hname => returns_delete (encodes_key.mpr (hremoved name hname))

theorem keeps_forgetRemovedAgents (removed : List CodePoints) :
    (forgetRemovedAgents setup removed).Keeps World.config := by
  unfold forgetRemovedAgents
  split
  · exact Raising.keeps_pure _
  · refine Raising.Keeps.bind (Raising.keeps_forM fun _ _ => keeps_delete) fun _ => ?_
    exact Raising.keeps_modify fun _ => rfl

theorem returns_writeOtelDestinations {otel : Block (Option (List Destination))}
    (hotel : otel ≠ .empty) : (writeOtelDestinations setup otel).Returns := by
  have hconfigured : (configuredDestinations otel).Returns := by
    cases otel with
    | absent => exact Raising.returns_pure _
    | empty => exact absurd rfl hotel
    | given destinations => exact Raising.returns_pure _
  refine Raising.Returns.bind (hconfigured.bind fun _ => Raising.returns_pure _)
    fun destinations => ?_
  split
  · exact Raising.returns_pure _
  · exact returns_set (encodes_ofString _)

theorem raises_writeOtelDestinations : (writeOtelDestinations setup .empty).Raises :=
  Raising.Raises.bind (Raising.Raises.bind (Raising.raises_throw _) _) _

theorem keeps_writeOtelDestinations (otel : Block (Option (List Destination))) :
    (writeOtelDestinations setup otel).Keeps World.config := by
  have hconfigured : (configuredDestinations otel).Keeps World.config := by
    cases otel with
    | absent => exact Raising.keeps_pure _
    | empty => exact Raising.keeps_throw _
    | given destinations => exact Raising.keeps_pure _
  refine Raising.Keeps.bind (hconfigured.bind fun _ => Raising.keeps_pure _) fun destinations => ?_
  split
  · exact Raising.keeps_pure _
  · exact keeps_set

end Writes

/-! ### When a failing reload changes nothing -/

/-- The keys in Redis, and the controller's own config and agent specs. -/
def Unchanged (before after : World) : Prop :=
  after.redis = before.redis ∧ after.config = before.config ∧ after.agentSpecs = before.agentSpecs

/-- The agents of a running deployment have been published. -/
def Running (world : World) : Prop :=
  ∀ spec ∈ world.agentSpecs, Encodes spec.name

def FailsCleanly (setup : Setup) (edit : Edit) : Prop :=
  ∀ world, Running world → ∀ error after,
    (reloadConfig setup edit).exec world = (.error error, after) → Unchanged world after

/-- No conversion made between the writes fails. -/
structure Publishable (files : ConfigFiles) (config : Config) : Prop where
  names : ∀ spec ∈ config.agents, Encodes spec.name
  resources : ∀ spec ∈ config.agents, spec.resources ≠ .empty
  rules : ∀ rule ∈ files.rules, rule.isPlain
  keys : ∀ entry ∈ files.payloads, Encodes entry.1
  projectId : Encodes config.projectId
  otel : config.otel ≠ .empty

section Cleanly

variable {setup : Setup} {edit : Edit} {manifest : Manifest} {files : ConfigFiles}
  {config : Config}

theorem returns_publish {written : List JsonValue} (hpublishable : Publishable files config)
    (hrules : Yaml.dumpsItems setup.floatText Yaml.strict files.rules = .ok written)
    {previous : List CodePoints} (hprevious : ∀ name ∈ previous, Encodes name) :
    (publish setup manifest files config previous).Returns := by
  have happly : (applyConfig setup files manifest config).Returns := by
    refine (returns_writeConfigSpecs hpublishable.names hpublishable.resources).bind fun _ => ?_
    refine (returns_applyConfiguredReplicas hpublishable.names).bind fun _ => ?_
    refine (returns_writePolicies hrules hpublishable.keys).bind fun _ => ?_
    refine (returns_writeIdentity hpublishable.projectId).bind fun _ => ?_
    exact returns_writeEndpoint manifest
  refine happly.bind fun _ => Raising.Returns.bind (returns_forgetRemovedAgents ?_) fun _ =>
    returns_writeOtelDestinations hpublishable.otel
  exact fun name hname => hprevious name (List.mem_of_mem_filter hname)

theorem keeps_publish (previous : List CodePoints) :
    (publish setup manifest files config previous).Keeps World.config := by
  have happly : (applyConfig setup files manifest config).Keeps World.config := by
    refine (keeps_writeConfigSpecs _).bind fun _ => ?_
    refine (keeps_applyConfiguredReplicas _).bind fun _ => ?_
    refine (keeps_writePolicies files).bind fun _ => (keeps_writeIdentity config).bind fun _ => ?_
    exact keeps_writeEndpoint manifest
  exact happly.bind fun _ => (keeps_forgetRemovedAgents _).bind fun _ =>
    keeps_writeOtelDestinations config.otel

/-- Each conversion that fails raises, in whatever state the earlier ones left. -/
theorem raises_publish (hread : readConfigFolder setup edit.files = .ok files)
    (hfails : ¬ Publishable files config) (previous : List CodePoints) :
    (publish setup manifest files config previous).Raises := by
  by_cases hspecs : ∀ spec ∈ config.agents, Encodes spec.name ∧ spec.resources ≠ .empty
  case neg =>
    push Not at hspecs
    obtain ⟨spec, hspec, hbad⟩ := hspecs
    refine Raising.Raises.bind (Raising.Raises.bind ?_ _) _
    refine raises_writeConfigSpecs hspec ?_
    exact or_iff_not_imp_left.mpr fun hname => hbad (not_not.mp hname)
  by_cases hpolicies : (∀ rule ∈ files.rules, rule.isPlain) ∧
      ∀ entry ∈ files.payloads, Encodes entry.1
  case neg =>
    refine Raising.Raises.bind (Raising.raises_bind fun _ => Raising.raises_bind fun _ =>
      Raising.Raises.bind ?_ _) _
    obtain ⟨written, hwritten⟩ := rules_writable hread
    have houtcome := Yaml.strict_outcome_items files.rules hwritten
    cases hplain : Yaml.plainItems files.rules with
    | false =>
        rw [hplain] at houtcome
        obtain ⟨error, herror⟩ := houtcome
        exact raises_writePolicies_of_rules herror
    | true =>
        have hkeys : ¬ ∀ entry ∈ files.payloads, Encodes entry.1 :=
          fun hkeys => hpolicies ⟨Yaml.plainItems_iff.mp hplain, hkeys⟩
        push Not at hkeys
        obtain ⟨entry, hentry, hkey⟩ := hkeys
        exact raises_writePolicies_of_keys hentry hkey
  by_cases hproject : Encodes config.projectId
  case neg =>
    refine Raising.Raises.bind (Raising.raises_bind fun _ => Raising.raises_bind fun _ =>
      Raising.raises_bind fun _ => Raising.Raises.bind ?_ _) _
    exact raises_writeIdentity hproject
  have hotel : config.otel = .empty := by
    by_contra hotel
    exact hfails
      { names := fun spec hspec => (hspecs spec hspec).1
        resources := fun spec hspec => (hspecs spec hspec).2
        rules := hpolicies.1
        keys := hpolicies.2
        projectId := hproject
        otel := hotel }
  refine Raising.raises_bind fun _ => Raising.raises_bind fun _ => ?_
  rw [hotel]
  exact raises_writeOtelDestinations

/-- The controller, once it has the new config. -/
def assigned (world : World) (edit : Edit) (config : Config) : World :=
  { world with
    config, envFile := edit.envFile
    agentSpecs := config.agents, pollInterval := config.pollInterval.getD (.int 5) }

theorem exec_reloadConfig_of_ok (hread : readEdit setup edit = .ok (manifest, files, config))
    (world : World) :
    (reloadConfig setup edit).exec world =
      (publish setup manifest files config (world.agentSpecs.map AgentSpec.name)).exec
        (assigned world edit config) := by
  rw [reloadConfig, hread]
  rfl

theorem exec_reloadConfig_of_error {error : ReloadError}
    (hread : readEdit setup edit = .error error) (world : World) :
    (reloadConfig setup edit).exec world = (.error error, world) := by
  rw [reloadConfig, hread]
  rfl

theorem readConfigFolder_of_readEdit (hread : readEdit setup edit = .ok (manifest, files, config)) :
    readConfigFolder setup edit.files = .ok files := by
  obtain ⟨_, -, hfolder⟩ := Yaml.bind_eq_ok hread
  obtain ⟨read, hfiles, hconfig⟩ := Yaml.bind_eq_ok hfolder
  obtain ⟨_, -, hresult⟩ := Yaml.bind_eq_ok hconfig
  cases hresult
  exact hfiles

theorem failsCleanly_iff (setup : Setup) (edit : Edit) :
    FailsCleanly setup edit ↔ ∀ manifest files config,
      readEdit setup edit = .ok (manifest, files, config) → Publishable files config := by
  constructor
  · intro hclean manifest files config hread
    by_contra hfails
    -- a controller that runs another config has this one afterwards
    let running : World :=
      { redis := fun _ _ => none, wakes := [], agentSpecs := [], envFile := none
        pollInterval := .null, config := { config with projectId := 0 :: config.projectId } }
    let program := publish setup manifest files config (running.agentSpecs.map AgentSpec.name)
    have hraises : program.Raises :=
      raises_publish (readConfigFolder_of_readEdit hread) hfails _
    have hkeeps : program.Keeps World.config := keeps_publish _
    have hexec := exec_reloadConfig_of_ok hread running
    obtain ⟨error, after, hraise⟩ := hraises (assigned running edit config)
    have hkept := hkeeps (assigned running edit config)
    rw [hraise] at hkept
    have hunchanged := hclean running (fun _ hspec => (nomatch hspec)) error after
      (hexec.trans hraise)
    have hconfig : config = running.config := hkept.symm.trans hunchanged.2.1
    have hlength := congrArg (fun config => config.projectId.length) hconfig
    exact absurd hlength (Nat.ne_of_lt (Nat.lt_succ_self _))
  · intro hpublishable world hrunning error after hraise
    cases hread : readEdit setup edit with
    | error refused =>
        rw [exec_reloadConfig_of_error hread] at hraise
        cases hraise
        exact ⟨rfl, rfl, rfl⟩
    | ok read =>
        obtain ⟨manifest, files, config⟩ := read
        have hready := hpublishable manifest files config hread
        obtain ⟨written, hwritten⟩ := rules_writable (readConfigFolder_of_readEdit hread)
        have houtcome := Yaml.strict_outcome_items files.rules hwritten
        rw [Yaml.plainItems_iff.mpr hready.rules] at houtcome
        have hprevious : ∀ name ∈ world.agentSpecs.map AgentSpec.name, Encodes name := by
          intro name hname
          obtain ⟨spec, hspec, rfl⟩ := List.mem_map.mp hname
          exact hrunning spec hspec
        rw [exec_reloadConfig_of_ok hread] at hraise
        have hreturns : (publish setup manifest files config _).Returns :=
          returns_publish hready houtcome hprevious
        obtain ⟨_, _, hreturn⟩ := hreturns (assigned world edit config)
        rw [hreturn] at hraise
        cases hraise

end Cleanly

/-! ### A date in a policy rule -/

def textOf (text : String) : Text :=
  ⟨ofString text, encodes_ofString text⟩

def planner (replicas : Int) : AgentSpec where
  name := ofString "Planner"
  replicas := some replicas
  stateful := none
  resources := .absent
  provider := textOf "local"
  others := [
    (ofString "entrypoint", .str (ofString "planner.py")),
    (ofString "functions", .list [.dict [(ofString "name", .str (ofString "plan"))]])]

def endpointSpec : AgentSpec where
  name := ofString "endpoint"
  replicas := some 1
  stateful := none
  resources := .given [(ofString "cpu", .int 2)]
  provider := textOf "local"
  others := [
    (ofString "type", .str (ofString "endpoint")),
    (ofString "api_port", .null),
    (ofString "agent", .str (ofString "Planner")),
    (ofString "method", .str (ofString "plan"))]

def configOf (replicas : Int) : Config where
  agents := [planner replicas, endpointSpec]
  projectId := ofString "p1"
  pollInterval := none
  otel := .absent
  others := []

def entry (key : String) (value : Yaml) : Yaml × Yaml :=
  (.str (ofString key), value)

def manifestYaml (replicas : Int) : Yaml :=
  .dict [
    entry "project_id" (.str (ofString "p1")),
    entry "agents" (.list [.dict [
      entry "name" (.str (ofString "Planner")),
      entry "replicas" (.int replicas),
      entry "entrypoint" (.str (ofString "planner.py")),
      entry "functions" (.list [.dict [entry "name" (.str (ofString "plan"))]])]]),
    entry "endpoint" (.dict [
      entry "agent" (.str (ofString "Planner")), entry "method" (.str (ofString "plan"))])]

/-- A rule of the policy that is to hold until a day. -/
def policyYaml : Yaml :=
  .dict [entry "rules" (.list [.dict [
    entry "match" (.dict [entry "region" (.str (ofString "eu"))]),
    entry "access" (.str (ofString "all")),
    entry "until" (.foreign { text := ofString "2026-12-31", length := none })]])]

def fileOf (name : String) (document : Yaml) : ConfigFile where
  name := ofString name
  extension := ofString ".yaml"
  content := .document document

/-- Three replicas instead of one, and that rule. -/
def datedRule : Edit where
  manifest := .ok
    { agent := textOf "Planner", method := textOf "plan", arguments := [], apiPort := none }
  config := .ok (configOf 3)
  envFile := none
  files := [fileOf "global_controller" (manifestYaml 3), fileOf "policy" policyYaml]

def laptop : Setup where
  main := ofString "localhost"
  machines := [ofString "localhost"]
  kubernetes := false
  exporting := true
  folder := ofString "config"
  environ := fun _ => none
  llmPrices := .dict []
  baseUrl := none
  publicIp := textOf "127.0.0.1"
  lastApiPort := 8080
  dashboard := none
  projectName := textOf "demo"
  now := ofString "2026-10-20T00:00:00.000Z"
  floatText := fun _ => []
  fromisoformat := fun _ => none
  repr := fun text => text
  reprValue := fun _ => []
  maxVersion := fun versions => .ok (versions.headD .null)

/-- Before anything was published. -/
def started : World where
  redis := fun _ _ => none
  wakes := []
  config := configOf 1
  agentSpecs := (configOf 1).agents
  envFile := none
  pollInterval := .int 5

def numberAt (world : World) (key : String) : Option Int :=
  match world.redis (ofString "localhost") ⟨textOf key, none⟩ with
  | some (.number number) => some number
  | _ => none

/-- The reload raises, and three replicas are desired. -/
def failsAfterScaling : Bool :=
  match (reloadConfig laptop datedRule).exec started with
  | (.error .typeError, after) => numberAt after "agent:Planner:desired_replicas" = some 3
  | _ => false

theorem not_failsCleanly_datedRule : ¬ FailsCleanly laptop datedRule := by
  intro hclean
  have hfails : failsAfterScaling = true := by decide +kernel
  unfold failsAfterScaling at hfails
  split at hfails
  case h_1 after hexec =>
    have hrunning : Running started := by
      intro spec hspec
      fin_cases hspec <;> exact encodes_ofString _
    have hredis := (hclean started hrunning _ after hexec).1
    have hnumber := of_decide_eq_true hfails
    unfold numberAt at hnumber
    rw [hredis] at hnumber
    cases hnumber
  case h_2 => cases hfails

end CanyonOS.Reload
