import Mathlib
import CanyonOS.Lib.CodePoints
import CanyonOS.Lib.FieldOwnership
import CanyonOS.Controller.Scaling

/-!
# Applying a project to Kubernetes

`_cmd_apply_project`: it reads the project's CanyonAgents, renders the ones the config asks for,
applies each and deletes the rest. An earlier run may have stopped after any of its calls, the
global controller scales agents in between, and an agent that was deleted stays until the operator
has drained it.
-/

namespace CanyonOS.ApplyProject

open CodePoints FieldOwnership

/-! ### Names -/

def isNameChar (char : CodePoint) : Bool :=
  (ofChar 'a' ≤ char ∧ char ≤ ofChar 'z') ∨ (ofChar '0' ≤ char ∧ char ≤ ofChar '9') ∨
    char = ofChar '-'

/-- A hyphen for each run of other characters; the first argument tells whether one is under way. -/
def hyphenate : Bool → CodePoints → CodePoints
  | _, [] => []
  | inRun, char :: text =>
      if isNameChar char then char :: hyphenate false text
      else if inRun then hyphenate true text
      else ofChar '-' :: hyphenate true text

def isHyphen (char : CodePoint) : Bool :=
  char = ofChar '-'

/-- `resource_name`, with the strings' `lower`. -/
def resourceName (lower : CodePoints → CodePoints) (agentName : CodePoints) : Option CodePoints :=
  let name := ((hyphenate false (lower agentName)).dropWhile isHyphen).rdropWhile isHyphen
  if name = [] then none else some ((name.take 63).rdropWhile isHyphen)

/-! ### The config folder -/

/-- As configured; none for what is not given. -/
structure Resources where
  /-- as `str` prints it -/
  cpu : Option CodePoints
  /-- in megabytes -/
  memory : Option Rat
  gpu : Option CodePoints
deriving DecidableEq

structure DatabaseSettings where
  storage : CodePoints
  storageClass : Option CodePoints
  runAsUser : Option ℕ
  fsGroup : Option ℕ
deriving DecidableEq

inductive AgentKind where
  | agent (stateful : Bool) (replicas : ℕ)
  | database (image : CodePoints) (port : ℕ) (volumePath : Option CodePoints)
deriving DecidableEq

structure AgentSpec where
  name : CodePoints
  kind : AgentKind
  resources : Resources
  env : List (CodePoints × CodePoints)

/-- What the schema accepts, and the folder's YAML files with what each has under `scaling`. -/
structure Folder where
  agents : List AgentSpec
  names_nodup : (agents.map AgentSpec.name).Nodup
  nodeSelector : List (CodePoints × CodePoints)
  databases : CodePoints → DatabaseSettings
  files : List (CodePoints × Option Scaling.PolicyDocument)

def scalingYaml : CodePoints :=
  ofString "scaling.yaml"

/-- The policy the global controller publishes: of two files, that of the later name. -/
def Folder.policy (folder : Folder) : Option Scaling.PolicyDocument :=
  ((folder.files.lookup (ofString "scaling.yml")).or (folder.files.lookup scalingYaml)).join

/-- The project is autoscaled. -/
def Folder.hasValidPolicy (folder : Folder) : Bool :=
  folder.policy.any fun policy => (Scaling.policyError policy).isNone

def Folder.hasScalingYaml (folder : Folder) : Bool :=
  (folder.files.lookup scalingYaml).isSome

/-! ### CanyonAgents -/

inductive Field where
  | projectRef
  | agentName
  | type
  | image
  | replicas
  | stateful
  | resources
  | env
  | database
  | placement
deriving DecidableEq

structure Limits where
  cpu : CodePoints
  /-- in mebibytes, the request too -/
  memory : Int
  gpu : Option CodePoints
deriving DecidableEq

structure Database where
  port : ℕ
  mountPath : CodePoints
  settings : DatabaseSettings
deriving DecidableEq

inductive SpecValue where
  | text (value : CodePoints)
  | flag (value : Bool)
  | count (value : ℕ)
  | limits (value : Limits)
  | entries (value : List (CodePoints × CodePoints))
  | database (value : Database)
deriving DecidableEq

inductive Manager where
  /-- every apply of the project's objects -/
  | cli
  /-- the global controller, through `/scale` -/
  | scaler
deriving DecidableEq

abbrev Spec := Object Field SpecValue Manager

/-- A CanyonAgent of the project. Only the count of its replicas is also written by others. -/
structure CanyonAgent where
  spec : Spec
  /-- the operator's finalizer is on it -/
  held : Bool
  deleting : Bool
  owned : ∀ field, field ≠ .replicas → ∀ entry ∈ spec field, entry.owners = {.cli}
  held_of_deleting : deleting = true → held = true

def CanyonAgent.count (agent : CanyonAgent) : Option ℕ :=
  match values agent.spec .replicas with
  | some (.count count) => some count
  | _ => none

/-- The project's CanyonAgents, with the names in the order the API lists them. -/
@[ext]
structure Cluster where
  get : CodePoints → Option CanyonAgent
  names : List CodePoints
  mem_names : ∀ name, name ∈ names ↔ (get name).isSome = true
  nodup : names.Nodup

namespace Cluster

def put (cluster : Cluster) (name : CodePoints) (agent : CanyonAgent) : Cluster where
  get := Function.update cluster.get name (some agent)
  names := if (cluster.get name).isSome then cluster.names else cluster.names ++ [name]
  mem_names := by
    intro other
    by_cases heq : other = name
    · subst heq
      rw [Function.update_self]
      split_ifs with hsome
      · simp [cluster.mem_names, hsome]
      · simp
    · have hbefore := cluster.mem_names other
      rw [Function.update_of_ne heq]
      split_ifs
      · exact hbefore
      · simpa [heq] using hbefore
  nodup := by
    split_ifs with hsome
    · exact cluster.nodup
    · refine List.Nodup.append cluster.nodup (List.nodup_singleton name) ?_
      rw [List.disjoint_singleton]
      exact fun hmem => hsome ((cluster.mem_names name).mp hmem)

def remove (cluster : Cluster) (name : CodePoints) : Cluster where
  get := Function.update cluster.get name none
  names := cluster.names.filter (· ≠ name)
  mem_names := by
    intro other
    by_cases heq : other = name
    · subst heq
      simp
    · rw [Function.update_of_ne heq, ← cluster.mem_names]
      simp [heq]
  nodup := cluster.nodup.filter _

variable {cluster : Cluster} {name other : CodePoints} {agent : CanyonAgent}

@[simp]
theorem get_put_self : (cluster.put name agent).get name = some agent :=
  Function.update_self ..

theorem get_put_of_ne (hne : other ≠ name) :
    (cluster.put name agent).get other = cluster.get other :=
  Function.update_of_ne hne ..

@[simp]
theorem get_remove_self : (cluster.remove name).get name = none :=
  Function.update_self ..

theorem get_remove_of_ne (hne : other ≠ name) :
    (cluster.remove name).get other = cluster.get other :=
  Function.update_of_ne hne ..

theorem put_of_get (hget : cluster.get name = some agent) : cluster.put name agent = cluster := by
  ext1
  · exact Function.update_eq_self_iff.mpr hget.symm
  · exact if_pos (by simp [hget])

end Cluster

/-! ### The API server -/

def unset : Spec :=
  fun _ => none

def CanyonAgent.applied (agent : CanyonAgent) (wanted : Field → Option SpecValue) :
    CanyonAgent where
  spec := apply .cli wanted agent.spec
  held := agent.held
  deleting := agent.deleting
  owned field hfield := owners_apply (agent.owned field hfield)
  held_of_deleting := agent.held_of_deleting

def CanyonAgent.created (wanted : Field → Option SpecValue) : CanyonAgent where
  spec := apply .cli wanted unset
  held := false
  deleting := false
  owned _ _ := owners_apply (by simp [unset])
  held_of_deleting := by simp

/-- The fields the CRD does not let change. -/
def CanyonAgent.Accepts (agent : CanyonAgent) (wanted : Field → Option SpecValue) : Prop :=
  ∀ field ∈ [Field.projectRef, .agentName, .type], wanted field = values agent.spec field

instance decidable_accepts (agent : CanyonAgent) (wanted : Field → Option SpecValue) :
    Decidable (agent.Accepts wanted) :=
  inferInstanceAs (Decidable (∀ field ∈ [Field.projectRef, .agentName, .type], _))

inductive Call where
  | applyConfigMap
  | applyProject
  | applyAgent (name : CodePoints) (wanted : Field → Option SpecValue)
  | deleteAgent (name : CodePoints)

/-- What a call does to the CanyonAgents; none when the server refuses it. -/
def Cluster.perform (cluster : Cluster) : Call → Option Cluster
  | .applyConfigMap | .applyProject => some cluster
  | .applyAgent name wanted =>
      match cluster.get name with
      | none => some (cluster.put name (.created wanted))
      | some agent =>
          if agent.Accepts wanted then some (cluster.put name (agent.applied wanted)) else none
  | .deleteAgent name =>
      match cluster.get name with
      | none => none
      | some agent =>
          if hheld : agent.held = true then
            some (cluster.put name { agent with deleting := true, held_of_deleting _ := hheld })
          else some (cluster.remove name)

/-! ### A run -/

/-- What a run is given beside the config folder. -/
structure Setup where
  project : CodePoints
  images : CodePoints → Option CodePoints
  lower : CodePoints → CodePoints

def resourceLimits (resources : Resources) : Limits where
  cpu := resources.cpu.getD (ofString "1")
  memory := ⌊resources.memory.getD 512⌋
  gpu := resources.gpu

section Render

variable (setup : Setup) (folder : Folder) (live : CodePoints → Option ℕ)

def databaseFields (spec : AgentSpec) (image mountPath : CodePoints) (port : ℕ) :
    Field → Option SpecValue
  | .projectRef => some (.text setup.project)
  | .agentName => some (.text spec.name)
  | .type => some (.text (ofString "database"))
  | .image => some (.text image)
  | .replicas => some (.count 1)
  | .stateful => none
  | .resources =>
      if spec.resources.cpu.isSome ∨ spec.resources.memory.isSome then
        some (.limits (resourceLimits spec.resources))
      else none
  | .env => if spec.env = [] then none else some (.entries spec.env)
  | .database => some (.database { port, mountPath, settings := folder.databases spec.name })
  | .placement => if folder.nodeSelector = [] then none else some (.entries folder.nodeSelector)

def agentFields (spec : AgentSpec) (image : CodePoints) (stateful : Bool) (replicas : ℕ) :
    Field → Option SpecValue
  | .projectRef => some (.text setup.project)
  | .agentName => some (.text spec.name)
  | .type => some (.text (ofString "agent"))
  | .image => some (.text image)
  | .replicas => some (.count replicas)
  | .stateful => some (.flag stateful)
  | .resources => some (.limits (resourceLimits spec.resources))
  | .env => if spec.env = [] then none else some (.entries spec.env)
  | .database => none
  | .placement => if folder.nodeSelector = [] then none else some (.entries folder.nodeSelector)

/-- The name and the fields of an agent's object; none when `render` raises. -/
def renderAgent (spec : AgentSpec) : Option (CodePoints × (Field → Option SpecValue)) := do
  let name ← resourceName setup.lower spec.name
  match spec.kind with
  | .agent stateful replicas => do
      let image ← setup.images spec.name
      some (name, agentFields setup folder spec image stateful ((live name).getD replicas))
  | .database image port volumePath => do
      let mountPath ← volumePath
      some (name, databaseFields setup folder spec image mountPath port)

def render : Option (List (CodePoints × (Field → Option SpecValue))) :=
  folder.agents.mapM (renderAgent setup folder live)

end Render

/-- The counts that a run keeps. -/
def liveCounts (folder : Folder) (cluster : Cluster) (name : CodePoints) : Option ℕ :=
  if folder.hasScalingYaml then (cluster.get name).bind CanyonAgent.count else none

def calls (objects : List (CodePoints × (Field → Option SpecValue))) (existing : List CodePoints) :
    List Call :=
  [.applyConfigMap, .applyProject] ++ objects.map (fun object => .applyAgent object.1 object.2) ++
    (existing.filter (· ∉ objects.map Prod.fst)).map .deleteAgent

/-- A run in which every call is answered. -/
def run (setup : Setup) (folder : Folder) (cluster : Cluster) : Option Cluster := do
  let objects ← render setup folder (liveCounts folder cluster)
  (calls objects cluster.names).foldlM Cluster.perform cluster

/-! ### What the project should have -/

section Wanted

variable (setup : Setup) (folder : Folder)

def imageOf (spec : AgentSpec) : Option CodePoints :=
  match spec.kind with
  | .agent _ _ => setup.images spec.name
  | .database image _ _ => some image

/-- A database without limits of its own has none. -/
def limitsOf (spec : AgentSpec) : Option Limits :=
  match spec.kind with
  | .agent _ _ => some (resourceLimits spec.resources)
  | .database .. =>
      if spec.resources.cpu.isSome ∨ spec.resources.memory.isSome then
        some (resourceLimits spec.resources)
      else none

def statefulOf (spec : AgentSpec) : Option Bool :=
  match spec.kind with
  | .agent stateful _ => some stateful
  | .database .. => none

/-- The count before the run for an agent that was there and is autoscaled, else the configured
one. -/
def expectedReplicas (before : Cluster) (name : CodePoints) (spec : AgentSpec) : ℕ :=
  match spec.kind with
  | .database .. => 1
  | .agent _ replicas =>
      if folder.hasValidPolicy then ((before.get name).bind CanyonAgent.count).getD replicas
      else replicas

structure Matches (spec : AgentSpec) (replicas : ℕ) (agent : CanyonAgent) : Prop where
  staying : agent.deleting = false
  agentName : values agent.spec .agentName = some (.text spec.name)
  image : values agent.spec .image = (imageOf setup spec).map .text
  env : values agent.spec .env = if spec.env = [] then none else some (.entries spec.env)
  resources : values agent.spec .resources = (limitsOf spec).map .limits
  stateful : values agent.spec .stateful = (statefulOf spec).map .flag
  replicas : values agent.spec .replicas = some (.count replicas)

/-- The project's CanyonAgents, those being deleted apart, are those of the config, and the same run
changes nothing any more. -/
structure Converged (before after : Cluster) : Prop where
  present : ∀ spec ∈ folder.agents, ∃ name agent,
    resourceName setup.lower spec.name = some name ∧ after.get name = some agent ∧
      Matches setup spec (expectedReplicas folder before name spec) agent
  absent : ∀ name agent, after.get name = some agent → agent.deleting = false →
    ∃ spec ∈ folder.agents, resourceName setup.lower spec.name = some name
  again : run setup folder after = some after

/-- No agent of the config is being deleted, and each that runs has the configured count, unless
`scaling.yaml` is there exactly when the config has a valid policy. -/
def Settled (before : Cluster) : Prop :=
  ∀ spec ∈ folder.agents, ∀ name ∈ resourceName setup.lower spec.name,
    ∀ agent ∈ before.get name, agent.deleting = false ∧
      ∀ stateful replicas, spec.kind = .agent stateful replicas → ∀ count ∈ agent.count,
        count = replicas ∨ folder.hasScalingYaml = folder.hasValidPolicy

end Wanted

/-! ### What a run does -/

abbrev Objects := List (CodePoints × (Field → Option SpecValue))

def applyCall (object : CodePoints × (Field → Option SpecValue)) : Call :=
  .applyAgent object.1 object.2

/-- The agent an apply leaves behind. -/
def leaves (agent : Option CanyonAgent) (wanted : Field → Option SpecValue) : CanyonAgent :=
  agent.elim (.created wanted) fun agent => agent.applied wanted

theorem perform_applyAgent {cluster after : Cluster} {name : CodePoints}
    {wanted : Field → Option SpecValue}
    (hperform : cluster.perform (.applyAgent name wanted) = some after) :
    after = cluster.put name (leaves (cluster.get name) wanted) ∧
      ∀ agent ∈ cluster.get name, agent.Accepts wanted := by
  rw [Cluster.perform] at hperform
  cases hget : cluster.get name with
  | none =>
      rw [hget] at hperform
      cases hperform
      exact ⟨rfl, by simp⟩
  | some agent =>
      simp only [hget] at hperform
      split_ifs at hperform with haccepts
      cases hperform
      exact ⟨rfl, by simpa using haccepts⟩

theorem values_created (wanted : Field → Option SpecValue) (field : Field) :
    values (CanyonAgent.created wanted).spec field = wanted field := by
  cases hwanted : wanted field with
  | none => exact values_apply_of_none hwanted (by simp [unset])
  | some value => exact values_apply_of_some hwanted

theorem values_leaves {agent : Option CanyonAgent} {wanted : Field → Option SpecValue}
    {field : Field} {value : SpecValue} (hwanted : wanted field = some value) :
    values (leaves agent wanted).spec field = some value := by
  cases agent with
  | none => exact (values_created wanted field).trans hwanted
  | some agent => exact values_apply_of_some hwanted

theorem values_leaves_of_none {agent : Option CanyonAgent} {wanted : Field → Option SpecValue}
    {field : Field} (hfield : field ≠ .replicas) (hwanted : wanted field = none) :
    values (leaves agent wanted).spec field = none := by
  cases agent with
  | none => exact (values_created wanted field).trans hwanted
  | some agent => exact values_apply_of_none hwanted (agent.owned field hfield)

/-- Every field but the count is the one wanted. -/
theorem values_leaves_eq {agent : Option CanyonAgent} {wanted : Field → Option SpecValue}
    {field : Field} (hfield : field ≠ .replicas) :
    values (leaves agent wanted).spec field = wanted field := by
  cases hwanted : wanted field with
  | none => exact values_leaves_of_none hfield hwanted
  | some value => exact values_leaves hwanted

/-- The same apply once more changes nothing. -/
theorem applied_leaves (agent : Option CanyonAgent) (wanted : Field → Option SpecValue) :
    (leaves agent wanted).applied wanted = leaves agent wanted := by
  cases agent <;> simp [leaves, CanyonAgent.applied, CanyonAgent.created, apply_apply]

theorem deleting_leaves (agent : Option CanyonAgent) (wanted : Field → Option SpecValue) :
    (leaves agent wanted).deleting = agent.elim false CanyonAgent.deleting := by
  cases agent <;> rfl

theorem foldlM_eq_self {cluster : Cluster} {calls : List Call}
    (hcalls : ∀ call ∈ calls, cluster.perform call = some cluster) :
    calls.foldlM Cluster.perform cluster = some cluster := by
  induction calls with
  | nil => rfl
  | cons call calls ih =>
      rw [List.foldlM_cons, hcalls call List.mem_cons_self]
      exact ih fun call hcall => hcalls call (List.mem_cons_of_mem _ hcall)

section Applies

variable {objects : Objects} {cluster after : Cluster}

/-- An agent's name in the config does not change under its object's name. -/
theorem agentName_of_applies
    (happlies : (objects.map applyCall).foldlM Cluster.perform cluster = some after)
    {name : CodePoints} {agent : CanyonAgent} (hget : cluster.get name = some agent) :
    ∃ agent', after.get name = some agent' ∧
      values agent'.spec .agentName = values agent.spec .agentName := by
  induction objects generalizing cluster agent with
  | nil =>
      cases happlies
      exact ⟨agent, hget, rfl⟩
  | cons object objects ih =>
      rw [List.map_cons, List.foldlM_cons] at happlies
      obtain ⟨middle, hmiddle, hrest⟩ := Option.bind_eq_some_iff.mp happlies
      obtain ⟨rfl, haccepts⟩ := perform_applyAgent hmiddle
      by_cases heq : name = object.1
      · subst heq
        obtain ⟨agent', hagent', hname⟩ := ih hrest Cluster.get_put_self
        refine ⟨agent', hagent', hname.trans ?_⟩
        rw [values_leaves_eq (by decide), haccepts agent hget .agentName (by simp)]
      · exact ih hrest ((Cluster.get_put_of_ne heq).trans hget)

theorem wanted_of_applies
    (happlies : (objects.map applyCall).foldlM Cluster.perform cluster = some after)
    {object : CodePoints × (Field → Option SpecValue)} (hmem : object ∈ objects) :
    ∃ agent, after.get object.1 = some agent ∧
      values agent.spec .agentName = object.2 .agentName := by
  induction objects generalizing cluster with
  | nil => cases hmem
  | cons first objects ih =>
      rw [List.map_cons, List.foldlM_cons] at happlies
      obtain ⟨middle, hmiddle, hrest⟩ := Option.bind_eq_some_iff.mp happlies
      rcases List.mem_cons.mp hmem with rfl | hin
      · obtain ⟨rfl, -⟩ := perform_applyAgent hmiddle
        obtain ⟨agent, hagent, hname⟩ := agentName_of_applies hrest Cluster.get_put_self
        exact ⟨agent, hagent, hname.trans (values_leaves_eq (by decide))⟩
      · exact ih hrest hin

/-- Two objects of one name would have to be of one agent. -/
theorem nodup_of_applies
    (happlies : (objects.map applyCall).foldlM Cluster.perform cluster = some after)
    (hnames : (objects.map fun object => object.2 .agentName).Nodup) :
    (objects.map Prod.fst).Nodup := by
  have hfactor : objects.map (fun object => object.2 .agentName) =
      (objects.map Prod.fst).map fun name =>
        (after.get name).bind fun agent => values agent.spec .agentName := by
    rw [List.map_map]
    apply List.map_congr_left
    intro object hmem
    obtain ⟨agent, hagent, hname⟩ := wanted_of_applies happlies hmem
    rw [Function.comp_apply, hagent, Option.bind_some, hname]
  rw [hfactor] at hnames
  exact hnames.of_map _

theorem get_of_applies
    (happlies : (objects.map applyCall).foldlM Cluster.perform cluster = some after)
    (hnodup : (objects.map Prod.fst).Nodup) :
    (∀ object ∈ objects, after.get object.1 = some (leaves (cluster.get object.1) object.2)) ∧
      ∀ name ∉ objects.map Prod.fst, after.get name = cluster.get name := by
  induction objects generalizing cluster with
  | nil =>
      cases happlies
      simp
  | cons first objects ih =>
      rw [List.map_cons, List.foldlM_cons] at happlies
      obtain ⟨middle, hmiddle, hrest⟩ := Option.bind_eq_some_iff.mp happlies
      obtain ⟨rfl, -⟩ := perform_applyAgent hmiddle
      obtain ⟨hfirst, hobjects⟩ := List.nodup_cons.mp hnodup
      obtain ⟨happlied, hothers⟩ := ih hrest hobjects
      refine ⟨fun object hmem => ?_, fun name hname => ?_⟩
      · rcases List.mem_cons.mp hmem with rfl | hin
        · exact (hothers object.1 hfirst).trans Cluster.get_put_self
        · have hne : object.1 ≠ first.1 := fun heq =>
            hfirst (heq ▸ List.mem_map_of_mem hin)
          rw [happlied object hin, Cluster.get_put_of_ne hne]
      · rw [List.map_cons, List.mem_cons, not_or] at hname
        exact (hothers name hname.2).trans (Cluster.get_put_of_ne hname.1)

end Applies

theorem perform_deleteAgent {cluster after : Cluster} {name : CodePoints}
    (hperform : cluster.perform (.deleteAgent name) = some after) :
    (∀ other, other ≠ name → after.get other = cluster.get other) ∧
      ∀ agent ∈ after.get name, agent.deleting = true := by
  rw [Cluster.perform] at hperform
  cases hget : cluster.get name with
  | none =>
      rw [hget] at hperform
      cases hperform
  | some agent =>
      simp only [hget] at hperform
      split_ifs at hperform with hheld
      · cases hperform
        exact ⟨fun other => Cluster.get_put_of_ne, by simp⟩
      · cases hperform
        exact ⟨fun other => Cluster.get_remove_of_ne, by simp⟩

theorem get_of_deletes {names : List CodePoints} {cluster after : Cluster}
    (hdeletes : (names.map Call.deleteAgent).foldlM Cluster.perform cluster = some after)
    (hnodup : names.Nodup) :
    (∀ name ∉ names, after.get name = cluster.get name) ∧
      ∀ name ∈ names, ∀ agent ∈ after.get name, agent.deleting = true := by
  induction names generalizing cluster with
  | nil =>
      cases hdeletes
      simp
  | cons first names ih =>
      rw [List.map_cons, List.foldlM_cons] at hdeletes
      obtain ⟨middle, hmiddle, hrest⟩ := Option.bind_eq_some_iff.mp hdeletes
      obtain ⟨hfirst, hnames⟩ := List.nodup_cons.mp hnodup
      obtain ⟨hkept, hdeleted⟩ := perform_deleteAgent hmiddle
      obtain ⟨hothers, hgone⟩ := ih hrest hnames
      refine ⟨fun name hname => ?_, fun name hname => ?_⟩
      · rw [List.mem_cons, not_or] at hname
        exact (hothers name hname.2).trans (hkept name hname.1)
      · rcases List.mem_cons.mp hname with rfl | hin
        · rw [hothers name hfirst]
          exact hdeleted
        · exact hgone name hin

/-! ### What a render gives -/

section Rendered

variable {setup : Setup} {folder : Folder}

/-- The count an object asks for. -/
def renderedReplicas (live : CodePoints → Option ℕ) (name : CodePoints) (spec : AgentSpec) : ℕ :=
  match spec.kind with
  | .database .. => 1
  | .agent _ replicas => (live name).getD replicas

structure Renders (setup : Setup) (live : CodePoints → Option ℕ) (spec : AgentSpec)
    (object : CodePoints × (Field → Option SpecValue)) : Prop where
  name : resourceName setup.lower spec.name = some object.1
  agentName : object.2 .agentName = some (.text spec.name)
  image : object.2 .image = (imageOf setup spec).map .text
  env : object.2 .env = if spec.env = [] then none else some (.entries spec.env)
  resources : object.2 .resources = (limitsOf spec).map .limits
  stateful : object.2 .stateful = (statefulOf spec).map .flag
  replicas : object.2 .replicas = some (.count (renderedReplicas live object.1 spec))

variable {live : CodePoints → Option ℕ} {spec : AgentSpec}
  {object : CodePoints × (Field → Option SpecValue)}

theorem renders (hrender : renderAgent setup folder live spec = some object) :
    Renders setup live spec object := by
  unfold renderAgent at hrender
  obtain ⟨name, hname, hrender⟩ := Option.bind_eq_some_iff.mp hrender
  cases hkind : spec.kind with
  | agent stateful replicas =>
      rw [hkind] at hrender
      obtain ⟨image, himage, hobject⟩ := Option.bind_eq_some_iff.mp hrender
      cases hobject
      exact {
        name := hname
        agentName := rfl
        image := by simp [agentFields, imageOf, hkind, himage]
        env := rfl
        resources := by simp [agentFields, limitsOf, hkind]
        stateful := by simp [agentFields, statefulOf, hkind]
        replicas := by simp [agentFields, renderedReplicas, hkind] }
  | database image port volumePath =>
      rw [hkind] at hrender
      obtain ⟨mountPath, hpath, hobject⟩ := Option.bind_eq_some_iff.mp hrender
      cases hobject
      exact {
        name := hname
        agentName := rfl
        image := by simp [databaseFields, imageOf, hkind]
        env := rfl
        resources := by
          simp only [databaseFields, limitsOf, hkind]
          split_ifs <;> rfl
        stateful := by simp [databaseFields, statefulOf, hkind]
        replicas := by simp [databaseFields, renderedReplicas, hkind] }

/-- What is rendered depends on the live counts through the agents' counts only. -/
theorem renderAgent_congr {live' : CodePoints → Option ℕ}
    (hrender : renderAgent setup folder live spec = some object)
    (hcount : renderedReplicas live' object.1 spec = renderedReplicas live object.1 spec) :
    renderAgent setup folder live' spec = some object := by
  rw [← hrender]
  unfold renderAgent at hrender ⊢
  obtain ⟨name, hname, hrender⟩ := Option.bind_eq_some_iff.mp hrender
  rw [hname]
  cases hkind : spec.kind with
  | database image port volumePath => rfl
  | agent stateful replicas =>
      rw [hkind] at hrender
      obtain ⟨image, himage, hobject⟩ := Option.bind_eq_some_iff.mp hrender
      cases hobject
      simp only [renderedReplicas, hkind] at hcount
      simp [himage, hcount]

theorem forall₂_of_mapM {specs : List AgentSpec} {objects : Objects}
    (hrender : specs.mapM (renderAgent setup folder live) = some objects) :
    List.Forall₂ (fun spec object => renderAgent setup folder live spec = some object)
      specs objects := by
  induction specs generalizing objects with
  | nil =>
      cases hrender
      exact .nil
  | cons spec specs ih =>
      rw [List.mapM_cons] at hrender
      obtain ⟨object, hobject, hrender⟩ := Option.bind_eq_some_iff.mp hrender
      obtain ⟨rest, hrest, hobjects⟩ := Option.bind_eq_some_iff.mp hrender
      cases hobjects
      exact .cons hobject (ih hrest)

theorem exists_mem_of_forall₂ {α β : Type} {related : α → β → Prop} {left : List α}
    {right : List β} (hall : List.Forall₂ related left right) {x : α} (hx : x ∈ left) :
    ∃ y ∈ right, related x y := by
  induction hall with
  | nil => cases hx
  | cons hrelated _ ih =>
      rcases List.mem_cons.mp hx with rfl | hin
      · exact ⟨_, List.mem_cons_self, hrelated⟩
      · obtain ⟨y, hy, hxy⟩ := ih hin
        exact ⟨y, List.mem_cons_of_mem _ hy, hxy⟩

theorem mapM_of_forall₂ {specs : List AgentSpec} {objects : Objects}
    (hrenders : List.Forall₂ (fun spec object => renderAgent setup folder live spec = some object)
      specs objects) :
    specs.mapM (renderAgent setup folder live) = some objects := by
  induction hrenders with
  | nil => rfl
  | cons hobject _ ih =>
      rw [List.mapM_cons, hobject, ih]
      rfl

end Rendered

/-! ### A run's result -/

section Result

variable {setup : Setup} {folder : Folder} {before after : Cluster}

/-- Each of the config's agents got its object, and nothing else stays. -/
structure Outcome (setup : Setup) (folder : Folder) (before after : Cluster) (objects : Objects) :
    Prop where
  rendered : List.Forall₂ (fun spec object =>
    renderAgent setup folder (liveCounts folder before) spec = some object) folder.agents objects
  applied : ∀ object ∈ objects,
    after.get object.1 = some (leaves (before.get object.1) object.2)
  deleted : ∀ name ∉ objects.map Prod.fst, ∀ agent ∈ after.get name, agent.deleting = true

theorem agentNames_of_renders {live : CodePoints → Option ℕ} {specs : List AgentSpec}
    {objects : Objects}
    (hrendered : List.Forall₂ (fun spec object => renderAgent setup folder live spec = some object)
      specs objects) :
    objects.map (fun object => object.2 .agentName) =
      (specs.map AgentSpec.name).map fun name => some (SpecValue.text name) := by
  induction hrendered with
  | nil => rfl
  | cons hobject _ ih =>
      rw [List.map_cons, List.map_cons, List.map_cons, ih, (renders hobject).agentName]

theorem nodup_agentNames {live : CodePoints → Option ℕ} {objects : Objects}
    (hrendered : List.Forall₂ (fun spec object => renderAgent setup folder live spec = some object)
      folder.agents objects) :
    (objects.map fun object => object.2 .agentName).Nodup := by
  rw [agentNames_of_renders hrendered]
  refine folder.names_nodup.map fun name name' heq => ?_
  simpa using heq

theorem outcome_of_run (hrun : run setup folder before = some after) :
    ∃ objects, Outcome setup folder before after objects := by
  obtain ⟨objects, hrender, hcalls⟩ := Option.bind_eq_some_iff.mp hrun
  rw [calls, List.foldlM_append, List.foldlM_append] at hcalls
  obtain ⟨middle, happlies, hdeletes⟩ := Option.bind_eq_some_iff.mp hcalls
  have hrendered := forall₂_of_mapM hrender
  have hnodup := nodup_of_applies happlies (nodup_agentNames hrendered)
  obtain ⟨happlied, hothers⟩ := get_of_applies happlies hnodup
  obtain ⟨hkept, hgone⟩ := get_of_deletes hdeletes (before.nodup.filter _)
  refine ⟨objects, hrendered, fun object hmem => ?_, fun name hname agent hagent => ?_⟩
  · rw [hkept, happlied object hmem]
    simp [List.mem_map_of_mem hmem]
  · by_cases hbefore : name ∈ before.names
    · exact hgone name (by simpa [hbefore] using hname) agent hagent
    · rw [hkept name (by simp [hbefore]), hothers name hname] at hagent
      exact absurd ((before.mem_names name).mpr (Option.isSome_of_mem hagent)) hbefore

namespace Outcome

variable {objects : Objects} (houtcome : Outcome setup folder before after objects)

include houtcome

theorem object_of_agent {spec : AgentSpec} (hspec : spec ∈ folder.agents) :
    ∃ object ∈ objects, Renders setup (liveCounts folder before) spec object ∧
      after.get object.1 = some (leaves (before.get object.1) object.2) := by
  obtain ⟨object, hmem, hrender⟩ := exists_mem_of_forall₂ houtcome.rendered hspec
  exact ⟨object, hmem, renders hrender, houtcome.applied object hmem⟩

/-- The same call would change nothing. -/
theorem perform_applyCall {object : CodePoints × (Field → Option SpecValue)}
    (hmem : object ∈ objects) : after.perform (applyCall object) = some after := by
  have hget := houtcome.applied object hmem
  have haccepts : (leaves (before.get object.1) object.2).Accepts object.2 := by
    intro field hfield
    refine (values_leaves_eq fun heq => ?_).symm
    subst heq
    simp at hfield
  rw [applyCall, Cluster.perform, hget]
  simp only [if_pos haccepts]
  rw [applied_leaves, Cluster.put_of_get hget]

theorem perform_deleteAgent {name : CodePoints} (hname : name ∈ after.names)
    (hnot : name ∉ objects.map Prod.fst) : after.perform (.deleteAgent name) = some after := by
  obtain ⟨agent, hget⟩ := Option.isSome_iff_exists.mp ((after.mem_names name).mp hname)
  have hdeleting := houtcome.deleted name hnot agent hget
  have hheld := agent.held_of_deleting hdeleting
  have hsame : { agent with deleting := true, held_of_deleting := fun _ => hheld } = agent := by
    cases agent
    cases hdeleting
    rfl
  rw [Cluster.perform, hget]
  simp only [dif_pos hheld]
  rw [hsame, Cluster.put_of_get hget]

theorem perform_calls {call : Call} (hcall : call ∈ calls objects after.names) :
    after.perform call = some after := by
  simp only [calls, List.mem_append, List.mem_cons, List.not_mem_nil, or_false, List.mem_map,
    List.mem_filter, decide_eq_true_eq] at hcall
  rcases hcall with ((rfl | rfl) | ⟨object, hmem, rfl⟩) | ⟨name, ⟨hname, hnot⟩, rfl⟩
  · rfl
  · rfl
  · exact houtcome.perform_applyCall hmem
  · exact houtcome.perform_deleteAgent hname (by simpa using hnot)

/-- The counts a run leaves behind are those it would keep. -/
theorem renderedReplicas_after {spec : AgentSpec}
    {object : CodePoints × (Field → Option SpecValue)}
    (hrender : renderAgent setup folder (liveCounts folder before) spec = some object)
    (hmem : object ∈ objects) :
    renderedReplicas (liveCounts folder after) object.1 spec =
      renderedReplicas (liveCounts folder before) object.1 spec := by
  have hcount := (renders hrender).replicas
  unfold renderedReplicas at hcount ⊢
  cases hkind : spec.kind with
  | database image port volumePath => rfl
  | agent stateful replicas =>
      simp only [hkind] at hcount ⊢
      by_cases hyaml : folder.hasScalingYaml = true
      · have hafter : (leaves (before.get object.1) object.2).count =
            some ((liveCounts folder before object.1).getD replicas) := by
          rw [CanyonAgent.count, values_leaves hcount]
        rw [liveCounts, if_pos hyaml, houtcome.applied object hmem, Option.bind_some, hafter,
          Option.getD_some]
      · simp [liveCounts, hyaml]

theorem render_after : render setup folder (liveCounts folder after) = some objects := by
  refine mapM_of_forall₂ (List.forall₂_iff_zip.mpr ⟨houtcome.rendered.length_eq, ?_⟩)
  intro spec object hzip
  have hrender := List.forall₂_zip houtcome.rendered hzip
  exact renderAgent_congr hrender
    (houtcome.renderedReplicas_after hrender (List.of_mem_zip hzip).2)

end Outcome

theorem run_again (hrun : run setup folder before = some after) :
    run setup folder after = some after := by
  obtain ⟨objects, houtcome⟩ := outcome_of_run hrun
  rw [run, houtcome.render_after]
  refine foldlM_eq_self fun call hcall => houtcome.perform_calls hcall

theorem matches_of_renders {spec : AgentSpec} {object : CodePoints × (Field → Option SpecValue)}
    {agent : Option CanyonAgent} {replicas : ℕ}
    (hrenders : Renders setup (liveCounts folder before) spec object)
    (hstaying : agent.elim false CanyonAgent.deleting = false)
    (hreplicas : renderedReplicas (liveCounts folder before) object.1 spec = replicas) :
    Matches setup spec replicas (leaves agent object.2) where
  staying := (deleting_leaves ..).trans hstaying
  agentName := (values_leaves_eq (by decide)).trans hrenders.agentName
  image := (values_leaves_eq (by decide)).trans hrenders.image
  env := (values_leaves_eq (by decide)).trans hrenders.env
  resources := (values_leaves_eq (by decide)).trans hrenders.resources
  stateful := (values_leaves_eq (by decide)).trans hrenders.stateful
  replicas := values_leaves (hreplicas ▸ hrenders.replicas)

/-- Where the counts kept and the counts expected agree. -/
theorem renderedReplicas_eq_expected_iff {name : CodePoints} {spec : AgentSpec} :
    renderedReplicas (liveCounts folder before) name spec =
        expectedReplicas folder before name spec ↔
      ∀ stateful replicas, spec.kind = .agent stateful replicas →
        ∀ count ∈ (before.get name).bind CanyonAgent.count,
          count = replicas ∨ folder.hasScalingYaml = folder.hasValidPolicy := by
  unfold renderedReplicas expectedReplicas liveCounts
  cases hkind : spec.kind with
  | database image port volumePath => simp
  | agent stateful replicas =>
      cases hyaml : folder.hasScalingYaml <;> cases hvalid : folder.hasValidPolicy <;>
        cases hcount : (before.get name).bind CanyonAgent.count <;> simp [eq_comm]

theorem settled_of_converged (hrun : run setup folder before = some after)
    (hconverged : Converged setup folder before after) : Settled setup folder before := by
  obtain ⟨objects, houtcome⟩ := outcome_of_run hrun
  intro spec hspec name hname agent hagent
  obtain ⟨object, hmem, hrenders, hget⟩ := houtcome.object_of_agent hspec
  obtain ⟨name', agent', hname', hget', hmatches⟩ := hconverged.present spec hspec
  rw [hname', Option.mem_some_iff] at hname
  subst hname
  obtain rfl : object.1 = name' := Option.some.inj (hrenders.name.symm.trans hname')
  obtain rfl := Option.some.inj (hget.symm.trans hget')
  rw [Option.mem_def] at hagent
  constructor
  · simpa [deleting_leaves, hagent] using hmatches.staying
  · have hcount := (values_leaves hrenders.replicas).symm.trans hmatches.replicas
    have hexpected := renderedReplicas_eq_expected_iff.mp (by simpa using hcount)
    simpa [hagent] using hexpected

theorem converged_of_settled (hrun : run setup folder before = some after)
    (hsettled : Settled setup folder before) : Converged setup folder before after := by
  obtain ⟨objects, houtcome⟩ := outcome_of_run hrun
  refine ⟨fun spec hspec => ?_, fun name agent hget hstaying => ?_, run_again hrun⟩
  · obtain ⟨object, hmem, hrenders, hget⟩ := houtcome.object_of_agent hspec
    have hbefore := hsettled spec hspec object.1 hrenders.name
    refine ⟨object.1, _, hrenders.name, hget, matches_of_renders hrenders ?_ ?_⟩
    · cases hagent : before.get object.1 with
      | none => rfl
      | some agent => exact (hbefore agent hagent).1
    · refine renderedReplicas_eq_expected_iff.mpr fun stateful replicas hkind count hcount => ?_
      obtain ⟨agent, hagent, hcount⟩ := Option.bind_eq_some_iff.mp hcount
      exact (hbefore agent hagent).2 stateful replicas hkind count hcount
  · by_contra hnone
    have hnot : name ∉ objects.map Prod.fst := by
      intro hmem
      obtain ⟨object, hobject, rfl⟩ := List.mem_map.mp hmem
      obtain ⟨spec, hspec, hrender⟩ := exists_mem_of_forall₂ houtcome.rendered.flip hobject
      exact hnone ⟨spec, hspec, (renders hrender).name⟩
    rw [houtcome.deleted name hnot agent hget] at hstaying
    cases hstaying

/-- A run that succeeds brings the project to its config exactly when it was settled before. -/
theorem apply_project_converges_iff (hrun : run setup folder before = some after) :
    Converged setup folder before after ↔ Settled setup folder before :=
  ⟨settled_of_converged hrun, converged_of_settled hrun⟩

end Result

section Example

/-- Two replicas are configured. -/
def planner : AgentSpec where
  name := ofString "planner"
  kind := .agent false 2
  resources := ⟨none, none, none⟩
  env := []

def plannerFolder (policy : Option Scaling.PolicyDocument) : Folder where
  agents := [planner]
  names_nodup := List.nodup_singleton _
  nodeSelector := []
  databases _ := ⟨ofString "10Gi", none, none, none⟩
  files := [(scalingYaml, policy)]

def plannerSetup : Setup where
  project := ofString "shop"
  images _ := some (ofString "registry/planner")
  lower := id

/-- Five replicas are running. -/
def scaledPlanner : CanyonAgent :=
  .created (agentFields plannerSetup (plannerFolder none) planner (ofString "registry/planner")
    false 5)

def scaledCluster : Cluster where
  get name := if name = planner.name then some scaledPlanner else none
  names := [planner.name]
  mem_names name := by by_cases heq : name = planner.name <;> simp [heq]
  nodup := List.nodup_singleton _

def validPolicy : Scaling.PolicyDocument :=
  .mapping {
    minReplicas := .integer 1
    maxReplicas := .integer 6
    metric := .text Scaling.queueLengthTotal
    scaleUpAbove := .integer 10
    scaleDownBelow := .integer 1 }

theorem resourceName_planner : resourceName id planner.name = some planner.name := by
  decide

theorem run_scaled (policy : Option Scaling.PolicyDocument) :
    ∃ after, run plannerSetup (plannerFolder policy) scaledCluster = some after := by
  have hrender (live : CodePoints → Option ℕ) : render plannerSetup (plannerFolder policy) live =
      some [(planner.name, agentFields plannerSetup (plannerFolder policy) planner
        (ofString "registry/planner") false ((live planner.name).getD 2))] := by
    simp [render, plannerFolder, renderAgent, plannerSetup, resourceName_planner,
      show planner.kind = .agent false 2 from rfl]
  have haccepts (replicas : ℕ) : scaledPlanner.Accepts (agentFields plannerSetup
      (plannerFolder policy) planner (ofString "registry/planner") false replicas) := by
    intro field hfield
    refine Eq.trans ?_ (values_created _ field).symm
    simp only [List.mem_cons, List.not_mem_nil, or_false] at hfield
    rcases hfield with rfl | rfl | rfl <;> rfl
  rw [run, hrender]
  simp [calls, scaledCluster, Cluster.perform, haccepts]

theorem count_scaled : scaledPlanner.count = some 5 := by
  rw [CanyonAgent.count, scaledPlanner, values_created]
  rfl

theorem get_scaled : scaledCluster.get planner.name = some scaledPlanner := by
  simp [scaledCluster]

theorem lookup_yml (policy : Option Scaling.PolicyDocument) :
    [(scalingYaml, policy)].lookup (ofString "scaling.yml") = none := by
  have hne : (ofString "scaling.yml" == scalingYaml) = false := by decide
  rw [List.lookup, hne]
  rfl

theorem hasValidPolicy_planner : (plannerFolder (some validPolicy)).hasValidPolicy = true := by
  have hvalid : Scaling.policyError validPolicy = none := by decide
  simp [Folder.hasValidPolicy, Folder.policy, plannerFolder, lookup_yml, hvalid]

theorem apply_project_converges_iff_policy : ∃ after,
    run plannerSetup (plannerFolder (some validPolicy)) scaledCluster = some after ∧
      Converged plannerSetup (plannerFolder (some validPolicy)) scaledCluster after := by
  obtain ⟨after, hrun⟩ := run_scaled (some validPolicy)
  refine ⟨after, hrun, (apply_project_converges_iff hrun).mpr ?_⟩
  have hyaml : (plannerFolder (some validPolicy)).hasScalingYaml = true := by
    simp [Folder.hasScalingYaml, plannerFolder]
  intro spec hspec name hname agent hagent
  obtain rfl : spec = planner := List.mem_singleton.mp hspec
  obtain rfl := Option.some.inj (resourceName_planner.symm.trans hname)
  obtain rfl := Option.some.inj (get_scaled.symm.trans hagent)
  exact ⟨rfl, fun _ _ _ _ _ => .inr (hyaml.trans hasValidPolicy_planner.symm)⟩

/-- Five replicas stay although no policy asks for them. -/
theorem scaling_file_without_policy : ∃ after,
    run plannerSetup (plannerFolder none) scaledCluster = some after ∧
      ¬ Converged plannerSetup (plannerFolder none) scaledCluster after := by
  obtain ⟨after, hrun⟩ := run_scaled none
  refine ⟨after, hrun, fun hconverged => ?_⟩
  have hsettled := settled_of_converged hrun hconverged planner List.mem_cons_self
    planner.name resourceName_planner scaledPlanner get_scaled
  have hcount := hsettled.2 false 2 rfl 5 count_scaled
  have hyaml : (plannerFolder none).hasScalingYaml = true := by
    simp [Folder.hasScalingYaml, plannerFolder]
  have hpolicy : (plannerFolder none).hasValidPolicy = false := by
    simp [Folder.hasValidPolicy, Folder.policy, plannerFolder, lookup_yml]
  rw [hyaml, hpolicy] at hcount
  simp at hcount

end Example

end CanyonOS.ApplyProject
