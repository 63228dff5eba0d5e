import CanyonOS.Lib.TransitionSystem
import CanyonOS.Record
import Mathlib.Data.List.AList
import Mathlib.Data.List.Dedup
import Mathlib.Data.List.Sort
import Mathlib.Logic.Function.Basic

/-!
# The routing table

The reconciler's replica records, the tables `publish_routing_snapshot` writes to every machine's
Redis one command at a time, and the controllers that hand calls to the replicas listed there and
fail those whose replica is listed no more.
-/

namespace CanyonOS.Routing

abbrev ReplicaId := String

structure AgentSpec where
  name : AgentName
  stateful : Bool := false
deriving DecidableEq

/-- `agent_instance:<id>`. The last write of a launch adds its address. -/
structure ReplicaRecord where
  replicaId : ReplicaId
  agentName : AgentName
  address : Option Address := none
  createdAt : Time := 0
  drainingAt : Option Time := none

/-- A replica as `routing_table:addresses` has listed it. -/
structure Routed where
  replicaId : ReplicaId
  agentName : AgentName
  address : Address
deriving DecidableEq

abbrev Hash := AList fun _ : AgentName => List Address

/-- The routing table on one machine's Redis. -/
structure Table where
  /-- `routing_table:agents` -/
  agents : List AgentName := []
  /-- the agents whose flag in `routing_table:stateful` is set -/
  stateful : List AgentName := []
  addresses : Hash := ∅
  replicas : Hash := ∅

/-- One agent's part of a publish: the commands that drop it, or that write it anew. -/
inductive Command where
  | drop (agentName : AgentName)
  | write (agentName : AgentName) (stateful : Bool)
deriving DecidableEq

structure State (Machine : Type*) where
  records : ReplicaId → Option ReplicaRecord := fun _ => none
  /-- `agent:<name>:instances` -/
  instances : AgentName → List ReplicaId := fun _ => []
  /-- the ids drawn so far -/
  used : List ReplicaId := []
  /-- the published spec list, as the reconciler last read it -/
  specs : List AgentSpec := []
  /-- the list `ensure_replicas` was last handed -/
  ensured : Option (List AgentSpec) := none
  table : Machine → Table := fun _ => {}
  /-- the list the last publish was given -/
  publishing : List AgentSpec := []
  /-- the machines it went to -/
  targets : List Machine := []
  todo : List (Machine × Command) := []
  /-- the machines whose Redis failed in the last publish -/
  aborted : List Machine := []
  /-- every replica some machine's table has routed calls to -/
  routed : List Routed := []
  /-- `_forwarded` of each controller -/
  forwarded : Address → FutureId → Option Routed := fun _ _ => none
  /-- what a controller's `_fail_calls_to_gone_replicas` has read of its table -/
  looking : Address → Option (List Address) := fun _ => none

inductive Action (Machine : Type*) where
  | adopt (specs : List AgentSpec)
  | ensure (specs : List AgentSpec)
  | reserve (replicaId : ReplicaId) (agentName : AgentName)
  | finish (replicaId : ReplicaId) (address : Address) (now : Time)
  | addToAgent (replicaId : ReplicaId)
  | drain (replicaId : ReplicaId) (now : Time)
  | delete (replicaId : ReplicaId)
  | removeFromAgent (agentName : AgentName) (replicaId : ReplicaId)
  | publish (targets : List Machine)
  | command
  /-- the machine's Redis raises: the rest of its commands are left out -/
  | abort
  | forward (controller : Address) (futureId : FutureId) (replica : Routed)
  | settle (controller : Address) (futureId : FutureId)
  | look (controller : Address)
  | failGone (controller : Address) (futureId : FutureId)
  | looked (controller : Address)

variable {Machine : Type*}

/-- The call a heartbeat fails as lost. -/
def Action.failing : Action Machine → Option (Address × FutureId)
  | .failGone controller futureId => some (controller, futureId)
  | _ => none

/-- `list_replicas`: the finished ones, by id. -/
def listReplicas (state : State Machine) (agentName : AgentName) : List ReplicaRecord :=
  ((state.instances agentName).insertionSort (· ≤ ·)).filterMap fun replicaId =>
    (state.records replicaId).filter fun record => record.address.isSome

/-- Every replica of an agent that still exists. -/
def known (state : State Machine) (agentName : AgentName) : List Address :=
  (listReplicas state agentName).filterMap (·.address)

/-- Its replicas that take new calls, the oldest first. -/
def routable (state : State Machine) (agentName : AgentName) : List ReplicaRecord :=
  ((listReplicas state agentName).insertionSort (·.createdAt ≤ ·.createdAt)).filter
    fun record => record.drainingAt.isNone

def Table.drop (table : Table) (agentName : AgentName) : Table where
  agents := table.agents.filter (· ≠ agentName)
  stateful := table.stateful.filter (· ≠ agentName)
  addresses := table.addresses.erase agentName
  replicas := table.replicas.erase agentName

def Table.write (table : Table) (agentName : AgentName) (stateful : Bool)
    (known addresses : List Address) : Table where
  agents := table.agents.insert agentName
  stateful :=
    if stateful then table.stateful.insert agentName else table.stateful.filter (· ≠ agentName)
  addresses :=
    if addresses = [] then table.addresses.erase agentName
    else table.addresses.insert agentName addresses
  replicas := table.replicas.insert agentName known

/-- Every address in `routing_table:replicas`. -/
def Table.known (table : Table) : List Address :=
  table.replicas.entries.flatMap fun entry => entry.2

/-- The commands of a publish on one machine. -/
def commandsFor (specs : List AgentSpec) (table : Table) : List Command :=
  let agentNames := (specs.map AgentSpec.name).dedup
  let stateful := (specs.filter (·.stateful)).map AgentSpec.name
  (table.agents.filter (· ∉ agentNames)).map .drop ++
    agentNames.map fun agentName => .write agentName (agentName ∈ stateful)

def setRecord (state : State Machine) (replicaId : ReplicaId) (record : Option ReplicaRecord) :
    State Machine :=
  { state with records := Function.update state.records replicaId record }

def setInstances (state : State Machine) (agentName : AgentName) (instances : List ReplicaId) :
    State Machine :=
  { state with instances := Function.update state.instances agentName instances }

variable [DecidableEq Machine]

/-- The specs a publish is given: the list last ensured, or the published one before that. -/
def given (state : State Machine) : List AgentSpec :=
  state.ensured.getD state.specs

def ReplicaRecord.toRouted (record : ReplicaRecord) : Routed where
  replicaId := record.replicaId
  agentName := record.agentName
  address := record.address.getD ""

def run (state : State Machine) (machine : Machine) : Command → State Machine
  | .drop agentName =>
      { state with
        table := Function.update state.table machine ((state.table machine).drop agentName) }
  | .write agentName stateful =>
      let routes := routable state agentName
      { state with
        table := Function.update state.table machine
          ((state.table machine).write agentName stateful (known state agentName)
            (routes.filterMap (·.address)))
        routed := routes.map ReplicaRecord.toRouted ++ state.routed }

/-- The reconciler's own steps: it publishes before it goes on. -/
def reconcile (state : State Machine) : Action Machine → Option (State Machine)
  | .adopt specs => some { state with specs }
  | .ensure specs => some { state with ensured := some specs }
  | .reserve replicaId agentName =>
      if replicaId ∉ state.used then
        some { setRecord state replicaId (some { replicaId, agentName }) with
          used := replicaId :: state.used }
      else none
  | .finish replicaId address now =>
      match state.records replicaId with
      | some record =>
          if record.address.isNone then
            some (setRecord state replicaId
              (some { record with address := some address, createdAt := now }))
          else none
      | none => none
  | .addToAgent replicaId =>
      (state.records replicaId).map fun record =>
        setInstances state record.agentName
          ((state.instances record.agentName).insert replicaId)
  | .drain replicaId now =>
      (state.records replicaId).map fun record =>
        setRecord state replicaId
          (some { record with drainingAt := record.drainingAt.or (some now) })
  | .delete replicaId =>
      some (setRecord state replicaId none)
  | .removeFromAgent agentName replicaId =>
      if state.records replicaId = none then
        some (setInstances state agentName ((state.instances agentName).erase replicaId))
      else none
  | .publish targets =>
      some { state with
        publishing := given state
        targets
        todo := targets.flatMap fun machine =>
          (commandsFor (given state) (state.table machine)).map (machine, ·)
        aborted := [] }
  | _ => none

def step (machineOf : Address → Machine) (state : State Machine) :
    Action Machine → Option (State Machine)
  | .command =>
      match state.todo with
      | (machine, command) :: todo => some (run { state with todo } machine command)
      | [] => none
  | .abort =>
      match state.todo with
      | (machine, _) :: _ =>
          some { state with
            todo := state.todo.filter fun entry => entry.1 ≠ machine
            aborted := machine :: state.aborted }
      | [] => none
  | .forward controller futureId replica =>
      if replica ∈ state.routed then
        some { state with
          forwarded := Function.update state.forwarded controller
            (Function.update (state.forwarded controller) futureId (some replica)) }
      else none
  | .settle controller futureId =>
      some { state with
        forwarded := Function.update state.forwarded controller
          (Function.update (state.forwarded controller) futureId none) }
  | .look controller =>
      let table := state.table (machineOf controller)
      -- an empty table is one nothing has published yet
      some { state with
        looking := Function.update state.looking controller
          (if table.replicas.entries = [] then none else some table.known) }
  | .failGone controller futureId =>
      match state.looking controller, state.forwarded controller futureId with
      | some addresses, some replica =>
          if replica.address ∈ addresses then none
          else some { state with
            forwarded := Function.update state.forwarded controller
              (Function.update (state.forwarded controller) futureId none) }
      | _, _ => none
  | .looked controller =>
      some { state with looking := Function.update state.looking controller none }
  | action => if state.todo = [] then reconcile state action else none

/-- `machineOf` is the machine of each controller. -/
def system (machineOf : Address → Machine) :
    TransitionSystem (State Machine) (Action Machine) where
  step := step machineOf

/-! ### What a publish must keep -/

def Recorded (state : State Machine) (replica : Routed) : Prop :=
  state.records replica.replicaId ≠ none

instance (state : State Machine) : DecidablePred (Recorded state) := fun replica =>
  match h : state.records replica.replicaId with
  | none => isFalse fun hne => hne h
  | some _ => isTrue fun heq => by
      rw [h] at heq
      cases heq

/-- `routing_table:replicas` lists the replica under its agent. -/
def Table.Lists (table : Table) (replica : Routed) : Prop :=
  ∃ addresses ∈ table.replicas.lookup replica.agentName, replica.address ∈ addresses

instance (table : Table) : DecidablePred table.Lists := fun replica =>
  inferInstanceAs (Decidable (∃ addresses ∈ table.replicas.lookup replica.agentName,
    replica.address ∈ addresses))

/-- After a publish every replica routed before that still exists is in the table, and no call
handed to one that exists is failed as lost. -/
structure KeepsRouted (before : State Machine) (action : Action Machine) (after : State Machine) :
    Prop where
  published : after.todo = [] → ∀ machine ∈ after.targets, machine ∉ after.aborted →
    ∀ replica ∈ after.routed, Recorded after replica →
      replica.address ∈ (after.table machine).known
  failed : ∀ call ∈ action.failing, ∀ replica ∈ before.forwarded call.1 call.2,
    ¬ Recorded before replica

instance (before : State Machine) (action : Action Machine) (after : State Machine) :
    Decidable (KeepsRouted before action after) :=
  decidable_of_iff
    ((after.todo = [] → ∀ machine ∈ after.targets, machine ∉ after.aborted →
      ∀ replica ∈ after.routed, Recorded after replica →
        replica.address ∈ (after.table machine).known) ∧
      ∀ call ∈ action.failing, ∀ replica ∈ before.forwarded call.1 call.2,
        ¬ Recorded before replica)
    ⟨fun hkeeps => ⟨hkeeps.1, hkeeps.2⟩, fun hkeeps => ⟨hkeeps.published, hkeeps.failed⟩⟩

/-- A publish is given the agents of all replicas it must keep, and a controller hands a call only
to a replica that its own machine's table lists, in the copy it is checking just now too. -/
def NamesAll (machineOf : Address → Machine) (state : State Machine) : Action Machine → Prop
  | .publish _ => ∀ replica ∈ state.routed, Recorded state replica →
      replica.agentName ∈ (given state).map AgentSpec.name
  | .forward controller _ replica =>
      (state.table (machineOf controller)).Lists replica ∧
        ∀ addresses ∈ state.looking controller, replica.address ∈ addresses
  | _ => True

instance (machineOf : Address → Machine) (state : State Machine) :
    DecidablePred (NamesAll machineOf state)
  | .publish _ => inferInstanceAs (Decidable (∀ replica ∈ state.routed, Recorded state replica → _))
  | .forward _ _ _ => inferInstanceAs (Decidable (_ ∧ ∀ addresses ∈ state.looking _, _))
  | .adopt _ | .ensure _ | .reserve _ _ | .finish _ _ _ | .addToAgent _ | .drain _ _ | .delete _
  | .removeFromAgent _ _ | .command | .abort | .settle _ _ | .look _ | .failGone _ _
  | .looked _ => isTrue trivial

/-! ### The table -/

theorem Table.lists_drop {table : Table} {agentName : AgentName} {replica : Routed}
    (hne : replica.agentName ≠ agentName) :
    (table.drop agentName).Lists replica ↔ table.Lists replica := by
  rw [Lists, Lists, drop, AList.lookup_erase_ne hne]

theorem Table.lists_write_of_ne {table : Table} {agentName : AgentName} {stateful : Bool}
    {replica : Routed} {known addresses : List Address} (hne : replica.agentName ≠ agentName) :
    (table.write agentName stateful known addresses).Lists replica ↔ table.Lists replica := by
  rw [Lists, Lists, write, AList.lookup_insert_ne hne]

theorem Table.lists_write_self {table : Table} {agentName : AgentName} {stateful : Bool}
    {replica : Routed} {known addresses : List Address} (heq : replica.agentName = agentName) :
    (table.write agentName stateful known addresses).Lists replica ↔ replica.address ∈ known := by
  rw [Lists, write, heq, AList.lookup_insert]
  simp

theorem Table.mem_known_of_lists {table : Table} {replica : Routed} (hlists : table.Lists replica) :
    replica.address ∈ table.known := by
  obtain ⟨addresses, hlookup, hmem⟩ := hlists
  have hentry := AList.mem_lookup_iff.mp hlookup
  exact List.mem_flatMap.mpr ⟨_, hentry, hmem⟩

/-! ### The records -/

omit [DecidableEq Machine] in
@[simp]
theorem records_setRecord_self {state : State Machine} (replicaId : ReplicaId)
    (record : Option ReplicaRecord) :
    (setRecord state replicaId record).records replicaId = record := by
  simp [setRecord]

omit [DecidableEq Machine] in
theorem records_setRecord_of_ne {state : State Machine} {replicaId other : ReplicaId}
    (hne : other ≠ replicaId) (record : Option ReplicaRecord) :
    (setRecord state replicaId record).records other = state.records other := by
  simp [setRecord, hne]

omit [DecidableEq Machine] in
theorem instances_setInstances_self {state : State Machine} (agentName : AgentName)
    (instances : List ReplicaId) :
    (setInstances state agentName instances).instances agentName = instances := by
  simp [setInstances]

omit [DecidableEq Machine] in
theorem instances_setInstances_of_ne {state : State Machine} {agentName other : AgentName}
    (hne : other ≠ agentName) (instances : List ReplicaId) :
    (setInstances state agentName instances).instances other = state.instances other := by
  simp [setInstances, hne]

omit [DecidableEq Machine] in
theorem mem_listReplicas {state : State Machine} {agentName : AgentName} {record : ReplicaRecord} :
    record ∈ listReplicas state agentName ↔
      ∃ replicaId ∈ state.instances agentName, state.records replicaId = some record ∧
        record.address.isSome := by
  simp [listReplicas, List.mem_filterMap, Option.filter_eq_some_iff]

omit [DecidableEq Machine] in
theorem mem_known {state : State Machine} {agentName : AgentName} {address : Address} :
    address ∈ known state agentName ↔
      ∃ record ∈ listReplicas state agentName, record.address = some address := by
  simp [known, List.mem_filterMap]

omit [DecidableEq Machine] in
theorem mem_listReplicas_of_mem_routable {state : State Machine} {agentName : AgentName}
    {record : ReplicaRecord} (hmem : record ∈ routable state agentName) :
    record ∈ listReplicas state agentName := by
  have hsorted := List.mem_of_mem_filter hmem
  rwa [List.mem_insertionSort] at hsorted

structure RecordsInv (state : State Machine) : Prop where
  ids : ∀ replicaId record, state.records replicaId = some record →
    record.replicaId = replicaId ∧ replicaId ∈ state.used
  instances : ∀ agentName, ∀ replicaId ∈ state.instances agentName, replicaId ∈ state.used ∧
    ∀ record, state.records replicaId = some record → record.agentName = agentName
  routed : ∀ replica ∈ state.routed, replica.replicaId ∈ state.used ∧
    ∀ record, state.records replica.replicaId = some record →
      record.agentName = replica.agentName ∧ record.address = some replica.address ∧
        replica.replicaId ∈ state.instances replica.agentName

variable {machineOf : Address → Machine} {state next : State Machine} {machine : Machine}
  {replica : Routed}

omit [DecidableEq Machine] in
/-- A routed replica that still exists is listed by its record. -/
theorem RecordsInv.mem_known (hinv : RecordsInv state) (hrouted : replica ∈ state.routed)
    (hrecorded : Recorded state replica) : replica.address ∈ known state replica.agentName := by
  obtain ⟨record, hrecord⟩ := Option.ne_none_iff_exists'.mp hrecorded
  obtain ⟨-, haddress, hinstance⟩ := (hinv.routed replica hrouted).2 record hrecord
  refine Routing.mem_known.mpr ⟨record, mem_listReplicas.mpr ?_, haddress⟩
  exact ⟨replica.replicaId, hinstance, hrecord, by simp [haddress]⟩

omit [DecidableEq Machine] in
/-- What a publish routes is what the records say. -/
theorem RecordsInv.routed_of_routable (hinv : RecordsInv state) {agentName : AgentName}
    {record : ReplicaRecord} (hmem : record ∈ routable state agentName) :
    record.toRouted.agentName = agentName ∧ record.toRouted.replicaId ∈ state.used ∧
      ∀ other, state.records record.toRouted.replicaId = some other →
        other.agentName = record.toRouted.agentName ∧
          other.address = some record.toRouted.address ∧
          record.toRouted.replicaId ∈ state.instances record.toRouted.agentName := by
  obtain ⟨replicaId, hinstance, hrecord, hfinished⟩ :=
    mem_listReplicas.mp (mem_listReplicas_of_mem_routable hmem)
  obtain ⟨rfl, hused⟩ := hinv.ids replicaId record hrecord
  have hagent : record.agentName = agentName :=
    (hinv.instances agentName record.replicaId hinstance).2 record hrecord
  refine ⟨hagent, hused, fun other hother => ?_⟩
  obtain rfl : record = other := Option.some.inj (hrecord.symm.trans hother)
  obtain ⟨address, haddress⟩ := Option.isSome_iff_exists.mp hfinished
  refine ⟨rfl, ?_, ?_⟩
  · simp [ReplicaRecord.toRouted, haddress]
  · change record.replicaId ∈ state.instances record.agentName
    rwa [hagent]

omit [DecidableEq Machine] in
theorem RecordsInv.of_same (hinv : RecordsInv state) (hrecords : next.records = state.records)
    (hinstances : next.instances = state.instances) (hused : next.used = state.used)
    (hrouted : next.routed = state.routed) : RecordsInv next where
  ids := by rw [hrecords, hused]; exact hinv.ids
  instances := by rw [hrecords, hinstances, hused]; exact hinv.instances
  routed := by rw [hrecords, hinstances, hused, hrouted]; exact hinv.routed

theorem RecordsInv.run (hinv : RecordsInv state) (machine : Machine) (command : Command) :
    RecordsInv (run state machine command) := by
  cases command with
  | drop agentName => exact hinv.of_same rfl rfl rfl rfl
  | write agentName stateful =>
      refine ⟨hinv.ids, hinv.instances, fun replica hmem => ?_⟩
      rcases List.mem_append.mp hmem with hnew | hold
      · obtain ⟨record, hroutable, rfl⟩ := List.mem_map.mp hnew
        exact (hinv.routed_of_routable hroutable).2
      · exact hinv.routed replica hold

omit [DecidableEq Machine] in
/-- A record is changed: the same replica, agent and address, or none. -/
theorem RecordsInv.setRecord (hinv : RecordsInv state) {replicaId : ReplicaId}
    {value : Option ReplicaRecord}
    (hvalue : ∀ record ∈ value, ∃ before, state.records replicaId = some before ∧
      record.replicaId = before.replicaId ∧ record.agentName = before.agentName ∧
      (before.address.isSome → record.address = before.address)) :
    RecordsInv (Routing.setRecord state replicaId value) where
  ids other record hrecord := by
    by_cases heq : other = replicaId
    · subst heq
      rw [records_setRecord_self] at hrecord
      obtain ⟨before, hbefore, hid, -⟩ := hvalue record hrecord
      rw [hid]
      exact hinv.ids other before hbefore
    · rw [records_setRecord_of_ne heq] at hrecord
      exact hinv.ids other record hrecord
  instances agentName other hmem := by
    obtain ⟨hused, hagent⟩ := hinv.instances agentName other hmem
    refine ⟨hused, fun record hrecord => ?_⟩
    by_cases heq : other = replicaId
    · subst heq
      rw [records_setRecord_self] at hrecord
      obtain ⟨before, hbefore, -, hname, -⟩ := hvalue record hrecord
      rw [hname]
      exact hagent before hbefore
    · rw [records_setRecord_of_ne heq] at hrecord
      exact hagent record hrecord
  routed replica hmem := by
    obtain ⟨hused, hlisted⟩ := hinv.routed replica hmem
    refine ⟨hused, fun record hrecord => ?_⟩
    by_cases heq : replica.replicaId = replicaId
    · subst heq
      rw [records_setRecord_self] at hrecord
      obtain ⟨before, hbefore, -, hname, haddress⟩ := hvalue record hrecord
      obtain ⟨hagent, hrouted, hinstance⟩ := hlisted before hbefore
      exact ⟨hname.trans hagent, (haddress (by simp [hrouted])).trans hrouted, hinstance⟩
    · rw [records_setRecord_of_ne heq] at hrecord
      exact hlisted record hrecord

omit [DecidableEq Machine] in
theorem RecordsInv.reserve (hinv : RecordsInv state) {replicaId : ReplicaId}
    (hfresh : replicaId ∉ state.used) (agentName : AgentName) :
    RecordsInv { Routing.setRecord state replicaId (some { replicaId, agentName }) with
      used := replicaId :: state.used } where
  ids other record hrecord := by
    change (Routing.setRecord state replicaId _).records other = some record at hrecord
    by_cases heq : other = replicaId
    · subst heq
      rw [records_setRecord_self] at hrecord
      cases hrecord
      exact ⟨rfl, List.mem_cons_self⟩
    · rw [records_setRecord_of_ne heq] at hrecord
      obtain ⟨hid, hused⟩ := hinv.ids other record hrecord
      exact ⟨hid, List.mem_cons_of_mem _ hused⟩
  instances name other hmem := by
    obtain ⟨hused, hagent⟩ := hinv.instances name other hmem
    refine ⟨List.mem_cons_of_mem _ hused, fun record hrecord => ?_⟩
    change (Routing.setRecord state replicaId _).records other = some record at hrecord
    have hne : other ≠ replicaId := by
      rintro rfl
      exact hfresh hused
    rw [records_setRecord_of_ne hne] at hrecord
    exact hagent record hrecord
  routed replica hmem := by
    obtain ⟨hused, hlisted⟩ := hinv.routed replica hmem
    refine ⟨List.mem_cons_of_mem _ hused, fun record hrecord => ?_⟩
    change (Routing.setRecord state replicaId _).records replica.replicaId = some record at hrecord
    have hne : replica.replicaId ≠ replicaId := by
      rintro rfl
      exact hfresh hused
    rw [records_setRecord_of_ne hne] at hrecord
    exact hlisted record hrecord

omit [DecidableEq Machine] in
theorem RecordsInv.addToAgent (hinv : RecordsInv state) {replicaId : ReplicaId}
    {record : ReplicaRecord} (hrecord : state.records replicaId = some record) :
    RecordsInv (setInstances state record.agentName
      ((state.instances record.agentName).insert replicaId)) where
  ids := hinv.ids
  instances agentName other hmem := by
    by_cases hagent : agentName = record.agentName
    · subst hagent
      rw [instances_setInstances_self, List.mem_insert_iff] at hmem
      rcases hmem with rfl | hold
      · refine ⟨(hinv.ids other record hrecord).2, fun found hfound => ?_⟩
        rw [Option.some.inj (hfound.symm.trans hrecord)]
      · exact hinv.instances record.agentName other hold
    · rw [instances_setInstances_of_ne hagent] at hmem
      exact hinv.instances agentName other hmem
  routed replica hmem := by
    obtain ⟨hused, hlisted⟩ := hinv.routed replica hmem
    refine ⟨hused, fun found hfound => ?_⟩
    obtain ⟨hagent, haddress, hinstance⟩ := hlisted found hfound
    refine ⟨hagent, haddress, ?_⟩
    by_cases heq : replica.agentName = record.agentName
    · rw [heq] at hinstance ⊢
      rw [instances_setInstances_self]
      exact List.mem_insert_of_mem hinstance
    · rwa [instances_setInstances_of_ne heq]

omit [DecidableEq Machine] in
theorem RecordsInv.removeFromAgent (hinv : RecordsInv state) {replicaId : ReplicaId}
    (hgone : state.records replicaId = none) (agentName : AgentName) :
    RecordsInv (setInstances state agentName
      ((state.instances agentName).erase replicaId)) where
  ids := hinv.ids
  instances name other hmem := by
    by_cases hname : name = agentName
    · subst hname
      rw [instances_setInstances_self] at hmem
      exact hinv.instances name other (List.mem_of_mem_erase hmem)
    · rw [instances_setInstances_of_ne hname] at hmem
      exact hinv.instances name other hmem
  routed replica hmem := by
    obtain ⟨hused, hlisted⟩ := hinv.routed replica hmem
    refine ⟨hused, fun found hfound => ?_⟩
    obtain ⟨hagent, haddress, hinstance⟩ := hlisted found hfound
    have hne : replica.replicaId ≠ replicaId := by
      rintro rfl
      exact Option.some_ne_none found (Eq.trans hfound.symm hgone)
    refine ⟨hagent, haddress, ?_⟩
    by_cases heq : replica.agentName = agentName
    · subst heq
      rw [instances_setInstances_self]
      exact (List.mem_erase_of_ne hne).mpr hinstance
    · rwa [instances_setInstances_of_ne heq]

omit [DecidableEq Machine] in
theorem RecordsInv.reconcile {action : Action Machine} (hinv : RecordsInv state)
    (hstep : reconcile state action = some next) : RecordsInv next := by
  cases action with
  | adopt | ensure | publish =>
      cases hstep
      exact hinv.of_same rfl rfl rfl rfl
  | reserve replicaId agentName =>
      simp only [Routing.reconcile] at hstep
      split_ifs at hstep with hfresh
      cases hstep
      exact hinv.reserve hfresh agentName
  | finish replicaId address now =>
      simp only [Routing.reconcile] at hstep
      split at hstep
      case h_1 record hrecord =>
        split_ifs at hstep with hopen
        cases hstep
        refine hinv.setRecord fun after hafter => ?_
        cases hafter
        refine ⟨record, hrecord, rfl, rfl, fun hsome => ?_⟩
        rw [Option.isNone_iff_eq_none.mp hopen] at hsome
        cases hsome
      case h_2 => cases hstep
  | addToAgent replicaId =>
      obtain ⟨record, hrecord, rfl⟩ := Option.map_eq_some_iff.mp hstep
      exact hinv.addToAgent hrecord
  | drain replicaId now =>
      obtain ⟨record, hrecord, rfl⟩ := Option.map_eq_some_iff.mp hstep
      refine hinv.setRecord fun after hafter => ?_
      cases hafter
      exact ⟨record, hrecord, rfl, rfl, fun _ => rfl⟩
  | delete replicaId =>
      cases hstep
      exact hinv.setRecord fun _ hmem => by cases hmem
  | removeFromAgent agentName replicaId =>
      simp only [Routing.reconcile] at hstep
      split_ifs at hstep with hgone
      cases hstep
      exact hinv.removeFromAgent hgone agentName
  | command | abort | forward | settle | look | failGone | looked => cases hstep

/-- The reconciler's steps leave the tables and the calls alone, and bring no replica back. -/
structure Frame (state next : State Machine) : Prop where
  table : next.table = state.table
  targets : next.targets = state.targets
  todo : next.todo = state.todo
  aborted : next.aborted = state.aborted
  routed : next.routed = state.routed
  forwarded : next.forwarded = state.forwarded
  looking : next.looking = state.looking
  recorded : ∀ replica ∈ state.routed, Recorded next replica → Recorded state replica

omit [DecidableEq Machine] in
theorem frame_setRecord {replicaId : ReplicaId} {record : ReplicaRecord}
    (hrecord : state.records replicaId = some record) (value : Option ReplicaRecord) :
    Frame state (setRecord state replicaId value) := by
  refine ⟨rfl, rfl, rfl, rfl, rfl, rfl, rfl, fun replica _ hrecorded => ?_⟩
  by_cases heq : replica.replicaId = replicaId
  · unfold Recorded
    rw [heq, hrecord]
    simp
  · unfold Recorded at hrecorded ⊢
    rwa [records_setRecord_of_ne heq] at hrecorded

omit [DecidableEq Machine] in
theorem frame_reconcile {action : Action Machine} (hinv : RecordsInv state)
    (hpublish : ∀ targets, action ≠ .publish targets)
    (hstep : reconcile state action = some next) : Frame state next := by
  have hsame : ∀ {after : State Machine}, after.records = state.records →
      ∀ replica ∈ state.routed, Recorded after replica → Recorded state replica := by
    intro after hrecords replica _ hrecorded
    unfold Recorded at hrecorded ⊢
    rwa [hrecords] at hrecorded
  cases action with
  | publish targets => exact absurd rfl (hpublish targets)
  | adopt | ensure =>
      cases hstep
      exact ⟨rfl, rfl, rfl, rfl, rfl, rfl, rfl, hsame rfl⟩
  | reserve replicaId agentName =>
      simp only [Routing.reconcile] at hstep
      split_ifs at hstep with hfresh
      cases hstep
      refine ⟨rfl, rfl, rfl, rfl, rfl, rfl, rfl, fun replica hmem hrecorded => ?_⟩
      have hne : replica.replicaId ≠ replicaId := by
        rintro rfl
        exact hfresh (hinv.routed replica hmem).1
      unfold Recorded at hrecorded ⊢
      change (Routing.setRecord state replicaId _).records replica.replicaId ≠ none at hrecorded
      rwa [records_setRecord_of_ne hne] at hrecorded
  | finish replicaId address now =>
      simp only [Routing.reconcile] at hstep
      split at hstep
      case h_1 record hrecord =>
        split_ifs at hstep
        cases hstep
        exact frame_setRecord hrecord _
      case h_2 => cases hstep
  | addToAgent replicaId =>
      obtain ⟨record, hrecord, rfl⟩ := Option.map_eq_some_iff.mp hstep
      exact ⟨rfl, rfl, rfl, rfl, rfl, rfl, rfl, hsame rfl⟩
  | drain replicaId now =>
      obtain ⟨record, hrecord, rfl⟩ := Option.map_eq_some_iff.mp hstep
      exact frame_setRecord hrecord _
  | delete replicaId =>
      cases hstep
      refine ⟨rfl, rfl, rfl, rfl, rfl, rfl, rfl, fun replica _ hrecorded => ?_⟩
      unfold Recorded at hrecorded ⊢
      by_cases heq : replica.replicaId = replicaId
      · rw [heq, records_setRecord_self] at hrecorded
        exact absurd rfl hrecorded
      · rwa [records_setRecord_of_ne heq] at hrecorded
  | removeFromAgent agentName replicaId =>
      simp only [Routing.reconcile] at hstep
      split_ifs at hstep
      cases hstep
      exact ⟨rfl, rfl, rfl, rfl, rfl, rfl, rfl, hsame rfl⟩
  | command | abort | forward | settle | look | failGone | looked => cases hstep

/-! ### A publish -/

/-- The agents of the publish at work. -/
def names (state : State Machine) : List AgentName :=
  state.publishing.map AgentSpec.name

def Named (state : State Machine) : Prop :=
  ∀ replica ∈ state.routed, Recorded state replica → replica.agentName ∈ names state

/-- The part of the publish that is done is what the records say. -/
structure Fresh (state : State Machine) : Prop where
  drops : ∀ machine agentName, (machine, .drop agentName) ∈ state.todo → agentName ∉ names state
  writes : ∀ machine agentName stateful, (machine, .write agentName stateful) ∈ state.todo →
    agentName ∈ names state
  done : ∀ machine ∈ state.targets, machine ∉ state.aborted → ∀ agentName ∈ names state,
    (∃ stateful, (machine, .write agentName stateful) ∈ state.todo) ∨
      (state.table machine).replicas.lookup agentName = some (known state agentName)

def Complete (state : State Machine) : Prop :=
  ∀ machine ∈ state.targets, machine ∉ state.aborted → ∀ replica ∈ state.routed,
    Recorded state replica → (state.table machine).Lists replica

omit [DecidableEq Machine] in
theorem complete_of_fresh (hrecords : RecordsInv state) (hnamed : Named state)
    (hfresh : Fresh state) (hdone : state.todo = []) : Complete state := by
  intro machine htarget hkept replica hrouted hrecorded
  have hname := hnamed replica hrouted hrecorded
  rcases hfresh.done machine htarget hkept replica.agentName hname with ⟨_, hmem⟩ | hlookup
  · rw [hdone] at hmem
    cases hmem
  · exact ⟨_, hlookup, hrecords.mem_known hrouted hrecorded⟩

omit [DecidableEq Machine] in
theorem mem_commandsFor_drop {specs : List AgentSpec} {table : Table} {agentName : AgentName}
    (hmem : .drop agentName ∈ commandsFor specs table) :
    agentName ∉ specs.map AgentSpec.name := by
  rcases List.mem_append.mp hmem with hdrop | hwrite
  · obtain ⟨dropped, hfilter, heq⟩ := List.mem_map.mp hdrop
    cases heq
    have hstale := of_decide_eq_true (List.mem_filter.mp hfilter).2
    rwa [List.mem_dedup] at hstale
  · obtain ⟨_, -, heq⟩ := List.mem_map.mp hwrite
    cases heq

omit [DecidableEq Machine] in
theorem mem_commandsFor_write {specs : List AgentSpec} {table : Table} {agentName : AgentName} :
    (∃ stateful, .write agentName stateful ∈ commandsFor specs table) ↔
      agentName ∈ specs.map AgentSpec.name := by
  constructor
  · rintro ⟨stateful, hmem⟩
    rcases List.mem_append.mp hmem with hdrop | hwrite
    · obtain ⟨_, -, heq⟩ := List.mem_map.mp hdrop
      cases heq
    · obtain ⟨name, hname, heq⟩ := List.mem_map.mp hwrite
      cases heq
      exact List.mem_dedup.mp hname
  · intro hname
    exact ⟨_, List.mem_append_right _ (List.mem_map_of_mem (List.mem_dedup.mpr hname))⟩

theorem named_run (hrecords : RecordsInv state) (hnamed : Named state) (hfresh : Fresh state)
    {command : Command} {todo : List (Machine × Command)}
    (htodo : state.todo = (machine, command) :: todo) :
    Named (run { state with todo } machine command) := by
  cases command with
  | drop agentName => exact hnamed
  | write agentName stateful =>
      intro replica hmem hrecorded
      rcases List.mem_append.mp hmem with hnew | hold
      · obtain ⟨record, hroutable, rfl⟩ := List.mem_map.mp hnew
        have hagent : record.toRouted.agentName = agentName :=
          (hrecords.routed_of_routable hroutable).1
        rw [hagent]
        exact hfresh.writes machine agentName stateful (htodo ▸ List.mem_cons_self)
      · exact hnamed replica hold hrecorded

theorem fresh_run (hfresh : Fresh state) {command : Command} {todo : List (Machine × Command)}
    (htodo : state.todo = (machine, command) :: todo) :
    Fresh (run { state with todo } machine command) := by
  have hsub : ∀ entry ∈ todo, entry ∈ state.todo := by
    intro entry hmem
    rw [htodo]
    exact List.mem_cons_of_mem _ hmem
  have hhead : (machine, command) ∈ state.todo := htodo ▸ List.mem_cons_self
  cases command with
  | drop dropped =>
      have hdropped := hfresh.drops machine dropped hhead
      refine ⟨fun other agentName hmem => hfresh.drops other agentName (hsub _ hmem),
        fun other agentName stateful hmem => hfresh.writes other agentName stateful (hsub _ hmem),
        fun other htarget hkept agentName hname => ?_⟩
      rcases hfresh.done other htarget hkept agentName hname with ⟨stateful, hmem⟩ | hlookup
      · rw [htodo, List.mem_cons] at hmem
        rcases hmem with heq | hmem
        · cases heq
        · exact .inl ⟨stateful, hmem⟩
      · right
        by_cases heq : other = machine
        · subst heq
          have hne : agentName ≠ dropped := by
            rintro rfl
            exact hdropped hname
          change ((Function.update state.table other _) other).replicas.lookup agentName = _
          rw [Function.update_self, Table.drop, AList.lookup_erase_ne hne]
          exact hlookup
        · change ((Function.update state.table machine _) other).replicas.lookup agentName = _
          rw [Function.update_of_ne heq]
          exact hlookup
  | write written flag =>
      refine ⟨fun other agentName hmem => hfresh.drops other agentName (hsub _ hmem),
        fun other agentName stateful hmem => hfresh.writes other agentName stateful (hsub _ hmem),
        fun other htarget hkept agentName hname => ?_⟩
      by_cases heq : other = machine ∧ agentName = written
      · obtain ⟨rfl, rfl⟩ := heq
        right
        change ((Function.update state.table other _) other).replicas.lookup agentName = _
        rw [Function.update_self, Table.write, AList.lookup_insert]
        rfl
      · rcases hfresh.done other htarget hkept agentName hname with ⟨stateful, hmem⟩ | hlookup
        · rw [htodo, List.mem_cons] at hmem
          rcases hmem with hentry | hmem
          · cases hentry
            exact absurd ⟨rfl, rfl⟩ heq
          · exact .inl ⟨stateful, hmem⟩
        · right
          by_cases hmachine : other = machine
          · subst hmachine
            have hne : agentName ≠ written := fun hsame => heq ⟨rfl, hsame⟩
            change ((Function.update state.table other _) other).replicas.lookup agentName = _
            rw [Function.update_self, Table.write, AList.lookup_insert_ne hne]
            exact hlookup
          · change ((Function.update state.table machine _) other).replicas.lookup agentName = _
            rw [Function.update_of_ne hmachine]
            exact hlookup

/-- A command leaves listed what a publish must keep. -/
theorem lists_run (hrecords : RecordsInv state) (hnamed : Named state) (hfresh : Fresh state)
    {command : Command} {todo : List (Machine × Command)}
    (htodo : state.todo = (machine, command) :: todo) (hrouted : replica ∈ state.routed)
    (hrecorded : Recorded state replica) {other : Machine}
    (hlists : (state.table other).Lists replica) :
    ((run { state with todo } machine command).table other).Lists replica := by
  have hhead : (machine, command) ∈ state.todo := htodo ▸ List.mem_cons_self
  by_cases heq : other = machine
  · subst heq
    cases command with
    | drop dropped =>
        have hne : replica.agentName ≠ dropped := by
          rintro rfl
          exact hfresh.drops other _ hhead (hnamed replica hrouted hrecorded)
        change ((Function.update state.table other _) other).Lists replica
        rw [Function.update_self]
        exact (Table.lists_drop hne).mpr hlists
    | write written flag =>
        change ((Function.update state.table other _) other).Lists replica
        rw [Function.update_self]
        by_cases hname : replica.agentName = written
        · subst hname
          exact (Table.lists_write_self rfl).mpr (hrecords.mem_known hrouted hrecorded)
        · exact (Table.lists_write_of_ne hname).mpr hlists
  · have htable : (run { state with todo } machine command).table other = state.table other := by
      cases command with
      | drop dropped => exact Function.update_of_ne heq _ _
      | write written flag => exact Function.update_of_ne heq _ _
    rwa [htable]

/-! ### Every run -/

/-- A call handed out goes to a replica listed on the caller's machine while it exists. -/
def Handed (machineOf : Address → Machine) (state : State Machine) : Prop :=
  ∀ controller futureId, ∀ replica ∈ state.forwarded controller futureId,
    replica ∈ state.routed ∧ (Recorded state replica →
      (state.table (machineOf controller)).Lists replica ∧
        ∀ addresses ∈ state.looking controller, replica.address ∈ addresses)

structure Inv (machineOf : Address → Machine) (state : State Machine) : Prop where
  records : RecordsInv state
  named : state.todo ≠ [] → Named state
  fresh : state.todo ≠ [] → Fresh state
  complete : state.todo = [] → Complete state
  handed : Handed machineOf state

theorem Inv.command (hinv : Inv machineOf state) {command : Command}
    {todo : List (Machine × Command)} (htodo : state.todo = (machine, command) :: todo) :
    Inv machineOf (run { state with todo } machine command) := by
  have hbusy : state.todo ≠ [] := by simp [htodo]
  have hstart : RecordsInv { state with todo } := hinv.records.of_same rfl rfl rfl rfl
  have hrecords := hstart.run machine command
  have hnamed := named_run hinv.records (hinv.named hbusy) (hinv.fresh hbusy) htodo
  have hfresh := fresh_run (hinv.fresh hbusy) htodo
  have hframe : (run { state with todo } machine command).forwarded = state.forwarded ∧
      (run { state with todo } machine command).looking = state.looking ∧
      (run { state with todo } machine command).records = state.records ∧
      state.routed ⊆ (run { state with todo } machine command).routed := by
    cases command with
    | drop dropped => exact ⟨rfl, rfl, rfl, List.Subset.refl _⟩
    | write written flag => exact ⟨rfl, rfl, rfl, List.subset_append_right _ _⟩
  obtain ⟨hforwarded, hlooking, hsame, hgrown⟩ := hframe
  refine ⟨hrecords, fun _ => hnamed, fun _ => hfresh, complete_of_fresh hrecords hnamed hfresh, ?_⟩
  intro controller futureId replica hreplica
  rw [hforwarded] at hreplica
  obtain ⟨hrouted, hlisted⟩ := hinv.handed controller futureId replica hreplica
  refine ⟨hgrown hrouted, fun hrecorded => ?_⟩
  have hbefore : Recorded state replica := by
    unfold Recorded at hrecorded ⊢
    rwa [hsame] at hrecorded
  obtain ⟨hlists, hlook⟩ := hlisted hbefore
  refine ⟨?_, by rwa [hlooking]⟩
  exact lists_run hinv.records (hinv.named hbusy) (hinv.fresh hbusy) htodo hrouted hbefore hlists

theorem Inv.abort (hinv : Inv machineOf state) {command : Command}
    {todo : List (Machine × Command)} (htodo : state.todo = (machine, command) :: todo) :
    Inv machineOf { state with
      todo := state.todo.filter fun entry => entry.1 ≠ machine
      aborted := machine :: state.aborted } := by
  have hbusy : state.todo ≠ [] := by simp [htodo]
  have hold := hinv.fresh hbusy
  have hrecords : RecordsInv { state with
      todo := state.todo.filter fun entry => entry.1 ≠ machine
      aborted := machine :: state.aborted } := hinv.records.of_same rfl rfl rfl rfl
  have hfresh : Fresh { state with
      todo := state.todo.filter fun entry => entry.1 ≠ machine
      aborted := machine :: state.aborted } := by
    refine ⟨fun other agentName hmem => hold.drops other agentName (List.mem_of_mem_filter hmem),
      fun other agentName stateful hmem =>
        hold.writes other agentName stateful (List.mem_of_mem_filter hmem),
      fun other htarget hkept agentName hname => ?_⟩
    obtain ⟨hne, hkept⟩ : other ≠ machine ∧ other ∉ state.aborted := by simpa using hkept
    rcases hold.done other htarget hkept agentName hname with ⟨stateful, hmem⟩ | hlookup
    · exact .inl ⟨stateful, List.mem_filter.mpr ⟨hmem, by simpa using hne⟩⟩
    · exact .inr hlookup
  exact ⟨hrecords, fun _ => hinv.named hbusy, fun _ => hfresh,
    complete_of_fresh hrecords (hinv.named hbusy) hfresh, hinv.handed⟩

omit [DecidableEq Machine] in
/-- The controllers' steps change only what they hold themselves. -/
theorem Inv.calls (hinv : Inv machineOf state) {forwarded : Address → FutureId → Option Routed}
    {looking : Address → Option (List Address)}
    (hhanded : Handed machineOf { state with forwarded, looking }) :
    Inv machineOf { state with forwarded, looking } :=
  ⟨hinv.records.of_same rfl rfl rfl rfl, hinv.named,
    fun hbusy => ⟨(hinv.fresh hbusy).drops, (hinv.fresh hbusy).writes, (hinv.fresh hbusy).done⟩,
    hinv.complete, hhanded⟩

omit [DecidableEq Machine] in
/-- A call that is over, or that was handed to a listed replica. -/
theorem Handed.update (hhanded : Handed machineOf state) (controller : Address)
    (futureId : FutureId) {value : Option Routed}
    (hvalue : ∀ replica ∈ value, replica ∈ state.routed ∧
      (state.table (machineOf controller)).Lists replica ∧
        ∀ addresses ∈ state.looking controller, replica.address ∈ addresses) :
    Handed machineOf { state with
      forwarded := Function.update state.forwarded controller
        (Function.update (state.forwarded controller) futureId value) } := by
  intro other otherId replica hmem
  by_cases hcontroller : other = controller
  · subst hcontroller
    change replica ∈ Function.update state.forwarded other _ other otherId at hmem
    rw [Function.update_self] at hmem
    by_cases hfuture : otherId = futureId
    · subst hfuture
      rw [Function.update_self] at hmem
      obtain ⟨hrouted, hlisted⟩ := hvalue replica hmem
      exact ⟨hrouted, fun _ => hlisted⟩
    · rw [Function.update_of_ne hfuture] at hmem
      exact hhanded other otherId replica hmem
  · change replica ∈ Function.update state.forwarded controller _ other otherId at hmem
    rw [Function.update_of_ne hcontroller] at hmem
    exact hhanded other otherId replica hmem

omit [DecidableEq Machine] in
/-- A heartbeat's copy of the table lists what the table lists. -/
theorem Handed.look (hhanded : Handed machineOf state) (controller : Address)
    {value : Option (List Address)}
    (hvalue : ∀ addresses ∈ value,
      addresses = (state.table (machineOf controller)).known) :
    Handed machineOf { state with
      looking := Function.update state.looking controller value } := by
  intro other futureId replica hmem
  obtain ⟨hrouted, hlisted⟩ := hhanded other futureId replica hmem
  refine ⟨hrouted, fun hrecorded => ?_⟩
  obtain ⟨hlists, hlook⟩ := hlisted hrecorded
  refine ⟨hlists, fun addresses hlooking => ?_⟩
  change addresses ∈ Function.update state.looking controller value other at hlooking
  by_cases heq : other = controller
  · subst heq
    rw [Function.update_self] at hlooking
    rw [hvalue addresses hlooking]
    exact Table.mem_known_of_lists hlists
  · rw [Function.update_of_ne heq] at hlooking
    exact hlook addresses hlooking

omit [DecidableEq Machine] in
theorem Inv.publish (hinv : Inv machineOf state) (targets : List Machine)
    (hnames : ∀ replica ∈ state.routed, Recorded state replica →
      replica.agentName ∈ (given state).map AgentSpec.name) :
    Inv machineOf { state with
      publishing := given state
      targets
      todo := targets.flatMap fun machine =>
        (commandsFor (given state) (state.table machine)).map (machine, ·)
      aborted := [] } := by
  have hrecords : RecordsInv { state with
      publishing := given state
      targets
      todo := targets.flatMap fun machine =>
        (commandsFor (given state) (state.table machine)).map (machine, ·)
      aborted := [] } := hinv.records.of_same rfl rfl rfl rfl
  have hcommand : ∀ machine command,
      (machine, command) ∈ (targets.flatMap fun machine =>
        (commandsFor (given state) (state.table machine)).map (machine, ·)) ↔
      machine ∈ targets ∧ command ∈ commandsFor (given state) (state.table machine) := by
    intro machine command
    simp [List.mem_flatMap, List.mem_map]
  have hfresh : Fresh { state with
      publishing := given state
      targets
      todo := targets.flatMap fun machine =>
        (commandsFor (given state) (state.table machine)).map (machine, ·)
      aborted := [] } := by
    refine ⟨fun machine agentName hmem => ?_, fun machine agentName stateful hmem => ?_,
      fun machine htarget _ agentName hname => ?_⟩
    · exact mem_commandsFor_drop ((hcommand _ _).mp hmem).2
    · exact mem_commandsFor_write.mp ⟨stateful, ((hcommand _ _).mp hmem).2⟩
    · obtain ⟨stateful, hmem⟩ : ∃ stateful,
          .write agentName stateful ∈ commandsFor (given state) (state.table machine) :=
        mem_commandsFor_write.mpr hname
      exact .inl ⟨stateful, (hcommand _ _).mpr ⟨htarget, hmem⟩⟩
  exact ⟨hrecords, fun _ => hnames, fun _ => hfresh, complete_of_fresh hrecords hnames hfresh,
    hinv.handed⟩

omit [DecidableEq Machine] in
theorem Inv.frame (hinv : Inv machineOf state) (hidle : state.todo = [])
    (hrecords : RecordsInv next) (hframe : Frame state next) : Inv machineOf next := by
  have hdone : next.todo = [] := hframe.todo.trans hidle
  refine ⟨hrecords, absurd hdone, absurd hdone, fun _ => ?_, ?_⟩
  · intro machine htarget hkept replica hrouted hrecorded
    rw [hframe.targets] at htarget
    rw [hframe.aborted] at hkept
    rw [hframe.routed] at hrouted
    rw [hframe.table]
    have hbefore := hframe.recorded replica hrouted hrecorded
    exact hinv.complete hidle machine htarget hkept replica hrouted hbefore
  · intro controller futureId replica hmem
    rw [hframe.forwarded] at hmem
    obtain ⟨hrouted, hlisted⟩ := hinv.handed controller futureId replica hmem
    rw [hframe.routed, hframe.table, hframe.looking]
    exact ⟨hrouted, fun hrecorded => hlisted (hframe.recorded replica hrouted hrecorded)⟩

omit [DecidableEq Machine] in
theorem Inv.reconcile {action : Action Machine} (hinv : Inv machineOf state)
    (hguard : NamesAll machineOf state action) (hidle : state.todo = [])
    (hstep : reconcile state action = some next) : Inv machineOf next := by
  by_cases hpublish : ∃ targets, action = .publish targets
  · obtain ⟨targets, rfl⟩ := hpublish
    cases hstep
    exact hinv.publish targets hguard
  · have hframe := frame_reconcile hinv.records (not_exists.mp hpublish) hstep
    exact hinv.frame hidle (hinv.records.reconcile hstep) hframe

theorem inv_step {action : Action Machine} (hinv : Inv machineOf state)
    (hguard : NamesAll machineOf state action) (hstep : step machineOf state action = some next) :
    Inv machineOf next := by
  cases action with
  | command =>
      simp only [step] at hstep
      split at hstep
      case h_1 machine command todo htodo =>
        cases hstep
        exact hinv.command htodo
      case h_2 => cases hstep
  | abort =>
      simp only [step] at hstep
      split at hstep
      case h_1 machine command todo htodo =>
        cases hstep
        exact hinv.abort htodo
      case h_2 => cases hstep
  | forward controller futureId replica =>
      simp only [step] at hstep
      split_ifs at hstep with hrouted
      cases hstep
      refine hinv.calls (hinv.handed.update controller futureId fun found hfound => ?_)
      cases hfound
      exact ⟨hrouted, hguard⟩
  | settle controller futureId =>
      cases hstep
      exact hinv.calls (hinv.handed.update controller futureId fun _ hmem => by cases hmem)
  | look controller =>
      cases hstep
      refine hinv.calls (hinv.handed.look controller fun addresses hmem => ?_)
      split_ifs at hmem
      · cases hmem
      · exact (Option.some.inj hmem).symm
  | failGone controller futureId =>
      simp only [step] at hstep
      split at hstep
      case h_1 addresses replica hlooking hforwarded =>
        split_ifs at hstep
        cases hstep
        exact hinv.calls (hinv.handed.update controller futureId fun _ hmem => by cases hmem)
      case h_2 => cases hstep
  | looked controller =>
      cases hstep
      exact hinv.calls (hinv.handed.look controller fun _ hmem => by cases hmem)
  | adopt | ensure | reserve | finish | addToAgent | drain | delete | removeFromAgent | publish =>
      simp only [step] at hstep
      split_ifs at hstep with hidle
      exact hinv.reconcile hguard hidle hstep

theorem not_recorded_of_failGone (hinv : Inv machineOf state) {controller : Address}
    {futureId : FutureId} (hstep : step machineOf state (.failGone controller futureId) = some next)
    (hreplica : replica ∈ state.forwarded controller futureId) : ¬ Recorded state replica := by
  intro hrecorded
  simp only [step] at hstep
  split at hstep
  case h_1 addresses found hlooking hforwarded =>
    split_ifs at hstep with hmissing
    obtain rfl : found = replica := Option.some.inj (hforwarded.symm.trans hreplica)
    obtain ⟨-, hlisted⟩ := hinv.handed controller futureId found hreplica
    exact hmissing ((hlisted hrecorded).2 addresses hlooking)
  case h_2 => cases hstep

omit [DecidableEq Machine] in
theorem inv_empty (machineOf : Address → Machine) : Inv machineOf ({} : State Machine) where
  records := ⟨fun _ _ hrecord => (by cases hrecord), fun _ _ hmem => (by cases hmem),
    fun _ hmem => (by cases hmem)⟩
  named hbusy := absurd rfl hbusy
  fresh hbusy := absurd rfl hbusy
  complete _ := fun _ hmem => by cases hmem
  handed := fun _ _ _ hmem => by cases hmem

/-- Every order of passes, publishes, failing machines, calls and heartbeats. -/
theorem publish_keeps_routed (machineOf : Address → Machine) (actions : List (Action Machine))
    (hguard : (system machineOf).Guarded (NamesAll machineOf) {} actions) :
    (system machineOf).Along KeepsRouted {} actions := by
  refine (system machineOf).along_of_guarded ?_ actions (inv_empty machineOf) hguard
  intro state action next hinv hallowed hstep
  have hnext := inv_step hinv hallowed hstep
  refine ⟨hnext, fun hdone machine htarget hkept replica hrouted hrecorded => ?_, ?_⟩
  · have hlists := hnext.complete hdone machine htarget hkept replica hrouted hrecorded
    exact Table.mem_known_of_lists hlists
  · intro call hcall replica hreplica
    cases action with
    | failGone controller futureId =>
        cases hcall
        exact not_recorded_of_failGone hinv hstep hreplica
    | _ => cases hcall

/-- The search replica of these runs. -/
def searchReplica : Routed where
  replicaId := "r1"
  agentName := "search"
  address := "10.0.0.1:5000"

/-- Two agents, of which the first has a replica, and a call handed to it. -/
def handing : List (Action Unit) :=
  [.adopt [{ name := "search" }, { name := "chat" }],
    .ensure [{ name := "search" }, { name := "chat" }],
    .reserve "r1" "search", .finish "r1" "10.0.0.1:5000" 1, .addToAgent "r1",
    .publish [()], .command, .command, .forward "10.0.0.1:4000" "f1" searchReplica]

/-- The agent is removed: its replica drains, and the call handed to it is failed as lost. -/
def removing : List (Action Unit) :=
  [.adopt [{ name := "chat" }], .ensure [{ name := "chat" }], .drain "r1" 2,
    .publish [()], .command, .command, .look "10.0.0.1:4000", .failGone "10.0.0.1:4000" "f1"]

theorem draining_replica_forgotten :
    ((system fun _ => ()).run {} (handing ++ removing)).isSome ∧
      ¬ (system fun _ => ()).Along KeepsRouted {} (handing ++ removing) := by
  decide +kernel

/-- The replica drains under its agent's name and is deleted before the call is failed. -/
def draining : List (Action Unit) :=
  [.drain "r1" 2, .publish [()], .command, .command, .look "10.0.0.1:4000", .delete "r1",
    .removeFromAgent "search" "r1", .publish [()], .command, .command, .look "10.0.0.1:4000",
    .failGone "10.0.0.1:4000" "f1"]

theorem publish_keeps_routed_drained :
    ((system fun _ => ()).run {} (handing ++ draining)).isSome ∧
      (system fun _ => ()).Along KeepsRouted {} (handing ++ draining) := by
  refine ⟨by decide +kernel, publish_keeps_routed _ _ ?_⟩
  decide +kernel

end CanyonOS.Routing
