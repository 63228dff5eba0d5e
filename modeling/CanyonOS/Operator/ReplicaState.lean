import CanyonOS.Lib.TransitionSystem
import CanyonOS.Operator.Convergence
import Mathlib.Data.List.AList

/-!
# The operator's replica records

What `SyncReplicas` and `RemoveAgent` keep of one agent in its project's Redis, while the pods of
its StatefulSet come, report their status and go.
-/

namespace CanyonOS.Operator.ReplicaState

abbrev ReplicaId := String

/-- A hash of the project's Redis. A field nobody wrote is `none`. -/
abbrev Hash := String → Option String

def noHash : Hash :=
  fun _ => none

/-- `HSET` of several fields: the fields given are replaced, the others stay. -/
def overlay (hash : Hash) (fields : List (String × String)) : Hash :=
  fun field => (fields.lookup field).or (hash field)

inductive Key where
  /-- `agent_instance:<id>` -/
  | replica (id : ReplicaId)
  /-- `agent:<name>:instances` -/
  | replicaSet (agentName : AgentName)
  /-- `agent:<name>:desired_replicas` -/
  | desiredReplicas (agentName : AgentName)
  /-- `operator:<name>:addresses` -/
  | tracked (agentName : AgentName)
  /-- `controller:<address>:status` -/
  | status (address : Address)
deriving DecidableEq

structure Redis where
  strings : Key → Option String := fun _ => none
  hashes : Key → Hash := fun _ => noHash
  sets : Key → Finset String := fun _ => ∅

/-- What a transaction queues. -/
inductive Command where
  | del (key : Key)
  | set (key : Key) (value : String)
  | hset (key : Key) (fields : List (String × String))
  | sadd (key : Key) (member : String)
  | srem (key : Key) (member : String)

def Redis.apply (redis : Redis) : Command → Redis
  | .del key =>
      { strings := Function.update redis.strings key none
        hashes := Function.update redis.hashes key noHash
        sets := Function.update redis.sets key ∅ }
  | .set key value => { redis with strings := Function.update redis.strings key (some value) }
  | .hset key fields =>
      { redis with
        hashes := Function.update redis.hashes key (overlay (redis.hashes key) fields) }
  | .sadd key member =>
      { redis with sets := Function.update redis.sets key (insert member (redis.sets key)) }
  | .srem key member =>
      { redis with sets := Function.update redis.sets key ((redis.sets key).erase member) }

/-- `EXEC`: everything queued, at once. -/
def Redis.exec (redis : Redis) (pipe : List Command) : Redis :=
  pipe.foldl Redis.apply redis

/-- One ready pod of an agent. -/
structure Replica where
  agentName : AgentName
  resourceName : String
  index : Int
  podName : String
  podUid : String
  projectNamespace : String
  redisHost : String
  redisPort : Int
  createdAt : String
  /-- 0 is every agent's `replicaPort` -/
  specPort : Int

def provider : String := "kubernetes"

def replicaPort : Int := 50051

def replicaId (agentName : AgentName) (index : Int) : ReplicaId :=
  agentName ++ "-" ++ toString index

namespace Replica

variable (replica : Replica)

def port : Int :=
  if 0 < replica.specPort then replica.specPort else replicaPort

def host : String :=
  replica.podName ++ "." ++ replica.resourceName ++ "." ++ replica.projectNamespace ++ ".svc"

/-- Where a replica takes calls: its pod's stable DNS name and port. -/
def address : Address :=
  replica.host ++ ":" ++ toString replica.port

def record : List (String × String) :=
  [("agent_name", replica.agentName),
    ("provider", provider),
    ("replica_id", replicaId replica.agentName replica.index),
    ("private_host", replica.host),
    ("public_host", replica.host),
    ("host_port", toString replica.port),
    ("container_port", toString replica.port),
    ("published_address", replica.address),
    ("address", replica.address),
    ("redis_host", replica.redisHost),
    ("redis_port", toString replica.redisPort),
    ("container_name", replica.podName),
    ("created_at", replica.createdAt),
    ("pod_uid", replica.podUid)]

end Replica

/-- The map `SyncReplicas` looks members up in. -/
def wantedOf (agentName : AgentName) (replicas : List Replica) :
    AList fun _ : ReplicaId => Replica :=
  replicas.foldl (fun wanted replica => wanted.insert (replicaId agentName replica.index) replica) ∅

/-- The status keys of tracked addresses whose pod no longer exists are deleted. -/
def forgetGone (agentName : AgentName) (tracked present : List Address) : List Command :=
  tracked.flatMap fun address =>
    if address ∈ present then []
    else [.del (.status address), .srem (.tracked agentName) address]

def dropUnwanted (agentName : AgentName) (wanted : AList fun _ : ReplicaId => Replica)
    (members : List ReplicaId) : List Command :=
  members.flatMap fun id =>
    if id ∈ wanted then [] else [.del (.replica id), .srem (.replicaSet agentName) id]

def writeWanted (agentName : AgentName) (wanted : List (Σ _ : ReplicaId, Replica)) :
    List Command :=
  wanted.flatMap fun entry =>
    [.hset (.replica (replicaId agentName entry.2.index)) entry.2.record,
      .sadd (.replicaSet agentName) entry.1,
      .sadd (.tracked agentName) entry.2.address]

/-- The transaction of a call, given what its reads of the two sets answered. -/
def syncReplicas (agentName : AgentName) (replicas : List Replica) (present : List Address)
    (desired : Int32) (members : List ReplicaId) (tracked : List Address) : List Command :=
  let wanted := wantedOf agentName replicas
  dropUnwanted agentName wanted members ++ writeWanted agentName wanted.entries ++
    forgetGone agentName tracked present ++
    [.set (.desiredReplicas agentName) (toString desired.toInt)]

def removeAgent (agentName : AgentName) (present : List Address) (members : List ReplicaId)
    (tracked : List Address) : List Command :=
  members.map (fun id => .del (.replica id)) ++
    [.del (.replicaSet agentName), .del (.desiredReplicas agentName)] ++
    forgetGone agentName tracked present

/-! ### The pods -/

/-- A pod of the agent's StatefulSet, with what `listReplicas` reads of it. -/
structure AgentPod where
  ordinal : Nat
  uid : String
  /-- in seconds -/
  creationTimestamp : Int
  deletionTimestamp : Option Time := none
  conditions : List PodCondition := []
  bounded : ordinal < 2 ^ 31

def AgentPod.pod (workload : String) (agentPod : AgentPod) : Pod where
  name := workload ++ "-" ++ Nat.repr agentPod.ordinal
  revision := ""
  deletionTimestamp := agentPod.deletionTimestamp
  conditions := agentPod.conditions

/-- A minute after its deletion is due a stopping pod counts as lost. -/
def lostAt (due : Time) : Time :=
  due + 60000000

/-- A pod that is running or still stopping. -/
def podExists (now : Time) (agentPod : AgentPod) : Bool :=
  match agentPod.deletionTimestamp with
  | none => true
  | some due => now < lostAt due

/-- One agent's replicas: its name in records, its StatefulSet, and where its pods run. -/
structure AgentPods where
  name : AgentName
  workload : String
  projectNamespace : String
  port : Int := 0

variable (target : AgentPods)

def AgentPods.replica (redisHost : String) (redisPort : Int) (agentPod : AgentPod) (index : Int) :
    Replica where
  agentName := target.name
  resourceName := target.workload
  index := index
  podName := (agentPod.pod target.workload).name
  podUid := agentPod.uid
  projectNamespace := target.projectNamespace
  redisHost := redisHost
  redisPort := redisPort
  createdAt := toString agentPod.creationTimestamp ++ ".0"
  specPort := target.port

/-- The replicas among the pods, and the addresses of all that still exist. -/
def listReplicas (redisHost : String) (redisPort : Int) (now : Time) (pods : List AgentPod) :
    List Replica × List Address :=
  let listed := pods.filterMap fun agentPod =>
    match podIndex target.workload (agentPod.pod target.workload) with
    | none => none
    | some index =>
        if podExists now agentPod then
          some (target.replica redisHost redisPort agentPod index,
            podServing (agentPod.pod target.workload))
        else none
  ((listed.filter (·.2)).map (·.1), listed.map (·.1.address))

/-- The address the pod of this ordinal is told it has. -/
def AgentPods.address (ordinal : Fin (2 ^ 31)) : Address :=
  (target.replica "" 0 ⟨ordinal, "", 0, none, [], ordinal.isLt⟩ ordinal).address

structure State where
  redis : Redis := {}
  pods : List AgentPod := []
  now : Time := 0
  /-- every address a record has been written for -/
  recorded : List Address := []

/-- The addresses of the pods that still exist. -/
def State.present (state : State) : List Address :=
  (listReplicas target "" 0 state.now state.pods).2

/-- `members` and `tracked` are what `SMEMBERS` answers, in whatever order. -/
inductive Action where
  /-- The cluster and the clock move on. -/
  | observe (pods : List AgentPod) (now : Time)
  /-- A pod reports its status. -/
  | report (ordinal : Fin (2 ^ 31)) (status : String)
  | sync (desired : Int32) (redisHost : String) (redisPort : Int) (members : List ReplicaId)
      (tracked : List Address)
  | remove (members : List ReplicaId) (tracked : List Address)
  /-- A call fails before its transaction. -/
  | fail

def step (state : State) : Action → Option State
  | .observe pods now =>
      if (pods.map AgentPod.ordinal).Nodup ∧ state.now ≤ now then
        some { state with pods := pods, now := now }
      else none
  | .report ordinal status =>
      if ∃ agentPod ∈ state.pods,
          agentPod.ordinal = ordinal ∧ podExists state.now agentPod = true then
        some { state with
          redis := state.redis.apply (.set (.status (target.address ordinal)) status) }
      else none
  | .sync desired redisHost redisPort members tracked =>
      if members.toFinset = state.redis.sets (.replicaSet target.name) ∧
          tracked.toFinset = state.redis.sets (.tracked target.name) then
        let (replicas, present) := listReplicas target redisHost redisPort state.now state.pods
        some { state with
          redis := state.redis.exec
            (syncReplicas target.name replicas present desired members tracked)
          recorded := state.recorded ++ replicas.map Replica.address }
      else none
  | .remove members tracked =>
      if members.toFinset = state.redis.sets (.replicaSet target.name) ∧
          tracked.toFinset = state.redis.sets (.tracked target.name) then
        let present := state.present target
        some { state with
          redis := state.redis.exec (removeAgent target.name present members tracked) }
      else none
  | .fail => some state

def sys : TransitionSystem State Action where
  step := step target

def initial : State := {}

/-! ### What the calls must leave -/

def hashOf (fields : List (String × String)) : Hash :=
  fun field => fields.lookup field

/-- The records and the replica set are exactly those of the ready pods, whose addresses are all
tracked. -/
structure Synced (replicas : List Replica) (redis : Redis) : Prop where
  set : redis.sets (.replicaSet target.name) =
    (replicas.map fun replica => replicaId target.name replica.index).toFinset
  records : ∀ replica ∈ replicas,
    redis.hashes (.replica (replicaId target.name replica.index)) = hashOf replica.record
  others : ∀ id, id ∉ replicas.map (fun replica => replicaId target.name replica.index) →
    redis.hashes (.replica id) = noHash
  tracked : ∀ replica ∈ replicas, replica.address ∈ redis.sets (.tracked target.name)

structure Removed (redis : Redis) : Prop where
  set : redis.sets (.replicaSet target.name) = ∅
  records : ∀ id, redis.hashes (.replica id) = noHash
  desired : redis.strings (.desiredReplicas target.name) = none

/-- No tracked address and no status key of the agent is left. -/
structure Forgotten (redis : Redis) : Prop where
  tracked : redis.sets (.tracked target.name) = ∅
  status : ∀ ordinal, redis.strings (.status (target.address ordinal)) = none

/-- No address that was ever recorded keeps a status key once its pod is gone. -/
def State.GoneDeleted (state : State) : Prop :=
  ∀ address ∈ state.recorded, address ∉ state.present target →
    state.redis.strings (.status address) = none

/-- A pod that is there keeps its status key. -/
def PresentKept (before after : State) : Prop :=
  ∀ address ∈ after.present target, (before.redis.strings (.status address)).isSome →
    (after.redis.strings (.status address)).isSome

/-- What a step must leave. -/
def MatchesPods (before : State) (action : Action) (after : State) : Prop :=
  PresentKept target before after ∧
    match action with
    | .sync _ redisHost redisPort _ _ =>
        Synced target (listReplicas target redisHost redisPort before.now before.pods).1
            after.redis ∧
          after.GoneDeleted target
    | .remove _ _ =>
        Removed target after.redis ∧ after.GoneDeleted target ∧
          (after.present target = [] → Forgotten target after.redis)
    | _ => True

/-- Each address ever recorded that has a status key but no pod is tracked. -/
def State.GoneTracked (state : State) : Prop :=
  ∀ address ∈ state.recorded, address ∉ state.present target →
    (state.redis.strings (.status address)).isSome →
    address ∈ state.redis.sets (.tracked target.name)

/-- Each address of the agent that has a status key is tracked. -/
def State.StatusTracked (state : State) : Prop :=
  ∀ ordinal, (state.redis.strings (.status (target.address ordinal))).isSome →
    target.address ordinal ∈ state.redis.sets (.tracked target.name)

/-- What a call must find. -/
def Finds (state : State) : Action → Prop
  | .sync .. => state.GoneTracked target
  | .remove .. =>
      state.GoneTracked target ∧ (state.present target = [] → state.StatusTracked target)
  | _ => True

/-! ### Addresses and pods -/

theorem replicaId_inj {agentName : AgentName} {first second : Int}
    (heq : replicaId agentName first = replicaId agentName second) : first = second := by
  apply Int.repr_injective
  exact (String.append_right_inj _).mp heq

theorem podIndex_agentPod (workload : String) (agentPod : AgentPod) :
    podIndex workload (agentPod.pod workload) = some (agentPod.ordinal : Int) :=
  podIndex_of_name rfl agentPod.bounded

/-- The pods that still exist. -/
def existing (now : Time) (pods : List AgentPod) : List AgentPod :=
  pods.filter (podExists now)

variable {target : AgentPods}

theorem listReplicas_eq (redisHost : String) (redisPort : Int) (now : Time)
    (pods : List AgentPod) :
    listReplicas target redisHost redisPort now pods =
      (((existing now pods).filter fun agentPod => podServing (agentPod.pod target.workload)).map
          fun agentPod => target.replica redisHost redisPort agentPod agentPod.ordinal,
        (existing now pods).map fun agentPod =>
          target.address ⟨agentPod.ordinal, agentPod.bounded⟩) := by
  have hlisted : (pods.filterMap fun agentPod =>
      match podIndex target.workload (agentPod.pod target.workload) with
      | none => none
      | some index =>
          if podExists now agentPod then
            some (target.replica redisHost redisPort agentPod index,
              podServing (agentPod.pod target.workload))
          else none) =
      (existing now pods).map fun agentPod =>
        (target.replica redisHost redisPort agentPod agentPod.ordinal,
          podServing (agentPod.pod target.workload)) := by
    rw [existing, ← List.filterMap_eq_filter, List.map_filterMap]
    apply List.filterMap_congr
    intro agentPod _
    rw [podIndex_agentPod]
    by_cases hexists : podExists now agentPod = true <;> simp [hexists, Option.guard]
  rw [listReplicas, hlisted, List.filter_map, List.map_map, List.map_map]
  rfl

theorem present_listReplicas (redisHost : String) (redisPort : Int) (state : State) :
    (listReplicas target redisHost redisPort state.now state.pods).2 = state.present target := by
  rw [State.present, listReplicas_eq, listReplicas_eq]

theorem address_replica (redisHost : String) (redisPort : Int) (agentPod : AgentPod) :
    (target.replica redisHost redisPort agentPod agentPod.ordinal).address =
      target.address ⟨agentPod.ordinal, agentPod.bounded⟩ := rfl

/-- The ready pods are among those present. -/
theorem address_mem_present {redisHost : String} {redisPort : Int} {state : State}
    {replica : Replica}
    (hmem : replica ∈ (listReplicas target redisHost redisPort state.now state.pods).1) :
    replica.address ∈ state.present target := by
  rw [listReplicas_eq] at hmem
  obtain ⟨agentPod, hready, rfl⟩ := List.mem_map.mp hmem
  rw [State.present, listReplicas_eq]
  exact List.mem_map.mpr ⟨agentPod, (List.mem_filter.mp hready).1, rfl⟩

theorem index_inj_of_nodup {redisHost : String} {redisPort : Int} {state : State}
    (hnodup : (state.pods.map AgentPod.ordinal).Nodup) {first second : Replica}
    (hfirst : first ∈ (listReplicas target redisHost redisPort state.now state.pods).1)
    (hsecond : second ∈ (listReplicas target redisHost redisPort state.now state.pods).1)
    (heq : first.index = second.index) : first = second := by
  rw [listReplicas_eq] at hfirst hsecond
  obtain ⟨firstPod, hready, rfl⟩ := List.mem_map.mp hfirst
  obtain ⟨secondPod, hready', rfl⟩ := List.mem_map.mp hsecond
  have hfirst := (List.mem_filter.mp (List.mem_filter.mp hready).1).1
  have hsecond := (List.mem_filter.mp (List.mem_filter.mp hready').1).1
  have hordinal : firstPod.ordinal = secondPod.ordinal := Int.ofNat_inj.mp heq
  rw [List.inj_on_of_nodup_map hnodup hfirst hsecond hordinal]

theorem mem_present {state : State} {agentPod : AgentPod} (hmem : agentPod ∈ state.pods)
    (hexists : podExists state.now agentPod = true) :
    target.address ⟨agentPod.ordinal, agentPod.bounded⟩ ∈ state.present target := by
  rw [State.present, listReplicas_eq]
  exact List.mem_map.mpr ⟨agentPod, List.mem_filter.mpr ⟨hmem, hexists⟩, rfl⟩

/-! ### What a transaction does -/

theorem exec_append (redis : Redis) (first second : List Command) :
    redis.exec (first ++ second) = (redis.exec first).exec second :=
  List.foldl_append

theorem exec_cons (redis : Redis) (command : Command) (pipe : List Command) :
    redis.exec (command :: pipe) = (redis.apply command).exec pipe := rfl

def Command.key : Command → Key
  | .del key | .set key _ | .hset key _ | .sadd key _ | .srem key _ => key

/-- Two instances of Redis hold the same under a key. -/
structure SameAt (key : Key) (first second : Redis) : Prop where
  strings : first.strings key = second.strings key
  hashes : first.hashes key = second.hashes key
  sets : first.sets key = second.sets key

theorem SameAt.trans {key : Key} {first second third : Redis} (hfirst : SameAt key first second)
    (hsecond : SameAt key second third) : SameAt key first third :=
  ⟨hfirst.strings.trans hsecond.strings, hfirst.hashes.trans hsecond.hashes,
    hfirst.sets.trans hsecond.sets⟩

theorem sameAt_apply {key : Key} {command : Command} (hne : command.key ≠ key) (redis : Redis) :
    SameAt key (redis.apply command) redis := by
  have hne : key ≠ command.key := hne.symm
  cases command <;> constructor <;> simp_all [Redis.apply, Command.key]

/-- A transaction leaves the keys it does not name. -/
theorem sameAt_exec {key : Key} {pipe : List Command} (hne : ∀ command ∈ pipe, command.key ≠ key)
    (redis : Redis) : SameAt key (redis.exec pipe) redis := by
  induction pipe generalizing redis with
  | nil => exact ⟨rfl, rfl, rfl⟩
  | cons command pipe ih =>
      obtain ⟨hcommand, hpipe⟩ := List.forall_mem_cons.mp hne
      exact (ih hpipe (redis.apply command)).trans (sameAt_apply hcommand redis)

theorem sameAt_set {key other : Key} (hne : other ≠ key) (value : String) (redis : Redis) :
    SameAt key (redis.exec [.set other value]) redis :=
  @sameAt_apply key (.set other value) hne redis

section Loops

variable {agentName : AgentName} {wanted : AList fun _ : ReplicaId => Replica}

theorem mem_replicaSet_dropUnwanted (members : List ReplicaId) (redis : Redis) (id : ReplicaId) :
    id ∈ (redis.exec (dropUnwanted agentName wanted members)).sets (.replicaSet agentName) ↔
      id ∈ redis.sets (.replicaSet agentName) ∧ (id ∈ members → id ∈ wanted) := by
  induction members generalizing redis with
  | nil => simp [dropUnwanted, Redis.exec]
  | cons member members ih =>
      rw [dropUnwanted, List.flatMap_cons, exec_append, ← dropUnwanted, ih, List.mem_cons]
      by_cases hwanted : member ∈ wanted
      · rw [if_pos hwanted]
        simp only [Redis.exec, List.foldl_nil]
        grind
      · rw [if_neg hwanted]
        simp only [Redis.exec, List.foldl_cons, List.foldl_nil, Redis.apply, ne_eq, reduceCtorEq,
          not_false_eq_true, Function.update_of_ne, Function.update_self, Finset.mem_erase]
        grind

theorem hashes_dropUnwanted (members : List ReplicaId) (redis : Redis) (id : ReplicaId) :
    (redis.exec (dropUnwanted agentName wanted members)).hashes (.replica id) =
      if id ∈ members ∧ id ∉ wanted then noHash else redis.hashes (.replica id) := by
  induction members generalizing redis with
  | nil => simp [dropUnwanted, Redis.exec]
  | cons member members ih =>
      rw [dropUnwanted, List.flatMap_cons, exec_append, ← dropUnwanted, ih]
      by_cases hwanted : member ∈ wanted
      · rw [if_pos hwanted]
        simp only [Redis.exec, List.foldl_nil, List.mem_cons]
        grind
      · rw [if_neg hwanted]
        by_cases hid : id = member
        · subst hid
          simp [Redis.exec, Redis.apply, hwanted]
        · simp [Redis.exec, Redis.apply, hid]

theorem mem_replicaSet_writeWanted (entries : List (Σ _ : ReplicaId, Replica)) (redis : Redis)
    (id : ReplicaId) :
    id ∈ (redis.exec (writeWanted agentName entries)).sets (.replicaSet agentName) ↔
      id ∈ redis.sets (.replicaSet agentName) ∨ id ∈ entries.keys := by
  induction entries generalizing redis with
  | nil => simp [writeWanted, Redis.exec]
  | cons entry entries ih =>
      rw [writeWanted, List.flatMap_cons, exec_append, ← writeWanted, ih]
      simp only [Redis.exec, List.foldl_cons, List.foldl_nil, Redis.apply, ne_eq, reduceCtorEq,
        not_false_eq_true, Function.update_of_ne, Function.update_self, Finset.mem_insert,
        List.keys_cons, List.mem_cons]
      grind

theorem mem_tracked_writeWanted (entries : List (Σ _ : ReplicaId, Replica)) (redis : Redis)
    (address : Address) :
    address ∈ (redis.exec (writeWanted agentName entries)).sets (.tracked agentName) ↔
      address ∈ redis.sets (.tracked agentName) ∨ ∃ entry ∈ entries, entry.2.address = address := by
  induction entries generalizing redis with
  | nil => simp [writeWanted, Redis.exec]
  | cons entry entries ih =>
      rw [writeWanted, List.flatMap_cons, exec_append, ← writeWanted, ih]
      simp only [Redis.exec, List.foldl_cons, List.foldl_nil, Redis.apply, ne_eq, reduceCtorEq,
        not_false_eq_true, Function.update_of_ne, Function.update_self, Finset.mem_insert,
        List.exists_mem_cons_iff]
      grind

/-- Each entry's key is its replica's id. -/
def Keyed (agentName : AgentName) (entries : List (Σ _ : ReplicaId, Replica)) : Prop :=
  ∀ entry ∈ entries, replicaId agentName entry.2.index = entry.1

theorem hashes_writeWanted {entries : List (Σ _ : ReplicaId, Replica)}
    (hkeyed : Keyed agentName entries) (hnodup : entries.NodupKeys) (redis : Redis)
    {entry : Σ _ : ReplicaId, Replica} (hmem : entry ∈ entries) :
    (redis.exec (writeWanted agentName entries)).hashes (.replica entry.1) =
      overlay (redis.hashes (.replica entry.1)) entry.2.record := by
  induction entries generalizing redis with
  | nil => cases hmem
  | cons head entries ih =>
      obtain ⟨hhead, hentries⟩ := List.forall_mem_cons.mp hkeyed
      obtain ⟨hnotMem, hnodup⟩ := List.nodupKeys_cons.mp hnodup
      rw [writeWanted, List.flatMap_cons, exec_append, ← writeWanted]
      rcases List.mem_cons.mp hmem with rfl | hmem
      · have hsame : ∀ command ∈ writeWanted agentName entries, command.key ≠ .replica entry.1 := by
          intro command hcommand
          obtain ⟨other, hother, hcommand⟩ := List.mem_flatMap.mp hcommand
          have hne : other.1 ≠ entry.1 := by
            intro heq
            exact hnotMem (heq ▸ List.mem_keys_of_mem hother)
          have hkey := hentries other hother
          simp only [List.mem_cons, List.not_mem_nil, or_false] at hcommand
          rcases hcommand with rfl | rfl | rfl <;> simp [Command.key, hkey, hne]
        rw [(sameAt_exec hsame _).hashes]
        simp [Redis.exec, Redis.apply, hhead]
      · have hne : entry.1 ≠ head.1 := by
          intro heq
          exact hnotMem (heq ▸ List.mem_keys_of_mem hmem)
        rw [ih hentries hnodup _ hmem]
        simp [Redis.exec, Redis.apply, hhead, hne]

theorem mem_tracked_forgetGone (tracked present : List Address) (redis : Redis)
    (address : Address) :
    address ∈ (redis.exec (forgetGone agentName tracked present)).sets (.tracked agentName) ↔
      address ∈ redis.sets (.tracked agentName) ∧ (address ∈ tracked → address ∈ present) := by
  induction tracked generalizing redis with
  | nil => simp [forgetGone, Redis.exec]
  | cons head tracked ih =>
      rw [forgetGone, List.flatMap_cons, exec_append, ← forgetGone, ih, List.mem_cons]
      by_cases hpresent : head ∈ present
      · rw [if_pos hpresent]
        simp only [Redis.exec, List.foldl_nil]
        grind
      · rw [if_neg hpresent]
        simp only [Redis.exec, List.foldl_cons, List.foldl_nil, Redis.apply, ne_eq, reduceCtorEq,
          not_false_eq_true, Function.update_of_ne, Function.update_self, Finset.mem_erase]
        grind

theorem status_forgetGone (tracked present : List Address) (redis : Redis) (address : Address) :
    (redis.exec (forgetGone agentName tracked present)).strings (.status address) =
      if address ∈ tracked ∧ address ∉ present then none
      else redis.strings (.status address) := by
  induction tracked generalizing redis with
  | nil => simp [forgetGone, Redis.exec]
  | cons head tracked ih =>
      rw [forgetGone, List.flatMap_cons, exec_append, ← forgetGone, ih]
      by_cases hpresent : head ∈ present
      · rw [if_pos hpresent]
        simp only [Redis.exec, List.foldl_nil, List.mem_cons]
        grind
      · rw [if_neg hpresent]
        by_cases haddress : address = head
        · subst haddress
          simp [Redis.exec, Redis.apply, hpresent]
        · simp [Redis.exec, Redis.apply, haddress]

end Loops

section Keys

variable {agentName : AgentName} {wanted : AList fun _ : ReplicaId => Replica} {command : Command}

theorem key_dropUnwanted {members : List ReplicaId}
    (hmem : command ∈ dropUnwanted agentName wanted members) :
    command.key = .replicaSet agentName ∨ ∃ id, command.key = .replica id := by
  obtain ⟨id, _, hmem⟩ := List.mem_flatMap.mp hmem
  by_cases hwanted : id ∈ wanted
  · rw [if_pos hwanted] at hmem
    cases hmem
  · rw [if_neg hwanted, List.mem_cons, List.mem_singleton] at hmem
    rcases hmem with rfl | rfl
    · exact Or.inr ⟨id, rfl⟩
    · exact Or.inl rfl

theorem key_writeWanted {entries : List (Σ _ : ReplicaId, Replica)}
    (hmem : command ∈ writeWanted agentName entries) :
    command.key = .replicaSet agentName ∨ command.key = .tracked agentName ∨
      ∃ id, command.key = .replica id := by
  obtain ⟨entry, _, hmem⟩ := List.mem_flatMap.mp hmem
  rw [List.mem_cons, List.mem_cons, List.mem_singleton] at hmem
  rcases hmem with rfl | rfl | rfl
  · exact Or.inr (Or.inr ⟨_, rfl⟩)
  · exact Or.inl rfl
  · exact Or.inr (Or.inl rfl)

theorem key_forgetGone {tracked present : List Address}
    (hmem : command ∈ forgetGone agentName tracked present) :
    command.key = .tracked agentName ∨ ∃ address, command.key = .status address := by
  obtain ⟨address, _, hmem⟩ := List.mem_flatMap.mp hmem
  by_cases hpresent : address ∈ present
  · rw [if_pos hpresent] at hmem
    cases hmem
  · rw [if_neg hpresent, List.mem_cons, List.mem_singleton] at hmem
    rcases hmem with rfl | rfl
    · exact Or.inr ⟨address, rfl⟩
    · exact Or.inl rfl

end Keys

section Wanted

variable {agentName : AgentName}

theorem mem_foldl_wanted (replicas : List Replica) (wanted : AList fun _ : ReplicaId => Replica)
    (id : ReplicaId) :
    id ∈ replicas.foldl
        (fun wanted replica => wanted.insert (replicaId agentName replica.index) replica) wanted ↔
      id ∈ wanted ∨ id ∈ replicas.map fun replica => replicaId agentName replica.index := by
  induction replicas generalizing wanted with
  | nil => simp
  | cons replica replicas ih =>
      rw [List.foldl_cons, ih, AList.mem_insert, List.map_cons, List.mem_cons]
      grind

theorem mem_wantedOf {replicas : List Replica} {id : ReplicaId} :
    id ∈ wantedOf agentName replicas ↔
      id ∈ replicas.map fun replica => replicaId agentName replica.index := by
  rw [wantedOf, mem_foldl_wanted]
  simp [AList.notMem_empty]

theorem entries_foldl_wanted (replicas : List Replica)
    (wanted : AList fun _ : ReplicaId => Replica) {entry : Σ _ : ReplicaId, Replica}
    (hmem : entry ∈ (replicas.foldl
      (fun wanted replica => wanted.insert (replicaId agentName replica.index) replica)
      wanted).entries) :
    entry ∈ wanted.entries ∨
      entry.2 ∈ replicas ∧ replicaId agentName entry.2.index = entry.1 := by
  induction replicas generalizing wanted with
  | nil => exact Or.inl hmem
  | cons replica replicas ih =>
      rw [List.foldl_cons] at hmem
      rcases ih _ hmem with hmem | ⟨hmem, hkey⟩
      · rw [AList.entries_insert, List.mem_cons] at hmem
        rcases hmem with rfl | hmem
        · exact Or.inr ⟨List.mem_cons_self, rfl⟩
        · exact Or.inl ((List.kerase_sublist _ _).subset hmem)
      · exact Or.inr ⟨List.mem_cons_of_mem _ hmem, hkey⟩

theorem mem_of_wantedOf {replicas : List Replica} {entry : Σ _ : ReplicaId, Replica}
    (hmem : entry ∈ (wantedOf agentName replicas).entries) :
    entry.2 ∈ replicas ∧ replicaId agentName entry.2.index = entry.1 := by
  rcases entries_foldl_wanted replicas ∅ hmem with hmem | hmem
  · cases hmem
  · exact hmem

theorem keyed_wantedOf (replicas : List Replica) :
    Keyed agentName (wantedOf agentName replicas).entries := by
  intro entry hmem
  exact (mem_of_wantedOf hmem).2

/-- Of replicas with distinct indexes, each has its entry. -/
theorem entry_mem_wantedOf {replicas : List Replica}
    (hinj : ∀ first ∈ replicas, ∀ second ∈ replicas, first.index = second.index → first = second)
    {replica : Replica} (hmem : replica ∈ replicas) :
    ⟨replicaId agentName replica.index, replica⟩ ∈ (wantedOf agentName replicas).entries := by
  have hid : replicaId agentName replica.index ∈ wantedOf agentName replicas :=
    mem_wantedOf.mpr (List.mem_map_of_mem hmem)
  obtain ⟨entry, hentry, hkey⟩ := List.mem_map.mp hid
  obtain ⟨hreplica, hid⟩ := mem_of_wantedOf hentry
  have heq : entry.2 = replica := hinj _ hreplica _ hmem (replicaId_inj (hid.trans hkey))
  have hentryEq : entry = ⟨replicaId agentName replica.index, replica⟩ :=
    Sigma.ext hkey (heq_of_eq heq)
  rwa [hentryEq] at hentry

end Wanted

/-! ### Records -/

def recordFields : List String :=
  ["agent_name", "provider", "replica_id", "private_host", "public_host", "host_port",
    "container_port", "published_address", "address", "redis_host", "redis_port",
    "container_name", "created_at", "pod_uid"]

theorem map_fst_record (replica : Replica) : replica.record.map Prod.fst = recordFields := rfl

/-- A hash with no fields but a record's. -/
def OnlyRecord (hash : Hash) : Prop :=
  ∀ field, (hash field).isSome → field ∈ recordFields

theorem overlay_record {hash : Hash} (hhash : OnlyRecord hash) (replica : Replica) :
    overlay hash replica.record = hashOf replica.record := by
  funext field
  rw [overlay, hashOf]
  cases hlookup : replica.record.lookup field with
  | some value => rfl
  | none =>
      cases hfield : hash field with
      | none => rfl
      | some value =>
          have hmem := hhash field (by rw [hfield]; rfl)
          rw [← map_fst_record replica, List.mem_map] at hmem
          obtain ⟨⟨name, value⟩, hmem, rfl⟩ := hmem
          rw [List.lookup_eq_none_iff] at hlookup
          exact absurd (hlookup _ hmem) (by simp)

theorem onlyRecord_hashOf (replica : Replica) : OnlyRecord (hashOf replica.record) := by
  intro field hfield
  obtain ⟨value, hvalue⟩ := Option.isSome_iff_exists.mp hfield
  rw [← map_fst_record replica]
  obtain ⟨before, after, hrecord, _⟩ := List.lookup_eq_some_iff.mp hvalue
  rw [hrecord]
  simp

/-- What a run keeps: only members have records, and records have no other fields. -/
structure Inv (target : AgentPods) (state : State) : Prop where
  nodup : (state.pods.map AgentPod.ordinal).Nodup
  listed : ∀ id, state.redis.hashes (.replica id) ≠ noHash →
    id ∈ state.redis.sets (.replicaSet target.name)
  onlyRecord : ∀ id, OnlyRecord (state.redis.hashes (.replica id))

/-! ### The transaction of `SyncReplicas` -/

section Sync

variable {redis : Redis} {replicas : List Replica} {present : List Address} {desired : Int32}
  {members : List ReplicaId} {tracked : List Address}

theorem exec_syncReplicas :
    redis.exec (syncReplicas target.name replicas present desired members tracked) =
      (((redis.exec (dropUnwanted target.name (wantedOf target.name replicas) members)).exec
          (writeWanted target.name (wantedOf target.name replicas).entries)).exec
          (forgetGone target.name tracked present)).exec
        [.set (.desiredReplicas target.name) (toString desired.toInt)] := by
  rw [syncReplicas, exec_append, exec_append, exec_append]

theorem mem_replicaSet_sync
    (hmembers : members.toFinset = redis.sets (.replicaSet target.name)) (id : ReplicaId) :
    id ∈ (redis.exec (syncReplicas target.name replicas present desired members tracked)).sets
        (.replicaSet target.name) ↔
      id ∈ replicas.map fun replica => replicaId target.name replica.index := by
  have hforget : ∀ command ∈ forgetGone target.name tracked present,
      command.key ≠ .replicaSet target.name := by
    intro command hcommand
    rcases key_forgetGone hcommand with hkey | ⟨address, hkey⟩ <;> simp [hkey]
  rw [exec_syncReplicas, (sameAt_set (by simp) _ _).sets, (sameAt_exec hforget _).sets,
    mem_replicaSet_writeWanted, mem_replicaSet_dropUnwanted, ← hmembers, List.mem_toFinset,
    ← AList.keys, ← AList.mem_keys, mem_wantedOf]
  constructor
  · rintro (⟨hmem, hwanted⟩ | hwanted)
    · exact hwanted hmem
    · exact hwanted
  · exact Or.inr

theorem hashes_sync (id : ReplicaId) :
    (redis.exec (syncReplicas target.name replicas present desired members tracked)).hashes
        (.replica id) =
      ((redis.exec (dropUnwanted target.name (wantedOf target.name replicas) members)).exec
        (writeWanted target.name (wantedOf target.name replicas).entries)).hashes
        (.replica id) := by
  have hforget : ∀ command ∈ forgetGone target.name tracked present,
      command.key ≠ .replica id := by
    intro command hcommand
    rcases key_forgetGone hcommand with hkey | ⟨address, hkey⟩ <;> simp [hkey]
  rw [exec_syncReplicas, (sameAt_set (by simp) _ _).hashes, (sameAt_exec hforget _).hashes]

/-- The record of a ready pod is its own, whatever it was before. -/
theorem record_sync (honly : ∀ id, OnlyRecord (redis.hashes (.replica id)))
    (hinj : ∀ first ∈ replicas, ∀ second ∈ replicas, first.index = second.index → first = second)
    {replica : Replica} (hmem : replica ∈ replicas) :
    (redis.exec (syncReplicas target.name replicas present desired members tracked)).hashes
        (.replica (replicaId target.name replica.index)) = hashOf replica.record := by
  have hentry := @entry_mem_wantedOf target.name replicas hinj replica hmem
  rw [hashes_sync, hashes_writeWanted (keyed_wantedOf replicas) (wantedOf _ replicas).nodupKeys _
    hentry, hashes_dropUnwanted]
  have hwanted : replicaId target.name replica.index ∈ wantedOf target.name replicas :=
    mem_wantedOf.mpr (List.mem_map_of_mem hmem)
  rw [if_neg (fun hdrop => hdrop.2 hwanted)]
  exact overlay_record (honly _) replica

/-- No other record is left. -/
theorem noRecord_sync (hlisted : ∀ id, redis.hashes (.replica id) ≠ noHash → id ∈ members)
    {id : ReplicaId}
    (hid : id ∉ replicas.map fun replica => replicaId target.name replica.index) :
    (redis.exec (syncReplicas target.name replicas present desired members tracked)).hashes
        (.replica id) = noHash := by
  have hwanted : id ∉ wantedOf target.name replicas := fun hwanted => hid (mem_wantedOf.mp hwanted)
  have hwrite : ∀ command ∈ writeWanted target.name (wantedOf target.name replicas).entries,
      command.key ≠ .replica id := by
    intro command hcommand
    obtain ⟨entry, hentry, hcommand⟩ := List.mem_flatMap.mp hcommand
    have hkey := (mem_of_wantedOf hentry).2
    have hne : entry.1 ≠ id := by
      intro heq
      exact hwanted (AList.mem_keys.mpr (heq ▸ List.mem_keys_of_mem hentry))
    rw [List.mem_cons, List.mem_cons, List.mem_singleton] at hcommand
    rcases hcommand with rfl | rfl | rfl <;> simp [Command.key, hkey, hne]
  rw [hashes_sync, (sameAt_exec hwrite _).hashes, hashes_dropUnwanted]
  by_cases hmem : id ∈ members
  · rw [if_pos ⟨hmem, hwanted⟩]
  · rw [if_neg (fun hdrop => hmem hdrop.1)]
    by_contra hhash
    exact hmem (hlisted id hhash)

theorem mem_tracked_sync (htracked : tracked.toFinset = redis.sets (.tracked target.name))
    (hpresent : ∀ replica ∈ replicas, replica.address ∈ present)
    (hinj : ∀ first ∈ replicas, ∀ second ∈ replicas, first.index = second.index → first = second)
    (address : Address) :
    address ∈ (redis.exec (syncReplicas target.name replicas present desired members
        tracked)).sets (.tracked target.name) ↔
      (address ∈ redis.sets (.tracked target.name) ∧ address ∈ present) ∨
        ∃ replica ∈ replicas, replica.address = address := by
  have hdrop : ∀ command ∈ dropUnwanted target.name (wantedOf target.name replicas) members,
      command.key ≠ .tracked target.name := by
    intro command hcommand
    rcases key_dropUnwanted hcommand with hkey | ⟨id, hkey⟩ <;> simp [hkey]
  have hentries : (∃ entry ∈ (wantedOf target.name replicas).entries,
      entry.2.address = address) ↔ ∃ replica ∈ replicas, replica.address = address := by
    constructor
    · rintro ⟨entry, hentry, haddress⟩
      exact ⟨entry.2, (mem_of_wantedOf hentry).1, haddress⟩
    · rintro ⟨replica, hreplica, haddress⟩
      exact ⟨_, entry_mem_wantedOf hinj hreplica, haddress⟩
  rw [exec_syncReplicas, (sameAt_set (by simp) _ _).sets, mem_tracked_forgetGone,
    mem_tracked_writeWanted, (sameAt_exec hdrop _).sets, hentries, ← htracked, List.mem_toFinset]
  constructor
  · rintro ⟨hmem | hready, hkept⟩
    · exact Or.inl ⟨hmem, hkept hmem⟩
    · exact Or.inr hready
  · rintro (⟨hmem, hexists⟩ | ⟨replica, hready, rfl⟩)
    · exact ⟨Or.inl hmem, fun _ => hexists⟩
    · exact ⟨Or.inr ⟨replica, hready, rfl⟩, fun _ => hpresent replica hready⟩

theorem status_sync (htracked : tracked.toFinset = redis.sets (.tracked target.name))
    (address : Address) :
    (redis.exec (syncReplicas target.name replicas present desired members tracked)).strings
        (.status address) =
      if address ∈ redis.sets (.tracked target.name) ∧ address ∉ present then none
      else redis.strings (.status address) := by
  have hdrop : ∀ command ∈ dropUnwanted target.name (wantedOf target.name replicas) members,
      command.key ≠ .status address := by
    intro command hcommand
    rcases key_dropUnwanted hcommand with hkey | ⟨id, hkey⟩ <;> simp [hkey]
  have hwrite : ∀ command ∈ writeWanted target.name (wantedOf target.name replicas).entries,
      command.key ≠ .status address := by
    intro command hcommand
    rcases key_writeWanted hcommand with hkey | hkey | ⟨id, hkey⟩ <;> simp [hkey]
  rw [exec_syncReplicas, (sameAt_set (by simp) _ _).strings, status_forgetGone,
    (sameAt_exec hwrite _).strings, (sameAt_exec hdrop _).strings, ← htracked]
  simp only [List.mem_toFinset]

end Sync

/-! ### The transaction of `RemoveAgent` -/

section Remove

variable {redis : Redis} {present : List Address} {members : List ReplicaId}
  {tracked : List Address}

def dropAll (agentName : AgentName) (members : List ReplicaId) : List Command :=
  members.map (fun id => .del (.replica id)) ++
    [.del (.replicaSet agentName), .del (.desiredReplicas agentName)]

theorem exec_removeAgent :
    redis.exec (removeAgent target.name present members tracked) =
      (redis.exec (dropAll target.name members)).exec (forgetGone target.name tracked present) := by
  rw [removeAgent, exec_append, dropAll]

theorem key_dropAll {agentName : AgentName} {command : Command}
    (hmem : command ∈ dropAll agentName members) :
    command.key = .replicaSet agentName ∨ command.key = .desiredReplicas agentName ∨
      ∃ id, command.key = .replica id := by
  rw [dropAll, List.mem_append, List.mem_cons, List.mem_singleton] at hmem
  rcases hmem with hmem | rfl | rfl
  · obtain ⟨id, _, rfl⟩ := List.mem_map.mp hmem
    exact Or.inr (Or.inr ⟨id, rfl⟩)
  · exact Or.inl rfl
  · exact Or.inr (Or.inl rfl)

theorem hashes_dels (members : List ReplicaId) (redis : Redis) (id : ReplicaId) :
    (redis.exec (members.map fun id => .del (.replica id))).hashes (.replica id) =
      if id ∈ members then noHash else redis.hashes (.replica id) := by
  induction members generalizing redis with
  | nil => simp [Redis.exec]
  | cons member members ih =>
      rw [List.map_cons, exec_cons, ih]
      by_cases hid : id = member
      · subst hid
        simp [Redis.apply]
      · simp [Redis.apply, hid]

theorem removed_exec (hlisted : ∀ id, redis.hashes (.replica id) ≠ noHash → id ∈ members) :
    Removed target (redis.exec (removeAgent target.name present members tracked)) := by
  have hforget : ∀ key : Key, key ≠ .tracked target.name → (∀ address, key ≠ .status address) →
      ∀ command ∈ forgetGone target.name tracked present, command.key ≠ key := by
    intro key htracked hstatus command hcommand heq
    rcases key_forgetGone hcommand with hkey | ⟨address, hkey⟩
    · exact htracked (heq.symm.trans hkey)
    · exact hstatus address (heq.symm.trans hkey)
  constructor
  · rw [exec_removeAgent, (sameAt_exec (hforget _ (by simp) (by simp)) _).sets, dropAll,
      exec_append]
    simp [Redis.exec, Redis.apply]
  · intro id
    rw [exec_removeAgent, (sameAt_exec (hforget _ (by simp) (by simp)) _).hashes, dropAll,
      exec_append]
    have hpair : ∀ command ∈ [Command.del (.replicaSet target.name),
        Command.del (.desiredReplicas target.name)], command.key ≠ .replica id := by
      simp [Command.key]
    rw [(sameAt_exec hpair _).hashes, hashes_dels]
    by_cases hmem : id ∈ members
    · rw [if_pos hmem]
    · rw [if_neg hmem]
      by_contra hhash
      exact hmem (hlisted id hhash)
  · rw [exec_removeAgent, (sameAt_exec (hforget _ (by simp) (by simp)) _).strings, dropAll,
      exec_append]
    simp [Redis.exec, Redis.apply]

theorem mem_tracked_remove (htracked : tracked.toFinset = redis.sets (.tracked target.name))
    (address : Address) :
    address ∈ (redis.exec (removeAgent target.name present members tracked)).sets
        (.tracked target.name) ↔
      address ∈ redis.sets (.tracked target.name) ∧ address ∈ present := by
  have hdrop : ∀ command ∈ dropAll target.name members, command.key ≠ .tracked target.name := by
    intro command hcommand
    rcases key_dropAll hcommand with hkey | hkey | ⟨id, hkey⟩ <;> simp [hkey]
  rw [exec_removeAgent, mem_tracked_forgetGone, (sameAt_exec hdrop _).sets, ← htracked,
    List.mem_toFinset]
  constructor
  · intro ⟨hmem, hkept⟩
    exact ⟨hmem, hkept hmem⟩
  · intro ⟨hmem, hexists⟩
    exact ⟨hmem, fun _ => hexists⟩

theorem status_remove (htracked : tracked.toFinset = redis.sets (.tracked target.name))
    (address : Address) :
    (redis.exec (removeAgent target.name present members tracked)).strings (.status address) =
      if address ∈ redis.sets (.tracked target.name) ∧ address ∉ present then none
      else redis.strings (.status address) := by
  have hdrop : ∀ command ∈ dropAll target.name members, command.key ≠ .status address := by
    intro command hcommand
    rcases key_dropAll hcommand with hkey | hkey | ⟨id, hkey⟩ <;> simp [hkey]
  rw [exec_removeAgent, status_forgetGone, (sameAt_exec hdrop _).strings, ← htracked]
  simp only [List.mem_toFinset]

end Remove

/-! ### Runs -/

theorem inv_initial (target : AgentPods) : Inv target initial where
  nodup := List.nodup_nil
  listed := fun id hhash => absurd rfl hhash
  onlyRecord := fun id field hfield => by cases hfield

theorem onlyRecord_noHash : OnlyRecord noHash := by
  intro field hfield
  cases hfield

/-- What a sync leaves of the records and the tracked addresses. -/
theorem synced_exec {state : State} (hinv : Inv target state) {redisHost : String}
    {redisPort : Int} {desired : Int32} {members : List ReplicaId} {tracked : List Address}
    (hmembers : members.toFinset = state.redis.sets (.replicaSet target.name))
    (htracked : tracked.toFinset = state.redis.sets (.tracked target.name)) :
    Synced target (listReplicas target redisHost redisPort state.now state.pods).1
      (state.redis.exec (syncReplicas target.name
        (listReplicas target redisHost redisPort state.now state.pods).1 (state.present target)
        desired members tracked)) where
  set := by
    ext id
    rw [mem_replicaSet_sync hmembers, List.mem_toFinset]
  records := by
    intro replica hmem
    apply record_sync hinv.onlyRecord _ hmem
    intro first hfirst second hsecond heq
    exact index_inj_of_nodup hinv.nodup hfirst hsecond heq
  others := by
    intro id hid
    apply noRecord_sync _ hid
    intro id hhash
    rw [← List.mem_toFinset, hmembers]
    exact hinv.listed id hhash
  tracked := by
    intro replica hmem
    rw [mem_tracked_sync htracked (fun replica hmem => address_mem_present hmem)]
    · exact Or.inr ⟨replica, hmem, rfl⟩
    · intro first hfirst second hsecond heq
      exact index_inj_of_nodup hinv.nodup hfirst hsecond heq

theorem Synced.inv {state next : State} (hinv : Inv target state) {replicas : List Replica}
    (hpods : next.pods = state.pods) (hsynced : Synced target replicas next.redis) :
    Inv target next where
  nodup := by
    rw [hpods]
    exact hinv.nodup
  listed := by
    intro id hhash
    rw [hsynced.set, List.mem_toFinset]
    by_contra hid
    exact hhash (hsynced.others id hid)
  onlyRecord := by
    intro id
    by_cases hid : id ∈ replicas.map fun replica => replicaId target.name replica.index
    · obtain ⟨replica, hmem, rfl⟩ := List.mem_map.mp hid
      rw [hsynced.records replica hmem]
      exact onlyRecord_hashOf replica
    · rw [hsynced.others id hid]
      exact onlyRecord_noHash

theorem Removed.inv {state next : State} (hinv : Inv target state)
    (hpods : next.pods = state.pods) (hremoved : Removed target next.redis) :
    Inv target next where
  nodup := by
    rw [hpods]
    exact hinv.nodup
  listed := by
    intro id hhash
    exact absurd (hremoved.records id) hhash
  onlyRecord := by
    intro id
    rw [hremoved.records id]
    exact onlyRecord_noHash

theorem step_observe {state next : State} {pods : List AgentPod} {now : Time}
    (hstep : step target state (.observe pods now) = some next) :
    (pods.map AgentPod.ordinal).Nodup ∧ next = { state with pods := pods, now := now } := by
  rw [step] at hstep
  split at hstep
  · rename_i hnodup
    cases hstep
    exact ⟨hnodup.1, rfl⟩
  · cases hstep

theorem step_report {state next : State} {ordinal : Fin (2 ^ 31)} {status : String}
    (hstep : step target state (.report ordinal status) = some next) :
    next = { state with
      redis := state.redis.apply (.set (.status (target.address ordinal)) status) } := by
  rw [step] at hstep
  split at hstep
  · cases hstep
    rfl
  · cases hstep

theorem step_report_pod {state next : State} {ordinal : Fin (2 ^ 31)} {status : String}
    (hstep : step target state (.report ordinal status) = some next) :
    ∃ agentPod ∈ state.pods, agentPod.ordinal = ordinal ∧ podExists state.now agentPod = true := by
  rw [step] at hstep
  split at hstep
  · assumption
  · cases hstep

/-- A call changes Redis and the history alone. -/
structure SamePods (state next : State) : Prop where
  pods : next.pods = state.pods
  now : next.now = state.now

theorem SamePods.present {state next : State} (hsame : SamePods state next) :
    next.present target = state.present target := by
  rw [State.present, State.present, hsame.pods, hsame.now]

/-- The reads of a sync, and what it leaves. -/
theorem step_sync {state next : State} {desired : Int32} {redisHost : String} {redisPort : Int}
    {members : List ReplicaId} {tracked : List Address}
    (hstep : step target state (.sync desired redisHost redisPort members tracked) = some next) :
    members.toFinset = state.redis.sets (.replicaSet target.name) ∧
      tracked.toFinset = state.redis.sets (.tracked target.name) ∧
      SamePods state next ∧
      next.redis = state.redis.exec (syncReplicas target.name
        (listReplicas target redisHost redisPort state.now state.pods).1
        (state.present target) desired members tracked) ∧
      next.recorded = state.recorded ++
        (listReplicas target redisHost redisPort state.now state.pods).1.map Replica.address := by
  rw [step] at hstep
  split at hstep
  · rename_i hreads
    cases hstep
    rw [← present_listReplicas redisHost redisPort state]
    exact ⟨hreads.1, hreads.2, ⟨rfl, rfl⟩, rfl, rfl⟩
  · cases hstep

theorem step_remove {state next : State} {members : List ReplicaId} {tracked : List Address}
    (hstep : step target state (.remove members tracked) = some next) :
    members.toFinset = state.redis.sets (.replicaSet target.name) ∧
      tracked.toFinset = state.redis.sets (.tracked target.name) ∧
      SamePods state next ∧
      next.redis = state.redis.exec
        (removeAgent target.name (state.present target) members tracked) ∧
      next.recorded = state.recorded := by
  rw [step] at hstep
  split at hstep
  · rename_i hreads
    cases hstep
    exact ⟨hreads.1, hreads.2, ⟨rfl, rfl⟩, rfl, rfl⟩
  · cases hstep

/-- What a removal leaves of the records. -/
theorem removed_remove {state : State} (hinv : Inv target state) {members : List ReplicaId}
    {tracked : List Address}
    (hmembers : members.toFinset = state.redis.sets (.replicaSet target.name)) :
    Removed target
      (state.redis.exec (removeAgent target.name (state.present target) members tracked)) := by
  apply removed_exec
  intro id hhash
  rw [← List.mem_toFinset, hmembers]
  exact hinv.listed id hhash

theorem inv_step {state next : State} {action : Action} (hinv : Inv target state)
    (hstep : step target state action = some next) : Inv target next := by
  cases action with
  | observe pods now =>
      obtain ⟨hnodup, rfl⟩ := step_observe hstep
      exact ⟨hnodup, hinv.listed, hinv.onlyRecord⟩
  | report ordinal status =>
      rw [step_report hstep]
      exact ⟨hinv.nodup, hinv.listed, hinv.onlyRecord⟩
  | sync desired redisHost redisPort members tracked =>
      obtain ⟨hmembers, htracked, hsame, hredis, _⟩ := step_sync hstep
      apply Synced.inv hinv hsame.pods
      rw [hredis]
      exact synced_exec hinv hmembers htracked
  | remove members tracked =>
      obtain ⟨hmembers, _, hsame, hredis, _⟩ := step_remove hstep
      apply Removed.inv hinv hsame.pods
      rw [hredis]
      exact removed_remove hinv hmembers
  | fail =>
      cases hstep
      exact hinv

/-- A status key outlives its pod unless the address is tracked. -/
theorem forgotten_iff {tracked : Finset Address} {present : List Address} {address : Address}
    {status : Option String} (hgone : address ∉ present) :
    (if address ∈ tracked ∧ address ∉ present then none else status) = none ↔
      (status.isSome → address ∈ tracked) := by
  by_cases htracked : address ∈ tracked
  · simp [htracked, hgone]
  · simp [htracked]

theorem kept_of_present {tracked : Finset Address} {present : List Address} {address : Address}
    {status : Option String} (hpresent : address ∈ present) :
    (if address ∈ tracked ∧ address ∉ present then none else status) = status :=
  if_neg fun hgone => hgone.2 hpresent

/-- A call keeps the status keys of the pods that are there, and deletes those of the others just
where it finds their addresses tracked. -/
theorem goneDeleted_iff {state next : State} (hpresent : next.present target = state.present target)
    (hrecorded : ∀ address ∈ next.recorded,
      address ∈ state.recorded ∨ address ∈ state.present target)
    (hkept : ∀ address ∈ state.recorded, address ∈ next.recorded)
    (hstatus : ∀ address, next.redis.strings (.status address) =
      if address ∈ state.redis.sets (.tracked target.name) ∧ address ∉ state.present target then
        none
      else state.redis.strings (.status address)) :
    next.GoneDeleted target ↔ state.GoneTracked target := by
  constructor
  · intro hdeleted address hmem hgone
    have hnone := hdeleted address (hkept address hmem) (hpresent ▸ hgone)
    rw [hstatus] at hnone
    exact (forgotten_iff hgone).mp hnone
  · intro htracked address hmem hgone
    rw [hpresent] at hgone
    rw [hstatus]
    apply (forgotten_iff hgone).mpr
    rcases hrecorded address hmem with hmem | hmem
    · exact htracked address hmem hgone
    · exact absurd hmem hgone

theorem presentKept_of_status {state next : State}
    (hpresent : next.present target = state.present target)
    (hstatus : ∀ address, next.redis.strings (.status address) =
      if address ∈ state.redis.sets (.tracked target.name) ∧ address ∉ state.present target then
        none
      else state.redis.strings (.status address)) :
    PresentKept target state next := by
  intro address hmem hsome
  rw [hstatus, kept_of_present (hpresent ▸ hmem)]
  exact hsome

theorem matchesPods_iff {state next : State} {action : Action} (hinv : Inv target state)
    (hstep : step target state action = some next) :
    MatchesPods target state action next ↔ Finds target state action := by
  cases action with
  | observe pods now =>
      obtain ⟨_, rfl⟩ := step_observe hstep
      exact iff_of_true ⟨fun _ _ hsome => hsome, trivial⟩ trivial
  | report ordinal status =>
      have hnext := step_report hstep
      subst hnext
      refine iff_of_true ⟨?_, trivial⟩ trivial
      intro address _ hsome
      by_cases haddress : address = target.address ordinal
      · subst haddress
        simp [Redis.apply]
      · simpa [Redis.apply, haddress] using hsome
  | sync desired redisHost redisPort members tracked =>
      obtain ⟨hmembers, htracked, hsame, hredis, hrecorded⟩ := step_sync hstep
      have hstatus : ∀ address, next.redis.strings (.status address) =
          if address ∈ state.redis.sets (.tracked target.name) ∧
              address ∉ state.present target then none
          else state.redis.strings (.status address) := by
        intro address
        rw [hredis, status_sync htracked]
      have hiff : next.GoneDeleted target ↔ state.GoneTracked target := by
        apply goneDeleted_iff hsame.present _ _ hstatus
        · intro address hmem
          rw [hrecorded] at hmem
          rcases List.mem_append.mp hmem with hmem | hmem
          · exact Or.inl hmem
          · obtain ⟨replica, hready, rfl⟩ := List.mem_map.mp hmem
            exact Or.inr (address_mem_present hready)
        · intro address hmem
          rw [hrecorded]
          exact List.mem_append_left _ hmem
      constructor
      · intro ⟨_, _, hdeleted⟩
        exact hiff.mp hdeleted
      · intro hfinds
        refine ⟨presentKept_of_status hsame.present hstatus, ?_, hiff.mpr hfinds⟩
        rw [hredis]
        exact synced_exec hinv hmembers htracked
  | remove members tracked =>
      obtain ⟨hmembers, htracked, hsame, hredis, hrecorded⟩ := step_remove hstep
      have hstatus : ∀ address, next.redis.strings (.status address) =
          if address ∈ state.redis.sets (.tracked target.name) ∧
              address ∉ state.present target then none
          else state.redis.strings (.status address) := by
        intro address
        rw [hredis, status_remove htracked]
      have hiff : next.GoneDeleted target ↔ state.GoneTracked target := by
        apply goneDeleted_iff hsame.present _ _ hstatus
        · intro address hmem
          exact Or.inl (hrecorded ▸ hmem)
        · intro address hmem
          exact hrecorded ▸ hmem
      have hforgotten : state.present target = [] →
          (Forgotten target next.redis ↔ state.StatusTracked target) := by
        intro hnone
        have hgone : ∀ address, address ∉ state.present target := by
          intro address
          rw [hnone]
          exact List.not_mem_nil
        constructor
        · intro hforgotten ordinal
          have hstatusNone := hforgotten.status ordinal
          rw [hstatus] at hstatusNone
          exact (forgotten_iff (hgone _)).mp hstatusNone
        · intro hall
          constructor
          · ext address
            rw [hredis, mem_tracked_remove htracked]
            simp [hgone address]
          · intro ordinal
            rw [hstatus]
            exact (forgotten_iff (hgone _)).mpr (hall ordinal)
      constructor
      · intro ⟨_, _, hdeleted, hleft⟩
        refine ⟨hiff.mp hdeleted, ?_⟩
        intro hnone
        exact (hforgotten hnone).mp (hleft (hsame.present.trans hnone))
      · intro ⟨hgone, hall⟩
        refine ⟨presentKept_of_status hsame.present hstatus, ?_, hiff.mpr hgone, ?_⟩
        · rw [hredis]
          exact removed_remove hinv hmembers
        · intro hnone
          rw [hsame.present] at hnone
          exact (hforgotten hnone).mpr (hall hnone)
  | fail =>
      cases hstep
      exact iff_of_true ⟨fun _ _ hsome => hsome, trivial⟩ trivial

/-- The replica state matches the pods along a run exactly if each sync finds every address ever
recorded that has a status key but no pod tracked, and each removal with no pods left every address
that has a status key. -/
theorem replica_state_matches_iff (target : AgentPods) (actions : List Action) :
    (sys target).Along (MatchesPods target) initial actions ↔
      (sys target).Guarded (Finds target) initial actions := by
  apply (sys target).along_iff_of_invariant (Inv target)
  · intro state action next hinv hstep
    exact matchesPods_iff hinv hstep
  · intro state action next hinv hstep _
    exact inv_step hinv hstep
  · exact inv_initial target

/-! ### Pods that go once they were recorded -/

/-- A pod that goes away has its address tracked if it ever reported its status. -/
def GoesTracked (target : AgentPods) (state : State) : Action → Prop
  | .observe pods now =>
      ∀ address ∈ state.present target,
        address ∉ State.present target { state with pods := pods, now := now } →
        (state.redis.strings (.status address)).isSome →
        address ∈ state.redis.sets (.tracked target.name)
  | _ => True

/-- A status key is that of a pod that is there or of an address that is tracked. -/
def Accounted (target : AgentPods) (state : State) : Prop :=
  ∀ address, (state.redis.strings (.status address)).isSome →
    address ∈ state.present target ∨ address ∈ state.redis.sets (.tracked target.name)

theorem Accounted.finds {state : State} (haccounted : Accounted target state) (action : Action) :
    Finds target state action := by
  have hgone : state.GoneTracked target := by
    intro address _ hgone hsome
    exact (haccounted address hsome).resolve_left hgone
  cases action with
  | sync => exact hgone
  | remove =>
      refine ⟨hgone, ?_⟩
      intro hnone ordinal hsome
      apply (haccounted _ hsome).resolve_left
      rw [hnone]
      exact List.not_mem_nil
  | _ => trivial

/-- A call that forgets the gone addresses it finds tracked accounts for every status key it
leaves. -/
theorem Accounted.of_status {state next : State} (haccounted : Accounted target state)
    (hsame : SamePods state next)
    (hstatus : ∀ address, next.redis.strings (.status address) =
      if address ∈ state.redis.sets (.tracked target.name) ∧ address ∉ state.present target then
        none
      else state.redis.strings (.status address)) :
    Accounted target next := by
  intro address hsome
  rw [hsame.present]
  rw [hstatus] at hsome
  split at hsome
  · cases hsome
  · rename_i hkept
    rcases haccounted address hsome with hpresent | htracked
    · exact Or.inl hpresent
    · exact Or.inl (by_contra fun hgone => hkept ⟨htracked, hgone⟩)

theorem accounted_step {state next : State} {action : Action} (haccounted : Accounted target state)
    (hgoes : GoesTracked target state action) (hstep : step target state action = some next) :
    Accounted target next := by
  cases action with
  | observe pods now =>
      obtain ⟨_, rfl⟩ := step_observe hstep
      intro address hsome
      by_cases hpresent : address ∈ State.present target { state with pods := pods, now := now }
      · exact Or.inl hpresent
      · rcases haccounted address hsome with hbefore | htracked
        · exact Or.inr (hgoes address hbefore hpresent hsome)
        · exact Or.inr htracked
  | report ordinal status =>
      obtain ⟨agentPod, hmem, hordinal, hexists⟩ := step_report_pod hstep
      have hnext := step_report hstep
      subst hnext
      intro address hsome
      by_cases haddress : address = target.address ordinal
      · have hself : target.address ordinal =
            target.address ⟨agentPod.ordinal, agentPod.bounded⟩ := by
          congr 1
          exact Fin.ext hordinal.symm
        rw [haddress, hself]
        exact Or.inl (mem_present hmem hexists)
      · have hbefore : (state.redis.strings (.status address)).isSome := by
          simpa [Redis.apply, haddress] using hsome
        exact haccounted address hbefore
  | sync desired redisHost redisPort members tracked =>
      obtain ⟨_, htracked, hsame, hredis, _⟩ := step_sync hstep
      apply haccounted.of_status hsame
      intro address
      rw [hredis, status_sync htracked]
  | remove members tracked =>
      obtain ⟨_, htracked, hsame, hredis, _⟩ := step_remove hstep
      apply haccounted.of_status hsame
      intro address
      rw [hredis, status_remove htracked]
  | fail =>
      cases hstep
      exact haccounted

/-- Where no pod that reported its status goes before a sync has recorded it, every call finds what
it must. -/
theorem finds_of_goesTracked (target : AgentPods) (actions : List Action)
    (hgoes : (sys target).Guarded (GoesTracked target) initial actions) :
    (sys target).Guarded (Finds target) initial actions := by
  have hinitial : Accounted target initial := by
    intro address hsome
    cases hsome
  apply (sys target).along_of_guarded _ actions hinitial hgoes
  intro state action next haccounted hgoes hstep
  exact ⟨accounted_step haccounted hgoes hstep, haccounted.finds action⟩

/-! ### A replica that was never ready -/

instance (target : AgentPods) (state : State) : Decidable (state.GoneDeleted target) :=
  inferInstanceAs (Decidable (∀ address ∈ _, _))

/-- What a sync must delete. -/
def SyncDeletes (target : AgentPods) (_before : State) (action : Action) (after : State) : Prop :=
  match action with
  | .sync .. => after.GoneDeleted target
  | _ => True

instance (target : AgentPods) (before : State) (action : Action) (after : State) :
    Decidable (SyncDeletes target before action after) := by
  cases action <;> unfold SyncDeletes <;> infer_instance

def helloAgent : AgentPods where
  name := "HelloAgent"
  workload := "helloagent"
  projectNamespace := "demo"

theorem zero_bounded : 0 < 2 ^ 31 := by
  decide

def firstPod (uid : String) (ready : Bool) : AgentPod where
  ordinal := 0
  uid := uid
  creationTimestamp := 1700000000
  conditions := [⟨podReady, if ready then conditionTrue else conditionFalse⟩]
  bounded := zero_bounded

/-- The pod is ready and recorded, and forgotten once it is gone. Its successor says it is healthy
but goes before it was ever found ready. -/
def crashBeforeReady : List Action :=
  [.observe [firstPod "a" true] 1, .report 0 "healthy", .sync 1 "redis" 6379 [] [],
    .observe [] 2, .sync 1 "redis" 6379 ["HelloAgent-0"] ["helloagent-0.helloagent.demo.svc:50051"],
    .observe [firstPod "b" false] 3, .report 0 "healthy", .observe [] 4,
    .sync 1 "redis" 6379 [] []]

theorem unready_status_outlives_pod :
    ((sys helloAgent).run initial crashBeforeReady).isSome ∧
      ¬ (sys helloAgent).Along (MatchesPods helloAgent) initial crashBeforeReady := by
  constructor
  · decide +kernel
  · intro halong
    have hdeletes : (sys helloAgent).Along (SyncDeletes helloAgent) initial crashBeforeReady := by
      apply (sys helloAgent).along_imp _ crashBeforeReady halong
      intro before action after hmatches
      cases action with
      | sync => exact hmatches.2.2
      | _ => trivial
    revert hdeletes
    decide +kernel

end CanyonOS.Operator.ReplicaState
