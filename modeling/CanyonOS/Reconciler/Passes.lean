import CanyonOS.Lib.StableSort
import CanyonOS.Lib.TransitionSystem
import CanyonOS.Lib.Triples
import Mathlib

/-!
# The passes over the replicas

The passes of the reconciler over every agent's replica records. Each of its steps may raise, and
the process may be killed at any of them. The machines are as the machine provisioner finds them.
-/

namespace CanyonOS.Reconciler.Passes

variable {AgentName LaunchId ReplicaId : Type}

/-! ### The records -/

/-- `agent_instance:<id>` -/
structure Record (LaunchId ReplicaId : Type) where
  replicaId : ReplicaId
  machine : LaunchId
  /-- written with the `address`, once the launch has finished -/
  createdAt : Option ℚ
  drainingAt : Option ℚ
  /-- its ID is among its agent's instances -/
  isInstance : Bool
deriving DecidableEq

structure Fleet (LaunchId ReplicaId : Type) where
  records : List (Record LaunchId ReplicaId)
  nodup : (records.map Record.replicaId).Nodup
  /-- `_seen_healthy` -/
  seenHealthy : List ReplicaId
  replaceRequests : List ReplicaId

namespace Fleet

variable [DecidableEq ReplicaId] (fleet : Fleet LaunchId ReplicaId)

def replicaIds : List ReplicaId :=
  fleet.records.map Record.replicaId

def find (replicaId : ReplicaId) : Option (Record LaunchId ReplicaId) :=
  fleet.records.find? fun record => record.replicaId = replicaId

/-- The record as it is changed, or without it. -/
def changed (replicaId : ReplicaId)
    (change : Record LaunchId ReplicaId → Option (Record LaunchId ReplicaId)) :
    List (Record LaunchId ReplicaId) :=
  fleet.records.filterMap fun record =>
    if record.replicaId = replicaId then
      (change record).map fun after => { after with replicaId }
    else some record

theorem sublist_changed (replicaId : ReplicaId)
    (change : Record LaunchId ReplicaId → Option (Record LaunchId ReplicaId)) :
    ((fleet.changed replicaId change).map Record.replicaId).Sublist fleet.replicaIds := by
  unfold changed replicaIds
  induction fleet.records with
  | nil => exact List.Sublist.refl _
  | cons record records ih =>
      rw [List.filterMap_cons, List.map_cons]
      by_cases hid : record.replicaId = replicaId
      · rw [if_pos hid]
        cases change record with
        | none => exact ih.cons _
        | some after =>
            rw [hid]
            exact ih.cons_cons _
      · rw [if_neg hid]
        exact ih.cons_cons _

def change (replicaId : ReplicaId)
    (change : Record LaunchId ReplicaId → Option (Record LaunchId ReplicaId)) :
    Fleet LaunchId ReplicaId :=
  { fleet with
    records := fleet.changed replicaId change
    nodup := fleet.nodup.sublist (fleet.sublist_changed replicaId change) }

@[simp]
theorem records_change (replicaId : ReplicaId)
    (change : Record LaunchId ReplicaId → Option (Record LaunchId ReplicaId)) :
    (fleet.change replicaId change).records = fleet.changed replicaId change :=
  rfl

def delete (replicaId : ReplicaId) : Fleet LaunchId ReplicaId :=
  fleet.change replicaId fun _ => none

def update (replicaId : ReplicaId)
    (change : Record LaunchId ReplicaId → Record LaunchId ReplicaId) : Fleet LaunchId ReplicaId :=
  fleet.change replicaId fun record => some (change record)

def add (record : Record LaunchId ReplicaId) (hnew : record.replicaId ∉ fleet.replicaIds) :
    Fleet LaunchId ReplicaId :=
  { fleet with
    records := record :: fleet.records
    nodup := List.nodup_cons.mpr ⟨hnew, fleet.nodup⟩ }

end Fleet

/-! ### What a pass meets -/

/-- An agent with the count of replicas it should run, the configured one where Redis has none. -/
structure AgentSpec (AgentName : Type) where
  name : AgentName
  isDatabase : Bool
  replicas : ℕ

inductive Failure where
  | exception
  | killed

/-- The steps that can fail. -/
inductive Operation (AgentName ReplicaId : Type) where
  | findsDead
  /-- `forget_replicas_on`, at its `publish_routing_snapshot` -/
  | forgets
  | terminatesDead
  | readsStopping
  | lists (agentName : AgentName)
  | listsRemoved
  | listsUnfinished
  | listsMachines
  | probes (replicaId : ReplicaId)
  /-- telling a replica that it drains, and reading whether it is idle -/
  | flags (replicaId : ReplicaId)
  | removesContainer (replicaId : ReplicaId)
  /-- `remove_replica`, at its `publish_routing_snapshot` -/
  | publishes (replicaId : ReplicaId)
  /-- `start_missing` and `find_surplus` -/
  | provisions
  | terminates
  | inspects (replicaId : ReplicaId)
  | launched
  | registered

inductive LaunchEnd where
  | finishes
  | fails
  /-- a `ForeignContainerError` -/
  | drops
deriving DecidableEq

structure Answers (agentOf : ReplicaId → AgentName) (LaunchId : Type) where
  agentSpecs : List (AgentSpec AgentName)
  names_nodup : (agentSpecs.map AgentSpec.name).Nodup
  /-- `agent_names` -/
  named : Option (List AgentName)
  now : ℚ
  startupGrace : ℚ
  stopping : Bool
  imagesReady : Bool
  dead : List LaunchId
  surplus : List LaunchId
  /-- whether a replica answers on its port, and its metrics are fresh -/
  answers : ReplicaId → Bool
  /-- `_is_idle` -/
  idle : ReplicaId → Bool
  running : ReplicaId → Bool
  draw : AgentName → ℕ → ReplicaId
  /-- the ID starts with the agent's name -/
  agentOf_draw : ∀ agentName index, agentOf (draw agentName index) = agentName
  /-- the machine `place` finds, and whether it is up -/
  place : ReplicaId → Option (LaunchId × Bool)
  launches : ReplicaId → LaunchEnd
  createdAt : ReplicaId → ℚ
  fails : Operation AgentName ReplicaId → Option Failure

def drainTimeout : ℚ := 180

abbrev Pass (LaunchId ReplicaId Value : Type) :=
  Raising (Fleet LaunchId ReplicaId) Failure Value

/-- `except Exception`, after which the pass goes on with a value. -/
def caught {Value : Type} (otherwise : Value) (program : Pass LaunchId ReplicaId Value) :
    Pass LaunchId ReplicaId Value :=
  tryCatch program fun
    | .exception => pure otherwise
    | .killed => throw .killed

def onlyIf (condition : Bool) (program : Pass LaunchId ReplicaId Unit) :
    Pass LaunchId ReplicaId Unit :=
  if condition then program else pure ()

section Pass

variable [DecidableEq AgentName] [DecidableEq LaunchId] [LinearOrder ReplicaId]
variable {agentOf : ReplicaId → AgentName} (answers : Answers agentOf LaunchId)

def attempt (operation : Operation AgentName ReplicaId) : Pass LaunchId ReplicaId Unit :=
  match answers.fails operation with
  | none => pure ()
  | some failure => throw failure

def specOf (agentName : AgentName) : Option (AgentSpec AgentName) :=
  answers.agentSpecs.find? fun spec => spec.name = agentName

def isDatabase (agentName : AgentName) : Bool :=
  (specOf answers agentName).any AgentSpec.isDatabase

def byKey (first second : Record LaunchId ReplicaId) : Prop :=
  first.replicaId ≤ second.replicaId

instance decidableByKey : DecidableRel (@byKey LaunchId ReplicaId _) :=
  fun first second => inferInstanceAs (Decidable (first.replicaId ≤ second.replicaId))

/-- `list_replicas`: the records of the launches that have finished. -/
def listReplicas (listed : Record LaunchId ReplicaId → Bool) (fleet : Fleet LaunchId ReplicaId) :
    List (Record LaunchId ReplicaId) :=
  (fleet.records.filter fun record => listed record && record.createdAt.isSome).insertionSort byKey

/-! ### Removing a replica -/

/-- `_is_healthy` -/
def isHealthy (record : Record LaunchId ReplicaId) : Pass LaunchId ReplicaId Bool := do
  attempt answers (.probes record.replicaId)
  if answers.answers record.replicaId then
    modify fun fleet => { fleet with seenHealthy := record.replicaId :: fleet.seenHealthy }
    pure true
  else
    let fleet ← get
    let booting := record.createdAt.any fun createdAt =>
      answers.now - createdAt ≤ answers.startupGrace
    pure (record.replicaId ∉ fleet.seenHealthy ∧ booting)

/-- `_seen_healthy.discard` -/
def forget (replicaId : ReplicaId) : Pass LaunchId ReplicaId Unit :=
  modify fun fleet =>
    { fleet with seenHealthy := fleet.seenHealthy.filter (· ≠ replicaId) }

/-- `_drain`: whether the replica can go. -/
def drain (record : Record LaunchId ReplicaId) : Pass LaunchId ReplicaId Bool := do
  let drainingAt := record.drainingAt.getD answers.now
  modify fun fleet =>
    fleet.update record.replicaId fun record => { record with drainingAt := some drainingAt }
  attempt answers (.flags record.replicaId)
  pure (answers.idle record.replicaId ∨ drainTimeout ≤ answers.now - drainingAt)

/-- `remove_replica` after a drain: the container, the record and the routes. -/
def takeDown (replicaId : ReplicaId) : Pass LaunchId ReplicaId Unit := do
  attempt answers (.removesContainer replicaId)
  modify fun fleet => fleet.delete replicaId
  attempt answers (.publishes replicaId)

/-- `remove_replica`: whether it is gone. -/
def removeReplica (replicaId : ReplicaId) (drains : Bool) : Pass LaunchId ReplicaId Bool := do
  match (← get).find replicaId with
  | none => pure true
  | some record =>
      let goes ← (if drains then drain answers record else pure true)
      if goes then
        takeDown answers replicaId
        pure true
      else pure false

/-- `_remove_without_draining` -/
def removeWithoutDraining (replicaId : ReplicaId) : Pass LaunchId ReplicaId Unit := do
  forget replicaId
  let _ ← removeReplica answers replicaId false

/-- `_drain_replica`: whether it is gone. -/
def drainReplica (record : Record LaunchId ReplicaId) : Pass LaunchId ReplicaId Bool := do
  if isDatabase answers (agentOf record.replicaId) then
    removeWithoutDraining answers record.replicaId
    pure true
  else
    let healthy ← isHealthy answers record
    if healthy then
      let removed ← removeReplica answers record.replicaId true
      if removed then forget record.replicaId
      pure removed
    else
      removeWithoutDraining answers record.replicaId
      pure true

/-! ### The replicas of an agent -/

inductive Reason where
  | draining
  | replacement
  | surplus
  | unhealthy

/-- `_removal_reason` -/
def removalReason (surplus requested : List ReplicaId) (record : Record LaunchId ReplicaId) :
    Pass LaunchId ReplicaId (Option Reason) :=
  if record.drainingAt.isSome then pure (some .draining)
  else if record.replicaId ∈ requested then pure (some .replacement)
  else if record.replicaId ∈ surplus then pure (some .surplus)
  else do
    let healthy ← isHealthy answers record
    pure (if healthy then none else some .unhealthy)

def clearRequests (cleared : ReplicaId → Bool) : Pass LaunchId ReplicaId Unit :=
  modify fun fleet =>
    { fleet with replaceRequests := fleet.replaceRequests.filter fun replicaId =>
        !(cleared replicaId) }

/-- The body of the loop of `_remove_unwanted`. -/
def removeIfUnwanted (surplus requested : List ReplicaId) (record : Record LaunchId ReplicaId) :
    Pass LaunchId ReplicaId Unit := do
  match ← removalReason answers surplus requested record with
  | none => pure ()
  | some .unhealthy =>
      removeWithoutDraining answers record.replicaId
      clearRequests fun replicaId => replicaId = record.replicaId && replicaId ∈ requested
  | some _ =>
      let removed ← drainReplica answers record
      if removed then
        clearRequests fun replicaId => replicaId = record.replicaId && replicaId ∈ requested

def byAge (first second : Record LaunchId ReplicaId) : Prop :=
  first.createdAt.getD 0 ≤ second.createdAt.getD 0

instance decidableByAge : DecidableRel (@byAge LaunchId ReplicaId) :=
  fun first second =>
    inferInstanceAs (Decidable (first.createdAt.getD 0 ≤ second.createdAt.getD 0))

/-- The replicas that count, in the order in which they are kept. -/
def inOrder (replicas : List (Record LaunchId ReplicaId)) : List (Record LaunchId ReplicaId) :=
  (replicas.filter fun record => record.drainingAt.isNone).insertionSort byAge

def surplusOf (desired : ℕ) (replicas : List (Record LaunchId ReplicaId)) : List ReplicaId :=
  ((inOrder replicas).drop desired).map Record.replicaId

/-- `_remove_unwanted`: whether the agent could be checked. -/
def removeUnwanted (agentName : AgentName) : Pass LaunchId ReplicaId Bool :=
  match specOf answers agentName with
  | none => pure false
  | some spec => do
      attempt answers (.lists agentName)
      let fleet ← get
      let requested := fleet.replaceRequests.filter fun replicaId => agentOf replicaId = agentName
      let replicas := listReplicas
        (fun record => agentOf record.replicaId = agentName && record.isInstance) fleet
      clearRequests fun replicaId =>
        replicaId ∈ requested && replicaId ∉ replicas.map Record.replicaId
      replicas.forM
        (removeIfUnwanted answers (surplusOf spec.replicas replicas) requested)
      pure true

/-- `_remove_replicas_of_removed_agents` -/
def removeReplicasOfRemovedAgents : Pass LaunchId ReplicaId Unit := do
  attempt answers .listsRemoved
  let replicas := listReplicas
    (fun record => (specOf answers (agentOf record.replicaId)).isNone) (← get)
  replicas.forM fun record => do
    let _ ← drainReplica answers record

/-- `remove_unfinished` -/
def removeUnfinished : Pass LaunchId ReplicaId Unit := do
  attempt answers .listsUnfinished
  let unfinished := (← get).records.filter fun record => record.createdAt.isNone
  unfinished.forM fun record =>
    caught () do
      attempt answers (.removesContainer record.replicaId)
      modify fun fleet => fleet.delete record.replicaId

/-- `_terminate_machines` -/
def terminateMachines (terminated : LaunchId → Bool) : Pass LaunchId ReplicaId Unit := do
  attempt answers .listsMachines
  let replicas := listReplicas (fun record => terminated record.machine) (← get)
  replicas.forM fun record =>
    caught () do
      let _ ← drainReplica answers record
  caught () do
    removeUnfinished answers
    attempt answers .terminates

/-! ### Launching replicas -/

/-- What `ensure_replicas` finds of a replica. -/
inductive Found where
  | runs
  | counts
  | gone
deriving DecidableEq

def findReplica (record : Record LaunchId ReplicaId) : Pass LaunchId ReplicaId Found :=
  if record.drainingAt.isSome then pure .gone
  else if record.createdAt.isNone then pure .counts
  else do
    attempt answers (.inspects record.replicaId)
    if answers.running record.replicaId then pure .runs
    else
      let removed ← caught false do
        attempt answers (.removesContainer record.replicaId)
        pure true
      if removed then
        modify fun fleet => fleet.delete record.replicaId
        pure .gone
      else pure .counts

/-- The agent's replicas that run, and how many are missing. -/
def countReplicas (spec : AgentSpec AgentName) : Pass LaunchId ReplicaId (List ReplicaId × ℕ) := do
  let records := (← get).records.filter fun record => agentOf record.replicaId = spec.name
  let found ← records.mapM fun record => do
    let found ← findReplica answers record
    pure (record.replicaId, found)
  pure ((found.filter fun entry => entry.2 = .runs).map Prod.fst,
    spec.replicas - (found.filter fun entry => entry.2 ≠ .gone).length)

/-- A record for a wanted replica, if its machine is up. -/
def placeReplica (replicaId : ReplicaId) : Pass LaunchId ReplicaId (List ReplicaId) := do
  let fleet ← get
  if hnew : replicaId ∉ fleet.replicaIds then
    match answers.place replicaId with
    | some (machine, true) =>
        set (fleet.add ⟨replicaId, machine, none, none, false⟩ hnew)
        pure [replicaId]
    | _ => pure []
  else pure []

/-- `_launch_replica`, and whether the launch succeeded. -/
def launchReplica (replicaId : ReplicaId) : Pass LaunchId ReplicaId Bool :=
  match answers.launches replicaId with
  | .finishes => do
      modify fun fleet =>
        fleet.update replicaId fun record =>
          { record with createdAt := some (answers.createdAt record.replicaId) }
      pure true
  | .fails => pure false
  | .drops => do
      modify fun fleet => fleet.delete replicaId
      pure false

/-- `_add_replica_to_agent` -/
def register (replicaId : ReplicaId) : Pass LaunchId ReplicaId Unit :=
  modify fun fleet => fleet.update replicaId fun record => { record with isInstance := true }

/-- `ensure_replicas` -/
def ensureReplicas : Pass LaunchId ReplicaId Unit := do
  let specs := answers.agentSpecs.filter fun spec =>
    answers.named.all fun names => spec.name ∈ names
  let counts ← specs.mapM (countReplicas answers)
  let wanted := (specs.zip counts).flatMap fun (spec, _, missing) =>
    (List.range missing).map (answers.draw spec.name)
  let placed ← wanted.mapM (placeReplica answers)
  let launches ← placed.flatten.mapM fun replicaId => do
    let launched ← launchReplica answers replicaId
    pure (replicaId, launched)
  attempt answers .launched
  let provisioned := (launches.filter Prod.snd).map Prod.fst
  (counts.flatMap Prod.fst ++ provisioned).forM register
  attempt answers .registered
  if launches.all Prod.snd then pure ()
  else do
    caught () (removeUnfinished answers)
    throw .exception

/-! ### A pass -/

/-- The replicas on dead machines, dropped. -/
def forgetReplicasOn : Pass LaunchId ReplicaId Unit := do
  let removed := (← get).records.filter fun record => record.machine ∈ answers.dead
  removed.forM fun record => modify fun fleet => fleet.delete record.replicaId
  attempt answers .forgets
  removed.forM fun record => forget record.replicaId

/-- The last part of `_reconcile`. -/
def provision : Pass LaunchId ReplicaId Unit := do
  attempt answers .provisions
  onlyIf (answers.surplus ≠ [])
    (terminateMachines answers fun launchId => launchId ∈ answers.surplus)
  onlyIf answers.imagesReady (ensureReplicas answers)

/-- `_reconcile` -/
def reconcile : Pass LaunchId ReplicaId Unit := do
  caught () do
    attempt answers .findsDead
    onlyIf (answers.dead ≠ []) do
      forgetReplicasOn answers
      attempt answers .terminatesDead
  attempt answers .readsStopping
  if answers.stopping then terminateMachines answers fun _ => true
  else do
    let names := answers.named.getD (answers.agentSpecs.map AgentSpec.name)
    let checked ← names.mapM fun agentName => caught false (removeUnwanted answers agentName)
    onlyIf answers.named.isNone (caught () (removeReplicasOfRemovedAgents answers))
    caught () (removeUnfinished answers)
    onlyIf (answers.named.isNone || checked.any id) (caught () (provision answers))

end Pass

/-! ### Runs -/

section Runs

inductive Event (agentOf : ReplicaId → AgentName) (LaunchId : Type) where
  /-- a pass, to its end, an exception or a kill -/
  | passes (answers : Answers agentOf LaunchId)
  /-- the process starts again -/
  | restarts
  /-- `request_replace` -/
  | requests (replicaId : ReplicaId)

variable [DecidableEq AgentName] [DecidableEq LaunchId] [LinearOrder ReplicaId]
variable {agentOf : ReplicaId → AgentName}

def next (fleet : Fleet LaunchId ReplicaId) : Event agentOf LaunchId → Fleet LaunchId ReplicaId
  | .passes answers => ((reconcile answers).exec fleet).2
  | .restarts => { fleet with seenHealthy := [] }
  | .requests replicaId => { fleet with replaceRequests := replicaId :: fleet.replaceRequests }

def system (agentOf : ReplicaId → AgentName) (LaunchId : Type) [DecidableEq LaunchId] :
    TransitionSystem (Fleet LaunchId ReplicaId) (Event agentOf LaunchId) where
  step fleet event := some (next fleet event)

end Runs

/-! ### What a step does to the records -/

namespace Fleet

variable {fleet : Fleet LaunchId ReplicaId} {record : Record LaunchId ReplicaId}

theorem mem_replicaIds (hmem : record ∈ fleet.records) :
    record.replicaId ∈ fleet.replicaIds :=
  List.mem_map_of_mem hmem

theorem eq_of_mem {first second : Record LaunchId ReplicaId} (hfirst : first ∈ fleet.records)
    (hsecond : second ∈ fleet.records) (hid : first.replicaId = second.replicaId) :
    first = second :=
  List.inj_on_of_nodup_map fleet.nodup hfirst hsecond hid

variable [DecidableEq ReplicaId] {replicaId : ReplicaId}
  {change : Record LaunchId ReplicaId → Option (Record LaunchId ReplicaId)}

theorem mem_of_find (hfind : fleet.find replicaId = some record) :
    record ∈ fleet.records ∧ record.replicaId = replicaId := by
  refine ⟨List.mem_of_find?_eq_some hfind, ?_⟩
  simpa using List.find?_some hfind

theorem find_of_mem (hmem : record ∈ fleet.records) :
    fleet.find record.replicaId = some record := by
  cases hfind : fleet.find record.replicaId with
  | none =>
      have hnone := List.find?_eq_none.mp hfind record hmem
      exact absurd (decide_eq_true rfl) hnone
  | some found =>
      obtain ⟨hfound, hid⟩ := mem_of_find hfind
      rw [eq_of_mem hfound hmem hid]

theorem mem_change_iff :
    record ∈ (fleet.change replicaId change).records ↔
      record ∈ fleet.records ∧ record.replicaId ≠ replicaId ∨
        ∃ before ∈ fleet.records, before.replicaId = replicaId ∧
          ∃ after, change before = some after ∧ record = { after with replicaId } := by
  rw [records_change, changed, List.mem_filterMap]
  constructor
  · rintro ⟨before, hbefore, hrecord⟩
    by_cases hid : before.replicaId = replicaId
    · rw [if_pos hid, Option.map_eq_some_iff] at hrecord
      obtain ⟨after, hafter, rfl⟩ := hrecord
      exact Or.inr ⟨before, hbefore, hid, after, hafter, rfl⟩
    · rw [if_neg hid, Option.some.injEq] at hrecord
      subst hrecord
      exact Or.inl ⟨hbefore, hid⟩
  · rintro (⟨hmem, hid⟩ | ⟨before, hbefore, hid, after, hafter, rfl⟩)
    · exact ⟨record, hmem, if_neg hid⟩
    · exact ⟨before, hbefore, by rw [if_pos hid, hafter, Option.map_some]⟩

/-- The others are as they were. -/
theorem mem_change_of_ne (hmem : record ∈ fleet.records)
    (hid : record.replicaId ≠ replicaId) : record ∈ (fleet.change replicaId change).records :=
  mem_change_iff.mpr (Or.inl ⟨hmem, hid⟩)

theorem records_delete : (fleet.delete replicaId).records =
    fleet.records.filter fun record => record.replicaId ≠ replicaId := by
  rw [delete, records_change, changed, ← List.filterMap_eq_filter]
  apply List.filterMap_congr
  intro record _
  by_cases hid : record.replicaId = replicaId <;> simp [Option.guard, hid]

theorem perm_delete (hmem : record ∈ fleet.records) :
    (record :: (fleet.delete record.replicaId).records).Perm fleet.records := by
  have hnodup : fleet.records.Nodup := fleet.nodup.of_map _
  rw [records_delete]
  apply (List.perm_ext_iff_of_nodup (List.nodup_cons.mpr ⟨?_, hnodup.filter _⟩) hnodup).mpr
  · intro other
    rw [List.mem_cons, List.mem_filter, decide_eq_true_eq]
    constructor
    · rintro (rfl | ⟨hother, -⟩)
      · exact hmem
      · exact hother
    · intro hother
      by_cases hid : other.replicaId = record.replicaId
      · exact Or.inl (eq_of_mem hother hmem hid)
      · exact Or.inr ⟨hother, hid⟩
  · intro hself
    exact of_decide_eq_true (List.mem_filter.mp hself).2 rfl

/-- Where the changed record has a property only if it had it before, no more records have it. -/
theorem length_filter_change_le (holds : Record LaunchId ReplicaId → Bool)
    (hholds : ∀ before ∈ fleet.records, before.replicaId = replicaId → ∀ after,
      change before = some after → holds { after with replicaId } = true → holds before = true) :
    ((fleet.change replicaId change).records.filter holds).length ≤
      (fleet.records.filter holds).length := by
  rw [records_change, changed]
  generalize fleet.records = records at hholds ⊢
  induction records with
  | nil => exact le_rfl
  | cons record records ih =>
      have hrest := ih fun before hmem => hholds before (List.mem_cons_of_mem _ hmem)
      have hrecord := hholds record List.mem_cons_self
      have hcons : (records.filter holds).length ≤ ((record :: records).filter holds).length :=
        ((List.sublist_cons_self record records).filter holds).length_le
      rw [List.filterMap_cons]
      by_cases hid : record.replicaId = replicaId
      · rw [if_pos hid]
        cases hchange : change record with
        | none => exact hrest.trans hcons
        | some after =>
            rw [Option.map_some]
            by_cases hafter : holds { after with replicaId } = true
            · rw [List.filter_cons_of_pos hafter,
                List.filter_cons_of_pos (hrecord hid after hchange hafter)]
              exact Nat.succ_le_succ hrest
            · rw [List.filter_cons_of_neg hafter]
              exact hrest.trans hcons
      · rw [if_neg hid]
        by_cases hkept : holds record = true
        · rw [List.filter_cons_of_pos hkept, List.filter_cons_of_pos hkept]
          exact Nat.succ_le_succ hrest
        · rw [List.filter_cons_of_neg hkept, List.filter_cons_of_neg hkept]
          exact hrest

end Fleet

/-! ### Invariants of a pass -/

open Raising

section Invariants

variable {agentOf : ReplicaId → AgentName} {answers : Answers agentOf LaunchId}
  {invariant : Fleet LaunchId ReplicaId → Prop}

/-- It depends neither on what is known of the replicas' health nor on the requests that are
cleared. -/
structure Steady (invariant : Fleet LaunchId ReplicaId → Prop) : Prop where
  seen : ∀ (fleet : Fleet LaunchId ReplicaId) seenHealthy, invariant fleet →
    invariant { fleet with seenHealthy }
  clears : ∀ (fleet : Fleet LaunchId ReplicaId) (kept : ReplicaId → Bool), invariant fleet →
    invariant { fleet with replaceRequests := fleet.replaceRequests.filter kept }

theorem preserves_attempt (operation : Operation AgentName ReplicaId) :
    Preserves invariant (attempt answers operation) := by
  unfold attempt
  split
  · exact preserves_pure _
  · exact preserves_throw _

theorem triple_caught {Value : Type} {otherwise : Value}
    {program : Pass LaunchId ReplicaId Value} {before after : Fleet LaunchId ReplicaId → Prop}
    (hprogram : Triple before program (fun _ => after) fun _ => after) :
    Triple before (caught otherwise program) (fun _ => after) fun _ => after := by
  refine Triple.tryCatch hprogram ?_
  rintro (_ | _)
  · exact triple_pure fun _ => id
  · exact triple_throw fun _ => id

theorem preserves_caught {Value : Type} {otherwise : Value}
    {program : Pass LaunchId ReplicaId Value} (hprogram : Preserves invariant program) :
    Preserves invariant (caught otherwise program) :=
  triple_caught hprogram

theorem triple_onlyIf {condition : Bool} {program : Pass LaunchId ReplicaId Unit}
    {before after : Fleet LaunchId ReplicaId → Prop}
    {raised : Failure → Fleet LaunchId ReplicaId → Prop}
    (hprogram : condition = true → Triple before program (fun _ => after) raised)
    (hskip : ∀ fleet, before fleet → after fleet) :
    Triple before (onlyIf condition program) (fun _ => after) raised := by
  unfold onlyIf
  split
  · exact hprogram ‹_›
  · exact triple_pure hskip

theorem preserves_clearRequests (hsteady : Steady invariant) (cleared : ReplicaId → Bool) :
    Preserves invariant (clearRequests cleared : Pass LaunchId ReplicaId Unit) :=
  preserves_modify fun _ => hsteady.clears _ _

variable [LinearOrder ReplicaId]

/-- The replica can drain and go. -/
structure Allows (invariant : Fleet LaunchId ReplicaId → Prop) (replicaId : ReplicaId) : Prop where
  deletes : ∀ fleet, invariant fleet → invariant (fleet.delete replicaId)
  drains : ∀ fleet drainingAt, invariant fleet →
    invariant (fleet.update replicaId fun record => { record with drainingAt := some drainingAt })

theorem preserves_forget (hsteady : Steady invariant) (replicaId : ReplicaId) :
    Preserves invariant (forget replicaId) :=
  preserves_modify fun _ => hsteady.seen _ _

theorem preserves_isHealthy (hsteady : Steady invariant) (record : Record LaunchId ReplicaId) :
    Preserves invariant (isHealthy answers record) := by
  refine (preserves_attempt _).bind fun _ => ?_
  split
  · exact (preserves_modify fun _ => hsteady.seen _ _).bind fun _ => preserves_pure _
  · exact preserves_get_bind fun _ _ => preserves_pure _

theorem preserves_takeDown {replicaId : ReplicaId} (hallows : Allows invariant replicaId) :
    Preserves invariant (takeDown answers replicaId) := by
  refine (preserves_attempt _).bind fun _ => ?_
  exact (preserves_modify hallows.deletes).bind fun _ => preserves_attempt _

theorem preserves_removeReplica {replicaId : ReplicaId} {drains : Bool}
    (hallows : Allows invariant replicaId) :
    Preserves invariant (removeReplica answers replicaId drains) := by
  apply preserves_get_bind
  intro fleet _
  split
  case h_1 => exact preserves_pure _
  case h_2 record hfind =>
    have hid := (Fleet.mem_of_find hfind).2
    have hdrain : Preserves invariant (drain answers record) := by
      rw [← hid] at hallows
      refine (preserves_modify fun fleet => hallows.drains fleet _).bind fun _ => ?_
      exact (preserves_attempt _).bind fun _ => preserves_pure _
    refine Preserves.bind ?_ fun goes => ?_
    · split
      · exact hdrain
      · exact preserves_pure _
    · split
      · exact (preserves_takeDown hallows).bind fun _ => preserves_pure _
      · exact preserves_pure _

theorem preserves_removeWithoutDraining {replicaId : ReplicaId} (hsteady : Steady invariant)
    (hallows : Allows invariant replicaId) :
    Preserves invariant (removeWithoutDraining answers replicaId) :=
  (preserves_forget hsteady _).bind fun _ =>
    (preserves_removeReplica hallows).bind fun _ => preserves_pure _

theorem preserves_removeUnfinished
    (hunfinished : ∀ fleet record, invariant fleet → record ∈ fleet.records →
      record.createdAt = none → Allows invariant record.replicaId) :
    Preserves invariant (removeUnfinished answers) := by
  refine (preserves_attempt _).bind fun _ => preserves_get_bind fun fleet hfleet => ?_
  apply preserves_forM
  intro record hrecord
  obtain ⟨hmem, hnone⟩ := List.mem_filter.mp hrecord
  have hallows := hunfinished fleet record hfleet hmem (Option.isNone_iff_eq_none.mp hnone)
  exact preserves_caught ((preserves_attempt _).bind fun _ => preserves_modify hallows.deletes)

/-- Of a replica a look either leaves everything or removes it, then it was not draining. -/
theorem triple_findReplica (record : Record LaunchId ReplicaId) (fleet : Fleet LaunchId ReplicaId) :
    Triple (fun start => start = fleet) (findReplica answers record)
      (fun found after =>
        after = fleet ∧ (found = .gone ↔ record.drainingAt.isSome = true) ∨
          after = fleet.delete record.replicaId ∧ found = .gone ∧ record.drainingAt = none)
      fun _ after => after = fleet := by
  have hattempt (operation : Operation AgentName ReplicaId) :
      Triple (fun start => start = fleet) (attempt answers operation)
        (fun _ after => after = fleet) fun _ after => after = fleet := preserves_attempt operation
  unfold findReplica
  split
  case isTrue hdraining =>
    exact triple_pure fun after hafter => Or.inl ⟨hafter, by simp [hdraining]⟩
  case isFalse hstays =>
    have hnone : record.drainingAt = none := by simpa using hstays
    split
    · exact triple_pure fun after hafter => Or.inl ⟨hafter, by simp [hnone]⟩
    refine (hattempt _).bind fun _ => ?_
    split
    · exact triple_pure fun after hafter => Or.inl ⟨hafter, by simp [hnone]⟩
    have hremoved : Triple (fun start => start = fleet) (caught false do
          attempt answers (.removesContainer record.replicaId)
          pure true) (fun _ after => after = fleet) fun _ after => after = fleet :=
      triple_caught ((hattempt _).bind fun _ => triple_pure fun _ => id)
    refine hremoved.bind fun removed => ?_
    split
    · refine Triple.bind (triple_modify fun _ hafter => ?_) fun _ => triple_pure fun _ hafter =>
        Or.inr ⟨hafter, rfl, hnone⟩
      rw [hafter]
    · exact triple_pure fun after hafter => Or.inl ⟨hafter, by simp [hnone]⟩

variable [DecidableEq AgentName]

theorem preserves_drainReplica {record : Record LaunchId ReplicaId} (hsteady : Steady invariant)
    (hallows : Allows invariant record.replicaId) :
    Preserves invariant (drainReplica answers record) := by
  have hremoved : Preserves invariant (removeWithoutDraining answers record.replicaId) :=
    preserves_removeWithoutDraining hsteady hallows
  unfold drainReplica
  split
  · exact hremoved.bind fun _ => preserves_pure _
  · refine (preserves_isHealthy hsteady _).bind fun healthy => ?_
    split
    · refine (preserves_removeReplica hallows).bind fun removed => ?_
      split
      · exact (preserves_forget hsteady _).bind fun _ => preserves_pure _
      · exact preserves_pure _
    · exact hremoved.bind fun _ => preserves_pure _

theorem preserves_removeIfUnwanted {record : Record LaunchId ReplicaId}
    {surplus requested : List ReplicaId} (hsteady : Steady invariant)
    (hallows : Allows invariant record.replicaId) :
    Preserves invariant (removeIfUnwanted answers surplus requested record) := by
  have hreason : Preserves invariant (removalReason answers surplus requested record) := by
    unfold removalReason
    split_ifs
    · exact preserves_pure _
    · exact preserves_pure _
    · exact preserves_pure _
    · exact (preserves_isHealthy hsteady _).bind fun _ => preserves_pure _
  refine hreason.bind fun reason => ?_
  split
  · exact preserves_pure _
  · exact (preserves_removeWithoutDraining hsteady hallows).bind fun _ =>
      preserves_clearRequests hsteady _
  · refine (preserves_drainReplica hsteady hallows).bind fun removed => ?_
    split
    · exact preserves_clearRequests hsteady _
    · exact preserves_pure _

/-! ### The wanted replicas -/

/-- The agent's replicas that count, down to this one in their order. -/
def Fleet.ahead (agentOf : ReplicaId → AgentName) (fleet : Fleet LaunchId ReplicaId)
    (record : Record LaunchId ReplicaId) : List (Record LaunchId ReplicaId) :=
  fleet.records.filter fun other =>
    agentOf other.replicaId = agentOf record.replicaId ∧ other.isInstance ∧
      other.createdAt.isSome ∧ other.drainingAt = none ∧ StableSort.Then byAge byKey other record

/-- A replica no step of a pass has a reason to remove. -/
structure Wanted (answers : Answers agentOf LaunchId) (fleet : Fleet LaunchId ReplicaId)
    (record : Record LaunchId ReplicaId) : Prop where
  finished : record.createdAt.isSome = true
  stays : record.drainingAt = none
  answered : answers.answers record.replicaId = true
  running : answers.running record.replicaId = true
  unrequested : record.replicaId ∉ fleet.replaceRequests
  machine : record.machine ∉ answers.dead ++ answers.surplus
  up : answers.stopping = false
  counts : ∃ spec, specOf answers (agentOf record.replicaId) = some spec ∧
    (fleet.ahead agentOf record).length ≤ spec.replicas

/-- Only the wanted replicas matter to it. -/
structure Calm (answers : Answers agentOf LaunchId)
    (invariant : Fleet LaunchId ReplicaId → Prop) : Prop extends Steady invariant where
  allows : ∀ fleet record, invariant fleet → record ∈ fleet.records →
    Allows invariant record.replicaId ∨ Wanted answers fleet record

theorem mem_listReplicas {listed : Record LaunchId ReplicaId → Bool}
    {fleet : Fleet LaunchId ReplicaId} {record : Record LaunchId ReplicaId} :
    record ∈ listReplicas listed fleet ↔
      record ∈ fleet.records ∧ listed record = true ∧ record.createdAt.isSome = true := by
  rw [listReplicas, List.mem_insertionSort, List.mem_filter, Bool.and_eq_true]

instance total_byKey : Std.Total (@byKey LaunchId ReplicaId _) where
  total first second := le_total first.replicaId second.replicaId

instance trans_byKey : IsTrans (Record LaunchId ReplicaId) byKey where
  trans _ _ _ hfirst hsecond := le_trans (α := ReplicaId) hfirst hsecond

instance total_byAge : Std.Total (@byAge LaunchId ReplicaId) where
  total first second := le_total (first.createdAt.getD 0) (second.createdAt.getD 0)

instance trans_byAge : IsTrans (Record LaunchId ReplicaId) byAge where
  trans _ _ _ hfirst hsecond := le_trans (α := ℚ) hfirst hsecond

theorem pairwise_inOrder (listed : Record LaunchId ReplicaId → Bool)
    (fleet : Fleet LaunchId ReplicaId) :
    (inOrder (listReplicas listed fleet)).Pairwise (StableSort.Then byAge byKey) := by
  apply StableSort.pairwise_then_insertionSort
  exact (List.pairwise_insertionSort byKey _).sublist List.filter_sublist

theorem perm_inOrder (listed : Record LaunchId ReplicaId → Bool)
    (fleet : Fleet LaunchId ReplicaId) :
    (inOrder (listReplicas listed fleet)).Perm (fleet.records.filter fun record =>
      listed record && record.createdAt.isSome && record.drainingAt.isNone) := by
  calc
    (inOrder (listReplicas listed fleet)).Perm
        ((listReplicas listed fleet).filter fun record => record.drainingAt.isNone) :=
      List.perm_insertionSort byAge _
    List.Perm _ ((fleet.records.filter fun record =>
        listed record && record.createdAt.isSome).filter fun record => record.drainingAt.isNone) :=
      (List.perm_insertionSort byKey _).filter _
    _ = _ := by
      rw [List.filter_filter]
      exact List.filter_congr fun record _ => Bool.and_comm _ _

theorem not_mem_surplusOf {fleet : Fleet LaunchId ReplicaId} {record : Record LaunchId ReplicaId}
    {desired : ℕ} {agentName : AgentName} (hmem : record ∈ fleet.records)
    (hcounts : (fleet.ahead agentOf record).length ≤ desired)
    (hagent : agentOf record.replicaId = agentName) (hstays : record.drainingAt = none)
    (hlisted : record.isInstance = true ∧ record.createdAt.isSome = true) :
    record.replicaId ∉ surplusOf desired (listReplicas
      (fun record => agentOf record.replicaId = agentName && record.isInstance) fleet) := by
  have hsorted := pairwise_inOrder
    (fun record => agentOf record.replicaId = agentName && record.isInstance) fleet
  have hperm := perm_inOrder
    (fun record => agentOf record.replicaId = agentName && record.isInstance) fleet
  rw [surplusOf]
  generalize inOrder (listReplicas
    (fun record => agentOf record.replicaId = agentName && record.isInstance) fleet) = sorted
    at hsorted hperm ⊢
  have hin : record ∈ sorted := by
    apply hperm.mem_iff.mpr
    simp [hmem, hagent, hlisted, hstays]
  have htake : record ∈ sorted.take desired := by
    apply StableSort.mem_take_of_pairwise hsorted ⟨le_rfl, fun _ => le_rfl⟩ hin
    rw [(hperm.filter _).length_eq, List.filter_filter]
    refine le_of_eq_of_le ?_ hcounts
    rw [Fleet.ahead]
    congr 1
    apply List.filter_congr
    intro other _
    rw [Bool.eq_iff_iff]
    simp [hagent]
    tauto
  have hnodup : sorted.Nodup := hperm.nodup_iff.mpr ((fleet.nodup.of_map _).filter _)
  intro hsurplus
  obtain ⟨other, hdrop, hid⟩ := List.mem_map.mp hsurplus
  have hother := List.mem_of_mem_filter (hperm.mem_iff.mp (List.mem_of_mem_drop hdrop))
  rw [Fleet.eq_of_mem hother hmem hid] at hdrop
  exact List.disjoint_take_drop hnodup le_rfl htake hdrop

theorem preserves_removeIfUnwanted_of_wanted {record : Record LaunchId ReplicaId}
    {surplus requested : List ReplicaId} {fleet : Fleet LaunchId ReplicaId}
    (hsteady : Steady invariant) (hwanted : Wanted answers fleet record)
    (hrequested : record.replicaId ∉ requested) (hsurplus : record.replicaId ∉ surplus) :
    Preserves invariant (removeIfUnwanted answers surplus requested record) := by
  have hhealthy : Triple invariant (isHealthy answers record)
      (fun healthy fleet => healthy = true ∧ invariant fleet) (fun _ => invariant) := by
    refine Triple.bind (preserves_attempt _) fun _ => ?_
    rw [if_pos hwanted.answered]
    refine Triple.bind (preserves_modify fun _ => hsteady.seen _ _) fun _ => ?_
    exact triple_pure fun _ hfleet => ⟨rfl, hfleet⟩
  have hreason : Triple invariant (removalReason answers surplus requested record)
      (fun reason fleet => reason = none ∧ invariant fleet) (fun _ => invariant) := by
    rw [removalReason, hwanted.stays, if_neg (by simp), if_neg hrequested, if_neg hsurplus]
    refine hhealthy.bind fun healthy => triple_pure ?_
    rintro fleet ⟨rfl, hfleet⟩
    exact ⟨rfl, hfleet⟩
  refine hreason.bind fun reason => ?_
  rintro fleet ⟨rfl, hfleet⟩
  exact hfleet

theorem preserves_removeUnwanted (hcalm : Calm answers invariant) (agentName : AgentName) :
    Preserves invariant (removeUnwanted answers agentName) := by
  unfold removeUnwanted
  split
  case h_1 => exact preserves_pure _
  case h_2 spec hspec =>
    refine (preserves_attempt _).bind fun _ => preserves_get_bind fun fleet hfleet => ?_
    refine (preserves_clearRequests hcalm.toSteady _).bind fun _ => ?_
    refine Preserves.bind (preserves_forM fun record hrecord => ?_) fun _ => preserves_pure _
    obtain ⟨hmem, hlisted, -⟩ := mem_listReplicas.mp hrecord
    rw [Bool.and_eq_true, decide_eq_true_eq] at hlisted
    rcases hcalm.allows fleet record hfleet hmem with hallows | hwanted
    · exact preserves_removeIfUnwanted hcalm.toSteady hallows
    · apply preserves_removeIfUnwanted_of_wanted hcalm.toSteady hwanted
      · intro hrequested
        exact hwanted.unrequested (List.mem_of_mem_filter hrequested)
      · obtain ⟨spec', hspec', hcounts⟩ := hwanted.counts
        rw [hlisted.1, hspec, Option.some.injEq] at hspec'
        subst hspec'
        exact not_mem_surplusOf hmem hcounts hlisted.1 hwanted.stays ⟨hlisted.2, hwanted.finished⟩

theorem preserves_removeReplicasOfRemovedAgents (hcalm : Calm answers invariant) :
    Preserves invariant (removeReplicasOfRemovedAgents answers) := by
  refine (preserves_attempt _).bind fun _ => preserves_get_bind fun fleet hfleet => ?_
  apply preserves_forM
  intro record hrecord
  obtain ⟨hmem, hremoved, -⟩ := mem_listReplicas.mp hrecord
  rcases hcalm.allows fleet record hfleet hmem with hallows | hwanted
  · exact (preserves_drainReplica hcalm.toSteady hallows).bind fun _ => preserves_pure _
  · obtain ⟨spec, hspec, -⟩ := hwanted.counts
    rw [hspec] at hremoved
    cases hremoved

theorem Calm.unfinished (hcalm : Calm answers invariant) (fleet : Fleet LaunchId ReplicaId)
    (record : Record LaunchId ReplicaId) (hfleet : invariant fleet) (hmem : record ∈ fleet.records)
    (hnone : record.createdAt = none) : Allows invariant record.replicaId := by
  refine (hcalm.allows fleet record hfleet hmem).resolve_right ?_
  intro hwanted
  have hfinished := hwanted.finished
  rw [hnone] at hfinished
  cases hfinished

theorem preserves_terminateMachines (hcalm : Calm answers invariant) {terminated : LaunchId → Bool}
    (hterminated : ∀ fleet record, Wanted answers fleet record →
      terminated record.machine = false) :
    Preserves invariant (terminateMachines answers terminated) := by
  refine (preserves_attempt _).bind fun _ => preserves_get_bind fun fleet hfleet => ?_
  refine Preserves.bind (preserves_forM fun record hrecord => ?_) fun _ => ?_
  · obtain ⟨hmem, hmachine, -⟩ := mem_listReplicas.mp hrecord
    rcases hcalm.allows fleet record hfleet hmem with hallows | hwanted
    · exact preserves_caught
        ((preserves_drainReplica hcalm.toSteady hallows).bind fun _ => preserves_pure _)
    · rw [hterminated fleet record hwanted] at hmachine
      cases hmachine
  · exact preserves_caught
      ((preserves_removeUnfinished hcalm.unfinished).bind fun _ => preserves_attempt _)

variable [DecidableEq LaunchId]

theorem preserves_forgetReplicasOn (hcalm : Calm answers invariant) :
    Preserves invariant (forgetReplicasOn answers) := by
  apply preserves_get_bind
  intro fleet hfleet
  refine Preserves.bind (preserves_forM fun record hrecord => ?_) fun _ => ?_
  · obtain ⟨hmem, hdead⟩ := List.mem_filter.mp hrecord
    rcases hcalm.allows fleet record hfleet hmem with hallows | hwanted
    · exact preserves_modify hallows.deletes
    · exact absurd (List.mem_append_left _ (of_decide_eq_true hdead)) hwanted.machine
  · refine (preserves_attempt _).bind fun _ => preserves_forM fun record _ => ?_
    exact preserves_forget hcalm.toSteady _

/-- Up to the launches of a pass, and from there. -/
theorem triple_reconcile {after : Fleet LaunchId ReplicaId → Prop} (hcalm : Calm answers invariant)
    (hafter : ∀ fleet, invariant fleet → after fleet)
    (hensure : Triple invariant (ensureReplicas answers) (fun _ => after) fun _ => after) :
    Triple invariant (reconcile answers) (fun _ => after) fun _ => after := by
  have hwhile {Value : Type} {program : Pass LaunchId ReplicaId Value}
      (hprogram : Preserves invariant program) :
      Triple invariant program (fun _ => invariant) fun _ => after :=
    hprogram.weaken (fun _ => id) (fun _ _ => id) fun _ => hafter
  have hprovision : Triple invariant (provision answers) (fun _ => after) fun _ => after := by
    refine (hwhile (preserves_attempt _)).bind fun _ => ?_
    refine Triple.bind (triple_onlyIf (fun _ => hwhile ?_) fun _ => id) fun _ =>
      triple_onlyIf (fun _ => hensure) hafter
    apply preserves_terminateMachines hcalm
    intro fleet record hwanted
    exact decide_eq_false fun hsurplus => hwanted.machine (List.mem_append_right _ hsurplus)
  unfold reconcile
  refine (hwhile (preserves_caught ?_)).bind fun _ => ?_
  · refine (preserves_attempt _).bind fun _ => triple_onlyIf (fun _ => ?_) fun _ => id
    exact (preserves_forgetReplicasOn hcalm).bind fun _ => preserves_attempt _
  refine (hwhile (preserves_attempt _)).bind fun _ => ?_
  split
  case isTrue hstopping =>
    refine (hwhile (preserves_terminateMachines hcalm ?_)).imp fun _ => hafter
    intro fleet record hwanted
    rw [hwanted.up] at hstopping
    cases hstopping
  refine (hwhile (preserves_mapM fun agentName _ =>
    preserves_caught (preserves_removeUnwanted hcalm agentName))).bind fun checked => ?_
  refine (triple_onlyIf (fun _ => hwhile (preserves_caught
    (preserves_removeReplicasOfRemovedAgents hcalm))) fun _ => id).bind fun _ => ?_
  refine (hwhile (preserves_caught (preserves_removeUnfinished hcalm.unfinished))).bind fun _ => ?_
  exact triple_onlyIf (fun _ => triple_caught hprovision) hafter

/-- What a pass keeps, an event does. -/
theorem holds_next {holds : Fleet LaunchId ReplicaId → Prop} {answers : Answers agentOf LaunchId}
    {before : Fleet LaunchId ReplicaId → Prop} {fleet : Fleet LaunchId ReplicaId}
    (hpass : Triple before (reconcile answers) (fun _ => holds) fun _ => holds)
    (hfleet : before fleet) : holds (next fleet (.passes answers)) := by
  have hends := hpass fleet hfleet
  rw [next]
  match hrun : (reconcile answers).exec fleet with
  | (.ok _, after) => rwa [hrun] at hends
  | (.error _, after) => rwa [hrun] at hends

end Invariants

end CanyonOS.Reconciler.Passes
