import CanyonOS.Lib.StableSort
import Mathlib

/-!
# Scaling an agent down

The reconcile passes over the replicas of one agent of a provider with a machine per replica, and
over the machines started for the agent. Its replicas are healthy. Of the rest of the deployment a
pass sees whether the machines kept there are up.
-/

namespace CanyonOS.Reconciler

variable {ReplicaId LaunchId Time : Type*}

/-- The record of a launch that has finished. -/
structure Replica (ReplicaId LaunchId Time : Type*) where
  replicaId : ReplicaId
  createdAt : Time
  machine : LaunchId
  /-- `draining_at` is in the record -/
  draining : Bool
deriving DecidableEq

structure Machine (LaunchId Time : Type*) where
  launchId : LaunchId
  launchedAt : Time
  /-- `private_host` is in the record -/
  up : Bool
deriving DecidableEq

structure Fleet (ReplicaId LaunchId Time : Type*) where
  /-- as `list_replicas` lists them -/
  replicas : List (Replica ReplicaId LaunchId Time)
  machines : List (Machine LaunchId Time)

namespace Fleet

variable (fleet : Fleet ReplicaId LaunchId Time)

/-- The replicas that count. -/
def staying : List (Replica ReplicaId LaunchId Time) :=
  fleet.replicas.filter fun replica => !replica.draining

def occupied : List LaunchId :=
  fleet.replicas.map Replica.machine

end Fleet

/-- What a pass meets: which drains have ended, the order of a scan, how the rest of the deployment
is, and what it draws for the machines and replicas it starts. -/
structure Answers (ReplicaId LaunchId Time : Type*) where
  ended : ReplicaId → Bool
  scan : List (Machine LaunchId Time) → List (Machine LaunchId Time)
  scan_perm : ∀ machines, (scan machines).Perm machines
  othersUp : Bool
  /-- the machines whose start has ended before the pass -/
  started : LaunchId → Bool
  /-- a machine still starting, for less than `START_WAIT_SECONDS` -/
  waiting : LaunchId → Bool
  newMachine : ℕ → LaunchId
  newReplica : ℕ → ReplicaId
  now : Time

section Pass

variable [LinearOrder ReplicaId] [DecidableEq LaunchId] [LinearOrder Time]
variable (database : Bool) (desired : ℕ)

/-- `_drain_replica` of a healthy replica. -/
def drainReplica (ended : ReplicaId → Bool) (replica : Replica ReplicaId LaunchId Time) :
    Option (Replica ReplicaId LaunchId Time) :=
  if database || ended replica.replicaId then none else some { replica with draining := true }

/-- Every chosen replica, drained one step. -/
def drainWhere (ended : ReplicaId → Bool) (chosen : Replica ReplicaId LaunchId Time → Bool)
    (replicas : List (Replica ReplicaId LaunchId Time)) :
    List (Replica ReplicaId LaunchId Time) :=
  replicas.filterMap fun replica =>
    if chosen replica then drainReplica database ended replica else some replica

def byAge (first second : Replica ReplicaId LaunchId Time) : Prop :=
  first.createdAt ≤ second.createdAt

instance decidableByAge : DecidableRel (@byAge ReplicaId LaunchId Time _) :=
  fun first second => inferInstanceAs (Decidable (first.createdAt ≤ second.createdAt))

/-- The replicas the count keeps, and those it does not. -/
def keptReplicas (fleet : Fleet ReplicaId LaunchId Time) :
    List (Replica ReplicaId LaunchId Time) :=
  (fleet.staying.insertionSort byAge).take desired

def surplusReplicas (fleet : Fleet ReplicaId LaunchId Time) : List ReplicaId :=
  ((fleet.staying.insertionSort byAge).drop desired).map Replica.replicaId

/-- `_remove_unwanted` -/
def removeUnwanted (ended : ReplicaId → Bool) (fleet : Fleet ReplicaId LaunchId Time) :
    Fleet ReplicaId LaunchId Time :=
  let surplus := surplusReplicas desired fleet
  { fleet with
    replicas := drainWhere database ended
      (fun replica => replica.draining || replica.replicaId ∈ surplus) fleet.replicas }

/-- `start_missing` -/
def startMissing (answers : Answers ReplicaId LaunchId Time)
    (fleet : Fleet ReplicaId LaunchId Time) : Fleet ReplicaId LaunchId Time :=
  { fleet with
    machines := fleet.machines ++ (List.range (desired - fleet.machines.length)).map fun index =>
      { launchId := answers.newMachine index, launchedAt := answers.now, up := false } }

/-- Machines that are up, then those with replicas, then the oldest. -/
def sortKey (occupied : List LaunchId) (machine : Machine LaunchId Time) : Bool ×ₗ Bool ×ₗ Time :=
  toLex (!machine.up, toLex (!decide (machine.launchId ∈ occupied), machine.launchedAt))

def bySortKey (occupied : List LaunchId) (first second : Machine LaunchId Time) : Prop :=
  sortKey occupied first ≤ sortKey occupied second

instance decidableBySortKey (occupied : List LaunchId) :
    DecidableRel (@bySortKey LaunchId Time _ _ occupied) :=
  fun first second => inferInstanceAs (Decidable (sortKey occupied first ≤ sortKey occupied second))

def keptMachines (occupied : List LaunchId) (machines : List (Machine LaunchId Time)) :
    List (Machine LaunchId Time) :=
  (machines.insertionSort (bySortKey occupied)).take desired

/-- `find_surplus`, of machines in the order of its scan. -/
def findSurplus (othersUp : Bool) (occupied : List LaunchId)
    (machines : List (Machine LaunchId Time)) : List LaunchId :=
  let kept := keptMachines desired occupied machines
  if othersUp && kept.all Machine.up then
    (machines.map Machine.launchId).filter fun launchId => launchId ∉ kept.map Machine.launchId
  else []

/-- `_terminate_machines` -/
def terminateMachines (ended : ReplicaId → Bool) (surplus : List LaunchId)
    (fleet : Fleet ReplicaId LaunchId Time) : Fleet ReplicaId LaunchId Time :=
  let replicas := drainWhere database ended (fun replica => replica.machine ∈ surplus)
    fleet.replicas
  let occupied := replicas.map Replica.machine
  { replicas
    machines := fleet.machines.filter fun machine =>
      machine.launchId ∉ surplus || machine.launchId ∈ occupied }

/-- The machines `place` has for the replicas it places one after the other: each takes one. -/
def candidates (waiting : LaunchId → Bool) (surplus : List LaunchId)
    (fleet : Fleet ReplicaId LaunchId Time) : List (Machine LaunchId Time) :=
  fleet.machines.filter fun machine =>
    machine.launchId ∉ surplus && (machine.up || waiting machine.launchId) &&
      machine.launchId ∉ fleet.occupied

def byId (first second : Replica ReplicaId LaunchId Time) : Prop :=
  first.replicaId ≤ second.replicaId

instance decidableById : DecidableRel (@byId ReplicaId LaunchId Time _) :=
  fun first second => inferInstanceAs (Decidable (first.replicaId ≤ second.replicaId))

/-- `ensure_replicas`, when no launch fails. A replica placed on a machine still starting is
launched by a later pass. -/
def ensureReplicas (answers : Answers ReplicaId LaunchId Time) (surplus : List LaunchId)
    (fleet : Fleet ReplicaId LaunchId Time) : Fleet ReplicaId LaunchId Time :=
  let placed := (candidates answers.waiting surplus fleet).take (desired - fleet.staying.length)
  let launched := (placed.filter Machine.up).mapIdx fun index machine =>
    { replicaId := answers.newReplica index, createdAt := answers.now,
      machine := machine.launchId, draining := false }
  { fleet with replicas := launched.foldr (List.orderedInsert byId) fleet.replicas }

def startedMachines (started : LaunchId → Bool) (fleet : Fleet ReplicaId LaunchId Time) :
    Fleet ReplicaId LaunchId Time :=
  { fleet with
    machines := fleet.machines.map fun machine =>
      { machine with up := machine.up || started machine.launchId } }

/-- `_reconcile`: the fleet after each of its steps. -/
def reconcile (answers : Answers ReplicaId LaunchId Time)
    (fleet : Fleet ReplicaId LaunchId Time) : List (Fleet ReplicaId LaunchId Time) :=
  let removed := removeUnwanted database desired answers.ended
    (startedMachines answers.started fleet)
  let missing := startMissing desired answers removed
  let surplus := findSurplus desired answers.othersUp missing.occupied
    (answers.scan missing.machines)
  let terminated := terminateMachines database answers.ended surplus missing
  [removed, missing, terminated, ensureReplicas desired answers surplus terminated]

/-- The fleets passes go through, one pass after the other. -/
def states : List (Answers ReplicaId LaunchId Time) → Fleet ReplicaId LaunchId Time →
    List (Fleet ReplicaId LaunchId Time)
  | [], _ => []
  | answers :: passes, fleet =>
      let steps := reconcile database desired answers fleet
      steps ++ states passes (steps.getLast?.getD fleet)

end Pass

/-! ### What a drain does -/

section Drains

variable {database : Bool} {ended : ReplicaId → Bool}
  {chosen : Replica ReplicaId LaunchId Time → Bool}
  {replicas : List (Replica ReplicaId LaunchId Time)}

theorem mem_drainWhere {replica : Replica ReplicaId LaunchId Time}
    (hmem : replica ∈ drainWhere database ended chosen replicas) :
    ∃ before ∈ replicas, replica.machine = before.machine ∧
      (replica = before ∧ chosen before = false ∨
        replica.draining = true ∧ chosen before = true ∧ database = false) := by
  obtain ⟨before, hbefore, hdrained⟩ := List.mem_filterMap.mp hmem
  refine ⟨before, hbefore, ?_⟩
  cases hchosen : chosen before with
  | false =>
      rw [hchosen, if_neg Bool.false_ne_true, Option.some.injEq] at hdrained
      rw [hdrained]
      exact ⟨rfl, Or.inl ⟨rfl, rfl⟩⟩
  | true =>
      rw [hchosen, if_pos rfl, drainReplica] at hdrained
      split_ifs at hdrained with hgone
      rw [Option.some.injEq] at hdrained
      rw [Bool.or_eq_true, not_or, Bool.not_eq_true] at hgone
      rw [← hdrained]
      exact ⟨rfl, Or.inr ⟨rfl, rfl, hgone.1⟩⟩

/-- Of the replicas that count, those not chosen go on counting. -/
theorem staying_drainWhere :
    (drainWhere database ended chosen replicas).filter (fun replica => !replica.draining) =
      replicas.filter fun replica => !replica.draining && !chosen replica := by
  rw [drainWhere, List.filter_filterMap, ← List.filterMap_eq_filter]
  apply List.filterMap_congr
  intro replica _
  cases hchosen : chosen replica with
  | false => simp [Option.guard, hchosen, Option.filter]
  | true =>
      rw [if_pos rfl, drainReplica]
      split_ifs <;> simp [Option.guard, hchosen, Option.filter]

theorem sublist_drainWhere :
    ((drainWhere database ended chosen replicas).map Replica.replicaId).Sublist
      (replicas.map Replica.replicaId) := by
  induction replicas with
  | nil => exact List.Sublist.refl _
  | cons replica replicas ih =>
      rw [drainWhere] at ih ⊢
      rw [List.filterMap_cons, List.map_cons]
      cases hchosen : chosen replica with
      | false =>
          simp only [Bool.false_eq_true, if_false]
          exact ih.cons_cons _
      | true =>
          simp only [if_true, drainReplica]
          by_cases hgone : (database || ended replica.replicaId) = true
          · simp only [if_pos hgone]
            exact ih.cons _
          · simp only [if_neg hgone]
            exact ih.cons_cons _

theorem occupied_drainWhere {ended : ReplicaId → Bool}
    {chosen : Replica ReplicaId LaunchId Time → Bool}
    {replicas : List (Replica ReplicaId LaunchId Time)} :
    ∀ launchId ∈ (drainWhere database ended chosen replicas).map Replica.machine,
      launchId ∈ replicas.map Replica.machine := by
  intro launchId hmem
  obtain ⟨replica, hreplica, rfl⟩ := List.mem_map.mp hmem
  obtain ⟨before, hbefore, hmachine, _⟩ := mem_drainWhere hreplica
  rw [hmachine]
  exact List.mem_map_of_mem hbefore

end Drains

section Starts

variable {desired : ℕ} {fleet : Fleet ReplicaId LaunchId Time}

theorem startedMachines_eq (started : LaunchId → Bool)
    (hup : ∀ machine ∈ fleet.machines, machine.up = true) :
    startedMachines started fleet = fleet := by
  have hmap : fleet.machines.map (fun machine =>
      { machine with up := machine.up || started machine.launchId }) = fleet.machines := by
    calc
      fleet.machines.map (fun machine =>
          { machine with up := machine.up || started machine.launchId }) =
        fleet.machines.map id := by
          apply List.map_congr_left
          intro machine hmem
          rw [hup machine hmem, Bool.true_or, ← hup machine hmem]
          rfl
      _ = fleet.machines := List.map_id _
  rw [startedMachines, hmap]

theorem startMissing_eq (answers : Answers ReplicaId LaunchId Time)
    (henough : desired ≤ fleet.machines.length) : startMissing desired answers fleet = fleet := by
  rw [startMissing, Nat.sub_eq_zero_of_le henough, List.range_zero, List.map_nil, List.append_nil]

end Starts

/-! ### A fleet that keeps its replicas -/

section Keeping

variable [DecidableEq LaunchId] [LinearOrder Time]
variable (desired : ℕ) (fleet : Fleet ReplicaId LaunchId Time)

/-- The machines with replicas that were launched no later than this one. -/
def Fleet.earlier (machine : Machine LaunchId Time) : List (Machine LaunchId Time) :=
  fleet.machines.filter fun other =>
    decide (other.launchId ∈ fleet.occupied) && decide (other.launchedAt ≤ machine.launchedAt)

/-- The records are of different replicas and machines, and every machine is up. -/
structure Fleet.Sound : Prop where
  replicaIds : (fleet.replicas.map Replica.replicaId).Nodup
  launchIds : (fleet.machines.map Machine.launchId).Nodup
  up : ∀ machine ∈ fleet.machines, machine.up = true
  enough : desired ≤ fleet.machines.length

/-- The replica's machine is among the first the count keeps. -/
def Fleet.Safe (replica : Replica ReplicaId LaunchId Time) : Prop :=
  ∃ machine ∈ fleet.machines, machine.launchId = replica.machine ∧
    (fleet.earlier machine).length ≤ desired

/-- Just the desired replicas count, each on a machine that is kept. -/
structure Settled : Prop extends fleet.Sound desired where
  staying : fleet.staying.length = desired
  safe : ∀ replica ∈ fleet.staying, fleet.Safe desired replica

variable {desired fleet}

/-- With fewer replicas and machines a machine is no later among those with replicas. -/
theorem Fleet.Safe.mono {after : Fleet ReplicaId LaunchId Time}
    {replica : Replica ReplicaId LaunchId Time} (hsafe : fleet.Safe desired replica)
    (hoccupied : ∀ launchId ∈ after.occupied, launchId ∈ fleet.occupied)
    (hmachines : after.machines.Sublist fleet.machines)
    (hstays : ∀ machine ∈ fleet.machines, machine.launchId = replica.machine →
      machine ∈ after.machines) :
    after.Safe desired replica := by
  obtain ⟨machine, hmem, hmachine, hcount⟩ := hsafe
  refine ⟨machine, hstays machine hmem hmachine, hmachine, ?_⟩
  have hsub : (after.earlier machine).Sublist (fleet.earlier machine) := by
    apply (hmachines.filter _).trans
    apply List.monotone_filter_right
    intro other hother
    rw [Bool.and_eq_true, decide_eq_true_eq, decide_eq_true_eq] at hother ⊢
    exact ⟨hoccupied _ hother.1, hother.2⟩
  exact hsub.length_le.trans hcount

end Keeping

section Steps

variable [LinearOrder Time] {database : Bool} {desired : ℕ}
  {fleet : Fleet ReplicaId LaunchId Time}

theorem perm_staying : (fleet.staying.insertionSort byAge).Perm fleet.staying :=
  List.perm_insertionSort _ _

theorem mem_staying_of_mem_kept {replica : Replica ReplicaId LaunchId Time}
    (hmem : replica ∈ keptReplicas desired fleet) : replica ∈ fleet.staying :=
  perm_staying.mem_iff.mp (List.mem_of_mem_take hmem)

theorem nodup_staying (hids : (fleet.replicas.map Replica.replicaId).Nodup) :
    ((fleet.staying.insertionSort byAge).map Replica.replicaId).Nodup := by
  apply (perm_staying.map Replica.replicaId).nodup_iff.mpr
  exact hids.sublist (List.filter_sublist.map Replica.replicaId)

theorem length_kept (hstaying : desired ≤ fleet.staying.length) :
    (keptReplicas desired fleet).length = desired := by
  rw [keptReplicas, List.length_take_of_le]
  rw [perm_staying.length_eq]
  exact hstaying

/-- All that count are kept where no more count than are desired. -/
theorem mem_kept_of_mem_staying (hstaying : fleet.staying.length = desired)
    {replica : Replica ReplicaId LaunchId Time} (hmem : replica ∈ fleet.staying) :
    replica ∈ keptReplicas desired fleet := by
  rw [keptReplicas, List.take_of_length_le]
  · exact perm_staying.mem_iff.mpr hmem
  · rw [perm_staying.length_eq, hstaying]

variable [LinearOrder ReplicaId]

/-- What counts after `_remove_unwanted` is what the count keeps. -/
theorem staying_removeUnwanted (ended : ReplicaId → Bool)
    (hids : (fleet.replicas.map Replica.replicaId).Nodup) :
    (removeUnwanted database desired ended fleet).staying.Perm (keptReplicas desired fleet) := by
  have hnodup := nodup_staying hids
  have hsplit := List.take_append_drop desired (fleet.staying.insertionSort byAge)
  rw [← hsplit, List.map_append, List.nodup_append] at hnodup
  obtain ⟨_, _, hdisjoint⟩ := hnodup
  have hstaying : (removeUnwanted database desired ended fleet).staying =
      fleet.staying.filter fun replica => replica.replicaId ∉ surplusReplicas desired fleet := by
    rw [Fleet.staying, removeUnwanted, staying_drainWhere, Fleet.staying, List.filter_filter]
    apply List.filter_congr
    intro replica _
    cases replica.draining <;> simp
  have hkept : (keptReplicas desired fleet).filter
      (fun replica => replica.replicaId ∉ surplusReplicas desired fleet) =
      keptReplicas desired fleet := by
    apply List.filter_eq_self.mpr
    intro replica hmem
    apply decide_eq_true
    intro hsurplus
    exact hdisjoint _ (List.mem_map_of_mem hmem) _ hsurplus rfl
  have hdropped : ((fleet.staying.insertionSort byAge).drop desired).filter
      (fun replica => replica.replicaId ∉ surplusReplicas desired fleet) = [] := by
    apply List.filter_eq_nil_iff.mpr
    intro replica hmem
    rw [decide_eq_true_eq, not_not]
    exact List.mem_map_of_mem hmem
  have hsorted : (fleet.staying.insertionSort byAge).filter
      (fun replica => replica.replicaId ∉ surplusReplicas desired fleet) =
      keptReplicas desired fleet := by
    rw [← hsplit, List.filter_append, hdropped, List.append_nil]
    exact hkept
  rw [hstaying, ← hsorted]
  exact (perm_staying.filter _).symm

variable [DecidableEq LaunchId]

/-- Every replica the count keeps is on a machine of the fleet, and on a kept one unless those the
count drops are gone at once. -/
structure Ready (database : Bool) (desired : ℕ) (fleet : Fleet ReplicaId LaunchId Time) : Prop
    extends fleet.Sound desired where
  staying : desired ≤ fleet.staying.length
  placed : ∀ replica ∈ keptReplicas desired fleet, ∃ machine ∈ fleet.machines,
    machine.launchId = replica.machine
  safe : database = true ∨ ∀ replica ∈ keptReplicas desired fleet, fleet.Safe desired replica

omit [LinearOrder ReplicaId] in
theorem Settled.ready (hsettled : Settled desired fleet) : Ready database desired fleet where
  toSound := hsettled.toSound
  staying := hsettled.staying.ge
  placed := by
    intro replica hmem
    obtain ⟨machine, hmachine, heq, _⟩ := hsettled.safe replica (mem_staying_of_mem_kept hmem)
    exact ⟨machine, hmachine, heq⟩
  safe := Or.inr fun replica hmem => hsettled.safe replica (mem_staying_of_mem_kept hmem)

/-- A database's replicas that are dropped are gone at once, and with them what stood on their
machines. -/
theorem earlier_le_of_database (ended : ReplicaId → Bool) (hready : Ready true desired fleet)
    (machine : Machine LaunchId Time) :
    ((removeUnwanted true desired ended fleet).earlier machine).length ≤ desired := by
  have hstaying : (removeUnwanted true desired ended fleet).staying =
      (removeUnwanted true desired ended fleet).replicas := by
    apply List.filter_eq_self.mpr
    intro replica hmem
    obtain ⟨before, _, _, ⟨rfl, hchosen⟩ | ⟨_, _, hdatabase⟩⟩ := mem_drainWhere hmem
    · rw [Bool.or_eq_false_iff] at hchosen
      rw [hchosen.1]
      rfl
    · cases hdatabase
  have hids : ((removeUnwanted true desired ended fleet).earlier machine |>.map
      Machine.launchId).Nodup :=
    hready.launchIds.sublist (List.filter_sublist.map Machine.launchId)
  have hsub : (removeUnwanted true desired ended fleet).earlier machine |>.map
      Machine.launchId |>.Subset (removeUnwanted true desired ended fleet).occupied := by
    intro launchId hmem
    obtain ⟨other, hother, rfl⟩ := List.mem_map.mp hmem
    have hoccupied := (List.mem_filter.mp hother).2
    rw [Bool.and_eq_true, decide_eq_true_eq] at hoccupied
    exact hoccupied.1
  have hlength := (List.subperm_of_subset hids hsub).length_le
  rw [List.length_map, Fleet.occupied, List.length_map, ← hstaying,
    (staying_removeUnwanted ended hready.replicaIds).length_eq,
    length_kept hready.staying] at hlength
  exact hlength

theorem settled_removeUnwanted (ended : ReplicaId → Bool) (hready : Ready database desired fleet) :
    Settled desired (removeUnwanted database desired ended fleet) where
  replicaIds := hready.replicaIds.sublist sublist_drainWhere
  launchIds := hready.launchIds
  up := hready.up
  enough := hready.enough
  staying := by
    rw [(staying_removeUnwanted ended hready.replicaIds).length_eq, length_kept hready.staying]
  safe := by
    intro replica hmem
    have hkept := (staying_removeUnwanted ended hready.replicaIds).mem_iff.mp hmem
    cases database with
    | true =>
        obtain ⟨machine, hmachine, heq⟩ := hready.placed replica hkept
        exact ⟨machine, hmachine, heq, earlier_le_of_database ended hready machine⟩
    | false =>
        have hsafe := hready.safe.resolve_left Bool.false_ne_true replica hkept
        exact hsafe.mono occupied_drainWhere (List.Sublist.refl _) fun _ hmachine _ => hmachine

end Steps

/-! ### Machines that are kept -/

section Kept

variable [DecidableEq LaunchId] [LinearOrder Time] {desired : ℕ}
  {fleet : Fleet ReplicaId LaunchId Time}

instance total_bySortKey (occupied : List LaunchId) :
    Std.Total (@bySortKey LaunchId Time _ _ occupied) where
  total := fun first second => le_total (sortKey occupied first) (sortKey occupied second)

instance trans_bySortKey (occupied : List LaunchId) :
    IsTrans (Machine LaunchId Time) (bySortKey occupied) where
  trans := fun _ _ _ hfirst hsecond => le_trans hfirst hsecond

/-- Among machines that are up, only those with replicas come before one with replicas. -/
theorem bySortKey_iff {occupied : List LaunchId} {first second : Machine LaunchId Time}
    (hfirst : first.up = true) (hsecond : second.up = true)
    (hoccupied : second.launchId ∈ occupied) :
    bySortKey occupied first second ↔
      first.launchId ∈ occupied ∧ first.launchedAt ≤ second.launchedAt := by
  rw [bySortKey, sortKey, sortKey, hfirst, hsecond, decide_eq_true hoccupied, Prod.Lex.le_iff,
    Prod.Lex.le_iff]
  by_cases hmem : first.launchId ∈ occupied
  · simp [hmem]
  · simp [hmem]

theorem filter_bySortKey (hup : ∀ machine ∈ fleet.machines, machine.up = true)
    {machine : Machine LaunchId Time} (hmem : machine ∈ fleet.machines)
    (hoccupied : machine.launchId ∈ fleet.occupied) :
    (fleet.machines.filter fun other => bySortKey fleet.occupied other machine) =
      fleet.earlier machine := by
  apply List.filter_congr
  intro other hother
  rw [← Bool.decide_and]
  exact decide_eq_decide.mpr (bySortKey_iff (hup other hother) (hup machine hmem) hoccupied)

/-- The machine of a replica that is safe is kept. -/
theorem mem_keptMachines (hsound : fleet.Sound desired) {replica : Replica ReplicaId LaunchId Time}
    (hmem : replica ∈ fleet.replicas) (hsafe : fleet.Safe desired replica)
    {scanned : List (Machine LaunchId Time)} (hscan : scanned.Perm fleet.machines) :
    ∃ machine ∈ keptMachines desired fleet.occupied scanned,
      machine.launchId = replica.machine := by
  obtain ⟨machine, hmachine, heq, hcount⟩ := hsafe
  have hoccupied : machine.launchId ∈ fleet.occupied := by
    rw [heq]
    exact List.mem_map_of_mem hmem
  refine ⟨machine, ?_, heq⟩
  apply StableSort.mem_take_insertionSort (hscan.mem_iff.mpr hmachine)
  rw [(hscan.filter _).length_eq, filter_bySortKey hsound.up hmachine hoccupied]
  exact hcount

theorem not_mem_findSurplus {othersUp : Bool} {occupied : List LaunchId}
    {machines : List (Machine LaunchId Time)} {machine : Machine LaunchId Time}
    (hmem : machine ∈ keptMachines desired occupied machines) :
    machine.launchId ∉ findSurplus desired othersUp occupied machines := by
  rw [findSurplus]
  split_ifs
  · intro hsurplus
    have hnot := of_decide_eq_true (List.mem_filter.mp hsurplus).2
    exact hnot (List.mem_map_of_mem hmem)
  · exact List.not_mem_nil

end Kept

section Runs

variable [LinearOrder ReplicaId] [DecidableEq LaunchId] [LinearOrder Time]
variable {database : Bool} {desired : ℕ} {fleet : Fleet ReplicaId LaunchId Time}

omit [LinearOrder ReplicaId] in
theorem settled_terminateMachines (ended : ReplicaId → Bool) (othersUp : Bool)
    {scanned : List (Machine LaunchId Time)} (hscan : scanned.Perm fleet.machines)
    (hsettled : Settled desired fleet) :
    Settled desired (terminateMachines database ended
      (findSurplus desired othersUp fleet.occupied scanned) fleet) := by
  have hkept : ∀ replica ∈ fleet.staying,
      replica.machine ∉ findSurplus desired othersUp fleet.occupied scanned := by
    intro replica hmem
    obtain ⟨machine, hmachine, heq⟩ := mem_keptMachines hsettled.toSound
      (List.mem_of_mem_filter hmem) (hsettled.safe replica hmem) hscan
    rw [← heq]
    exact not_mem_findSurplus hmachine
  have hstaying : (terminateMachines database ended
      (findSurplus desired othersUp fleet.occupied scanned) fleet).staying = fleet.staying := by
    rw [Fleet.staying, terminateMachines, staying_drainWhere, Fleet.staying]
    apply List.filter_congr
    intro replica hmem
    cases hdraining : replica.draining with
    | true => rfl
    | false =>
        have hcounts : replica ∈ fleet.staying :=
          List.mem_filter.mpr ⟨hmem, by rw [hdraining]; rfl⟩
        rw [decide_eq_false (hkept replica hcounts)]
        rfl
  have hmachines : ∀ machine ∈ fleet.machines,
      machine.launchId ∉ findSurplus desired othersUp fleet.occupied scanned →
      machine ∈ (terminateMachines database ended
        (findSurplus desired othersUp fleet.occupied scanned) fleet).machines := by
    intro machine hmem hnot
    exact List.mem_filter.mpr ⟨hmem, by rw [decide_eq_true hnot, Bool.true_or]⟩
  refine ⟨⟨hsettled.replicaIds.sublist sublist_drainWhere,
    hsettled.launchIds.sublist (List.filter_sublist.map Machine.launchId), ?_, ?_⟩, ?_, ?_⟩
  · intro machine hmem
    exact hsettled.up machine (List.mem_of_mem_filter hmem)
  · have hnodup : (keptMachines desired fleet.occupied scanned).Nodup := by
      apply List.Nodup.sublist (List.take_sublist desired _)
      exact ((List.perm_insertionSort _ scanned).trans hscan).nodup_iff.mpr
        (List.Nodup.of_map Machine.launchId hsettled.launchIds)
    have hsub : keptMachines desired fleet.occupied scanned ⊆ (terminateMachines database ended
        (findSurplus desired othersUp fleet.occupied scanned) fleet).machines := by
      intro machine hmem
      apply hmachines machine _ (not_mem_findSurplus hmem)
      exact ((List.perm_insertionSort _ scanned).trans hscan).mem_iff.mp
        (List.mem_of_mem_take hmem)
    have hlength : (keptMachines desired fleet.occupied scanned).length = desired := by
      rw [keptMachines, List.length_take_of_le]
      rw [((List.perm_insertionSort _ scanned).trans hscan).length_eq]
      exact hsettled.enough
    exact hlength.ge.trans (List.subperm_of_subset hnodup hsub).length_le
  · rw [hstaying, hsettled.staying]
  · rw [hstaying]
    intro replica hmem
    apply (hsettled.safe replica hmem).mono occupied_drainWhere List.filter_sublist
    intro machine hmachine heq
    apply hmachines machine hmachine
    rw [heq]
    exact hkept replica hmem

/-! ### Passes -/

omit [LinearOrder Time] in
theorem ensureReplicas_eq (answers : Answers ReplicaId LaunchId Time) (surplus : List LaunchId)
    (hstaying : fleet.staying.length = desired) :
    ensureReplicas desired answers surplus fleet = fleet := by
  rw [ensureReplicas, hstaying, Nat.sub_self, List.take_zero]
  rfl

/-- What the steps of a pass leave of a fleet that is ready. -/
theorem reconcile_settled (answers : Answers ReplicaId LaunchId Time)
    (hready : Ready database desired fleet) :
    ∀ state ∈ reconcile database desired answers fleet, Settled desired state := by
  have hremoved := settled_removeUnwanted answers.ended hready
  have hterminated : Settled desired (terminateMachines database answers.ended _ _) :=
    settled_terminateMachines answers.ended answers.othersUp (answers.scan_perm _) hremoved
  rw [reconcile, startedMachines_eq answers.started hready.up,
    startMissing_eq answers hremoved.enough, ensureReplicas_eq answers _ hterminated.staying]
  simp only [List.forall_mem_cons]
  exact ⟨hremoved, hremoved, hterminated, hterminated, fun _ hmem => by cases hmem⟩

theorem states_settled (passes : List (Answers ReplicaId LaunchId Time))
    (hready : Ready database desired fleet) :
    ∀ state ∈ states database desired passes fleet, Settled desired state := by
  induction passes generalizing fleet with
  | nil =>
      intro state hmem
      cases hmem
  | cons answers passes ih =>
      have hsteps := reconcile_settled answers hready
      intro state hmem
      rw [states] at hmem
      rcases List.mem_append.mp hmem with hmem | hmem
      · exact hsteps state hmem
      · refine ih (Settled.ready (hsteps _ ?_)) state hmem
        exact List.mem_of_getLast? rfl

/-! ### A pass that drains a replica the count keeps -/

/-- A pass in which no drain ends and whose scan comes to this machine last. -/
def lastScanned (machine : Machine LaunchId Time) (replicaId : ReplicaId) :
    Answers ReplicaId LaunchId Time where
  ended := fun _ => false
  scan := fun machines =>
    machines.filter (fun other => other.launchId ≠ machine.launchId) ++
      machines.filter (fun other => other.launchId = machine.launchId)
  scan_perm := by
    intro machines
    have hperm := List.filter_append_perm
      (fun other : Machine LaunchId Time => decide (other.launchId ≠ machine.launchId)) machines
    simpa using hperm
  othersUp := true
  started := fun _ => false
  waiting := fun _ => false
  newMachine := fun _ => machine.launchId
  newReplica := fun _ => replicaId
  now := machine.launchedAt

omit [LinearOrder ReplicaId] [LinearOrder Time] in
theorem scan_lastScanned (hids : (fleet.machines.map Machine.launchId).Nodup)
    {machine : Machine LaunchId Time} (hmem : machine ∈ fleet.machines) (replicaId : ReplicaId) :
    (lastScanned machine replicaId).scan fleet.machines =
      fleet.machines.filter (fun other => other.launchId ≠ machine.launchId) ++ [machine] := by
  have hsame : (fleet.machines.filter fun other => other.launchId = machine.launchId) =
      [machine] := by
    apply List.perm_singleton.mp
    have hnodup := List.Nodup.of_map Machine.launchId hids
    apply (List.perm_ext_iff_of_nodup (hnodup.filter _) (List.nodup_singleton machine)).mpr
    intro other
    rw [List.mem_filter, decide_eq_true_eq, List.mem_singleton]
    constructor
    · intro ⟨hother, heq⟩
      exact List.inj_on_of_nodup_map hids hother hmem heq
    · rintro rfl
      exact ⟨hmem, rfl⟩
  rw [← hsame]
  rfl

omit [LinearOrder ReplicaId] in
/-- A machine that more than the desired ones come before can be found surplus. -/
theorem mem_findSurplus (hsound : fleet.Sound desired) {machine : Machine LaunchId Time}
    (hmem : machine ∈ fleet.machines) (hoccupied : machine.launchId ∈ fleet.occupied)
    (hlate : desired < (fleet.earlier machine).length) (replicaId : ReplicaId) :
    machine.launchId ∈ findSurplus desired true fleet.occupied
      ((lastScanned machine replicaId).scan fleet.machines) := by
  have hperm := (lastScanned machine replicaId).scan_perm fleet.machines
  have hkept : machine ∉ keptMachines desired fleet.occupied
      ((lastScanned machine replicaId).scan fleet.machines) := by
    rw [scan_lastScanned hsound.launchIds hmem] at hperm ⊢
    apply StableSort.not_mem_take_insertionSort
    · intro hother
      exact of_decide_eq_true (List.mem_filter.mp hother).2 rfl
    · have hlength := (hperm.filter fun other => bySortKey fleet.occupied other machine).length_eq
      rw [filter_bySortKey hsound.up hmem hoccupied, List.filter_append, List.length_append]
        at hlength
      have hone := List.length_filter_le
        (fun other => decide (bySortKey fleet.occupied other machine)) [machine]
      rw [List.length_singleton] at hone
      omega
  have hscanned : ∀ other ∈ keptMachines desired fleet.occupied
      ((lastScanned machine replicaId).scan fleet.machines), other ∈ fleet.machines := by
    intro other hother
    exact ((List.perm_insertionSort _ _).trans hperm).mem_iff.mp (List.mem_of_mem_take hother)
  have hup : (keptMachines desired fleet.occupied
      ((lastScanned machine replicaId).scan fleet.machines)).all Machine.up = true :=
    List.all_eq_true.mpr fun other hother => hsound.up other (hscanned other hother)
  rw [findSurplus, hup, Bool.and_self, if_pos rfl]
  refine List.mem_filter.mpr ⟨List.mem_map_of_mem (hperm.mem_iff.mpr hmem), decide_eq_true ?_⟩
  intro hsame
  obtain ⟨other, hother, heq⟩ := List.mem_map.mp hsame
  have hsame := List.inj_on_of_nodup_map hsound.launchIds (hscanned other hother) hmem heq
  rw [hsame] at hother
  exact hkept hother

omit [DecidableEq LaunchId] in
theorem occupied_removeUnwanted (desired : ℕ) :
    (removeUnwanted false desired (fun _ => false) fleet).occupied = fleet.occupied := by
  have hmachine : ∀ chosen : Replica ReplicaId LaunchId Time → Bool,
      (drainWhere false (fun _ => false) chosen fleet.replicas).map Replica.machine =
        fleet.replicas.map Replica.machine := by
    intro chosen
    rw [drainWhere, List.map_filterMap, ← List.filterMap_eq_map]
    apply List.filterMap_congr
    intro replica _
    cases chosen replica <;> rfl
  exact hmachine _

/-- A pass takes a replica that the count keeps off a machine that it does not. -/
theorem exists_staying_lt (hsound : fleet.Sound desired) (hstaying : desired ≤ fleet.staying.length)
    {replica : Replica ReplicaId LaunchId Time} (hkept : replica ∈ keptReplicas desired fleet)
    {machine : Machine LaunchId Time} (hmem : machine ∈ fleet.machines)
    (heq : machine.launchId = replica.machine)
    (hlate : desired < (fleet.earlier machine).length) :
    ∃ state ∈ states false desired [lastScanned machine replica.replicaId] fleet,
      state.staying.length < desired := by
  let removed := removeUnwanted false desired (fun _ => false) fleet
  let surplus := findSurplus desired true removed.occupied
    ((lastScanned machine replica.replicaId).scan removed.machines)
  have hperm : removed.staying.Perm (keptReplicas desired fleet) :=
    staying_removeUnwanted (fun _ => false) hsound.replicaIds
  have hoccupied : machine.launchId ∈ fleet.occupied := by
    rw [heq]
    exact List.mem_map_of_mem (List.mem_of_mem_filter (mem_staying_of_mem_kept hkept))
  have hsurplus : machine.launchId ∈ surplus := by
    have hfound := mem_findSurplus hsound hmem hoccupied hlate replica.replicaId
    rw [← occupied_removeUnwanted desired] at hfound
    exact hfound
  refine ⟨terminateMachines false (fun _ => false) surplus removed, ?_, ?_⟩
  · have hmissing : startMissing desired (lastScanned machine replica.replicaId)
        (removeUnwanted false desired (lastScanned machine replica.replicaId).ended fleet) =
          removed := startMissing_eq _ hsound.enough
    rw [states, reconcile, startedMachines_eq _ hsound.up, hmissing]
    exact List.mem_append_left _ (List.mem_cons_of_mem _ (List.mem_cons_of_mem _
      List.mem_cons_self))
  · calc
      (terminateMachines false (fun _ => false) surplus removed).staying.length =
          (removed.staying.filter fun other => other.machine ∉ surplus).length := by
        rw [Fleet.staying, terminateMachines, staying_drainWhere, Fleet.staying,
          List.filter_filter]
        congr 1
        apply List.filter_congr
        intro other _
        rw [decide_not, Bool.and_comm]
      _ < removed.staying.length := by
        apply List.length_filter_lt_length_iff_exists.mpr
        refine ⟨replica, hperm.mem_iff.mpr hkept, ?_⟩
        rw [decide_eq_true_eq, not_not, ← heq]
        exact hsurplus
      _ = desired := by rw [hperm.length_eq, length_kept hstaying]

/-! ### When scaling down drains the surplus only -/

/-- Healthy replicas of the agent, each on one of as many machines that are up. -/
structure Deployed (fleet : Fleet ReplicaId LaunchId Time) : Prop where
  replicaIds : (fleet.replicas.map Replica.replicaId).Nodup
  launchIds : (fleet.machines.map Machine.launchId).Nodup
  staying : ∀ replica ∈ fleet.replicas, replica.draining = false
  up : ∀ machine ∈ fleet.machines, machine.up = true
  placed : ∀ replica ∈ fleet.replicas, ∃ machine ∈ fleet.machines,
    machine.launchId = replica.machine
  machines : fleet.machines.length = fleet.replicas.length

/-- Once the count is lowered, at least so many replicas stay at every step of every later pass
just where the replicas it keeps are on the machines that it keeps, or the agent is a database. -/
theorem staying_iff (hdeployed : Deployed fleet) (hlower : desired ≤ fleet.replicas.length) :
    (∀ passes : List (Answers ReplicaId LaunchId Time),
        ∀ state ∈ states database desired passes fleet, desired ≤ state.staying.length) ↔
      database = true ∨ ∀ replica ∈ keptReplicas desired fleet, ∀ machine ∈ fleet.machines,
        machine.launchId = replica.machine → (fleet.earlier machine).length ≤ desired := by
  have hstaying : fleet.staying = fleet.replicas := by
    apply List.filter_eq_self.mpr
    intro replica hmem
    rw [hdeployed.staying replica hmem]
    rfl
  have hcount : desired ≤ fleet.staying.length := by
    rw [hstaying]
    exact hlower
  have hsound : fleet.Sound desired :=
    ⟨hdeployed.replicaIds, hdeployed.launchIds, hdeployed.up, hdeployed.machines.ge.trans' hlower⟩
  have hplaced : ∀ replica ∈ keptReplicas desired fleet, ∃ machine ∈ fleet.machines,
      machine.launchId = replica.machine := by
    intro replica hmem
    exact hdeployed.placed replica (List.mem_of_mem_filter (mem_staying_of_mem_kept hmem))
  constructor
  · intro hruns
    by_contra hnot
    rw [not_or] at hnot
    obtain ⟨hdatabase, hunsafe⟩ := hnot
    push Not at hunsafe
    obtain ⟨replica, hkept, machine, hmem, heq, hlate⟩ := hunsafe
    rw [Bool.not_eq_true] at hdatabase
    subst hdatabase
    obtain ⟨state, hstate, hfew⟩ := exists_staying_lt hsound hcount hkept hmem heq hlate
    have henough := hruns _ state hstate
    omega
  · intro hsafe passes state hmem
    have hready : Ready database desired fleet := by
      refine ⟨hsound, hcount, hplaced, hsafe.imp_right ?_⟩
      intro hsafe replica hkept
      obtain ⟨machine, hmachine, heq⟩ := hplaced replica hkept
      exact ⟨machine, hmachine, heq, hsafe replica hkept machine hmachine heq⟩
    exact (states_settled passes hready state hmem).staying.ge

end Runs

/-- Two replicas, the older one on the machine launched first. -/
def alignedFleet : Fleet ℕ ℕ ℕ where
  replicas := [{ replicaId := 0, createdAt := 10, machine := 0, draining := false },
    { replicaId := 1, createdAt := 20, machine := 1, draining := false }]
  machines := [{ launchId := 0, launchedAt := 1, up := true },
    { launchId := 1, launchedAt := 2, up := true }]

/-- The older replica on the machine launched last, as after its first machine was replaced. -/
def crossedFleet : Fleet ℕ ℕ ℕ where
  replicas := [{ replicaId := 0, createdAt := 10, machine := 1, draining := false },
    { replicaId := 1, createdAt := 20, machine := 0, draining := false }]
  machines := [{ launchId := 0, launchedAt := 1, up := true },
    { launchId := 1, launchedAt := 2, up := true }]

theorem staying_alignedFleet : Deployed alignedFleet ∧ ∀ passes : List (Answers ℕ ℕ ℕ),
    ∀ state ∈ states false 1 passes alignedFleet, 1 ≤ state.staying.length := by
  have hdeployed : Deployed alignedFleet := by
    constructor <;> decide
  exact ⟨hdeployed, (staying_iff hdeployed (by decide)).mpr (Or.inr (by decide))⟩

theorem staying_crossedFleet : ¬ ∀ passes : List (Answers ℕ ℕ ℕ),
    ∀ state ∈ states false 1 passes crossedFleet, 1 ≤ state.staying.length := by
  intro hruns
  have hpass := hruns [lastScanned { launchId := 1, launchedAt := 2, up := true } 0]
  revert hpass
  decide

end CanyonOS.Reconciler
