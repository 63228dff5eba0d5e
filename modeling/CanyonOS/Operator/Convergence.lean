import Mathlib
import CanyonOS.Lib.Inevitable
import CanyonOS.Operator.Rollout

/-!
# Surge updates come to an end

The operator's passes over a StatefulSet and the cluster that obeys them, as one transition system.
The StatefulSet acts on a spec once it has observed it: it creates the pods missing below its
replica count and removes those from it on, in any order.
-/

namespace CanyonOS.Operator

/-- A pod of the StatefulSet. -/
structure Replica where
  ordinal : Nat
  revision : String
  ready : Bool := false
  stopping : Bool := false
  bounded : ordinal < 2 ^ 31
deriving DecidableEq

def conditionFalse : String := "False"

/-- The pod as a pod list shows it. -/
def Replica.pod (workload : String) (replica : Replica) : Pod where
  name := workload ++ "-" ++ Nat.repr replica.ordinal
  revision := replica.revision
  deletionTimestamp := if replica.stopping then some 0 else none
  conditions := [⟨podReady, if replica.ready then conditionTrue else conditionFalse⟩]

/-- The StatefulSet: its replica count, the revision of its template, and what its status says.
`observed` is `ObservedGeneration` having reached `Generation`. -/
structure StatefulSet where
  created : Bool
  replicas : Int32
  template : String
  updateRevision : String
  observed : Bool
deriving DecidableEq

/-- What the agent's spec asks for (`desired` replicas of the revision `wanted`), and what there
is. -/
structure Cluster where
  desired : Int32
  wanted : String
  statefulSet : StatefulSet
  pods : List Replica
deriving DecidableEq

variable {workload : String}

def planWorkload (sortFunc : SortFunc workload) (statefulSet : StatefulSet) (desired : Int32)
    (pods : List Pod) : Rollout :=
  if ¬ statefulSet.created then { replicas := desired }
  else if ¬ statefulSet.observed then
    -- a surge replica already running is kept
    if statefulSet.replicas = desired + 1 ∧ 0 < desired then
      { replicas := statefulSet.replicas, pending := 1 }
    else { replicas := desired }
  else planRollout sortFunc desired statefulSet.updateRevision pods

/-- What writing the spec leaves of the StatefulSet: its status is behind if anything changed. -/
def ensure (statefulSet : StatefulSet) (replicas : Int32) (template : String) : StatefulSet :=
  { statefulSet with
    created := true
    replicas := replicas
    template := template
    observed := statefulSet.observed && statefulSet.created &&
      decide (statefulSet.replicas = replicas) && decide (statefulSet.template = template) }

/-- The pod the plan names is deleted, so it stops. -/
def replaceNext (workload : String) (plan : Rollout) (pods : List Replica) : List Replica :=
  match plan.replace with
  | none => pods
  | some pod =>
      pods.map fun replica =>
        if replica.pod workload = pod then { replica with stopping := true } else replica

def Cluster.plan (sortFunc : SortFunc workload) (cluster : Cluster) : Rollout :=
  planWorkload sortFunc cluster.statefulSet cluster.desired
    (cluster.pods.map (Replica.pod workload))

/-- One pass of the operator. -/
def Cluster.reconcile (sortFunc : SortFunc workload) (cluster : Cluster) : Cluster :=
  let plan := cluster.plan sortFunc
  { cluster with
    statefulSet := ensure cluster.statefulSet plan.replicas cluster.wanted
    pods := replaceNext workload plan cluster.pods }

inductive Move where
  | reconcile
  | observe
  | create (ordinal : Nat)
  | becomeReady (ordinal : Nat)
  | remove (ordinal : Nat)
  | gone (ordinal : Nat)

/-- What happens to the pod of this ordinal. -/
def Cluster.setPod (cluster : Cluster) (ordinal : Nat) (change : Replica → Replica) : Cluster :=
  { cluster with
    pods := cluster.pods.map fun replica =>
      if replica.ordinal = ordinal then change replica else replica }

/-- The StatefulSet acts on its spec. -/
def StatefulSet.Acts (statefulSet : StatefulSet) : Prop :=
  statefulSet.created = true ∧ statefulSet.observed = true

instance (statefulSet : StatefulSet) : Decidable statefulSet.Acts :=
  inferInstanceAs (Decidable (_ ∧ _))

/-- A move that changes nothing is none. -/
def Cluster.step (sortFunc : SortFunc workload) (cluster : Cluster) : Move → Option Cluster
  | .reconcile =>
      let next := cluster.reconcile sortFunc
      if next = cluster then none else some next
  | .observe =>
      if cluster.statefulSet.created ∧ ¬ cluster.statefulSet.observed then
        some { cluster with
          statefulSet := { cluster.statefulSet with
            updateRevision := cluster.statefulSet.template
            observed := true } }
      else none
  | .create ordinal =>
      if hcreate : cluster.statefulSet.Acts ∧ (ordinal : Int) < cluster.statefulSet.replicas.toInt ∧
          ∀ replica ∈ cluster.pods, replica.ordinal ≠ ordinal then
        some { cluster with
          pods := cluster.pods ++
            [{ ordinal := ordinal
               revision := cluster.statefulSet.updateRevision
               bounded := by
                have hlt := Int32.toInt_lt cluster.statefulSet.replicas
                omega }] }
      else none
  | .becomeReady ordinal =>
      if ∃ replica ∈ cluster.pods,
          replica.ordinal = ordinal ∧ replica.ready = false ∧ replica.stopping = false then
        some (cluster.setPod ordinal fun replica => { replica with ready := true })
      else none
  | .remove ordinal =>
      if cluster.statefulSet.Acts ∧ cluster.statefulSet.replicas.toInt ≤ ordinal ∧
          ∃ replica ∈ cluster.pods, replica.ordinal = ordinal ∧ replica.stopping = false then
        some (cluster.setPod ordinal fun replica => { replica with stopping := true })
      else none
  | .gone ordinal =>
      if ∃ replica ∈ cluster.pods, replica.ordinal = ordinal ∧ replica.stopping = true then
        some { cluster with pods := cluster.pods.filter fun replica => replica.ordinal ≠ ordinal }
      else none

def sys (sortFunc : SortFunc workload) : TransitionSystem Cluster Move where
  step := Cluster.step sortFunc

/-! ### What the plan sees of the StatefulSet's pods -/

theorem digits_repr (ordinal : Nat) : digits (Nat.repr ordinal).toList = some ordinal := by
  have hall : (Nat.toDigits 10 ordinal).all Char.isDigit := by
    rw [List.all_eq_true]
    intro digit hdigit
    exact Nat.isDigit_of_mem_toDigits (by decide) (by decide) hdigit
  rw [Nat.toList_repr, digits, if_pos ⟨Nat.toDigits_ne_nil, hall⟩, Nat.ofDigitChars_ten_toDigits]

theorem atoi_repr {ordinal : Nat} (hbounded : ordinal < 2 ^ 31) :
    atoi (Nat.repr ordinal) = some (ordinal : Int) := by
  have hrange : -2 ^ 63 ≤ (ordinal : Int) ∧ (ordinal : Int) < 2 ^ 63 := by omega
  have hdigits := digits_repr ordinal
  have hfirst : ∀ sign rest, (Nat.repr ordinal).toList = sign :: rest → sign.isDigit := by
    intro sign rest htext
    rw [Nat.toList_repr] at htext
    have hmem : sign ∈ Nat.toDigits 10 ordinal := by
      rw [htext]
      exact List.mem_cons_self
    exact Nat.isDigit_of_mem_toDigits (by decide) (by decide) hmem
  unfold atoi
  split
  · rename_i rest htext
    exact absurd (hfirst _ _ htext) (by decide)
  · rename_i rest htext
    exact absurd (hfirst _ _ htext) (by decide)
  · rw [hdigits]
    simp only [Option.map_some, Option.filter, Int.ofNat_eq_natCast, hrange, and_self,
      decide_true, if_true]

@[simp]
theorem pod_revision (replica : Replica) :
    (replica.pod workload).revision = replica.revision := rfl

@[simp]
theorem pod_deletionTimestamp (replica : Replica) :
    (replica.pod workload).deletionTimestamp = none ↔ replica.stopping = false := by
  cases hstopping : replica.stopping <;> simp [Replica.pod, hstopping]

@[simp]
theorem pod_deletionTimestamp_isSome (replica : Replica) :
    (replica.pod workload).deletionTimestamp.isSome = replica.stopping := by
  cases hstopping : replica.stopping <;> simp [Replica.pod, hstopping]

/-- A pod's name gives its ordinal back. -/
theorem podIndex_of_name {pod : Pod} {ordinal : Nat}
    (hname : pod.name = workload ++ "-" ++ Nat.repr ordinal) (hbounded : ordinal < 2 ^ 31) :
    podIndex workload pod = some (ordinal : Int) := by
  have hcut : cutLead pod.name (workload ++ "-") = some (Nat.repr ordinal) := by
    have htext : (workload ++ "-" ++ Nat.repr ordinal).toList =
        (workload ++ "-").toList ++ (Nat.repr ordinal).toList := String.toList_append
    rw [hname, cutLead, htext, if_pos (List.prefix_append _ _), List.drop_left,
      String.ofList_toList]
  rw [podIndex, hcut, Option.bind_some, atoi_repr hbounded]

@[simp]
theorem podIndex_pod (replica : Replica) :
    podIndex workload (replica.pod workload) = some (replica.ordinal : Int) :=
  podIndex_of_name rfl replica.bounded

def Replica.Serving (replica : Replica) : Prop :=
  replica.ready = true ∧ replica.stopping = false

instance (replica : Replica) : Decidable replica.Serving := inferInstanceAs (Decidable (_ ∧ _))

theorem podServing_pod (replica : Replica) :
    podServing (replica.pod workload) = decide replica.Serving := by
  obtain ⟨ordinal, revision, ready, stopping, bounded⟩ := replica
  cases ready <;> cases stopping <;>
    simp [podServing, Replica.pod, Replica.Serving, conditionFalse, conditionTrue]

theorem stopping_pod (replica : Replica) :
    Stopping workload (replica.pod workload) ↔ replica.stopping = true := by
  simp [Stopping, Listed]

theorem servesBelow_pod (desired : Int32) (replica : Replica) :
    ServesBelow desired workload (replica.pod workload) ↔
      (replica.ordinal : Int) < desired.toInt ∧ replica.Serving := by
  simp [ServesBelow, podServing_pod]

theorem surges_pod (desired : Int32) (replica : Replica) :
    Surges desired workload (replica.pod workload) ↔
      desired.toInt ≤ replica.ordinal ∧ replica.stopping = false := by
  simp [Surges]

theorem oldPods_map (revision : String) (pods : List Replica) :
    oldPods revision workload (pods.map (Replica.pod workload)) =
      (pods.filter (·.revision ≠ revision)).map (Replica.pod workload) := by
  rw [oldPods, List.filter_map]
  congr 1
  refine List.filter_congr fun replica _ => ?_
  simp [IsOld, Listed]

theorem newPods_map (revision : String) (pods : List Replica) :
    newPods revision workload (pods.map (Replica.pod workload)) =
      (pods.filter fun replica => replica.revision = revision ∧ replica.stopping = false).map
        (Replica.pod workload) := by
  rw [newPods, List.filter_map]
  congr 1
  refine List.filter_congr fun replica _ => ?_
  simp [IsNew, Listed]

/-! ### What stays true -/

/-- Pods of one ordinal do not exist side by side, and the status that has caught up names the
revision of the template. -/
structure WellFormed (cluster : Cluster) : Prop where
  nodup : (cluster.pods.map Replica.ordinal).Nodup
  nonneg : 0 ≤ cluster.desired.toInt
  small : cluster.desired.toInt + 1 < 2 ^ 31
  wanted : cluster.wanted ≠ ""
  status : cluster.statefulSet.Acts →
    cluster.statefulSet.updateRevision = cluster.statefulSet.template

theorem WellFormed.toInt_surge {cluster : Cluster} (hwell : WellFormed cluster) :
    (cluster.desired + 1).toInt = cluster.desired.toInt + 1 := by
  have hnonneg := hwell.nonneg
  have hsmall := hwell.small
  rw [Int32.toInt_add]
  show (cluster.desired.toInt + 1).bmod 4294967296 = cluster.desired.toInt + 1
  rw [Int.bmod_eq_of_le] <;> omega

/-- The agent's spec may change at any time; what it asks for stays in range. -/
theorem WellFormed.respec {cluster : Cluster} (hwell : WellFormed cluster) {desired : Int32}
    {wanted : String} (hnonneg : 0 ≤ desired.toInt) (hsmall : desired.toInt + 1 < 2 ^ 31)
    (hwanted : wanted ≠ "") :
    WellFormed { cluster with desired := desired, wanted := wanted } :=
  ⟨hwell.nodup, hnonneg, hsmall, hwanted, hwell.status⟩

theorem map_ordinal_map {pods : List Replica} {change : Replica → Replica}
    (hordinal : ∀ replica, (change replica).ordinal = replica.ordinal) :
    (pods.map change).map Replica.ordinal = pods.map Replica.ordinal := by
  rw [List.map_map]
  exact List.map_congr_left fun replica _ => hordinal replica

theorem map_ordinal_replaceNext (plan : Rollout) (pods : List Replica) :
    (replaceNext workload plan pods).map Replica.ordinal = pods.map Replica.ordinal := by
  unfold replaceNext
  split
  · rfl
  · apply map_ordinal_map
    intro replica
    split_ifs <;> rfl

theorem map_ordinal_setPod (cluster : Cluster) (ordinal : Nat) {change : Replica → Replica}
    (hordinal : ∀ replica, (change replica).ordinal = replica.ordinal) :
    (cluster.setPod ordinal change).pods.map Replica.ordinal =
      cluster.pods.map Replica.ordinal := by
  apply map_ordinal_map
  intro replica
  split_ifs
  · exact hordinal replica
  · rfl

variable {sortFunc : SortFunc workload} {cluster next : Cluster}

/-- What each move does, with what enables it. -/
inductive Moved (sortFunc : SortFunc workload) (cluster : Cluster) : Move → Cluster → Prop
  | reconcile : cluster.reconcile sortFunc ≠ cluster →
      Moved sortFunc cluster .reconcile (cluster.reconcile sortFunc)
  | observe : cluster.statefulSet.created = true → cluster.statefulSet.observed = false →
      Moved sortFunc cluster .observe
        { cluster with
          statefulSet := { cluster.statefulSet with
            updateRevision := cluster.statefulSet.template
            observed := true } }
  | create (replica : Replica) : cluster.statefulSet.Acts →
      (replica.ordinal : Int) < cluster.statefulSet.replicas.toInt →
      (∀ other ∈ cluster.pods, other.ordinal ≠ replica.ordinal) →
      replica.revision = cluster.statefulSet.updateRevision → replica.ready = false →
      replica.stopping = false →
      Moved sortFunc cluster (.create replica.ordinal)
        { cluster with pods := cluster.pods ++ [replica] }
  | becomeReady (replica : Replica) : replica ∈ cluster.pods → replica.ready = false →
      replica.stopping = false →
      Moved sortFunc cluster (.becomeReady replica.ordinal)
        (cluster.setPod replica.ordinal fun replica => { replica with ready := true })
  | remove (replica : Replica) : cluster.statefulSet.Acts →
      cluster.statefulSet.replicas.toInt ≤ replica.ordinal → replica ∈ cluster.pods →
      replica.stopping = false →
      Moved sortFunc cluster (.remove replica.ordinal)
        (cluster.setPod replica.ordinal fun replica => { replica with stopping := true })
  | gone (replica : Replica) : replica ∈ cluster.pods → replica.stopping = true →
      Moved sortFunc cluster (.gone replica.ordinal)
        { cluster with
          pods := cluster.pods.filter fun other => other.ordinal ≠ replica.ordinal }

theorem moved_of_step {move : Move} (hstep : cluster.step sortFunc move = some next) :
    Moved sortFunc cluster move next := by
  cases move with
  | reconcile =>
      simp only [Cluster.step] at hstep
      split_ifs at hstep with hsame
      cases hstep
      exact .reconcile hsame
  | observe =>
      simp only [Cluster.step] at hstep
      split_ifs at hstep with henabled
      cases hstep
      exact .observe henabled.1 (by simpa using henabled.2)
  | create ordinal =>
      simp only [Cluster.step] at hstep
      split_ifs at hstep with henabled
      cases hstep
      obtain ⟨hacts, hbelow, hfresh⟩ := henabled
      exact .create ⟨ordinal, _, false, false, _⟩ hacts hbelow hfresh rfl rfl rfl
  | becomeReady ordinal =>
      simp only [Cluster.step] at hstep
      split_ifs at hstep with henabled
      cases hstep
      obtain ⟨replica, hmem, rfl, hready, hstopping⟩ := henabled
      exact .becomeReady replica hmem hready hstopping
  | remove ordinal =>
      simp only [Cluster.step] at hstep
      split_ifs at hstep with henabled
      cases hstep
      obtain ⟨hacts, hbeyond, replica, hmem, rfl, hstopping⟩ := henabled
      exact .remove replica hacts hbeyond hmem hstopping
  | gone ordinal =>
      simp only [Cluster.step] at hstep
      split_ifs at hstep with henabled
      cases hstep
      obtain ⟨replica, hmem, rfl, hstopping⟩ := henabled
      exact .gone replica hmem hstopping

theorem WellFormed.step {move : Move} (hwell : WellFormed cluster)
    (hstep : cluster.step sortFunc move = some next) : WellFormed next := by
  obtain ⟨hnodup, hnonneg, hsmall, hwanted, hstatus⟩ := hwell
  cases moved_of_step hstep with
  | reconcile =>
      refine ⟨?_, hnonneg, hsmall, hwanted, ?_⟩
      · exact (map_ordinal_replaceNext _ _).symm ▸ hnodup
      · intro hacts
        have hobserved : (ensure cluster.statefulSet (cluster.plan sortFunc).replicas
            cluster.wanted).observed = true := hacts.2
        simp only [ensure, Bool.and_eq_true, decide_eq_true_eq] at hobserved
        obtain ⟨⟨⟨hobserved, hcreated⟩, -⟩, htemplate⟩ := hobserved
        exact (hstatus ⟨hcreated, hobserved⟩).trans htemplate
  | observe => exact ⟨hnodup, hnonneg, hsmall, hwanted, fun _ => rfl⟩
  | create replica _ _ hfresh =>
      refine ⟨?_, hnonneg, hsmall, hwanted, hstatus⟩
      rw [List.map_append]
      refine hnodup.append (List.nodup_singleton _) ?_
      rw [List.disjoint_comm, List.map_singleton, List.singleton_disjoint, List.mem_map]
      rintro ⟨other, hmem, heq⟩
      exact hfresh other hmem heq
  | becomeReady replica =>
      refine ⟨?_, hnonneg, hsmall, hwanted, hstatus⟩
      rw [map_ordinal_setPod]
      · exact hnodup
      · exact fun _ => rfl
  | remove replica =>
      refine ⟨?_, hnonneg, hsmall, hwanted, hstatus⟩
      rw [map_ordinal_setPod]
      · exact hnodup
      · exact fun _ => rfl
  | gone replica =>
      exact ⟨hnodup.sublist (List.filter_sublist.map _), hnonneg, hsmall, hwanted, hstatus⟩

/-! ### What is left to do -/

def Cluster.HasOld (cluster : Cluster) : Prop :=
  ∃ replica ∈ cluster.pods, replica.revision ≠ cluster.statefulSet.template

/-- Nothing calls for a surge replica once no old pod is left: none runs, or enough others serve. -/
def Cluster.Settled (cluster : Cluster) : Prop :=
  (∃ replica ∈ cluster.pods,
    cluster.desired.toInt ≤ replica.ordinal ∧ replica.stopping = false) →
  cluster.desired.toInt ≤ (cluster.pods.countP fun replica =>
    (replica.ordinal : Int) < cluster.desired.toInt ∧ replica.Serving : Nat)

instance (cluster : Cluster) : Decidable cluster.HasOld := inferInstanceAs (Decidable (∃ _ ∈ _, _))

instance (cluster : Cluster) : Decidable cluster.Settled := inferInstanceAs (Decidable (_ → _))

/-- How often the replica count may still change. -/
def Cluster.phase (cluster : Cluster) : Nat :=
  if cluster.desired = 0 then if cluster.statefulSet.replicas = 0 then 0 else 1
  else if cluster.HasOld then
    if cluster.statefulSet.replicas = cluster.desired + 1 then 4
    else if cluster.statefulSet.replicas = cluster.desired then 5
    else 6
  else if cluster.statefulSet.replicas = cluster.desired + 1 then 1
  else if cluster.statefulSet.replicas = cluster.desired then if cluster.Settled then 0 else 2
  else 3

/-- How many moves a pod can still make, at this count and template. -/
def Replica.weight (template : String) (replicas : Int32) (replica : Replica) : Nat :=
  if replicas.toInt ≤ replica.ordinal then
    if replica.stopping then 1 else if replica.ready then 2 else 3
  else if replica.stopping then 3
  else if replica.revision = template then if replica.ready then 0 else 1
  else if replica.ready then 4 else 5

def Cluster.missing (cluster : Cluster) : Finset Nat :=
  (Finset.range cluster.statefulSet.replicas.toInt.toNat).filter fun ordinal =>
    ∀ replica ∈ cluster.pods, replica.ordinal ≠ ordinal

/-- How many moves the pods can still make: a missing one is created and gets ready. -/
def Cluster.work (cluster : Cluster) : Nat :=
  (cluster.pods.map
    (Replica.weight cluster.statefulSet.template cluster.statefulSet.replicas)).sum +
    2 * cluster.missing.card

/-- The operator has not written the agent's template yet. -/
def Cluster.Behind (cluster : Cluster) : Prop :=
  ¬ (cluster.statefulSet.created = true ∧ cluster.statefulSet.template = cluster.wanted)

instance (cluster : Cluster) : Decidable cluster.Behind := inferInstanceAs (Decidable (¬ _))

def Cluster.rank (cluster : Cluster) : Nat ×ₗ Nat ×ₗ Nat :=
  toLex (if cluster.Behind then 1 else 0,
    toLex (2 * cluster.phase + if cluster.statefulSet.observed then 0 else 1, cluster.work))

theorem phase_le (hdesired : next.desired = cluster.desired)
    (hreplicas : next.statefulSet.replicas = cluster.statefulSet.replicas)
    (hold : next.HasOld → cluster.HasOld)
    (hsettled : cluster.statefulSet.replicas = cluster.desired → cluster.Settled → next.Settled) :
    next.phase ≤ cluster.phase := by
  unfold Cluster.phase
  rw [hdesired, hreplicas]
  by_cases hnext : next.HasOld
  · rw [if_pos hnext, if_pos (hold hnext)]
  · rw [if_neg hnext]
    split_ifs <;> first | omega | exact absurd (hsettled ‹_› ‹_›) ‹_›

/-- A move of the cluster that keeps the spec lowers the rank with the work. -/
theorem rank_lt_of_work (hwanted : next.wanted = cluster.wanted)
    (hspec : next.statefulSet = cluster.statefulSet) (hphase : next.phase ≤ cluster.phase)
    (hwork : next.work < cluster.work) :
    next.rank < cluster.rank := by
  have hbehind : next.Behind ↔ cluster.Behind := by
    unfold Cluster.Behind
    rw [hspec, hwanted]
  unfold Cluster.rank
  rw [Prod.Lex.toLex_lt_toLex, Prod.Lex.toLex_lt_toLex, hspec]
  refine Or.inr ⟨by simp only [hbehind], ?_⟩
  rcases Nat.lt_or_eq_of_le hphase with hlt | heq
  · left
    omega
  · right
    exact ⟨by rw [heq], hwork⟩

theorem mem_missing_iff {ordinal : Nat} :
    ordinal ∈ cluster.missing ↔
      (ordinal : Int) < cluster.statefulSet.replicas.toInt ∧
        ∀ replica ∈ cluster.pods, replica.ordinal ≠ ordinal := by
  rw [Cluster.missing, Finset.mem_filter, Finset.mem_range]
  refine and_congr_left fun _ => ?_
  omega

/-- Pods that change in place lower the work when none gains any and one loses some. -/
theorem work_lt_of_map {change : Replica → Replica}
    (hordinal : ∀ replica, (change replica).ordinal = replica.ordinal)
    (hle : ∀ replica ∈ cluster.pods,
      (change replica).weight cluster.statefulSet.template cluster.statefulSet.replicas ≤
        replica.weight cluster.statefulSet.template cluster.statefulSet.replicas)
    (hlt : ∃ replica ∈ cluster.pods,
      (change replica).weight cluster.statefulSet.template cluster.statefulSet.replicas <
        replica.weight cluster.statefulSet.template cluster.statefulSet.replicas) :
    Cluster.work { cluster with pods := cluster.pods.map change } < cluster.work := by
  have hmissing : Cluster.missing { cluster with pods := cluster.pods.map change } =
      cluster.missing := by
    ext ordinal
    simp only [mem_missing_iff, List.forall_mem_map, hordinal]
  unfold Cluster.work
  rw [hmissing, List.map_map]
  exact Nat.add_lt_add_right (List.sum_lt_sum _ _ hle hlt) _

/-- The work of the pods of other ordinals, with that of one of this ordinal. -/
theorem sum_filter_add_le (weight : Replica → Nat) {pods : List Replica} {replica : Replica}
    (hmem : replica ∈ pods) :
    ((pods.filter fun other => other.ordinal ≠ replica.ordinal).map weight).sum +
        weight replica ≤ (pods.map weight).sum := by
  induction pods with
  | nil => cases hmem
  | cons pod pods ih =>
      have hrest : ((pods.filter fun other => other.ordinal ≠ replica.ordinal).map weight).sum ≤
          (pods.map weight).sum := (List.filter_sublist.map weight).sum_le_sum (by simp)
      rcases List.mem_cons.mp hmem with rfl | hlater
      · rw [List.filter_cons_of_neg (by simp), List.map_cons, List.sum_cons]
        omega
      · have ih := ih hlater
        rw [List.filter_cons]
        split_ifs
        · rw [List.map_cons, List.sum_cons, List.map_cons, List.sum_cons]
          omega
        · rw [List.map_cons, List.sum_cons]
          omega

theorem work_create_lt (hwell : WellFormed cluster) {replica : Replica}
    (hacts : cluster.statefulSet.Acts)
    (hbelow : (replica.ordinal : Int) < cluster.statefulSet.replicas.toInt)
    (hfresh : ∀ other ∈ cluster.pods, other.ordinal ≠ replica.ordinal)
    (hrevision : replica.revision = cluster.statefulSet.updateRevision)
    (hstopping : replica.stopping = false) :
    Cluster.work { cluster with pods := cluster.pods ++ [replica] } < cluster.work := by
  have hweight : replica.weight cluster.statefulSet.template cluster.statefulSet.replicas ≤ 1 := by
    rw [Replica.weight, if_neg (by omega), hstopping, if_neg Bool.false_ne_true,
      if_pos (hrevision.trans (hwell.status hacts))]
    split_ifs <;> omega
  have hmissing : Cluster.missing { cluster with pods := cluster.pods ++ [replica] } =
      cluster.missing.erase replica.ordinal := by
    ext ordinal
    rw [Finset.mem_erase, mem_missing_iff, mem_missing_iff]
    simp only [List.forall_mem_append, List.forall_mem_singleton]
    tauto
  have hmem : replica.ordinal ∈ cluster.missing := mem_missing_iff.mpr ⟨hbelow, hfresh⟩
  have hcard := Finset.card_erase_add_one hmem
  unfold Cluster.work
  rw [hmissing, List.map_append, List.sum_append, List.map_singleton, List.sum_singleton]
  dsimp only
  omega

theorem work_gone_lt {replica : Replica} (hmem : replica ∈ cluster.pods)
    (hstopping : replica.stopping = true) :
    Cluster.work { cluster with
      pods := cluster.pods.filter fun other => other.ordinal ≠ replica.ordinal } <
        cluster.work := by
  have hsum := sum_filter_add_le
    (Replica.weight cluster.statefulSet.template cluster.statefulSet.replicas) hmem
  unfold Cluster.work
  by_cases hbeyond : cluster.statefulSet.replicas.toInt ≤ replica.ordinal
  · have hweight :
        replica.weight cluster.statefulSet.template cluster.statefulSet.replicas = 1 := by
      rw [Replica.weight, if_pos hbeyond, hstopping, if_pos rfl]
    have hmissing : Cluster.missing { cluster with
        pods := cluster.pods.filter fun other => other.ordinal ≠ replica.ordinal } ⊆
          cluster.missing := by
      intro ordinal
      rw [mem_missing_iff, mem_missing_iff]
      rintro ⟨hbelow, hfree⟩
      refine ⟨hbelow, ?_⟩
      intro other hother heq
      refine hfree other (List.mem_filter.mpr ⟨hother, ?_⟩) heq
      have hbelow : (ordinal : Int) < cluster.statefulSet.replicas.toInt := hbelow
      simp only [decide_eq_true_eq]
      omega
    have hcard := Finset.card_le_card hmissing
    dsimp only at hsum hcard ⊢
    omega
  · have hweight :
        replica.weight cluster.statefulSet.template cluster.statefulSet.replicas = 3 := by
      rw [Replica.weight, if_neg hbeyond, hstopping, if_pos rfl]
    have hmissing : Cluster.missing { cluster with
        pods := cluster.pods.filter fun other => other.ordinal ≠ replica.ordinal } ⊆
          insert replica.ordinal cluster.missing := by
      intro ordinal
      rw [Finset.mem_insert, mem_missing_iff, mem_missing_iff]
      rintro ⟨hbelow, hfree⟩
      by_cases heq : ordinal = replica.ordinal
      · exact Or.inl heq
      · refine Or.inr ⟨hbelow, ?_⟩
        intro other hother hsame
        refine hfree other (List.mem_filter.mpr ⟨hother, ?_⟩) hsame
        simp only [decide_eq_true_eq]
        omega
    have hcard := (Finset.card_le_card hmissing).trans (Finset.card_insert_le _ _)
    dsimp only at hsum hcard ⊢
    omega

/-! ### Each move leaves less to do -/

theorem mem_setPod {ordinal : Nat} {change : Replica → Replica} {replica : Replica} :
    replica ∈ (cluster.setPod ordinal change).pods ↔
      ∃ other ∈ cluster.pods,
        (if other.ordinal = ordinal then change other else other) = replica := by
  rw [Cluster.setPod, List.mem_map]

/-- A change in place that keeps ordinals and revisions, and stops no pod below `desired`, keeps the
operator's need for a surge replica as it is or ends it. -/
theorem settled_setPod {ordinal : Nat} {change : Replica → Replica}
    (hordinal : ∀ replica, (change replica).ordinal = replica.ordinal)
    (hstopping : ∀ replica, (change replica).stopping = false → replica.stopping = false)
    (hserving : ∀ replica, replica.ordinal = ordinal →
      (replica.ordinal : Int) < cluster.desired.toInt → replica.Serving → (change replica).Serving)
    (hsettled : cluster.Settled) : (cluster.setPod ordinal change).Settled := by
  rintro ⟨replica, hmem, hbeyond, hrunning⟩
  obtain ⟨other, hother, rfl⟩ := mem_setPod.mp hmem
  have hbefore : cluster.desired.toInt ≤ other.ordinal ∧ other.stopping = false := by
    split_ifs at hbeyond hrunning
    · rw [hordinal] at hbeyond
      exact ⟨hbeyond, hstopping other hrunning⟩
    · exact ⟨hbeyond, hrunning⟩
  refine (hsettled ⟨other, hother, hbefore⟩).trans ?_
  rw [Cluster.setPod, List.countP_map]
  refine Int.ofNat_le.mpr (List.countP_mono_left ?_)
  intro replica _ hserves
  simp only [Function.comp_apply, decide_eq_true_eq] at hserves ⊢
  split_ifs with heq
  · rw [hordinal]
    exact ⟨hserves.1, hserving replica heq hserves.1 hserves.2⟩
  · exact hserves

theorem hasOld_setPod {ordinal : Nat} {change : Replica → Replica}
    (hrevision : ∀ replica, (change replica).revision = replica.revision)
    (hold : (cluster.setPod ordinal change).HasOld) : cluster.HasOld := by
  obtain ⟨replica, hmem, hne⟩ := hold
  obtain ⟨other, hother, rfl⟩ := mem_setPod.mp hmem
  refine ⟨other, hother, ?_⟩
  split_ifs at hne
  · rwa [hrevision] at hne
  · exact hne

theorem rank_observe_lt (hobserved : cluster.statefulSet.observed = false) :
    Cluster.rank { cluster with
      statefulSet := { cluster.statefulSet with
        updateRevision := cluster.statefulSet.template
        observed := true } } < cluster.rank := by
  have hphase : Cluster.phase { cluster with
      statefulSet := { cluster.statefulSet with
        updateRevision := cluster.statefulSet.template
        observed := true } } = cluster.phase := rfl
  unfold Cluster.rank
  rw [Prod.Lex.toLex_lt_toLex, Prod.Lex.toLex_lt_toLex, hphase]
  refine Or.inr ⟨rfl, Or.inl ?_⟩
  simp [hobserved]

theorem rank_create_lt (hwell : WellFormed cluster) {replica : Replica}
    (hacts : cluster.statefulSet.Acts)
    (hbelow : (replica.ordinal : Int) < cluster.statefulSet.replicas.toInt)
    (hfresh : ∀ other ∈ cluster.pods, other.ordinal ≠ replica.ordinal)
    (hrevision : replica.revision = cluster.statefulSet.updateRevision)
    (hstopping : replica.stopping = false) :
    Cluster.rank { cluster with pods := cluster.pods ++ [replica] } < cluster.rank := by
  refine rank_lt_of_work rfl rfl (phase_le rfl rfl ?_ ?_)
    (work_create_lt hwell hacts hbelow hfresh hrevision hstopping)
  · rintro ⟨other, hmem, hne⟩
    rcases List.mem_append.mp hmem with hmem | hmem
    · exact ⟨other, hmem, hne⟩
    · rw [List.mem_singleton] at hmem
      subst hmem
      exact absurd (hrevision.trans (hwell.status hacts)) hne
  · rintro hreplicas hsettled ⟨other, hmem, hbeyond, hrunning⟩
    have hbefore : cluster.desired.toInt ≤ (cluster.pods.countP fun replica =>
        (replica.ordinal : Int) < cluster.desired.toInt ∧ replica.Serving : Nat) := by
      rcases List.mem_append.mp hmem with hmem | hmem
      · exact hsettled ⟨other, hmem, hbeyond, hrunning⟩
      · rw [List.mem_singleton] at hmem
        subst hmem
        rw [hreplicas] at hbelow
        exact absurd hbelow (not_lt.mpr hbeyond)
    rw [List.countP_append]
    dsimp only
    omega

theorem rank_becomeReady_lt {replica : Replica} (hmem : replica ∈ cluster.pods)
    (hready : replica.ready = false) (hstopping : replica.stopping = false) :
    (cluster.setPod replica.ordinal fun replica => { replica with ready := true }).rank <
      cluster.rank := by
  refine rank_lt_of_work rfl rfl (phase_le rfl rfl (hasOld_setPod fun _ => rfl) ?_)
    (work_lt_of_map ?_ ?_ ⟨replica, hmem, ?_⟩)
  · intro _
    exact settled_setPod (fun _ => rfl) (fun _ => id) fun _ _ _ hserving => ⟨rfl, hserving.2⟩
  · intro replica
    split_ifs <;> rfl
  · intro other _
    split_ifs
    · simp only [Replica.weight]
      split_ifs <;> omega
    · exact le_refl _
  · rw [if_pos rfl]
    simp only [Replica.weight, hready, hstopping, Bool.false_eq_true, if_true, if_false]
    split_ifs <;> omega

theorem rank_remove_lt {replica : Replica}
    (hbeyond : cluster.statefulSet.replicas.toInt ≤ replica.ordinal)
    (hmem : replica ∈ cluster.pods) (hstopping : replica.stopping = false) :
    (cluster.setPod replica.ordinal fun replica => { replica with stopping := true }).rank <
      cluster.rank := by
  refine rank_lt_of_work rfl rfl (phase_le rfl rfl (hasOld_setPod fun _ => rfl) ?_)
    (work_lt_of_map ?_ ?_ ⟨replica, hmem, ?_⟩)
  · intro hreplicas
    refine settled_setPod (fun _ => rfl) (fun _ hrunning => nomatch hrunning) ?_
    intro other heq hbelow
    rw [heq] at hbelow
    rw [hreplicas] at hbeyond
    omega
  · intro replica
    split_ifs <;> rfl
  · intro other _
    split_ifs with heq
    · simp only [Replica.weight, heq, hbeyond, if_true]
      split_ifs <;> omega
    · exact le_refl _
  · rw [if_pos rfl]
    simp only [Replica.weight, hbeyond, hstopping, Bool.false_eq_true, if_true, if_false]
    split_ifs <;> omega

theorem rank_gone_lt (hwell : WellFormed cluster) {replica : Replica}
    (hmem : replica ∈ cluster.pods) (hstopping : replica.stopping = true) :
    Cluster.rank { cluster with
      pods := cluster.pods.filter fun other => other.ordinal ≠ replica.ordinal } <
        cluster.rank := by
  refine rank_lt_of_work rfl rfl (phase_le rfl rfl ?_ ?_) (work_gone_lt hmem hstopping)
  · rintro ⟨other, hother, hne⟩
    exact ⟨other, List.mem_of_mem_filter hother, hne⟩
  · rintro _ hsettled ⟨other, hother, hrunning⟩
    refine (hsettled ⟨other, List.mem_of_mem_filter hother, hrunning⟩).trans ?_
    rw [List.countP_filter]
    refine Int.ofNat_le.mpr (List.countP_mono_left ?_)
    intro other hother hserves
    simp only [decide_eq_true_eq, Bool.and_eq_true] at hserves ⊢
    refine ⟨hserves, ?_⟩
    intro heq
    have hsame := List.inj_on_of_nodup_map hwell.nodup hother hmem heq
    rw [hsame, Replica.Serving, hstopping] at hserves
    exact Bool.noConfusion hserves.2.2

/-! ### Each pass leaves less to do -/

theorem plan_of_acts (hwell : WellFormed cluster) (hacts : cluster.statefulSet.Acts) :
    cluster.plan sortFunc =
      planRollout sortFunc cluster.desired cluster.statefulSet.template
        (cluster.pods.map (Replica.pod workload)) := by
  rw [Cluster.plan, planWorkload, if_neg (not_not_intro hacts.1), if_neg (not_not_intro hacts.2),
    hwell.status hacts]

theorem oldPods_eq_nil_iff :
    oldPods cluster.statefulSet.template workload (cluster.pods.map (Replica.pod workload)) = [] ↔
      ¬ cluster.HasOld := by
  rw [oldPods_map, List.map_eq_nil_iff, List.filter_eq_nil_iff, Cluster.HasOld]
  simp

theorem settled_iff :
    cluster.Settled ↔
      ¬ ((∃ pod ∈ cluster.pods.map (Replica.pod workload), Surges cluster.desired workload pod) ∧
        ((cluster.pods.map (Replica.pod workload)).countP (ServesBelow cluster.desired workload)
          : Int) < cluster.desired.toInt) := by
  have hcount : (cluster.pods.map (Replica.pod workload)).countP
        (ServesBelow cluster.desired workload) =
      cluster.pods.countP fun replica =>
        (replica.ordinal : Int) < cluster.desired.toInt ∧ replica.Serving := by
    rw [List.countP_map]
    refine List.countP_congr fun replica _ => ?_
    simp [servesBelow_pod]
  have hsurging : (∃ pod ∈ cluster.pods.map (Replica.pod workload),
        Surges cluster.desired workload pod) ↔
      ∃ replica ∈ cluster.pods,
        cluster.desired.toInt ≤ replica.ordinal ∧ replica.stopping = false := by
    simp [surges_pod]
  rw [hcount, hsurging, not_and, not_lt]
  rfl

/-- The replica count of a pass over a StatefulSet that has observed its spec. -/
theorem plan_replicas (hwell : WellFormed cluster) (hacts : cluster.statefulSet.Acts)
    (htemplate : cluster.statefulSet.template ≠ "") :
    (cluster.plan sortFunc).replicas =
      if cluster.desired = 0 then 0
      else if cluster.HasOld ∨ ¬ cluster.Settled then cluster.desired + 1
      else cluster.desired := by
  rw [plan_of_acts hwell hacts, planRollout_eq]
  simp only [oldPods_eq_nil_iff]
  by_cases hzero : cluster.desired = 0
  · rw [if_pos (Or.inl hzero), if_pos hzero, hzero]
  · rw [if_neg (not_or.mpr ⟨hzero, htemplate⟩), if_neg hzero]
    by_cases hold : cluster.HasOld
    · rw [if_neg (not_not_intro hold), if_pos (Or.inl hold)]
    · rw [if_pos hold]
      by_cases hsettled : cluster.Settled
      · rw [if_neg (settled_iff.mp hsettled), if_neg (by tauto)]
      · rw [if_pos (not_not.mp (mt settled_iff.mpr hsettled)), if_pos (Or.inr hsettled)]

/-- The pod a pass names is an old one, and no pod stops. -/
theorem plan_replace (hwell : WellFormed cluster) {pod : Pod}
    (hreplace : (cluster.plan sortFunc).replace = some pod) :
    cluster.statefulSet.Acts ∧
      ∃ replica ∈ cluster.pods, replica.pod workload = pod ∧
        replica.revision ≠ cluster.statefulSet.template ∧ replica.stopping = false := by
  by_cases hacts : cluster.statefulSet.Acts
  · refine ⟨hacts, ?_⟩
    rw [plan_of_acts hwell hacts, planRollout_replace] at hreplace
    split_ifs at hreplace with hnext
    obtain ⟨-, -, -, hnone, -⟩ := hnext
    have hmem := (sortFunc.highest_of_head? hreplace).1
    rw [oldPods_map, List.mem_map] at hmem
    obtain ⟨replica, hmem, rfl⟩ := hmem
    obtain ⟨hmem, hrevision⟩ := List.mem_filter.mp hmem
    refine ⟨replica, hmem, rfl, by simpa using hrevision, ?_⟩
    have hrunning := hnone _ (List.mem_map_of_mem hmem)
    rw [stopping_pod] at hrunning
    simpa using hrunning
  · exfalso
    rw [Cluster.plan, planWorkload] at hreplace
    unfold StatefulSet.Acts at hacts
    split_ifs at hreplace with hcreated hobserved
    exact hacts ⟨hcreated, hobserved⟩

theorem replaceNext_of_none {plan : Rollout} (hnone : plan.replace = none)
    (pods : List Replica) : replaceNext workload plan pods = pods := by
  rw [replaceNext, hnone]

theorem WellFormed.surge_ne (hwell : WellFormed cluster) :
    cluster.desired ≠ cluster.desired + 1 := by
  intro heq
  have hsurge := hwell.toInt_surge
  rw [← heq] at hsurge
  omega

theorem WellFormed.desired_pos (hwell : WellFormed cluster) (hzero : cluster.desired ≠ 0) :
    0 < cluster.desired := by
  rw [Int32.lt_iff_toInt_lt]
  refine lt_of_le_of_ne hwell.nonneg ?_
  intro heq
  exact hzero (Int32.toInt_inj.mp heq.symm)

theorem revision_of_mem_replaceNext {plan : Rollout} {pods : List Replica} {replica : Replica}
    (hmem : replica ∈ replaceNext workload plan pods) :
    ∃ other ∈ pods, other.revision = replica.revision := by
  unfold replaceNext at hmem
  split at hmem
  · exact ⟨replica, hmem, rfl⟩
  · obtain ⟨other, hother, rfl⟩ := List.mem_map.mp hmem
    refine ⟨other, hother, ?_⟩
    split_ifs <;> rfl

theorem revision_of_mem {plan : Rollout} {pods : List Replica} {replica : Replica}
    (hmem : replica ∈ pods) :
    ∃ other ∈ replaceNext workload plan pods, other.revision = replica.revision := by
  unfold replaceNext
  split
  · exact ⟨replica, hmem, rfl⟩
  · refine ⟨_, List.mem_map_of_mem hmem, ?_⟩
    split_ifs <;> rfl

/-- Stopping a pod does not change which revisions there are. -/
theorem hasOld_reconcile_iff (htemplate : cluster.statefulSet.template = cluster.wanted) :
    (cluster.reconcile sortFunc).HasOld ↔ cluster.HasOld := by
  constructor
  · rintro ⟨replica, hmem, hne⟩
    obtain ⟨other, hother, heq⟩ := revision_of_mem_replaceNext hmem
    refine ⟨other, hother, ?_⟩
    rw [heq, htemplate]
    exact hne
  · rintro ⟨replica, hmem, hne⟩
    obtain ⟨other, hother, heq⟩ : ∃ other ∈ replaceNext workload (cluster.plan sortFunc)
        cluster.pods, other.revision = replica.revision := revision_of_mem hmem
    refine ⟨other, hother, ?_⟩
    rw [heq]
    rw [htemplate] at hne
    exact hne

/-- With no old pod left a pass stops none, so it leaves the need for a surge replica alone. -/
theorem settled_reconcile_iff (hwell : WellFormed cluster) (hold : ¬ cluster.HasOld) :
    (cluster.reconcile sortFunc).Settled ↔ cluster.Settled := by
  have hnone : (cluster.plan sortFunc).replace = none := by
    rw [Option.eq_none_iff_forall_ne_some]
    intro pod hreplace
    obtain ⟨-, replica, hmem, -, hne, -⟩ := plan_replace hwell hreplace
    exact hold ⟨replica, hmem, hne⟩
  have hpods : (cluster.reconcile sortFunc).pods = cluster.pods := replaceNext_of_none hnone _
  unfold Cluster.Settled
  rw [hpods]
  rfl

/-- A pass that changes the replica count brings the changes of it closer to their end. -/
theorem phase_reconcile_lt (hwell : WellFormed cluster) (hbehind : ¬ cluster.Behind)
    (hreplicas : (cluster.plan sortFunc).replicas ≠ cluster.statefulSet.replicas) :
    (cluster.reconcile sortFunc).phase < cluster.phase := by
  obtain ⟨hcreated, htemplate⟩ := not_not.mp hbehind
  have hold : (cluster.reconcile sortFunc).HasOld ↔ _ := hasOld_reconcile_iff htemplate
  have hnextReplicas : (cluster.reconcile sortFunc).statefulSet.replicas =
      (cluster.plan sortFunc).replicas := rfl
  have hnextDesired : (cluster.reconcile sortFunc).desired = cluster.desired := rfl
  have hsurge := hwell.surge_ne
  unfold Cluster.phase
  rw [hnextReplicas, hnextDesired]
  by_cases hacts : cluster.statefulSet.Acts
  · have hplan : (cluster.plan sortFunc).replicas = _ :=
      plan_replicas hwell hacts (htemplate ▸ hwell.wanted)
    by_cases hzero : cluster.desired = 0
    · rw [if_pos hzero] at hplan ⊢
      rw [hplan] at hreplicas ⊢
      rw [if_pos hzero, if_pos rfl, if_neg (Ne.symm hreplicas)]
      exact Nat.zero_lt_one
    · rw [if_neg hzero] at hplan ⊢
      rw [if_neg hzero]
      by_cases hasOld : cluster.HasOld
      · rw [if_pos (Or.inl hasOld)] at hplan
        rw [hplan] at hreplicas ⊢
        rw [if_pos (hold.mpr hasOld), if_pos rfl, if_pos hasOld, if_neg (Ne.symm hreplicas)]
        split_ifs <;> omega
      · have hsettledIff : (cluster.reconcile sortFunc).Settled ↔ _ :=
          settled_reconcile_iff hwell hasOld
        rw [if_neg (mt hold.mp hasOld), if_neg hasOld]
        by_cases hsettled : cluster.Settled
        · rw [if_neg (by tauto)] at hplan
          rw [hplan] at hreplicas ⊢
          rw [if_neg hsurge, if_pos rfl, if_pos (hsettledIff.mpr hsettled),
            if_neg (Ne.symm hreplicas)]
          split_ifs <;> omega
        · rw [if_pos (Or.inr hsettled)] at hplan
          rw [hplan] at hreplicas ⊢
          rw [if_pos rfl, if_neg (Ne.symm hreplicas), if_neg hsettled]
          split_ifs <;> omega
  · have hobserved : ¬ cluster.statefulSet.observed = true := fun hobserved =>
      hacts ⟨hcreated, hobserved⟩
    have hplan : (cluster.plan sortFunc).replicas =
        if cluster.statefulSet.replicas = cluster.desired + 1 ∧ 0 < cluster.desired then
          cluster.statefulSet.replicas
        else cluster.desired := by
      rw [Cluster.plan, planWorkload, if_neg (not_not_intro hcreated), if_pos hobserved]
      split_ifs <;> rfl
    by_cases hkept : cluster.statefulSet.replicas = cluster.desired + 1 ∧ 0 < cluster.desired
    · rw [if_pos hkept] at hplan
      exact absurd hplan hreplicas
    · rw [if_neg hkept] at hplan
      rw [hplan] at hreplicas ⊢
      by_cases hzero : cluster.desired = 0
      · rw [hzero] at hreplicas
        rw [if_pos hzero, if_pos hzero, if_pos hzero, if_neg (Ne.symm hreplicas)]
        exact Nat.zero_lt_one
      · have hne : cluster.statefulSet.replicas ≠ cluster.desired + 1 := fun heq =>
          hkept ⟨heq, hwell.desired_pos hzero⟩
        rw [if_neg hzero, if_neg hzero, if_neg hsurge, if_neg hsurge, if_pos rfl, if_pos rfl,
          if_neg hne, if_neg hne, if_neg (Ne.symm hreplicas), if_neg (Ne.symm hreplicas)]
        by_cases hasOld : cluster.HasOld
        · rw [if_pos (hold.mpr hasOld), if_pos hasOld]
          omega
        · rw [if_neg (mt hold.mp hasOld), if_neg hasOld]
          split_ifs <;> omega

theorem ensure_self {statefulSet : StatefulSet} (hcreated : statefulSet.created = true) :
    ensure statefulSet statefulSet.replicas statefulSet.template = statefulSet := by
  obtain ⟨created, replicas, template, updateRevision, observed⟩ := statefulSet
  simp only at hcreated
  simp [ensure, hcreated]

theorem rank_reconcile_lt (hwell : WellFormed cluster)
    (hchanged : cluster.reconcile sortFunc ≠ cluster) :
    (cluster.reconcile sortFunc).rank < cluster.rank := by
  have hnext : ¬ (cluster.reconcile sortFunc).Behind := not_not_intro ⟨rfl, rfl⟩
  by_cases hbehind : cluster.Behind
  · unfold Cluster.rank
    rw [Prod.Lex.toLex_lt_toLex, if_neg hnext, if_pos hbehind]
    exact Or.inl Nat.zero_lt_one
  · obtain ⟨hcreated, htemplate⟩ := not_not.mp hbehind
    by_cases hreplicas : (cluster.plan sortFunc).replicas = cluster.statefulSet.replicas
    · -- the spec stays as it is, so a pod is stopped
      have hspec : (cluster.reconcile sortFunc).statefulSet = cluster.statefulSet := by
        show ensure _ _ _ = _
        rw [hreplicas, ← htemplate]
        exact ensure_self hcreated
      have hpods : (cluster.reconcile sortFunc).pods ≠ cluster.pods := by
        intro hpods
        apply hchanged
        calc cluster.reconcile sortFunc =
            { cluster with
              statefulSet := (cluster.reconcile sortFunc).statefulSet
              pods := (cluster.reconcile sortFunc).pods } := rfl
          _ = cluster := by rw [hspec, hpods]
      obtain ⟨pod, hreplace⟩ : ∃ pod, (cluster.plan sortFunc).replace = some pod := by
        rw [← Option.isSome_iff_exists, Option.isSome_iff_ne_none]
        intro hnone
        exact hpods (replaceNext_of_none hnone _)
      obtain ⟨-, replica, hmem, rfl, hne, hrunning⟩ := plan_replace hwell hreplace
      have hasOld : cluster.HasOld := ⟨replica, hmem, hne⟩
      have hphase : (cluster.reconcile sortFunc).phase = cluster.phase := by
        unfold Cluster.phase
        rw [hspec, if_pos hasOld, if_pos ((hasOld_reconcile_iff htemplate).mpr hasOld)]
        rfl
      refine rank_lt_of_work rfl hspec hphase.le ?_
      have hwork : (cluster.reconcile sortFunc).work =
          Cluster.work { cluster with
            pods := cluster.pods.map fun other =>
              if other.pod workload = replica.pod workload then
                { other with stopping := true } else other } := by
        have hpods : (cluster.reconcile sortFunc).pods = cluster.pods.map fun other =>
            if other.pod workload = replica.pod workload then
              { other with stopping := true } else other := by
          show replaceNext _ _ _ = _
          rw [replaceNext, hreplace]
        unfold Cluster.work Cluster.missing
        rw [hspec, hpods]
      rw [hwork]
      refine work_lt_of_map ?_ ?_ ⟨replica, hmem, ?_⟩
      · intro other
        split_ifs <;> rfl
      · intro other _
        split_ifs with hsame
        · have hrevision : other.revision ≠ cluster.statefulSet.template := by
            have hsame := congrArg Pod.revision hsame
            rw [pod_revision, pod_revision] at hsame
            rwa [hsame]
          simp only [Replica.weight, if_neg hrevision, if_true]
          split_ifs <;> omega
        · exact le_refl _
      · rw [if_pos rfl]
        simp only [Replica.weight, if_neg hne, hrunning, Bool.false_eq_true, if_true, if_false]
        split_ifs <;> omega
    · unfold Cluster.rank
      rw [Prod.Lex.toLex_lt_toLex, Prod.Lex.toLex_lt_toLex, if_neg hnext, if_neg hbehind]
      refine Or.inr ⟨rfl, Or.inl ?_⟩
      have hphase := phase_reconcile_lt hwell hbehind hreplicas
      split_ifs <;> omega

/-- Every move leaves less to do. -/
theorem rank_step_lt {move : Move} (hwell : WellFormed cluster)
    (hstep : cluster.step sortFunc move = some next) : next.rank < cluster.rank := by
  cases moved_of_step hstep with
  | reconcile hchanged => exact rank_reconcile_lt hwell hchanged
  | observe _ hobserved => exact rank_observe_lt hobserved
  | create replica hacts hbelow hfresh hrevision _ hstopping =>
      exact rank_create_lt hwell hacts hbelow hfresh hrevision hstopping
  | becomeReady replica hmem hready hstopping => exact rank_becomeReady_lt hmem hready hstopping
  | remove replica _ hbeyond hmem hstopping => exact rank_remove_lt hbeyond hmem hstopping
  | gone replica hmem hstopping => exact rank_gone_lt hwell hmem hstopping

/-! ### Where the moves end -/

/-- Exactly `desired` pods exist, of the wanted revision, one serving at each index below
`desired`. -/
def Cluster.UpToDate (cluster : Cluster) : Prop :=
  (cluster.pods.length : Int) = cluster.desired.toInt ∧
    (∀ replica ∈ cluster.pods, replica.revision = cluster.wanted) ∧
    ∀ ordinal : Nat, (ordinal : Int) < cluster.desired.toInt →
      ∃ replica ∈ cluster.pods, replica.ordinal = ordinal ∧ replica.Serving

/-- Every pod is of an old revision and the surge index is taken like the others. -/
def Cluster.Stuck (cluster : Cluster) : Prop :=
  cluster.desired ≠ 0 ∧ ¬ cluster.Behind ∧
    cluster.statefulSet.replicas = cluster.desired + 1 ∧
    (∀ replica ∈ cluster.pods, replica.revision ≠ cluster.wanted) ∧
    ∀ ordinal : Nat, (ordinal : Int) < cluster.desired.toInt + 1 →
      ∃ replica ∈ cluster.pods, replica.ordinal = ordinal ∧ replica.stopping = false

/-- What it takes for no move to be enabled. -/
structure AtRest (sortFunc : SortFunc workload) (cluster : Cluster) : Prop where
  same : cluster.reconcile sortFunc = cluster
  acts : cluster.statefulSet.Acts
  serving : ∀ replica ∈ cluster.pods, replica.Serving
  present : ∀ ordinal : Nat, (ordinal : Int) < cluster.statefulSet.replicas.toInt →
    ∃ replica ∈ cluster.pods, replica.ordinal = ordinal
  below : ∀ replica ∈ cluster.pods,
    (replica.ordinal : Int) < cluster.statefulSet.replicas.toInt

theorem atRest_of_halted (hhalted : (sys sortFunc).Halted cluster) : AtRest sortFunc cluster := by
  have hsame : cluster.reconcile sortFunc = cluster := by
    have hstep : cluster.step sortFunc .reconcile = none := hhalted .reconcile
    simpa [Cluster.step] using hstep
  have hcreated : cluster.statefulSet.created = true := by
    rw [← hsame]
    rfl
  have hacts : cluster.statefulSet.Acts := by
    have hstep : cluster.step sortFunc .observe = none := hhalted .observe
    refine ⟨hcreated, ?_⟩
    simpa [Cluster.step, hcreated] using hstep
  have hrunning : ∀ replica ∈ cluster.pods, replica.stopping = false := by
    intro replica hmem
    by_contra hstopping
    have hstep : cluster.step sortFunc (.gone replica.ordinal) = none :=
      hhalted (.gone replica.ordinal)
    simp only [Cluster.step] at hstep
    split_ifs at hstep with hgone
    exact hgone ⟨replica, hmem, rfl, by simpa using hstopping⟩
  refine ⟨hsame, hacts, ?_, ?_, ?_⟩
  · intro replica hmem
    refine ⟨?_, hrunning replica hmem⟩
    by_contra hready
    have hstep : cluster.step sortFunc (.becomeReady replica.ordinal) = none :=
      hhalted (.becomeReady replica.ordinal)
    simp only [Cluster.step] at hstep
    split_ifs at hstep with hwaits
    exact hwaits ⟨replica, hmem, rfl, by simpa using hready, hrunning replica hmem⟩
  · intro ordinal hbelow
    by_contra hmissing
    have hstep : cluster.step sortFunc (.create ordinal) = none := hhalted (.create ordinal)
    simp only [Cluster.step] at hstep
    split_ifs at hstep with hcreate
    refine hcreate ⟨hacts, hbelow, ?_⟩
    intro replica hmem heq
    exact hmissing ⟨replica, hmem, heq⟩
  · intro replica hmem
    by_contra hbeyond
    have hstep : cluster.step sortFunc (.remove replica.ordinal) = none :=
      hhalted (.remove replica.ordinal)
    simp only [Cluster.step] at hstep
    split_ifs at hstep with hremove
    exact hremove ⟨hacts, not_lt.mp hbeyond, replica, hmem, rfl, hrunning replica hmem⟩

/-- Pods at all indexes below a number are at least that many. -/
theorem le_length_of_present {pods : List Replica} {count : Int}
    (hpresent : ∀ ordinal : Nat, (ordinal : Int) < count →
      ∃ replica ∈ pods, replica.ordinal = ordinal) : count ≤ pods.length := by
  have hsubset : List.range count.toNat ⊆ pods.map Replica.ordinal := by
    intro ordinal hmem
    rw [List.mem_range] at hmem
    obtain ⟨replica, hreplica, rfl⟩ := hpresent ordinal (by omega)
    exact List.mem_map_of_mem hreplica
  have hle := (List.nodup_range.subperm hsubset).length_le
  rw [List.length_range, List.length_map] at hle
  omega

theorem length_le_of_below {pods : List Replica} {count : Int} (hnonneg : 0 ≤ count)
    (hnodup : (pods.map Replica.ordinal).Nodup)
    (hbelow : ∀ replica ∈ pods, (replica.ordinal : Int) < count) : (pods.length : Int) ≤ count := by
  have hsubset : pods.map Replica.ordinal ⊆ List.range count.toNat := by
    intro ordinal hmem
    obtain ⟨replica, hreplica, rfl⟩ := List.mem_map.mp hmem
    have hlt := hbelow replica hreplica
    rw [List.mem_range]
    omega
  have hle := (hnodup.subperm hsubset).length_le
  rw [List.length_range, List.length_map] at hle
  omega

/-- A pass over pods that all serve names one if there is an old pod and a new one. -/
theorem replacesNext_of_serving (hwell : WellFormed cluster) (hzero : cluster.desired ≠ 0)
    (htemplate : cluster.statefulSet.template ≠ "") (hold : cluster.HasOld)
    (hserving : ∀ replica ∈ cluster.pods, replica.Serving)
    (hnew : ∃ replica ∈ cluster.pods, replica.revision = cluster.statefulSet.template)
    (hlength : cluster.desired.toInt + 1 ≤ cluster.pods.length) :
    ReplacesNext cluster.desired cluster.statefulSet.template workload
      (cluster.pods.map (Replica.pod workload)) := by
  have hnewPods : (cluster.pods.filter fun replica =>
      replica.revision = cluster.statefulSet.template ∧ replica.stopping = false) =
        cluster.pods.filter fun replica => replica.revision = cluster.statefulSet.template := by
    refine List.filter_congr fun replica hmem => ?_
    simp [(hserving replica hmem).2]
  refine ⟨hzero, htemplate, mt oldPods_eq_nil_iff.mp (not_not_intro hold), ?_, ?_, ?_, ?_⟩
  · rw [List.forall_mem_map]
    intro replica hmem
    rw [stopping_pod, (hserving replica hmem).2]
    exact Bool.false_ne_true
  · obtain ⟨replica, hmem, hrevision⟩ := hnew
    rw [newPods_map, hnewPods]
    intro hnil
    rw [List.map_eq_nil_iff, List.filter_eq_nil_iff] at hnil
    exact hnil replica hmem (by simpa using hrevision)
  · rw [newPods_map, List.forall_mem_map]
    intro replica hmem
    rw [podServing_pod]
    simpa using hserving replica (List.mem_of_mem_filter hmem)
  · have hsplit : cluster.pods.length = _ := List.length_eq_length_filter_add
      (fun replica => decide (replica.revision = cluster.statefulSet.template))
    rw [newPods_map, oldPods_map, List.length_map, List.length_map, hnewPods, hwell.toInt_surge]
    simp only [decide_not] at hsplit ⊢
    omega

/-- A pass over pods that all serve names none, if nothing changes. -/
theorem AtRest.replace_eq_none (hrest : AtRest sortFunc cluster) (hwell : WellFormed cluster) :
    (cluster.plan sortFunc).replace = none := by
  rw [Option.eq_none_iff_forall_ne_some]
  intro pod hreplace
  obtain ⟨-, replica, hmem, rfl, -, -⟩ := plan_replace hwell hreplace
  have hpods : (cluster.reconcile sortFunc).pods = cluster.pods :=
    congrArg Cluster.pods hrest.same
  have hstopped : { replica with stopping := true } ∈ cluster.pods := by
    rw [← hpods]
    show _ ∈ replaceNext _ _ _
    rw [replaceNext, hreplace, List.mem_map]
    exact ⟨replica, hmem, if_pos rfl⟩
  have hserving := (hrest.serving _ hstopped).2
  cases hserving

/-- The moves end with the update done or stuck. -/
theorem AtRest.upToDate_or_stuck (hrest : AtRest sortFunc cluster) (hwell : WellFormed cluster) :
    cluster.UpToDate ∨ cluster.Stuck := by
  have htemplate : cluster.statefulSet.template = cluster.wanted := by
    rw [← hrest.same]
    rfl
  have hreplicas : (cluster.plan sortFunc).replicas = cluster.statefulSet.replicas :=
    congrArg (fun cluster => cluster.statefulSet.replicas) hrest.same
  have hplan : (cluster.plan sortFunc).replicas = _ :=
    plan_replicas hwell hrest.acts (htemplate ▸ hwell.wanted)
  have hlength := le_length_of_present hrest.present
  rw [hreplicas] at hplan
  by_cases hzero : cluster.desired = 0
  · rw [if_pos hzero] at hplan
    have hbelow := hrest.below
    have hcount := length_le_of_below hwell.nonneg hwell.nodup
    rw [hplan] at hbelow
    rw [hzero] at hcount
    have hnil : cluster.pods = [] :=
      List.length_eq_zero_iff.mp (Int.ofNat_eq_zero.mp (le_antisymm (hcount hbelow) (by simp)))
    left
    rw [Cluster.UpToDate, hnil, hzero]
    refine ⟨rfl, by simp, ?_⟩
    intro ordinal hlt
    exact absurd hlt (not_lt.mpr (Int.natCast_nonneg ordinal))
  · rw [if_neg hzero] at hplan
    by_cases hold : cluster.HasOld
    · rw [if_pos (Or.inl hold)] at hplan
      rw [hplan, hwell.toInt_surge] at hlength
      right
      refine ⟨hzero, not_not_intro ⟨hrest.acts.1, htemplate⟩, hplan, ?_, ?_⟩
      · intro replica hmem hrevision
        have hnext := @replacesNext_of_serving workload _ hwell hzero
          (htemplate ▸ hwell.wanted) hold hrest.serving
          ⟨replica, hmem, hrevision.trans htemplate.symm⟩ hlength
        have hnone := hrest.replace_eq_none hwell
        rw [plan_of_acts hwell hrest.acts, planRollout_replace, if_pos hnext,
          List.head?_eq_none_iff] at hnone
        have hperm := sortFunc.perm (oldPods cluster.statefulSet.template workload
          (cluster.pods.map (Replica.pod workload)))
        rw [hnone] at hperm
        exact hnext.2.2.1 hperm.symm.eq_nil
      · intro ordinal hlt
        obtain ⟨replica, hmem, heq⟩ := hrest.present ordinal (by rwa [hplan, hwell.toInt_surge])
        exact ⟨replica, hmem, heq, (hrest.serving replica hmem).2⟩
    · have hcount : cluster.desired.toInt ≤ cluster.statefulSet.replicas.toInt := by
        rw [hplan]
        split_ifs
        · rw [hwell.toInt_surge]
          omega
        · exact le_refl _
      have hsettled : cluster.Settled := by
        intro _
        rw [List.countP_eq_length_filter]
        apply le_length_of_present
        intro ordinal hlt
        obtain ⟨replica, hmem, rfl⟩ := hrest.present ordinal (by omega)
        refine ⟨replica, List.mem_filter.mpr ⟨hmem, ?_⟩, rfl⟩
        rw [decide_eq_true_eq]
        exact ⟨hlt, hrest.serving replica hmem⟩
      rw [if_neg (by tauto)] at hplan
      rw [hplan] at hlength
      have hbelow := hrest.below
      rw [hplan] at hbelow
      left
      refine ⟨le_antisymm (length_le_of_below hwell.nonneg hwell.nodup hbelow) hlength, ?_, ?_⟩
      · intro replica hmem
        by_contra hne
        exact hold ⟨replica, hmem, htemplate ▸ hne⟩
      · intro ordinal hlt
        obtain ⟨replica, hmem, heq⟩ := hrest.present ordinal (by rwa [hplan])
        exact ⟨replica, hmem, heq, hrest.serving replica hmem⟩

/-! ### Stuck for good -/

theorem present_setPod {ordinal other : Nat} {change : Replica → Replica}
    (hordinal : ∀ replica, (change replica).ordinal = replica.ordinal)
    (hstopping : other = ordinal → ∀ replica, replica.stopping = false →
      (change replica).stopping = false)
    (hpresent : ∃ replica ∈ cluster.pods, replica.ordinal = other ∧ replica.stopping = false) :
    ∃ replica ∈ (cluster.setPod ordinal change).pods,
      replica.ordinal = other ∧ replica.stopping = false := by
  obtain ⟨replica, hmem, rfl, hrunning⟩ := hpresent
  refine ⟨_, mem_setPod.mpr ⟨replica, hmem, rfl⟩, ?_⟩
  split_ifs with heq
  · exact ⟨hordinal replica, hstopping heq replica hrunning⟩
  · exact ⟨rfl, hrunning⟩

theorem revision_setPod {ordinal : Nat} {change : Replica → Replica}
    (hrevision : ∀ replica, (change replica).revision = replica.revision) {wanted : String}
    (hold : ∀ replica ∈ cluster.pods, replica.revision ≠ wanted) :
    ∀ replica ∈ (cluster.setPod ordinal change).pods, replica.revision ≠ wanted := by
  intro replica hmem
  obtain ⟨other, hother, rfl⟩ := mem_setPod.mp hmem
  split_ifs
  · rw [hrevision]
    exact hold other hother
  · exact hold other hother

/-- A pass over a stuck update changes nothing. -/
theorem Cluster.Stuck.reconcile_eq (hstuck : cluster.Stuck) (hwell : WellFormed cluster) :
    cluster.reconcile sortFunc = cluster := by
  obtain ⟨hzero, hbehind, hreplicas, hold, hpresent⟩ := hstuck
  obtain ⟨hcreated, htemplate⟩ := not_not.mp hbehind
  have hplan : (cluster.plan sortFunc).replicas = cluster.statefulSet.replicas ∧
      (cluster.plan sortFunc).replace = none := by
    by_cases hacts : cluster.statefulSet.Acts
    · obtain ⟨replica, hmem, -, -⟩ := hpresent 0 (by have := hwell.nonneg; omega)
      have hasOld : cluster.HasOld := ⟨replica, hmem, htemplate ▸ hold replica hmem⟩
      constructor
      · rw [plan_replicas hwell hacts (htemplate ▸ hwell.wanted), if_neg hzero,
          if_pos (Or.inl hasOld), hreplicas]
      · rw [plan_of_acts hwell hacts, planRollout_replace, if_neg]
        rintro ⟨-, -, -, -, hnew, -⟩
        apply hnew
        rw [newPods_map, List.map_eq_nil_iff, List.filter_eq_nil_iff]
        intro replica hmem hcurrent
        rw [decide_eq_true_eq, htemplate] at hcurrent
        exact hold replica hmem hcurrent.1
    · have hobserved : ¬ cluster.statefulSet.observed = true := fun hobserved =>
        hacts ⟨hcreated, hobserved⟩
      rw [Cluster.plan, planWorkload, if_neg (not_not_intro hcreated), if_pos hobserved,
        if_pos ⟨hreplicas, hwell.desired_pos hzero⟩]
      exact ⟨rfl, rfl⟩
  calc cluster.reconcile sortFunc =
      { cluster with
        statefulSet := ensure cluster.statefulSet (cluster.plan sortFunc).replicas cluster.wanted
        pods := replaceNext workload (cluster.plan sortFunc) cluster.pods } := rfl
    _ = cluster := by
      rw [hplan.1, replaceNext_of_none hplan.2, ← htemplate, ensure_self hcreated, htemplate]

theorem Cluster.Stuck.step {move : Move} (hstuck : cluster.Stuck) (hwell : WellFormed cluster)
    (hstep : cluster.step sortFunc move = some next) : next.Stuck := by
  have hsame : cluster.reconcile sortFunc = cluster := hstuck.reconcile_eq hwell
  obtain ⟨hzero, hbehind, hreplicas, hold, hpresent⟩ := hstuck
  have hsurge := hwell.toInt_surge
  cases moved_of_step hstep with
  | reconcile hchanged => exact absurd hsame hchanged
  | observe => exact ⟨hzero, hbehind, hreplicas, hold, hpresent⟩
  | create replica _ hbelow hfresh =>
      rw [hreplicas, hsurge] at hbelow
      obtain ⟨other, hmem, heq, -⟩ := hpresent replica.ordinal hbelow
      exact absurd heq (hfresh other hmem)
  | becomeReady replica =>
      refine ⟨hzero, hbehind, hreplicas, revision_setPod ?_ hold, ?_⟩
      · exact fun _ => rfl
      intro ordinal hlt
      exact present_setPod (fun _ => rfl) (fun _ _ hrunning => hrunning) (hpresent ordinal hlt)
  | remove replica _ hbeyond =>
      refine ⟨hzero, hbehind, hreplicas, revision_setPod ?_ hold, ?_⟩
      · exact fun _ => rfl
      intro ordinal hlt
      refine present_setPod (fun _ => rfl) ?_ (hpresent ordinal hlt)
      intro heq
      rw [hreplicas, hsurge, ← heq] at hbeyond
      have hlt : (ordinal : Int) < cluster.desired.toInt + 1 := hlt
      omega
  | gone replica hmem hstopping =>
      refine ⟨hzero, hbehind, hreplicas, ?_, ?_⟩
      · intro other hother
        exact hold other (List.mem_of_mem_filter hother)
      · intro ordinal hlt
        obtain ⟨other, hother, heq, hrunning⟩ := hpresent ordinal hlt
        refine ⟨other, List.mem_filter.mpr ⟨hother, ?_⟩, heq, hrunning⟩
        rw [decide_eq_true_eq]
        intro hordinal
        have hsame := List.inj_on_of_nodup_map hwell.nodup hother hmem hordinal
        rw [hsame, hstopping] at hrunning
        cases hrunning

variable (sortFunc) in
theorem stuck_trap :
    (sys sortFunc).Trap (fun cluster => cluster.UpToDate ∧ (sys sortFunc).Halted cluster)
      fun cluster => WellFormed cluster ∧ cluster.Stuck where
  avoids cluster := by
    rintro ⟨hwell, -, -, -, hold, hpresent⟩ ⟨⟨-, hcurrent, -⟩, -⟩
    obtain ⟨replica, hmem, -⟩ := hpresent 0 (by have := hwell.nonneg; omega)
    exact hold replica hmem (hcurrent replica hmem)
  closed cluster move next := by
    rintro ⟨hwell, hstuck⟩ hstep
    exact ⟨hwell.step hstep, hstuck.step hwell hstep⟩

/-- Every run of the operator and the cluster comes to rest with the update done, unless one gets
stuck. -/
theorem inevitable_upToDate_iff (hwell : WellFormed cluster) :
    (sys sortFunc).Inevitable
        (fun cluster => cluster.UpToDate ∧ (sys sortFunc).Halted cluster) cluster ↔
      ∀ moves final, (sys sortFunc).run cluster moves = some final → ¬ final.Stuck := by
  have heither : (sys sortFunc).Inevitable
      (fun cluster => (cluster.UpToDate ∧ (sys sortFunc).Halted cluster) ∨
        WellFormed cluster ∧ cluster.Stuck) cluster := by
    refine (sys sortFunc).inevitable_of_descends Cluster.rank ?_ ?_ ?_ cluster hwell
    · intro cluster move next hwell hstep
      exact hwell.step hstep
    · intro cluster move next hwell hstep
      exact rank_step_lt hwell hstep
    · intro cluster hwell hhalted
      rcases (atRest_of_halted hhalted).upToDate_or_stuck hwell with hdone | hstuck
      · exact Or.inl ⟨hdone, hhalted⟩
      · exact Or.inr ⟨hwell, hstuck⟩
  rw [(stuck_trap sortFunc).inevitable_iff (fun _ hdone => hdone.2) heither]
  refine forall_congr' fun moves => forall_congr' fun final => forall_congr' fun hrun => ?_
  have hfinal : WellFormed final :=
    (sys sortFunc).invariant_of_run (fun _ _ _ hwell hstep => hwell.step hstep) hwell hrun
  tauto

/-! ### A rollout moves on -/

/-- The plan names a pod to replace, or a replica count whose pods do not all exist yet. -/
def ChangesSomething (workload : String) (pods : List Pod) (plan : Rollout) : Prop :=
  plan.replace.isSome ∨
    ∃ index : Nat, (index : Int) < plan.replicas.toInt ∧
      ∀ pod ∈ pods, podIndex workload pod ≠ some (index : Int)

/-- Pods at all indexes below a number are at least that many. -/
theorem le_length_of_indexed {pods : List Pod} {count : Int}
    (hindexed : ∀ index : Nat, (index : Int) < count →
      ∃ pod ∈ pods, podIndex workload pod = some (index : Int)) :
    count ≤ (pods.filter (Listed workload)).length := by
  have hsubset : (List.range count.toNat).map Int.ofNat ⊆
      (pods.filter (Listed workload)).filterMap (podIndex workload) := by
    intro index hmem
    obtain ⟨ordinal, hordinal, rfl⟩ := List.mem_map.mp hmem
    rw [List.mem_range] at hordinal
    obtain ⟨pod, hpod, hindex⟩ := hindexed ordinal (by omega)
    refine List.mem_filterMap.mpr ⟨pod, List.mem_filter.mpr ⟨hpod, ?_⟩, hindex⟩
    simp [Listed, hindex]
  have hnodup : ((List.range count.toNat).map Int.ofNat).Nodup :=
    List.nodup_range.map fun _ _ heq => Int.ofNat.inj heq
  have hle := (hnodup.subperm hsubset).length_le.trans (List.length_filterMap_le _ _)
  rw [List.length_map, List.length_range] at hle
  omega

/-- Pods that all serve are old ones and new ones. -/
theorem length_listed {pods : List Pod} (updateRevision : String)
    (hserving : ∀ pod ∈ pods, Listed workload pod → podServing pod) :
    (pods.filter (Listed workload)).length =
      (oldPods updateRevision workload pods).length +
        (newPods updateRevision workload pods).length := by
  induction pods with
  | nil => rfl
  | cons pod pods ih =>
      rw [List.forall_mem_cons] at hserving
      have ih := ih hserving.2
      simp only [oldPods, newPods] at ih ⊢
      by_cases hlisted : Listed workload pod
      · have hrunning := deletionTimestamp_of_serving (hserving.1 hlisted)
        by_cases hrevision : pod.revision = updateRevision
        · simp [IsOld, IsNew, hlisted, hrunning, hrevision, ih]
          omega
        · simp [IsOld, IsNew, hlisted, hrevision, ih]
          omega
      · simp [IsOld, IsNew, hlisted, ih]

/-- A plan over pods that all serve changes something exactly when one is of the current revision
or an index up to the surge one is free. -/
theorem changesSomething_iff {desired : Int32} {updateRevision : String} {pods : List Pod}
    (hrevision : updateRevision ≠ "") (hold : oldPods updateRevision workload pods ≠ [])
    (hserving : ∀ pod ∈ pods, Listed workload pod → podServing pod) :
    ChangesSomething workload pods (planRollout sortFunc desired updateRevision pods) ↔
      desired ≠ 0 ∧ (newPods updateRevision workload pods ≠ [] ∨
        ∃ index : Nat, (index : Int) < (desired + 1).toInt ∧
          ∀ pod ∈ pods, podIndex workload pod ≠ some (index : Int)) := by
  rw [ChangesSomething, planRollout_eq]
  by_cases hzero : desired = 0
  · rw [if_pos (Or.inl hzero), hzero]
    simp only [Option.isSome_none, Bool.false_eq_true, false_or, ne_eq, not_true, false_and,
      iff_false]
    rintro ⟨index, hlt, -⟩
    exact absurd hlt (not_lt.mpr (Int.natCast_nonneg index))
  · rw [if_neg (not_or.mpr ⟨hzero, hrevision⟩), if_neg hold]
    dsimp only
    constructor
    · rintro (hreplace | hfree)
      · split_ifs at hreplace with hnext
        · exact ⟨hzero, Or.inl hnext.2.2.2.2.1⟩
        · cases hreplace
      · exact ⟨hzero, Or.inr hfree⟩
    · rintro ⟨-, hnew | hfree⟩
      · by_cases hfree : ∃ index : Nat, (index : Int) < (desired + 1).toInt ∧
            ∀ pod ∈ pods, podIndex workload pod ≠ some (index : Int)
        · exact Or.inr hfree
        · left
          have hcount : (desired + 1).toInt ≤ (pods.filter (Listed workload)).length := by
            apply le_length_of_indexed
            intro index hlt
            by_contra hnone
            refine hfree ⟨index, hlt, ?_⟩
            intro pod hmem heq
            exact hnone ⟨pod, hmem, heq⟩
          rw [length_listed updateRevision hserving, Int.natCast_add] at hcount
          have hnext : ReplacesNext desired updateRevision workload pods := by
            refine ⟨hzero, hrevision, hold, ?_, hnew, ?_, hcount⟩
            · rintro pod hmem ⟨hlisted, hstopping⟩
              rw [deletionTimestamp_of_serving (hserving pod hmem hlisted)] at hstopping
              cases hstopping
            · intro pod hmem
              obtain ⟨hmem, hisNew⟩ := List.mem_filter.mp hmem
              rw [decide_eq_true_eq] at hisNew
              exact hserving pod hmem hisNew.1
          rw [if_pos hnext, Option.isSome_iff_ne_none, ne_eq, List.head?_eq_none_iff]
          intro hnil
          have hperm := sortFunc.perm (oldPods updateRevision workload pods)
          rw [hnil] at hperm
          exact hold hperm.symm.eq_nil
      · exact Or.inr hfree

/-- When a rollout moves on: pass by pass, and over whole runs, whatever pods and spec they start
from, also in the middle of another rollout. -/
theorem rollout_moves_on_iff (sortFunc : SortFunc workload) :
    (∀ (desired : Int32) (updateRevision : String) (pods : List Pod), updateRevision ≠ "" →
      oldPods updateRevision workload pods ≠ [] →
      (∀ pod ∈ pods, Listed workload pod → podServing pod) →
      (ChangesSomething workload pods (planRollout sortFunc desired updateRevision pods) ↔
        desired ≠ 0 ∧ (newPods updateRevision workload pods ≠ [] ∨
          ∃ index : Nat, (index : Int) < (desired + 1).toInt ∧
            ∀ pod ∈ pods, podIndex workload pod ≠ some (index : Int)))) ∧
    ∀ cluster : Cluster, WellFormed cluster →
      ((sys sortFunc).Inevitable
          (fun cluster => cluster.UpToDate ∧ (sys sortFunc).Halted cluster) cluster ↔
        ∀ moves final, (sys sortFunc).run cluster moves = some final → ¬ final.Stuck) :=
  ⟨fun _ _ _ hrevision hold hserving => changesSomething_iff hrevision hold hserving,
    fun _ hwell => inevitable_upToDate_iff hwell⟩

theorem desired_of_step {move : Move} (hstep : cluster.step sortFunc move = some next) :
    next.desired = cluster.desired := by
  cases moved_of_step hstep <;> rfl

/-- `helloagent` as short lists are sorted. -/
def insertionOrder : SortFunc "helloagent" :=
  SortFunc.preferring "helloagent" { name := "", revision := "" }

/-- An agent of one replica scaled to none while it has a surge replica. -/
def scaledToZero : Cluster where
  desired := 0
  wanted := "v2"
  statefulSet :=
    { created := true, replicas := 2, template := "v1", updateRevision := "v1", observed := true }
  pods := [⟨0, "v1", true, false, by decide⟩, ⟨1, "v1", true, false, by decide⟩]

def oneOldPod : List Pod :=
  [{ name := "helloagent-0", revision := "v1", conditions := [⟨podReady, conditionTrue⟩] }]

theorem rollout_moves_on_scaled_to_zero :
    ChangesSomething "helloagent" oneOldPod (planRollout insertionOrder 1 "v2" oneOldPod) ∧
      (sys insertionOrder).Inevitable
        (fun cluster => cluster.UpToDate ∧ (sys insertionOrder).Halted cluster) scaledToZero := by
  refine ⟨((rollout_moves_on_iff insertionOrder).1 1 "v2" oneOldPod (by decide) (by decide)
    (by decide)).mpr ⟨by decide, Or.inr ⟨1, by decide, by decide⟩⟩, ?_⟩
  have hwell : WellFormed scaledToZero := by constructor <;> decide
  refine ((rollout_moves_on_iff insertionOrder).2 scaledToZero hwell).mpr ?_
  rintro moves final hrun ⟨hzero, -⟩
  have hkeep : ∀ (cluster : Cluster) (move : Move) (next : Cluster), cluster.desired = 0 →
      (sys insertionOrder).step cluster move = some next → next.desired = 0 := by
    intro cluster move next hdesired hstep
    exact (desired_of_step hstep).trans hdesired
  exact hzero ((sys insertionOrder).invariant_of_run hkeep rfl hrun)

/-- One replica, its surge replica on `v2` not ready yet, when the spec changes to `v3`. -/
def changedAgain : Cluster where
  desired := 1
  wanted := "v3"
  statefulSet :=
    { created := true, replicas := 2, template := "v2", updateRevision := "v2", observed := true }
  pods := [⟨0, "v1", true, false, by decide⟩, ⟨1, "v2", false, false, by decide⟩]

/-- The surge index is taken by a pod that is old by then, and no pass does anything any more. -/
theorem changed_again_never_ends :
    ¬ (sys insertionOrder).Inevitable
        (fun cluster => cluster.UpToDate ∧ (sys insertionOrder).Halted cluster) changedAgain ∧
      ¬ ChangesSomething "helloagent" (oneOldPod ++
          [{ name := "helloagent-1", revision := "v2"
             conditions := [⟨podReady, conditionTrue⟩] }])
        (planRollout insertionOrder 1 "v3" (oneOldPod ++
          [{ name := "helloagent-1", revision := "v2"
             conditions := [⟨podReady, conditionTrue⟩] }])) := by
  constructor
  · have hwell : WellFormed changedAgain := by constructor <;> decide
    rw [inevitable_upToDate_iff hwell]
    intro havoids
    refine havoids [.reconcile, .observe, .becomeReady 1] _ rfl ?_
    refine ⟨by decide, by decide, by decide, by decide, ?_⟩
    intro ordinal hlt
    have hlt : (ordinal : Int) < 2 := hlt
    obtain rfl | rfl : ordinal = 0 ∨ ordinal = 1 := by omega
    · exact ⟨⟨0, "v1", true, false, by decide⟩, by decide, rfl, rfl⟩
    · exact ⟨⟨1, "v2", true, false, by decide⟩, by decide, rfl, rfl⟩
  · rw [changesSomething_iff (by decide) (by decide) (by decide)]
    rintro ⟨-, hnew | ⟨index, hlt, hfree⟩⟩
    · exact hnew (by decide)
    · have hlt : (index : Int) < 2 := hlt
      obtain rfl | rfl : index = 0 ∨ index = 1 := by omega
      · exact absurd hfree (by decide)
      · exact absurd hfree (by decide)

end CanyonOS.Operator
