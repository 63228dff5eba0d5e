import CanyonOS.Reconciler.Passes

/-!
# Replicas that stay

Over any run of passes an agent has no more replicas that do not drain than it is to have, and those
it is to have stay.
-/

namespace CanyonOS.Reconciler.Passes

open Raising

variable {AgentName LaunchId ReplicaId : Type}

/-! ### No more than wanted -/

section Staying

variable [DecidableEq AgentName] {agentOf : ReplicaId → AgentName}
  {answers : Answers agentOf LaunchId} {agentName : AgentName} {bound : ℕ}

/-- The agent's replicas that do not drain, those not launched yet among them. -/
def Fleet.staying (agentOf : ReplicaId → AgentName) (fleet : Fleet LaunchId ReplicaId)
    (agentName : AgentName) : List (Record LaunchId ReplicaId) :=
  fleet.records.filter fun record =>
    agentOf record.replicaId = agentName ∧ record.drainingAt = none

def Within (agentOf : ReplicaId → AgentName) (agentName : AgentName) (bound : ℕ)
    (fleet : Fleet LaunchId ReplicaId) : Prop :=
  (fleet.staying agentOf agentName).length ≤ bound

theorem Within.mono {fleet : Fleet LaunchId ReplicaId} {lower : ℕ}
    (hwithin : Within agentOf agentName lower fleet) (hle : lower ≤ bound) :
    Within agentOf agentName bound fleet :=
  hwithin.trans hle

/-- Of the wanted replicas, those of the agent. -/
def wantedOf (answers : Answers agentOf LaunchId) (agentName : AgentName)
    (counts : List (AgentSpec AgentName × List ReplicaId × ℕ)) : List ReplicaId :=
  (counts.flatMap fun (spec, _, missing) =>
    (List.range missing).map (answers.draw spec.name)).filter fun replicaId =>
      agentOf replicaId = agentName

theorem wantedOf_append (first : List (AgentSpec AgentName × List ReplicaId × ℕ))
    (spec : AgentSpec AgentName) (count : List ReplicaId × ℕ) :
    wantedOf answers agentName (first ++ [(spec, count)]) =
      wantedOf answers agentName first ++
        if spec.name = agentName then (List.range count.2).map (answers.draw spec.name)
        else [] := by
  rw [wantedOf, wantedOf, List.flatMap_append, List.filter_append, List.flatMap_singleton]
  congr 1
  split_ifs with hname
  · apply List.filter_eq_self.mpr
    intro replicaId hmem
    obtain ⟨index, -, rfl⟩ := List.mem_map.mp hmem
    exact decide_eq_true (by rw [answers.agentOf_draw, hname])
  · apply List.filter_eq_nil_iff.mpr
    intro replicaId hmem
    obtain ⟨index, -, rfl⟩ := List.mem_map.mp hmem
    rw [decide_eq_true_eq, answers.agentOf_draw]
    exact hname

variable [LinearOrder ReplicaId]

theorem within_change {fleet : Fleet LaunchId ReplicaId} {replicaId : ReplicaId}
    {change : Record LaunchId ReplicaId → Option (Record LaunchId ReplicaId)}
    (hwithin : Within agentOf agentName bound fleet)
    (hstays : ∀ before after, change before = some after → after.drainingAt = none →
      before.drainingAt = none) :
    Within agentOf agentName bound (fleet.change replicaId change) := by
  refine le_trans (Fleet.length_filter_change_le _ ?_) hwithin
  intro before _ hid after hafter hholds
  simp only [decide_eq_true_eq] at hholds ⊢
  rw [hid]
  exact ⟨hholds.1, hstays before after hafter hholds.2⟩

theorem allows_within (replicaId : ReplicaId) : Allows
    (fun fleet : Fleet LaunchId ReplicaId => Within agentOf agentName bound fleet) replicaId where
  deletes fleet hwithin := within_change hwithin fun _ _ hafter => by cases hafter
  drains fleet drainingAt hwithin := by
    apply within_change hwithin
    rintro before after hafter hnone
    cases hafter
    cases hnone

theorem calm_within : Calm answers (Within agentOf agentName bound) where
  seen _ _ := id
  clears _ _ := id
  allows _ _ _ _ := Or.inl (allows_within _)

/-- Without a replica that does not drain there is one fewer. -/
theorem length_staying_delete {fleet : Fleet LaunchId ReplicaId}
    {record : Record LaunchId ReplicaId} (hmem : record ∈ fleet.records) (hagent : agentOf record.replicaId = agentName)
    (hstays : record.drainingAt = none) :
    ((fleet.delete record.replicaId).staying agentOf agentName).length + 1 =
      (fleet.staying agentOf agentName).length := by
  have hperm := Fleet.perm_delete hmem
  rw [Fleet.staying, Fleet.staying, ← (hperm.filter _).length_eq, List.filter_cons,
    if_pos (decide_eq_true ⟨hagent, hstays⟩), List.length_cons]

/-- The replicas found, and those still to look at that do not drain. -/
structure Counting (agentOf : ReplicaId → AgentName) (agentName : AgentName)
    (done rest : List (Record LaunchId ReplicaId)) (found : List (ReplicaId × Found))
    (fleet : Fleet LaunchId ReplicaId) : Prop where
  present : ∀ record ∈ rest, record ∈ fleet.records
  staying : (fleet.staying agentOf agentName).length ≤
    (found.filter fun entry => entry.2 ≠ .gone).length +
      (rest.filter fun record => record.drainingAt = none).length
  counted : (found.filter fun entry => entry.2 ≠ .gone).length ≤
    (done.filter fun record => record.drainingAt = none).length

theorem Counting.step {done rest : List (Record LaunchId ReplicaId)}
    {values : List (ReplicaId × Found)} {fleet after : Fleet LaunchId ReplicaId}
    {record : Record LaunchId ReplicaId} {found : Found}
    (hcounting : Counting agentOf agentName done (record :: rest) values fleet)
    (hagent : agentOf record.replicaId = agentName)
    (hnew : record.replicaId ∉ rest.map Record.replicaId)
    (hafter : after = fleet ∧ (found = .gone ↔ record.drainingAt.isSome = true) ∨
      after = fleet.delete record.replicaId ∧ found = .gone ∧ record.drainingAt = none) :
    Counting agentOf agentName (done ++ [record]) rest (values ++ [(record.replicaId, found)])
      after := by
  obtain ⟨hpresent, hstaying, hcounted⟩ := hcounting
  obtain ⟨hrecord, hrest⟩ := List.forall_mem_cons.mp hpresent
  rcases hafter with ⟨rfl, hgone⟩ | ⟨rfl, rfl, hstays⟩
  · refine ⟨hrest, ?_, ?_⟩
    · cases hdraining : record.drainingAt <;>
        simp [List.filter_append, hdraining, hgone] at hstaying ⊢ <;> omega
    · cases hdraining : record.drainingAt <;>
        simp [List.filter_append, hdraining, hgone] at hcounted ⊢ <;> omega
  · have hdelete := length_staying_delete hrecord hagent hstays
    refine ⟨?_, ?_, ?_⟩
    · intro other hother
      apply Fleet.mem_change_of_ne (hrest other hother)
      intro hid
      exact hnew (hid ▸ List.mem_map_of_mem hother)
    · simp [List.filter_append, hstays] at hstaying ⊢
      omega
    · simp [List.filter_append, hstays] at hcounted ⊢
      omega

theorem triple_countReplicas {spec : AgentSpec AgentName} (hdesired : spec.replicas ≤ bound) :
    Triple (Within agentOf spec.name bound) (countReplicas answers spec)
      (fun counts fleet => counts.2 ≤ bound ∧ Within agentOf spec.name (bound - counts.2) fleet)
      (fun _ => Within agentOf spec.name bound) := by
  apply triple_get_bind
  intro start hstart
  generalize hrecords : start.records.filter (fun record => agentOf record.replicaId = spec.name) =
    records
  have hcount : start.staying agentOf spec.name =
      records.filter fun record => record.drainingAt = none := by
    rw [← hrecords, List.filter_filter, Fleet.staying]
    apply List.filter_congr
    intro record _
    rw [Bool.and_comm, Bool.decide_and]
  have hstays := hstart
  rw [Within, hcount] at hstays
  have hnodup : (records.map Record.replicaId).Nodup := by
    rw [← hrecords]
    exact start.nodup.sublist (List.filter_sublist.map _)
  have hwithin {done rest : List (Record LaunchId ReplicaId)} {found : List (ReplicaId × Found)}
      (hsplit : records = done ++ rest) (fleet : Fleet LaunchId ReplicaId)
      (hcounting : Counting agentOf spec.name done rest found fleet) :
      Within agentOf spec.name bound fleet := by
    have hstaying := hcounting.staying
    have hcounted := hcounting.counted
    rw [hsplit, List.filter_append, List.length_append] at hstays
    unfold Within
    omega
  have hloop : Triple (Counting agentOf spec.name [] records [])
      (records.mapM fun record => do
        let found ← findReplica answers record
        pure (record.replicaId, found))
      (Counting agentOf spec.name records [])
      (fun _ => Within agentOf spec.name bound) := by
    apply triple_mapM
    intro done record rest values hsplit
    apply triple_of_forall
    intro fleet hcounting
    refine ((triple_findReplica record fleet).weaken (fun _ => id) (fun _ _ => id) ?_).bind
      fun found => triple_pure ?_
    · rintro _ _ rfl
      exact hwithin hsplit _ hcounting
    · intro after hafter
      rw [hsplit] at hnodup
      have hrest := (List.nodup_append.mp (by rwa [List.map_append] at hnodup)).2.1
      apply hcounting.step ?_ (List.nodup_cons.mp hrest).1 hafter
      have hmem : record ∈ records := hsplit ▸ List.mem_append_right _ List.mem_cons_self
      rw [← hrecords] at hmem
      exact of_decide_eq_true (List.mem_filter.mp hmem).2
  refine (hloop.of_pre ?_).bind fun found => triple_pure ?_
  · rintro _ rfl
    refine ⟨?_, ?_, le_rfl⟩
    · intro record hrecord
      rw [← hrecords] at hrecord
      exact List.mem_of_mem_filter hrecord
    · rw [hcount]
      exact Nat.le_add_left _ _
  · intro fleet hcounting
    have hstaying := hcounting.staying
    have hcounted := hcounting.counted
    simp only [List.filter_nil, List.length_nil] at hstaying
    refine ⟨by omega, ?_⟩
    unfold Within
    omega

theorem preserves_update {replicaId : ReplicaId}
    {change : Record LaunchId ReplicaId → Record LaunchId ReplicaId}
    (hchange : ∀ record, (change record).drainingAt = record.drainingAt) :
    Preserves (Within agentOf agentName bound)
      (modify fun fleet => fleet.update replicaId change : Pass LaunchId ReplicaId Unit) := by
  apply preserves_modify
  intro fleet hwithin
  apply within_change hwithin
  rintro before after hafter hstays
  cases hafter
  rwa [← hchange before]

theorem preserves_countReplicas (spec : AgentSpec AgentName) :
    Preserves (Within agentOf agentName bound) (countReplicas answers spec) := by
  apply preserves_get_bind
  intro start _
  refine Preserves.bind (preserves_mapM fun record _ => ?_) fun _ => preserves_pure _
  refine Preserves.bind (triple_of_forall fun fleet hfleet => ?_) fun _ => preserves_pure _
  refine (triple_findReplica record fleet).weaken (fun _ => id) ?_ ?_
  · rintro found after (⟨rfl, -⟩ | ⟨rfl, -⟩)
    · exact hfleet
    · exact (allows_within _).deletes _ hfleet
  · rintro _ _ rfl
    exact hfleet

theorem within_launchReplica (replicaId : ReplicaId) :
    Preserves (Within agentOf agentName bound) (launchReplica answers replicaId) := by
  unfold launchReplica
  split
  · exact Preserves.bind (preserves_update fun _ => rfl) fun _ => preserves_pure _
  · exact preserves_pure _
  · exact (preserves_modify (allows_within _).deletes).bind fun _ => preserves_pure _

/-- What is wanted after some of the agents, the agent among them or not. -/
structure Looking (answers : Answers agentOf LaunchId) (agentName : AgentName) (bound : ℕ)
    (done : List (AgentSpec AgentName)) (counts : List (List ReplicaId × ℕ))
    (fleet : Fleet LaunchId ReplicaId) : Prop where
  length : done.length = counts.length
  unseen : agentName ∉ done.map AgentSpec.name → wantedOf answers agentName (done.zip counts) = []
  wanted : (wantedOf answers agentName (done.zip counts)).length ≤ bound
  within : Within agentOf agentName
    (bound - (wantedOf answers agentName (done.zip counts)).length) fleet

/-- The agent's replicas together with those it is missing. -/
theorem triple_counts {specs : List (AgentSpec AgentName)}
    (hnames : (specs.map AgentSpec.name).Nodup)
    (hdesired : ∀ spec ∈ specs, spec.name = agentName → spec.replicas ≤ bound) :
    Triple (Within agentOf agentName bound) (specs.mapM (countReplicas answers))
      (fun counts fleet => (wantedOf answers agentName (specs.zip counts)).length ≤ bound ∧
        Within agentOf agentName (bound - (wantedOf answers agentName (specs.zip counts)).length)
          fleet)
      (fun _ => Within agentOf agentName bound) := by
  have hloop : Triple (Looking answers agentName bound [] [])
      (specs.mapM (countReplicas answers)) (Looking answers agentName bound specs)
      (fun _ => Within agentOf agentName bound) := by
    refine @triple_mapM _ _ _ _ _ _ (fun done _ => Looking answers agentName bound done) _ ?_
    intro done spec rest counts hsplit
    apply triple_of_forall
    rintro fleet ⟨hlength, hunseen, hwanted, hwithin⟩
    have hzip (count : List ReplicaId × ℕ) : (done ++ [spec]).zip (counts ++ [count]) =
        done.zip counts ++ [(spec, count)] := List.zip_append hlength
    have hlength' (count : List ReplicaId × ℕ) :
        (done ++ [spec]).length = (counts ++ [count]).length := by
      rw [List.length_append, List.length_append, hlength]
      rfl
    by_cases hname : spec.name = agentName
    · have hnew : agentName ∉ done.map AgentSpec.name := by
        rw [hsplit, List.map_append, List.map_cons, hname] at hnames
        intro hmem
        exact (List.nodup_append.mp hnames).2.2 agentName hmem agentName List.mem_cons_self rfl
      rw [hunseen hnew, List.length_nil, Nat.sub_zero] at hwithin
      have hspec : spec ∈ specs := hsplit ▸ List.mem_append_right _ List.mem_cons_self
      refine (triple_countReplicas (hdesired spec hspec hname)).weaken ?_ ?_ ?_
      · rintro _ rfl
        rwa [hname]
      case refine_3 => exact fun _ _ hafter => hname ▸ hafter
      rw [hname]
      rintro count after ⟨hle, hafter⟩
      have heq : wantedOf answers agentName ((done ++ [spec]).zip (counts ++ [count])) =
          (List.range count.2).map (answers.draw spec.name) := by
        rw [hzip, wantedOf_append, hunseen hnew, if_pos hname, List.nil_append]
      refine ⟨hlength' count, ?_, ?_, ?_⟩
      · intro hseen
        exact absurd (List.mem_map.mpr
          ⟨spec, List.mem_append_right _ List.mem_cons_self, hname⟩) hseen
      · rwa [heq, List.length_map, List.length_range]
      · rwa [heq, List.length_map, List.length_range]
    · refine (preserves_countReplicas spec).weaken (fun _ hfleet => hfleet ▸ hwithin) ?_ ?_
      · intro count after hafter
        have heq : wantedOf answers agentName ((done ++ [spec]).zip (counts ++ [count])) =
            wantedOf answers agentName (done.zip counts) := by
          rw [hzip, wantedOf_append, if_neg hname, List.append_nil]
        refine ⟨hlength' count, ?_, ?_, ?_⟩
        · intro hseen
          rw [heq]
          apply hunseen
          intro hmem
          rw [List.map_append] at hseen
          exact hseen (List.mem_append_left _ hmem)
        · rwa [heq]
        · rwa [heq]
      · intro _ _ hafter
        exact hafter.mono (Nat.sub_le _ _)
  refine hloop.weaken ?_ ?_ fun _ _ => id
  · intro fleet hwithin
    exact ⟨rfl, fun _ => rfl, Nat.zero_le _, hwithin⟩
  · intro counts fleet hlooking
    exact ⟨hlooking.wanted, hlooking.within⟩

/-- A placed replica is one more of its agent's. -/
theorem triple_placeReplica {replicaId : ReplicaId} {count : ℕ}
    (hcount : count + (if agentOf replicaId = agentName then 1 else 0) ≤ bound) :
    Triple (Within agentOf agentName
        (bound - (count + if agentOf replicaId = agentName then 1 else 0)))
      (placeReplica answers replicaId) (fun _ => Within agentOf agentName (bound - count))
      (fun _ => Within agentOf agentName bound) := by
  apply triple_get_bind
  intro fleet hwithin
  have hkept : Within agentOf agentName (bound - count) fleet :=
    hwithin.mono (by omega)
  split
  case isTrue hnew =>
    split
    · refine Triple.bind (triple_set fun _ _ => ?_) fun _ => triple_pure fun _ => id
      rw [Within, Fleet.staying] at hwithin ⊢
      rw [Fleet.add, List.filter_cons]
      by_cases hagent : agentOf replicaId = agentName
      · rw [if_pos hagent] at hcount hwithin
        rw [if_pos (decide_eq_true ⟨hagent, rfl⟩), List.length_cons]
        omega
      · rw [if_neg fun hholds => hagent (of_decide_eq_true hholds).1]
        rwa [if_neg hagent, Nat.add_zero] at hwithin
    · exact triple_pure fun _ hfleet => hfleet ▸ hkept
  case isFalse => exact triple_pure fun _ hfleet => hfleet ▸ hkept

theorem triple_placed {wanted : List ReplicaId}
    (hcount : (wanted.filter fun replicaId => agentOf replicaId = agentName).length ≤ bound) :
    Triple (Within agentOf agentName (bound -
        (wanted.filter fun replicaId => agentOf replicaId = agentName).length))
      (wanted.mapM (placeReplica answers)) (fun _ => Within agentOf agentName bound)
      (fun _ => Within agentOf agentName bound) := by
  refine @triple_mapM _ _ _ _ _ _ (fun _ rest _ => Within agentOf agentName (bound -
    (rest.filter fun replicaId => agentOf replicaId = agentName).length)) _ ?_
  intro done replicaId rest _ hsplit
  have hcons : ((replicaId :: rest).filter fun replicaId => agentOf replicaId = agentName).length =
      (rest.filter fun replicaId => agentOf replicaId = agentName).length +
        if agentOf replicaId = agentName then 1 else 0 := by
    rw [List.filter_cons]
    split_ifs with hname <;> simp_all
  rw [hcons]
  apply triple_placeReplica
  rw [← hcons]
  refine le_trans ?_ hcount
  rw [hsplit, List.filter_append, List.length_append]
  exact Nat.le_add_left _ _

theorem within_ensureReplicas
    (hdesired : ∀ spec ∈ answers.agentSpecs, spec.name = agentName → spec.replicas ≤ bound) :
    Preserves (Within agentOf agentName bound) (ensureReplicas answers) := by
  have hspecs : ((answers.agentSpecs.filter fun spec =>
      answers.named.all fun names => spec.name ∈ names).map AgentSpec.name).Nodup :=
    answers.names_nodup.sublist (List.filter_sublist.map _)
  refine (triple_counts hspecs fun spec hspec =>
    hdesired spec (List.mem_of_mem_filter hspec)).bind fun counts => ?_
  refine Triple.bind (triple_of_imp fun hcount => triple_placed hcount) fun placed => ?_
  refine Preserves.bind (preserves_mapM fun replicaId _ =>
    (within_launchReplica replicaId).bind fun _ => preserves_pure _) fun launches => ?_
  refine (preserves_attempt _).bind fun _ => ?_
  refine Preserves.bind (preserves_forM fun _ _ =>
    preserves_update fun _ => rfl) fun _ => ?_
  refine (preserves_attempt _).bind fun _ => ?_
  split
  · exact preserves_pure _
  · exact (preserves_caught (preserves_removeUnfinished fun _ _ _ _ _ => allows_within _)).bind
      fun _ => preserves_throw _

variable [DecidableEq LaunchId]

/-- The agent is to run no more than so many replicas. -/
def Event.Wants (agentName : AgentName) (bound : ℕ) : Event agentOf LaunchId → Prop
  | .passes answers =>
      ∀ spec ∈ answers.agentSpecs, spec.name = agentName → spec.replicas ≤ bound
  | _ => True

/-- Whatever fails and wherever the process is killed, an agent never has more replicas that do not
drain than it was to run at most. -/
theorem staying_run_le {agentName : AgentName} {bound : ℕ} {fleet final : Fleet LaunchId ReplicaId}
    {events : List (Event agentOf LaunchId)}
    (hstart : (fleet.staying agentOf agentName).length ≤ bound)
    (hwants : (system agentOf LaunchId).Guarded (fun _ event => event.Wants agentName bound)
      fleet events)
    (hrun : (system agentOf LaunchId).run fleet events = some final) :
    (final.staying agentOf agentName).length ≤ bound := by
  have hstep (fleet : Fleet LaunchId ReplicaId) (event : Event agentOf LaunchId)
      (after : Fleet LaunchId ReplicaId) (hwithin : Within agentOf agentName bound fleet)
      (hevent : event.Wants agentName bound)
      (hstep : (system agentOf LaunchId).step fleet event = some after) :
      Within agentOf agentName bound after := by
    cases hstep
    cases event with
    | passes answers =>
        exact holds_next
          (triple_reconcile calm_within (fun _ => id) (within_ensureReplicas hevent)) hwithin
    | restarts => exact hwithin
    | requests => exact hwithin
  exact (system agentOf LaunchId).invariant_run hstep hstart hwants hrun

/-- An agent with two replicas; the process is killed before their launches are recorded. -/
def cutShort : Answers (fun replicaId : ℕ => replicaId / 10) Unit where
  agentSpecs := [{ name := 1, isDatabase := false, replicas := 2 }]
  names_nodup := by decide
  named := none
  now := 100
  startupGrace := 30
  stopping := false
  imagesReady := true
  dead := []
  surplus := []
  answers _ := true
  idle _ := false
  running _ := true
  draw agentName index := 10 * agentName + index % 10
  agentOf_draw agentName index := by
    have hlast := Nat.mod_lt index (show 0 < 10 by decide)
    omega
  place _ := some ((), true)
  launches _ := .finishes
  createdAt _ := 100
  fails
    | .launched => some .killed
    | _ => none

def noReplicas : Fleet Unit ℕ where
  records := []
  nodup := List.nodup_nil
  seenHealthy := []
  replaceRequests := []

theorem staying_run_le_cutShort :
    ∃ final, (system (fun replicaId => replicaId / 10) Unit).run noReplicas
        [.passes cutShort, .restarts, .passes cutShort] = some final ∧
      (final.staying (fun replicaId => replicaId / 10) 1).length ≤ 2 := by
  have hwants : ∀ spec ∈ cutShort.agentSpecs, spec.name = 1 → spec.replicas ≤ 2 := by
    decide
  have hguarded : (system (fun replicaId => replicaId / 10) Unit).Guarded
      (fun _ event => event.Wants 1 2) noReplicas [.passes cutShort, .restarts, .passes cutShort] :=
    ⟨hwants, trivial, hwants, trivial⟩
  have hstart : (noReplicas.staying (fun replicaId => replicaId / 10) 1).length ≤ 2 :=
    Nat.zero_le 2
  exact ⟨_, rfl, staying_run_le hstart hguarded rfl⟩

end Staying

/-! ### Wanted replicas stay -/

section Standing

variable {agentOf : ReplicaId → AgentName} {answers : Answers agentOf LaunchId}
  {record : Record LaunchId ReplicaId}

/-- The replica is still there, as it was. -/
def Stands (record : Record LaunchId ReplicaId) (fleet : Fleet LaunchId ReplicaId) : Prop :=
  ∃ current ∈ fleet.records, current.replicaId = record.replicaId ∧
    current.machine = record.machine ∧ current.createdAt = record.createdAt ∧
      current.drainingAt = none

variable [LinearOrder ReplicaId]

theorem stands_change {fleet : Fleet LaunchId ReplicaId} {replicaId : ReplicaId}
    {change : Record LaunchId ReplicaId → Option (Record LaunchId ReplicaId)}
    (hid : replicaId ≠ record.replicaId) (hstands : Stands record fleet) :
    Stands record (fleet.change replicaId change) := by
  obtain ⟨current, hmem, hcurrent, hsame⟩ := hstands
  refine ⟨current, Fleet.mem_change_of_ne hmem ?_, hcurrent, hsame⟩
  rw [hcurrent]
  exact hid.symm

theorem allows_stands {replicaId : ReplicaId} (hid : replicaId ≠ record.replicaId) :
    Allows (Stands record) replicaId where
  deletes _ := stands_change hid
  drains _ _ := stands_change hid

theorem stands_findReplica {other : Record LaunchId ReplicaId}
    (hother : other.replicaId = record.replicaId →
      other.drainingAt = none ∧ other.createdAt.isSome = true)
    (hrunning : answers.running record.replicaId = true) :
    Preserves (Stands record) (findReplica answers other) := by
  by_cases hid : other.replicaId = record.replicaId
  · obtain ⟨hstays, hfinished⟩ := hother hid
    have hlaunched : other.createdAt.isNone = false := Option.isNone_eq_false_iff.mpr hfinished
    rw [findReplica, hstays, hlaunched, if_neg (by simp), if_neg Bool.false_ne_true, hid,
      if_pos hrunning]
    exact (preserves_attempt _).bind fun _ => preserves_pure _
  · refine triple_of_forall fun fleet hfleet => ?_
    refine (triple_findReplica other fleet).weaken (fun _ => id) ?_ ?_
    · rintro found after (⟨rfl, -⟩ | ⟨rfl, -⟩)
      · exact hfleet
      · exact stands_change hid hfleet
    · rintro _ _ rfl
      exact hfleet

/-- A new replica takes no ID that is taken. -/
theorem stands_placeReplica (replicaId : ReplicaId) :
    Triple (Stands record) (placeReplica answers replicaId)
      (fun placed fleet => record.replicaId ∉ placed ∧ Stands record fleet)
      (fun _ => Stands record) := by
  apply triple_get_bind
  rintro fleet ⟨current, hmem, hcurrent, hsame⟩
  have hstands : Stands record fleet := ⟨current, hmem, hcurrent, hsame⟩
  split
  case isTrue hnew =>
    split
    · refine Triple.bind (triple_set fun _ _ => ?_) fun _ => triple_pure fun _ hfleet =>
        ⟨?_, hfleet⟩
      · exact ⟨current, List.mem_cons_of_mem _ hmem, hcurrent, hsame⟩
      · intro hplaced
        apply hnew
        rw [← List.mem_singleton.mp hplaced, ← hcurrent]
        exact Fleet.mem_replicaIds hmem
    · exact triple_pure fun _ hfleet => ⟨List.not_mem_nil, hfleet ▸ hstands⟩
  case isFalse => exact triple_pure fun _ hfleet => ⟨List.not_mem_nil, hfleet ▸ hstands⟩

theorem stands_placed (wanted : List ReplicaId) :
    Triple (Stands record) (wanted.mapM (placeReplica answers))
      (fun placed fleet => record.replicaId ∉ placed.flatten ∧ Stands record fleet)
      (fun _ => Stands record) := by
  have hloop : Triple (fun fleet => record.replicaId ∉ ([] : List (List ReplicaId)).flatten ∧
        Stands record fleet) (wanted.mapM (placeReplica answers))
      (fun placed fleet => record.replicaId ∉ placed.flatten ∧ Stands record fleet)
      (fun _ => Stands record) := by
    refine @triple_mapM _ _ _ _ _ _
      (fun _ _ placed fleet => record.replicaId ∉ placed.flatten ∧ Stands record fleet) _ ?_
    intro done replicaId rest placed _
    refine triple_of_imp fun hplaced => (stands_placeReplica replicaId).imp ?_
    rintro more fleet ⟨hmore, hstands⟩
    refine ⟨?_, hstands⟩
    rw [List.flatten_append, List.mem_append, List.flatten_singleton]
    exact not_or.mpr ⟨hplaced, hmore⟩
  exact hloop.of_pre fun _ hstands => ⟨List.not_mem_nil, hstands⟩

theorem stands_launchReplica {replicaId : ReplicaId} (hid : replicaId ≠ record.replicaId) :
    Preserves (Stands record) (launchReplica answers replicaId) := by
  unfold launchReplica
  split
  · exact Preserves.bind (preserves_modify fun _ => stands_change hid) fun _ => preserves_pure _
  · exact preserves_pure _
  · exact (preserves_modify (allows_stands hid).deletes).bind fun _ => preserves_pure _

theorem stands_register (replicaId : ReplicaId) :
    Preserves (Stands record) (register replicaId : Pass LaunchId ReplicaId Unit) := by
  apply preserves_modify
  rintro fleet ⟨current, hmem, hcurrent, hsame⟩
  by_cases hid : current.replicaId = replicaId
  · refine ⟨{ current with replicaId, isInstance := true }, ?_, hid ▸ hcurrent, hsame⟩
    exact Fleet.mem_change_iff.mpr (Or.inr ⟨current, hmem, hid, _, rfl, rfl⟩)
  · exact ⟨current, Fleet.mem_change_of_ne hmem hid, hcurrent, hsame⟩

variable [DecidableEq AgentName]

theorem length_ahead_change_le {fleet : Fleet LaunchId ReplicaId} {replicaId : ReplicaId}
    {change : Record LaunchId ReplicaId → Option (Record LaunchId ReplicaId)}
    (hchange : ∀ before after, change before = some after → after.drainingAt ≠ none) :
    ((fleet.change replicaId change).ahead agentOf record).length ≤
      (fleet.ahead agentOf record).length := by
  apply Fleet.length_filter_change_le
  intro before _ _ after hafter hholds
  exact absurd (of_decide_eq_true hholds).2.2.2.1 (hchange before after hafter)

theorem Wanted.of_change {fleet : Fleet LaunchId ReplicaId} {replicaId : ReplicaId}
    {change : Record LaunchId ReplicaId → Option (Record LaunchId ReplicaId)}
    (hwanted : Wanted answers fleet record)
    (hchange : ∀ before after, change before = some after → after.drainingAt ≠ none) :
    Wanted answers (fleet.change replicaId change) record := by
  obtain ⟨spec, hspec, hcounts⟩ := hwanted.counts
  exact { hwanted with counts := ⟨spec, hspec, (length_ahead_change_le hchange).trans hcounts⟩ }

theorem calm_wanted :
    Calm answers fun fleet => record ∈ fleet.records ∧ Wanted answers fleet record where
  seen fleet seenHealthy hfleet := ⟨hfleet.1, { hfleet.2 with }⟩
  clears fleet kept hfleet :=
    ⟨hfleet.1, { hfleet.2 with
      unrequested := fun hmem => hfleet.2.unrequested (List.mem_of_mem_filter hmem) }⟩
  allows fleet other hfleet hother := by
    by_cases hid : other.replicaId = record.replicaId
    · rw [Fleet.eq_of_mem hother hfleet.1 hid]
      exact Or.inr hfleet.2
    · refine Or.inl ⟨?_, ?_⟩
      · rintro fleet ⟨hmem, hwanted⟩
        refine ⟨Fleet.mem_change_of_ne hmem (Ne.symm hid), hwanted.of_change ?_⟩
        intro before after hafter
        cases hafter
      · rintro fleet drainingAt ⟨hmem, hwanted⟩
        refine ⟨Fleet.mem_change_of_ne hmem (Ne.symm hid), hwanted.of_change ?_⟩
        intro before after hafter
        cases hafter
        exact Option.some_ne_none _

theorem stands_countReplicas (hfinished : record.createdAt.isSome = true)
    (hrunning : answers.running record.replicaId = true) (spec : AgentSpec AgentName) :
    Preserves (Stands record) (countReplicas answers spec) := by
  apply preserves_get_bind
  rintro fleet ⟨current, hmem, hcurrent, -, hcreated, hstays⟩
  refine Preserves.bind (preserves_mapM fun other hother => ?_) fun _ => preserves_pure _
  refine (stands_findReplica ?_ hrunning).bind fun _ => preserves_pure _
  intro hid
  rw [Fleet.eq_of_mem (List.mem_of_mem_filter hother) hmem (hid.trans hcurrent.symm), hcreated]
  exact ⟨hstays, hfinished⟩

theorem stands_ensureReplicas (hfinished : record.createdAt.isSome = true)
    (hrunning : answers.running record.replicaId = true) :
    Preserves (Stands record) (ensureReplicas answers) := by
  refine Preserves.bind (preserves_mapM fun spec _ =>
    stands_countReplicas hfinished hrunning spec) fun counts => ?_
  refine (stands_placed _).bind fun placed => triple_of_imp fun hplaced => ?_
  refine Preserves.bind (preserves_mapM fun replicaId hlaunch => ?_) fun launches => ?_
  · refine (stands_launchReplica ?_).bind fun _ => preserves_pure _
    rintro rfl
    exact hplaced hlaunch
  refine (preserves_attempt _).bind fun _ => ?_
  refine Preserves.bind (preserves_forM fun _ _ => stands_register _) fun _ => ?_
  refine (preserves_attempt _).bind fun _ => ?_
  split
  · exact preserves_pure _
  · refine (preserves_caught (preserves_removeUnfinished ?_)).bind fun _ => preserves_throw _
    rintro fleet other ⟨current, hmem, hcurrent, -, hcreated, -⟩ hother hnone
    apply allows_stands
    intro hid
    rw [Fleet.eq_of_mem hother hmem (hid.trans hcurrent.symm), hcreated] at hnone
    rw [hnone] at hfinished
    cases hfinished

variable [DecidableEq LaunchId]

/-- A pass finds the replica wanted, if it has it. -/
def Event.Keeps (replicaId : ReplicaId) (fleet : Fleet LaunchId ReplicaId) :
    Event agentOf LaunchId → Prop
  | .passes answers =>
      ∀ current ∈ fleet.records, current.replicaId = replicaId → Wanted answers fleet current
  | _ => True

/-- A replica that every pass finds wanted stays as it is, whatever fails and wherever the process
is killed. -/
theorem stands_run {fleet final : Fleet LaunchId ReplicaId} {events : List (Event agentOf LaunchId)}
    (hmem : record ∈ fleet.records) (hstays : record.drainingAt = none)
    (hkeeps : (system agentOf LaunchId).Guarded (Event.Keeps record.replicaId) fleet events)
    (hrun : (system agentOf LaunchId).run fleet events = some final) : Stands record final := by
  have hstep (fleet : Fleet LaunchId ReplicaId) (event : Event agentOf LaunchId)
      (after : Fleet LaunchId ReplicaId) (hstands : Stands record fleet)
      (hkeeps : event.Keeps record.replicaId fleet)
      (hstep : (system agentOf LaunchId).step fleet event = some after) : Stands record after := by
    cases hstep
    cases event with
    | passes answers =>
        obtain ⟨current, hmem, hid, hmachine, hcreated, -⟩ := hstands
        have hwanted := hkeeps current hmem hid
        have hcurrent : ∀ fleet : Fleet LaunchId ReplicaId,
            Stands current fleet → Stands record fleet := by
          rintro fleet ⟨found, hfound, hsame, hmachine', hcreated', hstays⟩
          exact ⟨found, hfound, hsame.trans hid, hmachine'.trans hmachine,
            hcreated'.trans hcreated, hstays⟩
        apply hcurrent
        refine holds_next (triple_reconcile calm_wanted ?_ ?_) ⟨hmem, hwanted⟩
        · rintro fleet ⟨hmem, hwanted⟩
          exact ⟨current, hmem, rfl, rfl, rfl, hwanted.stays⟩
        · apply Triple.of_pre (stands_ensureReplicas hwanted.finished hwanted.running)
          rintro fleet ⟨hmem, hwanted⟩
          exact ⟨current, hmem, rfl, rfl, rfl, hwanted.stays⟩
    | restarts => exact hstands
    | requests => exact hstands
  exact (system agentOf LaunchId).invariant_run hstep ⟨record, hmem, rfl, rfl, rfl, hstays⟩ hkeeps
    hrun

def oneReplica : Record Unit ℕ where
  replicaId := 10
  machine := ()
  createdAt := some 0
  drainingAt := none
  isInstance := true

def onlyReplica : Fleet Unit ℕ where
  records := [oneReplica]
  nodup := List.nodup_singleton _
  seenHealthy := []
  replaceRequests := []

theorem stands_run_cutShort :
    ∃ final, (system (fun replicaId => replicaId / 10) Unit).run onlyReplica [.passes cutShort] =
        some final ∧ Stands oneReplica final := by
  have hwanted : Wanted cutShort onlyReplica oneReplica :=
    { finished := rfl
      stays := rfl
      answered := rfl
      running := rfl
      unrequested := List.not_mem_nil
      machine := List.not_mem_nil
      up := rfl
      counts := ⟨_, rfl, (List.length_filter_le _ _).trans one_le_two⟩ }
  have hguarded : (system (fun replicaId => replicaId / 10) Unit).Guarded
      (Event.Keeps oneReplica.replicaId) onlyReplica [.passes cutShort] := by
    refine ⟨?_, trivial⟩
    intro current hmem _
    rwa [List.mem_singleton.mp hmem]
  exact ⟨_, rfl, stands_run (List.mem_singleton.mpr rfl) rfl hguarded rfl⟩

end Standing

end CanyonOS.Reconciler.Passes
