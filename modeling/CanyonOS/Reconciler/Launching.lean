import Mathlib
import CanyonOS.Lib.TransitionSystem

/-!
# Launches of replicas

`ensure_replicas` launches replicas in parallel, each in about ten steps outside the process
(`replica_provisioner.py`, `replicas.py`). A replica's record is written in three instalments: when
it is placed, before its container is started, and once the container answers. A launch that raises
or is killed leaves its record unfinished, and `remove_unfinished` removes the container it names.
-/

namespace CanyonOS.Reconciler.Launching

/-- A container; one without a group is from before there were projects. -/
structure Container (Group : Type*) where
  group : Option Group
  running : Bool
deriving DecidableEq

/-- A record, by what its three instalments write: the machine of its container with the container's
name, and the address. -/
structure Record (Host : Type*) where
  container : Option Host
  finished : Bool
deriving DecidableEq

/-- Where a launch stands: `_launch_replica` with `launch` inside. -/
inductive Stage where
  /-- waiting for the image -/
  | sending
  | claiming
  /-- about to write the container's name into the record -/
  | saving
  | inspecting
  /-- `_refuse_other_projects_container` -/
  | asking
  | removingOrphan
  /-- the port of a database, the machine's Redis, the record of the endpoint -/
  | preparing
  /-- `_clear_stale_status`, in an attempt -/
  | clearing (attempt : ℕ)
  /-- `docker run` -/
  | running (attempt : ℕ)
  /-- removing what a port conflict left -/
  | unbinding (attempt : ℕ)
  | waiting
  /-- `_write_replica`, before its two writes -/
  | pricing
  | finishing
  /-- a `ForeignContainerError` -/
  | dropping
deriving DecidableEq

structure Launch (Host : Type*) where
  host : Host
  stage : Stage
deriving DecidableEq

/-- A replica's record, its launch, the containers under its name on the machines, and the
`docker run` of its launches that Docker is still carrying out. -/
structure Replica (Host Group : Type*) where
  record : Option (Record Host)
  launch : Option (Launch Host)
  containers : Host → Option (Container Group)
  pending : Host → Bool
  /-- where the launch started a container -/
  started : Option Host
  /-- its container is removed, its record not yet -/
  removed : Bool

/-- `MAX_PORT_ATTEMPTS`. -/
def maxPortAttempts : ℕ := 50

/-- Steps of a launch, and what becomes of its commands. -/
inductive LaunchEvent where
  | sends
  | claims
  | saves
  | inspects
  /-- `docker inspect` fails -/
  | inspectFails
  | asks
  /-- Docker would not say -/
  | askFails
  | removesContainer
  | removeFails
  | prepares
  | clears
  | starts
  | conflicts
  /-- `docker run` fails and leaves a container that was created -/
  | startFails
  /-- `docker run` takes too long and goes on -/
  | timesOut
  | reaches
  | prices
  | finishes
  | drops
  | raises
deriving DecidableEq

inductive Event (Host Group : Type*) where
  /-- `ensure_replicas` gives the replica a machine -/
  | places (host : Host)
  | launch (event : LaunchEvent)
  /-- `remove_unfinished` removes the container an unfinished record names -/
  | removes
  /-- the record of a removed container is deleted -/
  | forgets
  /-- `ensure_replicas` removes a container that is not running -/
  | removesStopped
  /-- another group or no project creates a container -/
  | creates (host : Host) (container : Container Group)
  | sets (host : Host) (running : Bool)
  | vanishes (host : Host)
  /-- Docker carries a `docker run` out that its caller no longer waits for -/
  | carriesOut (host : Host) (running : Bool)
deriving DecidableEq

section Steps

variable {Host Group : Type*} [DecidableEq Host] [DecidableEq Group]

/-- The container belongs to another Docker group. -/
def Container.Foreign (project : Group) (container : Container Group) : Prop :=
  ∃ group ∈ container.group, group ≠ project

instance decidableForeign (project : Group) : DecidablePred (Container.Foreign project) :=
  fun _ => inferInstanceAs (Decidable (∃ _ ∈ _, _))

namespace Replica

def enter (replica : Replica Host Group) (host : Host) (stage : Stage) : Replica Host Group :=
  { replica with launch := some ⟨host, stage⟩ }

def ended (replica : Replica Host Group) : Replica Host Group :=
  { replica with launch := none }

def setContainer (replica : Replica Host Group) (host : Host)
    (container : Option (Container Group)) : Replica Host Group :=
  { replica with containers := Function.update replica.containers host container }

/-- The next attempt on another port, or no free port. -/
def retry (replica : Replica Host Group) (host : Host) (attempt : ℕ) : Replica Host Group :=
  if attempt + 1 < maxPortAttempts then replica.enter host (.clearing (attempt + 1))
  else replica.ended

def launchStep (project : Group) (replica : Replica Host Group) (host : Host) :
    Stage → LaunchEvent → Option (Replica Host Group)
  | .sending, .sends => some (replica.enter host .claiming)
  | .claiming, .claims => some (replica.enter host .saving)
  | .saving, .saves =>
      some { replica with
        record := replica.record.map fun record => { record with container := some host }
        launch := some ⟨host, .inspecting⟩ }
  | .inspecting, .inspects =>
      let running := ∃ container ∈ replica.containers host, container.running = true
      some (replica.enter host (if running then .asking else .preparing))
  | .inspecting, .inspectFails => some (replica.enter host .preparing)
  | .asking, .asks =>
      let foreign := ∃ container ∈ replica.containers host, container.Foreign project
      some (replica.enter host (if foreign then .dropping else .removingOrphan))
  | .asking, .askFails => some (replica.enter host .dropping)
  | .removingOrphan, .removesContainer =>
      some ((replica.setContainer host none).enter host .preparing)
  | .removingOrphan, .removeFails => some (replica.enter host .preparing)
  | .preparing, .prepares => some (replica.enter host (.clearing 0))
  | .clearing attempt, .clears => some (replica.enter host (.running attempt))
  | .running _, .starts =>
      if replica.containers host = none then
        some { (replica.setContainer host (some ⟨some project, true⟩)).enter host .waiting with
          started := some host }
      else none
  | .running attempt, .conflicts =>
      if replica.containers host = none then
        some ((replica.setContainer host (some ⟨some project, false⟩)).enter host
          (.unbinding attempt))
      else none
  | .running _, .startFails =>
      if replica.containers host = none then
        some (replica.setContainer host (some ⟨some project, false⟩)).ended
      else none
  | .running _, .timesOut =>
      some { replica.ended with pending := Function.update replica.pending host true }
  | .unbinding attempt, .removesContainer =>
      some ((replica.setContainer host none).retry host attempt)
  | .unbinding attempt, .removeFails => some (replica.retry host attempt)
  | .waiting, .reaches => some (replica.enter host .pricing)
  | .pricing, .prices => some (replica.enter host .finishing)
  | .finishing, .finishes =>
      some { replica.ended with
        record := replica.record.map fun record => { record with finished := true } }
  | .dropping, .drops => some { replica.ended with record := none }
  | _, .raises => some replica.ended
  | _, _ => none

/-- The container a record names is removed, as `docker rm` does it. -/
def removeContainer (replica : Replica Host Group) (record : Record Host) : Replica Host Group :=
  match record.container with
  | none => replica
  | some host => replica.setContainer host none

def step (project : Group) (replica : Replica Host Group) :
    Event Host Group → Option (Replica Host Group)
  | .places host =>
      if replica.record = none ∧ replica.launch = none then
        some { replica.enter host .sending with record := some ⟨none, false⟩ }
      else none
  | .launch event =>
      replica.launch.bind fun launch =>
        replica.launchStep project launch.host launch.stage event
  | .removes =>
      replica.record.bind fun record =>
        if replica.launch = none ∧ record.finished = false then
          some { replica.removeContainer record with removed := true }
        else none
  | .forgets =>
      if replica.removed then some { replica with record := none, removed := false } else none
  | .removesStopped =>
      replica.record.bind fun record =>
        let stopped := ∀ host ∈ record.container, ∀ container ∈ replica.containers host,
          container.running = false
        if replica.launch = none ∧ record.finished = true ∧ stopped then
          some { replica.removeContainer record with removed := true }
        else none
  | .creates host container =>
      if replica.containers host = none ∧ container.group ≠ some project then
        some (replica.setContainer host (some container))
      else none
  | .sets host running =>
      some (replica.setContainer host ((replica.containers host).map ({ · with running })))
  | .vanishes host => some (replica.setContainer host none)
  | .carriesOut host running =>
      if replica.pending host then
        let container := (replica.containers host).getD ⟨some project, running⟩
        some { replica.setContainer host (some container) with
          pending := Function.update replica.pending host false }
      else none

/-- The launch is at its `docker run` on a machine. -/
def RunsAt (replica : Replica Host Group) (host : Host) : Prop :=
  match replica.launch with
  | some ⟨launchHost, .running _⟩ => launchHost = host
  | _ => False

instance decidableRunsAt (replica : Replica Host Group) (host : Host) :
    Decidable (replica.RunsAt host) := by
  unfold RunsAt
  split <;> infer_instance

/-- The process is killed, after it has sent its `docker run` or before. -/
def killed (replica : Replica Host Group) (sent : Bool) : Replica Host Group :=
  { replica.ended with
    pending := fun host => replica.pending host || sent && decide (replica.RunsAt host)
    removed := false }

end Replica

/-- The replicas by their IDs, and those placed since the process started. -/
structure State (ReplicaId Host Group : Type*) where
  replicas : ReplicaId → Replica Host Group
  placed : List ReplicaId

inductive Action (ReplicaId Host Group : Type*) where
  | replica (replicaId : ReplicaId) (event : Event Host Group)
  /-- the process is killed and started again -/
  | kills (sent : ReplicaId → Bool)

variable {ReplicaId : Type*} [DecidableEq ReplicaId]

/-- All launches have ended. -/
def State.Ended (state : State ReplicaId Host Group) : Prop :=
  ∀ replicaId ∈ state.placed, (state.replicas replicaId).launch = none

instance decidableEnded (state : State ReplicaId Host Group) : Decidable state.Ended :=
  inferInstanceAs (Decidable (∀ _ ∈ _, _))

/-- The steps that no launch runs beside. -/
def Event.Alone : Event Host Group → Prop
  | .removes | .removesStopped => True
  | _ => False

instance decidableAlone : DecidablePred (Event.Alone : Event Host Group → Prop) := fun event => by
  cases event <;> unfold Event.Alone <;> infer_instance

def Event.isPlacing : Event Host Group → Bool
  | .places _ => true
  | _ => false

def step (project : Group) (state : State ReplicaId Host Group) :
    Action ReplicaId Host Group → Option (State ReplicaId Host Group)
  | .replica replicaId event =>
      if event.Alone ∧ ¬ state.Ended then none
      else ((state.replicas replicaId).step project event).map fun replica =>
        { replicas := Function.update state.replicas replicaId replica
          placed := if event.isPlacing then replicaId :: state.placed else state.placed }
  | .kills sent =>
      some
        { replicas := fun replicaId => (state.replicas replicaId).killed (sent replicaId)
          placed := [] }

def system (ReplicaId Host : Type*) [DecidableEq ReplicaId] [DecidableEq Host] (project : Group) :
    TransitionSystem (State ReplicaId Host Group) (Action ReplicaId Host Group) where
  step := step project

def initial (ReplicaId Host Group : Type*) : State ReplicaId Host Group where
  replicas _ :=
    { record := none
      launch := none
      containers := fun _ => none
      pending := fun _ => false
      started := none
      removed := false }
  placed := []

/-! ### The law -/

namespace Replica

/-- The container under the name that an unfinished record names. -/
def holder (replica : Replica Host Group) : Option (Container Group) :=
  replica.record.bind fun record =>
    if record.finished then none else record.container.bind replica.containers

/-- An unfinished record names another group's container. -/
def Contested (project : Group) (replica : Replica Host Group) : Prop :=
  ∃ container ∈ replica.holder, container.Foreign project

instance decidableContested (project : Group) (replica : Replica Host Group) :
    Decidable (replica.Contested project) :=
  inferInstanceAs (Decidable (∃ _ ∈ _, _))

/-- An unfinished record names the container of this name on a machine. -/
def Names (replica : Replica Host Group) (host : Host) : Prop :=
  ∃ record ∈ replica.record, record.finished = false ∧ record.container = some host

instance decidableNames (replica : Replica Host Group) (host : Host) :
    Decidable (replica.Names host) :=
  inferInstanceAs (Decidable (∃ _ ∈ _, _))

/-- A launch whose name another group's container has goes on only to find that out: the container
is running when the name is saved, both inspections are made and the record is dropped. -/
def LaunchSafe (project : Group) (replica : Replica Host Group) : LaunchEvent → Prop
  | .saves => ∀ launch ∈ replica.launch, ∀ container ∈ replica.containers launch.host,
      container.Foreign project → container.running = true
  | .inspects | .asks | .askFails | .drops => True
  | _ => ¬ replica.Contested project

instance decidableLaunchSafe (project : Group) (replica : Replica Host Group) :
    DecidablePred (replica.LaunchSafe project) := fun event => by
  cases event <;> unfold LaunchSafe <;> infer_instance

def Safe (project : Group) (replica : Replica Host Group) : Event Host Group → Prop
  | .launch event => replica.LaunchSafe project event
  | .removes => ∀ record ∈ replica.record, ∀ host ∈ record.container,
      replica.pending host = false
  | .creates host container => container.Foreign project → ¬ replica.Names host
  | .sets host running => running = false → ∀ container ∈ replica.containers host,
      container.Foreign project → ¬ replica.Names host
  | _ => True

instance decidableSafe (project : Group) (replica : Replica Host Group) :
    DecidablePred (replica.Safe project) := fun event => by
  cases event <;> unfold Safe <;> infer_instance

end Replica

/-- No container of another group has the name of a replica being launched, or of one whose launch
failed, but a running one that the launch finds and reports; and Docker is not still carrying out a
`docker run` whose container `remove_unfinished` removes. -/
def Safe (project : Group) (state : State ReplicaId Host Group) :
    Action ReplicaId Host Group → Prop
  | .replica replicaId event => (state.replicas replicaId).Safe project event
  | .kills _ => ∀ replicaId ∈ state.placed, ¬ (state.replicas replicaId).Contested project

instance decidableSafe (project : Group) (state : State ReplicaId Host Group) :
    DecidablePred (Safe project state) := fun action => by
  cases action <;> unfold Safe <;> infer_instance

/-- The steps of launches and of `remove_unfinished`. -/
def Event.Ours : Event Host Group → Prop
  | .places _ | .launch _ | .removes | .forgets => True
  | _ => False

/-- Those and the process's own. -/
def Action.Ours : Action ReplicaId Host Group → Prop
  | .replica _ event => event.Ours
  | .kills _ => True

/-- What the claim says of a record once all launches have ended: it is finished and names the
container its launch started, or the next removal takes it away with its container. -/
def Settled (project : Group) (state : State ReplicaId Host Group) (replicaId : ReplicaId)
    (record : Record Host) : Prop :=
  if record.finished then
    ∃ host, record.container = some host ∧ (state.replicas replicaId).started = some host
  else ∃ after, (system ReplicaId Host project).run state
      [.replica replicaId .removes, .replica replicaId .forgets] = some after ∧
    (after.replicas replicaId).record = none ∧
    ∀ host, record.container = some host → (after.replicas replicaId).containers host = none

/-- The launches leave nothing behind and take nothing foreign. -/
structure Holds (project : Group) (state : State ReplicaId Host Group)
    (action : Action ReplicaId Host Group) (next : State ReplicaId Host Group) : Prop where
  settled : next.Ended → ∀ replicaId record, (next.replicas replicaId).record = some record →
    Settled project next replicaId record
  named : ∀ replicaId host container, (next.replicas replicaId).containers host = some container →
    container.group = some project →
    ∃ record, (next.replicas replicaId).record = some record ∧ record.container = some host
  untouched : action.Ours → ∀ replicaId host container,
    (state.replicas replicaId).containers host = some container → container.Foreign project →
    (next.replicas replicaId).containers host = some container

end Steps

/-! ### One replica -/

section Replicas

variable {Host Group : Type*}

def Stage.Named : Stage → Prop
  | .sending | .claiming | .saving => False
  | _ => True

/-- Before a launch starts its container. -/
def Stage.Early : Stage → Prop
  | .sending | .claiming | .saving | .inspecting | .asking | .removingOrphan | .dropping => True
  | _ => False

/-- Where a launch may meet another group's container. -/
def Stage.Checks : Stage → Prop
  | .inspecting | .asking | .dropping => True
  | _ => False

def Stage.Started : Stage → Prop
  | .waiting | .pricing | .finishing => True
  | _ => False

instance decidableNamed : DecidablePred Stage.Named := fun stage => by
  cases stage <;> unfold Stage.Named <;> infer_instance

namespace Replica

/-- What holds of each replica at any time. -/
structure Sound (project : Group) (replica : Replica Host Group) : Prop where
  launched : ∀ launch, replica.launch = some launch → ∃ record, replica.record = some record ∧
    record.finished = false ∧
    record.container = if launch.stage.Named then some launch.host else none
  owned : ∀ host container, replica.containers host = some container →
    container.group = some project →
    ∃ record, replica.record = some record ∧ record.container = some host
  early : ∀ launch, replica.launch = some launch → launch.stage.Early → ∀ host container,
    replica.containers host = some container → container.group ≠ some project
  pending : ∀ host, replica.pending host = true → replica.launch = none ∧ replica.Names host
  finished : ∀ record, replica.record = some record → record.finished = true →
    ∃ host, record.container = some host ∧ replica.started = some host
  started : ∀ launch, replica.launch = some launch → launch.stage.Started →
    replica.started = some launch.host
  contested : ∀ host container, replica.Names host → replica.containers host = some container →
    container.Foreign project → ∃ launch, replica.launch = some launch ∧ launch.stage.Checks ∧
      (launch.stage = .inspecting → container.running = true)
  removed : replica.removed = true → replica.launch = none ∧ replica.record ≠ none ∧
    (∀ host, replica.pending host = false) ∧
    ∀ host container, replica.containers host = some container → container.group ≠ some project

variable {project : Group} {replica next : Replica Host Group} {host : Host} {stage : Stage}

theorem contested_iff : replica.Contested project ↔ ∃ host container, replica.Names host ∧
    replica.containers host = some container ∧ container.Foreign project := by
  unfold Contested holder Names
  constructor
  · rintro ⟨container, hholder, hforeign⟩
    obtain ⟨record, hrecord, hholder⟩ := Option.bind_eq_some_iff.mp hholder
    cases hfinished : record.finished with
    | true =>
        rw [hfinished] at hholder
        cases hholder
    | false =>
        rw [hfinished] at hholder
        obtain ⟨host, hhost, hcontainer⟩ := Option.bind_eq_some_iff.mp hholder
        exact ⟨host, container, ⟨record, hrecord, hfinished, hhost⟩, hcontainer, hforeign⟩
  · rintro ⟨host, container, ⟨record, hrecord, hfinished, hhost⟩, hcontainer, hforeign⟩
    refine ⟨container, ?_, hforeign⟩
    rw [Option.mem_def] at hrecord ⊢
    rw [hrecord, Option.bind_some, hfinished, hhost]
    exact hcontainer

theorem free_of_not_contested (hfree : ¬ replica.Contested project) {other : Host}
    {container : Container Group} (hnames : replica.Names other)
    (hcontainer : replica.containers other = some container) : ¬ container.Foreign project :=
  fun hforeign => hfree (contested_iff.mpr ⟨other, container, hnames, hcontainer, hforeign⟩)

/-- A launch's replica is contested only while the launch checks the name. -/
theorem Sound.not_contested (hsound : replica.Sound project)
    (hchecks : ∀ launch, replica.launch = some launch → ¬ launch.stage.Checks) :
    ¬ replica.Contested project := by
  intro hcontested
  obtain ⟨host, container, hnames, hcontainer, hforeign⟩ := contested_iff.mp hcontested
  obtain ⟨launch, hlaunch, hstage, -⟩ := hsound.contested host container hnames hcontainer hforeign
  exact hchecks launch hlaunch hstage

theorem Sound.not_pending (hsound : replica.Sound project) (hlaunch : replica.launch ≠ none)
    (other : Host) : replica.pending other = false := by
  cases hpending : replica.pending other with
  | false => rfl
  | true => exact absurd (hsound.pending other hpending).1 hlaunch

/-- A launch enters its next stage. -/
theorem Sound.enter (hsound : replica.Sound project)
    (hlaunch : replica.launch = some ⟨host, stage⟩) {entered : Stage}
    (hnamed : entered.Named ↔ stage.Named) (hearly : entered.Early → stage.Early)
    (hstarted : entered.Started → replica.started = some host)
    (hcontested : ∀ other container, replica.Names other →
      replica.containers other = some container → container.Foreign project →
      entered.Checks ∧ (entered = .inspecting → container.running = true)) :
    (replica.enter host entered).Sound project where
  launched launch hentered := by
    cases hentered
    obtain ⟨record, hrecord, hfinished, hcontainer⟩ := hsound.launched _ hlaunch
    refine ⟨record, hrecord, hfinished, hcontainer.trans ?_⟩
    exact if_congr hnamed.symm rfl rfl
  owned := hsound.owned
  early launch hentered := by
    cases hentered
    exact fun h => hsound.early _ hlaunch (hearly h)
  pending other hpending := by
    have hnone := (hsound.pending other hpending).1
    rw [hlaunch] at hnone
    cases hnone
  finished := hsound.finished
  started launch hentered := by
    cases hentered
    exact hstarted
  contested other container hnames hcontainer hforeign :=
    ⟨_, rfl, hcontested other container hnames hcontainer hforeign⟩
  removed hremoved := by
    have hnone := (hsound.removed hremoved).1
    rw [hlaunch] at hnone
    cases hnone

/-- A launch ends, whatever it did. -/
theorem Sound.ended (hsound : replica.Sound project) (hfree : ¬ replica.Contested project) :
    replica.ended.Sound project where
  launched _ h := by cases h
  owned := hsound.owned
  early _ h := by cases h
  pending other hpending := ⟨rfl, (hsound.pending other hpending).2⟩
  finished := hsound.finished
  started _ h := by cases h
  contested _ _ hnames hcontainer hforeign :=
    absurd hforeign (free_of_not_contested hfree hnames hcontainer)
  removed hremoved := ⟨rfl, (hsound.removed hremoved).2⟩

theorem Sound.not_removed (hsound : replica.Sound project) (hlaunch : replica.launch ≠ none) :
    replica.removed = false := by
  cases hremoved : replica.removed with
  | false => rfl
  | true => exact absurd (hsound.removed hremoved).1 hlaunch

theorem Sound.eq_of_names (hsound : replica.Sound project)
    (hlaunch : replica.launch = some ⟨host, stage⟩) (hnamed : stage.Named) {other : Host}
    (hnames : replica.Names other) : other = host := by
  obtain ⟨record, hrecord, -, hcontainer⟩ := hsound.launched _ hlaunch
  obtain ⟨found, hfound, -, hother⟩ := hnames
  have heq := hrecord.symm.trans hfound
  cases heq
  rw [if_pos hnamed, hother] at hcontainer
  exact Option.some.inj hcontainer

theorem Sound.setStarted (hsound : replica.Sound project)
    (hlaunch : replica.launch = some ⟨host, stage⟩) :
    Sound project { replica with started := some host } := by
  obtain ⟨record, hrecord, hunfinished, -⟩ := hsound.launched _ hlaunch
  refine { hsound with finished := ?_, started := ?_ }
  · intro found hfound hfinished
    have heq := hrecord.symm.trans hfound
    cases heq
    exact absurd (hfinished.symm.trans hunfinished) (by decide)
  · intro launch h _
    have heq := hlaunch.symm.trans h
    cases heq
    rfl

theorem Sound.retry (hsound : replica.Sound project)
    {attempt : ℕ} (hlaunch : replica.launch = some ⟨host, .unbinding attempt⟩)
    (hfree : ¬ replica.Contested project) : (replica.retry host attempt).Sound project := by
  unfold Replica.retry
  split
  · exact hsound.enter hlaunch Iff.rfl (fun h => h.elim) (fun h => h.elim)
      fun _ _ hnames hcontainer hforeign =>
        absurd hforeign (free_of_not_contested hfree hnames hcontainer)
  · exact hsound.ended hfree

/-! ### A launch's steps -/

/-- The record names the container; another group's must be running to be found. -/
theorem Sound.saves (hsound : replica.Sound project)
    (hlaunch : replica.launch = some ⟨host, .saving⟩)
    (hrunning : ∀ container, replica.containers host = some container →
      container.Foreign project → container.running = true) :
    Sound project { replica with
      record := replica.record.map fun record => { record with container := some host }
      launch := some ⟨host, .inspecting⟩ } := by
  have hne : replica.launch ≠ none := by simp [hlaunch]
  obtain ⟨record, hrecord, hfinished, -⟩ := hsound.launched _ hlaunch
  have hearly := hsound.early _ hlaunch trivial
  rw [hrecord, Option.map_some]
  constructor
  case launched =>
    intro launch h
    cases h
    exact ⟨_, rfl, hfinished, rfl⟩
  case owned =>
    intro other container hcontainer hgroup
    exact absurd hgroup (hearly other container hcontainer)
  case early =>
    intro launch h _
    cases h
    exact hearly
  case pending =>
    intro other hpending
    rw [hsound.not_pending hne other] at hpending
    cases hpending
  case finished =>
    intro saved h hsaved
    cases h
    exact absurd (hsaved.symm.trans hfinished) (by decide)
  case started =>
    intro launch h hstarted
    cases h
    cases hstarted
  case contested =>
    rintro other container ⟨saved, hsaved, -, hother⟩ hcontainer hforeign
    cases hsaved
    cases hother
    exact ⟨_, rfl, trivial, fun _ => hrunning container hcontainer hforeign⟩
  case removed =>
    intro hremoved
    exact absurd ((hsound.not_removed hne).symm.trans hremoved) (by decide)

theorem Sound.finishes (hsound : replica.Sound project)
    (hlaunch : replica.launch = some ⟨host, .finishing⟩) :
    Sound project { replica.ended with
      record := replica.record.map fun record => { record with finished := true } } := by
  have hne : replica.launch ≠ none := by simp [hlaunch]
  obtain ⟨record, hrecord, -, hcontainer⟩ := hsound.launched _ hlaunch
  have hhost : record.container = some host := hcontainer.trans (if_pos trivial)
  rw [hrecord, Option.map_some]
  constructor
  case launched => exact fun _ h => (by cases h)
  case owned =>
    intro other container hfound hgroup
    obtain ⟨found, hrecord', hother⟩ := hsound.owned other container hfound hgroup
    rw [hrecord] at hrecord'
    cases hrecord'
    exact ⟨_, rfl, hother⟩
  case early => exact fun _ h => (by cases h)
  case pending =>
    intro other hpending
    exact absurd ((hsound.not_pending hne other).symm.trans hpending) (by decide)
  case finished =>
    intro saved h _
    cases h
    exact ⟨host, hhost, hsound.started _ hlaunch trivial⟩
  case started => exact fun _ h => (by cases h)
  case contested =>
    rintro other container ⟨saved, hsaved, hfinished, -⟩
    cases hsaved
    cases hfinished
  case removed =>
    intro hremoved
    exact absurd ((hsound.not_removed hne).symm.trans hremoved) (by decide)

theorem Sound.drops (hsound : replica.Sound project)
    (hlaunch : replica.launch = some ⟨host, .dropping⟩) :
    Sound project { replica.ended with record := none } := by
  have hne : replica.launch ≠ none := by simp [hlaunch]
  have hearly := hsound.early _ hlaunch trivial
  constructor
  case launched => exact fun _ h => (by cases h)
  case owned =>
    intro other container hcontainer hgroup
    exact absurd hgroup (hearly other container hcontainer)
  case early => exact fun _ h => (by cases h)
  case pending =>
    intro other hpending
    exact absurd ((hsound.not_pending hne other).symm.trans hpending) (by decide)
  case finished => exact fun _ h => (by cases h)
  case started => exact fun _ h => (by cases h)
  case contested =>
    rintro other container ⟨saved, hsaved, -⟩
    cases hsaved
  case removed =>
    intro hremoved
    exact absurd ((hsound.not_removed hne).symm.trans hremoved) (by decide)

/-! ### Placing and forgetting -/

theorem Sound.places (hsound : replica.Sound project) (hrecord : replica.record = none)
    (host : Host) :
    Sound project { replica.enter host .sending with record := some ⟨none, false⟩ } := by
  have hfresh : ∀ other container, replica.containers other = some container →
      container.group ≠ some project := by
    intro other container hcontainer hgroup
    obtain ⟨record, hsome, -⟩ := hsound.owned other container hcontainer hgroup
    rw [hrecord] at hsome
    cases hsome
  constructor
  case launched =>
    intro launch h
    cases h
    exact ⟨_, rfl, rfl, rfl⟩
  case owned =>
    intro other container hcontainer hgroup
    exact absurd hgroup (hfresh other container hcontainer)
  case early => exact fun _ _ _ => hfresh
  case pending =>
    intro other hpending
    obtain ⟨-, record, hsome, -⟩ := hsound.pending other hpending
    rw [hrecord] at hsome
    cases hsome
  case finished =>
    intro record h hfinished
    cases h
    cases hfinished
  case started =>
    intro launch h hstarted
    cases h
    cases hstarted
  case contested =>
    rintro other container ⟨record, hsome, -, hcontainer⟩
    cases hsome
    cases hcontainer
  case removed => exact fun hremoved => absurd hrecord (hsound.removed hremoved).2.1

theorem Sound.forgets (hsound : replica.Sound project) (hremoved : replica.removed = true) :
    Sound project { replica with record := none, removed := false } := by
  obtain ⟨hlaunch, -, hpending, hgone⟩ := hsound.removed hremoved
  constructor
  case launched =>
    intro launch h
    cases hlaunch.symm.trans h
  case owned =>
    intro host container hcontainer hgroup
    exact absurd hgroup (hgone host container hcontainer)
  case early => exact fun _ _ _ => hgone
  case pending =>
    intro host h
    exact absurd ((hpending host).symm.trans h) (by decide)
  case finished => exact fun _ h => (by cases h)
  case started => exact hsound.started
  case contested =>
    rintro host container ⟨record, hsome, -⟩
    cases hsome
  case removed => exact fun h => (by cases h)

variable [DecidableEq Host]

/-! ### Containers -/

theorem containers_setContainer {container : Option (Container Group)} {other : Host}
    {found : Container Group}
    (hfound : (replica.setContainer host container).containers other = some found) :
    other = host ∧ container = some found ∨ replica.containers other = some found := by
  have hupdate : Function.update replica.containers host container other = some found := hfound
  by_cases hother : other = host
  · subst hother
    rw [Function.update_self] at hupdate
    exact Or.inl ⟨rfl, hupdate⟩
  · rw [Function.update_of_ne hother] at hupdate
    exact Or.inr hupdate

/-- A container is removed, or one takes the name that may have it. -/
theorem Sound.setContainer (hsound : replica.Sound project) {container : Option (Container Group)}
    (howned : ∀ found, container = some found → found.group = some project →
      (∃ record, replica.record = some record ∧ record.container = some host) ∧
        (∀ launch, replica.launch = some launch → ¬ launch.stage.Early) ∧
        replica.removed = false)
    (hcontested : ∀ found, container = some found → replica.Names host →
      found.Foreign project → ∃ launch, replica.launch = some launch ∧ launch.stage.Checks ∧
        (launch.stage = .inspecting → found.running = true)) :
    (replica.setContainer host container).Sound project where
  launched := hsound.launched
  owned other found hfound hgroup := by
    rcases containers_setContainer hfound with ⟨rfl, hset⟩ | hfound
    · exact (howned found hset hgroup).1
    · exact hsound.owned other found hfound hgroup
  early launch hlaunch hearly other found hfound hgroup := by
    rcases containers_setContainer hfound with ⟨rfl, hset⟩ | hfound
    · exact (howned found hset hgroup).2.1 launch hlaunch hearly
    · exact hsound.early launch hlaunch hearly other found hfound hgroup
  pending := hsound.pending
  finished := hsound.finished
  started := hsound.started
  contested other found hnames hfound hforeign := by
    rcases containers_setContainer hfound with ⟨rfl, hset⟩ | hfound
    · exact hcontested found hset hnames hforeign
    · exact hsound.contested other found hnames hfound hforeign
  removed hremoved := by
    obtain ⟨hnone, hrecord, hpending, hcontainers⟩ := hsound.removed hremoved
    refine ⟨hnone, hrecord, hpending, ?_⟩
    intro other found hfound hgroup
    rcases containers_setContainer hfound with ⟨rfl, hset⟩ | hfound
    · exact Bool.false_ne_true ((howned found hset hgroup).2.2.symm.trans hremoved)
    · exact hcontainers other found hfound hgroup

theorem Sound.clear (hsound : replica.Sound project) (host : Host) :
    (replica.setContainer host none).Sound project :=
  hsound.setContainer (fun _ h => (by cases h)) fun _ h => (by cases h)

/-- A launch past its checks makes a container under the name in its record. -/
theorem Sound.create (hsound : replica.Sound project)
    (hlaunch : replica.launch = some ⟨host, stage⟩) (hnamed : stage.Named)
    (hearly : ¬ stage.Early) (running : Bool) :
    (replica.setContainer host (some ⟨some project, running⟩)).Sound project := by
  apply hsound.setContainer
  · intro found hfound _
    obtain ⟨record, hrecord, -, hcontainer⟩ := hsound.launched _ hlaunch
    rw [if_pos hnamed] at hcontainer
    refine ⟨⟨record, hrecord, hcontainer⟩, ?_, ?_⟩
    · intro launch hother
      rw [hlaunch] at hother
      cases hother
      exact hearly
    · cases hremoved : replica.removed with
      | false => rfl
      | true =>
          have hnone := (hsound.removed hremoved).1
          rw [hlaunch] at hnone
          cases hnone
  · intro found hfound _ hforeign
    cases hfound
    obtain ⟨group, hgroup, hne⟩ := hforeign
    cases hgroup
    exact absurd rfl hne

theorem Sound.timesOut (hsound : replica.Sound project)
    (hlaunch : replica.launch = some ⟨host, stage⟩) (hnamed : stage.Named)
    (hfree : ¬ replica.Contested project) :
    Sound project
      { replica.ended with pending := Function.update replica.pending host true } := by
  have hne : replica.launch ≠ none := by simp [hlaunch]
  obtain ⟨record, hrecord, hunfinished, hcontainer⟩ := hsound.launched _ hlaunch
  have hended := hsound.ended hfree
  refine { hended with pending := ?_, removed := ?_ }
  · intro other hpending
    refine ⟨rfl, record, hrecord, hunfinished, ?_⟩
    have hupdate : Function.update replica.pending host true other = true := hpending
    by_cases hother : other = host
    · subst hother
      exact hcontainer.trans (if_pos hnamed)
    · rw [Function.update_of_ne hother, hsound.not_pending hne other] at hupdate
      cases hupdate
  · intro hremoved
    exact absurd ((hsound.not_removed hne).symm.trans hremoved) (by decide)

theorem not_contested_clear (hfree : ¬ replica.Contested project) (host : Host) :
    ¬ (replica.setContainer host none).Contested project := by
  intro hcontested
  obtain ⟨other, container, hnames, hcontainer, hforeign⟩ := contested_iff.mp hcontested
  rcases containers_setContainer hcontainer with ⟨-, h⟩ | hcontainer
  · cases h
  · exact free_of_not_contested hfree hnames hcontainer hforeign

theorem Sound.killed (hsound : replica.Sound project) (hfree : ¬ replica.Contested project)
    (sent : Bool) : (replica.killed sent).Sound project := by
  have hended := hsound.ended hfree
  refine { hended with pending := ?_, removed := fun h => (by cases h) }
  intro other hpending
  refine ⟨rfl, ?_⟩
  rcases (Bool.or_eq_true _ _).mp hpending with hbefore | hsent
  · exact (hsound.pending other hbefore).2
  · have hruns := of_decide_eq_true ((Bool.and_eq_true _ _).mp hsent).2
    unfold RunsAt at hruns
    split at hruns
    case h_1 launchHost attempt hlaunch =>
      subst hruns
      obtain ⟨record, hrecord, hunfinished, hcontainer⟩ := hsound.launched _ hlaunch
      exact ⟨record, hrecord, hunfinished, hcontainer⟩
    case h_2 => exact hruns.elim

/-- A removal leaves no container of ours, where Docker is not still to start one. -/
theorem Sound.removeContainer (hsound : replica.Sound project) (hlaunch : replica.launch = none)
    {record : Record Host} (hrecord : replica.record = some record)
    (hpending : ∀ host, record.container = some host → record.finished = false →
      replica.pending host = false) :
    Sound project { replica.removeContainer record with removed := true } := by
  have hidle : ∀ host, replica.pending host = false := by
    intro host
    cases h : replica.pending host with
    | false => rfl
    | true =>
        obtain ⟨-, found, hfound, hunfinished, hcontainer⟩ := hsound.pending host h
        cases hrecord.symm.trans hfound
        exact h.symm.trans (hpending host hcontainer hunfinished)
  unfold Replica.removeContainer
  cases hcontainer : record.container with
  | none =>
      refine { hsound with removed := fun _ => ?_ }
      refine ⟨hlaunch, fun h => (by cases hrecord.symm.trans h), hidle, ?_⟩
      intro host container hfound hgroup
      obtain ⟨found, hsome, hhost⟩ := hsound.owned host container hfound hgroup
      cases hrecord.symm.trans hsome
      cases hcontainer.symm.trans hhost
  | some host =>
      refine { hsound.clear host with removed := fun _ => ?_ }
      refine ⟨hlaunch, fun h => (by cases hrecord.symm.trans h), hidle, ?_⟩
      intro other container hfound hgroup
      obtain ⟨found, hsome, hhost⟩ := (hsound.clear host).owned other container hfound hgroup
      cases hrecord.symm.trans hsome
      cases hcontainer.symm.trans hhost
      rcases containers_setContainer hfound with ⟨-, h⟩ | hother
      · cases h
      · have hnone : (replica.setContainer host none).containers host = none :=
          Function.update_self ..
        exact absurd (hnone.symm.trans hfound) (by simp)

/-- Docker carries a late `docker run` out: the record still names what it makes. -/
theorem Sound.carriesOut (hsound : replica.Sound project) {host : Host}
    (hpending : replica.pending host = true) (running : Bool) :
    Sound project
      { replica.setContainer host
          (some ((replica.containers host).getD ⟨some project, running⟩)) with
        pending := Function.update replica.pending host false } := by
  obtain ⟨hlaunch, record, hrecord, -, hhost⟩ := hsound.pending host hpending
  have hset : (replica.setContainer host
      (some ((replica.containers host).getD ⟨some project, running⟩))).Sound project := by
    apply hsound.setContainer
    · intro found _ _
      refine ⟨⟨record, hrecord, hhost⟩, ?_, ?_⟩
      · intro launch h
        cases hlaunch.symm.trans h
      · cases hremoved : replica.removed with
        | false => rfl
        | true =>
            exact absurd (((hsound.removed hremoved).2.2.1 host).symm.trans hpending) (by decide)
    · intro found hfound hnames hforeign
      cases hcontainer : replica.containers host with
      | none =>
          rw [hcontainer] at hfound
          cases hfound
          obtain ⟨group, hgroup, hne⟩ := hforeign
          cases hgroup
          exact absurd rfl hne
      | some container =>
          rw [hcontainer] at hfound
          cases hfound
          exact hsound.contested host _ hnames hcontainer hforeign
  have hless : ∀ other, Function.update replica.pending host false other = true →
      replica.pending other = true := by
    intro other h
    by_cases hother : other = host
    · rw [hother, Function.update_self] at h
      cases h
    · rwa [Function.update_of_ne hother] at h
  refine { hset with
    pending := fun other h => hset.pending other (hless other h)
    removed := fun hremoved => ?_ }
  obtain ⟨hnone, hsome, hidle, hgone⟩ := hset.removed hremoved
  refine ⟨hnone, hsome, fun other => ?_, hgone⟩
  cases h : Function.update replica.pending host false other with
  | false => exact h
  | true => exact absurd ((hidle other).symm.trans (hless other h)) (by decide)

variable [DecidableEq Group]

/-- Each step of a launch keeps its replica sound. -/
theorem Sound.launchStep (hsound : replica.Sound project)
    (hlaunch : replica.launch = some ⟨host, stage⟩) {event : LaunchEvent}
    (hsafe : replica.LaunchSafe project event)
    (hstep : replica.launchStep project host stage event = some next) : next.Sound project := by
  have hmove : ∀ {entered : Stage}, (entered.Named ↔ stage.Named) →
      (entered.Early → stage.Early) → (entered.Started → replica.started = some host) →
      ¬ replica.Contested project → (replica.enter host entered).Sound project := by
    intro entered hnamed hearly hstarted hfree
    exact hsound.enter hlaunch hnamed hearly hstarted fun _ _ hnames hcontainer hforeign =>
      absurd hforeign (free_of_not_contested hfree hnames hcontainer)
  have hidle : ∀ {created : Replica Host Group}, created.Sound project →
      created.launch = some ⟨host, stage⟩ → ¬ stage.Checks → ¬ created.Contested project := by
    intro created hcreated hlaunch hchecks
    refine hcreated.not_contested fun launch h => ?_
    cases hlaunch.symm.trans h
    exact hchecks
  unfold Replica.launchStep at hstep
  split at hstep
  case h_1 =>
    cases hstep
    exact hmove Iff.rfl id (fun h => h.elim) hsafe
  case h_2 =>
    cases hstep
    exact hmove Iff.rfl id (fun h => h.elim) hsafe
  case h_3 =>
    cases hstep
    exact hsound.saves hlaunch (hsafe _ hlaunch)
  case h_4 =>
    cases hstep
    by_cases hrunning : ∃ container ∈ replica.containers host, container.running = true
    · rw [if_pos hrunning]
      exact hsound.enter hlaunch Iff.rfl id (fun h => h.elim)
        fun _ _ _ _ _ => ⟨trivial, fun h => (by cases h)⟩
    · rw [if_neg hrunning]
      refine hmove Iff.rfl (fun h => h.elim) (fun h => h.elim) ?_
      intro hcontested
      obtain ⟨other, container, hnames, hcontainer, hforeign⟩ := contested_iff.mp hcontested
      obtain ⟨launch, hother, -, hfound⟩ :=
        hsound.contested other container hnames hcontainer hforeign
      cases hlaunch.symm.trans hother
      rw [hsound.eq_of_names hlaunch trivial hnames] at hcontainer
      exact hrunning ⟨container, hcontainer, hfound rfl⟩
  case h_5 =>
    cases hstep
    exact hmove Iff.rfl (fun h => h.elim) (fun h => h.elim) hsafe
  case h_6 =>
    cases hstep
    by_cases hforeign : ∃ container ∈ replica.containers host, container.Foreign project
    · rw [if_pos hforeign]
      exact hsound.enter hlaunch Iff.rfl id (fun h => h.elim)
        fun _ _ _ _ _ => ⟨trivial, fun h => (by cases h)⟩
    · rw [if_neg hforeign]
      refine hmove Iff.rfl id (fun h => h.elim) ?_
      intro hcontested
      obtain ⟨other, container, hnames, hcontainer, hother⟩ := contested_iff.mp hcontested
      rw [hsound.eq_of_names hlaunch trivial hnames] at hcontainer
      exact hforeign ⟨container, hcontainer, hother⟩
  case h_7 =>
    cases hstep
    exact hsound.enter hlaunch Iff.rfl id (fun h => h.elim)
      fun _ _ _ _ _ => ⟨trivial, fun h => (by cases h)⟩
  case h_8 =>
    cases hstep
    have hclear := hsound.clear host
    have hfree := not_contested_clear hsafe host
    have hlaunch' : (replica.setContainer host none).launch = some ⟨host, .removingOrphan⟩ :=
      hlaunch
    exact hclear.enter hlaunch' Iff.rfl (fun h => h.elim) (fun h => h.elim)
      fun _ _ hnames hcontainer hforeign =>
        absurd hforeign (free_of_not_contested hfree hnames hcontainer)
  case h_9 =>
    cases hstep
    exact hmove Iff.rfl (fun h => h.elim) (fun h => h.elim) hsafe
  case h_10 =>
    cases hstep
    exact hmove Iff.rfl (fun h => h.elim) (fun h => h.elim) hsafe
  case h_11 =>
    cases hstep
    exact hmove Iff.rfl (fun h => h.elim) (fun h => h.elim) hsafe
  case h_12 attempt =>
    split at hstep
    case isTrue =>
      cases hstep
      have hstarted := hsound.setStarted hlaunch
      have hlaunch' : Replica.launch { replica with started := some host } =
          some ⟨host, .running attempt⟩ := hlaunch
      have hcreated := hstarted.create hlaunch' trivial id true
      exact hcreated.enter hlaunch' Iff.rfl (fun h => h.elim) (fun _ => rfl)
        fun _ _ hnames hcontainer hforeign =>
          absurd hforeign (free_of_not_contested (hidle hcreated hlaunch' id) hnames hcontainer)
    case isFalse => cases hstep
  case h_13 attempt =>
    split at hstep
    case isTrue =>
      cases hstep
      have hcreated := hsound.create hlaunch trivial id false
      have hlaunch' : (replica.setContainer host (some ⟨some project, false⟩)).launch =
          some ⟨host, .running attempt⟩ := hlaunch
      exact hcreated.enter hlaunch' Iff.rfl (fun h => h.elim) (fun h => h.elim)
        fun _ _ hnames hcontainer hforeign =>
          absurd hforeign (free_of_not_contested (hidle hcreated hlaunch' id) hnames hcontainer)
    case isFalse => cases hstep
  case h_14 attempt =>
    split at hstep
    case isTrue =>
      cases hstep
      have hcreated := hsound.create hlaunch trivial id false
      have hlaunch' : (replica.setContainer host (some ⟨some project, false⟩)).launch =
          some ⟨host, .running attempt⟩ := hlaunch
      exact hcreated.ended (hidle hcreated hlaunch' id)
    case isFalse => cases hstep
  case h_15 attempt =>
    cases hstep
    exact hsound.timesOut hlaunch trivial hsafe
  case h_16 attempt =>
    cases hstep
    exact (hsound.clear host).retry hlaunch (not_contested_clear hsafe host)
  case h_17 attempt =>
    cases hstep
    exact hsound.retry hlaunch hsafe
  case h_18 =>
    cases hstep
    exact hmove Iff.rfl id (fun _ => hsound.started _ hlaunch trivial) hsafe
  case h_19 =>
    cases hstep
    exact hmove Iff.rfl id (fun _ => hsound.started _ hlaunch trivial) hsafe
  case h_20 =>
    cases hstep
    exact hsound.finishes hlaunch
  case h_21 =>
    cases hstep
    exact hsound.drops hlaunch
  case h_22 =>
    cases hstep
    exact hsound.ended hsafe
  case h_23 => cases hstep

/-! ### Every step -/

theorem Sound.step (hsound : replica.Sound project) {event : Event Host Group}
    (hsafe : replica.Safe project event) (hstep : replica.step project event = some next) :
    next.Sound project := by
  cases event with
  | places host =>
      change (if _ then _ else _) = _ at hstep
      split at hstep
      case isTrue hnone =>
        cases hstep
        exact hsound.places hnone.1 host
      case isFalse => cases hstep
  | launch event =>
      obtain ⟨⟨host, stage⟩, hlaunch, hstep⟩ := Option.bind_eq_some_iff.mp hstep
      exact hsound.launchStep hlaunch hsafe hstep
  | removes =>
      obtain ⟨record, hrecord, hstep⟩ := Option.bind_eq_some_iff.mp hstep
      split at hstep
      case isTrue hended =>
        cases hstep
        exact hsound.removeContainer hended.1 hrecord fun host hhost _ =>
          hsafe record hrecord host hhost
      case isFalse => cases hstep
  | forgets =>
      change (if _ then _ else _) = _ at hstep
      split at hstep
      case isTrue hremoved =>
        cases hstep
        exact hsound.forgets hremoved
      case isFalse => cases hstep
  | removesStopped =>
      obtain ⟨record, hrecord, hstep⟩ := Option.bind_eq_some_iff.mp hstep
      dsimp only at hstep
      split at hstep
      case isTrue hstopped =>
        cases hstep
        refine hsound.removeContainer hstopped.1 hrecord fun host _ hunfinished => ?_
        exact absurd (hstopped.2.1.symm.trans hunfinished) (by decide)
      case isFalse => cases hstep
  | creates host container =>
      change (if _ then _ else _) = _ at hstep
      split at hstep
      case isTrue hfree =>
        cases hstep
        apply hsound.setContainer
        · intro found hfound hgroup
          cases hfound
          exact absurd hgroup hfree.2
        · intro found hfound hnames hforeign
          cases hfound
          exact absurd hnames (hsafe hforeign)
      case isFalse => cases hstep
  | sets host running =>
      cases hstep
      apply hsound.setContainer
      · intro found hfound hgroup
        obtain ⟨container, hcontainer, rfl⟩ := Option.map_eq_some_iff.mp hfound
        refine ⟨hsound.owned host container hcontainer hgroup, ?_, ?_⟩
        · intro launch hlaunch hearly
          exact hsound.early launch hlaunch hearly host container hcontainer hgroup
        · cases hremoved : replica.removed with
          | false => rfl
          | true => exact absurd hgroup ((hsound.removed hremoved).2.2.2 host container hcontainer)
      · intro found hfound hnames hforeign
        obtain ⟨container, hcontainer, rfl⟩ := Option.map_eq_some_iff.mp hfound
        obtain ⟨launch, hlaunch, hchecks, -⟩ :=
          hsound.contested host container hnames hcontainer hforeign
        refine ⟨launch, hlaunch, hchecks, fun _ => ?_⟩
        cases running with
        | true => rfl
        | false => exact absurd hnames (hsafe rfl container hcontainer hforeign)
  | vanishes host =>
      cases hstep
      exact hsound.clear host
  | carriesOut host running =>
      change (if _ then _ else _) = _ at hstep
      split at hstep
      case isTrue hpending =>
        cases hstep
        exact hsound.carriesOut hpending running
      case isFalse => cases hstep

/-! ### What is taken -/

/-- A launch changes the container under its name only, and only one it removes. -/
theorem launchStep_containers {event : LaunchEvent}
    (hstep : replica.launchStep project host stage event = some next) :
    next.containers = replica.containers ∨
      (replica.containers host = none ∨ event = .removesContainer ∧ stage.Named) ∧
        ∃ container, next.containers = Function.update replica.containers host container := by
  have hretry : ∀ (other : Replica Host Group) (attempt : ℕ),
      (other.retry host attempt).containers = other.containers := by
    intro other attempt
    unfold Replica.retry
    split <;> rfl
  unfold Replica.launchStep at hstep
  split at hstep
  case h_8 =>
    cases hstep
    exact Or.inr ⟨Or.inr ⟨rfl, trivial⟩, none, rfl⟩
  case h_12 | h_13 | h_14 =>
    split at hstep
    case isTrue hnone =>
      cases hstep
      exact Or.inr ⟨Or.inl hnone, _, rfl⟩
    case isFalse => cases hstep
  case h_16 =>
    cases hstep
    exact Or.inr ⟨Or.inr ⟨rfl, trivial⟩, none, hretry _ _⟩
  case h_17 =>
    cases hstep
    exact Or.inl (hretry _ _)
  case h_23 => cases hstep
  all_goals
    cases hstep
    exact Or.inl rfl

theorem Sound.untouched_launch (hsound : replica.Sound project)
    (hlaunch : replica.launch = some ⟨host, stage⟩) {event : LaunchEvent}
    (hsafe : replica.LaunchSafe project event)
    (hstep : replica.launchStep project host stage event = some next) {other : Host}
    {container : Container Group} (hcontainer : replica.containers other = some container)
    (hforeign : container.Foreign project) : next.containers other = some container := by
  rcases launchStep_containers hstep with hsame | ⟨hnone, found, hupdate⟩
  · rw [hsame]
    exact hcontainer
  · by_cases hother : other = host
    · subst hother
      rcases hnone with hnone | ⟨rfl, hnamed⟩
      · rw [hnone] at hcontainer
        cases hcontainer
      · obtain ⟨record, hrecord, hunfinished, hhost⟩ := hsound.launched _ hlaunch
        have hnames : replica.Names other :=
          ⟨record, hrecord, hunfinished, hhost.trans (if_pos hnamed)⟩
        exact absurd hforeign (free_of_not_contested hsafe hnames hcontainer)
    · rw [hupdate, Function.update_of_ne hother]
      exact hcontainer

/-- No launch and no removal of an unfinished launch touches another group's container. -/
theorem Sound.untouched (hsound : replica.Sound project) {event : Event Host Group}
    (hours : event.Ours) (hsafe : replica.Safe project event)
    (hstep : replica.step project event = some next) {other : Host} {container : Container Group}
    (hcontainer : replica.containers other = some container)
    (hforeign : container.Foreign project) : next.containers other = some container := by
  cases event with
  | places host =>
      change (if _ then _ else _) = _ at hstep
      split at hstep <;> cases hstep
      exact hcontainer
  | launch event =>
      obtain ⟨⟨host, stage⟩, hlaunch, hstep⟩ := Option.bind_eq_some_iff.mp hstep
      exact hsound.untouched_launch hlaunch hsafe hstep hcontainer hforeign
  | removes =>
      obtain ⟨record, hrecord, hstep⟩ := Option.bind_eq_some_iff.mp hstep
      split at hstep
      case isTrue hended =>
        cases hstep
        unfold Replica.removeContainer
        cases hhost : record.container with
        | none => exact hcontainer
        | some host =>
            by_cases hother : other = host
            · subst hother
              have hfree := hsound.not_contested fun launch h => (by cases hended.1.symm.trans h)
              exact absurd hforeign
                (free_of_not_contested hfree ⟨record, hrecord, hended.2, hhost⟩ hcontainer)
            · exact (Function.update_of_ne hother ..).trans hcontainer
      case isFalse => cases hstep
  | forgets =>
      change (if _ then _ else _) = _ at hstep
      split at hstep <;> cases hstep
      exact hcontainer
  | removesStopped | creates | sets | vanishes | carriesOut => exact hours.elim

theorem launch_of_step {event : Event Host Group}
    (hstep : replica.step project event = some next) (hlaunch : next.launch ≠ none) :
    event.isPlacing = true ∨ replica.launch ≠ none := by
  cases event with
  | places => exact Or.inl rfl
  | launch event =>
      obtain ⟨launch, hsome, -⟩ := Option.bind_eq_some_iff.mp hstep
      exact Or.inr (by simp [hsome])
  | removes =>
      obtain ⟨record, -, hstep⟩ := Option.bind_eq_some_iff.mp hstep
      split at hstep <;> cases hstep
      refine Or.inr fun h => hlaunch ?_
      unfold Replica.removeContainer
      split <;> exact h
  | removesStopped =>
      obtain ⟨record, -, hstep⟩ := Option.bind_eq_some_iff.mp hstep
      dsimp only at hstep
      split at hstep <;> cases hstep
      refine Or.inr fun h => hlaunch ?_
      unfold Replica.removeContainer
      split <;> exact h
  | sets | vanishes =>
      cases hstep
      exact Or.inr hlaunch
  | forgets | creates | carriesOut =>
      change (if _ then _ else _) = _ at hstep
      split at hstep <;> cases hstep
      exact Or.inr hlaunch

end Replica

end Replicas

/-! ### Every run -/

section Runs

variable {ReplicaId Host Group : Type*} [DecidableEq ReplicaId] [DecidableEq Host]
  [DecidableEq Group] {project : Group} {state next : State ReplicaId Host Group}

structure SoundState (project : Group) (state : State ReplicaId Host Group) : Prop where
  sound : ∀ replicaId, (state.replicas replicaId).Sound project
  placed : ∀ replicaId, (state.replicas replicaId).launch ≠ none → replicaId ∈ state.placed

omit [DecidableEq ReplicaId] [DecidableEq Host] [DecidableEq Group] in
theorem soundState_initial : SoundState project (initial ReplicaId Host Group) where
  sound replicaId :=
    { launched := fun _ h => (by cases h)
      owned := fun _ _ h => (by cases h)
      early := fun _ h => (by cases h)
      pending := fun _ h => (by cases h)
      finished := fun _ h => (by cases h)
      started := fun _ h => (by cases h)
      contested := fun _ _ _ h => (by cases h)
      removed := fun h => (by cases h) }
  placed _ h := absurd rfl h

theorem exists_step {replicaId : ReplicaId} {event : Event Host Group}
    (hstep : (system ReplicaId Host project).step state (.replica replicaId event) = some next) :
    (state.replicas replicaId).step project event = some (next.replicas replicaId) ∧
      (∀ other ≠ replicaId, next.replicas other = state.replicas other) ∧
      next.placed = if event.isPlacing then replicaId :: state.placed else state.placed := by
  change (if _ then _ else _) = _ at hstep
  split at hstep
  case isTrue => cases hstep
  case isFalse =>
    obtain ⟨replica, hreplica, rfl⟩ := Option.map_eq_some_iff.mp hstep
    refine ⟨?_, fun other hother => Function.update_of_ne hother .., rfl⟩
    have hself : Function.update state.replicas replicaId replica replicaId = replica :=
      Function.update_self ..
    rw [hreplica]
    exact congrArg some hself.symm

theorem step_eq {replicaId : ReplicaId} {event : Event Host Group} {replica : Replica Host Group}
    (halone : event.Alone → state.Ended)
    (hreplica : (state.replicas replicaId).step project event = some replica) :
    (system ReplicaId Host project).step state (.replica replicaId event) = some
      { replicas := Function.update state.replicas replicaId replica
        placed := if event.isPlacing then replicaId :: state.placed else state.placed } := by
  change (if _ then _ else _) = _
  rw [if_neg fun h => h.2 (halone h.1), hreplica]
  rfl

theorem soundState_step (hsound : SoundState project state)
    {action : Action ReplicaId Host Group} (hsafe : Safe project state action)
    (hstep : (system ReplicaId Host project).step state action = some next) :
    SoundState project next := by
  cases action with
  | replica replicaId event =>
      obtain ⟨hreplica, hothers, hplaced⟩ := exists_step hstep
      constructor
      · intro other
        by_cases hother : other = replicaId
        · subst hother
          exact (hsound.sound other).step hsafe hreplica
        · rw [hothers other hother]
          exact hsound.sound other
      · intro other hlaunch
        rw [hplaced]
        by_cases hother : other = replicaId
        · subst hother
          rcases Replica.launch_of_step hreplica hlaunch with hplacing | hbefore
          · rw [if_pos hplacing]
            exact List.mem_cons_self
          · split
            · exact List.mem_cons_self
            · exact hsound.placed other hbefore
        · rw [hothers other hother] at hlaunch
          have hmem := hsound.placed other hlaunch
          split
          · exact List.mem_cons_of_mem _ hmem
          · exact hmem
  | kills sent =>
      cases hstep
      constructor
      · intro replicaId
        refine (hsound.sound replicaId).killed ?_ (sent replicaId)
        by_cases hlaunch : (state.replicas replicaId).launch = none
        · exact (hsound.sound replicaId).not_contested fun launch h =>
            (by cases hlaunch.symm.trans h)
        · exact hsafe replicaId (hsound.placed replicaId hlaunch)
      · intro replicaId hlaunch
        exact absurd rfl hlaunch

/-- An unfinished launch is removed with its container by the next removal that reaches the
machine. -/
theorem settled (hsound : SoundState project state) (hended : state.Ended)
    {replicaId : ReplicaId} {record : Record Host}
    (hrecord : (state.replicas replicaId).record = some record) :
    Settled project state replicaId record := by
  have hlaunch : (state.replicas replicaId).launch = none := by
    by_contra hlaunch
    exact hlaunch (hended replicaId (hsound.placed replicaId hlaunch))
  unfold Settled
  cases hfinished : record.finished with
  | true => exact (hsound.sound replicaId).finished record hrecord hfinished
  | false =>
      have hremoves : (state.replicas replicaId).step project .removes =
          some { (state.replicas replicaId).removeContainer record with removed := true } :=
        Option.bind_eq_some_iff.mpr ⟨record, hrecord, if_pos ⟨hlaunch, hfinished⟩⟩
      generalize hremoved : { (state.replicas replicaId).removeContainer record with
        removed := true } = removed at hremoves
      have hforgets : (Function.update state.replicas replicaId removed replicaId).step project
          .forgets = some { removed with record := none, removed := false } := by
        rw [Function.update_self, ← hremoved]
        rfl
      have hself : ∀ replica : Replica Host Group, Function.update
          (Function.update state.replicas replicaId removed) replicaId replica replicaId =
          replica := fun _ => Function.update_self ..
      refine ⟨_, (TransitionSystem.run_cons_eq_some _).mpr ⟨_, step_eq (fun _ => hended) hremoves,
        (TransitionSystem.run_cons_eq_some _).mpr ⟨_, step_eq (fun h => h.elim) hforgets, rfl⟩⟩,
        ?_, ?_⟩
      · exact congrArg Replica.record (hself _)
      · intro host hhost
        have hgone : removed.containers host = none := by
          rw [← hremoved, Replica.removeContainer, hhost]
          exact Function.update_self ..
        exact (congrArg (Replica.containers · host) (hself _)).trans hgone

theorem holds_of_soundState (hsound : SoundState project state)
    {action : Action ReplicaId Host Group} (hsafe : Safe project state action)
    (hstep : (system ReplicaId Host project).step state action = some next)
    (hnext : SoundState project next) : Holds project state action next where
  settled hended _ _ hrecord := settled hnext hended hrecord
  named replicaId host container hcontainer hgroup :=
    (hnext.sound replicaId).owned host container hcontainer hgroup
  untouched hours replicaId host container hcontainer hforeign := by
    cases action with
    | replica other event =>
        obtain ⟨hreplica, hothers, -⟩ := exists_step hstep
        by_cases hother : replicaId = other
        · subst hother
          exact (hsound.sound replicaId).untouched hours hsafe hreplica hcontainer hforeign
        · rw [hothers replicaId hother]
          exact hcontainer
    | kills sent =>
        cases hstep
        exact hcontainer

/-- Launches leave nothing behind and take nothing foreign in every run in which no other group's
container has the name of a replica, unless the launch finds and reports it, and Docker does not
carry a `docker run` out after its container was removed. -/
theorem launches_hold (actions : List (Action ReplicaId Host Group))
    (hsafe : (system ReplicaId Host project).Guarded (Safe project) (initial ReplicaId Host Group)
      actions) :
    (system ReplicaId Host project).Along (Holds project) (initial ReplicaId Host Group) actions :=
  (system ReplicaId Host project).along_of_guarded
    (fun _ _ _ hsound hsafe hstep =>
      ⟨soundState_step hsound hsafe hstep,
        holds_of_soundState hsound hsafe hstep (soundState_step hsound hsafe hstep)⟩)
    actions soundState_initial hsafe

end Runs

/-! ### Runs of a few launches -/

/-- The steps of one replica's launch. -/
def launching (replicaId : Bool) (events : List LaunchEvent) : List (Action Bool Unit Bool) :=
  .replica replicaId (.places ()) ::
    (.sends :: .claims :: .saves :: events).map fun event => .replica replicaId (.launch event)

/-- One launch reports a running container of another group, another starts its own and is killed
before it writes its record, and is removed. -/
def reported : List (Action Bool Unit Bool) :=
  .replica false (.creates () ⟨some false, true⟩) :: launching false [.inspects, .asks, .drops] ++
    launching true [.inspects, .prepares, .clears, .starts] ++
    [.kills fun _ => true, .replica true .removes, .replica true .forgets]

theorem launches_hold_reported :
    ((system Bool Unit true).run (initial Bool Unit Bool) reported).isSome = true ∧
      (system Bool Unit true).Along (Holds true) (initial Bool Unit Bool) reported :=
  ⟨by decide +kernel, launches_hold reported (by decide +kernel)⟩

/-- Another group's container has the name and is stopped. -/
def stopped : List (Action Bool Unit Bool) :=
  .replica false (.creates () ⟨some false, false⟩) ::
    launching false [.inspects, .prepares, .clears, .raises]

/-- Docker goes on with a `docker run` that took too long. -/
def late : List (Action Bool Unit Bool) :=
  launching false [.inspects, .prepares, .clears, .timesOut] ++
    [.replica false .removes, .replica false .forgets]

/-- The stopped container is removed with the failed launch; and a container that Docker starts
late is in no record. -/
theorem not_holds_stopped :
    ¬ (system Bool Unit true).Along (Holds true) (initial Bool Unit Bool)
        (stopped ++ [.replica false .removes]) ∧
      ¬ (system Bool Unit true).Along (Holds true) (initial Bool Unit Bool)
        (late ++ [.replica false (.carriesOut () true)]) := by
  constructor
  · intro halong
    have hbefore : ((system Bool Unit true).run (initial Bool Unit Bool) stopped).map
        (fun state => (state.replicas false).containers ()) = some (some ⟨some false, false⟩) := by
      decide +kernel
    have hafter : ((system Bool Unit true).run (initial Bool Unit Bool)
        (stopped ++ [.replica false .removes])).map
        (fun state => (state.replicas false).containers ()) = some none := by
      decide +kernel
    obtain ⟨state, hstate, hcontainer⟩ := Option.map_eq_some_iff.mp hbefore
    obtain ⟨final, hfinal, hgone⟩ := Option.map_eq_some_iff.mp hafter
    obtain ⟨middle, hmiddle, hholds⟩ :=
      (system Bool Unit true).exists_before_last_of_along halong hfinal
    cases hstate.symm.trans hmiddle
    have hkept := hholds.untouched trivial false () ⟨some false, false⟩ hcontainer
      ⟨false, rfl, by decide⟩
    cases hgone.symm.trans hkept
  · intro halong
    have hafter : ((system Bool Unit true).run (initial Bool Unit Bool)
        (late ++ [.replica false (.carriesOut () true)])).map
        (fun state => ((state.replicas false).record, (state.replicas false).containers ())) =
        some (none, some ⟨some true, true⟩) := by
      decide +kernel
    obtain ⟨final, hfinal, hleft⟩ := Option.map_eq_some_iff.mp hafter
    obtain ⟨hrecord, hcontainer⟩ := Prod.mk.inj hleft
    obtain ⟨middle, hholds⟩ := (system Bool Unit true).exists_last_of_along halong hfinal
    obtain ⟨record, hsome, -⟩ := hholds.named false () ⟨some true, true⟩ hcontainer rfl
    cases hrecord.symm.trans hsome

end CanyonOS.Reconciler.Launching
