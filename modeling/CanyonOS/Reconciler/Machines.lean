import CanyonOS.Lib.TransitionSystem
import CanyonOS.Reconciler.ScaleDown

/-!
# The machine records

The passes of the reconciler over the records of its machines, and the threads that start machines
beside them. Every thread takes its steps between any two of a pass. Between its calls of the
machine provisioner a pass leaves any replica records.
-/

namespace CanyonOS.Reconciler.Machines

variable {LaunchId ReplicaId Time : Type*}

/-! ### What the config declares -/

inductive Provider
  | localProvider
  | ec2Pool
  | ec2Assign
deriving DecidableEq

structure AgentSpec where
  name : String
  provider : Provider
  replicas : ℕ

/-- The config's sections and the agent specs. -/
structure Declaration where
  agentSpecs : List AgentSpec
  /-- `market_type` of each provider's section -/
  marketType : Provider → Option String
  /-- `machine_type` of `ec2-pool:` -/
  machineTypes : List (String × ℕ)
  /-- `machine_type` of `ec2-assign:` -/
  agentTypes : String → String
  /-- the manifest refuses duplicate agent names -/
  names_nodup : (agentSpecs.map AgentSpec.name).Nodup
  /-- and the loader a mapping that sets a key twice -/
  types_nodup : (machineTypes.map Prod.fst).Nodup

/-- A provider and a machine spec of it. -/
structure Kind where
  provider : Provider
  machineType : Option String := none
  marketType : Option String := none
  agentName : Option String := none
deriving DecidableEq

structure MachineRecord (LaunchId Time : Type*) extends Machine LaunchId Time where
  provider : Option Provider := none
  machineType : Option String := none
  marketType : Option String := none
  agentName : Option String := none
deriving DecidableEq

namespace Declaration

variable (declaration : Declaration)

/-- Each kind of a provider, with how many machines of it to run. -/
def kindsOf : Provider → List (Kind × ℕ)
  | .localProvider => [({ provider := .localProvider }, 1)]
  | .ec2Pool =>
      declaration.machineTypes.map fun (machineType, count) =>
        ({ provider := .ec2Pool, machineType := some machineType,
           marketType := declaration.marketType .ec2Pool }, count)
  | .ec2Assign =>
      (declaration.agentSpecs.filter fun spec => spec.provider = .ec2Assign).map fun spec =>
        ({ provider := .ec2Assign, machineType := some (declaration.agentTypes spec.name),
           marketType := declaration.marketType .ec2Assign, agentName := some spec.name },
         spec.replicas)

/-- `_declared`, of the providers in the order in which the specs name them. -/
def declared : List (Kind × ℕ) :=
  (declaration.agentSpecs.map AgentSpec.provider).reverse.dedup.reverse.flatMap
    declaration.kindsOf

end Declaration

namespace Kind

variable (kind : Kind)

/-- Whether a field of a record agrees with one of the spec, if that has it. -/
def agrees (wanted found : Option String) : Bool :=
  wanted.all fun value => found = some value

/-- Whether a record has the provider and every field of the spec. -/
def counts (record : MachineRecord LaunchId Time) : Bool :=
  record.provider = some kind.provider && agrees kind.machineType record.machineType &&
    agrees kind.marketType record.marketType && agrees kind.agentName record.agentName

/-- What is saved before the machine starts. -/
def record (launchId : LaunchId) (now : Time) : MachineRecord LaunchId Time where
  launchId := launchId
  launchedAt := now
  up := false
  provider := some kind.provider
  machineType := kind.machineType
  marketType := kind.marketType
  agentName := kind.agentName

end Kind

/-- Of the machine records read, the kinds there are too few of, each as often as it is missing. -/
def missingKinds (declared : List (Kind × ℕ)) (read : List (MachineRecord LaunchId Time)) :
    List Kind :=
  declared.flatMap fun (kind, count) =>
    List.replicate (count - (read.filter kind.counts).length) kind

section FindSurplus

variable [DecidableEq LaunchId] [LinearOrder Time]

def keptRecords (occupied : List LaunchId) (read : List (MachineRecord LaunchId Time))
    (declared : Kind × ℕ) : List (MachineRecord LaunchId Time) :=
  ((read.filter declared.1.counts).insertionSort fun first second =>
    bySortKey occupied first.toMachine second.toMachine).take declared.2

/-- `find_surplus`, where `keys` is its second scan. -/
def surplusIds (declared : List (Kind × ℕ)) (occupied : List LaunchId)
    (read : List (MachineRecord LaunchId Time)) (keys : List LaunchId) : List LaunchId :=
  let kept := declared.flatMap (keptRecords occupied read)
  if kept.all fun record => record.up then
    keys.filter fun launchId => launchId ∉ kept.map fun record => record.launchId
  else []

end FindSurplus

/-! ### A start -/

/-- Where `_start_machine` stands. `hasHost` says whether `machine` has a `private_host`. -/
inductive Start where
  /-- `provider.start_machine` runs -/
  | starts
  | returned (hasHost : Bool)
  /-- for the machine, its Redis and its metrics collector -/
  | waits (hasHost : Bool)
  | up (hasHost : Bool)
  /-- the error of its type is saved or cleared -/
  | ends
deriving DecidableEq

inductive StartStep where
  | returns (hasHost : Bool)
  | saves
  | comesUp (hasHost : Bool)
  | raises
  | discards
deriving DecidableEq

/-! ### A pass -/

structure ReplicaRecord (ReplicaId LaunchId : Type*) where
  replicaId : ReplicaId
  machine : Option LaunchId

/-- Who terminates machines. -/
inductive Caller
  | findDead
  | surplus
  | stopping

/-- What the machine records are read for. -/
inductive Purpose (LaunchId : Type*) where
  | findDead (starting : Finset LaunchId)
  | terminate (starting : Finset LaunchId) (launchIds : Option (List LaunchId))
      (keep : List LaunchId) (caller : Caller)
  | startMissing (declaration : Declaration)
  | findSurplus (declaration : Declaration) (occupied : List LaunchId)

/-- Where a pass stands. -/
inductive Phase (LaunchId ReplicaId Time : Type*) where
  | idle
  | reading (purpose : Purpose LaunchId) (keys : List LaunchId)
      (read : List (MachineRecord LaunchId Time))
  /-- asking the providers, in `find_dead` -/
  | checking (checks dead : List LaunchId)
  /-- `forget_replicas_on` -/
  | forgetting (dead : List LaunchId) (keys : List ReplicaId)
  /-- before `is_stopping` -/
  | checked
  /-- removing unwanted replicas -/
  | removing
  | adding (declaration : Declaration) (missing : List Kind)
  | recorded (declaration : Declaration) (missing : List Kind) (launchId : LaunchId)
  | registered (declaration : Declaration) (missing : List Kind) (launchId : LaunchId)
  /-- the drains of `_terminate_machines`, then the rest of it -/
  | draining (launchIds : Option (List LaunchId)) (caller : Caller)
  | clearing (launchIds : Option (List LaunchId)) (caller : Caller)
  /-- `terminate`, once its jobs are known -/
  | terminating (jobs ended : List LaunchId) (caller : Caller)
  /-- `ensure_replicas` -/
  | placing

/-- Where the pass goes on after `terminate`. -/
def Caller.phase : Caller → Phase LaunchId ReplicaId Time
  | .findDead => .checked
  | .surplus => .placing
  | .stopping => .idle

/-- Where it goes on after an exception. -/
def Phase.raised : Phase LaunchId ReplicaId Time → Phase LaunchId ReplicaId Time
  | .reading (.findDead _) _ _ | .checking .. | .forgetting .. => .checked
  | .reading (.terminate _ _ _ caller) _ _ | .clearing _ caller | .terminating _ _ caller =>
      caller.phase
  | .checked | .removing | .idle | .reading (.startMissing _) _ _
  | .reading (.findSurplus _ _) _ _ | .adding .. | .recorded .. | .registered ..
  | .draining .. | .placing => .idle

structure State (LaunchId ReplicaId Time : Type*) where
  records : List (MachineRecord LaunchId Time)
  replicas : List (ReplicaRecord ReplicaId LaunchId)
  /-- `_starting` -/
  starting : Finset LaunchId
  threads : LaunchId → Option Start
  phase : Phase LaunchId ReplicaId Time

/-- The declaration a pass starts machines for. -/
def Phase.declaration : Phase LaunchId ReplicaId Time → Option Declaration
  | .reading (.startMissing declaration) _ _ | .adding declaration _
  | .recorded declaration _ _ | .registered declaration _ _ => some declaration
  | _ => none

inductive Action (LaunchId ReplicaId Time : Type*) where
  | thread (launchId : LaunchId) (step : StartStep)
  /-- a pass begins -/
  | begins (keys : List LaunchId)
  /-- a scan of the keys, and what is copied before it -/
  | scans (keys : List LaunchId)
  | declares (declaration : Declaration) (keys : List LaunchId)
  | reads
  /-- what is read is used; `find_surplus` scans once more -/
  | uses (keys : List LaunchId)
  /-- a provider's answer, `none` where the check fails -/
  | answers (alive : Option Bool)
  | scansReplicas (keys : List ReplicaId)
  | forgets
  | stops
  | continues
  | leaves
  | changes (replicas : List (ReplicaRecord ReplicaId LaunchId))
  | records (launchId : LaunchId) (now : Time)
  | registers
  | spawns
  /-- `terminate_machine`, and whether it succeeds -/
  | terminates (launchId : LaunchId) (succeeds : Bool)
  | deletes
  | raises

namespace State

variable (state : State LaunchId ReplicaId Time)

def launchIds : List LaunchId :=
  state.records.map fun record => record.launchId

/-- The machines that replica records name. -/
def occupied : List LaunchId :=
  state.replicas.filterMap ReplicaRecord.machine

def countOf (kind : Kind) : ℕ :=
  (state.records.filter kind.counts).length

variable [DecidableEq LaunchId]

/-- `hset` of a machine's `private_host`, if it has one. A key that is not there is made. -/
def hset [Inhabited Time] (launchId : LaunchId) (hasHost : Bool) :
    State LaunchId ReplicaId Time :=
  { state with
    records :=
      if launchId ∈ state.launchIds then
        state.records.map fun record =>
          if record.launchId = launchId then { record with up := record.up || hasHost } else record
      else { launchId, launchedAt := default, up := hasHost } :: state.records }

def setThread (launchId : LaunchId) (start : Option Start) : State LaunchId ReplicaId Time :=
  { state with threads := Function.update state.threads launchId start }

def goTo (phase : Phase LaunchId ReplicaId Time) : State LaunchId ReplicaId Time :=
  { state with phase }

/-- A scan gives every key, some perhaps more than once. -/
def Scanned (keys : List LaunchId) : Prop :=
  keys ⊆ state.launchIds ∧ state.launchIds ⊆ keys

instance (keys : List LaunchId) : Decidable (state.Scanned keys) :=
  inferInstanceAs (Decidable (_ ∧ _))

end State

section Step

variable [DecidableEq LaunchId] [Inhabited Time]
variable (state : State LaunchId ReplicaId Time)

/-- A step of `_start_machine`. -/
def threadStep (launchId : LaunchId) (step : StartStep) : Option (State LaunchId ReplicaId Time) :=
  match step, state.threads launchId with
  | .returns hasHost, some .starts =>
      some (state.setThread launchId (some (.returned hasHost)))
  | .saves, some (.returned hasHost) =>
      some ((state.hset launchId hasHost).setThread launchId (some (.waits hasHost)))
  | .comesUp more, some (.waits hasHost) =>
      some (state.setThread launchId (some (.up (hasHost || more))))
  | .saves, some (.up hasHost) =>
      some ((state.hset launchId hasHost).setThread launchId (some .ends))
  | .raises, some _ => some (state.setThread launchId (some .ends))
  | .discards, some .ends =>
      some { state.setThread launchId none with starting := state.starting.erase launchId }
  | _, _ => none

/-- The scans of the machine records, each behind what is copied before it. -/
def scanStep (keys : List LaunchId) : Option (Phase LaunchId ReplicaId Time) :=
  match state.phase with
  | .forgetting dead [] =>
      some (.reading (.terminate state.starting (some dead) [] .findDead) keys [])
  | .clearing launchIds caller =>
      some (.reading (.terminate state.starting launchIds state.occupied caller) keys [])
  | .adding declaration [] =>
      some (.reading (.findSurplus declaration state.occupied) keys [])
  | _ => none

variable [DecidableEq ReplicaId] [LinearOrder Time]

/-- What is made of the machine records read. -/
def useStep (purpose : Purpose LaunchId) (read : List (MachineRecord LaunchId Time))
    (keys : List LaunchId) : Phase LaunchId ReplicaId Time :=
  match purpose with
  | .findDead starting =>
      let ended := read.filter fun record => record.launchId ∉ starting
      .checking ((ended.filter fun record => record.up).map fun record => record.launchId).dedup
        ((ended.filter fun record => !record.up).map fun record => record.launchId)
  | .terminate starting launchIds keep caller =>
      .terminating
        ((read.map fun record => record.launchId).filter fun launchId =>
          launchId ∉ keep ∧ launchId ∉ starting ∧
            launchIds.all fun launchIds => launchId ∈ launchIds).dedup
        [] caller
  | .startMissing declaration =>
      .adding declaration (missingKinds declaration.declared read)
  | .findSurplus declaration occupied =>
      match surplusIds declaration.declared occupied read keys with
      | [] => .placing
      | surplus => .draining (some surplus) .surplus

/-- `forget_replicas_on`, of one key. -/
def forgetStep (dead : List LaunchId) (key : ReplicaId) : State LaunchId ReplicaId Time :=
  { state with
    replicas := state.replicas.filter fun replica =>
      !(replica.replicaId = key && replica.machine.any fun launchId => launchId ∈ dead) }

def step (state : State LaunchId ReplicaId Time) :
    Action LaunchId ReplicaId Time → Option (State LaunchId ReplicaId Time)
  | .thread launchId step => threadStep state launchId step
  | .begins keys =>
      match state.phase with
      | .idle =>
          if state.Scanned keys then
            some (state.goTo (.reading (.findDead state.starting) keys []))
          else none
      | _ => none
  | .scans keys =>
      if state.Scanned keys then (scanStep state keys).map state.goTo else none
  | .declares declaration keys =>
      match state.phase with
      | .removing =>
          if state.Scanned keys then
            some (state.goTo (.reading (.startMissing declaration) keys []))
          else none
      | _ => none
  | .reads =>
      match state.phase with
      | .reading purpose (key :: keys) read =>
          some (state.goTo (.reading purpose keys
            (read ++ state.records.filter fun record => record.launchId = key)))
      | _ => none
  | .uses keys =>
      match state.phase with
      | .reading purpose [] read =>
          if state.Scanned keys then some (state.goTo (useStep purpose read keys)) else none
      | _ => none
  | .answers alive =>
      match state.phase with
      | .checking (launchId :: checks) dead =>
          some (state.goTo (.checking checks
            (if alive = some false then dead ++ [launchId] else dead)))
      | _ => none
  | .scansReplicas keys =>
      match state.phase with
      | .checking [] [] => some (state.goTo .checked)
      | .checking [] dead =>
          if state.replicas.map ReplicaRecord.replicaId ⊆ keys then
            some (state.goTo (.forgetting dead keys))
          else none
      | _ => none
  | .forgets =>
      match state.phase with
      | .forgetting dead (key :: keys) =>
          some ((forgetStep state dead key).goTo (.forgetting dead keys))
      | _ => none
  | .stops =>
      match state.phase with
      | .checked => some (state.goTo (.draining none .stopping))
      | _ => none
  | .continues =>
      match state.phase with
      | .checked => some (state.goTo .removing)
      | .draining launchIds caller => some (state.goTo (.clearing launchIds caller))
      | .terminating [] [] caller => some (state.goTo caller.phase)
      | _ => none
  | .leaves =>
      match state.phase with
      | .removing | .placing => some (state.goTo .idle)
      | _ => none
  | .changes replicas =>
      match state.phase with
      | .removing | .draining .. | .clearing .. | .placing => some { state with replicas }
      | _ => none
  | .records launchId now =>
      match state.phase with
      | .adding declaration (kind :: missing) =>
          if launchId ∉ state.launchIds ∧ state.threads launchId = none then
            some { state with
              records := state.records ++ [kind.record launchId now],
              phase := .recorded declaration missing launchId }
          else none
      | _ => none
  | .registers =>
      match state.phase with
      | .recorded declaration missing launchId =>
          some { state with
            starting := insert launchId state.starting,
            phase := .registered declaration missing launchId }
      | _ => none
  | .spawns =>
      match state.phase with
      | .registered declaration missing launchId =>
          some ((state.setThread launchId (some .starts)).goTo (.adding declaration missing))
      | _ => none
  | .terminates launchId succeeds =>
      match state.phase with
      | .terminating jobs ended caller =>
          if launchId ∈ jobs then
            some (state.goTo (.terminating (jobs.erase launchId)
              (if succeeds then ended ++ [launchId] else ended) caller))
          else none
      | _ => none
  | .deletes =>
      match state.phase with
      | .terminating [] (launchId :: ended) caller =>
          some { state with
            records := state.records.filter fun record => record.launchId ≠ launchId,
            phase := .terminating [] ended caller }
      | _ => none
  | .raises => some (state.goTo state.phase.raised)

def system (LaunchId ReplicaId Time : Type*) [DecidableEq LaunchId] [DecidableEq ReplicaId]
    [LinearOrder Time] [Inhabited Time] :
    TransitionSystem (State LaunchId ReplicaId Time) (Action LaunchId ReplicaId Time) where
  step := step

end Step

/-! ### Kinds -/

section Kinds

variable {declaration : Declaration} {kind other : Kind}

theorem provider_of_mem_kindsOf {provider : Provider} {entry : Kind × ℕ}
    (hmem : entry ∈ declaration.kindsOf provider) : entry.1.provider = provider := by
  cases provider with
  | localProvider =>
      rw [List.mem_singleton.mp hmem]
  | ec2Pool =>
      obtain ⟨-, -, rfl⟩ := List.mem_map.mp hmem
      rfl
  | ec2Assign =>
      obtain ⟨-, -, rfl⟩ := List.mem_map.mp hmem
      rfl

theorem mem_kindsOf_of_mem_declared {entry : Kind × ℕ} (hmem : entry ∈ declaration.declared) :
    entry ∈ declaration.kindsOf entry.1.provider := by
  obtain ⟨provider, -, hentry⟩ := List.mem_flatMap.mp hmem
  rw [provider_of_mem_kindsOf hentry]
  exact hentry

/-- The kinds of a provider are told apart by a field that all of them have. -/
theorem nodup_kindsOf (provider : Provider) :
    ((declaration.kindsOf provider).map Prod.fst).Nodup := by
  cases provider with
  | localProvider => exact List.nodup_singleton _
  | ec2Pool =>
      have htypes : ((declaration.kindsOf .ec2Pool).map Prod.fst).map Kind.machineType =
          (declaration.machineTypes.map Prod.fst).map some := by
        rw [Declaration.kindsOf, List.map_map, List.map_map, List.map_map]
        rfl
      apply List.Nodup.of_map Kind.machineType
      rw [htypes]
      exact declaration.types_nodup.map (Option.some_injective _)
  | ec2Assign =>
      have hnames : ((declaration.kindsOf .ec2Assign).map Prod.fst).map Kind.agentName =
          ((declaration.agentSpecs.filter fun spec => spec.provider = .ec2Assign).map
            AgentSpec.name).map some := by
        rw [Declaration.kindsOf, List.map_map, List.map_map, List.map_map]
        rfl
      apply List.Nodup.of_map Kind.agentName
      rw [hnames]
      apply List.Nodup.map (Option.some_injective _)
      exact declaration.names_nodup.sublist (List.filter_sublist.map _)

theorem nodup_declared : (declaration.declared.map Prod.fst).Nodup := by
  rw [Declaration.declared, List.map_flatMap, List.nodup_flatMap]
  constructor
  · intro provider _
    exact nodup_kindsOf provider
  · have hproviders :
        ((declaration.agentSpecs.map AgentSpec.provider).reverse.dedup.reverse).Nodup :=
      List.nodup_reverse.mpr (List.nodup_dedup _)
    apply hproviders.imp
    intro first second hne kind hfirst hsecond
    obtain ⟨left, hleft, rfl⟩ := List.mem_map.mp hfirst
    obtain ⟨right, hright, hsame⟩ := List.mem_map.mp hsecond
    apply hne
    rw [← provider_of_mem_kindsOf hleft, ← hsame, provider_of_mem_kindsOf hright]

theorem agrees_self (field : Option String) : Kind.agrees field field = true := by
  cases field with
  | none => rfl
  | some value => exact decide_eq_true rfl

theorem eq_of_agrees {wanted found : Option String} {value : String}
    (hwanted : wanted = some value) (hagrees : Kind.agrees wanted found = true) :
    found = wanted := by
  subst hwanted
  exact of_decide_eq_true hagrees

theorem counts_iff {record : MachineRecord LaunchId Time} :
    kind.counts record = true ↔ record.provider = some kind.provider ∧
      Kind.agrees kind.machineType record.machineType = true ∧
      Kind.agrees kind.marketType record.marketType = true ∧
      Kind.agrees kind.agentName record.agentName = true := by
  simp only [Kind.counts, Bool.and_eq_true, decide_eq_true_eq, and_assoc]

theorem counts_record (launchId : LaunchId) (now : Time) :
    kind.counts (kind.record launchId now) = true :=
  counts_iff.mpr ⟨rfl, agrees_self _, agrees_self _, agrees_self _⟩

/-- A new machine counts for no other kind. -/
theorem eq_of_counts_record {launchId : LaunchId} {now : Time}
    (hkind : kind ∈ declaration.declared.map Prod.fst)
    (hother : other ∈ declaration.declared.map Prod.fst)
    (hcounts : other.counts (kind.record launchId now) = true) : other = kind := by
  obtain ⟨entry, hentry, rfl⟩ := List.mem_map.mp hkind
  obtain ⟨second, hsecond, rfl⟩ := List.mem_map.mp hother
  have hmem := mem_kindsOf_of_mem_declared hentry
  have hmem' := mem_kindsOf_of_mem_declared hsecond
  obtain ⟨hprovider, htype, -, hname⟩ := counts_iff.mp hcounts
  have hsame : entry.1.provider = second.1.provider := Option.some_inj.mp hprovider
  rw [← hsame] at hmem'
  cases hcase : entry.1.provider with
  | localProvider =>
      rw [hcase] at hmem hmem'
      rw [List.mem_singleton.mp hmem, List.mem_singleton.mp hmem']
  | ec2Pool =>
      rw [hcase] at hmem hmem'
      obtain ⟨first, -, hfirst⟩ := List.mem_map.mp hmem
      obtain ⟨last, -, hlast⟩ := List.mem_map.mp hmem'
      have htypes := eq_of_agrees (hlast ▸ rfl : second.1.machineType = some last.1) htype
      rw [← hfirst, ← hlast] at htypes ⊢
      have heq : first.1 = last.1 := Option.some_inj.mp htypes
      simp only [heq]
  | ec2Assign =>
      rw [hcase] at hmem hmem'
      obtain ⟨first, -, hfirst⟩ := List.mem_map.mp hmem
      obtain ⟨last, -, hlast⟩ := List.mem_map.mp hmem'
      have hnames := eq_of_agrees (hlast ▸ rfl : second.1.agentName = some last.name) hname
      rw [← hfirst, ← hlast] at hnames ⊢
      have heq : first.name = last.name := Option.some_inj.mp hnames
      simp only [heq]

/-- What is missing of a kind. -/
theorem count_missingKinds {declared : List (Kind × ℕ)}
    (hnodup : (declared.map Prod.fst).Nodup) (read : List (MachineRecord LaunchId Time))
    {entry : Kind × ℕ} (hmem : entry ∈ declared) :
    (missingKinds declared read).count entry.1 =
      entry.2 - (read.filter entry.1.counts).length := by
  induction declared with
  | nil => cases hmem
  | cons first declared ih =>
      rw [List.map_cons, List.nodup_cons] at hnodup
      have hcons : missingKinds (first :: declared) read =
          List.replicate (first.2 - (read.filter first.1.counts).length) first.1 ++
            missingKinds declared read := rfl
      rw [hcons, List.count_append]
      obtain rfl | htail := List.mem_cons.mp hmem
      · have hnone : entry.1 ∉ missingKinds declared read := by
          intro hmissing
          obtain ⟨other, hother, hin⟩ := List.mem_flatMap.mp hmissing
          rw [List.eq_of_mem_replicate hin] at hnodup
          exact hnodup.1 (List.mem_map_of_mem hother)
        rw [List.count_replicate_self, List.count_eq_zero_of_not_mem hnone, Nat.add_zero]
      · have hne : first.1 ≠ entry.1 := by
          intro heq
          exact hnodup.1 (heq ▸ List.mem_map_of_mem htail)
        rw [List.count_replicate, if_neg (by simpa using hne), Nat.zero_add, ih hnodup.2 htail]

theorem mem_declared_of_mem_missing {declared : List (Kind × ℕ)}
    {read : List (MachineRecord LaunchId Time)} (hmem : kind ∈ missingKinds declared read) :
    kind ∈ declared.map Prod.fst := by
  obtain ⟨entry, hentry, hin⟩ := List.mem_flatMap.mp hmem
  rw [List.eq_of_mem_replicate hin]
  exact List.mem_map_of_mem hentry

end Kinds

/-! ### A thread beside a pass -/

section Threads

variable [DecidableEq LaunchId] [Inhabited Time]
variable {state next : State LaunchId ReplicaId Time} {launchId : LaunchId} {step : StartStep}

/-- All that a step of a start changes. -/
structure ThreadEffect (state next : State LaunchId ReplicaId Time) (launchId : LaunchId) :
    Prop where
  running : state.threads launchId ≠ none
  phase : next.phase = state.phase
  replicas : next.replicas = state.replicas
  others : ∀ other, other ≠ launchId → next.threads other = state.threads other
  starting : next.starting = state.starting ∨
    next.threads launchId = none ∧ next.starting = state.starting.erase launchId
  records : next.records = state.records ∨
    ∃ hasHost, next.records = (state.hset launchId hasHost).records

theorem threadStep_effect (hstep : threadStep state launchId step = some next) :
    ThreadEffect state next launchId := by
  have hset : ∀ {start : Option Start} {other : LaunchId}, other ≠ launchId →
      Function.update state.threads launchId start other = state.threads other := by
    intro start other hne
    exact Function.update_of_ne hne _ _
  rw [threadStep.eq_def] at hstep
  split at hstep
  case h_1 hthread =>
      cases hstep
      exact ⟨hthread ▸ Option.some_ne_none _, rfl, rfl, fun _ => hset, .inl rfl, .inl rfl⟩
  case h_2 hthread =>
      cases hstep
      exact ⟨hthread ▸ Option.some_ne_none _, rfl, rfl, fun _ => hset, .inl rfl, .inr ⟨_, rfl⟩⟩
  case h_3 hthread =>
      cases hstep
      exact ⟨hthread ▸ Option.some_ne_none _, rfl, rfl, fun _ => hset, .inl rfl, .inl rfl⟩
  case h_4 hthread =>
      cases hstep
      exact ⟨hthread ▸ Option.some_ne_none _, rfl, rfl, fun _ => hset, .inl rfl, .inr ⟨_, rfl⟩⟩
  case h_5 hthread =>
      cases hstep
      exact ⟨hthread ▸ Option.some_ne_none _, rfl, rfl, fun _ => hset, .inl rfl, .inl rfl⟩
  case h_6 hthread =>
      cases hstep
      exact ⟨hthread ▸ Option.some_ne_none _, rfl, rfl, fun _ => hset,
        .inr ⟨Function.update_self _ _ _, rfl⟩, .inl rfl⟩
  case h_7 => cases hstep

namespace ThreadEffect

variable (heffect : ThreadEffect state next launchId)
include heffect

/-- A start that ends leaves `_starting`, and no other does. -/
theorem mem_starting {other : LaunchId} (hmem : other ∈ state.starting)
    (hkeeps : other ≠ launchId ∨ next.threads other ≠ none) : other ∈ next.starting := by
  obtain hsame | ⟨hended, herase⟩ := heffect.starting
  · rw [hsame]
    exact hmem
  · have hne : other ≠ launchId := by
      rintro rfl
      exact hkeeps.elim (fun hne => hne rfl) (fun hruns => hruns hended)
    rw [herase]
    exact Finset.mem_erase.mpr ⟨hne, hmem⟩

theorem threads_of_next {other : LaunchId} (hruns : next.threads other ≠ none) :
    state.threads other ≠ none := by
  by_cases heq : other = launchId
  · rw [heq]
    exact heffect.running
  · rw [← heffect.others other heq]
    exact hruns

/-- While the record is there, a start only writes that its machine is up. -/
theorem records_eq (hthere : launchId ∈ state.launchIds) :
    ∃ change : MachineRecord LaunchId Time → MachineRecord LaunchId Time,
      next.records = state.records.map change ∧
        (∀ record, (change record).launchId = record.launchId) ∧
        ∀ kind record, Kind.counts kind (change record) = kind.counts record := by
  obtain hsame | ⟨hasHost, hrecords⟩ := heffect.records
  · exact ⟨id, by rw [hsame, List.map_id], fun _ => rfl, fun _ _ => rfl⟩
  · rw [State.hset, if_pos hthere] at hrecords
    refine ⟨_, hrecords, ?_, ?_⟩
    · intro record
      split_ifs <;> rfl
    · intro kind record
      split_ifs <;> rfl

theorem launchIds_eq (hthere : launchId ∈ state.launchIds) : next.launchIds = state.launchIds := by
  obtain ⟨change, hrecords, hids, -⟩ := heffect.records_eq hthere
  rw [State.launchIds, hrecords, List.map_map]
  apply List.map_congr_left
  intro record _
  exact hids record

theorem countOf_eq (hthere : launchId ∈ state.launchIds) (kind : Kind) :
    next.countOf kind = state.countOf kind := by
  obtain ⟨change, hrecords, -, hcounts⟩ := heffect.records_eq hthere
  rw [State.countOf, hrecords, List.filter_map, List.length_map]
  congr 1
  apply List.filter_congr
  intro record _
  exact hcounts kind record

end ThreadEffect

end Threads

/-! ### What holds between two steps -/

section Invariant

variable (state : State LaunchId ReplicaId Time)

/-- What is still to be started fits the counts that were declared. -/
structure Room (declaration : Declaration) (missing : List Kind) : Prop where
  declared : ∀ kind ∈ missing, kind ∈ declaration.declared.map Prod.fst
  fits : ∀ entry ∈ declaration.declared, entry.1 ∈ missing →
    state.countOf entry.1 + missing.count entry.1 ≤ entry.2

/-- Each record is still to be read, or was read as what it counts for. -/
def Covered (keys : List LaunchId) (read : List (MachineRecord LaunchId Time)) : Prop :=
  ∀ record ∈ state.records, record.launchId ∈ keys ∨
    ∃ old ∈ read, old.launchId = record.launchId ∧
      ∀ kind : Kind, kind.counts old = kind.counts record

def Running (launchId : LaunchId) : Prop :=
  state.threads launchId ≠ none

/-- What the phase of the pass rests on. -/
def PhaseSound : Prop :=
  match state.phase with
  | .reading (.terminate starting launchIds keep _) _ _ =>
      (∀ launchId, Running state launchId → launchId ∈ starting) ∧
        ∀ launchId ∈ state.occupied, (∀ chosen, launchIds = some chosen → launchId ∈ chosen) →
          launchId ∈ keep
  | .reading (.startMissing _) keys read => Covered state keys read
  | .forgetting dead keys =>
      ∀ replica ∈ state.replicas, ∀ launchId ∈ dead, replica.machine = some launchId →
        replica.replicaId ∈ keys
  | .adding declaration missing => Room state declaration missing
  | .recorded declaration missing launchId =>
      Room state declaration missing ∧ launchId ∈ state.launchIds ∧ ¬ Running state launchId
  | .registered declaration missing launchId =>
      Room state declaration missing ∧ launchId ∈ state.launchIds ∧ ¬ Running state launchId ∧
        launchId ∈ state.starting
  | .terminating jobs ended _ =>
      (∀ launchId ∈ jobs, ¬ Running state launchId ∧ launchId ∉ state.occupied) ∧
        ∀ launchId ∈ ended, ¬ Running state launchId
  | _ => True

structure Sound : Prop where
  nodup : state.launchIds.Nodup
  running : ∀ launchId, Running state launchId →
    launchId ∈ state.starting ∧ launchId ∈ state.launchIds
  phase : PhaseSound state

end Invariant

/-! ### What the claim of the pool is -/

/-- A step multiplies no machine and loses none. -/
structure Kept [DecidableEq LaunchId] (state : State LaunchId ReplicaId Time)
    (action : Action LaunchId ReplicaId Time) (next : State LaunchId ReplicaId Time) : Prop where
  adds : (∀ kind, next.countOf kind ≤ state.countOf kind) ∨
    ∃ declaration, state.phase.declaration = some declaration ∧
      ∀ entry ∈ declaration.declared, next.countOf entry.1 ≤ max entry.2 (state.countOf entry.1)
  terminates : ∀ launchId succeeds, action = .terminates launchId succeeds →
    ¬ Running state launchId ∧ launchId ∉ state.occupied
  deletes : ∀ launchId, Running state launchId → launchId ∈ next.launchIds
  writes : ∀ launchId step, action = .thread launchId step → next.launchIds = state.launchIds

section Steps

variable [DecidableEq LaunchId] [Inhabited Time]
variable {state next : State LaunchId ReplicaId Time}

/-- A step of a start takes nothing from what a pass rests on. -/
theorem phaseSound_thread {launchId : LaunchId} (heffect : ThreadEffect state next launchId)
    (hsound : Sound state) : PhaseSound next := by
  have hthere := (hsound.running launchId heffect.running).2
  have hids := heffect.launchIds_eq hthere
  have hcounts := heffect.countOf_eq hthere
  have hoccupied : next.occupied = state.occupied := by
    rw [State.occupied, heffect.replicas]
    rfl
  have hroom : ∀ {declaration missing}, Room state declaration missing →
      Room next declaration missing := by
    intro declaration missing hroom
    refine ⟨hroom.declared, ?_⟩
    intro entry hentry hmissing
    rw [hcounts]
    exact hroom.fits entry hentry hmissing
  have hstill : ∀ {other}, ¬ Running state other → ¬ Running next other := by
    intro other hnot hruns
    exact hnot (heffect.threads_of_next hruns)
  have hphase := hsound.phase
  rw [PhaseSound, heffect.phase]
  rw [PhaseSound] at hphase
  split at hphase
  · rw [hoccupied]
    exact ⟨fun other hruns => hphase.1 other (heffect.threads_of_next hruns), hphase.2⟩
  · intro record hrecord
    obtain ⟨change, hrecords, hchangeId, hchangeCounts⟩ := heffect.records_eq hthere
    rw [hrecords] at hrecord
    obtain ⟨before, hbefore, rfl⟩ := List.mem_map.mp hrecord
    obtain hkey | ⟨old, hold, hid, hsame⟩ := hphase before hbefore
    · exact Or.inl (hchangeId before ▸ hkey)
    · refine Or.inr ⟨old, hold, hid.trans (hchangeId before).symm, ?_⟩
      intro kind
      rw [hchangeCounts]
      exact hsame kind
  · rw [heffect.replicas]
    exact hphase
  · exact hroom hphase
  · rw [hids]
    exact ⟨hroom hphase.1, hphase.2.1, hstill hphase.2.2⟩
  · obtain ⟨hrooms, hid, hnot, hstarting⟩ := hphase
    rw [hids]
    refine ⟨hroom hrooms, hid, hstill hnot, heffect.mem_starting hstarting (Or.inl ?_)⟩
    rintro rfl
    exact hnot heffect.running
  · rw [hoccupied]
    refine ⟨?_, fun other hother => hstill (hphase.2 other hother)⟩
    intro other hother
    exact ⟨hstill (hphase.1 other hother).1, (hphase.1 other hother).2⟩
  · trivial

theorem sound_thread {launchId : LaunchId} {step : StartStep} (hsound : Sound state)
    (hstep : threadStep state launchId step = some next) : Sound next := by
  have heffect := threadStep_effect hstep
  have hids := heffect.launchIds_eq (hsound.running launchId heffect.running).2
  refine ⟨hids ▸ hsound.nodup, ?_, phaseSound_thread heffect hsound⟩
  intro other hruns
  obtain ⟨hstarting, hid⟩ := hsound.running other (heffect.threads_of_next hruns)
  rw [hids]
  exact ⟨heffect.mem_starting hstarting (Or.inr hruns), hid⟩

theorem kept_thread {launchId : LaunchId} {step : StartStep} (hsound : Sound state)
    (hstep : threadStep state launchId step = some next) :
    Kept state (.thread launchId step) next := by
  have heffect := threadStep_effect hstep
  have hthere := (hsound.running launchId heffect.running).2
  refine ⟨Or.inl fun kind => (heffect.countOf_eq hthere kind).le, ?_, ?_, ?_⟩
  · intro other succeeds heq
    cases heq
  · intro other hruns
    rw [heffect.launchIds_eq hthere]
    exact (hsound.running other hruns).2
  · intro _ _ _
    exact heffect.launchIds_eq hthere

omit [DecidableEq LaunchId] [Inhabited Time] in
/-- The rest of the invariant is about the records and the starts. -/
theorem sound_goTo {phase : Phase LaunchId ReplicaId Time} (hsound : Sound state)
    (hphase : PhaseSound (state.goTo phase)) : Sound (state.goTo phase) :=
  ⟨hsound.nodup, hsound.running, hphase⟩

omit [Inhabited Time] in
theorem kept_of_records_eq {action : Action LaunchId ReplicaId Time} (hsound : Sound state)
    (hrecords : next.records = state.records)
    (haction : ∀ launchId succeeds, action = .terminates launchId succeeds →
      ¬ Running state launchId ∧ launchId ∉ state.occupied) : Kept state action next := by
  have hids : next.launchIds = state.launchIds := by
    rw [State.launchIds, hrecords]
    rfl
  refine ⟨Or.inl ?_, haction, ?_, fun _ _ _ => hids⟩
  · intro kind
    rw [State.countOf, hrecords]
    exact le_rfl
  · intro launchId hruns
    rw [hids]
    exact (hsound.running launchId hruns).2

omit [Inhabited Time] in
theorem kept_goTo {action : Action LaunchId ReplicaId Time} (hsound : Sound state)
    (phase : Phase LaunchId ReplicaId Time)
    (haction : ∀ launchId succeeds, action ≠ .terminates launchId succeeds) :
    Kept state action (state.goTo phase) :=
  kept_of_records_eq hsound rfl fun launchId succeeds heq => absurd heq (haction launchId succeeds)

omit [DecidableEq LaunchId] [Inhabited Time] in
theorem phaseSound_caller (caller : Caller) : PhaseSound (state.goTo caller.phase) := by
  cases caller <;> trivial

omit [DecidableEq LaunchId] [Inhabited Time] in
theorem phaseSound_raised (phase : Phase LaunchId ReplicaId Time) :
    PhaseSound (state.goTo phase.raised) := by
  cases phase with
  | reading purpose keys read =>
      cases purpose with
      | terminate starting launchIds keep caller => exact phaseSound_caller caller
      | _ => trivial
  | clearing launchIds caller => exact phaseSound_caller caller
  | terminating jobs ended caller => exact phaseSound_caller caller
  | _ => trivial

omit [DecidableEq LaunchId] [Inhabited Time] in
/-- Before `terminate` reads the records, its caller has seen to the replicas. -/
theorem phaseSound_scan (hsound : Sound state) {keys : List LaunchId}
    {phase : Phase LaunchId ReplicaId Time} (hscan : scanStep state keys = some phase) :
    PhaseSound (state.goTo phase) := by
  have hrunning : ∀ launchId, Running state launchId → launchId ∈ state.starting :=
    fun launchId hruns => (hsound.running launchId hruns).1
  have hphase := hsound.phase
  rw [PhaseSound] at hphase
  rw [scanStep] at hscan
  split at hscan
  case h_1 dead hforgot =>
      cases hscan
      rw [hforgot] at hphase
      refine ⟨hrunning, ?_⟩
      intro launchId hoccupied hchosen
      obtain ⟨replica, hreplica, hmachine⟩ := List.mem_filterMap.mp hoccupied
      cases hphase replica hreplica launchId (hchosen dead rfl) hmachine
  case h_2 =>
      cases hscan
      exact ⟨hrunning, fun launchId hoccupied _ => hoccupied⟩
  case h_3 =>
      cases hscan
      trivial
  case h_4 => cases hscan

omit [DecidableEq LaunchId] [Inhabited Time] in
/-- No record is added while `_declared` reads them, so none is counted too little. -/
theorem countOf_le_of_covered (hsound : Sound state)
    {read : List (MachineRecord LaunchId Time)} (hcovered : Covered state [] read) (kind : Kind) :
    state.countOf kind ≤ (read.filter kind.counts).length := by
  have hsubset : (state.records.filter kind.counts).map (fun record => record.launchId) ⊆
      (read.filter kind.counts).map fun record => record.launchId := by
    intro launchId hmem
    obtain ⟨record, hrecord, rfl⟩ := List.mem_map.mp hmem
    obtain ⟨hin, hcounts⟩ := List.mem_filter.mp hrecord
    obtain hkey | ⟨old, hold, hid, hsame⟩ := hcovered record hin
    · cases hkey
    · rw [← hid]
      exact List.mem_map_of_mem (List.mem_filter.mpr ⟨hold, (hsame kind).trans hcounts⟩)
  have hnodup : ((state.records.filter kind.counts).map fun record => record.launchId).Nodup :=
    hsound.nodup.sublist (List.filter_sublist.map _)
  have hle := (hnodup.subperm hsubset).length_le
  rw [List.length_map, List.length_map] at hle
  exact hle

omit [DecidableEq LaunchId] [Inhabited Time] in
theorem Room.of_records_eq {declaration : Declaration} {missing : List Kind}
    (hroom : Room state declaration missing) (hrecords : next.records = state.records) :
    Room next declaration missing := by
  refine ⟨hroom.declared, ?_⟩
  intro entry hentry hmissing
  rw [State.countOf, hrecords]
  exact hroom.fits entry hentry hmissing

omit [DecidableEq LaunchId] [Inhabited Time] in
theorem room_missingKinds (hsound : Sound state) {declaration : Declaration}
    {read : List (MachineRecord LaunchId Time)} (hcovered : Covered state [] read) :
    Room state declaration (missingKinds declaration.declared read) := by
  refine ⟨fun kind hmissing => mem_declared_of_mem_missing hmissing, ?_⟩
  intro entry hentry hmissing
  have hpositive := List.count_pos_iff.mpr hmissing
  have hcovers := countOf_le_of_covered hsound hcovered entry.1
  rw [count_missingKinds nodup_declared read hentry] at hpositive ⊢
  omega

variable [DecidableEq ReplicaId] [LinearOrder Time]

omit [Inhabited Time] [DecidableEq ReplicaId] in
theorem phaseSound_use (hsound : Sound state) {purpose : Purpose LaunchId}
    {read : List (MachineRecord LaunchId Time)} (hreading : state.phase = .reading purpose [] read)
    (keys : List LaunchId) : PhaseSound (state.goTo (useStep purpose read keys)) := by
  have hphase := hsound.phase
  rw [PhaseSound, hreading] at hphase
  cases purpose with
  | findDead starting => trivial
  | terminate starting launchIds keep caller =>
      refine ⟨?_, fun launchId hmem => absurd hmem List.not_mem_nil⟩
      intro launchId hjob
      obtain ⟨-, hchosen⟩ := List.mem_filter.mp (List.mem_dedup.mp hjob)
      obtain ⟨hkeep, hstarting, hin⟩ := of_decide_eq_true hchosen
      refine ⟨fun hruns => hstarting (hphase.1 launchId hruns), ?_⟩
      intro hoccupied
      apply hkeep
      apply hphase.2 launchId hoccupied
      rintro chosen rfl
      exact of_decide_eq_true hin
  | startMissing declaration => exact (room_missingKinds hsound hphase).of_records_eq rfl
  | findSurplus declaration occupied =>
      rw [useStep]
      split <;> trivial

omit [Inhabited Time] [DecidableEq ReplicaId] [LinearOrder Time] in
theorem phaseSound_read (hsound : Sound state) {purpose : Purpose LaunchId} {key : LaunchId}
    {keys : List LaunchId} {read : List (MachineRecord LaunchId Time)}
    (hreading : state.phase = .reading purpose (key :: keys) read) :
    PhaseSound (state.goTo (.reading purpose keys
      (read ++ state.records.filter fun record => record.launchId = key))) := by
  have hphase := hsound.phase
  rw [PhaseSound, hreading] at hphase
  cases purpose with
  | startMissing declaration =>
      intro record hrecord
      obtain hkey | ⟨old, hold, hsame⟩ := hphase record hrecord
      · obtain hhead | htail := List.mem_cons.mp hkey
        · refine Or.inr ⟨record, List.mem_append_right _ ?_, rfl, fun _ => rfl⟩
          exact List.mem_filter.mpr ⟨hrecord, decide_eq_true hhead⟩
        · exact Or.inl htail
      · exact Or.inr ⟨old, List.mem_append_left _ hold, hsame⟩
  | findDead starting => trivial
  | terminate starting launchIds keep caller => exact hphase
  | findSurplus declaration occupied => trivial

omit [Inhabited Time] [LinearOrder Time] in
theorem sound_forget (hsound : Sound state) {dead : List LaunchId} {key : ReplicaId}
    {keys : List ReplicaId} (hforgetting : state.phase = .forgetting dead (key :: keys)) :
    Sound ((forgetStep state dead key).goTo (.forgetting dead keys)) := by
  refine ⟨hsound.nodup, hsound.running, ?_⟩
  have hphase := hsound.phase
  rw [PhaseSound, hforgetting] at hphase
  intro replica hreplica launchId hdead hmachine
  obtain ⟨hmem, hkept⟩ := List.mem_filter.mp hreplica
  obtain hhead | htail := List.mem_cons.mp (hphase replica hmem launchId hdead hmachine)
  · -- the record of this key names a dead machine, and is not kept
    rw [hhead, hmachine] at hkept
    simp only [Option.any_some, hdead, decide_true, Bool.and_self, Bool.not_true] at hkept
    cases hkept
  · exact htail

omit [DecidableEq LaunchId] [Inhabited Time] [DecidableEq ReplicaId] [LinearOrder Time] in
/-- The record saved before a machine starts is one more of its kind alone. -/
theorem countOf_append {declaration : Declaration} {kind other : Kind} {launchId : LaunchId}
    {now : Time} (hkind : kind ∈ declaration.declared.map Prod.fst)
    (hother : other ∈ declaration.declared.map Prod.fst)
    (hrecords : next.records = state.records ++ [kind.record launchId now]) :
    next.countOf other = state.countOf other + if other = kind then 1 else 0 := by
  rw [State.countOf, hrecords, List.filter_append, List.length_append]
  congr 1
  split_ifs with heq
  · rw [heq, List.filter_cons_of_pos (counts_record launchId now)]
    rfl
  · rw [List.filter_cons_of_neg]
    · rfl
    · intro hcounts
      exact heq (eq_of_counts_record hkind hother hcounts)

omit [DecidableEq LaunchId] [Inhabited Time] [DecidableEq ReplicaId] [LinearOrder Time] in
theorem sound_record (hsound : Sound state) {declaration : Declaration} {kind : Kind}
    {missing : List Kind} {launchId : LaunchId} {now : Time}
    (hadding : state.phase = .adding declaration (kind :: missing))
    (hfresh : launchId ∉ state.launchIds) (hidle : state.threads launchId = none) :
    Sound { state with
      records := state.records ++ [kind.record launchId now],
      phase := .recorded declaration missing launchId } := by
  have hids : ∀ {phase : Phase LaunchId ReplicaId Time},
      State.launchIds { state with records := state.records ++ [kind.record launchId now], phase } =
        state.launchIds ++ [launchId] := by
    intro phase
    rw [State.launchIds, List.map_append]
    rfl
  have hroom : Room state declaration (kind :: missing) := by
    have hphase := hsound.phase
    rw [PhaseSound, hadding] at hphase
    exact hphase
  refine ⟨?_, ?_, ⟨?_, ?_⟩, ?_, fun hruns => hruns hidle⟩
  · rw [hids, List.nodup_append]
    refine ⟨hsound.nodup, List.nodup_singleton _, ?_⟩
    intro old hold new hnew heq
    rw [List.mem_singleton.mp hnew] at heq
    exact hfresh (heq ▸ hold)
  · intro other hruns
    obtain ⟨hstarting, hid⟩ := hsound.running other hruns
    rw [hids]
    exact ⟨hstarting, List.mem_append_left _ hid⟩
  · intro other hother
    exact hroom.declared other (List.mem_cons_of_mem _ hother)
  · intro entry hentry hmissing
    have hfits := hroom.fits entry hentry (List.mem_cons_of_mem _ hmissing)
    rw [List.count_cons] at hfits
    rw [countOf_append (hroom.declared kind List.mem_cons_self)
      (List.mem_map_of_mem hentry) rfl]
    by_cases heq : entry.1 = kind
    · rw [if_pos heq]
      rw [if_pos (by rw [heq]; exact beq_self_eq_true kind)] at hfits
      omega
    · rw [if_neg heq]
      omega
  · rw [hids]
    exact List.mem_append_right _ (List.mem_singleton_self _)

omit [Inhabited Time] [DecidableEq ReplicaId] [LinearOrder Time] in
theorem kept_record (hsound : Sound state) {declaration : Declaration} {kind : Kind}
    {missing : List Kind} {launchId : LaunchId} {now : Time}
    (hadding : state.phase = .adding declaration (kind :: missing)) :
    Kept state (.records launchId now) { state with
      records := state.records ++ [kind.record launchId now],
      phase := .recorded declaration missing launchId } := by
  have hroom : Room state declaration (kind :: missing) := by
    have hphase := hsound.phase
    rw [PhaseSound, hadding] at hphase
    exact hphase
  refine ⟨Or.inr ⟨declaration, by rw [hadding]; rfl, ?_⟩, ?_, ?_, ?_⟩
  · intro entry hentry
    rw [countOf_append (hroom.declared kind List.mem_cons_self)
      (List.mem_map_of_mem hentry) rfl]
    split_ifs with heq
    · have hmissing : entry.1 ∈ kind :: missing := heq ▸ List.mem_cons_self
      have hfits := hroom.fits entry hentry hmissing
      have hpositive := List.count_pos_iff.mpr hmissing
      omega
    · exact le_max_right _ _
  · intro other succeeds heq
    cases heq
  · intro other hruns
    rw [State.launchIds, List.map_append]
    exact List.mem_append_left _ (hsound.running other hruns).2
  · intro other step heq
    cases heq

omit [Inhabited Time] [DecidableEq ReplicaId] [LinearOrder Time] in
theorem sound_spawn (hsound : Sound state) {declaration : Declaration} {missing : List Kind}
    {launchId : LaunchId} (hregistered : state.phase = .registered declaration missing launchId) :
    Sound ((state.setThread launchId (some .starts)).goTo (.adding declaration missing)) := by
  have hphase := hsound.phase
  rw [PhaseSound, hregistered] at hphase
  obtain ⟨hroom, hid, -, hstarting⟩ := hphase
  refine ⟨hsound.nodup, ?_, hroom.of_records_eq rfl⟩
  intro other hruns
  by_cases heq : other = launchId
  · rw [heq]
    exact ⟨hstarting, hid⟩
  · apply hsound.running other
    rw [Running, ← Function.update_of_ne heq (some Start.starts) state.threads]
    exact hruns

omit [Inhabited Time] [DecidableEq ReplicaId] [LinearOrder Time] in
theorem sound_delete (hsound : Sound state) {launchId : LaunchId} {ended : List LaunchId}
    {caller : Caller} (hphase : state.phase = .terminating [] (launchId :: ended) caller) :
    Sound { state with
      records := state.records.filter fun record => record.launchId ≠ launchId,
      phase := .terminating [] ended caller } := by
  have hended := hsound.phase
  rw [PhaseSound, hphase] at hended
  refine ⟨hsound.nodup.sublist (List.filter_sublist.map _), ?_, hended.1, ?_⟩
  · intro other hruns
    obtain ⟨hstarting, hid⟩ := hsound.running other hruns
    refine ⟨hstarting, ?_⟩
    obtain ⟨record, hrecord, rfl⟩ := List.mem_map.mp hid
    refine List.mem_map_of_mem (List.mem_filter.mpr ⟨hrecord, decide_eq_true ?_⟩)
    intro heq
    exact hended.2 launchId List.mem_cons_self (heq ▸ hruns)
  · intro other hother
    exact hended.2 other (List.mem_cons_of_mem _ hother)

omit [Inhabited Time] [DecidableEq ReplicaId] [LinearOrder Time] in
theorem kept_delete (hsound : Sound state) {launchId : LaunchId} {ended : List LaunchId}
    {caller : Caller} (hphase : state.phase = .terminating [] (launchId :: ended) caller) :
    Kept state .deletes { state with
      records := state.records.filter fun record => record.launchId ≠ launchId,
      phase := .terminating [] ended caller } := by
  refine ⟨Or.inl ?_, ?_, ?_, ?_⟩
  · intro kind
    exact (List.filter_sublist.filter _).length_le
  · intro other succeeds heq
    cases heq
  · intro other hruns
    exact ((sound_delete hsound hphase).running other hruns).2
  · intro other step heq
    cases heq

/-- Every step keeps the invariant, and multiplies no machine and loses none. -/
theorem sound_step {action : Action LaunchId ReplicaId Time} (hsound : Sound state)
    (hstep : step state action = some next) : Sound next ∧ Kept state action next := by
  have hmoves : ∀ {action : Action LaunchId ReplicaId Time} {phase},
      (∀ launchId succeeds, action ≠ .terminates launchId succeeds) →
      PhaseSound (state.goTo phase) →
      Sound (state.goTo phase) ∧ Kept state action (state.goTo phase) := by
    intro action phase haction hphase
    exact ⟨sound_goTo hsound hphase, kept_goTo hsound phase haction⟩
  cases action with
  | thread launchId threadAction => exact ⟨sound_thread hsound hstep, kept_thread hsound hstep⟩
  | begins keys =>
      simp only [step] at hstep
      split at hstep
      · split_ifs at hstep
        cases hstep
        exact hmoves (fun _ _ heq => by cases heq) trivial
      · cases hstep
  | scans keys =>
      simp only [step] at hstep
      split_ifs at hstep
      obtain ⟨phase, hscan, rfl⟩ := Option.map_eq_some_iff.mp hstep
      exact hmoves (fun _ _ heq => by cases heq) (phaseSound_scan hsound hscan)
  | declares declaration keys =>
      simp only [step] at hstep
      split at hstep
      · split_ifs at hstep with hscanned
        cases hstep
        refine hmoves (fun _ _ heq => by cases heq) ?_
        intro record hrecord
        exact Or.inl (hscanned.2 (List.mem_map_of_mem hrecord))
      · cases hstep
  | reads =>
      simp only [step] at hstep
      split at hstep
      case h_1 hreading =>
          cases hstep
          exact hmoves (fun _ _ heq => by cases heq) (phaseSound_read hsound hreading)
      case h_2 => cases hstep
  | uses keys =>
      simp only [step] at hstep
      split at hstep
      case h_1 hreading =>
          split_ifs at hstep
          cases hstep
          exact hmoves (fun _ _ heq => by cases heq) (phaseSound_use hsound hreading keys)
      case h_2 => cases hstep
  | answers alive =>
      simp only [step] at hstep
      split at hstep
      · cases hstep
        exact hmoves (fun _ _ heq => by cases heq) trivial
      · cases hstep
  | scansReplicas keys =>
      simp only [step] at hstep
      split at hstep
      · cases hstep
        exact hmoves (fun _ _ heq => by cases heq) trivial
      · split_ifs at hstep with hscanned
        cases hstep
        refine hmoves (fun _ _ heq => by cases heq) ?_
        intro replica hreplica _ _ _
        exact hscanned (List.mem_map_of_mem hreplica)
      · cases hstep
  | forgets =>
      simp only [step] at hstep
      split at hstep
      case h_1 hforgetting =>
          cases hstep
          exact ⟨sound_forget hsound hforgetting,
            kept_of_records_eq hsound rfl fun _ _ heq => by cases heq⟩
      case h_2 => cases hstep
  | stops =>
      simp only [step] at hstep
      split at hstep
      · cases hstep
        exact hmoves (fun _ _ heq => by cases heq) trivial
      · cases hstep
  | continues =>
      simp only [step] at hstep
      split at hstep
      · cases hstep
        exact hmoves (fun _ _ heq => by cases heq) trivial
      · cases hstep
        exact hmoves (fun _ _ heq => by cases heq) trivial
      · cases hstep
        exact hmoves (fun _ _ heq => by cases heq) (phaseSound_caller _)
      · cases hstep
  | leaves =>
      simp only [step] at hstep
      split at hstep
      · cases hstep
        exact hmoves (fun _ _ heq => by cases heq) trivial
      · cases hstep
        exact hmoves (fun _ _ heq => by cases heq) trivial
      · cases hstep
  | changes replicas =>
      have hchanged : Sound { state with replicas } ∨ step state (.changes replicas) = none := by
        simp only [step]
        split
        case h_5 => exact Or.inr rfl
        all_goals
          rename_i hphase
          refine Or.inl ⟨hsound.nodup, hsound.running, ?_⟩
          rw [PhaseSound]
          simp only [hphase]
      have hnext : next = { state with replicas } := by
        simp only [step] at hstep
        split at hstep <;> cases hstep <;> rfl
      obtain hkeeps | hnone := hchanged
      · rw [hnext]
        exact ⟨hkeeps, kept_of_records_eq hsound rfl fun _ _ heq => by cases heq⟩
      · rw [hnone] at hstep
        cases hstep
  | records launchId now =>
      simp only [step] at hstep
      split at hstep
      case h_1 hadding =>
          split_ifs at hstep with hfresh
          cases hstep
          exact ⟨sound_record hsound hadding hfresh.1 hfresh.2, kept_record hsound hadding⟩
      case h_2 => cases hstep
  | registers =>
      simp only [step] at hstep
      split at hstep
      case h_1 declaration missing launchId hrecorded =>
          cases hstep
          have hphase := hsound.phase
          rw [PhaseSound, hrecorded] at hphase
          obtain ⟨hroom, hid, hidle⟩ := hphase
          refine ⟨⟨hsound.nodup, ?_, hroom.of_records_eq rfl, hid, hidle,
            Finset.mem_insert_self launchId _⟩,
            kept_of_records_eq hsound rfl fun _ _ heq => by cases heq⟩
          intro other hruns
          obtain ⟨hstarting, hother⟩ := hsound.running other hruns
          exact ⟨Finset.mem_insert_of_mem hstarting, hother⟩
      case h_2 => cases hstep
  | spawns =>
      simp only [step] at hstep
      split at hstep
      case h_1 hregistered =>
          cases hstep
          exact ⟨sound_spawn hsound hregistered,
            kept_of_records_eq hsound rfl fun _ _ heq => by cases heq⟩
      case h_2 => cases hstep
  | terminates launchId succeeds =>
      simp only [step] at hstep
      split at hstep
      case h_1 jobs ended caller hterminating =>
          by_cases hjob : launchId ∈ jobs
          case neg =>
            rw [if_neg hjob] at hstep
            cases hstep
          rw [if_pos hjob] at hstep
          cases hstep
          have hphase := hsound.phase
          rw [PhaseSound, hterminating] at hphase
          refine ⟨sound_goTo hsound ⟨?_, ?_⟩, kept_of_records_eq hsound rfl ?_⟩
          · intro other hother
            exact hphase.1 other (List.mem_of_mem_erase hother)
          · intro other hother
            split_ifs at hother
            · obtain hold | hnew := List.mem_append.mp hother
              · exact hphase.2 other hold
              · rw [List.mem_singleton.mp hnew]
                exact (hphase.1 launchId hjob).1
            · exact hphase.2 other hother
          · intro other _ heq
            cases heq
            exact hphase.1 launchId hjob
      case h_2 => cases hstep
  | deletes =>
      simp only [step] at hstep
      split at hstep
      case h_1 hterminating =>
          cases hstep
          exact ⟨sound_delete hsound hterminating, kept_delete hsound hterminating⟩
      case h_2 => cases hstep
  | raises =>
      simp only [step] at hstep
      cases hstep
      exact hmoves (fun _ _ heq => by cases heq) (phaseSound_raised state.phase)

omit [DecidableEq LaunchId] [Inhabited Time] [DecidableEq ReplicaId] [LinearOrder Time] in
theorem declaration_caller (caller : Caller) :
    (caller.phase : Phase LaunchId ReplicaId Time).declaration = none := by
  cases caller <;> rfl

omit [DecidableEq LaunchId] [Inhabited Time] [DecidableEq ReplicaId] [LinearOrder Time] in
theorem declaration_raised (phase : Phase LaunchId ReplicaId Time) :
    phase.raised.declaration = none := by
  cases phase with
  | reading purpose keys read =>
      cases purpose with
      | terminate starting launchIds keep caller => exact declaration_caller caller
      | _ => rfl
  | clearing launchIds caller => exact declaration_caller caller
  | terminating jobs ended caller => exact declaration_caller caller
  | _ => rfl

omit [Inhabited Time] [DecidableEq ReplicaId] in
theorem declaration_use (purpose : Purpose LaunchId)
    (read : List (MachineRecord LaunchId Time)) (keys : List LaunchId) :
    (useStep purpose read keys : Phase LaunchId ReplicaId Time).declaration =
      (Phase.reading purpose [] read : Phase LaunchId ReplicaId Time).declaration := by
  cases purpose with
  | findSurplus declaration occupied =>
      rw [useStep]
      split <;> rfl
  | _ => rfl

/-- A pass starts machines only for the declaration it has read. -/
theorem declaration_of_step {action : Action LaunchId ReplicaId Time}
    {declaration : Declaration} (hstep : step state action = some next)
    (hnext : next.phase.declaration = some declaration) :
    state.phase.declaration = some declaration ∨
      ∃ keys, action = .declares declaration keys := by
  cases action with
  | thread launchId threadAction =>
      rw [(threadStep_effect hstep).phase] at hnext
      exact Or.inl hnext
  | declares other keys =>
      simp only [step] at hstep
      split at hstep
      · split_ifs at hstep
        cases hstep
        cases hnext
        exact Or.inr ⟨keys, rfl⟩
      · cases hstep
  | raises =>
      simp only [step] at hstep
      cases hstep
      rw [State.goTo, declaration_raised] at hnext
      cases hnext
  | begins keys =>
      simp only [step] at hstep
      split at hstep
      · split_ifs at hstep
        cases hstep
        cases hnext
      · cases hstep
  | scans keys =>
      simp only [step] at hstep
      split_ifs at hstep
      obtain ⟨phase, hscan, rfl⟩ := Option.map_eq_some_iff.mp hstep
      rw [scanStep] at hscan
      split at hscan <;> cases hscan <;> cases hnext
  | reads =>
      simp only [step] at hstep
      split at hstep
      case h_1 purpose key keys read hreading =>
          cases hstep
          rw [hreading]
          cases purpose with
          | startMissing other => exact Or.inl hnext
          | _ => cases hnext
      case h_2 => cases hstep
  | uses keys =>
      simp only [step] at hstep
      split at hstep
      case h_1 hreading =>
          split_ifs at hstep
          cases hstep
          rw [State.goTo, declaration_use] at hnext
          exact Or.inl (hreading ▸ hnext)
      case h_2 => cases hstep
  | answers alive =>
      simp only [step] at hstep
      split at hstep <;> cases hstep
      cases hnext
  | scansReplicas keys =>
      simp only [step] at hstep
      split at hstep
      · cases hstep
        cases hnext
      · split_ifs at hstep
        cases hstep
        cases hnext
      · cases hstep
  | forgets =>
      simp only [step] at hstep
      split at hstep <;> cases hstep
      cases hnext
  | stops =>
      simp only [step] at hstep
      split at hstep <;> cases hstep
      cases hnext
  | continues =>
      simp only [step] at hstep
      split at hstep
      · cases hstep
        cases hnext
      · cases hstep
        cases hnext
      · cases hstep
        rw [State.goTo, declaration_caller] at hnext
        cases hnext
      · cases hstep
  | leaves =>
      simp only [step] at hstep
      split at hstep <;> cases hstep <;> cases hnext
  | changes replicas =>
      simp only [step] at hstep
      split at hstep <;> cases hstep <;> exact Or.inl hnext
  | records launchId now =>
      simp only [step] at hstep
      split at hstep
      case h_1 hadding =>
          split_ifs at hstep
          cases hstep
          cases hnext
          exact Or.inl (by rw [hadding]; rfl)
      case h_2 => cases hstep
  | registers =>
      simp only [step] at hstep
      split at hstep
      case h_1 hrecorded =>
          cases hstep
          cases hnext
          exact Or.inl (by rw [hrecorded]; rfl)
      case h_2 => cases hstep
  | spawns =>
      simp only [step] at hstep
      split at hstep
      case h_1 hregistered =>
          cases hstep
          cases hnext
          exact Or.inl (by rw [hregistered]; rfl)
      case h_2 => cases hstep
  | terminates launchId succeeds =>
      simp only [step] at hstep
      split at hstep
      case h_1 jobs ended caller hterminating =>
          by_cases hjob : launchId ∈ jobs
          · rw [if_pos hjob] at hstep
            cases hstep
            cases hnext
          · rw [if_neg hjob] at hstep
            cases hstep
      case h_2 => cases hstep
  | deletes =>
      simp only [step] at hstep
      split at hstep <;> cases hstep
      cases hnext

end Steps

/-! ### Runs -/

section Runs

variable [DecidableEq LaunchId] [DecidableEq ReplicaId] [LinearOrder Time] [Inhabited Time]
variable {start final : State LaunchId ReplicaId Time}

/-- A reconciler that has just been started, on whatever Redis holds. -/
structure Fresh (state : State LaunchId ReplicaId Time) : Prop where
  nodup : state.launchIds.Nodup
  idle : state.phase = .idle
  threads : ∀ launchId, state.threads launchId = none

omit [DecidableEq LaunchId] [DecidableEq ReplicaId] [LinearOrder Time] [Inhabited Time] in
theorem sound_fresh (hfresh : Fresh start) : Sound start := by
  refine ⟨hfresh.nodup, fun launchId hruns => absurd (hfresh.threads launchId) hruns, ?_⟩
  rw [PhaseSound, hfresh.idle]
  trivial

/-- The pass declares the kind, with at most so many machines. -/
def Within (kind : Kind) (count : ℕ) (declaration : Declaration) : Prop :=
  ∃ entry ∈ declaration.declared, entry.1 = kind ∧ entry.2 ≤ count

theorem countOf_le_of_run (hsound : Sound start) {kind : Kind} {count bound : ℕ}
    {actions : List (Action LaunchId ReplicaId Time)}
    (hrun : (system LaunchId ReplicaId Time).run start actions = some final)
    (hpass : ∀ declaration, start.phase.declaration = some declaration →
      Within kind count declaration)
    (hwithin : ∀ declaration keys, Action.declares declaration keys ∈ actions →
      Within kind count declaration)
    (hcount : count ≤ bound) (hstart : start.countOf kind ≤ bound) :
    final.countOf kind ≤ bound := by
  induction actions generalizing start with
  | nil =>
      cases hrun
      exact hstart
  | cons action actions ih =>
      obtain ⟨next, hstep, hrest⟩ := (system _ _ _).run_cons_eq_some.mp hrun
      obtain ⟨hnextSound, hkept⟩ := sound_step hsound hstep
      refine ih hnextSound hrest ?_ ?_ ?_
      · intro declaration hdeclaration
        obtain hbefore | ⟨keys, rfl⟩ := declaration_of_step hstep hdeclaration
        · exact hpass declaration hbefore
        · exact hwithin declaration keys List.mem_cons_self
      · intro declaration keys hmem
        exact hwithin declaration keys (List.mem_cons_of_mem _ hmem)
      · obtain hfewer | ⟨declaration, hdeclaration, hupTo⟩ := hkept.adds
        · exact (hfewer kind).trans hstart
        · obtain ⟨entry, hentry, rfl, hle⟩ := hpass declaration hdeclaration
          exact (hupTo entry hentry).trans (max_le (hle.trans hcount) hstart)

/-- Whatever the schedule, no step multiplies a machine or loses one, and there are never more of a
kind than the passes declare and those that were too many from the start. -/
theorem machines_kept (hfresh : Fresh start) {actions : List (Action LaunchId ReplicaId Time)}
    (hrun : (system LaunchId ReplicaId Time).run start actions = some final) :
    (system LaunchId ReplicaId Time).Along Kept start actions ∧
      ∀ kind count, (∀ declaration keys, Action.declares declaration keys ∈ actions →
        Within kind count declaration) →
        final.countOf kind ≤ count + (start.countOf kind - count) := by
  have hsound := sound_fresh hfresh
  refine ⟨TransitionSystem.along_of_invariant _ (fun _ _ _ => sound_step) actions hsound, ?_⟩
  intro kind count hwithin
  refine countOf_le_of_run hsound hrun ?_ hwithin (by omega) (by omega)
  intro declaration hdeclaration
  rw [hfresh.idle] at hdeclaration
  cases hdeclaration

end Runs

/-! ### A pass that starts a machine -/

def onePool : Declaration where
  agentSpecs := [{ name := "Hello", provider := .ec2Pool, replicas := 2 }]
  marketType := fun _ => some "spot"
  machineTypes := [("t3.micro", 1)]
  agentTypes := fun _ => ""
  names_nodup := List.nodup_singleton _
  types_nodup := List.nodup_singleton _

def poolKind : Kind where
  provider := .ec2Pool
  machineType := some "t3.micro"
  marketType := some "spot"

def noMachines : State ℕ ℕ ℕ where
  records := []
  replicas := []
  starting := ∅
  threads := fun _ => none
  phase := .idle

/-- The start of machine `7` fails while the next pass looks for dead machines. -/
def failedStart : List (Action ℕ ℕ ℕ) :=
  [.begins [], .uses [], .scansReplicas [], .continues, .declares onePool [], .uses [],
    .records 7 1, .registers, .spawns, .scans [7], .reads, .uses [7], .leaves,
    .begins [7], .thread 7 .raises, .reads, .uses [7], .thread 7 .discards, .scansReplicas [],
    .continues, .leaves, .begins [7], .reads, .uses [7], .scansReplicas [], .scans [7], .reads,
    .uses [7], .terminates 7 true, .deletes]

theorem machines_kept_failedStart :
    ∃ final, (system ℕ ℕ ℕ).run noMachines failedStart = some final ∧
      (system ℕ ℕ ℕ).Along Kept noMachines failedStart ∧ final.countOf poolKind ≤ 1 := by
  have hfresh : Fresh noMachines := ⟨List.nodup_nil, rfl, fun _ => rfl⟩
  have hruns : ((system ℕ ℕ ℕ).run noMachines failedStart).isSome = true := by decide
  obtain ⟨final, hrun⟩ := Option.isSome_iff_exists.mp hruns
  obtain ⟨hkept, hcounts⟩ := machines_kept hfresh hrun
  refine ⟨final, hrun, hkept, hcounts poolKind 1 ?_⟩
  intro declaration keys hmem
  have heq : declaration = onePool := by
    simp only [failedStart, List.mem_cons, reduceCtorEq, false_or, List.not_mem_nil, or_false,
      Action.declares.injEq] at hmem
    exact hmem.1
  rw [heq]
  exact ⟨(poolKind, 1), by decide, rfl, le_rfl⟩

end CanyonOS.Reconciler.Machines
