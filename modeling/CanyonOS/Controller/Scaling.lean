import Mathlib
import CanyonOS.Lib.TransitionSystem
import CanyonOS.Record

/-!
# The scaling policy

The global controller's loop records a sample of each agent's load, then changes desired replica
counts by what the policy says of the samples. A poll that fails leaves the samples as they were, and
others may change a count at any time.
-/

namespace CanyonOS.Scaling

/-- A value of the policy document. -/
inductive Value where
  | integer (value : Int)
  | number (value : Rat)
  | boolean (value : Bool)
  | text (value : String)
  | missing
deriving DecidableEq

/-- `_is_int`: 3.0 counts, `True` does not. -/
def Value.IsInt : Value → Prop
  | .integer _ => True
  | .number value => value.den = 1
  | .boolean _ | .text _ | .missing => False

instance : (value : Value) → Decidable value.IsInt
  | .integer _ => isTrue trivial
  | .number value => inferInstanceAs (Decidable (value.den = 1))
  | .boolean _ => isFalse id
  | .text _ => isFalse id
  | .missing => isFalse id

/-- The value as a number, of those that `_is_number` accepts. -/
def Value.number? : Value → Option Rat
  | .integer value => some value
  | .number value => some value
  | .boolean _ | .text _ | .missing => none

/-- `int(value)`, of a number. -/
def Value.toInt : Value → Int
  | .integer value => value
  | .number value => value.num.tdiv value.den
  | .boolean _ | .text _ | .missing => 0

structure PolicyFields where
  minReplicas : Value := .missing
  maxReplicas : Value := .missing
  metric : Value := .missing
  scaleUpAbove : Value := .missing
  scaleDownBelow : Value := .missing
deriving DecidableEq

/-- What `scaling:config` has under `scaling`. -/
inductive PolicyDocument where
  | mapping (fields : PolicyFields)
  | other
deriving DecidableEq

def queueLengthTotal : String := "queue_length_total"

def requestsPerMinutePerReplica : String := "requests_per_minute_per_replica"

def metrics : List String := [queueLengthTotal, requestsPerMinutePerReplica]

def CountOk (value : Value) : Prop :=
  value.IsInt ∧ 1 ≤ value.toInt

def NumberOk (value : Value) : Prop :=
  0 ≤ value.number?.getD (-1)

instance (value : Value) : Decidable (CountOk value) := inferInstanceAs (Decidable (_ ∧ _))

instance (value : Value) : Decidable (NumberOk value) := inferInstanceAs (Decidable (_ ≤ _))

def policyError : PolicyDocument → Option String
  | .other => some "a policy must be a mapping"
  | .mapping fields =>
      if ¬ CountOk fields.minReplicas then some "min_replicas must be an integer >= 1"
      else if ¬ CountOk fields.maxReplicas then some "max_replicas must be an integer >= 1"
      else if fields.maxReplicas.toInt < fields.minReplicas.toInt then
        some "min_replicas must not exceed max_replicas"
      else if fields.metric ∉ metrics.map Value.text then
        some ("metric must be one of " ++ ", ".intercalate metrics)
      else if ¬ NumberOk fields.scaleUpAbove then some "scale_up_above must be a number >= 0"
      else if ¬ NumberOk fields.scaleDownBelow then some "scale_down_below must be a number >= 0"
      else if fields.scaleUpAbove.number?.getD 0 ≤ fields.scaleDownBelow.number?.getD 0 then
        some "scale_down_below must be less than scale_up_above"
      else none

/-- An accepted policy, its counts made integers. -/
structure Policy where
  minReplicas : Int
  maxReplicas : Int
  metric : String
  scaleUpAbove : Rat
  scaleDownBelow : Rat

def PolicyFields.policy (fields : PolicyFields) : Policy where
  minReplicas := fields.minReplicas.toInt
  maxReplicas := fields.maxReplicas.toInt
  metric :=
    match fields.metric with
    | .text metric => metric
    | _ => ""
  scaleUpAbove := fields.scaleUpAbove.number?.getD 0
  scaleDownBelow := fields.scaleDownBelow.number?.getD 0

/-- One agent's load at a point in time, as far as a policy reads it. -/
structure AgentSample where
  replicasRunning : Nat
  replicasExpected : Nat
  queueLengthTotal : Option Rat
  requestsPerMinutePerReplica : Option Rat
deriving DecidableEq

def AgentSample.get (sample : AgentSample) (metric : String) : Option Rat :=
  if metric = Scaling.queueLengthTotal then sample.queueLengthTotal
  else if metric = Scaling.requestsPerMinutePerReplica then sample.requestsPerMinutePerReplica
  else none

/-- `WINDOW_LENGTH`. -/
def windowLength : Nat := 4

/-- A full window at one steady replica count. -/
def Settled (current : Nat) (samples : List AgentSample) : Prop :=
  windowLength ≤ samples.length ∧
    ∀ sample ∈ samples, sample.replicasExpected = current ∧ sample.replicasRunning = current

instance (current : Nat) (samples : List AgentSample) : Decidable (Settled current samples) :=
  inferInstanceAs (Decidable (_ ∧ _))

/-- `_decide`: back inside min and max first, then one step when every sample breaches. -/
def decideChange (policy : Policy) (newest : AgentSample) (older : List AgentSample) : Int :=
  let current := newest.replicasExpected
  let samples := newest :: older
  if current < policy.minReplicas then policy.minReplicas - current
  else if policy.maxReplicas < current then policy.maxReplicas - current
  else if ¬ Settled current samples then 0
  else
    let values := samples.map (·.get policy.metric)
    if values.any Option.isNone then 0
    else
      match values.reduceOption.min?, values.reduceOption.max? with
      | some low, some high =>
          if policy.scaleUpAbove < low ∧ current < policy.maxReplicas then 1
          else if high < policy.scaleDownBelow ∧ policy.minReplicas < current then -1
          else 0
      | _, _ => 0

structure AgentSpec where
  name : AgentName
  type : String := "agent"

/-- `scale`: the changes one policy asks for, each agent's of its own samples. -/
def scale (document : Option PolicyDocument) (specs : List AgentSpec)
    (samples : AgentName → List AgentSample) : List (AgentName × Int) :=
  match document with
  | some (.mapping fields) =>
      if (policyError (.mapping fields)).isSome then []
      else
        specs.filterMap fun spec =>
          if spec.type ≠ "agent" then none
          else
            match samples spec.name with
            | [] => none
            | newest :: older =>
                let delta := decideChange fields.policy newest older
                if delta = 0 then none else some (spec.name, delta)
  | some .other | none => []

/-! ### The loop -/

/-- A recorded sample, with how often the agent's count had been changed when it was read. -/
structure Recorded where
  sample : AgentSample
  changes : Nat
deriving DecidableEq

/-- The loop's state and Redis. `reading` is a sample a poll is taking: its agent, the count read
for it, and how often that had been changed. `inHand` is a change being applied: its agent, the
change, and the count it is added to. `changes` and `scaled` only keep track: how often a count was
changed, and how often it had been when the policy last changed it. -/
structure State where
  document : Option PolicyDocument
  desired : AgentName → Nat
  samples : AgentName → List Recorded
  reading : Option (AgentName × Nat × Nat) := none
  used : Policy
  pending : List (AgentName × Int) := []
  inHand : Option (AgentName × Int × Nat) := none
  changes : AgentName → Nat
  scaled : AgentName → Nat

inductive Action where
  | readCount (agent : AgentName)
  | record (running : Nat) (queueLengthTotal requestsPerMinutePerReplica : Option Rat)
  | abandonPoll
  | scale
  | readDesired
  | writeDesired
  | abandonScaling
  | changeCount (agent : AgentName) (count : Nat)
  | setDocument (document : Option PolicyDocument)

/-- The loop is between two of its parts. -/
def State.Idle (state : State) : Prop :=
  state.reading = none ∧ state.pending = [] ∧ state.inHand = none

instance (state : State) : Decidable state.Idle := inferInstanceAs (Decidable (_ ∧ _))

def State.setDesired (state : State) (agent : AgentName) (count : Nat) : State :=
  { state with
    desired := Function.update state.desired agent count
    changes := Function.update state.changes agent (state.changes agent + 1) }

def usedPolicy (document : Option PolicyDocument) (used : Policy) : Policy :=
  match document with
  | some (.mapping fields) => fields.policy
  | some .other | none => used

def step (specs : List AgentSpec) (state : State) : Action → Option State
  | .readCount agent =>
      if state.Idle then
        some { state with reading := some (agent, state.desired agent, state.changes agent) }
      else none
  | .record running queueLengthTotal requestsPerMinutePerReplica =>
      match state.reading with
      | none => none
      | some (agent, expected, changes) =>
          let sample : AgentSample :=
            ⟨running, expected, queueLengthTotal, requestsPerMinutePerReplica⟩
          some { state with
            reading := none
            samples := Function.update state.samples agent
              ((⟨sample, changes⟩ :: state.samples agent).take windowLength) }
  | .abandonPoll => some { state with reading := none }
  | .scale =>
      if state.Idle then
        some { state with
          used := usedPolicy state.document state.used
          pending := scale state.document specs fun agent =>
            (state.samples agent).map Recorded.sample }
      else none
  | .readDesired =>
      match state.inHand, state.pending with
      | none, (agent, delta) :: pending =>
          some { state with
            pending := pending
            inHand := some (agent, delta, state.desired agent) }
      | _, _ => none
  | .writeDesired =>
      match state.inHand with
      | none => none
      | some (agent, delta, current) =>
          let next := state.setDesired agent (current + delta).toNat
          some { next with
            inHand := none
            scaled := Function.update state.scaled agent (next.changes agent) }
  | .abandonScaling => some { state with pending := [], inHand := none }
  | .changeCount agent count => some (state.setDesired agent count)
  | .setDocument document => some { state with document := document }

def sys (specs : List AgentSpec) : TransitionSystem State Action where
  step := step specs

/-- At the start of a run nothing is known of the samples an earlier one left. -/
structure Initial (state : State) : Prop where
  idle : state.Idle
  samples : ∀ agent, ∀ recorded ∈ state.samples agent, recorded.changes = 0
  changes : ∀ agent, state.changes agent = 1
  scaled : ∀ agent, state.scaled agent = 0

/-- From `before` to `after` an agent's count does not leave the band, or goes towards it. -/
structure Bounded (policy : Policy) (before after : Nat) : Prop where
  inside : policy.minReplicas ≤ before → (before : Int) ≤ policy.maxReplicas →
    policy.minReplicas ≤ after ∧ (after : Int) ≤ policy.maxReplicas
  below : (before : Int) < policy.minReplicas →
    before < after ∧ (after : Int) ≤ policy.maxReplicas
  above : policy.maxReplicas < before → after < before ∧ policy.minReplicas ≤ after

/-- A sample of the agent was read since the policy last changed its count. -/
def SampledSince (state : State) (agent : AgentName) : Prop :=
  ∃ recorded ∈ (state.samples agent).head?, state.scaled agent ≤ recorded.changes

/-- What a step may do to desired counts in the name of the policy. -/
def WellScaled (before : State) (action : Action) (after : State) : Prop :=
  match action, before.inHand with
  | .writeDesired, some (agent, _, _) =>
      Bounded before.used (before.desired agent) (after.desired agent) ∧ SampledSince before agent
  | _, _ => True

/-- The agent's count is the one its newest sample was taken at: nobody changed it since. -/
def Fresh (state : State) (agent : AgentName) : Prop :=
  ∃ recorded ∈ (state.samples agent).head?, recorded.changes = state.changes agent

instance (state : State) (agent : AgentName) : Decidable (Fresh state agent) :=
  inferInstanceAs (Decidable (∃ _ ∈ _, _))

/-- A change is applied only to a count that nobody changed since the agent's newest sample. -/
def OnFreshSamples (state : State) (action : Action) : Prop :=
  match action, state.inHand with
  | .writeDesired, some (agent, _, _) => Fresh state agent
  | _, _ => True

/-! ### One decision -/

/-- What an accepted policy promises of its counts. -/
structure Policy.Accepted (policy : Policy) : Prop where
  positive : 1 ≤ policy.minReplicas
  ordered : policy.minReplicas ≤ policy.maxReplicas

theorem accepted_of_policyError {fields : PolicyFields}
    (hnone : policyError (.mapping fields) = none) : fields.policy.Accepted := by
  simp only [policyError] at hnone
  split_ifs at hnone with hmin hmax horder
  exact ⟨hmin.2, Int.not_lt.mp horder⟩

/-- A policy asks for at most one step while the count is in the band, and not past its ends. -/
theorem decideChange_inside {policy : Policy} {newest : AgentSample} {older : List AgentSample}
    (hmin : policy.minReplicas ≤ newest.replicasExpected)
    (hmax : (newest.replicasExpected : Int) ≤ policy.maxReplicas) :
    policy.minReplicas ≤ newest.replicasExpected + decideChange policy newest older ∧
      newest.replicasExpected + decideChange policy newest older ≤ policy.maxReplicas := by
  unfold decideChange
  dsimp only
  rw [if_neg (Int.not_lt.mpr hmin), if_neg (Int.not_lt.mpr hmax)]
  by_cases hsettled : Settled newest.replicasExpected (newest :: older)
  · rw [if_neg (not_not_intro hsettled)]
    by_cases hnone : ((newest :: older).map (·.get policy.metric)).any Option.isNone
    · rw [if_pos hnone]
      omega
    · rw [if_neg hnone]
      split
      · split_ifs <;> omega
      · omega
  · rw [if_pos hsettled]
    omega

theorem bounded_decideChange {policy : Policy} (haccepted : policy.Accepted)
    (newest : AgentSample) (older : List AgentSample) :
    Bounded policy newest.replicasExpected
      (newest.replicasExpected + decideChange policy newest older).toNat := by
  have hpositive := haccepted.positive
  have hordered := haccepted.ordered
  constructor
  · intro hmin hmax
    have hinside := @decideChange_inside policy newest older hmin hmax
    omega
  · intro hbelow
    rw [decideChange, if_pos hbelow]
    omega
  · intro habove
    rw [decideChange, if_neg (by omega), if_pos habove]
    omega

/-! ### What holds along a run -/

/-- A change is what an accepted policy asks for on the agent's samples. -/
def Decided (state : State) (agent : AgentName) (delta : Int) : Prop :=
  state.used.Accepted ∧ ∃ newest older, state.samples agent = newest :: older ∧
    delta = decideChange state.used newest.sample (older.map Recorded.sample)

structure Inv (state : State) : Prop where
  /-- A sample nobody changed the count since says what the count is. -/
  samples : ∀ agent, ∀ recorded ∈ state.samples agent,
    recorded.changes ≤ state.changes agent ∧
      (recorded.changes = state.changes agent →
        recorded.sample.replicasExpected = state.desired agent)
  reading : ∀ agent count changes, state.reading = some (agent, count, changes) →
    changes ≤ state.changes agent ∧
      (changes = state.changes agent → count = state.desired agent)
  scaled : ∀ agent, state.scaled agent ≤ state.changes agent
  /-- While changes wait no sample is taken. -/
  alone : state.reading ≠ none → state.pending = [] ∧ state.inHand = none
  pending : ∀ agent delta, (agent, delta) ∈ state.pending → Decided state agent delta
  inHand : ∀ agent delta current, state.inHand = some (agent, delta, current) →
    Decided state agent delta ∧ (Fresh state agent → current = state.desired agent)

theorem Inv.of_initial {state : State} (hinitial : Initial state) : Inv state := by
  obtain ⟨⟨hreading, hpending, hinHand⟩, hsamples, hchanges, hscaled⟩ := hinitial
  refine ⟨?_, ?_, ?_, ?_, ?_, ?_⟩
  · intro agent recorded hmem
    rw [hsamples agent recorded hmem, hchanges agent]
    exact ⟨Nat.zero_le 1, fun heq => absurd heq Nat.zero_ne_one⟩
  · intro agent count changes hread
    rw [hreading] at hread
    cases hread
  · intro agent
    rw [hscaled agent]
    exact Nat.zero_le _
  · intro hread
    exact absurd hreading hread
  · intro agent delta hmem
    rw [hpending] at hmem
    cases hmem
  · intro agent delta current hhand
    rw [hinHand] at hhand
    cases hhand

/-- A count that is changed makes its samples and what was read of it out of date. -/
theorem Inv.setDesired {state : State} (hinv : Inv state) (agent : AgentName) (count : Nat) :
    Inv (state.setDesired agent count) := by
  have hle : ∀ other, state.changes other ≤ (state.setDesired agent count).changes other := by
    intro other
    by_cases heq : other = agent
    · subst heq
      simp [State.setDesired]
    · simp [State.setDesired, heq]
  have hsame : ∀ other changes, changes ≤ state.changes other →
      changes = (state.setDesired agent count).changes other →
      changes = state.changes other ∧
        (state.setDesired agent count).desired other = state.desired other := by
    intro other changes hchanges heq
    by_cases hother : other = agent
    · subst hother
      simp only [State.setDesired, Function.update_self] at heq
      omega
    · simp only [State.setDesired, Function.update_of_ne hother] at heq ⊢
      exact ⟨heq, trivial⟩
  refine ⟨?_, ?_, ?_, hinv.alone, hinv.pending, ?_⟩
  · intro other recorded hmem
    obtain ⟨hchanges, hexpected⟩ := hinv.samples other recorded hmem
    refine ⟨hchanges.trans (hle other), ?_⟩
    intro heq
    obtain ⟨heq, hdesired⟩ := hsame other _ hchanges heq
    rw [hdesired]
    exact hexpected heq
  · intro other read changes hread
    obtain ⟨hchanges, hcount⟩ := hinv.reading other read changes hread
    refine ⟨hchanges.trans (hle other), ?_⟩
    intro heq
    obtain ⟨heq, hdesired⟩ := hsame other _ hchanges heq
    rw [hdesired]
    exact hcount heq
  · intro other
    exact (hinv.scaled other).trans (hle other)
  · intro other delta current hhand
    obtain ⟨hdecided, hcurrent⟩ := hinv.inHand other delta current hhand
    refine ⟨hdecided, ?_⟩
    rintro ⟨recorded, hhead, heq⟩
    have hmem : recorded ∈ state.samples other := List.mem_of_head? hhead
    obtain ⟨heq, hdesired⟩ := hsame other _ (hinv.samples other recorded hmem).1 heq
    rw [hdesired]
    exact hcurrent ⟨recorded, hhead, heq⟩

/-- What `scale` asks for is decided on each agent's samples. -/
theorem decided_of_mem_scale {state : State} {specs : List AgentSpec} {agent : AgentName}
    {delta : Int}
    (hmem : (agent, delta) ∈ scale state.document specs fun agent =>
      (state.samples agent).map Recorded.sample) :
    (usedPolicy state.document state.used).Accepted ∧
      ∃ newest older, state.samples agent = newest :: older ∧
        delta = decideChange (usedPolicy state.document state.used) newest.sample
          (older.map Recorded.sample) := by
  unfold scale at hmem
  split at hmem
  · rename_i fields hdocument
    split_ifs at hmem with herror
    · cases hmem
    · rw [Option.not_isSome_iff_eq_none] at herror
      rw [hdocument]
      refine ⟨accepted_of_policyError herror, ?_⟩
      obtain ⟨spec, -, hspec⟩ := List.mem_filterMap.mp hmem
      split_ifs at hspec
      cases hsamples : state.samples spec.name with
      | nil => simp [hsamples] at hspec
      | cons newest older =>
          simp only [hsamples, List.map_cons] at hspec
          split_ifs at hspec
          cases hspec
          exact ⟨newest, older, hsamples, rfl⟩
  · cases hmem
  · cases hmem

theorem Inv.record {state : State} (hinv : Inv state) {agent : AgentName} {count changes : Nat}
    (hreading : state.reading = some (agent, count, changes)) {sample : AgentSample}
    (hexpected : sample.replicasExpected = count) :
    Inv { state with
      reading := none
      samples := Function.update state.samples agent
        ((⟨sample, changes⟩ :: state.samples agent).take windowLength) } := by
  obtain ⟨hpending, hinHand⟩ := hinv.alone (by simp [hreading])
  refine ⟨?_, ?_, hinv.scaled, ?_, ?_, ?_⟩
  · intro other recorded hmem
    by_cases heq : other = agent
    · subst heq
      simp only [Function.update_self] at hmem
      rcases List.mem_cons.mp (List.mem_of_mem_take hmem) with rfl | hmem
      · obtain ⟨hchanges, hcount⟩ := hinv.reading other count changes hreading
        exact ⟨hchanges, fun heq => hexpected.trans (hcount heq)⟩
      · exact hinv.samples other recorded hmem
    · simp only [Function.update_of_ne heq] at hmem
      exact hinv.samples other recorded hmem
  · intro other count changes hread
    cases hread
  · intro hread
    exact absurd rfl hread
  · intro other delta hmem
    rw [hpending] at hmem
    cases hmem
  · intro other delta current hhand
    rw [hinHand] at hhand
    cases hhand

theorem Inv.scale {state : State} (hinv : Inv state) (hidle : state.Idle)
    (specs : List AgentSpec) :
    Inv { state with
      used := usedPolicy state.document state.used
      pending := Scaling.scale state.document specs fun agent =>
        (state.samples agent).map Recorded.sample } := by
  obtain ⟨hreading, -, hinHand⟩ := hidle
  refine ⟨hinv.samples, hinv.reading, hinv.scaled, ?_, ?_, ?_⟩
  · intro hread
    exact absurd hreading hread
  · intro agent delta hmem
    exact decided_of_mem_scale hmem
  · intro agent delta current hhand
    rw [hinHand] at hhand
    cases hhand

/-- The change in hand, added to a count nobody changed since the newest sample, is that sample's
decision. -/
theorem Inv.bounded_write {state : State} (hinv : Inv state) {agent : AgentName} {delta : Int}
    {current : Nat} (hhand : state.inHand = some (agent, delta, current))
    (hfresh : Fresh state agent) :
    Bounded state.used (state.desired agent) (current + delta).toNat := by
  obtain ⟨⟨haccepted, newest, older, hsamples, rfl⟩, hcurrent⟩ := hinv.inHand _ _ _ hhand
  rw [hcurrent hfresh]
  obtain ⟨recorded, hhead, hchanges⟩ := hfresh
  rw [hsamples] at hhead
  cases hhead
  have hmem : newest ∈ state.samples agent := hsamples ▸ List.mem_cons_self
  rw [← (hinv.samples agent newest hmem).2 hchanges]
  exact bounded_decideChange haccepted _ _

theorem Inv.write {state : State} (hinv : Inv state) (agent : AgentName) (count : Nat)
    (hreading : state.reading = none) :
    Inv { state.setDesired agent count with
      inHand := none
      scaled := Function.update state.scaled agent ((state.setDesired agent count).changes agent)
    } := by
  have hset := hinv.setDesired agent count
  refine ⟨hset.samples, hset.reading, ?_, ?_, hset.pending, ?_⟩
  · intro other
    by_cases heq : other = agent
    · subst heq
      simp
    · show Function.update state.scaled agent _ other ≤ _
      rw [Function.update_of_ne heq]
      exact hset.scaled other
  · intro hread
    exact absurd hreading hread
  · intro other delta current hhand
    cases hhand

/-- Every step keeps the invariant, and a change applied to a fresh count is well scaled. -/
theorem inv_step {specs : List AgentSpec} {state next : State} {action : Action}
    (hinv : Inv state) (hguard : OnFreshSamples state action)
    (hstep : step specs state action = some next) :
    Inv next ∧ WellScaled state action next := by
  cases action with
  | readCount agent =>
      simp only [step] at hstep
      split_ifs at hstep with hidle
      cases hstep
      refine ⟨⟨hinv.samples, ?_, hinv.scaled, fun _ => hidle.2, hinv.pending, hinv.inHand⟩,
        trivial⟩
      rintro other count changes ⟨⟩
      exact ⟨le_refl _, fun _ => rfl⟩
  | record running queueLengthTotal requestsPerMinutePerReplica =>
      simp only [step] at hstep
      split at hstep
      · cases hstep
      · rename_i agent expected changes hreading
        cases hstep
        exact ⟨hinv.record hreading rfl, trivial⟩
  | abandonPoll =>
      cases hstep
      refine ⟨⟨hinv.samples, ?_, hinv.scaled, ?_, hinv.pending, hinv.inHand⟩, trivial⟩
      · intro other count changes hread
        cases hread
      · intro hread
        exact absurd rfl hread
  | scale =>
      simp only [step] at hstep
      split_ifs at hstep with hidle
      cases hstep
      exact ⟨hinv.scale hidle specs, trivial⟩
  | readDesired =>
      simp only [step] at hstep
      split at hstep
      · rename_i agent delta pending hinHand hpending
        cases hstep
        have hdecided := hinv.pending agent delta (hpending ▸ List.mem_cons_self)
        refine ⟨⟨hinv.samples, hinv.reading, hinv.scaled, ?_, ?_, ?_⟩, ?_⟩
        · intro hread
          rw [(hinv.alone hread).1] at hpending
          cases hpending
        · intro other change hmem
          exact hinv.pending other change (hpending ▸ List.mem_cons_of_mem _ hmem)
        · rintro other change current ⟨⟩
          exact ⟨hdecided, fun _ => rfl⟩
        · exact trivial
      · cases hstep
  | writeDesired =>
      simp only [step] at hstep
      split at hstep
      · cases hstep
      · rename_i agent delta current hhand
        cases hstep
        have hreading : state.reading = none := by
          by_contra hread
          rw [(hinv.alone hread).2] at hhand
          cases hhand
        refine ⟨hinv.write agent _ hreading, ?_⟩
        have hfresh : Fresh state agent := by simpa [OnFreshSamples, hhand] using hguard
        have hbounded := hinv.bounded_write hhand hfresh
        obtain ⟨recorded, hhead, hchanges⟩ := hfresh
        simp only [WellScaled, hhand, State.setDesired, Function.update_self]
        exact ⟨hbounded, recorded, hhead, hchanges ▸ hinv.scaled agent⟩
  | abandonScaling =>
      cases hstep
      refine ⟨⟨hinv.samples, hinv.reading, hinv.scaled, fun _ => ⟨rfl, rfl⟩, ?_, ?_⟩, trivial⟩
      · intro other change hmem
        cases hmem
      · intro other change current hhand
        cases hhand
  | changeCount agent count =>
      cases hstep
      exact ⟨hinv.setDesired agent count, trivial⟩
  | setDocument document =>
      cases hstep
      exact ⟨⟨hinv.samples, hinv.reading, hinv.scaled, hinv.alone, hinv.pending, hinv.inHand⟩,
        trivial⟩

/-- Along every run that applies changes only to counts nobody changed since the newest sample, the
policy keeps counts in the band, moves them towards it, and acts on samples once. -/
theorem scaling_on_fresh_samples (specs : List AgentSpec) {start : State} (hinitial : Initial start)
    (actions : List Action) (hguard : (sys specs).Guarded OnFreshSamples start actions) :
    (sys specs).Along WellScaled start actions := by
  have hkeep : ∀ (state : State) (action : Action) (next : State), Inv state →
      OnFreshSamples state action → (sys specs).step state action = some next →
      Inv next ∧ WellScaled state action next := by
    intro state action next hinv hallowed hstep
    exact inv_step hinv hallowed hstep
  exact (sys specs).along_of_guarded hkeep actions (Inv.of_initial hinitial) hguard

instance (policy : Policy) (before after : Nat) : Decidable (Bounded policy before after) :=
  decidable_of_iff
    ((policy.minReplicas ≤ before → (before : Int) ≤ policy.maxReplicas →
        policy.minReplicas ≤ after ∧ (after : Int) ≤ policy.maxReplicas) ∧
      ((before : Int) < policy.minReplicas →
        before < after ∧ (after : Int) ≤ policy.maxReplicas) ∧
      (policy.maxReplicas < before → after < before ∧ policy.minReplicas ≤ after))
    ⟨fun hall => ⟨hall.1, hall.2.1, hall.2.2⟩,
      fun hbounded => ⟨hbounded.inside, hbounded.below, hbounded.above⟩⟩

instance (state : State) (agent : AgentName) : Decidable (SampledSince state agent) :=
  inferInstanceAs (Decidable (∃ _ ∈ _, _))

instance (before : State) (action : Action) (after : State) :
    Decidable (WellScaled before action after) :=
  match action with
  | .writeDesired =>
      match hhand : before.inHand with
      | some (agent, delta, current) =>
          decidable_of_iff
            (Bounded before.used (before.desired agent) (after.desired agent) ∧
              SampledSince before agent)
            (by simp [WellScaled, hhand])
      | none => isTrue (by simp [WellScaled, hhand])
  | .readCount _ | .record _ _ _ | .abandonPoll | .scale | .readDesired | .abandonScaling
  | .changeCount _ _ | .setDocument _ => isTrue trivial

instance (state : State) (action : Action) : Decidable (OnFreshSamples state action) :=
  match action with
  | .writeDesired =>
      match hhand : state.inHand with
      | some (agent, delta, current) =>
          decidable_of_iff (Fresh state agent) (by simp [OnFreshSamples, hhand])
      | none => isTrue (by simp [OnFreshSamples, hhand])
  | .readCount _ | .record _ _ _ | .abandonPoll | .scale | .readDesired | .abandonScaling
  | .changeCount _ _ | .setDocument _ => isTrue trivial

/-- Two replicas of `Alpha`, between one and three allowed. -/
def twoReplicas : State where
  document := some (.mapping
    { minReplicas := .integer 1
      maxReplicas := .integer 3
      metric := .text requestsPerMinutePerReplica
      scaleUpAbove := .integer 10
      scaleDownBelow := .integer 1 })
  desired _ := 2
  samples _ := []
  used := ⟨1, 3, "", 0, 0⟩
  changes _ := 1
  scaled _ := 0

/-- Four polls that find two busy replicas, and one change by the policy. -/
def busyPolls : List Action :=
  (List.replicate 4 [.readCount "Alpha", .record 2 (some 0) (some 20)]).flatten ++
    [.scale, .readDesired, .writeDesired]

theorem initial_twoReplicas : Initial twoReplicas := by
  constructor
  · decide
  · intro agent recorded hmem
    cases hmem
  · intro agent
    rfl
  · intro agent
    rfl

theorem scaling_on_fresh_samples_busy :
    (sys [{ name := "Alpha" }]).Along WellScaled twoReplicas busyPolls :=
  scaling_on_fresh_samples _ initial_twoReplicas busyPolls (by decide)

/-- The next poll raises, and the same samples scale the agent once more, past its maximum. -/
theorem stale_samples_scale_past_max :
    ¬ (sys [{ name := "Alpha" }]).Along WellScaled twoReplicas
      (busyPolls ++ [.scale, .readDesired, .writeDesired]) := by
  decide

end CanyonOS.Scaling
