import CanyonOS.Controller.Counters
import CanyonOS.Controller.Custody

/-!
# The heartbeat of a draining replica

The metrics loop collects its fields one after the other while the other threads go on, and writes
them as one hash. The reconciler reads that hash, with the counts of calls served and completed kept
in it, and removes a draining replica that it takes to be idle.
-/

namespace CanyonOS

namespace Calls

/-- Nothing is queued, routed, or waiting for a worker. -/
def Still (calls : Calls) : Prop :=
  calls.requestQueue = [] ∧ calls.hand = none ∧ calls.workQueue = []

instance (calls : Calls) : Decidable calls.Still :=
  inferInstanceAs (Decidable (_ ∧ _))

/-- Nor is anything waiting to be sent, or to be sent again. -/
def Resting (calls : Calls) : Prop :=
  calls.Still ∧ calls.attempts = [] ∧ calls.backoffs = []

instance (calls : Calls) : Decidable calls.Resting :=
  inferInstanceAs (Decidable (_ ∧ _))

/-- Nor is any call with a worker that has not finished it. -/
def Calm (calls : Calls) : Prop :=
  calls.Resting ∧ ∀ worker ∈ calls.workers, worker.2 = .reported

def refills : Move → Bool
  | .requeue .. | .resend _ => true
  | _ => false

variable {calls next : Calls} {move : Move}

theorem Still.of_move (hstill : calls.Still) (hmove : calls.move move = some next)
    (hput : ∀ request, move ≠ .put request) (hrefill : refills move = false) : next.Still := by
  obtain ⟨hqueue, hhand, hwork⟩ := hstill
  cases move with
  | put request => exact absurd rfl (hput request)
  | requeue | resend => cases hrefill
  | take | collect => simp [Calls.move, hqueue] at hmove
  | settle | submit | handOn | register | taskDone => simp [Calls.move, hhand] at hmove
  | dequeue => simp [Calls.move, hwork] at hmove
  | enter =>
      cases hmove
      exact ⟨hqueue, hhand, hwork⟩
  | work | retire | forget | answered | backOff | giveUp | countDown =>
      simp only [Calls.move] at hmove
      split_ifs at hmove
      cases hmove
      exact ⟨hqueue, hhand, hwork⟩

theorem Resting.of_move (hresting : calls.Resting) (hmove : calls.move move = some next)
    (hput : ∀ request, move ≠ .put request) : next.Resting := by
  obtain ⟨hstill, hattempts, hbackoffs⟩ := hresting
  have hrefill : refills move = false := by
    cases move with
    | requeue => simp [Calls.move, hattempts] at hmove
    | resend => simp [Calls.move, hbackoffs] at hmove
    | _ => rfl
  refine ⟨hstill.of_move hmove hput hrefill, ?_⟩
  cases move with
  | put request => exact absurd rfl (hput request)
  | requeue | resend => cases hrefill
  | answered | backOff => simp [Calls.move, hattempts] at hmove
  | giveUp => simp [Calls.move, hbackoffs] at hmove
  | handOn => simp [Calls.move, hstill.2.1] at hmove
  | enter =>
      cases hmove
      exact ⟨hattempts, hbackoffs⟩
  | work | retire | forget | countDown =>
      simp only [Calls.move] at hmove
      split_ifs at hmove
      cases hmove
      exact ⟨hattempts, hbackoffs⟩
  | take | settle | submit | register | taskDone | collect | dequeue =>
      simp only [Calls.move] at hmove
      split at hmove <;> cases hmove
      exact ⟨hattempts, hbackoffs⟩

theorem Calm.of_move (hcalm : calls.Calm) (hmove : calls.move move = some next)
    (hput : ∀ request, move ≠ .put request)
    (hwork : ∀ call stage, move ≠ .work call .reported stage) : next.Calm := by
  obtain ⟨hresting, hworkers⟩ := hcalm
  refine ⟨hresting.of_move hmove hput, fun worker hworker => ?_⟩
  cases move with
  | work call stage stage' =>
      have hmem : (call, stage) ∈ calls.workers := by
        by_contra hnot
        simp [Calls.move, hnot] at hmove
      obtain rfl : stage = .reported := hworkers (call, stage) hmem
      exact absurd rfl (hwork call stage')
  | dequeue => simp [Calls.move, hresting.1.2.2] at hmove
  | retire call =>
      simp only [Calls.move] at hmove
      split_ifs at hmove
      cases hmove
      exact hworkers worker (List.mem_of_mem_erase hworker)
  | enter =>
      cases hmove
      exact hworkers worker hworker
  | put | forget | answered | requeue | backOff | resend | giveUp | countDown =>
      simp only [Calls.move] at hmove
      split_ifs at hmove
      cases hmove
      exact hworkers worker hworker
  | take | settle | submit | handOn | register | taskDone | collect =>
      simp only [Calls.move] at hmove
      split at hmove <;> cases hmove
      exact hworkers worker hworker

theorem Counted.still (hcounted : calls.Counted)
    (htasks : calls.unfinishedTasks = 0) (hwork : calls.workQueue = []) : calls.Still := by
  have hsum := hcounted.tasks
  rw [htasks] at hsum
  refine ⟨List.length_eq_zero_iff.mp (by omega), ?_, hwork⟩
  cases hhand : calls.hand with
  | none => rfl
  | some taken =>
      simp only [hhand, handed] at hsum
      omega

/-- Only `run` adds to the executor's queue. -/
theorem workQueue_of_move (hwork : calls.workQueue = []) (hmove : calls.move move = some next)
    (hsubmit : move ≠ .submit) : next.workQueue = [] := by
  cases move with
  | submit => exact absurd rfl hsubmit
  | dequeue => simp [Calls.move, hwork] at hmove
  | enter =>
      cases hmove
      exact hwork
  | put | work | retire | forget | answered | requeue | backOff | resend | giveUp | countDown =>
      simp only [Calls.move] at hmove
      split_ifs at hmove
      cases hmove
      exact hwork
  | take | settle | handOn | register | taskDone | collect =>
      simp only [Calls.move] at hmove
      split at hmove <;> cases hmove
      exact hwork

end Calls

/-- The fields `_collect_metrics` returns that the idle check reads. -/
structure Heartbeat where
  queueLength : Nat
  draining : Bool
  openRequests : Nat
  pendingRequests : Int
deriving DecidableEq

/-- The fields `_is_idle` compares with constants. -/
def Heartbeat.SaysIdle (heartbeat : Heartbeat) : Prop :=
  heartbeat.draining = true ∧ heartbeat.queueLength = 0 ∧ heartbeat.openRequests = 0 ∧
    heartbeat.pendingRequests = 0

instance (heartbeat : Heartbeat) : Decidable heartbeat.SaysIdle :=
  inferInstanceAs (Decidable (_ ∧ _))

/-- How far the metrics thread is with `_collect_metrics`. -/
inductive Collecting where
  | idle
  | queueLength (queued : Nat)
  | draining (queued : Nat) (drains : Bool)
  | openRequests (queued : Nat) (drains : Bool) (opened : Nat)
  | unfinishedTasks (queued : Nat) (drains : Bool) (opened tasks : Nat)
  | collected (heartbeat : Heartbeat)
deriving DecidableEq

namespace Collecting

/-- The executor's queue was read as empty, and `unfinished_tasks` has not been read. -/
def SawEmptyQueue : Collecting → Prop
  | .queueLength queued | .draining queued _ | .openRequests queued _ _ => queued = 0
  | _ => False

instance : DecidablePred SawEmptyQueue := fun collecting =>
  match collecting with
  | .queueLength queued | .draining queued _ | .openRequests queued _ _ =>
      inferInstanceAs (Decidable (queued = 0))
  | .idle | .unfinishedTasks .. | .collected _ => isFalse id

/-- What was read up to `unfinished_tasks` and since looks idle. -/
def SawNoTasks : Collecting → Prop
  | .unfinishedTasks queued drains _ tasks => queued = 0 ∧ drains = true ∧ tasks = 0
  | .collected heartbeat => heartbeat.SaysIdle
  | _ => False

instance : DecidablePred SawNoTasks := fun collecting =>
  match collecting with
  | .unfinishedTasks queued drains _ tasks =>
      inferInstanceAs (Decidable (queued = 0 ∧ drains = true ∧ tasks = 0))
  | .collected heartbeat => inferInstanceAs (Decidable heartbeat.SaysIdle)
  | .idle | .queueLength _ | .draining .. | .openRequests .. => isFalse id

/-- The calls are as those reads have it. -/
def Shows (calls : Calls) : Collecting → Prop
  | .unfinishedTasks .. => calls.Still
  | .collected _ => calls.Resting
  | _ => True

instance (calls : Calls) : DecidablePred (Shows calls) := fun collecting =>
  match collecting with
  | .unfinishedTasks .. => inferInstanceAs (Decidable calls.Still)
  | .collected _ => inferInstanceAs (Decidable calls.Resting)
  | .idle | .queueLength _ | .draining .. | .openRequests .. => isTrue trivial

end Collecting

namespace Publishing

structure State where
  process : Process := {}
  collecting : Collecting := .idle
  /-- the heartbeat on record, and where the calls were when it was written -/
  written : Option (Heartbeat × Calls) := none

inductive Action where
  | own (action : Process.Action)
  | readQueueLength
  | readDraining
  | readOpenRequests
  | readUnfinishedTasks
  | readUnsent
  | write

/-- The metrics thread does these itself, so never while it collects. -/
def ofMetricsThread : Process.Action → Bool
  | .metrics (.drain _) | .metrics (.drainUntil _) => false
  | .metrics _ => true
  | _ => false

def step (me : Address) (config : Config) (state : State) : Action → Option State
  | .own action =>
      if ofMetricsThread action = true ∧ state.collecting ≠ .idle then none
      else (state.process.step me config action).map fun process => { state with process }
  | .readQueueLength =>
      if state.collecting = .idle ∧ state.process.replica.pass.Idle then
        some { state with
          collecting := .queueLength state.process.replica.calls.workQueue.length }
      else none
  | .readDraining =>
      match state.collecting with
      | .queueLength queued =>
          some { state with collecting := .draining queued state.process.replica.draining }
      | _ => none
  | .readOpenRequests =>
      match state.collecting with
      | .draining queued drains =>
          some { state with
            collecting :=
              .openRequests queued drains state.process.replica.openRequests.length }
      | _ => none
  | .readUnfinishedTasks =>
      match state.collecting with
      | .openRequests queued drains opened =>
          some { state with
            collecting := .unfinishedTasks queued drains opened
              state.process.replica.calls.unfinishedTasks }
      | _ => none
  | .readUnsent =>
      match state.collecting with
      | .unfinishedTasks queued drains opened tasks =>
          some { state with
            collecting := .collected
              { queueLength := queued
                draining := drains
                openRequests := opened
                pendingRequests := tasks + state.process.replica.calls.unsent } }
      | _ => none
  | .write =>
      match state.collecting with
      | .collected heartbeat =>
          some { state with
            collecting := .idle
            written := some (heartbeat, state.process.replica.calls) }
      | _ => none

def system (me : Address) (config : Config) : TransitionSystem State Action where
  step := step me config

/-- `ReplicaProvisioner._is_idle`: it reads the whole hash at once, with the two counts as they are
by then. -/
def isIdle (me : Address) (state : State) : Prop :=
  ∃ heartbeat ∈ state.written, heartbeat.1.SaysIdle ∧
    state.process.redis.requestsServed me = state.process.redis.requestsCompleted me

instance (me : Address) (state : State) : Decidable (isIdle me state) :=
  inferInstanceAs (Decidable (∃ heartbeat ∈ state.written, _))

/-! ### When nothing slips through the reads -/

/-- The forward that failed goes back on the request queue. -/
def refills (me : Address) (config : Config) (process : Process) (action : Process.Action) : Bool :=
  (Process.moveOf me config process action).any Calls.refills

/-- No call passes, between two reads of one heartbeat, from a counter still to be read to one
already read; nothing forwarded is past its check when the refusals begin; an own call is queued
only while a call runs; and none is counted as completed between what a heartbeat missed and the
time that heartbeat is replaced. -/
def NothingSlips (me : Address) (config : Config) (state : State) : Action → Prop
  | .own (.loop (.process .local)) => ¬ state.collecting.SawEmptyQueue
  | .own (.forward action) =>
      state.collecting.SawNoTasks → state.process.replica.calls.Still →
        refills me config state.process (.forward action) = false
  | .own (.server (.put request)) =>
      request.routeTo = none →
        ∃ worker ∈ state.process.replica.calls.workers, worker.2 = .running
  | .own (.worker (.work _ _ .count)) =>
      (state.collecting.SawNoTasks → state.collecting.Shows state.process.replica.calls) ∧
        ∀ heartbeat ∈ state.written, ¬ heartbeat.1.SaysIdle
  | .own (.metrics (.tick _)) =>
      (state.process.removeAt me).isSome → state.process.replica.refusing = false →
        ∀ request ∈ state.process.replica.calls.entering, request.routeTo = none
  | .write =>
      state.collecting.SawNoTasks → ∀ worker ∈ state.process.replica.calls.workers,
        worker.2 = .reported ∨ worker.2.Serving
  | _ => True

instance (me : Address) (config : Config) (state : State) :
    DecidablePred (NothingSlips me config state) := fun action =>
  match action with
  | .own (.loop (.process .local)) => inferInstanceAs (Decidable (¬ _))
  | .own (.forward _) => inferInstanceAs (Decidable (_ → _ → _))
  | .own (.server (.put _)) => inferInstanceAs (Decidable (_ → _))
  | .own (.worker (.work _ _ .count)) => inferInstanceAs (Decidable (_ ∧ _))
  | .own (.metrics (.tick _)) => inferInstanceAs (Decidable (_ → _ → _))
  | .write => inferInstanceAs (Decidable (_ → _))
  | .own (.stub _) | .own (.server (.execute ..)) | .own (.server (.writeResult _))
  | .own (.server (.relayUndelivered ..)) | .own (.server (.cleanup _)) | .own (.loop .take)
  | .own (.loop (.registerConsumer ..)) | .own (.loop .register) | .own (.loop .taskDone)
  | .own (.loop (.process (.refused ..))) | .own (.loop (.process (.raised _)))
  | .own (.loop (.process .held)) | .own (.loop (.process (.forwarded _)))
  | .own (.worker .dequeue) | .own (.worker (.retire _)) | .own (.worker (.forget _))
  | .own (.worker (.work _ _ .start)) | .own (.worker (.work _ _ (.refuse ..)))
  | .own (.worker (.work _ _ .serve)) | .own (.worker (.work _ _ (.returns _)))
  | .own (.worker (.work _ _ (.raises _))) | .own (.worker (.work _ _ .store))
  | .own (.worker (.work _ _ .settle)) | .own (.worker (.work _ _ (.undelivered _)))
  | .own (.worker (.work _ _ (.stamp _))) | .own (.worker (.work _ _ .report))
  | .own (.metrics (.drain _)) | .own (.metrics (.drainUntil _)) | .own (.metrics .failUnfinished)
  | .own (.metrics .collect) | .own (.metrics .cutOff) | .own (.metrics .failLeftover)
  | .own (.metrics (.failGone _)) | .readQueueLength | .readDraining | .readOpenRequests
  | .readUnfinishedTasks | .readUnsent => isTrue trivial

/-! ### What a heartbeat that looks idle says -/

/-- Some worker serves a call. -/
def Busy (process : Process) : Prop :=
  0 < process.replica.calls.serving

/-- What the reads made so far are worth. -/
def Backed (process : Process) : Collecting → Prop
  | .idle => True
  | .queueLength queued => queued = 0 → process.replica.calls.workQueue = []
  | .draining queued drains | .openRequests queued drains _ =>
      (queued = 0 → process.replica.calls.workQueue = []) ∧
        (drains = true → process.replica.draining = true)
  | .unfinishedTasks queued drains _ tasks =>
      queued = 0 ∧ drains = true ∧ tasks = 0 →
        process.replica.draining = true ∧ (process.replica.calls.Still ∨ Busy process)
  | .collected heartbeat =>
      heartbeat.SaysIdle →
        process.replica.draining = true ∧ (process.replica.calls.Resting ∨ Busy process)

/-- Once a stateless replica drains, it refuses what is forwarded to it. -/
structure Refuses (me : Address) (process : Process) : Prop where
  removed : process.replica.draining = true → (process.removeAt me).isSome
  refusing : process.replica.draining = true → process.replica.refusing = true
  entering : process.replica.refusing = true →
    ∀ request ∈ process.replica.calls.entering, request.routeTo = none

structure Inv (me : Address) (state : State) : Prop where
  counted : state.process.replica.calls.Counted
  served : state.process.ServedCounted me
  refuses : Refuses me state.process
  backed : Backed state.process state.collecting
  written : ∀ heartbeat calls, state.written = some (heartbeat, calls) → heartbeat.SaysIdle →
    state.process.replica.draining = true ∧
      (state.process.replica.calls.Calm ∧ calls.Calm ∨ Busy state.process)

variable {me : Address} {config : Config} {process after : Process} {own : Process.Action}

/-! ### One step of the process -/

theorem mem_entering_of_step (hstep : process.step me config own = some after)
    {request : Request} (hrequest : request ∈ after.replica.calls.entering) :
    request ∈ process.replica.calls.entering ∨
      (process.replica.refusing = true → request.routeTo = none) := by
  have hmoved := (Process.step_effect hstep).moved
  cases hmove : Process.moveOf me config process own with
  | none =>
      simp only [hmove, Process.Moved] at hmoved
      exact Or.inl (hmoved ▸ hrequest)
  | some move =>
      simp only [hmove, Process.Moved] at hmoved
      rcases Calls.mem_entering_of_move hmoved hrequest with hold | rfl
      · exact Or.inl hold
      · obtain ⟨refusal, now, -, hqueued⟩ := Process.moveOf_causedBy hmove
        refine Or.inr fun hrefusing => ?_
        by_contra hforwarded
        have hforwarded := Option.isSome_iff_ne_none.mpr hforwarded
        simp [Process.admission, hrefusing, hforwarded] at hqueued

/-- The removal time, once set, stays; and only the tick acts on it. -/
theorem removal_of_step (hstep : process.step me config own = some after) :
    ((process.removeAt me).isSome → (after.removeAt me).isSome) ∧
      (after.replica.draining = process.replica.draining ∧
          after.replica.refusing = process.replica.refusing ∨
        (∃ now, own = .metrics (.tick now)) ∧
          after.replica.calls = process.replica.calls ∧
          after.replica.draining = (process.removeAt me).isSome ∧
          after.replica.refusing = ((process.removeAt me).isSome && !config.stateful)) := by
  cases own with
  | stub | server | loop | worker | forward =>
      have heffect := Process.step_effect hstep
      obtain ⟨hdraining, hrefusing, -, -⟩ := heffect.sameDrain nofun
      exact ⟨fun hremoved => (heffect.sameRemoval nofun) ▸ hremoved, Or.inl ⟨hdraining, hrefusing⟩⟩
  | metrics metrics =>
      cases metrics with
      | drain time =>
          cases hstep
          exact ⟨fun _ => by simp [Process.removeAt], Or.inl ⟨rfl, rfl⟩⟩
      | drainUntil time =>
          cases hstep
          exact ⟨fun _ => by simp [Process.removeAt], Or.inl ⟨rfl, rfl⟩⟩
      | tick now =>
          simp only [Process.step, Process.metricsStep] at hstep
          split_ifs at hstep <;> cases hstep <;> exact ⟨id, Or.inr ⟨⟨now, rfl⟩, rfl, rfl, rfl⟩⟩
      | failGone futureId =>
          simp only [Process.step, Process.metricsStep] at hstep
          split_ifs at hstep
          cases hstep
          exact ⟨id, Or.inl ⟨rfl, rfl⟩⟩
      | failUnfinished | cutOff | failLeftover =>
          simp only [Process.step, Process.metricsStep] at hstep
          split at hstep <;> cases hstep
          exact ⟨id, Or.inl ⟨rfl, rfl⟩⟩
      | collect =>
          simp only [Process.step, Process.metricsStep] at hstep
          split at hstep
          case h_1 =>
            obtain ⟨collected, hmove, rfl⟩ := Option.map_eq_some_iff.mp hstep
            obtain ⟨calls, -, rfl⟩ := Process.move_eq_some.mp hmove
            exact ⟨id, Or.inl ⟨rfl, rfl⟩⟩
          case h_2 => cases hstep

theorem Refuses.step (hrefuses : Refuses me process) (hstateless : config.stateful = false)
    (hstep : process.step me config own = some after)
    (hbegins : ∀ now, own = .metrics (.tick now) → (process.removeAt me).isSome →
      process.replica.refusing = false →
        ∀ request ∈ process.replica.calls.entering, request.routeTo = none) :
    Refuses me after := by
  obtain ⟨hkeeps, ⟨hdraining, hrefusing⟩ | ⟨⟨now, rfl⟩, hcalls, hdraining, hrefusing⟩⟩ :=
    removal_of_step hstep
  · refine ⟨fun hdrains => ?_, fun hdrains => ?_, fun hrefuse request hrequest => ?_⟩
    · exact hkeeps (hrefuses.removed (hdraining ▸ hdrains))
    · rw [hrefusing]
      exact hrefuses.refusing (hdraining ▸ hdrains)
    · rw [hrefusing] at hrefuse
      rcases mem_entering_of_step hstep hrequest with hold | hnew
      · exact hrefuses.entering hrefuse request hold
      · exact hnew hrefuse
  · rw [hstateless, Bool.not_false, Bool.and_true] at hrefusing
    refine ⟨fun hdrains => ?_, fun hdrains => ?_, fun hrefuse request hrequest => ?_⟩
    · exact hkeeps (hdraining ▸ hdrains)
    · rw [hrefusing, ← hdraining, hdrains]
    · rw [hcalls] at hrequest
      cases hbefore : process.replica.refusing with
      | true => exact hrefuses.entering hbefore request hrequest
      | false => exact hbegins now rfl (hrefusing ▸ hrefuse) hbefore request hrequest

theorem Refuses.draining_of_step (hrefuses : Refuses me process)
    (hstep : process.step me config own = some after)
    (hdrains : process.replica.draining = true) : after.replica.draining = true := by
  obtain ⟨-, ⟨hdraining, -⟩ | ⟨-, -, hdraining, -⟩⟩ := removal_of_step hstep
  · rw [hdraining, hdrains]
  · rw [hdraining]
    exact hrefuses.removed hdrains

theorem busy_of_step (hstep : process.step me config own = some after) (hbusy : Busy process)
    (hcount : Process.completedBy own = 0) : Busy after := by
  have hserving := Process.serving_of_step hstep
  unfold Busy at hbusy ⊢
  omega

/-- Where what is forwarded is refused, only an own call can be queued. -/
theorem keeps_or_busy {property : Calls → Prop} (hrefuses : Refuses me process)
    (hdrains : process.replica.draining = true)
    (hput : ∀ request, own = .server (.put request) → request.routeTo = none → Busy process)
    (hstep : process.step me config own = some after)
    (hkeeps : ∀ move, Process.moveOf me config process own = some move →
      process.replica.calls.move move = some after.replica.calls →
      (∀ request, move ≠ .put request) → property after.replica.calls)
    (hproperty : property process.replica.calls) :
    property after.replica.calls ∨ Busy process ∧ Busy after := by
  have hmoved := (Process.step_effect hstep).moved
  cases hmove : Process.moveOf me config process own with
  | none =>
      simp only [hmove, Process.Moved] at hmoved
      exact Or.inl (hmoved ▸ hproperty)
  | some move =>
      simp only [hmove, Process.Moved] at hmoved
      by_cases hputs : ∃ request, move = .put request
      · obtain ⟨request, rfl⟩ := hputs
        obtain rfl : own = .server (.put request) := Process.moveOf_causedBy hmove
        have hmem : request ∈ process.replica.calls.entering := by
          by_contra hnot
          simp [Calls.move, hnot] at hmoved
        have hown := hrefuses.entering (hrefuses.refusing hdrains) request hmem
        have hbusy := hput request rfl hown
        exact Or.inr ⟨hbusy, busy_of_step hstep hbusy rfl⟩
      · push Not at hputs
        exact Or.inl (hkeeps move hmove hmoved hputs)

theorem workQueue_of_step (hstep : process.step me config own = some after)
    (hsubmit : own ≠ .loop (.process .local)) (hwork : process.replica.calls.workQueue = []) :
    after.replica.calls.workQueue = [] := by
  have hmoved := (Process.step_effect hstep).moved
  cases hmove : Process.moveOf me config process own with
  | none =>
      simp only [hmove, Process.Moved] at hmoved
      exact hmoved ▸ hwork
  | some move =>
      simp only [hmove, Process.Moved] at hmoved
      refine Calls.workQueue_of_move hwork hmoved ?_
      rintro rfl
      exact hsubmit (Process.moveOf_causedBy hmove)

theorem calm_of_step (hrefuses : Refuses me process)
    (hdrains : process.replica.draining = true)
    (hput : ∀ request, own = .server (.put request) → request.routeTo = none → Busy process)
    (hstep : process.step me config own = some after) (hcalm : process.replica.calls.Calm) :
    after.replica.calls.Calm ∨ Busy process ∧ Busy after := by
  refine keeps_or_busy hrefuses hdrains hput hstep ?_ hcalm
  intro move hmove hmoved hputs
  refine hcalm.of_move hmoved hputs ?_
  rintro call stage rfl
  obtain ⟨work, done, -, hwork⟩ := Process.moveOf_causedBy hmove
  simp [Process.workStep] at hwork

/-- What the guard says of a step of the process. -/
structure Allowed (me : Address) (config : Config) (state : State) (own : Process.Action) :
    Prop where
  submit : state.collecting.SawEmptyQueue → own ≠ .loop (.process .local)
  put : ∀ request, own = .server (.put request) → request.routeTo = none → Busy state.process
  refill : state.collecting.SawNoTasks → state.process.replica.calls.Still →
    refills me config state.process own = false
  count : state.collecting.SawNoTasks → ¬ state.collecting.Shows state.process.replica.calls →
    Process.completedBy own = 0
  written : ∀ heartbeat ∈ state.written, heartbeat.1.SaysIdle → Process.completedBy own = 0
  begins : ∀ now, own = .metrics (.tick now) → (state.process.removeAt me).isSome →
    state.process.replica.refusing = false →
      ∀ request ∈ state.process.replica.calls.entering, request.routeTo = none

variable {state next : State}

theorem completedBy_cases (own : Process.Action) :
    Process.completedBy own = 0 ∨ ∃ call stage, own = .worker (.work call stage .count) := by
  unfold Process.completedBy
  split
  · exact Or.inr ⟨_, _, rfl⟩
  · exact Or.inl rfl

theorem allowed_of_nothingSlips (hguard : NothingSlips me config state (.own own)) :
    Allowed me config state own where
  submit hsaw := by
    rintro rfl
    exact hguard hsaw
  put := by
    rintro request rfl hown
    obtain ⟨worker, hmem, hrunning⟩ := hguard hown
    refine List.countP_pos_iff.mpr ⟨worker, hmem, ?_⟩
    rw [hrunning]
    rfl
  refill hsaw hstill := by
    cases hmove : Process.moveOf me config state.process own with
    | none => simp [refills, hmove]
    | some move =>
        cases move with
        | requeue | resend =>
            obtain ⟨forward, rfl⟩ := Process.moveOf_causedBy hmove
            exact hguard hsaw hstill
        | _ => simp [refills, hmove, Calls.refills]
  count hsaw hmissed := by
    rcases completedBy_cases own with hzero | ⟨call, stage, rfl⟩
    · exact hzero
    · exact absurd (hguard.1 hsaw) hmissed
  written heartbeat hwritten hidle := by
    rcases completedBy_cases own with hzero | ⟨call, stage, rfl⟩
    · exact hzero
    · exact absurd hidle (hguard.2 heartbeat hwritten)
  begins := by
    rintro now rfl
    exact hguard

theorem backed_of_step (hinv : Inv me state) (hallowed : Allowed me config state own)
    (hstep : state.process.step me config own = some after) : Backed after state.collecting := by
  have hbacked := hinv.backed
  have hdraining := hinv.refuses.draining_of_step hstep
  cases hcollecting : state.collecting with
  | idle => trivial
  | queueLength queued =>
      rw [hcollecting] at hbacked
      intro hzero
      refine workQueue_of_step hstep (hallowed.submit ?_) (hbacked hzero)
      rw [hcollecting]
      exact hzero
  | draining queued drains | openRequests queued drains opened =>
      rw [hcollecting] at hbacked
      refine ⟨fun hzero => ?_, fun hdrains => hdraining (hbacked.2 hdrains)⟩
      refine workQueue_of_step hstep (hallowed.submit ?_) (hbacked.1 hzero)
      rw [hcollecting]
      exact hzero
  | unfinishedTasks queued drains opened tasks =>
      rw [hcollecting] at hbacked
      intro hsaw
      obtain ⟨hdrains, hshown⟩ := hbacked hsaw
      refine ⟨hdraining hdrains, ?_⟩
      by_cases hstill : state.process.replica.calls.Still
      · have hrefill := hallowed.refill (by rw [hcollecting]; exact hsaw) hstill
        refine (keeps_or_busy hinv.refuses hdrains hallowed.put hstep ?_ hstill).imp_right And.right
        intro move hmove hmoved hputs
        refine hstill.of_move hmoved hputs ?_
        simpa [refills, hmove] using hrefill
      · have hcount := hallowed.count (by rw [hcollecting]; exact hsaw) (by rwa [hcollecting])
        exact Or.inr (busy_of_step hstep (hshown.resolve_left hstill) hcount)
  | collected heartbeat =>
      rw [hcollecting] at hbacked
      intro hsaw
      obtain ⟨hdrains, hshown⟩ := hbacked hsaw
      refine ⟨hdraining hdrains, ?_⟩
      by_cases hresting : state.process.replica.calls.Resting
      · refine (keeps_or_busy hinv.refuses hdrains hallowed.put hstep ?_ hresting).imp_right
          And.right
        intro move _ hmoved hputs
        exact hresting.of_move hmoved hputs
      · have hcount := hallowed.count (by rw [hcollecting]; exact hsaw) (by rwa [hcollecting])
        exact Or.inr (busy_of_step hstep (hshown.resolve_left hresting) hcount)

theorem Inv.step_process (hinv : Inv me state) (hstateless : config.stateful = false)
    (hallowed : Allowed me config state own)
    (hstep : state.process.step me config own = some after) :
    Inv me { state with process := after } where
  counted := Process.counted_of_step hinv.counted hstep
  served := hinv.served.step hstep
  refuses := hinv.refuses.step hstateless hstep hallowed.begins
  backed := show Backed after state.collecting from backed_of_step hinv hallowed hstep
  written heartbeat calls hwritten hidle := by
    obtain ⟨hdrains, hcalm⟩ := hinv.written heartbeat calls hwritten hidle
    refine ⟨hinv.refuses.draining_of_step hstep hdrains, ?_⟩
    rcases hcalm with ⟨hcalm, hthen⟩ | hbusy
    · exact (calm_of_step hinv.refuses hdrains hallowed.put hstep hcalm).imp (⟨·, hthen⟩) And.right
    · exact Or.inr (busy_of_step hstep hbusy (hallowed.written _ hwritten hidle))

theorem calm_of_not_busy (hresting : process.replica.calls.Resting) (hidle : ¬ Busy process)
    (hworkers : ∀ worker ∈ process.replica.calls.workers,
      worker.2 = .reported ∨ worker.2.Serving) : process.replica.calls.Calm := by
  refine ⟨hresting, fun worker hmem => (hworkers worker hmem).resolve_right fun hserving => ?_⟩
  exact hidle (List.countP_pos_iff.mpr ⟨worker, hmem, by simpa using hserving⟩)

theorem Inv.step (hinv : Inv me state) (hstateless : config.stateful = false)
    {action : Action} (hguard : NothingSlips me config state action)
    (hstep : step me config state action = some next) : Inv me next := by
  have hbacked := hinv.backed
  cases action with
  | own own =>
      simp only [Publishing.step] at hstep
      split_ifs at hstep
      obtain ⟨after, hafter, rfl⟩ := Option.map_eq_some_iff.mp hstep
      exact hinv.step_process hstateless (allowed_of_nothingSlips hguard) hafter
  | readQueueLength =>
      simp only [Publishing.step] at hstep
      split_ifs at hstep
      cases hstep
      exact ⟨hinv.counted, hinv.served, hinv.refuses, List.length_eq_zero_iff.mp, hinv.written⟩
  | readDraining | readOpenRequests =>
      simp only [Publishing.step] at hstep
      split at hstep <;> cases hstep
      rename_i hcollecting
      rw [hcollecting] at hbacked
      first
        | exact ⟨hinv.counted, hinv.served, hinv.refuses, ⟨hbacked, id⟩, hinv.written⟩
        | exact ⟨hinv.counted, hinv.served, hinv.refuses, hbacked, hinv.written⟩
  | readUnfinishedTasks =>
      simp only [Publishing.step] at hstep
      split at hstep <;> cases hstep
      rename_i hcollecting
      rw [hcollecting] at hbacked
      refine ⟨hinv.counted, hinv.served, hinv.refuses, ?_, hinv.written⟩
      rintro ⟨hqueued, hdrains, htasks⟩
      exact ⟨hbacked.2 hdrains, Or.inl (hinv.counted.still htasks (hbacked.1 hqueued))⟩
  | readUnsent =>
      simp only [Publishing.step] at hstep
      split at hstep <;> cases hstep
      rename_i hcollecting
      rw [hcollecting] at hbacked
      refine ⟨hinv.counted, hinv.served, hinv.refuses, ?_, hinv.written⟩
      rintro ⟨hdrains, hqueued, -, hpending⟩
      simp only at hdrains hqueued hpending
      have hunsent := hinv.counted.unsent
      have hattempts : state.process.replica.calls.attempts.length = 0 := by omega
      have hbackoffs : state.process.replica.calls.backoffs.length = 0 := by omega
      obtain ⟨hdraining, hshown⟩ := hbacked ⟨hqueued, hdrains, by omega⟩
      exact ⟨hdraining, hshown.imp_left fun hstill => ⟨hstill,
        List.length_eq_zero_iff.mp hattempts, List.length_eq_zero_iff.mp hbackoffs⟩⟩
  | write =>
      simp only [Publishing.step] at hstep
      split at hstep <;> cases hstep
      rename_i heartbeat hcollecting
      rw [hcollecting] at hbacked
      refine ⟨hinv.counted, hinv.served, hinv.refuses, trivial, ?_⟩
      rintro written calls hwritten hidle
      cases hwritten
      obtain ⟨hdraining, hshown⟩ := hbacked hidle
      refine ⟨hdraining, ?_⟩
      by_cases hbusy : Busy state.process
      · exact Or.inr hbusy
      · have hworkers := hguard (by rw [hcollecting]; exact hidle)
        have hcalm := calm_of_not_busy (hshown.resolve_right hbusy) hbusy hworkers
        exact Or.inl ⟨hcalm, hcalm⟩

/-! ### Whole runs -/

/-- A controller starts with both counts of its hash at zero. -/
def booted (me : Address) (redis : Redis) : State where
  process :=
    { redis :=
        { redis with
          requestsServed := Function.update redis.requestsServed me 0
          requestsCompleted := Function.update redis.requestsCompleted me 0 } }

theorem inv_booted (redis : Redis) : Inv me (booted me redis) where
  counted := ⟨rfl, rfl⟩
  served := by simp [Process.ServedCounted, booted, Calls.serving]
  refuses := ⟨nofun, nofun, nofun⟩
  backed := trivial
  written _ _ hwritten := by cases hwritten

theorem not_busy_of_calm (hcalm : process.replica.calls.Calm) : ¬ Busy process := by
  intro hbusy
  obtain ⟨worker, hmem, hserving⟩ := List.countP_pos_iff.mp hbusy
  rw [hcalm.2 worker hmem] at hserving
  exact of_decide_eq_true hserving

/-- A replica at rest that refuses what is forwarded to it stays so. -/
structure Closed (me : Address) (state : State) : Prop extends Inv me state where
  draining : state.process.replica.draining = true
  calm : state.process.replica.calls.Calm

theorem Closed.step (hclosed : Closed me state) (hstateless : config.stateful = false)
    {action : Action} (hguard : NothingSlips me config state action)
    (hstep : Publishing.step me config state action = some next) : Closed me next := by
  refine ⟨hclosed.toInv.step hstateless hguard hstep, ?_, ?_⟩
  all_goals
    cases action with
    | own own =>
        simp only [Publishing.step] at hstep
        split_ifs at hstep
        obtain ⟨after, hafter, rfl⟩ := Option.map_eq_some_iff.mp hstep
        have hallowed := allowed_of_nothingSlips hguard
        first
          | exact hclosed.refuses.draining_of_step hafter hclosed.draining
          | exact (calm_of_step hclosed.refuses hclosed.draining hallowed.put hafter
              hclosed.calm).resolve_right fun hbusy => not_busy_of_calm hclosed.calm hbusy.1
    | readQueueLength =>
        simp only [Publishing.step] at hstep
        split_ifs at hstep
        cases hstep
        first | exact hclosed.draining | exact hclosed.calm
    | readDraining | readOpenRequests | readUnfinishedTasks | readUnsent | write =>
        simp only [Publishing.step] at hstep
        split at hstep <;> cases hstep
        first | exact hclosed.draining | exact hclosed.calm

/-- A heartbeat the reconciler takes for idle was written by an idle replica: no call was queued,
routed, run or sent again then, nothing forwarded can enter any more, and nothing ever does. -/
theorem idle_means_idle (hstateless : config.stateful = false) {redis : Redis}
    {actions : List Action} {final : State}
    (hguard : (system me config).Guarded (NothingSlips me config) (booted me redis) actions)
    (hrun : (system me config).run (booted me redis) actions = some final)
    (hidle : isIdle me final) :
    (∃ heartbeat calls, final.written = some (heartbeat, calls) ∧ calls.Calm) ∧
      final.process.replica.refusing = true ∧
      (∀ request ∈ final.process.replica.calls.entering, request.routeTo = none) ∧
      ∀ later last, (system me config).Guarded (NothingSlips me config) final later →
        (system me config).run final later = some last → last.process.replica.calls.Calm := by
  have hinv : Inv me final := by
    refine (system me config).invariant_run ?_ (inv_booted redis) hguard hrun
    intro state action next hinv hallowed hstep
    exact hinv.step hstateless hallowed hstep
  obtain ⟨⟨heartbeat, calls⟩, hwritten, hsays, hequal⟩ := hidle
  obtain ⟨hdraining, hcalm⟩ := hinv.written heartbeat calls hwritten hsays
  have hidle : ¬ Busy final.process := by
    have hserved := hinv.served
    unfold Process.ServedCounted at hserved
    unfold Busy
    omega
  obtain ⟨hcalm, hthen⟩ := hcalm.resolve_right hidle
  have hrefusing := hinv.refuses.refusing hdraining
  refine ⟨⟨heartbeat, calls, hwritten, hthen⟩, hrefusing, hinv.refuses.entering hrefusing, ?_⟩
  intro later last hguard hrun
  have hclosed : Closed me last := by
    refine (system me config).invariant_run ?_ ⟨hinv, hdraining, hcalm⟩ hguard hrun
    intro state action next hclosed hallowed hstep
    exact hclosed.step hstateless hallowed hstep
  exact hclosed.calm

def lateCall : Request :=
  { futureId := "f", origin := some "origin:1", routeTo := some "a:1" }

/-- `run` has the call in hand when the executor's queue is read, and is done with it when
`unfinished_tasks` is. -/
def submittedBetweenReads : List Action :=
  [.own (.server (.execute lateCall none 0)), .own (.server (.put lateCall)),
    .own (.metrics (.drain 600000000)), .own (.metrics (.tick 0)), .own (.loop .take),
    .readQueueLength, .own (.loop (.process .local)), .own (.loop .register),
    .own (.loop .taskDone), .readDraining, .readOpenRequests, .readUnfinishedTasks, .readUnsent,
    .write]

/-- The heartbeat passes for idle with a call waiting for a worker. -/
theorem idle_with_call_waiting :
    ∃ final : State,
      (system "a:1" {}).run (booted "a:1" {}) submittedBetweenReads = some final ∧
        isIdle "a:1" final ∧ final.process.replica.calls.workQueue = [lateCall] ∧
        final.written.map (fun written => written.2.workQueue) = some [lateCall] :=
  ⟨_, rfl, by decide, rfl, rfl⟩

def finishedBeforeReads : List Action :=
  [.own (.server (.execute lateCall none 0)), .own (.server (.put lateCall)), .own (.loop .take),
    .own (.loop (.process .local)), .own (.loop .register), .own (.loop .taskDone),
    .own (.worker .dequeue), .own (.worker (.work lateCall .dequeued .start)),
    .own (.worker (.work lateCall .started .serve)), .own (.metrics (.drain 600000000)),
    .own (.metrics (.tick 0)), .own (.worker (.work lateCall .running (.returns "42"))),
    .own (.worker (.work lateCall (.returned "42") .store)),
    .own (.worker (.work lateCall (.stored "42") .settle)),
    .own (.worker (.work lateCall (.finishing (some "42"))
      (.stamp { finishedAt := 1, cpuResource := 0, gpuResource := 0, queueTime := none }))),
    .own (.worker (.work lateCall (.stamped (some "42")) .count)),
    .own (.worker (.work lateCall (.counted (some "42")) .report)), .readQueueLength,
    .readDraining, .readOpenRequests, .readUnfinishedTasks, .readUnsent, .write]

theorem idle_means_idle_after_reporting :
    ∃ final : State,
      (system "a:1" {}).run (booted "a:1" {}) finishedBeforeReads = some final ∧
        (∃ heartbeat calls, final.written = some (heartbeat, calls) ∧ calls.Calm) ∧
          final.process.replica.refusing = true :=
  have hidle := idle_means_idle (show ({} : Config).stateful = false from rfl)
    (show (system "a:1" {}).Guarded (NothingSlips "a:1" {}) (booted "a:1" {}) finishedBeforeReads by
      decide) rfl (by decide)
  ⟨_, rfl, hidle.1, hidle.2.1⟩

end Publishing

end CanyonOS
