import CanyonOS.Controller.Process

/-!
# What one step of a controller changes

Later modules reason about a step through the lemmas here: what it writes to the call records,
which call it moves where, and which part of the drain's bookkeeping it touches.
-/

namespace CanyonOS.Process

variable {me : Address} {config : Config} {process next : Process} {action : Action}

/-! ### The shared helpers -/

@[simp]
theorem hset_redis (futureId : FutureId) (fields : Record) :
    (process.hset futureId fields).redis = process.redis.hset futureId fields := rfl

@[simp]
theorem hset_replica (futureId : FutureId) (fields : Record) :
    (process.hset futureId fields).replica = process.replica := rfl

@[simp]
theorem addConsumer_future (futureId : FutureId) (address : Address) :
    (process.addConsumer futureId address).redis.future = process.redis.future := rfl

@[simp]
theorem addConsumer_replica (futureId : FutureId) (address : Address) :
    (process.addConsumer futureId address).replica = process.replica := rfl

@[simp]
theorem completeRequest_future (requestIds : List RequestId) :
    (process.completeRequest requestIds).redis.future = process.redis.future := rfl

@[simp]
theorem completeRequest_replica (requestIds : List RequestId) :
    (process.completeRequest requestIds).replica = process.replica := rfl

@[simp]
theorem sendResultCallback_redis (addresses : List Address) (futureId : FutureId)
    (result : Option String) (failed : Bool) (errorMessage : String) :
    (process.sendResultCallback addresses futureId result failed errorMessage).redis =
      process.redis := rfl

@[simp]
theorem fanOutToConsumers_redis (futureId : FutureId) (result : Option String) (failed : Bool)
    (errorMessage : String) :
    (process.fanOutToConsumers me futureId result failed errorMessage).redis = process.redis := rfl

@[simp]
theorem fanOutToConsumers_replica (futureId : FutureId) (result : Option String) (failed : Bool)
    (errorMessage : String) :
    (process.fanOutToConsumers me futureId result failed errorMessage).replica =
      { process.replica with
        forwarded := Function.update process.replica.forwarded futureId none
        sent := process.replica.sent ++
          resultMessages process.redis ((process.redis.consumers futureId).filter (Elsewhere me))
            futureId result failed errorMessage } := rfl

/-- A failure is recorded by one write to the call's own record. -/
@[simp]
theorem markFutureFailed_future (futureId : FutureId) (error : Failure) (origin : Option Address)
    (errorName : Option String) (beforeStart : Option Time) :
    (process.markFutureFailed me futureId error origin errorName beforeStart).redis.future =
      (process.redis.hset futureId
        (failureFields (process.redis.future futureId) error errorName beforeStart)).future := rfl

/-- To whom a failure is sent: the other consumers, then the origin. -/
def failureMessages (me : Address) (process : Process) (futureId : FutureId) (error : Failure)
    (origin : Option Address) (errorName : Option String) (beforeStart : Option Time) :
    List (Address × Record) :=
  let record := process.redis.future futureId
  resultMessages (process.redis.hset futureId (failureFields record error errorName beforeStart))
    ((process.redis.consumers futureId).filter (Elsewhere me) ++
      origin.toList.filter (Elsewhere me)) futureId none true (error.errorMessage record)

@[simp]
theorem markFutureFailed_replica (futureId : FutureId) (error : Failure) (origin : Option Address)
    (errorName : Option String) (beforeStart : Option Time) :
    (process.markFutureFailed me futureId error origin errorName beforeStart).replica =
      { process.replica with
        forwarded := Function.update process.replica.forwarded futureId none
        sent := process.replica.sent ++
          failureMessages me process futureId error origin errorName beforeStart } := by
  simp only [failureMessages, resultMessages, List.map_append]
  rw [← List.append_assoc]
  rfl

/-! ### What a step records -/

/-- The call whose outcome an action may set. -/
def decides (process : Process) : Action → Option FutureId
  | .stub (.submitFailed call _) => some call.futureId
  | .server (.execute request _ _) => some request.futureId
  | .server (.writeResult message) => some message.futureId
  | .server (.relayUndelivered futureId _) => some futureId
  | .loop (.process _) => process.replica.calls.hand.map (·.1.futureId)
  | .worker (.work call _ _) => some call.futureId
  | .metrics .failLeftover => process.replica.pass.toFail.head?
  | .metrics (.failGone futureId) => some futureId
  | .forward (.onForwarded request _ _) => some request.futureId
  | _ => none

/-- The write a step makes to the call records; every step makes at most one. -/
inductive Recorded (process next : Process) : Action → Prop where
  | nothing {action : Action} (hfuture : next.redis.future = process.redis.future) :
      Recorded process next action
  | failure {action : Action} (futureId : FutureId) (fields : Record)
      (hfailed : fields.failed = some true) (hresult : fields.result = none)
      (hdecides : process.decides action = some futureId)
      (hfuture : next.redis.future = (process.redis.hset futureId fields).future) :
      Recorded process next action
  | other {action : Action} (futureId : FutureId) (fields : Record)
      (hfailed : fields.failed = none) (hresult : fields.result = none)
      (hfuture : next.redis.future = (process.redis.hset futureId fields).future) :
      Recorded process next action
  | start (call : Request)
      (hfuture : next.redis.future =
        (process.redis.hset call.futureId (initialFields call)).future) :
      Recorded process next (.worker (.work call .dequeued .start))
  | store (call : Request) (serialized : String)
      (hfuture : next.redis.future =
        (process.redis.hset call.futureId { result := some serialized }).future) :
      Recorded process next (.worker (.work call (.returned serialized) .store))
  | settle (call : Request) (serialized : String)
      (hworker : (call, .stored serialized) ∈ process.replica.calls.workers)
      (hfuture : next.redis.future =
        (process.redis.hset call.futureId { failed := some false }).future) :
      Recorded process next (.worker (.work call (.stored serialized) .settle))
  | arrival (message : ResultMessage)
      (hfuture : next.redis.future =
        (process.redis.hset message.futureId message.data).future) :
      Recorded process next (.server (.writeResult message))

theorem recorded_markFutureFailed {before : Process} {futureId : FutureId} {error : Failure}
    {origin : Option Address} {errorName : Option String} {beforeStart : Option Time}
    (hbefore : before.redis.future = process.redis.future)
    (hdecides : process.decides action = some futureId) :
    Recorded process (before.markFutureFailed me futureId error origin errorName beforeStart)
      action := by
  refine .failure futureId
    (failureFields (before.redis.future futureId) error errorName beforeStart) rfl rfl hdecides ?_
  simp only [markFutureFailed_future, Redis.hset, hbefore]

theorem Recorded.of_future_eq {after : Process} (hrecorded : Recorded process after action)
    (hnext : next.redis.future = after.redis.future) : Recorded process next action := by
  cases hrecorded with
  | nothing hfuture => exact .nothing (hnext.trans hfuture)
  | failure futureId fields hfailed hresult hdecides hfuture =>
      exact .failure futureId fields hfailed hresult hdecides (hnext.trans hfuture)
  | other futureId fields hfailed hresult hfuture =>
      exact .other futureId fields hfailed hresult (hnext.trans hfuture)
  | start call hfuture => exact .start call (hnext.trans hfuture)
  | store call serialized hfuture => exact .store call serialized (hnext.trans hfuture)
  | settle call serialized hworker hfuture =>
      exact .settle call serialized hworker (hnext.trans hfuture)
  | arrival message hfuture => exact .arrival message (hnext.trans hfuture)

/-! ### Moving a call -/

theorem move_eq_some {move : Move} :
    process.move move = some next ↔
      ∃ calls, process.replica.calls.move move = some calls ∧ process.withCalls calls = next := by
  rw [Process.move, Option.map_eq_some_iff]

def retryMove (process : Process) (request : Request) (status : Status) : Move :=
  if forwardRetries < request.retries + 1 then .answered request
  else if (process.replica.forwarded request.futureId).isNone then .answered request
  else if request.retries + 1 = 1 then .requeue request status
  else .backOff request status

/-- The move of a call that an action makes, if any. -/
def moveOf (me : Address) (config : Config) (process : Process) : Action → Option Move
  | .server (.execute request refusal _) =>
      if admission process.replica.refusing (process.redis.isAccepted me request.futureId) request
          refusal = .queued then
        some (.enter request)
      else none
  | .server (.put request) => some (.put request)
  | .loop .take => some .take
  | .loop (.process .local) => some .submit
  | .loop (.process (.forwarded address)) => some (.handOn me address)
  | .loop (.process _) => some .settle
  | .loop .register => some .register
  | .loop .taskDone => some .taskDone
  | .worker .dequeue => some .dequeue
  | .worker (.work call stage work) =>
      (workStep me config process call stage work).map fun done => .work call stage done.1
  | .worker (.retire call) => some (.retire call)
  | .worker (.forget call) => some (.forget call)
  | .metrics .collect => some .collect
  | .forward (.onForwarded request status _) =>
      if status = .unavailable ∨ status = .deadlineExceeded then
        some (process.retryMove request status)
      else some (.answered request)
  | .forward (.resend request) =>
      if (process.replica.forwarded request.futureId).isSome then some (.resend request)
      else some (.giveUp request)
  | .forward .countDown => some .countDown
  | _ => none

/-- Where the calls are after an optional move. -/
def Moved (before : Calls) (after : Calls) : Option Move → Prop
  | none => after = before
  | some move => before.move move = some after

/-! ### One step, by thread -/

/-- The marker `Execute` sets, for a request it queues or refuses. -/
def acceptedBy (me : Address) (process : Process) : Action → List (Address × FutureId)
  | .server (.execute request refusal _) =>
      match admission process.replica.refusing (process.redis.isAccepted me request.futureId)
          request refusal with
      | .aborted | .duplicate => []
      | .refused _ _ | .queued => [(me, request.futureId)]
  | _ => []

def answeredBy : Action → List Request
  | .server (.put request) => [request]
  | _ => []

def servedBy : Action → Nat
  | .worker (.work _ .started .serve) => 1
  | _ => 0

def completedBy : Action → Nat
  | .worker (.work _ (.stamped _) .count) => 1
  | _ => 0

/-- What is only added to. -/
structure Ledger where
  accepted : List (Address × FutureId)
  answered : List Request
  served : Nat
  completed : Nat

def ledger (me : Address) (process : Process) : Ledger where
  accepted := process.redis.accepted
  answered := process.replica.answered
  served := process.redis.requestsServed me
  completed := process.redis.requestsCompleted me

def ledgerAfter (me : Address) (process : Process) (action : Action) : Ledger where
  accepted := acceptedBy me process action ++ process.redis.accepted
  answered := answeredBy action ++ process.replica.answered
  served := process.redis.requestsServed me + servedBy action
  completed := process.redis.requestsCompleted me + completedBy action

/-- What only the metrics loop changes, and those who set the removal time. -/
structure DrainState where
  draining : Bool
  refusing : Bool
  pass : Pass
  cutOff : List FutureId
  shutdownAt : Option Time
  removals : Address → Option Time

def drainState (process : Process) : DrainState where
  draining := process.replica.draining
  refusing := process.replica.refusing
  pass := process.replica.pass
  cutOff := process.replica.cutOff
  shutdownAt := process.replica.shutdownAt
  removals := process.redis.draining

/-- A worker is about to confirm the result it has stored. -/
def Settling (process : Process) (futureId : FutureId) : Prop :=
  ∃ call serialized, (call, .stored serialized) ∈ process.replica.calls.workers ∧
    call.futureId = futureId

/-- The note that a call was forwarded stays, is made for the request in hand, or is dropped as the
call ends. -/
def NotesForward (process next : Process) (action : Action) (futureId : FutureId) : Prop :=
  next.replica.forwarded futureId = process.replica.forwarded futureId ∨
    (∃ address request, action = .loop (.process (.forwarded address)) ∧
      process.replica.calls.hand = some (request, .taken) ∧ request.futureId = futureId ∧
      next.replica.forwarded futureId = some address) ∨
    next.replica.forwarded futureId = none ∧
      ((next.redis.future futureId).Terminal ∨ process.Settling futureId)

/-- All that the proofs about runs use of a step. -/
structure Effect (me : Address) (config : Config) (process next : Process) (action : Action) :
    Prop where
  recorded : Recorded process next action
  moved : Moved process.replica.calls next.replica.calls (moveOf me config process action)
  ledger : next.ledger me = process.ledgerAfter me action
  drain : (∀ metrics, action ≠ .metrics metrics) → next.drainState = process.drainState
  sent : process.replica.sent <+: next.replica.sent
  forwarded : ∀ futureId, NotesForward process next action futureId

theorem Effect.accepted (heffect : Effect me config process next action) :
    next.redis.accepted = acceptedBy me process action ++ process.redis.accepted :=
  congrArg Ledger.accepted heffect.ledger

theorem Effect.answered (heffect : Effect me config process next action) :
    next.replica.answered = answeredBy action ++ process.replica.answered :=
  congrArg Ledger.answered heffect.ledger

theorem Effect.sameDrain (heffect : Effect me config process next action)
    (hother : ∀ metrics, action ≠ .metrics metrics) :
    next.replica.draining = process.replica.draining ∧
      next.replica.refusing = process.replica.refusing ∧
      next.replica.pass = process.replica.pass ∧
      next.replica.cutOff = process.replica.cutOff :=
  have hdrain := heffect.drain hother
  ⟨congrArg DrainState.draining hdrain, congrArg DrainState.refusing hdrain,
    congrArg DrainState.pass hdrain, congrArg DrainState.cutOff hdrain⟩

theorem Effect.sameRemoval (heffect : Effect me config process next action)
    (hother : ∀ metrics, action ≠ .metrics metrics) : next.removeAt me = process.removeAt me :=
  congrArg (fun drain : DrainState => drain.shutdownAt.or (drain.removals me))
    (heffect.drain hother)

theorem notesForward_drop {futureId : FutureId}
    (hforwarded : next.replica.forwarded = Function.update process.replica.forwarded futureId none)
    (hends : (next.redis.future futureId).Terminal ∨ process.Settling futureId)
    (other : FutureId) : NotesForward process next action other := by
  unfold NotesForward
  rw [hforwarded]
  by_cases heq : other = futureId
  · subst heq
    exact Or.inr (Or.inr ⟨Function.update_self _ _ _, hends⟩)
  · exact Or.inl (Function.update_of_ne heq _ _)

/-- Marking a call failed after the rest of a step adds a write and some messages to it. -/
theorem Effect.markFutureFailed (heffect : Effect me config process next action)
    (hfuture : next.redis.future = process.redis.future) {futureId : FutureId}
    (hdecides : process.decides action = some futureId) (error : Failure)
    (origin : Option Address) (errorName : Option String) (beforeStart : Option Time) :
    Effect me config process
      (next.markFutureFailed me futureId error origin errorName beforeStart) action where
  recorded := recorded_markFutureFailed hfuture hdecides
  moved := heffect.moved
  ledger := heffect.ledger
  drain := heffect.drain
  sent := by
    rw [markFutureFailed_replica]
    exact heffect.sent.trans (List.prefix_append _ _)
  forwarded other := by
    unfold NotesForward
    rw [markFutureFailed_future, markFutureFailed_replica]
    by_cases heq : other = futureId
    · subst heq
      refine Or.inr (Or.inr ⟨Function.update_self _ _ _, Or.inl ?_⟩)
      rw [Redis.hset_future_self]
      exact Record.terminal_hsetMultiple (failureFields_terminal _ _ _ _) _
    · rw [Redis.hset_future_of_ne heq]
      simpa [Function.update_of_ne heq, NotesForward] using heffect.forwarded other

/-- A step that moves no call and touches only records. -/
theorem effect_of_recorded (hrecorded : Recorded process next action)
    (hreplica : next.replica = process.replica)
    (hremovals : next.redis.draining = process.redis.draining)
    (hmove : moveOf me config process action = none)
    (hledger : next.ledger me = process.ledgerAfter me action) :
    Effect me config process next action where
  recorded := hrecorded
  moved := by simp [hmove, Moved, hreplica]
  ledger := hledger
  drain _ := by simp [drainState, hreplica, hremovals]
  sent := hreplica ▸ List.prefix_rfl
  forwarded _ := Or.inl (by rw [hreplica])

/-- A step that moves a call and changes nothing else. -/
theorem effect_of_move {move : Move} (hstep : process.move move = some next)
    (hmove : moveOf me config process action = some move)
    (hledger : process.ledger me = process.ledgerAfter me action) :
    Effect me config process next action := by
  obtain ⟨calls, hcalls, rfl⟩ := move_eq_some.mp hstep
  refine ⟨.nothing rfl, ?_, hledger, fun _ => rfl, List.prefix_rfl, fun _ => Or.inl rfl⟩
  rwa [hmove]

theorem stubStep_effect {action : StubAction} (hstep : process.stubStep action = some next) :
    Effect me config process next (.stub action) := by
  cases action with
  | create call =>
      cases hstep
      exact effect_of_recorded (.other call.futureId (createdFields call) rfl rfl rfl) rfl rfl rfl rfl
  | submitFailed call reason =>
      cases hstep
      exact effect_of_recorded (.failure call.futureId
        { error := some (sendFailedMessage call reason), failed := some true } rfl rfl rfl rfl)
        rfl rfl rfl rfl

theorem serverStep_effect {action : ServerAction}
    (hstep : process.serverStep me action = some next) :
    Effect me config process next (.server action) := by
  cases action with
  | execute request refusal now =>
      simp only [serverStep, execute] at hstep
      split_ifs at hstep
      split at hstep
      case h_1 hadmission | h_2 hadmission =>
        cases hstep
        refine effect_of_recorded (.nothing rfl) rfl rfl ?_ ?_
        · simp [moveOf, hadmission]
        · simp [ledger, ledgerAfter, acceptedBy, hadmission, answeredBy, servedBy, completedBy]
      case h_3 hadmission =>
        cases hstep
        have hmarked : Effect me config process
            { process with
              redis := { process.redis with
                accepted := (me, request.futureId) :: process.redis.accepted } }
            (.server (.execute request refusal now)) := by
          refine ⟨.nothing rfl, ?_, ?_, fun _ => rfl, List.prefix_rfl, fun _ => Or.inl rfl⟩
          · simp [moveOf, hadmission, Moved]
          · simp [ledger, ledgerAfter, acceptedBy, hadmission, answeredBy, servedBy, completedBy]
        exact hmarked.markFutureFailed rfl rfl _ _ _ _
      case h_4 hadmission =>
        obtain ⟨calls, hmove, rfl⟩ := move_eq_some.mp hstep
        refine ⟨.nothing rfl, ?_, ?_, fun _ => rfl, List.prefix_rfl, fun _ => Or.inl rfl⟩
        · change Moved process.replica.calls calls _
          simpa [moveOf, hadmission, Moved] using hmove
        · simp [ledger, ledgerAfter, acceptedBy, hadmission, answeredBy, servedBy, completedBy,
            withCalls]
  | put request =>
      obtain ⟨queued, hqueued, rfl⟩ := Option.map_eq_some_iff.mp hstep
      obtain ⟨calls, hmove, rfl⟩ := move_eq_some.mp hqueued
      exact ⟨.nothing rfl, hmove, rfl, fun _ => rfl, List.prefix_rfl, fun _ => Or.inl rfl⟩
  | writeResult message =>
      cases hstep
      refine ⟨.arrival message rfl, rfl, rfl, fun _ => rfl, List.prefix_append _ _,
        notesForward_drop rfl (Or.inl ?_)⟩
      simpa using Record.terminal_hsetMultiple message.terminal _
  | relayUndelivered futureId reason =>
      simp only [serverStep] at hstep
      split_ifs at hstep
      cases hstep
      have hsame : Effect me config process process (.server (.relayUndelivered futureId reason)) :=
        effect_of_recorded (.nothing rfl) rfl rfl rfl rfl
      exact hsame.markFutureFailed rfl rfl _ _ _ _
  | cleanup requestId =>
      cases hstep
      exact ⟨.nothing rfl, rfl, rfl, fun _ => rfl, List.prefix_rfl, fun _ => Or.inl rfl⟩

theorem processRequest_effect {request : Request} {verdict : Verdict}
    (hhand : process.replica.calls.hand = some (request, .taken))
    (hstep : process.processRequest me config request verdict = some next) :
    Effect me config process next (.loop (.process verdict)) := by
  have hdecides : process.decides (.loop (.process verdict)) = some request.futureId := by
    simp [decides, hhand]
  cases verdict with
  | refused error errorName now =>
      obtain ⟨done, hmove, rfl⟩ := Option.map_eq_some_iff.mp hstep
      have hdone : Effect me config process done
          (.loop (.process (.refused error errorName now))) := effect_of_move hmove rfl rfl
      obtain ⟨calls, -, rfl⟩ := move_eq_some.mp hmove
      exact hdone.markFutureFailed rfl hdecides _ _ _ _
  | raised error =>
      obtain ⟨done, hmove, rfl⟩ := Option.map_eq_some_iff.mp hstep
      have hdone : Effect me config process done (.loop (.process (.raised error))) :=
        effect_of_move hmove rfl rfl
      obtain ⟨calls, -, rfl⟩ := move_eq_some.mp hmove
      exact hdone.markFutureFailed rfl hdecides _ _ _ _
  | held =>
      simp only [processRequest] at hstep
      split_ifs at hstep
      obtain ⟨done, hdone, rfl⟩ := Option.map_eq_some_iff.mp hstep
      obtain ⟨calls, hmove, rfl⟩ := move_eq_some.mp hdone
      exact ⟨.other request.futureId
        { initialFields request with failed := none, error := none } rfl rfl rfl,
        hmove, rfl, fun _ => rfl, List.prefix_rfl, fun _ => Or.inl rfl⟩
  | «local» =>
      simp only [processRequest] at hstep
      split_ifs at hstep
      obtain ⟨moved, hmoved, rfl⟩ := Option.map_eq_some_iff.mp hstep
      obtain ⟨calls, hmove, rfl⟩ := move_eq_some.mp hmoved
      exact ⟨.nothing rfl, hmove, rfl, fun _ => rfl, List.prefix_rfl, fun _ => Or.inl rfl⟩
  | forwarded address =>
      simp only [processRequest] at hstep
      split_ifs at hstep
      obtain ⟨moved, hmoved, rfl⟩ := Option.map_eq_some_iff.mp hstep
      obtain ⟨calls, hmove, rfl⟩ := move_eq_some.mp hmoved
      refine ⟨.nothing rfl, hmove, rfl, fun _ => rfl, List.prefix_rfl, fun other => ?_⟩
      by_cases heq : other = request.futureId
      · subst heq
        exact Or.inr (Or.inl
          ⟨address, request, rfl, hhand, rfl, Function.update_self _ _ _⟩)
      · exact Or.inl (Function.update_of_ne heq _ _)

theorem loopStep_effect {action : LoopAction}
    (hstep : process.loopStep me config action = some next) :
    Effect me config process next (.loop action) := by
  cases action with
  | take | register | taskDone => exact effect_of_move hstep rfl rfl
  | registerConsumer futureId address =>
      simp only [loopStep] at hstep
      split at hstep
      · split at hstep <;> cases hstep
        · exact ⟨.nothing rfl, rfl, rfl, fun _ => rfl, List.prefix_append _ _, fun _ => Or.inl rfl⟩
        · exact ⟨.nothing rfl, rfl, rfl, fun _ => rfl, List.prefix_rfl, fun _ => Or.inl rfl⟩
      · cases hstep
  | process verdict =>
      simp only [loopStep] at hstep
      split at hstep
      · rename_i hhand
        exact processRequest_effect hhand hstep
      · cases hstep

theorem workStep_calls {call : Request} {stage stage' : Stage} {work : Work}
    (hstep : workStep me config process call stage work = some (stage', next)) :
    next.replica.calls = process.replica.calls := by
  unfold workStep at hstep
  split at hstep
  case h_4 | h_11 => split_ifs at hstep <;> cases hstep <;> rfl
  case h_12 => split at hstep <;> cases hstep <;> rfl
  case h_13 => cases hstep
  all_goals
    cases hstep
    rfl

theorem workStep_effect {call : Request} {stage stage' : Stage} {work : Work} {done : Process}
    {calls : Calls} (hstep : workStep me config process call stage work = some (stage', done))
    (hmove : process.replica.calls.move (.work call stage stage') = some calls) :
    Effect me config process (done.withCalls calls) (.worker (.work call stage work)) := by
  have hmem : (call, stage) ∈ process.replica.calls.workers := by
    by_contra hnot
    simp [Calls.move, hnot] at hmove
  have hmoved : Moved process.replica.calls calls
      (moveOf me config process (.worker (.work call stage work))) := by
    simp [moveOf, hstep, Moved, hmove]
  unfold workStep at hstep
  split at hstep
  case h_1 =>
    cases hstep
    exact ⟨.start call rfl, hmoved, rfl, fun _ => rfl, List.prefix_rfl, fun _ => Or.inl rfl⟩
  case h_2 | h_5 | h_8 =>
    cases hstep
    have hsame : Effect me config process (process.withCalls calls) _ :=
      ⟨.nothing rfl, hmoved, rfl, fun _ => rfl, List.prefix_rfl, fun _ => Or.inl rfl⟩
    exact hsame.markFutureFailed rfl rfl _ _ _ _
  case h_3 | h_10 =>
    cases hstep
    refine ⟨.nothing rfl, hmoved, ?_, fun _ => rfl, List.prefix_rfl, fun _ => Or.inl rfl⟩
    simp [ledger, ledgerAfter, withCalls, acceptedBy, answeredBy, servedBy, completedBy]
  case h_4 =>
    split_ifs at hstep <;> cases hstep <;>
      exact ⟨.nothing rfl, hmoved, rfl, fun _ => rfl, List.prefix_rfl, fun _ => Or.inl rfl⟩
  case h_6 serialized =>
    cases hstep
    exact ⟨.store call serialized rfl, hmoved, rfl, fun _ => rfl, List.prefix_rfl, fun _ => Or.inl rfl⟩
  case h_7 serialized =>
    cases hstep
    exact ⟨.settle call serialized hmem rfl, hmoved, rfl, fun _ => rfl, List.prefix_append _ _,
      notesForward_drop rfl (Or.inr ⟨call, serialized, hmem, rfl⟩)⟩
  case h_9 measured =>
    cases hstep
    exact ⟨.other call.futureId (finishedFields config.replicaId measured) rfl rfl rfl, hmoved, rfl,
      fun _ => rfl, List.prefix_rfl, fun _ => Or.inl rfl⟩
  case h_11 reason =>
    split_ifs at hstep
    cases hstep
    have hsame : Effect me config process (process.withCalls calls) _ :=
      ⟨.nothing rfl, hmoved, rfl, fun _ => rfl, List.prefix_rfl, fun _ => Or.inl rfl⟩
    have hfailed := hsame.markFutureFailed rfl rfl (.message reason) none
      (some "ResultNotDelivered") none
    exact ⟨hfailed.recorded.of_future_eq rfl, hmoved, rfl, fun _ => rfl, hfailed.sent,
      hfailed.forwarded⟩
  case h_12 =>
    split at hstep <;> cases hstep
    · exact ⟨.nothing rfl, hmoved, rfl, fun _ => rfl, List.prefix_append _ _, fun _ => Or.inl rfl⟩
    · exact ⟨.nothing rfl, hmoved, rfl, fun _ => rfl, List.prefix_append _ _, fun _ => Or.inl rfl⟩
    · exact ⟨.nothing rfl, hmoved, rfl, fun _ => rfl, List.prefix_rfl, fun _ => Or.inl rfl⟩
  case h_13 => cases hstep

theorem workerStep_effect {action : WorkerAction}
    (hstep : process.workerStep me config action = some next) :
    Effect me config process next (.worker action) := by
  cases action with
  | dequeue | retire | forget => exact effect_of_move hstep rfl rfl
  | work call stage work =>
      simp only [workerStep] at hstep
      split at hstep
      case h_1 stage' done hwork =>
        obtain ⟨calls, hmove, rfl⟩ := move_eq_some.mp hstep
        rw [workStep_calls hwork] at hmove
        exact workStep_effect hwork hmove
      case h_2 => cases hstep

theorem metricsStep_effect {action : MetricsAction}
    (hstep : process.metricsStep me config action = some next) :
    Effect me config process next (.metrics action) := by
  have hdrain : (∀ metrics, Action.metrics action ≠ .metrics metrics) →
      next.drainState = process.drainState := fun h => absurd rfl (h action)
  cases action with
  | drain | drainUntil =>
      cases hstep
      exact ⟨.nothing rfl, rfl, rfl, hdrain, List.prefix_rfl, fun _ => Or.inl rfl⟩
  | tick now =>
      simp only [metricsStep] at hstep
      split_ifs at hstep <;> cases hstep <;>
        exact ⟨.nothing rfl, rfl, rfl, hdrain, List.prefix_rfl, fun _ => Or.inl rfl⟩
  | failUnfinished | cutOff =>
      simp only [metricsStep] at hstep
      split at hstep <;> cases hstep
      exact ⟨.nothing rfl, rfl, rfl, hdrain, List.prefix_rfl, fun _ => Or.inl rfl⟩
  | collect =>
      simp only [metricsStep] at hstep
      split at hstep
      · obtain ⟨collected, hcollected, rfl⟩ := Option.map_eq_some_iff.mp hstep
        obtain ⟨calls, hmove, rfl⟩ := move_eq_some.mp hcollected
        exact ⟨.nothing rfl, hmove, rfl, hdrain, List.prefix_rfl, fun _ => Or.inl rfl⟩
      · cases hstep
  | failLeftover =>
      simp only [metricsStep] at hstep
      split at hstep <;> cases hstep
      rename_i call rest hpass
      have hpopped : Effect me config process
          { process with replica := { process.replica with pass := .failing rest } }
          (.metrics .failLeftover) :=
        ⟨.nothing rfl, rfl, rfl, hdrain, List.prefix_rfl, fun _ => Or.inl rfl⟩
      refine hpopped.markFutureFailed rfl ?_ _ _ _ _
      simp [decides, hpass, Pass.toFail]
  | failGone futureId =>
      simp only [metricsStep] at hstep
      split_ifs at hstep
      cases hstep
      have hsame : Effect me config process process (.metrics (.failGone futureId)) :=
        ⟨.nothing rfl, rfl, rfl, hdrain, List.prefix_rfl, fun _ => Or.inl rfl⟩
      exact hsame.markFutureFailed rfl rfl _ _ _ _

theorem retry_effect {request : Request} {status : Status} {replicas : Nat}
    (hstatus : status = .unavailable ∨ status = .deadlineExceeded)
    (hstep : process.retry me request status replicas = some next) :
    Effect me config process next (.forward (.onForwarded request status replicas)) := by
  have hmove : ∀ move, process.retryMove request status = move →
      moveOf me config process (.forward (.onForwarded request status replicas)) = some move := by
    intro move hretry
    simp [moveOf, hstatus, hretry]
  simp only [retry] at hstep
  split_ifs at hstep with hretries hgone hfirst
  · obtain ⟨ended, hanswered, rfl⟩ := Option.map_eq_some_iff.mp hstep
    have hretry := hmove _ (by rw [retryMove, if_pos hretries])
    have hended := effect_of_move hanswered hretry rfl
    obtain ⟨calls, -, rfl⟩ := move_eq_some.mp hanswered
    exact hended.markFutureFailed rfl rfl _ _ _ _
  · have hretry := hmove _ (by rw [retryMove, if_neg hretries, if_pos hgone])
    exact effect_of_move hstep hretry rfl
  · have hretry := hmove _ (by rw [retryMove, if_neg hretries, if_neg hgone, if_pos hfirst])
    exact effect_of_move hstep hretry rfl
  · have hretry := hmove _ (by rw [retryMove, if_neg hretries, if_neg hgone, if_neg hfirst])
    exact effect_of_move hstep hretry rfl

theorem forwardStep_effect {action : ForwardAction}
    (hstep : process.forwardStep me action = some next) :
    Effect me config process next (.forward action) := by
  cases action with
  | onForwarded request status replicas =>
      cases status with
      | ok => exact effect_of_move hstep rfl rfl
      | other details =>
          obtain ⟨ended, hmove, rfl⟩ := Option.map_eq_some_iff.mp hstep
          have hended : Effect me config process ended
              (.forward (.onForwarded request (.other details) replicas)) :=
            effect_of_move hmove rfl rfl
          obtain ⟨calls, -, rfl⟩ := move_eq_some.mp hmove
          exact hended.markFutureFailed rfl rfl _ _ _ _
      | unavailable => exact retry_effect (Or.inl rfl) hstep
      | deadlineExceeded => exact retry_effect (Or.inr rfl) hstep
  | resend request =>
      simp only [forwardStep] at hstep
      split_ifs at hstep with hforwarded
      · exact effect_of_move hstep (by simp [moveOf, hforwarded]) rfl
      · exact effect_of_move hstep (by simp [moveOf, hforwarded]) rfl
  | countDown => exact effect_of_move hstep rfl rfl

theorem step_effect (hstep : process.step me config action = some next) :
    Effect me config process next action := by
  cases action with
  | stub action => exact stubStep_effect hstep
  | server action => exact serverStep_effect hstep
  | loop action => exact loopStep_effect hstep
  | worker action => exact workerStep_effect hstep
  | metrics action => exact metricsStep_effect hstep
  | forward action => exact forwardStep_effect hstep

/-- What a step does not decide keeps its outcome. -/
theorem Recorded.verdict (hrecorded : Recorded process next action) {futureId : FutureId}
    (hother : process.decides action ≠ some futureId) :
    (next.redis.future futureId).failed = (process.redis.future futureId).failed ∧
      (next.redis.future futureId).result = (process.redis.future futureId).result := by
  have hset : ∀ written fields, process.decides action = some written →
      next.redis.future = (process.redis.hset written fields).future →
      next.redis.future futureId = process.redis.future futureId := by
    intro written fields hdecides hfuture
    have hne : futureId ≠ written := by
      rintro rfl
      exact hother hdecides
    rw [hfuture, Redis.hset_future_of_ne hne]
  cases hrecorded with
  | nothing hfuture => rw [hfuture]; exact ⟨rfl, rfl⟩
  | failure _ _ _ _ hdecides hfuture => rw [hset _ _ hdecides hfuture]; exact ⟨rfl, rfl⟩
  | other written fields hfailed hresult hfuture =>
      rw [hfuture]
      by_cases heq : futureId = written
      · subst heq
        simp [hfailed, hresult]
      · rw [Redis.hset_future_of_ne heq]
        exact ⟨rfl, rfl⟩
  | start _ hfuture | store _ _ hfuture | settle _ _ _ hfuture | arrival _ hfuture =>
      rw [hset _ _ rfl hfuture]
      exact ⟨rfl, rfl⟩

/-- Nothing deletes a result. -/
theorem Recorded.result_isSome (hrecorded : Recorded process next action) {futureId : FutureId}
    (hresult : (process.redis.future futureId).result.isSome) :
    (next.redis.future futureId).result.isSome := by
  have hkeep : ∀ written fields, next.redis.future = (process.redis.hset written fields).future →
      (next.redis.future futureId).result.isSome := by
    intro written fields hfuture
    rw [hfuture]
    by_cases heq : futureId = written
    · subst heq
      cases hfield : fields.result <;> simp [hfield, hresult]
    · rwa [Redis.hset_future_of_ne heq]
  cases hrecorded with
  | nothing hfuture => exact (congrFun hfuture futureId) ▸ hresult
  | failure _ _ _ _ _ hfuture => exact hkeep _ _ hfuture
  | other _ _ _ _ hfuture => exact hkeep _ _ hfuture
  | start _ hfuture | store _ _ hfuture | settle _ _ _ hfuture | arrival _ hfuture =>
      exact hkeep _ _ hfuture

/-! ### Workers and the drain -/

/-- A worker is about to reset `failed` only once it has stored the result. -/
theorem workStep_stored {call : Request} {stage : Stage} {serialized : String} {work : Work}
    (hstep : workStep me config process call stage work = some (.stored serialized, next)) :
    (next.redis.future call.futureId).result = some serialized := by
  unfold workStep at hstep
  split at hstep
  case h_4 | h_11 => split_ifs at hstep <;> cases hstep
  case h_6 =>
    cases hstep
    simp
  case h_12 => split at hstep <;> cases hstep
  all_goals cases hstep

/-- The actions behind the moves that matter to whole runs. -/
def CausedBy (me : Address) (config : Config) (process : Process) (action : Action) :
    Move → Prop
  | .enter request => ∃ refusal now, action = .server (.execute request refusal now) ∧
      admission process.replica.refusing (process.redis.isAccepted me request.futureId) request
        refusal = .queued
  | .put request => action = .server (.put request)
  | .settle => ∃ verdict, action = .loop (.process verdict)
  | .submit => action = .loop (.process .local)
  | .handOn sender address => sender = me ∧ action = .loop (.process (.forwarded address))
  | .work call stage stage' => ∃ work done, action = .worker (.work call stage work) ∧
      workStep me config process call stage work = some (stage', done)
  | .collect => action = .metrics .collect
  | .requeue .. | .resend _ => ∃ forward, action = .forward forward
  | _ => True

theorem moveOf_causedBy {move : Move} (hmove : moveOf me config process action = some move) :
    CausedBy me config process action move := by
  unfold moveOf at hmove
  split at hmove
  case h_1 request refusal now =>
    split_ifs at hmove with hadmission
    cases hmove
    exact ⟨refusal, now, rfl, hadmission⟩
  case h_4 =>
    cases hmove
    rfl
  case h_5 =>
    cases hmove
    exact ⟨rfl, rfl⟩
  case h_6 verdict _ _ =>
    cases hmove
    exact ⟨verdict, rfl⟩
  case h_10 call stage work =>
    obtain ⟨⟨reached, done⟩, hwork, heq⟩ := Option.map_eq_some_iff.mp hmove
    cases heq
    exact ⟨work, done, rfl, hwork⟩
  case h_14 =>
    unfold retryMove at hmove
    split_ifs at hmove <;> cases hmove <;> first | trivial | exact ⟨_, rfl⟩
  case h_15 => split_ifs at hmove <;> cases hmove <;> first | trivial | exact ⟨_, rfl⟩
  all_goals
    cases hmove
    try trivial

theorem mem_workers_of_step (hstep : process.step me config action = some next)
    {worker : Request × Stage} (hworker : worker ∈ next.replica.calls.workers) :
    worker ∈ process.replica.calls.workers ∨ worker.2 = .dequeued ∨
      ∃ stage work done, action = .worker (.work worker.1 stage work) ∧
        (worker.1, stage) ∈ process.replica.calls.workers ∧
        workStep me config process worker.1 stage work = some (worker.2, done) ∧
        next.redis.future = done.redis.future := by
  have hmoved := (step_effect hstep).moved
  cases hmove : moveOf me config process action with
  | none =>
      simp only [hmove, Moved] at hmoved
      exact Or.inl (hmoved ▸ hworker)
  | some move =>
      simp only [hmove, Moved] at hmoved
      rcases Calls.mem_workers_of_move hmoved hworker with hold | hnew | ⟨stage, rfl⟩
      · exact Or.inl hold
      · exact Or.inr (Or.inl hnew)
      · obtain ⟨work, done, rfl, hwork⟩ := moveOf_causedBy hmove
        have hmem : (worker.1, stage) ∈ process.replica.calls.workers := by
          by_contra hnot
          simp [Calls.move, hnot] at hmoved
        refine Or.inr (Or.inr ⟨stage, work, done, rfl, hmem, hwork, ?_⟩)
        simp only [step, workerStep, hwork] at hstep
        obtain ⟨calls, -, rfl⟩ := move_eq_some.mp hstep
        rfl

theorem work_of_step {call : Request} {stage : Stage} {work : Work}
    (hstep : process.step me config (.worker (.work call stage work)) = some next) :
    (call, stage) ∈ process.replica.calls.workers ∧
      ∃ stage' done, workStep me config process call stage work = some (stage', done) ∧
        (call, stage') ∈ next.replica.calls.workers ∧ next.redis = done.redis ∧
        next.replica.sent = done.replica.sent := by
  simp only [step, workerStep] at hstep
  split at hstep
  case h_1 stage' done hwork =>
    obtain ⟨calls, hmove, rfl⟩ := move_eq_some.mp hstep
    rw [workStep_calls hwork] at hmove
    simp only [Calls.move] at hmove
    split_ifs at hmove with hmem
    refine ⟨hmem, stage', done, hwork, ?_, rfl, rfl⟩
    rw [← Option.some.inj hmove]
    exact List.mem_cons_self
  case h_2 => cases hstep

theorem mem_attempts_of_step {request : Request} {status : Status} {replicas : Nat}
    (hstep : process.step me config (.forward (.onForwarded request status replicas)) =
      some next) : request ∈ process.replica.calls.attempts := by
  have hmoved := (step_effect hstep).moved
  by_contra hnot
  simp only [moveOf, retryMove] at hmoved
  split_ifs at hmoved <;> simp [Moved, Calls.move, hnot] at hmoved

/-- The drain cuts off all it collected at once, then marks one call at a time. -/
theorem step_drain_cases (hstep : process.step me config action = some next) :
    (next.replica.cutOff = process.replica.cutOff ∧
      next.replica.pass.toFail = process.replica.pass.toFail) ∨
    (∃ unfinished, process.replica.pass = .collecting unfinished ∧
      next.replica.pass = .failing unfinished ∧
      next.replica.cutOff = unfinished.map Request.futureId ++ process.replica.cutOff) ∨
    ∃ call rest, process.replica.pass = .failing (call :: rest) ∧
      next.replica.pass = .failing rest ∧ next.replica.cutOff = process.replica.cutOff ∧
      action = .metrics .failLeftover ∧ (next.redis.future call.futureId).failed = some true := by
  cases action with
  | stub | server | loop | forward | worker =>
      obtain ⟨-, -, hpass, hcutOff⟩ := (step_effect hstep).sameDrain nofun
      exact Or.inl ⟨hcutOff, congrArg Pass.toFail hpass⟩
  | metrics action =>
      cases action with
      | drain | drainUntil =>
          cases hstep
          exact Or.inl ⟨rfl, rfl⟩
      | tick now =>
          simp only [step, metricsStep] at hstep
          split_ifs at hstep with hidle hdue <;> cases hstep
          · exact Or.inl ⟨rfl, by simp [Pass.toFail, hdue.1]⟩
          · exact Or.inl ⟨rfl, rfl⟩
      | failGone futureId =>
          simp only [step, metricsStep] at hstep
          split_ifs at hstep
          cases hstep
          exact Or.inl ⟨rfl, rfl⟩
      | failUnfinished =>
          simp only [step, metricsStep] at hstep
          split at hstep <;> cases hstep
          rename_i hpass
          exact Or.inl ⟨rfl, by simp [Pass.toFail, hpass]⟩
      | collect =>
          simp only [step, metricsStep] at hstep
          split at hstep
          case h_1 hpass _ =>
            obtain ⟨collected, hmove, rfl⟩ := Option.map_eq_some_iff.mp hstep
            obtain ⟨calls, -, rfl⟩ := move_eq_some.mp hmove
            exact Or.inl ⟨rfl, by simp [Pass.toFail, hpass]⟩
          case h_2 => cases hstep
      | cutOff =>
          simp only [step, metricsStep] at hstep
          split at hstep <;> cases hstep
          rename_i hpass _
          exact Or.inr (Or.inl ⟨_, hpass, rfl, rfl⟩)
      | failLeftover =>
          simp only [step, metricsStep] at hstep
          split at hstep <;> cases hstep
          rename_i call rest hpass
          refine Or.inr (Or.inr ⟨call, rest, hpass, rfl, rfl, rfl, ?_⟩)
          simp [failureFields]

/-- What the pass has in hand was in the executor or on the queue. -/
theorem mem_pass_of_step (hstep : process.step me config action = some next) {request : Request}
    (hrequest : request ∈ next.replica.pass.requests) :
    request ∈ process.replica.pass.requests ∨ request ∈ process.replica.calls.executorFutures ∨
      request ∈ process.replica.calls.requestQueue := by
  cases action with
  | stub | server | loop | forward | worker =>
      obtain ⟨-, -, hpass, -⟩ := (step_effect hstep).sameDrain nofun
      exact Or.inl (hpass ▸ hrequest)
  | metrics action =>
      cases action with
      | drain | drainUntil =>
          cases hstep
          exact Or.inl hrequest
      | tick now =>
          simp only [step, metricsStep] at hstep
          split_ifs at hstep <;> cases hstep
          · cases hrequest
          · exact Or.inl hrequest
      | failGone futureId =>
          simp only [step, metricsStep] at hstep
          split_ifs at hstep
          cases hstep
          exact Or.inl hrequest
      | failUnfinished =>
          simp only [step, metricsStep] at hstep
          split at hstep <;> cases hstep
          exact Or.inr (Or.inl hrequest)
      | collect =>
          simp only [step, metricsStep] at hstep
          split at hstep
          case h_1 unfinished head rest hpass hqueue =>
            obtain ⟨collected, hmove, rfl⟩ := Option.map_eq_some_iff.mp hstep
            rcases List.mem_append.mp hrequest with hold | hnew
            · exact Or.inl (by rwa [hpass])
            · rw [List.mem_singleton.mp hnew, hqueue]
              exact Or.inr (Or.inr List.mem_cons_self)
          case h_2 => cases hstep
      | cutOff =>
          simp only [step, metricsStep] at hstep
          split at hstep <;> cases hstep
          rename_i hpass _
          exact Or.inl (by rwa [hpass])
      | failLeftover =>
          simp only [step, metricsStep] at hstep
          split at hstep <;> cases hstep
          rename_i hpass
          exact Or.inl (by rw [hpass]; exact List.mem_cons_of_mem _ hrequest)

/-- The pass lets go of a request only by cutting it off. -/
theorem collected_of_step (hstep : process.step me config action = some next) {request : Request}
    (hrequest : request ∈ process.replica.pass.collected) :
    request ∈ next.replica.pass.collected ∨ request.futureId ∈ next.replica.cutOff := by
  cases action with
  | stub | server | loop | forward | worker =>
      obtain ⟨-, -, hpass, -⟩ := (step_effect hstep).sameDrain nofun
      exact Or.inl (hpass ▸ hrequest)
  | metrics action =>
      cases action with
      | drain | drainUntil =>
          cases hstep
          exact Or.inl hrequest
      | tick now =>
          simp only [step, metricsStep] at hstep
          split_ifs at hstep with hidle <;> cases hstep
          · rcases hidle with hpass | hpass <;> rw [hpass] at hrequest <;> cases hrequest
          · exact Or.inl hrequest
      | failGone futureId =>
          simp only [step, metricsStep] at hstep
          split_ifs at hstep
          cases hstep
          exact Or.inl hrequest
      | failUnfinished =>
          simp only [step, metricsStep] at hstep
          split at hstep <;> cases hstep
          rename_i hpass
          rw [hpass] at hrequest
          cases hrequest
      | collect =>
          simp only [step, metricsStep] at hstep
          split at hstep
          case h_1 unfinished head rest hpass hqueue =>
            obtain ⟨collected, hmove, rfl⟩ := Option.map_eq_some_iff.mp hstep
            rw [hpass] at hrequest
            exact Or.inl (List.mem_append_left _ hrequest)
          case h_2 => cases hstep
      | cutOff =>
          simp only [step, metricsStep] at hstep
          split at hstep <;> cases hstep
          rename_i unfinished hpass _
          rw [hpass] at hrequest
          exact Or.inr (List.mem_append_left _ (List.mem_map_of_mem hrequest))
      | failLeftover =>
          simp only [step, metricsStep] at hstep
          split at hstep <;> cases hstep
          rename_i hpass
          rw [hpass] at hrequest
          cases hrequest

end CanyonOS.Process
