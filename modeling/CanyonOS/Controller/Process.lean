import CanyonOS.Controller.Calls
import CanyonOS.Lib.TransitionSystem
import Mathlib.Logic.Function.Basic

/-!
# One replica's controller process

The state a `LocalController` keeps in memory, the part of its machine's Redis it uses, and the
steps of its threads: the agent code's stubs, the gRPC server's, the loop of `run`, the executor's
workers, the metrics loop, and the callbacks and timers of the forwards it sent. Each action is one
stretch of code that leaves the calls it touches in one place.
-/

namespace CanyonOS

/-- What the container's environment fixes for one replica. -/
structure Config where
  replicaId : String := ""
  stateful : Bool := false
  /-- the endpoint's controller, whose calls are questions to a person -/
  endpoint : Bool := false
  metricsInterval : Time := 5000000

/-- The keys of one machine's Redis that its controllers share. -/
structure Redis where
  future : FutureId → Record := fun _ => {}
  consumers : FutureId → List Address := fun _ => []
  /-- `execute:<address>:<future_id>:accepted`, which does not expire within a run. -/
  accepted : List (Address × FutureId) := []
  /-- `request:completed` -/
  completed : List RequestId := []
  /-- `controller:<address>:draining`, the removal time the reconciler set. -/
  draining : Address → Option Time := fun _ => none
  requestsServed : Address → Nat := fun _ => 0
  requestsCompleted : Address → Nat := fun _ => 0

def Redis.hset (redis : Redis) (futureId : FutureId) (fields : Record) : Redis :=
  { redis with
    future := Function.update redis.future futureId
      ((redis.future futureId).hsetMultiple fields) }

def Redis.isAccepted (redis : Redis) (address : Address) (futureId : FutureId) : Bool :=
  redis.accepted.contains (address, futureId)

@[simp]
theorem Redis.hset_future_self (redis : Redis) (futureId : FutureId) (fields : Record) :
    (redis.hset futureId fields).future futureId =
      (redis.future futureId).hsetMultiple fields := by
  simp [hset]

theorem Redis.hset_future_of_ne {redis : Redis} {futureId other : FutureId} {fields : Record}
    (hne : other ≠ futureId) : (redis.hset futureId fields).future other = redis.future other := by
  simp [hset, hne]

/-- How far the one pass of `_fail_unfinished` is. -/
inductive Pass where
  | notYet
  /-- `_failed_leftovers` is set -/
  | started
  /-- `_executor_futures` has been copied; the request queue is being emptied -/
  | collecting (unfinished : List Request)
  /-- all of them are in `_cut_off`; these are still to be marked failed -/
  | failing (unfinished : List Request)
deriving DecidableEq

/-- The calls cut off that the pass has still to mark failed. -/
def Pass.toFail : Pass → List FutureId
  | .failing unfinished => unfinished.map Request.futureId
  | _ => []

/-- The requests the pass holds. -/
def Pass.requests : Pass → List Request
  | .collecting unfinished | .failing unfinished => unfinished
  | _ => []

/-- The requests it has collected and not cut off yet. -/
def Pass.collected : Pass → List Request
  | .collecting unfinished => unfinished
  | _ => []

/-- The metrics thread is not inside `_fail_unfinished`. -/
def Pass.Idle (pass : Pass) : Prop :=
  pass = .notYet ∨ pass = .failing []

instance (pass : Pass) : Decidable pass.Idle :=
  inferInstanceAs (Decidable (_ ∨ _))

structure Replica where
  calls : Calls := {}
  openRequests : List RequestId := []
  forwarded : FutureId → Option Address := fun _ => none
  shutdownAt : Option Time := none
  draining : Bool := false
  refusing : Bool := false
  pass : Pass := .notYet
  cutOff : List FutureId := []
  /-- every request `Execute` answered as queued so far -/
  answered : List Request := []
  /-- every message given to `WriteResult` so far -/
  sent : List (Address × Record) := []

/-- One controller process beside its machine's Redis. -/
structure Process where
  redis : Redis := {}
  replica : Replica := {}

namespace Process

/-! ### Shared by several threads -/

def withCalls (process : Process) (calls : Calls) : Process :=
  { process with replica := { process.replica with calls } }

def move (process : Process) (move : Move) : Option Process :=
  (process.replica.calls.move move).map process.withCalls

def hset (process : Process) (futureId : FutureId) (fields : Record) : Process :=
  { process with redis := process.redis.hset futureId fields }

def addConsumer (process : Process) (futureId : FutureId) (address : Address) : Process :=
  { process with
    redis := { process.redis with
      consumers := Function.update process.redis.consumers futureId
        (process.redis.consumers futureId |>.insert address) } }

/-- Another controller's address: never this one's, and never the empty string an unset field
reads as. -/
def Elsewhere (me address : Address) : Prop :=
  address ≠ "" ∧ address ≠ me

instance (me address : Address) : Decidable (Elsewhere me address) :=
  inferInstanceAs (Decidable (_ ∧ _))

/-- The record as it stands, with this outcome written over it, for each address. -/
def resultMessages (redis : Redis) (addresses : List Address) (futureId : FutureId)
    (result : Option String) (failed : Bool) (errorMessage : String) : List (Address × Record) :=
  addresses.map fun address =>
    (address, resultMessage (redis.future futureId) futureId result failed errorMessage)

def sendResultCallback (process : Process) (addresses : List Address) (futureId : FutureId)
    (result : Option String) (failed : Bool) (errorMessage : String) : Process :=
  { process with
    replica := { process.replica with
      sent := process.replica.sent ++
        resultMessages process.redis addresses futureId result failed errorMessage } }

/-- Forgets the forward and sends the outcome to every other registered consumer. -/
def fanOutToConsumers (me : Address) (process : Process) (futureId : FutureId)
    (result : Option String) (failed : Bool) (errorMessage : String) : Process :=
  sendResultCallback
    { process with
      replica := { process.replica with
        forwarded := Function.update process.replica.forwarded futureId none } }
    ((process.redis.consumers futureId).filter (Elsewhere me)) futureId result failed errorMessage

/-- The request a record's call ends: the call's own, when it has no parent. -/
def rootRequest (requestId : Option RequestId) (parent : Option FutureId) : List RequestId :=
  if parent.getD "" = "" then requestId.toList.filter (· ≠ "") else []

def completeRequest (process : Process) (requestIds : List RequestId) : Process :=
  { process with
    redis := { process.redis with completed := requestIds ++ process.redis.completed } }

def markFutureFailed (me : Address) (process : Process) (futureId : FutureId) (error : Failure)
    (origin : Option Address := none) (errorName : Option String := none)
    (beforeStart : Option Time := none) : Process :=
  let record := process.redis.future futureId
  let message := error.errorMessage record
  let failed := process.hset futureId (failureFields record error errorName beforeStart)
  let completed := failed.completeRequest (rootRequest record.requestId record.parent)
  (completed.fanOutToConsumers me futureId none true message).sendResultCallback
    (origin.toList.filter (Elsewhere me)) futureId none true message

/-! ### The stub agent code calls through -/

def sendFailedMessage (request : Request) (reason : String) : String :=
  s!"Could not send the call to {request.service}.{request.function}: {reason}"

inductive StubAction where
  | create (call : Request)
  /-- `Execute` of this machine's controller did not answer the stub, whether it queued the call or
  not -/
  | submitFailed (call : Request) (reason : String)

def stubStep (process : Process) : StubAction → Option Process
  | .create call => some (process.hset call.futureId (createdFields call))
  | .submitFailed call reason =>
      some (process.hset call.futureId
        { error := some (sendFailedMessage call reason), failed := some true })

/-! ### The gRPC server -/

/-- What `Execute` does with a request. -/
inductive Admission where
  /-- UNAVAILABLE: the replica drains and the request was forwarded to it -/
  | aborted
  /-- the accepted-marker was there already -/
  | duplicate
  /-- governance refuses the call on its first hop -/
  | refused (errorName message : String)
  | queued
deriving DecidableEq

def admission (refusing alreadyAccepted : Bool) (request : Request)
    (refusal : Option (String × String)) : Admission :=
  if refusing && request.routeTo.isSome then .aborted
  else if alreadyAccepted then .duplicate
  else
    match refusal with
    | some (errorName, message) =>
        if request.routeTo.isNone then .refused errorName message else .queued
    | none => .queued

/-- A `WriteResult` payload: `_send_result_callback`, its note and the endpoint's answer all carry
an outcome. -/
structure ResultMessage where
  futureId : FutureId
  data : Record
  terminal : data.Terminal

inductive ServerAction where
  | execute (request : Request) (refusal : Option (String × String)) (now : Time)
  | put (request : Request)
  | writeResult (message : ResultMessage)
  /-- the relay of a result to a consumer of this machine could not be delivered -/
  | relayUndelivered (futureId : FutureId) (reason : String)
  | cleanup (requestId : RequestId)

/-- A request comes either from this process's own futures, with no hop behind it, or forwarded to
this very address. -/
def WellAddressed (me : Address) (request : Request) : Prop :=
  (request.routeTo = none ∧ request.origin = none) ∨ request.routeTo = some me

instance (me : Address) (request : Request) : Decidable (WellAddressed me request) :=
  inferInstanceAs (Decidable (_ ∨ _))

def execute (me : Address) (process : Process) (request : Request)
    (refusal : Option (String × String)) (now : Time) : Option Process :=
  let marked : Process :=
    { process with
      redis := { process.redis with
        accepted := (me, request.futureId) :: process.redis.accepted } }
  match admission process.replica.refusing (process.redis.isAccepted me request.futureId) request
    refusal with
  | .aborted => some process
  | .duplicate => some process
  | .refused errorName message =>
      some (marked.markFutureFailed me request.futureId (.message s!"{errorName}: {message}")
        request.origin (some errorName) (some now))
  | .queued => marked.move (.enter request)

def serverStep (me : Address) (process : Process) : ServerAction → Option Process
  | .execute request refusal now =>
      if WellAddressed me request then process.execute me request refusal now else none
  | .put request =>
      (process.move (.put request)).map fun queued =>
        { queued with
          replica := { queued.replica with answered := request :: queued.replica.answered } }
  | .writeResult message =>
      some ((process.hset message.futureId message.data).fanOutToConsumers me message.futureId
        message.data.result (message.data.failed.getD false) (message.data.error.getD ""))
  | .relayUndelivered futureId reason =>
      if (process.redis.future futureId).result.isSome then
        some (process.markFutureFailed me futureId (.message reason) none
          (some "ResultNotDelivered"))
      else none
  | .cleanup requestId =>
      some { process with
        replica := { process.replica with
          openRequests := process.replica.openRequests.filter (· ≠ requestId) } }

/-! ### The loop of `run` -/

/-- How `_process_request` ends for the request in hand. -/
inductive Verdict where
  /-- malformed, no replica, or a Future argument of another request -/
  | refused (error errorName : String) (now : Time)
  /-- an exception, which `run` catches -/
  | raised (error : Failure)
  /-- a question, listed for the person at the endpoint -/
  | held
  /-- the address is this replica's own -/
  | local
  | forwarded (address : Address)

inductive LoopAction where
  | take
  /-- the replica the request in hand goes to is registered for one of its Future arguments -/
  | registerConsumer (futureId : FutureId) (address : Address)
  | process (verdict : Verdict)
  | register
  | taskDone

/-- A stateful replica keeps the requests whose calls are bound to it. -/
def boundRequests (config : Config) (process : Process) (request : Request) : List RequestId :=
  match request.requestId with
  | some requestId =>
      if config.stateful then process.replica.openRequests.insert requestId
      else process.replica.openRequests
  | none => process.replica.openRequests

/-- `_process_request`, for the request in hand. -/
def processRequest (me : Address) (config : Config) (process : Process) (request : Request) :
    Verdict → Option Process
  | .refused error errorName now =>
      (process.move .settle).map fun done =>
        done.markFutureFailed me request.futureId (.message error) request.origin
          (some errorName) (some now)
  | .raised error =>
      (process.move .settle).map fun done =>
        done.markFutureFailed me request.futureId error request.origin
  | .held =>
      if config.endpoint then
        (process.move .settle).map fun done =>
          (done.hset request.futureId
            { initialFields request with failed := none, error := none }).addConsumer
              request.futureId (request.origin.getD "")
      else none
  | .local =>
      if request.routeTo = none ∨ request.routeTo = some me then
        (process.move .submit).map fun submitted =>
          { submitted with
            replica := { submitted.replica with
              openRequests := process.boundRequests config request } }
      else none
  | .forwarded address =>
      if address ≠ me ∧ (request.routeTo = none ∨ request.routeTo = some address) then
        (process.move (.handOn me address)).map fun sent =>
          { sent with
            replica := { sent.replica with
              forwarded :=
                Function.update process.replica.forwarded request.futureId (some address) } }
      else none

def loopStep (me : Address) (config : Config) (process : Process) : LoopAction → Option Process
  | .take => process.move .take
  | .registerConsumer futureId address =>
      match process.replica.calls.hand with
      | some (_, .taken) =>
          let registered := process.addConsumer futureId address
          match (process.redis.future futureId).result with
          | some result =>
              some (registered.sendResultCallback [address] futureId (some result) false "")
          | none => some registered
      | _ => none
  | .process verdict =>
      match process.replica.calls.hand with
      | some (request, .taken) => process.processRequest me config request verdict
      | _ => none
  | .register => process.move .register
  | .taskDone => process.move .taskDone

/-! ### The executor's workers -/

/-- What a worker does next with its call. -/
inductive Work where
  | start
  /-- no agent is loaded, or it has no such method -/
  | refuse (error errorName : String)
  | serve
  | returns (serialized : String)
  | raises (error : Failure)
  | store
  | settle
  /-- the result could not be delivered to a consumer or to the origin -/
  | undelivered (reason : String)
  | stamp (measured : Measured)
  | count
  | report

inductive WorkerAction where
  | dequeue
  | work (call : Request) (stage : Stage) (work : Work)
  | retire (call : Request)
  | forget (call : Request)

/-- Where the end of a call is reported: its origin, when that is another controller and the call
was not cut off. -/
def reportsTo (me : Address) (process : Process) (call : Request) : Option Address :=
  call.origin.filter fun origin => Elsewhere me origin ∧ call.futureId ∉ process.replica.cutOff

/-- `_execute_locally`, from one stage to the next. -/
def workStep (me : Address) (config : Config) (process : Process) (call : Request) :
    Stage → Work → Option (Stage × Process)
  | .dequeued, .start => some (.started, process.hset call.futureId (initialFields call))
  | .started, .refuse error errorName =>
      some (.reported, process.markFutureFailed me call.futureId (.message error) call.origin
        (some errorName))
  | .started, .serve =>
      some (.running,
        { process with
          redis := { process.redis with
            requestsServed := Function.update process.redis.requestsServed me
              (process.redis.requestsServed me + 1) } })
  | .running, .returns serialized =>
      if call.futureId ∈ process.replica.cutOff then some (.finishing none, process)
      else some (.returned serialized, process)
  | .running, .raises error =>
      some (.finishing none, process.markFutureFailed me call.futureId error)
  | .returned serialized, .store =>
      some (.stored serialized, process.hset call.futureId { result := some serialized })
  | .stored serialized, .settle =>
      some (.finishing (some serialized),
        (process.hset call.futureId { failed := some false }).fanOutToConsumers me call.futureId
          (some serialized) false "")
  | .finishing (some serialized), .undelivered reason =>
      some (.finishing (some serialized), process.markFutureFailed me call.futureId
        (.message reason) none (some "ResultNotDelivered"))
  | .finishing result, .stamp measured =>
      some (.stamped result, process.hset call.futureId (finishedFields config.replicaId measured))
  | .stamped result, .count =>
      some (.counted result,
        { process with
          redis := { process.redis with
            requestsCompleted := Function.update process.redis.requestsCompleted me
              (process.redis.requestsCompleted me + 1) } })
  | .counted (some _), .undelivered reason =>
      if (reportsTo me process call).isSome then
        some (.reported, (process.markFutureFailed me call.futureId (.message reason) none
          (some "ResultNotDelivered")).completeRequest (rootRequest call.requestId call.parent))
      else none
  | .counted result, .report =>
      match reportsTo me process call, result with
      | some origin, some serialized =>
          some (.reported, (process.sendResultCallback [origin] call.futureId (some serialized)
            false "").completeRequest (rootRequest call.requestId call.parent))
      | some origin, none =>
          let message := (process.redis.future call.futureId).error.getD ""
          some (.reported, (process.sendResultCallback [origin] call.futureId none true
            message).completeRequest (rootRequest call.requestId call.parent))
      | none, _ =>
          some (.reported, process.completeRequest (rootRequest call.requestId call.parent))
  | _, _ => none

def workerStep (me : Address) (config : Config) (process : Process) :
    WorkerAction → Option Process
  | .dequeue => process.move .dequeue
  | .work call stage work =>
      match workStep me config process call stage work with
      | some (stage', done) => done.move (.work call stage stage')
      | none => none
  | .retire call => process.move (.retire call)
  | .forget call => process.move (.forget call)

/-! ### The metrics loop -/

inductive MetricsAction where
  /-- the reconciler sets the replica's removal time -/
  | drain (removeAt : Time)
  /-- SIGTERM does, for this process only -/
  | drainUntil (removeAt : Time)
  | tick (now : Time)
  | failUnfinished
  | collect
  | cutOff
  | failLeftover
  /-- a call this replica handed on is lost with the replica that had it -/
  | failGone (futureId : FutureId)

def removeAt (me : Address) (process : Process) : Option Time :=
  process.replica.shutdownAt.or (process.redis.draining me)

/-- Two heartbeats before the removal the leftovers are failed, once. -/
def leftoversDue (me : Address) (config : Config) (process : Process) (now : Time) : Prop :=
  process.replica.pass = .notYet ∧
    ∃ time ∈ process.removeAt me, time - 2 * config.metricsInterval ≤ now

instance (me : Address) (config : Config) (process : Process) (now : Time) :
    Decidable (leftoversDue me config process now) :=
  inferInstanceAs (Decidable (_ ∧ _))

def removedMessage (call : Request) : String :=
  s!"{call.service}.{call.function} stopped before it finished: its replica " ++
    "was removed (scaled down or replaced)."

def goneMessage (record : Record) : String :=
  s!"{record.callName} stopped before it finished: " ++
    "its replica is gone (its machine may have stopped)."

def metricsStep (me : Address) (config : Config) (process : Process) :
    MetricsAction → Option Process
  | .drain time =>
      some { process with
        redis := { process.redis with
          draining := Function.update process.redis.draining me (some time) } }
  | .drainUntil time =>
      some { process with
        replica := { process.replica with
          shutdownAt := process.replica.shutdownAt.or (some time) } }
  | .tick now =>
      if process.replica.pass.Idle then
        some { process with
          replica := { process.replica with
            draining := (process.removeAt me).isSome
            refusing := (process.removeAt me).isSome && !config.stateful
            pass :=
              if leftoversDue me config process now then .started else process.replica.pass } }
      else none
  | .failUnfinished =>
      match process.replica.pass with
      | .started =>
          some { process with
            replica := { process.replica with
              pass := .collecting process.replica.calls.executorFutures } }
      | _ => none
  | .collect =>
      match process.replica.pass, process.replica.calls.requestQueue with
      | .collecting unfinished, request :: _ =>
          (process.move .collect).map fun collected =>
            { collected with
              replica := { collected.replica with
                pass := .collecting (unfinished ++ [request]) } }
      | _, _ => none
  | .cutOff =>
      match process.replica.pass, process.replica.calls.requestQueue with
      | .collecting unfinished, [] =>
          some { process with
            replica := { process.replica with
              cutOff := unfinished.map Request.futureId ++ process.replica.cutOff
              pass := .failing unfinished } }
      | _, _ => none
  | .failLeftover =>
      match process.replica.pass with
      | .failing (call :: rest) =>
          some (({ process with replica := { process.replica with pass := .failing rest } } :
              Process).markFutureFailed me call.futureId (.message (removedMessage call))
            call.origin (some "ReplicaRemovedError"))
      | _ => none
  | .failGone futureId =>
      if process.replica.pass.Idle ∧ (process.replica.forwarded futureId).isSome then
        some (process.markFutureFailed me futureId
          (.message (goneMessage (process.redis.future futureId))) none
          (some "ReplicaRemovedError"))
      else none

/-! ### Forwards -/

def forwardRetries : Nat := 8

inductive ForwardAction where
  | onForwarded (request : Request) (status : Status) (replicas : Nat)
  | resend (request : Request)
  | countDown

def noAnswerReason (request : Request) (replicas : Nat) : String :=
  s!"it didn't answer in time ({request.retries + 1} tries across its {replicas} replica(s))"

/-- The replica did not answer: send the request again, unless its retries are used up or its call
settled meanwhile. -/
def retry (me : Address) (process : Process) (request : Request) (status : Status)
    (replicas : Nat) : Option Process :=
  if forwardRetries < request.retries + 1 then
    (process.move (.answered request)).map fun ended =>
      ended.markFutureFailed me request.futureId
        (.message (sendFailedMessage request (noAnswerReason request replicas))) none
        (some "SendFailed")
  else if (process.replica.forwarded request.futureId).isNone then
    process.move (.answered request)
  else if request.retries + 1 = 1 then process.move (.requeue request status)
  else process.move (.backOff request status)

def onForwarded (me : Address) (process : Process) (request : Request) (replicas : Nat) :
    Status → Option Process
  | .ok => process.move (.answered request)
  | .other details =>
      (process.move (.answered request)).map fun ended =>
        ended.markFutureFailed me request.futureId (.message (sendFailedMessage request details))
          none (some "SendFailed")
  | .unavailable => process.retry me request .unavailable replicas
  | .deadlineExceeded => process.retry me request .deadlineExceeded replicas

def forwardStep (me : Address) (process : Process) : ForwardAction → Option Process
  | .onForwarded request status replicas => process.onForwarded me request replicas status
  | .resend request =>
      if (process.replica.forwarded request.futureId).isSome then process.move (.resend request)
      else process.move (.giveUp request)
  | .countDown => process.move .countDown

/-! ### The process -/

inductive Action where
  | stub (action : StubAction)
  | server (action : ServerAction)
  | loop (action : LoopAction)
  | worker (action : WorkerAction)
  | metrics (action : MetricsAction)
  | forward (action : ForwardAction)

def step (me : Address) (config : Config) (process : Process) : Action → Option Process
  | .stub action => process.stubStep action
  | .server action => process.serverStep me action
  | .loop action => process.loopStep me config action
  | .worker action => process.workerStep me config action
  | .metrics action => process.metricsStep me config action
  | .forward action => process.forwardStep me action

end Process

end CanyonOS
