import CanyonOS.Record

/-!
# Where a controller's calls are

The containers a `LocalController` passes its calls through, with the two counters kept beside
them, and the moves between them. A request is put on the queue by `Execute`, taken by `run`, and
then handed to the executor or sent on to another replica; a forward that gets no answer comes back.
-/

namespace CanyonOS

/-- Where the request in `run`'s hands is: taken off the queue, submitted to the executor but not
yet noted in `_executor_futures`, or processed and about to be counted done. -/
inductive HandStage where
  | taken
  | submitted
  | processed
deriving DecidableEq

/-- How far a worker thread is with a call. -/
inductive Stage where
  /-- taken off the executor's queue, nothing written -/
  | dequeued
  /-- the initial fields are written -/
  | started
  /-- counted in `requests_served`; the arguments are awaited or the method runs -/
  | running
  /-- the method returned and the call was not cut off: the result is about to be written -/
  | returned (serialized : String)
  /-- `result` is written, `failed` is not -/
  | stored (serialized : String)
  /-- in the `finally` block, with the result if the call succeeded -/
  | finishing (result : Option String)
  /-- `finished_at` is written -/
  | stamped (result : Option String)
  /-- counted in `requests_completed` -/
  | counted (result : Option String)
  /-- nothing left to do but to end the task -/
  | reported
deriving DecidableEq

/-- How a forward ended for its sender. -/
inductive Status where
  | ok
  | unavailable
  | deadlineExceeded
  | other (details : String)
deriving DecidableEq

/-- The request as it is queued again: a replica never reached is not pinned any more. -/
def retryRequest (request : Request) (status : Status) : Request :=
  { request with
    retries := request.retries + 1
    routeTo := if status = .unavailable then none else request.routeTo }

@[simp]
theorem retryRequest_futureId (request : Request) (status : Status) :
    (retryRequest request status).futureId = request.futureId := rfl

structure Calls where
  /-- requests whose `Execute` is past its checks and about to queue them -/
  entering : List Request := []
  requestQueue : List Request := []
  unfinishedTasks : Nat := 0
  hand : Option (Request × HandStage) := none
  /-- the executor's own queue -/
  workQueue : List Request := []
  workers : List (Request × Stage) := []
  executorFutures : List Request := []
  /-- forwards sent whose answer is not in -/
  attempts : List Request := []
  /-- forwards waiting for their backoff to end -/
  backoffs : List Request := []
  unsent : Int := 0
  /-- threads done with a forward that have not yet counted `_unsent` down -/
  countingDown : Nat := 0

inductive Move where
  | enter (request : Request)
  | put (request : Request)
  | take
  | settle
  | submit
  | handOn (me address : Address)
  | register
  | taskDone
  | dequeue
  | work (call : Request) (stage stage' : Stage)
  | retire (call : Request)
  | forget (call : Request)
  | collect
  | answered (request : Request)
  | requeue (request : Request) (status : Status)
  | backOff (request : Request) (status : Status)
  | resend (request : Request)
  | giveUp (request : Request)
  | countDown

namespace Calls

/-- `queue.Queue.put` -/
def put (calls : Calls) (request : Request) : Calls :=
  { calls with
    requestQueue := calls.requestQueue ++ [request]
    unfinishedTasks := calls.unfinishedTasks + 1 }

/-- An attempt is over; its thread has still to count it down. -/
def endAttempt (calls : Calls) (request : Request) : Calls :=
  { calls with
    attempts := calls.attempts.erase request
    countingDown := calls.countingDown + 1 }

def endBackoff (calls : Calls) (request : Request) : Calls :=
  { calls with
    backoffs := calls.backoffs.erase request
    countingDown := calls.countingDown + 1 }

/-- The request `_forward_request` sends, tagged with its sender and pinned to its target. -/
def forwardedRequest (me address : Address) (request : Request) : Request :=
  { request with origin := some me, routeTo := some address }

def move (calls : Calls) : Move → Option Calls
  | .enter request => some { calls with entering := calls.entering ++ [request] }
  | .put request =>
      if request ∈ calls.entering then
        some ({ calls with entering := calls.entering.erase request }.put request)
      else none
  | .take =>
      match calls.hand, calls.requestQueue with
      | none, request :: rest =>
          some { calls with requestQueue := rest, hand := some (request, .taken) }
      | _, _ => none
  | .settle =>
      match calls.hand with
      | some (request, .taken) => some { calls with hand := some (request, .processed) }
      | _ => none
  | .submit =>
      match calls.hand with
      | some (request, .taken) =>
          some { calls with
            workQueue := calls.workQueue ++ [request]
            hand := some (request, .submitted) }
      | _ => none
  | .handOn me address =>
      match calls.hand with
      | some (request, .taken) =>
          some { calls with
            hand := some (request, .processed)
            attempts := forwardedRequest me address request :: calls.attempts
            unsent := calls.unsent + 1 }
      | _ => none
  | .register =>
      match calls.hand with
      | some (request, .submitted) =>
          some { calls with
            executorFutures := calls.executorFutures ++ [request]
            hand := some (request, .processed) }
      | _ => none
  | .taskDone =>
      match calls.hand with
      | some (_, .processed) =>
          some { calls with hand := none, unfinishedTasks := calls.unfinishedTasks - 1 }
      | _ => none
  | .dequeue =>
      match calls.workQueue with
      | call :: rest =>
          some { calls with workQueue := rest, workers := (call, .dequeued) :: calls.workers }
      | [] => none
  | .work call stage stage' =>
      if (call, stage) ∈ calls.workers then
        some { calls with workers := (call, stage') :: calls.workers.erase (call, stage) }
      else none
  | .retire call =>
      if (call, .reported) ∈ calls.workers then
        some { calls with workers := calls.workers.erase (call, .reported) }
      else none
  | .forget call =>
      if call ∈ calls.executorFutures ∧ call ∉ calls.workQueue ∧
          ∀ worker ∈ calls.workers, worker.1 ≠ call then
        some { calls with executorFutures := calls.executorFutures.erase call }
      else none
  | .collect =>
      match calls.requestQueue with
      | _ :: rest =>
          some { calls with requestQueue := rest, unfinishedTasks := calls.unfinishedTasks - 1 }
      | [] => none
  | .answered request =>
      if request ∈ calls.attempts then some (calls.endAttempt request) else none
  | .requeue request status =>
      if request ∈ calls.attempts then
        some ((calls.endAttempt request).put (retryRequest request status))
      else none
  | .backOff request status =>
      if request ∈ calls.attempts then
        some { calls with
          attempts := calls.attempts.erase request
          backoffs := retryRequest request status :: calls.backoffs }
      else none
  | .resend request =>
      if request ∈ calls.backoffs then some ((calls.endBackoff request).put request) else none
  | .giveUp request =>
      if request ∈ calls.backoffs then some (calls.endBackoff request) else none
  | .countDown =>
      if 0 < calls.countingDown then
        some { calls with
          countingDown := calls.countingDown - 1
          unsent := calls.unsent - 1 }
      else none

variable {calls next : Calls} {move : Move}

/-- A worker seen after a move was there before, is new, or was just moved on. -/
theorem mem_workers_of_move (hmove : calls.move move = some next) {worker : Request × Stage}
    (hworker : worker ∈ next.workers) :
    worker ∈ calls.workers ∨ worker.2 = .dequeued ∨
      ∃ stage, move = .work worker.1 stage worker.2 := by
  cases move with
  | dequeue =>
      simp only [Calls.move] at hmove
      split at hmove <;> cases hmove
      rcases List.mem_cons.mp hworker with rfl | hold
      · exact Or.inr (Or.inl rfl)
      · exact Or.inl hold
  | work call stage stage' =>
      simp only [Calls.move] at hmove
      split_ifs at hmove
      cases hmove
      rcases List.mem_cons.mp hworker with rfl | hold
      · exact Or.inr (Or.inr ⟨stage, rfl⟩)
      · exact Or.inl (List.mem_of_mem_erase hold)
  | retire call =>
      simp only [Calls.move] at hmove
      split_ifs at hmove
      cases hmove
      exact Or.inl (List.mem_of_mem_erase hworker)
  | enter =>
      cases hmove
      exact Or.inl hworker
  | put | forget | answered | requeue | backOff | resend | giveUp | countDown =>
      simp only [Calls.move] at hmove
      split_ifs at hmove
      cases hmove
      exact Or.inl hworker
  | take | settle | submit | handOn | register | taskDone | collect =>
      simp only [Calls.move] at hmove
      split at hmove <;> cases hmove
      exact Or.inl hworker

end Calls

end CanyonOS
