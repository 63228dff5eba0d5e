import CanyonOS.Controller.Counters
import CanyonOS.Controller.Custody

/-!
# Sending a call again

What becomes of a forward: how often its call is sent, how the attempts end, and what `_unsent`
counts of them, over every interleaving with the rest of the controller. Kept beside the process are
the sends so far, the calls whose outcome has been recorded, the endings, and whose threads have
still to count `_unsent` down.
-/

namespace CanyonOS

namespace Calls

/-- A move by which the controller is through with sending a copy. -/
def concluded (calls : Calls) (futureId : FutureId) : Move → ℕ
  | .settle | .submit => inHand futureId calls.hand
  | .collect => ofFuture futureId calls.requestQueue.head?.toList
  | .answered request | .giveUp request => oneOf futureId request
  | _ => 0

/-- Whose forward a thread is done with and has still to count down. -/
def endsForward : Move → List FutureId
  | .answered request | .requeue request _ | .resend request | .giveUp request =>
      [request.futureId]
  | _ => []

variable {calls next : Calls} {move : Move}

/-- Every copy that comes in is still to be sent, or the controller is through with it. -/
theorem move_routable_eq (hmove : calls.move move = some next) (futureId : FutureId) :
    next.routable futureId + calls.concluded futureId move =
      calls.routable futureId + entered futureId move := by
  cases move with
  | enter request =>
      cases hmove
      simp [routable, concluded, entered]
      omega
  | put request =>
      simp only [Calls.move] at hmove
      split_ifs at hmove with hmem
      cases hmove
      have hcount := ofFuture_erase hmem futureId
      simp [routable, concluded, entered, Calls.put]
      omega
  | take =>
      simp only [Calls.move] at hmove
      split at hmove <;> cases hmove
      rename_i hhand hqueue
      simp [routable, concluded, entered, inHand, hhand, hqueue]
      omega
  | settle | submit | handOn =>
      simp only [Calls.move] at hmove
      split at hmove <;> cases hmove
      rename_i hhand
      simp [routable, concluded, entered, inHand, hhand]
      omega
  | register | taskDone =>
      simp only [Calls.move] at hmove
      split at hmove <;> cases hmove
      rename_i hhand
      simp [routable, concluded, entered, inHand, hhand]
  | dequeue =>
      simp only [Calls.move] at hmove
      split at hmove <;> cases hmove
      simp [routable, concluded, entered]
  | work | retire | forget | countDown =>
      simp only [Calls.move] at hmove
      split_ifs at hmove
      cases hmove
      simp [routable, concluded, entered]
  | collect =>
      simp only [Calls.move] at hmove
      split at hmove <;> cases hmove
      rename_i hqueue
      simp [routable, concluded, entered, hqueue]
      omega
  | answered request | requeue request | backOff request =>
      simp only [Calls.move] at hmove
      split_ifs at hmove with hmem
      cases hmove
      have hcount := ofFuture_erase hmem futureId
      simp [routable, concluded, entered, endAttempt, Calls.put]
      omega
  | resend request | giveUp request =>
      simp only [Calls.move] at hmove
      split_ifs at hmove with hmem
      cases hmove
      have hcount := ofFuture_erase hmem futureId
      simp [routable, concluded, entered, endBackoff, Calls.put]
      omega

theorem countingDown_of_move (hmove : calls.move move = some next) (hother : move ≠ .countDown) :
    next.countingDown = calls.countingDown + (endsForward move).length := by
  cases move with
  | countDown => exact absurd rfl hother
  | enter =>
      cases hmove
      rfl
  | put | work | retire | forget | answered | requeue | backOff | resend | giveUp =>
      simp only [Calls.move] at hmove
      split_ifs at hmove
      cases hmove
      rfl
  | take | settle | submit | handOn | register | taskDone | dequeue | collect =>
      simp only [Calls.move] at hmove
      split at hmove <;> cases hmove
      rfl

/-- The requests that have been sent less often than they may be, when they are to be sent at
all. -/
def waiting (calls : Calls) : List Request :=
  calls.entering ++ calls.requestQueue ++ inHands calls.hand ++ calls.backoffs

theorem mem_attempts_of_move (hmove : calls.move move = some next) {request : Request}
    (hrequest : request ∈ next.attempts) :
    request ∈ calls.attempts ∨ ∃ me address routed, move = .handOn me address ∧
      calls.hand = some (routed, .taken) ∧ request = forwardedRequest me address routed := by
  cases move with
  | handOn me address =>
      simp only [Calls.move] at hmove
      split at hmove <;> cases hmove
      rename_i routed hhand
      rcases List.mem_cons.mp hrequest with rfl | hold
      · exact .inr ⟨me, address, routed, rfl, hhand, rfl⟩
      · exact .inl hold
  | enter =>
      cases hmove
      exact .inl hrequest
  | answered | requeue | backOff =>
      simp only [Calls.move] at hmove
      split_ifs at hmove
      cases hmove
      exact .inl (List.mem_of_mem_erase hrequest)
  | put | work | retire | forget | resend | giveUp | countDown =>
      simp only [Calls.move] at hmove
      split_ifs at hmove
      cases hmove
      exact .inl hrequest
  | take | settle | submit | register | taskDone | dequeue | collect =>
      simp only [Calls.move] at hmove
      split at hmove <;> cases hmove
      exact .inl hrequest

theorem mem_backoffs_of_move (hmove : calls.move move = some next) {request : Request}
    (hrequest : request ∈ next.backoffs) :
    request ∈ calls.backoffs ∨ ∃ sent ∈ calls.attempts, ∃ status,
      move = .backOff sent status ∧ request = retryRequest sent status := by
  cases move with
  | backOff sent status =>
      simp only [Calls.move] at hmove
      split_ifs at hmove with hmem
      cases hmove
      rcases List.mem_cons.mp hrequest with rfl | hold
      · exact .inr ⟨sent, hmem, status, rfl, rfl⟩
      · exact .inl hold
  | enter =>
      cases hmove
      exact .inl hrequest
  | resend | giveUp =>
      simp only [Calls.move] at hmove
      split_ifs at hmove
      cases hmove
      exact .inl (List.mem_of_mem_erase hrequest)
  | put | work | retire | forget | answered | requeue | countDown =>
      simp only [Calls.move] at hmove
      split_ifs at hmove
      cases hmove
      exact .inl hrequest
  | take | settle | submit | handOn | register | taskDone | dequeue | collect =>
      simp only [Calls.move] at hmove
      split at hmove <;> cases hmove
      exact .inl hrequest

/-- A request that waits was waiting before, has come in, or is sent again. -/
theorem mem_waiting_of_move (hmove : calls.move move = some next) {request : Request}
    (hrequest : request ∈ next.waiting) :
    request ∈ calls.waiting ∨ move = .enter request ∨
      ∃ sent ∈ calls.attempts, ∃ status, (move = .requeue sent status ∨
        move = .backOff sent status) ∧ request = retryRequest sent status := by
  cases move with
  | enter other =>
      cases hmove
      simp only [waiting, List.mem_append, List.mem_singleton] at hrequest ⊢
      grind
  | put other =>
      simp only [Calls.move] at hmove
      split_ifs at hmove with hmem
      cases hmove
      simp only [waiting, Calls.put, List.mem_append, List.mem_singleton] at hrequest ⊢
      grind [List.mem_of_mem_erase]
  | take =>
      simp only [Calls.move] at hmove
      split at hmove <;> cases hmove
      rename_i hhand hqueue
      simp only [waiting, hhand, hqueue, inHands, List.mem_append, List.mem_cons] at hrequest ⊢
      grind
  | settle | submit | handOn | register | taskDone =>
      simp only [Calls.move] at hmove
      split at hmove <;> cases hmove
      rename_i hhand
      simp only [waiting, hhand, inHands, List.append_nil, List.mem_append] at hrequest ⊢
      grind
  | dequeue =>
      simp only [Calls.move] at hmove
      split at hmove <;> cases hmove
      exact .inl hrequest
  | collect =>
      simp only [Calls.move] at hmove
      split at hmove <;> cases hmove
      rename_i hqueue
      simp only [waiting, hqueue, List.mem_append, List.mem_cons] at hrequest ⊢
      grind
  | work | retire | forget | answered | countDown =>
      simp only [Calls.move] at hmove
      split_ifs at hmove
      cases hmove
      exact .inl hrequest
  | requeue sent status =>
      simp only [Calls.move] at hmove
      split_ifs at hmove with hmem
      cases hmove
      simp only [waiting, Calls.put, endAttempt, List.mem_append, List.mem_singleton] at hrequest ⊢
      grind
  | backOff sent status =>
      simp only [Calls.move] at hmove
      split_ifs at hmove with hmem
      cases hmove
      simp only [waiting, List.mem_append, List.mem_cons] at hrequest ⊢
      grind
  | resend | giveUp =>
      simp only [Calls.move] at hmove
      split_ifs at hmove with hmem
      cases hmove
      simp only [waiting, Calls.put, endBackoff, List.mem_append, List.mem_singleton]
        at hrequest ⊢
      grind [List.mem_of_mem_erase]

end Calls

namespace Retries

open Process

/-! ### What is kept beside the process -/

/-- How the attempts to send a call end. -/
inductive Ending where
  /-- the replica it was sent to took it -/
  | accepted
  /-- it was routed to this replica itself -/
  | here
  | markedFailed
  /-- there was nothing left to send -/
  | dropped
  /-- the drain took it off the queue, to fail it -/
  | drained
deriving DecidableEq

def verdictEnding : Verdict → Option Ending
  | .refused .. | .raised _ => some .markedFailed
  | .held | .local => some .here
  | .forwarded _ => none

def noAnswerEnding (process : Process) (request : Request) : Option Ending :=
  if forwardRetries < request.retries + 1 then some .markedFailed
  else if (process.replica.forwarded request.futureId).isNone then some .dropped
  else none

def statusEnding (process : Process) (request : Request) : Status → Option Ending
  | .ok => some .accepted
  | .other _ => some .markedFailed
  | .unavailable | .deadlineExceeded => noAnswerEnding process request

def endingOf (process : Process) : Action → Option (FutureId × Ending)
  | .loop (.process verdict) =>
      process.replica.calls.hand.bind fun hand =>
        (verdictEnding verdict).map fun ending => (hand.1.futureId, ending)
  | .metrics .collect =>
      process.replica.calls.requestQueue.head?.map fun request => (request.futureId, .drained)
  | .forward (.onForwarded request status _) =>
      (statusEnding process request status).map fun ending => (request.futureId, ending)
  | .forward (.resend request) =>
      if (process.replica.forwarded request.futureId).isSome then none
      else some (request.futureId, .dropped)
  | _ => none

/-- An ending, with how often the call had been sent and whether its outcome was recorded before. -/
structure Ended where
  futureId : FutureId
  ending : Ending
  sends : ℕ
  settled : Bool
deriving DecidableEq

structure Sender where
  process : Process
  sends : FutureId → ℕ
  settled : FutureId → Bool
  ended : List Ended := []
  counting : List FutureId := []

/-- An action, and whose thread counts down when it is `countDown`. -/
structure Event where
  action : Action
  thread : FutureId := ""

def Event.of (action : Action) : Event where
  action := action

/-- A stub submits a call that has not been sent before. -/
def Allowed (sender : Sender) (event : Event) : Prop :=
  match event.action with
  | .server (.execute request _ _) => request.routeTo = none → request.retries = 0
  | .forward .countDown => event.thread ∈ sender.counting
  | _ => True

instance (sender : Sender) (event : Event) : Decidable (Allowed sender event) :=
  match event with
  | ⟨.server (.execute request _ _), _⟩ =>
      inferInstanceAs (Decidable (request.routeTo = none → request.retries = 0))
  | ⟨.forward .countDown, thread⟩ => inferInstanceAs (Decidable (thread ∈ sender.counting))
  | ⟨.server (.put _), _⟩ | ⟨.server (.writeResult _), _⟩ | ⟨.server (.relayUndelivered ..), _⟩
  | ⟨.server (.cleanup _), _⟩ | ⟨.forward (.onForwarded ..), _⟩ | ⟨.forward (.resend _), _⟩
  | ⟨.stub _, _⟩ | ⟨.loop _, _⟩ | ⟨.worker _, _⟩ | ⟨.metrics _, _⟩ => isTrue trivial

def sentBy (process : Process) (futureId : FutureId) : Action → ℕ
  | .loop (.process (.forwarded _)) => Calls.inHand futureId process.replica.calls.hand
  | _ => 0

def countingAfter (me : Address) (config : Config) (sender : Sender) (event : Event) :
    List FutureId :=
  match event.action with
  | .forward .countDown => sender.counting.erase event.thread
  | action =>
      (moveOf me config sender.process action).toList.flatMap Calls.endsForward ++ sender.counting

def Sender.after (me : Address) (config : Config) (sender : Sender) (event : Event)
    (next : Process) : Sender where
  process := next
  sends futureId := sender.sends futureId + sentBy sender.process futureId event.action
  settled futureId := sender.settled futureId || decide (next.redis.future futureId).Terminal
  ended :=
    ((endingOf sender.process event.action).toList.map fun ended =>
      { futureId := ended.1
        ending := ended.2
        sends := sender.sends ended.1
        settled := sender.settled ended.1 }) ++ sender.ended
  counting := countingAfter me config sender event

def Sender.step (me : Address) (config : Config) (sender : Sender) (event : Event) :
    Option Sender :=
  if Allowed sender event then
    (sender.process.step me config event.action).map (sender.after me config event)
  else none

def system (me : Address) (config : Config) : TransitionSystem Sender Event where
  step sender event := sender.step me config event

/-- A controller that has just started, beside the Redis of its machine. -/
def Sender.init (redis : Redis) : Sender where
  process := { redis }
  sends _ := 0
  settled futureId := decide (redis.future futureId).Terminal

/-! ### What is claimed of every state -/

namespace Sender

variable (sender : Sender)

def calls : Calls :=
  sender.process.replica.calls

/-- How often the attempts to send the call have ended. -/
def endings (futureId : FutureId) : ℕ :=
  sender.ended.countP (·.futureId = futureId)

/-- What the call adds to `_unsent`: its attempt, its backoff, and the threads that are done with
one of them and have still to count it down. -/
def owed (futureId : FutureId) : ℕ :=
  ofFuture futureId sender.calls.attempts + ofFuture futureId sender.calls.backoffs +
    sender.counting.countP (· = futureId)

def owedByOthers (futureId : FutureId) : ℕ :=
  sender.calls.attempts.countP (¬ ·.futureId = futureId) +
    sender.calls.backoffs.countP (¬ ·.futureId = futureId) +
      sender.counting.countP (¬ · = futureId)

/-- Forwards are bounded and accounted for. -/
structure Accounted : Prop where
  sends : ∀ futureId, sender.sends futureId ≤ forwardRetries + 1
  /-- a call that was sent is still on its way through this controller, or its attempts have ended,
  once -/
  ends : ∀ futureId, 0 < sender.sends futureId →
    sender.calls.routable futureId + sender.endings futureId = 1
  dropped : ∀ ended ∈ sender.ended, ended.ending = .dropped → ended.settled = true
  nonneg : 0 ≤ sender.calls.unsent
  pending : ∀ request, request ∈ sender.calls.attempts ∨ request ∈ sender.calls.backoffs →
    1 ≤ sender.calls.unsent
  /-- without the call's own part `_unsent` is what the other calls make it -/
  balance : ∀ futureId,
    sender.calls.unsent = sender.owed futureId + sender.owedByOthers futureId

/-- A call that was sent is marked failed at the end of its attempts only while it has no
outcome. -/
def FailedOnce : Prop :=
  ∀ ended ∈ sender.ended, ended.ending = .markedFailed → 0 < ended.sends → ended.settled = false

end Sender

/-- The call an action gives up: the send failed for another reason than no answer, its retries are
used up, or it was refused when it was routed again. -/
def givesUpOn (process : Process) : Action → Option FutureId
  | .forward (.onForwarded request (.other _) _) => some request.futureId
  | .forward (.onForwarded request .unavailable _)
  | .forward (.onForwarded request .deadlineExceeded _) =>
      if forwardRetries < request.retries + 1 then some request.futureId else none
  | .loop (.process (.refused ..)) | .loop (.process (.raised _)) =>
      process.replica.calls.hand.map fun hand => hand.1.futureId
  | _ => none

/-- No call that was sent is given up once its outcome is recorded. -/
def Heeded (sender : Sender) (event : Event) : Prop :=
  ∀ futureId ∈ givesUpOn sender.process event.action,
    0 < sender.sends futureId → sender.settled futureId = false

instance (sender : Sender) (event : Event) : Decidable (Heeded sender event) :=
  inferInstanceAs (Decidable (∀ futureId ∈ givesUpOn sender.process event.action, _ → _))

/-! ### One step -/

section Step

variable {me : Address} {config : Config} {process next : Process} {action : Action}

def endedBy (process : Process) (futureId : FutureId) (action : Action) : ℕ :=
  (endingOf process action).toList.countP fun ended => ended.1 = futureId

theorem hand_of_step {verdict : Verdict}
    (hstep : process.step me config (.loop (.process verdict)) = some next) :
    ∃ request, process.replica.calls.hand = some (request, .taken) ∧
      process.processRequest me config request verdict = some next := by
  simp only [Process.step, loopStep] at hstep
  split at hstep
  case h_1 request hhand => exact ⟨request, hhand, hstep⟩
  case h_2 => cases hstep

theorem concluded_retryMove (request : Request) (status : Status) (futureId : FutureId) :
    process.replica.calls.concluded futureId (process.retryMove request status) =
      ((noAnswerEnding process request).map fun ending =>
        (request.futureId, ending)).toList.countP fun ended => ended.1 = futureId := by
  unfold retryMove noAnswerEnding
  split_ifs <;> simp [Calls.concluded, oneOf]

/-- The moves that conclude a call are the endings of its attempts. -/
theorem concluded_moveOf {move : Move} (hstep : process.step me config action = some next)
    (hmove : moveOf me config process action = some move) (futureId : FutureId) :
    process.replica.calls.concluded futureId move = endedBy process futureId action := by
  cases action with
  | stub => cases hmove
  | server action =>
      cases action with
      | execute request refusal now =>
          simp only [moveOf] at hmove
          split_ifs at hmove
          cases hmove
          rfl
      | put =>
          cases hmove
          rfl
      | writeResult | relayUndelivered | cleanup => cases hmove
  | loop action =>
      cases action with
      | take | register | taskDone =>
          cases hmove
          rfl
      | registerConsumer => cases hmove
      | process verdict =>
          obtain ⟨request, hhand, -⟩ := hand_of_step hstep
          cases verdict with
          | refused | raised | held | «local» =>
              cases hmove
              simp [Calls.concluded, endedBy, endingOf, hhand, verdictEnding, Calls.inHand, oneOf]
          | forwarded address =>
              cases hmove
              simp [Calls.concluded, endedBy, endingOf, hhand, verdictEnding]
  | worker action =>
      cases action with
      | dequeue | retire | forget =>
          cases hmove
          rfl
      | work call stage work =>
          obtain ⟨reached, -, rfl⟩ := Option.map_eq_some_iff.mp hmove
          rfl
  | metrics action =>
      cases action with
      | collect =>
          cases hmove
          cases hqueue : process.replica.calls.requestQueue <;>
            simp [Calls.concluded, endedBy, endingOf, hqueue, oneOf]
      | _ => cases hmove
  | forward action =>
      cases action with
      | countDown =>
          cases hmove
          rfl
      | resend request =>
          simp only [moveOf] at hmove
          split_ifs at hmove with haway <;> cases hmove <;>
            simp [Calls.concluded, endedBy, endingOf, haway, oneOf]
      | onForwarded request status replicas =>
          cases status with
          | ok | other =>
              cases hmove
              simp [Calls.concluded, endedBy, endingOf, statusEnding, oneOf]
          | unavailable | deadlineExceeded =>
              cases hmove
              exact concluded_retryMove request _ futureId

/-- An action that moves no call ends no attempts. -/
theorem endedBy_eq_zero (hmove : moveOf me config process action = none) (futureId : FutureId) :
    endedBy process futureId action = 0 := by
  cases action with
  | stub | server | worker => rfl
  | loop action =>
      cases action with
      | process verdict => cases verdict <;> cases hmove
      | _ => rfl
  | metrics action =>
      cases action with
      | collect => cases hmove
      | _ => rfl
  | forward action =>
      cases action with
      | onForwarded =>
          simp only [moveOf] at hmove
          split_ifs at hmove
      | resend =>
          simp only [moveOf] at hmove
          split_ifs at hmove
      | countDown => rfl

theorem entered_eq_enteredBy (futureId : FutureId) :
    (moveOf me config process action).elim 0 (Calls.entered futureId) =
      enteredBy me process futureId action := by
  cases action with
  | server action =>
      cases action with
      | execute request refusal now =>
          simp only [moveOf, enteredBy]
          split_ifs <;> rfl
      | _ => rfl
  | stub => rfl
  | loop action =>
      cases action with
      | process verdict => cases verdict <;> rfl
      | _ => rfl
  | worker action =>
      cases action with
      | work call stage work =>
          simp only [moveOf, enteredBy]
          cases workStep me config process call stage work <;> rfl
      | _ => rfl
  | metrics action => cases action <;> rfl
  | forward action =>
      cases action with
      | onForwarded request status replicas =>
          simp only [moveOf, retryMove, enteredBy]
          split_ifs <;> rfl
      | resend request =>
          simp only [moveOf, enteredBy]
          split_ifs <;> rfl
      | countDown => rfl

/-- A copy that comes in is on its way until its attempts end. -/
theorem routable_of_step (hstep : process.step me config action = some next)
    (futureId : FutureId) :
    next.replica.calls.routable futureId + endedBy process futureId action =
      process.replica.calls.routable futureId + enteredBy me process futureId action := by
  have hmoved := (step_effect hstep).moved
  have hentered : (moveOf me config process action).elim 0 (Calls.entered futureId) =
      enteredBy me process futureId action := entered_eq_enteredBy futureId
  rw [← hentered]
  cases hmove : moveOf me config process action with
  | none =>
      simp only [hmove, Moved] at hmoved
      rw [hmoved, endedBy_eq_zero hmove]
      rfl
  | some move =>
      simp only [hmove, Moved] at hmoved
      rw [← concluded_moveOf hstep hmove]
      exact Calls.move_routable_eq hmoved futureId

/-- Only a request with retries left is sent again. -/
theorem retries_of_moveOf {request : Request} {status : Status} {move : Move}
    (hmove : moveOf me config process action = some move)
    (hagain : move = .requeue request status ∨ move = .backOff request status) :
    request.retries + 1 ≤ forwardRetries := by
  have hretry : ∀ other otherStatus, process.retryMove other otherStatus = move →
      request.retries + 1 ≤ forwardRetries := by
    intro other otherStatus hmove
    unfold retryMove at hmove
    split_ifs at hmove with hlast haway hfirst <;> subst hmove
    · rcases hagain with h | h <;> cases h
    · rcases hagain with h | h <;> cases h
    · rcases hagain with h | h <;> cases h
      exact Nat.le_of_not_lt hlast
    · rcases hagain with h | h <;> cases h
      exact Nat.le_of_not_lt hlast
  have hother : ∀ other, some other = some move → other ≠ .requeue request status →
      other ≠ .backOff request status → request.retries + 1 ≤ forwardRetries := by
    intro other heq hrequeue hbackOff
    cases heq
    exact absurd hagain (not_or.mpr ⟨hrequeue, hbackOff⟩)
  unfold moveOf at hmove
  split at hmove
  case h_1 =>
    split_ifs at hmove
    exact hother _ hmove nofun nofun
  case h_10 =>
    obtain ⟨reached, -, heq⟩ := Option.map_eq_some_iff.mp hmove
    exact hother _ (congrArg some heq) nofun nofun
  case h_14 =>
    split_ifs at hmove
    · exact hretry _ _ (Option.some.inj hmove)
    · exact hother _ hmove nofun nofun
  case h_15 => split_ifs at hmove <;> exact hother _ hmove nofun nofun
  case h_17 => cases hmove
  all_goals exact hother _ hmove nofun nofun

theorem forwarded_of_hand {address : Address}
    (hstep : process.step me config (.loop (.process (.forwarded address))) = some next) :
    ∃ request, process.replica.calls.hand = some (request, .taken) ∧ request.routeTo ≠ some me ∧
      next.replica.forwarded request.futureId = some address := by
  obtain ⟨request, hhand, hprocess⟩ := hand_of_step hstep
  simp only [processRequest] at hprocess
  split_ifs at hprocess with haddress
  obtain ⟨sent, -, rfl⟩ := Option.map_eq_some_iff.mp hprocess
  refine ⟨request, hhand, ?_, Function.update_self ..⟩
  obtain ⟨hne, hnone | hpinned⟩ := haddress
  · rw [hnone]
    exact (Option.some_ne_none me).symm
  · rw [hpinned]
    exact fun heq => hne (Option.some.inj heq)

theorem execute_of_entered {request : Request}
    (hstep : process.step me config action = some next)
    (hmove : moveOf me config process action = some (.enter request)) :
    (∃ refusal now, action = .server (.execute request refusal now)) ∧
      WellAddressed me request ∧ (me, request.futureId) ∉ process.redis.accepted := by
  obtain ⟨refusal, now, rfl, hqueued⟩ := moveOf_causedBy hmove
  simp only [Process.step, serverStep] at hstep
  split_ifs at hstep with haddressed
  refine ⟨⟨refusal, now, rfl⟩, haddressed, ?_⟩
  simpa [Redis.isAccepted] using admission_queued hqueued

end Step

theorem ofFuture_pos {request : Request} {requests : List Request} (hmem : request ∈ requests) :
    1 ≤ ofFuture request.futureId requests :=
  List.countP_pos_iff.mpr ⟨request, hmem, decide_eq_true rfl⟩

theorem waiting_pos {calls : Calls} {request : Request} (hmem : request ∈ calls.waiting) :
    1 ≤ ofFuture request.futureId calls.entering + ofFuture request.futureId calls.requestQueue +
      Calls.inHand request.futureId calls.hand + ofFuture request.futureId calls.backoffs := by
  simp only [Calls.waiting, List.mem_append] at hmem
  rcases hmem with ((hentering | hqueue) | hhand) | hbackoff
  · have := ofFuture_pos hentering
    omega
  · have := ofFuture_pos hqueue
    omega
  · have : Calls.inHand request.futureId calls.hand = 1 := by
      unfold Calls.inHands at hhand
      split at hhand
      case h_1 taken hfull =>
        obtain rfl := List.mem_singleton.mp hhand
        simp [hfull, Calls.inHand, oneOf]
      case h_2 => cases hhand
    omega
  · have := ofFuture_pos hbackoff
    omega

/-! ### The invariant -/

/-- What every state of a controller that started with nothing satisfies. -/
structure Inv (me : Address) (sender : Sender) : Prop where
  counted : sender.calls.Counted
  counting : sender.counting.length = sender.calls.countingDown
  fresh : ∀ futureId, (me, futureId) ∉ sender.process.redis.accepted →
    sender.calls.routable futureId + sender.endings futureId = 0 ∧ sender.sends futureId = 0
  single : ∀ futureId, sender.calls.routable futureId + sender.endings futureId ≤ 1
  ends : ∀ futureId, 0 < sender.sends futureId →
    sender.calls.routable futureId + sender.endings futureId = 1
  sends : ∀ futureId, sender.sends futureId ≤ forwardRetries + 1
  waiting : ∀ request ∈ sender.calls.waiting, request.routeTo = some me ∨
    sender.sends request.futureId = request.retries ∧ request.retries ≤ forwardRetries
  sent : ∀ request ∈ sender.calls.attempts,
    sender.sends request.futureId = request.retries + 1
  away : ∀ request, request ∈ sender.calls.attempts ∨ request ∈ sender.calls.backoffs →
    sender.process.replica.forwarded request.futureId = none →
      sender.settled request.futureId = true
  stored : ∀ call serialized, (call, .stored serialized) ∈ sender.calls.workers →
    sender.settled call.futureId = true
  dropped : ∀ ended ∈ sender.ended, ended.ending = .dropped → ended.settled = true

section Preserved

variable {me : Address} {config : Config} {sender after : Sender} {event : Event}

theorem step_eq_some :
    sender.step me config event = some after ↔
      Allowed sender event ∧ ∃ next, sender.process.step me config event.action = some next ∧
        sender.after me config event next = after := by
  unfold Sender.step
  split_ifs with hallowed <;> simp [hallowed]

variable {next : Process}

theorem settled_after {futureId : FutureId} (hsettled : sender.settled futureId = true) :
    (sender.after me config event next).settled futureId = true := by
  simp [Sender.after, hsettled]

theorem settled_of_terminal {futureId : FutureId}
    (hterminal : (next.redis.future futureId).Terminal) :
    (sender.after me config event next).settled futureId = true := by
  simp [Sender.after, hterminal]

theorem endings_after (futureId : FutureId) :
    (sender.after me config event next).endings futureId =
      sender.endings futureId + endedBy sender.process futureId event.action := by
  unfold Sender.endings endedBy
  simp only [Sender.after, List.countP_append, List.countP_map]
  rw [Nat.add_comm]
  rfl

theorem balance_after (hstep : sender.process.step me config event.action = some next)
    (futureId : FutureId) :
    (sender.after me config event next).calls.routable futureId +
        (sender.after me config event next).endings futureId =
      sender.calls.routable futureId + sender.endings futureId +
        enteredBy me sender.process futureId event.action := by
  have hroutable := routable_of_step hstep futureId
  have hendings : (sender.after me config event next).endings futureId =
      sender.endings futureId + endedBy sender.process futureId event.action :=
    endings_after futureId
  have hcalls : (sender.after me config event next).calls = next.replica.calls := rfl
  have hbefore : sender.calls = sender.process.replica.calls := rfl
  rw [hendings, hcalls, hbefore]
  omega

theorem accepted_after (hstep : sender.process.step me config event.action = some next) :
    (sender.after me config event next).process.redis.accepted =
      acceptedBy me sender.process event.action ++ sender.process.redis.accepted :=
  (step_effect hstep).accepted

/-- Of a call this controller has not accepted there is no copy, and there has been none. -/
theorem Inv.fresh_after (hinv : Inv me sender)
    (hstep : sender.process.step me config event.action = some next) (futureId : FutureId)
    (hfresh : (me, futureId) ∉ (sender.after me config event next).process.redis.accepted) :
    (sender.after me config event next).calls.routable futureId +
        (sender.after me config event next).endings futureId = 0 ∧
      (sender.after me config event next).sends futureId = 0 := by
  rw [accepted_after hstep] at hfresh
  obtain ⟨hnew, hold⟩ := not_or.mp (fun h => hfresh (List.mem_append.mpr h))
  obtain ⟨hcopies, hsends⟩ := hinv.fresh futureId hold
  have hbalance := balance_after hstep futureId
  have hentered : enteredBy me sender.process futureId event.action = 0 := by
    rcases enteredBy_cases me sender.process event.action futureId with hzero | ⟨-, -, hmem⟩
    · exact hzero
    · exact absurd hmem hnew
  refine ⟨by omega, ?_⟩
  have hhand : sentBy sender.process futureId event.action = 0 := by
    unfold sentBy
    split
    · have hroutable : sender.calls.routable futureId = 0 := by omega
      unfold Calls.routable at hroutable
      change Calls.inHand futureId sender.calls.hand = 0
      omega
    · rfl
  simp [Sender.after, hsends, hhand]

theorem Inv.single_after (hinv : Inv me sender)
    (hstep : sender.process.step me config event.action = some next) (futureId : FutureId) :
    (sender.after me config event next).calls.routable futureId +
      (sender.after me config event next).endings futureId ≤ 1 := by
  rw [balance_after hstep futureId]
  rcases enteredBy_cases me sender.process event.action futureId with hzero | ⟨hone, hfresh, -⟩
  · rw [hzero]
    exact hinv.single futureId
  · obtain ⟨hcopies, -⟩ := hinv.fresh futureId hfresh
    omega

theorem sentBy_cases (process : Process) (futureId : FutureId) (action : Action) :
    sentBy process futureId action = 0 ∨ ∃ address request,
      action = .loop (.process (.forwarded address)) ∧
        process.replica.calls.hand = some (request, .taken) ∧ request.futureId = futureId ∧
        sentBy process futureId action = 1 := by
  unfold sentBy
  split
  case h_1 address =>
    unfold Calls.inHand oneOf
    split
    case h_1 request hhand =>
      split_ifs with hfuture
      · exact .inr ⟨address, request, rfl, hhand, hfuture, rfl⟩
      · exact .inl rfl
    case h_2 => exact .inl rfl
  case h_2 => exact .inl rfl

theorem mem_waiting_of_hand {calls : Calls} {request : Request}
    (hhand : calls.hand = some (request, .taken)) : request ∈ calls.waiting := by
  simp [Calls.waiting, Calls.inHands, hhand]

theorem moveOf_forwarded (address : Address) :
    moveOf me config sender.process (.loop (.process (.forwarded address))) =
      some (.handOn me address) := rfl

/-- A call is sent only while its sends are as many as its retries. -/
theorem Inv.sends_of_hand (hinv : Inv me sender) {address : Address} {request : Request}
    (hstep : sender.process.step me config (.loop (.process (.forwarded address))) = some next)
    (hhand : sender.process.replica.calls.hand = some (request, .taken)) :
    sender.sends request.futureId = request.retries ∧ request.retries ≤ forwardRetries := by
  obtain ⟨routed, hrouted, helsewhere, -⟩ := forwarded_of_hand hstep
  rw [hhand] at hrouted
  cases hrouted
  rcases hinv.waiting request (mem_waiting_of_hand hhand) with hhere | hbudget
  · exact absurd hhere helsewhere
  · exact hbudget

theorem Inv.sends_after (hinv : Inv me sender)
    (hstep : sender.process.step me config event.action = some next) (futureId : FutureId) :
    (sender.after me config event next).sends futureId ≤ forwardRetries + 1 := by
  rcases sentBy_cases sender.process futureId event.action with hzero |
    ⟨address, request, haction, hhand, rfl, hone⟩
  · simpa [Sender.after, hzero] using hinv.sends futureId
  · rw [haction] at hstep
    obtain ⟨hsends, hretries⟩ := hinv.sends_of_hand hstep hhand
    change sender.sends request.futureId + sentBy sender.process request.futureId event.action ≤ _
    omega

theorem Inv.ends_after (hinv : Inv me sender)
    (hstep : sender.process.step me config event.action = some next) (futureId : FutureId)
    (hsent : 0 < (sender.after me config event next).sends futureId) :
    (sender.after me config event next).calls.routable futureId +
      (sender.after me config event next).endings futureId = 1 := by
  have hsingle := hinv.single_after hstep futureId
  have hbalance := balance_after hstep futureId
  have hbefore : 1 ≤ sender.calls.routable futureId + sender.endings futureId := by
    rcases sentBy_cases sender.process futureId event.action with hzero |
      ⟨address, request, -, hhand, rfl, -⟩
    · have hold : 0 < sender.sends futureId := by simpa [Sender.after, hzero] using hsent
      exact (hinv.ends futureId hold).ge
    · have hin := waiting_pos (mem_waiting_of_hand hhand)
      unfold Sender.calls Calls.routable
      omega
  omega

theorem Inv.waiting_after (hinv : Inv me sender) (hallowed : Allowed sender event)
    (hstep : sender.process.step me config event.action = some next) (request : Request)
    (hrequest : request ∈ (sender.after me config event next).calls.waiting) :
    request.routeTo = some me ∨
      (sender.after me config event next).sends request.futureId = request.retries ∧
        request.retries ≤ forwardRetries := by
  have hmoved := (step_effect hstep).moved
  have hkept : request ∈ sender.calls.waiting → request.routeTo = some me ∨
      (sender.after me config event next).sends request.futureId = request.retries ∧
        request.retries ≤ forwardRetries := by
    intro hold
    rcases hinv.waiting request hold with hhere | ⟨hsends, hretries⟩
    · exact .inl hhere
    rcases sentBy_cases sender.process request.futureId event.action with hzero |
      ⟨address, routed, haction, hhand, hfuture, -⟩
    · exact .inr ⟨by simpa [Sender.after, hzero] using hsends, hretries⟩
    · -- the call in hand has just been sent, and this request is another copy of it
      exfalso
      have hsingle := hinv.single_after hstep request.futureId
      have hin := waiting_pos hrequest
      rw [haction, moveOf_forwarded, Moved] at hmoved
      simp only [Calls.move, hhand, Option.some.injEq] at hmoved
      have hout : 1 ≤ ofFuture request.futureId
          (sender.after me config event next).calls.attempts := by
        have hmem : Calls.forwardedRequest me address routed ∈ next.replica.calls.attempts := by
          rw [← hmoved]
          exact List.mem_cons_self
        have hpos := ofFuture_pos hmem
        rwa [show (Calls.forwardedRequest me address routed).futureId = request.futureId from
          hfuture] at hpos
      unfold Calls.routable at hsingle
      omega
  cases hmove : moveOf me config sender.process event.action with
  | none =>
      simp only [hmove, Moved] at hmoved
      exact hkept (by simpa [Sender.after, Sender.calls, hmoved] using hrequest)
  | some move =>
      simp only [hmove, Moved] at hmoved
      rcases Calls.mem_waiting_of_move hmoved hrequest with hold | rfl |
        ⟨sent, hsent, status, hagain, rfl⟩
      · exact hkept hold
      · obtain ⟨⟨refusal, now, haction⟩, haddressed, hfresh⟩ := execute_of_entered hstep hmove
        obtain ⟨-, hsends⟩ := hinv.fresh request.futureId hfresh
        rcases haddressed with ⟨hroute, -⟩ | hhere
        · have hretries : request.retries = 0 := by
            unfold Allowed at hallowed
            rw [haction] at hallowed
            exact hallowed hroute
          refine .inr ⟨?_, by omega⟩
          simp [Sender.after, haction, sentBy, hsends, hretries]
        · exact .inl hhere
      · have hretries := retries_of_moveOf hmove hagain
        have hsends := hinv.sent sent hsent
        refine .inr ⟨?_, hretries⟩
        have hzero : sentBy sender.process sent.futureId event.action = 0 := by
          rcases sentBy_cases sender.process sent.futureId event.action with hzero |
            ⟨address, routed, haction, -, -, -⟩
          · exact hzero
          · rw [haction, moveOf_forwarded] at hmove
            cases hmove
            rcases hagain with h | h <;> cases h
        change sender.sends sent.futureId + sentBy sender.process sent.futureId event.action =
          sent.retries + 1
        omega

theorem Inv.sent_after (hinv : Inv me sender)
    (hstep : sender.process.step me config event.action = some next) (request : Request)
    (hrequest : request ∈ (sender.after me config event next).calls.attempts) :
    (sender.after me config event next).sends request.futureId = request.retries + 1 := by
  have hmoved := (step_effect hstep).moved
  rcases sentBy_cases sender.process request.futureId event.action with hzero |
    ⟨address, routed, haction, hhand, hfuture, hone⟩
  · have hold : request ∈ sender.calls.attempts := by
      cases hmove : moveOf me config sender.process event.action with
      | none =>
          simp only [hmove, Moved] at hmoved
          simpa [Sender.after, Sender.calls, hmoved] using hrequest
      | some move =>
          simp only [hmove, Moved] at hmoved
          rcases Calls.mem_attempts_of_move hmoved hrequest with hold |
            ⟨source, address, routed, rfl, hhand, rfl⟩
          · exact hold
          · obtain ⟨rfl, haction⟩ := moveOf_causedBy hmove
            rw [haction] at hzero
            simp [sentBy, hhand, Calls.inHand, Calls.forwardedRequest, oneOf] at hzero
    simpa [Sender.after, hzero] using hinv.sent request hold
  · rw [haction] at hstep
    obtain ⟨hsends, -⟩ := hinv.sends_of_hand hstep hhand
    rw [haction, moveOf_forwarded, Moved] at hmoved
    simp only [Calls.move, hhand, Option.some.injEq] at hmoved
    have hmem : request ∈ Calls.forwardedRequest me address routed :: sender.calls.attempts := by
      change request ∈ next.replica.calls.attempts at hrequest
      rwa [← hmoved] at hrequest
    rcases List.mem_cons.mp hmem with rfl | hold
    · change sender.sends routed.futureId +
        sentBy sender.process routed.futureId event.action = routed.retries + 1
      rw [show sentBy sender.process routed.futureId event.action = 1 from hone]
      omega
    · -- this forward was out already, and the call in hand is another copy
      exfalso
      have hin := waiting_pos (mem_waiting_of_hand hhand)
      have hout := ofFuture_pos hold
      have hsingle := hinv.single routed.futureId
      rw [← hfuture] at hout
      unfold Calls.routable at hsingle
      change 1 ≤ ofFuture routed.futureId sender.process.replica.calls.attempts at hout
      unfold Sender.calls at hsingle
      omega

theorem Inv.stored_after (hinv : Inv me sender)
    (hstep : sender.process.step me config event.action = some next) (call : Request)
    (serialized : String)
    (hworker : (call, .stored serialized) ∈ (sender.after me config event next).calls.workers) :
    (sender.after me config event next).settled call.futureId = true := by
  rcases mem_workers_of_step hstep hworker with hold | hnew |
    ⟨stage, work, done, -, -, hwork, hfuture⟩
  · exact settled_after (hinv.stored call serialized hold)
  · cases hnew
  · refine settled_of_terminal (.inr ?_)
    rw [hfuture, workStep_stored hwork]
    rfl

/-- The note of a forward is gone only when the call's outcome has been recorded. -/
theorem Inv.settled_of_dropped (hinv : Inv me sender)
    (hstep : sender.process.step me config event.action = some next) {futureId : FutureId}
    (hbefore : sender.process.replica.forwarded futureId = none →
      sender.settled futureId = true)
    (haway : next.replica.forwarded futureId = none) :
    (sender.after me config event next).settled futureId = true := by
  rcases (step_effect hstep).forwarded futureId with hkept | ⟨address, -, -, -, -, hnoted⟩ |
    ⟨-, hterminal | ⟨call, serialized, hworker, rfl⟩⟩
  · exact settled_after (hbefore (hkept ▸ haway))
  · rw [hnoted] at haway
    cases haway
  · exact settled_of_terminal hterminal
  · exact settled_after (hinv.stored call serialized hworker)

theorem Inv.away_after (hinv : Inv me sender)
    (hstep : sender.process.step me config event.action = some next) (request : Request)
    (hrequest : request ∈ (sender.after me config event next).calls.attempts ∨
      request ∈ (sender.after me config event next).calls.backoffs)
    (haway : next.replica.forwarded request.futureId = none) :
    (sender.after me config event next).settled request.futureId = true := by
  have hmoved := (step_effect hstep).moved
  cases hmove : moveOf me config sender.process event.action with
  | none =>
      simp only [hmove, Moved] at hmoved
      refine hinv.settled_of_dropped hstep (hinv.away request ?_) haway
      simpa [Sender.after, Sender.calls, hmoved] using hrequest
  | some move =>
      simp only [hmove, Moved] at hmoved
      rcases hrequest with hattempt | hbackoff
      · rcases Calls.mem_attempts_of_move hmoved hattempt with hold |
          ⟨source, address, routed, rfl, hhand, rfl⟩
        · exact hinv.settled_of_dropped hstep (hinv.away request (.inl hold)) haway
        · obtain ⟨rfl, haction⟩ := moveOf_causedBy hmove
          rw [haction] at hstep
          obtain ⟨taken, htaken, -, hnoted⟩ := forwarded_of_hand hstep
          rw [hhand] at htaken
          cases htaken
          change next.replica.forwarded routed.futureId = none at haway
          rw [hnoted] at haway
          cases haway
      · rcases Calls.mem_backoffs_of_move hmoved hbackoff with hold |
          ⟨sent, hsent, status, -, rfl⟩
        · exact hinv.settled_of_dropped hstep (hinv.away request (.inr hold)) haway
        · exact hinv.settled_of_dropped hstep (hinv.away sent (.inl hsent)) haway

/-- A forward is dropped only when the note of it is gone. -/
theorem dropped_cases (hstep : sender.process.step me config event.action = some next)
    {futureId : FutureId}
    (hended : endingOf sender.process event.action = some (futureId, .dropped)) :
    ∃ request, (request ∈ sender.calls.attempts ∨ request ∈ sender.calls.backoffs) ∧
      sender.process.replica.forwarded request.futureId = none ∧ request.futureId = futureId := by
  unfold endingOf at hended
  split at hended
  case h_1 verdict _ =>
    cases hhand : sender.process.replica.calls.hand with
    | none => simp [hhand] at hended
    | some hand => cases verdict <;> simp [hhand, verdictEnding] at hended
  case h_2 =>
    obtain ⟨request, -, heq⟩ := Option.map_eq_some_iff.mp hended
    cases heq
  case h_3 request status replicas haction =>
    rw [haction] at hstep
    obtain ⟨ending, hending, heq⟩ := Option.map_eq_some_iff.mp hended
    cases heq
    refine ⟨request, .inl (mem_attempts_of_step hstep), ?_, rfl⟩
    cases status with
    | ok | other => cases hending
    | unavailable | deadlineExceeded =>
        simp only [statusEnding, noAnswerEnding] at hending
        split_ifs at hending with hlast hnone
        · cases hending
        · exact Option.isNone_iff_eq_none.mp hnone
  case h_4 request haction =>
    rw [haction] at hstep
    split_ifs at hended with haway
    cases hended
    have hnone : sender.process.replica.forwarded request.futureId = none := by
      simpa using haway
    refine ⟨request, .inr ?_, hnone, rfl⟩
    have hmoved := (step_effect hstep).moved
    simp only [moveOf, hnone, Option.isSome_none, Bool.false_eq_true, if_false, Moved, Calls.move]
      at hmoved
    split_ifs at hmoved with hmem
    exact hmem
  case h_5 => cases hended

theorem Inv.dropped_after (hinv : Inv me sender)
    (hstep : sender.process.step me config event.action = some next) (ended : Ended)
    (hmem : ended ∈ (sender.after me config event next).ended)
    (hdropped : ended.ending = .dropped) : ended.settled = true := by
  simp only [Sender.after] at hmem
  rcases List.mem_append.mp hmem with hnew | hold
  · obtain ⟨⟨futureId, ending⟩, hended, rfl⟩ := List.mem_map.mp hnew
    obtain rfl : ending = .dropped := hdropped
    obtain ⟨request, hrequest, haway, rfl⟩ := dropped_cases hstep (Option.mem_toList.mp hended)
    exact hinv.away request hrequest haway
  · exact hinv.dropped ended hold hdropped

theorem countDown_of_moveOf {process : Process} {action : Action}
    (hmove : moveOf me config process action = some .countDown) :
    action = .forward .countDown := by
  unfold moveOf at hmove
  split at hmove
  case h_1 =>
    split_ifs at hmove
    cases hmove
  case h_10 =>
    obtain ⟨reached, -, heq⟩ := Option.map_eq_some_iff.mp hmove
    cases heq
  case h_14 =>
    unfold retryMove at hmove
    split_ifs at hmove <;> cases hmove
  case h_15 => split_ifs at hmove <;> cases hmove
  case h_16 => rfl
  all_goals cases hmove

theorem Inv.counting_after (hinv : Inv me sender) (hallowed : Allowed sender event)
    (hstep : sender.process.step me config event.action = some next) :
    (sender.after me config event next).counting.length =
      (sender.after me config event next).calls.countingDown := by
  have hmoved := (step_effect hstep).moved
  have hcounting := hinv.counting
  change (countingAfter me config sender event).length = next.replica.calls.countingDown
  change sender.counting.length = sender.process.replica.calls.countingDown at hcounting
  by_cases hcount : event.action = .forward .countDown
  · have hthread : event.thread ∈ sender.counting := by
      unfold Allowed at hallowed
      rwa [hcount] at hallowed
    rw [hcount, show moveOf me config sender.process (.forward .countDown) = some .countDown from
      rfl, Moved] at hmoved
    simp only [Calls.move] at hmoved
    split_ifs at hmoved with hpos
    rw [← Option.some.inj hmoved, countingAfter, hcount, List.length_erase_of_mem hthread,
      hcounting]
  · have hafter : countingAfter me config sender event =
        (moveOf me config sender.process event.action).toList.flatMap Calls.endsForward ++
          sender.counting := by
      unfold countingAfter
      split
      case h_1 heq => exact absurd heq hcount
      case h_2 => rfl
    rw [hafter, List.length_append, hcounting, Nat.add_comm]
    cases hmove : moveOf me config sender.process event.action with
    | none =>
        simp only [hmove, Moved] at hmoved
        simp [hmoved]
    | some move =>
        simp only [hmove, Moved] at hmoved
        have hother : move ≠ .countDown := by
          rintro rfl
          exact hcount (countDown_of_moveOf hmove)
        rw [Calls.countingDown_of_move hmoved hother]
        simp

theorem Inv.step (hinv : Inv me sender) (hstep : sender.step me config event = some after) :
    Inv me after := by
  obtain ⟨hallowed, next, hprocess, rfl⟩ := step_eq_some.mp hstep
  exact
    { counted := counted_of_step hinv.counted hprocess
      counting := hinv.counting_after hallowed hprocess
      fresh := hinv.fresh_after hprocess
      single := hinv.single_after hprocess
      ends := hinv.ends_after hprocess
      sends := hinv.sends_after hprocess
      waiting := hinv.waiting_after hallowed hprocess
      sent := hinv.sent_after hprocess
      away := hinv.away_after hprocess
      stored := hinv.stored_after hprocess
      dropped := hinv.dropped_after hprocess }

end Preserved

/-! ### Whole runs -/

section Runs

variable {me : Address} {config : Config} {redis : Redis} {events : List Event} {final : Sender}

theorem inv_init (redis : Redis) : Inv me (.init redis) where
  counted := ⟨rfl, rfl⟩
  counting := rfl
  fresh _ _ := ⟨rfl, rfl⟩
  single _ := Nat.zero_le _
  ends _ hsent := absurd hsent (Nat.lt_irrefl 0)
  sends _ := Nat.zero_le _
  waiting _ hrequest := by cases hrequest
  sent _ hrequest := by cases hrequest
  away _ hrequest := by rcases hrequest with hrequest | hrequest <;> cases hrequest
  stored _ _ hworker := by cases hworker
  dropped _ hended := by cases hended

theorem Inv.accounted {sender : Sender} (hinv : Inv me sender) : sender.Accounted where
  sends := hinv.sends
  ends := hinv.ends
  dropped := hinv.dropped
  nonneg := by
    rw [hinv.counted.unsent]
    omega
  pending request hrequest := by
    have hunsent := hinv.counted.unsent
    rcases hrequest with hrequest | hrequest
    · have := List.length_pos_of_mem hrequest
      omega
    · have := List.length_pos_of_mem hrequest
      omega
  balance futureId := by
    have hunsent := hinv.counted.unsent
    have hcounting := hinv.counting
    have hattempts := sender.calls.attempts.length_eq_countP_add_countP (·.futureId = futureId)
    have hbackoffs := sender.calls.backoffs.length_eq_countP_add_countP (·.futureId = futureId)
    have hthreads := sender.counting.length_eq_countP_add_countP (· = futureId)
    simp only [decide_eq_true_eq] at hattempts hbackoffs hthreads
    unfold Sender.owed Sender.owedByOthers ofFuture
    omega

theorem accounted_of_run
    (hrun : (system me config).run (.init redis) events = some final) : final.Accounted := by
  have hinv : Inv me final := by
    refine (system me config).invariant_of_run ?_ (inv_init redis) hrun
    intro before event after hinv hstep
    exact hinv.step hstep
  exact hinv.accounted

theorem givesUpOn_of_ending {process : Process} {action : Action} {futureId : FutureId}
    (hended : endingOf process action = some (futureId, .markedFailed)) :
    futureId ∈ givesUpOn process action := by
  unfold endingOf at hended
  split at hended
  case h_1 verdict =>
    cases hhand : process.replica.calls.hand with
    | none => simp [hhand] at hended
    | some hand =>
        cases verdict <;> simp [hhand, verdictEnding] at hended
        all_goals simp [givesUpOn, hhand, hended]
  case h_2 =>
    obtain ⟨request, -, heq⟩ := Option.map_eq_some_iff.mp hended
    cases heq
  case h_3 request status replicas =>
    obtain ⟨ending, hending, heq⟩ := Option.map_eq_some_iff.mp hended
    cases heq
    cases status with
    | ok => cases hending
    | other => rfl
    | unavailable | deadlineExceeded =>
        simp only [statusEnding, noAnswerEnding] at hending
        split_ifs at hending with hlast
        · simp [givesUpOn, hlast]
        · cases hending
  case h_4 =>
    split_ifs at hended
    cases hended
  case h_5 => cases hended

theorem failedOnce_step {sender after : Sender} {event : Event} (honce : sender.FailedOnce)
    (hheeded : Heeded sender event) (hstep : sender.step me config event = some after) :
    after.FailedOnce := by
  obtain ⟨-, next, -, rfl⟩ := step_eq_some.mp hstep
  intro ended hmem hfailed hsent
  simp only [Sender.after] at hmem
  rcases List.mem_append.mp hmem with hnew | hold
  · obtain ⟨⟨futureId, ending⟩, hended, rfl⟩ := List.mem_map.mp hnew
    obtain rfl : ending = .markedFailed := hfailed
    exact hheeded futureId (givesUpOn_of_ending (Option.mem_toList.mp hended)) hsent
  · exact honce ended hold hfailed hsent

/-- Forwards are bounded and accounted for in every run. In one that gives no call up once its
outcome is recorded, a call is marked failed by its attempts once at most, while it has none. -/
theorem forwards_accounted
    (hrun : (system me config).run (.init redis) events = some final) :
    final.Accounted ∧
      ((system me config).Guarded Heeded (.init redis) events → final.FailedOnce) := by
  refine ⟨accounted_of_run hrun, fun hheeded => ?_⟩
  have hinit : (Sender.init redis).FailedOnce := by
    intro ended hmem
    cases hmem
  refine (system me config).invariant_run ?_ hinit hheeded hrun
  intro before event after honce hallowed hstep
  exact failedOnce_step honce hallowed hstep

end Runs

instance (sender : Sender) : Decidable sender.FailedOnce :=
  inferInstanceAs (Decidable (∀ ended ∈ sender.ended, _ → _ → _))

def call : Request :=
  { futureId := "f", service := "Agent", function := "work", requestId := some "r" }

/-- The call is sent to another replica, which takes it but whose answer is slow. -/
def sentOn : List Action :=
  [.server (.execute call none 0), .server (.put call), .loop .take,
    .loop (.process (.forwarded "b:1")), .loop .taskDone]

/-- Its result comes in before the attempt ends. -/
def answeredMeanwhile : List Action :=
  sentOn ++ [.server (.writeResult
    { futureId := "f", data := { result := some "42", failed := some false }
      terminal := .inr rfl })]

def attempt (retries : ℕ) : Request :=
  { call with origin := some "a:1", routeTo := some "b:1", retries }

def brokenOff : List Action :=
  answeredMeanwhile ++ [.forward (.onForwarded (attempt 0) (.other "Socket closed") 2)]

/-- A call that has its result is marked failed over it, because the send of it broke off. -/
theorem result_is_marked_failed :
    ∃ settled final : Sender,
      (system "a:1" {}).run (.init {}) (answeredMeanwhile.map Event.of) =
        some settled ∧
      (system "a:1" {}).run (.init {}) (brokenOff.map Event.of) = some final ∧
      (settled.process.redis.future "f").outcome = some (.done "42") ∧
      (final.process.redis.future "f").outcome = some .failed ∧ ¬ final.FailedOnce :=
  ⟨_, _, rfl, rfl, by decide, by decide, by decide⟩

/-- The first attempt is not answered, the second is. -/
def answeredAtLast : List Event :=
  sentOn.map .of ++
    [.of (.forward (.onForwarded (attempt 0) .unavailable 2)),
      { action := .forward .countDown, thread := "f" }, .of (.loop .take),
      .of (.loop (.process (.forwarded "b:1"))), .of (.loop .taskDone),
      .of (.forward (.onForwarded (attempt 1) .ok 2))]

theorem forwards_accounted_at_last :
    ∃ final : Sender,
      (system "a:1" {}).run (.init {}) answeredAtLast = some final ∧ final.sends "f" = 2 ∧
        final.Accounted ∧ final.FailedOnce := by
  have hheeded : (system "a:1" {}).Guarded Heeded (.init {}) answeredAtLast := by decide
  obtain ⟨final, hrun, hsends⟩ : ∃ final : Sender,
      (system "a:1" {}).run (.init {}) answeredAtLast = some final ∧ final.sends "f" = 2 :=
    ⟨_, rfl, rfl⟩
  obtain ⟨haccounted, honce⟩ := forwards_accounted hrun
  exact ⟨final, hrun, hsends, haccounted, honce hheeded⟩

end Retries

end CanyonOS
