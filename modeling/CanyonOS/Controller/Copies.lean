import CanyonOS.Controller.Effects

/-!
# Copies of a call

How many copies of one call a controller holds, counting those its workers have as far as some
stage. No move adds one but `Execute` queueing the call, so the accepted-marker bounds them by one.
-/

namespace CanyonOS

def Stage.Unserved : Stage → Prop
  | .dequeued | .started => True
  | _ => False

instance : DecidablePred Stage.Unserved := fun stage =>
  match stage with
  | .dequeued | .started => isTrue trivial
  | .running | .returned _ | .stored _ | .finishing _ | .stamped _ | .counted _ | .reported =>
      isFalse id

/-- One copy of the call, when the request is for it. -/
def oneOf (futureId : FutureId) (request : Request) : Nat :=
  if request.futureId = futureId then 1 else 0

@[simp]
theorem oneOf_retryRequest (futureId : FutureId) (request : Request) (status : Status) :
    oneOf futureId (retryRequest request status) = oneOf futureId request := rfl

@[simp]
theorem oneOf_forwardedRequest (futureId : FutureId) (request : Request) (me address : Address) :
    oneOf futureId (Calls.forwardedRequest me address request) = oneOf futureId request := rfl

/-- How many of the requests are for this future. -/
def ofFuture (futureId : FutureId) (requests : List Request) : Nat :=
  requests.countP (·.futureId = futureId)

@[simp]
theorem ofFuture_nil (futureId : FutureId) : ofFuture futureId [] = 0 := rfl

@[simp]
theorem ofFuture_cons (futureId : FutureId) (request : Request) (requests : List Request) :
    ofFuture futureId (request :: requests) =
      ofFuture futureId requests + oneOf futureId request := by
  simp [ofFuture, oneOf, List.countP_cons]

@[simp]
theorem ofFuture_append (futureId : FutureId) (first second : List Request) :
    ofFuture futureId (first ++ second) = ofFuture futureId first + ofFuture futureId second :=
  List.countP_append

theorem ofFuture_erase {request : Request} {requests : List Request} (hmem : request ∈ requests)
    (futureId : FutureId) :
    ofFuture futureId (requests.erase request) + oneOf futureId request =
      ofFuture futureId requests := by
  rw [← ofFuture_cons]
  exact ((List.perm_cons_erase hmem).countP_eq _).symm

section

variable (counts : Stage → Prop) [DecidablePred counts]

/-- How many workers have this future's call, at a stage that counts. -/
def workersOf (futureId : FutureId) (workers : List (Request × Stage)) : Nat :=
  workers.countP fun worker => worker.1.futureId = futureId ∧ counts worker.2

theorem workersOf_cons (futureId : FutureId) (call : Request) (stage : Stage)
    (workers : List (Request × Stage)) :
    workersOf counts futureId ((call, stage) :: workers) =
      workersOf counts futureId workers +
        if call.futureId = futureId ∧ counts stage then 1 else 0 := by
  simp [workersOf, List.countP_cons]

theorem workersOf_erase {call : Request} {stage : Stage} {workers : List (Request × Stage)}
    (hmem : (call, stage) ∈ workers) (futureId : FutureId) :
    workersOf counts futureId (workers.erase (call, stage)) +
        (if call.futureId = futureId ∧ counts stage then 1 else 0) =
      workersOf counts futureId workers := by
  rw [← workersOf_cons]
  exact ((List.perm_cons_erase hmem).countP_eq _).symm

end

namespace Calls

def inHand (futureId : FutureId) : Option (Request × HandStage) → Nat
  | some (request, .taken) => oneOf futureId request
  | _ => 0

/-- Copies that could still be forwarded or submitted. -/
def routable (calls : Calls) (futureId : FutureId) : Nat :=
  ofFuture futureId calls.entering + ofFuture futureId calls.requestQueue +
    inHand futureId calls.hand + ofFuture futureId calls.attempts +
    ofFuture futureId calls.backoffs

def entered (futureId : FutureId) : Move → Nat
  | .enter request => oneOf futureId request
  | _ => 0

def submitting (calls : Calls) (futureId : FutureId) : Move → Nat
  | .submit => inHand futureId calls.hand
  | _ => 0

variable {calls next : Calls} {move : Move}

/-- Between the queue and the executor a copy is lost or passed on, never doubled. -/
theorem move_routable_le (hmove : calls.move move = some next) (futureId : FutureId) :
    next.routable futureId + calls.submitting futureId move ≤
      calls.routable futureId + entered futureId move := by
  cases move with
  | enter request =>
      cases hmove
      simp [routable, submitting, entered]
      omega
  | put request =>
      simp only [Calls.move] at hmove
      split_ifs at hmove with hmem
      cases hmove
      have hcount := ofFuture_erase hmem futureId
      simp [routable, submitting, entered, Calls.put]
      omega
  | take =>
      simp only [Calls.move] at hmove
      split at hmove <;> cases hmove
      rename_i hhand hqueue
      simp [routable, submitting, entered, inHand, hhand, hqueue]
      omega
  | settle =>
      simp only [Calls.move] at hmove
      split at hmove <;> cases hmove
      rename_i hhand
      simp [routable, submitting, entered, inHand, hhand]
  | submit | handOn =>
      simp only [Calls.move] at hmove
      split at hmove <;> cases hmove
      rename_i hhand
      simp [routable, submitting, entered, inHand, hhand]
      omega
  | register | taskDone =>
      simp only [Calls.move] at hmove
      split at hmove <;> cases hmove
      rename_i hhand
      simp [routable, submitting, entered, inHand, hhand]
  | dequeue =>
      simp only [Calls.move] at hmove
      split at hmove <;> cases hmove
      simp [routable, submitting, entered]
  | work | retire | forget | countDown =>
      simp only [Calls.move] at hmove
      split_ifs at hmove
      cases hmove
      simp [routable, submitting, entered]
  | collect =>
      simp only [Calls.move] at hmove
      split at hmove <;> cases hmove
      rename_i hqueue
      simp [routable, submitting, entered, hqueue]
  | answered request | requeue request | backOff request =>
      simp only [Calls.move] at hmove
      split_ifs at hmove with hmem
      cases hmove
      have hcount := ofFuture_erase hmem futureId
      simp [routable, submitting, entered, endAttempt, Calls.put]
      omega
  | resend request | giveUp request =>
      simp only [Calls.move] at hmove
      split_ifs at hmove with hmem
      cases hmove
      have hcount := ofFuture_erase hmem futureId
      simp [routable, submitting, entered, endBackoff, Calls.put]
      omega

section

variable (counts : Stage → Prop) [DecidablePred counts]

/-- Copies the executor has. -/
def submitted (calls : Calls) (futureId : FutureId) : Nat :=
  ofFuture futureId calls.workQueue + workersOf counts futureId calls.workers

def copies (calls : Calls) (futureId : FutureId) : Nat :=
  calls.routable futureId + calls.submitted counts futureId

/-- A worker does not come back to the stages that count. -/
def Onward : Move → Prop
  | .work _ stage stage' => counts stage' → counts stage
  | _ => True

/-- A worker leaves the stages that count. -/
def served (futureId : FutureId) : Move → Nat
  | .work call stage stage' =>
      if call.futureId = futureId ∧ counts stage ∧ ¬ counts stage' then 1 else 0
  | _ => 0

variable {counts}

/-- A copy reaches the executor only by being submitted. -/
theorem move_submitted_le (hmove : calls.move move = some next) (honward : Onward counts move)
    (futureId : FutureId) :
    next.submitted counts futureId + served counts futureId move ≤
      calls.submitted counts futureId + calls.submitting futureId move := by
  cases move with
  | submit =>
      simp only [Calls.move] at hmove
      split at hmove <;> cases hmove
      rename_i hhand
      simp [submitted, served, submitting, inHand, hhand]
      omega
  | dequeue =>
      simp only [Calls.move] at hmove
      split at hmove <;> cases hmove
      rename_i hqueue
      simp only [submitted, served, submitting, hqueue, workersOf_cons, oneOf, ofFuture_cons]
      split_ifs with hcounts hfuture <;> first | omega | exact absurd hcounts.1 hfuture
  | work call stage stage' =>
      simp only [Calls.move] at hmove
      split_ifs at hmove with hmem
      cases hmove
      have hcount := workersOf_erase counts hmem futureId
      simp only [submitted, served, submitting, workersOf_cons]
      by_cases hfuture : call.futureId = futureId <;> by_cases hafter : counts stage'
      · have hbefore := honward hafter
        simp only [hfuture, hafter, hbefore, not_true, and_false, and_self, if_true, if_false]
          at hcount ⊢
        omega
      · simp only [hfuture, hafter, true_and, not_false_eq_true, and_true, and_false, if_false]
          at hcount ⊢
        omega
      · simp only [hfuture, false_and, if_false] at hcount ⊢
        omega
      · simp only [hfuture, false_and, if_false] at hcount ⊢
        omega
  | retire call =>
      simp only [Calls.move] at hmove
      split_ifs at hmove with hmem
      cases hmove
      have hcount := workersOf_erase counts hmem futureId
      simp only [submitted, served, submitting]
      omega
  | enter =>
      cases hmove
      simp [submitted, served, submitting]
  | put | forget | answered | requeue | backOff | resend | giveUp | countDown =>
      simp only [Calls.move] at hmove
      split_ifs at hmove
      cases hmove
      simp [submitted, served, submitting, Calls.put, endAttempt, endBackoff]
  | take | settle | handOn | register | taskDone | collect =>
      simp only [Calls.move] at hmove
      split at hmove <;> cases hmove
      simp [submitted, served, submitting]

theorem move_copies_le (hmove : calls.move move = some next) (honward : Onward counts move)
    (futureId : FutureId) :
    next.copies counts futureId + served counts futureId move ≤
      calls.copies counts futureId + entered futureId move := by
  have hroutable := move_routable_le hmove futureId
  have hsubmitted := move_submitted_le hmove honward futureId
  unfold copies
  omega

end

end Calls

namespace Process

variable {me : Address} {config : Config} {process next : Process} {action : Action}

/-- The method of this future's call begins. -/
def runBy (futureId : FutureId) : Action → Nat
  | .worker (.work call .started .serve) => oneOf futureId call
  | _ => 0

def enteredBy (me : Address) (process : Process) (futureId : FutureId) : Action → Nat
  | .server (.execute request refusal _) =>
      if admission process.replica.refusing (process.redis.isAccepted me request.futureId) request
          refusal = .queued then
        oneOf futureId request
      else 0
  | _ => 0

def submittedBy (process : Process) (futureId : FutureId) : Action → Nat
  | .loop (.process .local) => Calls.inHand futureId process.replica.calls.hand
  | _ => 0

theorem workStep_unserved {call : Request} {stage stage' : Stage} {work : Work}
    (hstep : workStep me config process call stage work = some (stage', next))
    (hunserved : stage'.Unserved) : stage.Unserved := by
  unfold workStep at hstep
  split at hstep
  case h_1 => trivial
  case h_4 | h_11 => split_ifs at hstep <;> cases hstep <;> exact hunserved.elim
  case h_12 => split at hstep <;> cases hstep <;> exact hunserved.elim
  case h_13 => cases hstep
  all_goals
    cases hstep
    exact hunserved.elim

theorem onward_moveOf {move : Move} (hmove : moveOf me config process action = some move) :
    Calls.Onward Stage.Unserved move := by
  cases move with
  | work call stage stage' =>
      obtain ⟨work, done, -, hwork⟩ := moveOf_causedBy hmove
      exact workStep_unserved hwork
  | _ => trivial

theorem runBy_le_served {move : Move} (hmove : moveOf me config process action = some move)
    (futureId : FutureId) : runBy futureId action ≤ Calls.served Stage.Unserved futureId move := by
  unfold runBy
  split
  · cases hmove
    simp [Calls.served, oneOf, Stage.Unserved]
  · exact Nat.zero_le _

theorem runBy_eq_zero (hmove : moveOf me config process action = none) (futureId : FutureId) :
    runBy futureId action = 0 := by
  unfold runBy
  split
  · cases hmove
  · rfl

theorem entered_moveOf {move : Move} (hmove : moveOf me config process action = some move)
    (futureId : FutureId) :
    Calls.entered futureId move ≤ enteredBy me process futureId action := by
  cases move with
  | enter request =>
      obtain ⟨refusal, now, rfl, hadmission⟩ := moveOf_causedBy hmove
      simp [Calls.entered, enteredBy, hadmission]
  | _ => exact Nat.zero_le _

theorem submitting_moveOf {move : Move} (hmove : moveOf me config process action = some move)
    (futureId : FutureId) :
    process.replica.calls.submitting futureId move = submittedBy process futureId action ∨
      process.replica.calls.submitting futureId move = 0 := by
  cases move with
  | submit =>
      obtain rfl : action = .loop (.process .local) := moveOf_causedBy hmove
      exact Or.inl rfl
  | _ => exact Or.inr rfl

/-- One step of a controller adds a copy of a call only by `Execute` queueing it, and uses one up
when it runs it. -/
theorem step_copies_le (hstep : process.step me config action = some next)
    (futureId : FutureId) :
    next.replica.calls.copies Stage.Unserved futureId + runBy futureId action ≤
      process.replica.calls.copies Stage.Unserved futureId + enteredBy me process futureId action := by
  have hmoved := (step_effect hstep).moved
  cases hmove : moveOf me config process action with
  | none =>
      simp only [hmove, Moved] at hmoved
      rw [hmoved, runBy_eq_zero hmove]
      omega
  | some move =>
      simp only [hmove, Moved] at hmoved
      have hcopies := Calls.move_copies_le hmoved (onward_moveOf hmove) futureId
      have hrun := runBy_le_served hmove futureId
      have hentered := entered_moveOf hmove futureId
      omega

/-- Workers that are through with a call counted too: one step adds a copy only by `Execute`
queueing the call. -/
theorem step_all_copies_le (hstep : process.step me config action = some next)
    (futureId : FutureId) :
    next.replica.calls.copies (fun _ => True) futureId ≤
      process.replica.calls.copies (fun _ => True) futureId +
        enteredBy me process futureId action := by
  have hmoved := (step_effect hstep).moved
  cases hmove : moveOf me config process action with
  | none =>
      simp only [hmove, Moved] at hmoved
      rw [hmoved]
      omega
  | some move =>
      simp only [hmove, Moved] at hmoved
      have honward : Calls.Onward (fun _ => True) move := by
        cases move with
        | work => exact fun _ => trivial
        | _ => trivial
      have hcopies := Calls.move_copies_le hmoved honward futureId
      have hentered := entered_moveOf hmove futureId
      omega

/-- The executor gets a copy only from a call routed to this replica itself. -/
theorem step_submitted_le (hstep : process.step me config action = some next)
    (futureId : FutureId) :
    next.replica.calls.submitted Stage.Unserved futureId + runBy futureId action ≤
      process.replica.calls.submitted Stage.Unserved futureId + submittedBy process futureId action := by
  have hmoved := (step_effect hstep).moved
  cases hmove : moveOf me config process action with
  | none =>
      simp only [hmove, Moved] at hmoved
      rw [hmoved, runBy_eq_zero hmove]
      omega
  | some move =>
      simp only [hmove, Moved] at hmoved
      have hcopies := Calls.move_submitted_le hmoved (onward_moveOf hmove) futureId
      have hrun := runBy_le_served hmove futureId
      have hsubmitting := submitting_moveOf hmove futureId
      omega

theorem admission_queued {refusing alreadyAccepted : Bool} {request : Request}
    {refusal : Option (String × String)}
    (hqueued : admission refusing alreadyAccepted request refusal = .queued) :
    alreadyAccepted = false := by
  cases alreadyAccepted with
  | false => rfl
  | true =>
      simp only [admission, if_true] at hqueued
      split_ifs at hqueued

/-- A copy enters only where the call's marker was not set yet, and one at a time. -/
theorem enteredBy_cases (me : Address) (process : Process) (action : Action)
    (futureId : FutureId) :
    enteredBy me process futureId action = 0 ∨
      enteredBy me process futureId action = 1 ∧ (me, futureId) ∉ process.redis.accepted ∧
        (me, futureId) ∈ acceptedBy me process action := by
  unfold enteredBy acceptedBy
  split
  case h_1 request refusal now =>
    split_ifs with hadmission
    · by_cases hfuture : request.futureId = futureId
      · subst hfuture
        have hfresh : (me, request.futureId) ∉ process.redis.accepted := by
          simpa [Redis.isAccepted] using admission_queued hadmission
        exact Or.inr ⟨by simp [oneOf], hfresh, by simp [hadmission]⟩
      · exact Or.inl (by simp [oneOf, hfuture])
    · exact Or.inl rfl
  case h_2 => exact Or.inl rfl

end Process

end CanyonOS
