import CanyonOS.Controller.Effects

/-!
# What the counters count

A controller publishes its work as numbers kept by different threads: the queue's unfinished tasks,
the forwards not yet taken, the calls served and completed. Each is tied here to the calls it stands
for.
-/

namespace CanyonOS

/-- Counted as served, and not yet as completed. -/
def Stage.Serving : Stage → Prop
  | .running | .returned _ | .stored _ | .finishing _ | .stamped _ => True
  | _ => False

instance : DecidablePred Stage.Serving := fun stage =>
  match stage with
  | .running | .returned _ | .stored _ | .finishing _ | .stamped _ => isTrue trivial
  | .dequeued | .started | .counted _ | .reported => isFalse id

namespace Calls

def handed : Option (Request × HandStage) → Nat
  | some _ => 1
  | none => 0

/-- The two counters kept beside the containers are right. -/
structure Counted (calls : Calls) : Prop where
  tasks : calls.unfinishedTasks = calls.requestQueue.length + handed calls.hand
  unsent : calls.unsent = calls.attempts.length + calls.backoffs.length + calls.countingDown

def serving (calls : Calls) : Nat :=
  calls.workers.countP fun worker => worker.2.Serving

variable {calls next : Calls} {move : Move}

theorem length_erase_add_one {request : Request} {requests : List Request}
    (hmem : request ∈ requests) : (requests.erase request).length + 1 = requests.length := by
  have hlength := List.length_erase_of_mem hmem
  have hpos := List.length_pos_of_mem hmem
  omega

theorem Counted.put (hcounted : calls.Counted) (request : Request) :
    (calls.put request).Counted where
  tasks := by
    have htasks := hcounted.tasks
    simp only [Calls.put, List.length_append, List.length_singleton]
    omega
  unsent := hcounted.unsent

theorem Counted.endAttempt (hcounted : calls.Counted) {request : Request}
    (hmem : request ∈ calls.attempts) : (calls.endAttempt request).Counted where
  tasks := hcounted.tasks
  unsent := by
    have hlength := length_erase_add_one hmem
    have hunsent := hcounted.unsent
    simp only [Calls.endAttempt]
    omega

theorem Counted.endBackoff (hcounted : calls.Counted) {request : Request}
    (hmem : request ∈ calls.backoffs) : (calls.endBackoff request).Counted where
  tasks := hcounted.tasks
  unsent := by
    have hlength := length_erase_add_one hmem
    have hunsent := hcounted.unsent
    simp only [Calls.endBackoff]
    omega

theorem Counted.of_move (hcounted : calls.Counted) (hmove : calls.move move = some next) :
    next.Counted := by
  have htasks := hcounted.tasks
  have hunsent := hcounted.unsent
  cases move with
  | enter request =>
      cases hmove
      exact ⟨htasks, hunsent⟩
  | put request =>
      simp only [Calls.move] at hmove
      split_ifs at hmove
      cases hmove
      have herased : Counted { calls with entering := calls.entering.erase request } :=
        ⟨htasks, hunsent⟩
      exact herased.put request
  | take =>
      simp only [Calls.move] at hmove
      split at hmove <;> cases hmove
      rename_i hhand hqueue
      refine ⟨?_, hunsent⟩
      simpa [hhand, hqueue, handed] using htasks
  | settle | submit | register =>
      simp only [Calls.move] at hmove
      split at hmove <;> cases hmove
      rename_i hhand
      refine ⟨?_, hunsent⟩
      simpa [hhand, handed] using htasks
  | handOn me address =>
      simp only [Calls.move] at hmove
      split at hmove <;> cases hmove
      rename_i hhand
      refine ⟨by simpa [hhand, handed] using htasks, ?_⟩
      simp only [List.length_cons]
      omega
  | taskDone =>
      simp only [Calls.move] at hmove
      split at hmove <;> cases hmove
      rename_i hhand
      refine ⟨?_, hunsent⟩
      simp only [hhand, handed] at htasks ⊢
      omega
  | dequeue =>
      simp only [Calls.move] at hmove
      split at hmove <;> cases hmove
      exact ⟨htasks, hunsent⟩
  | work | retire | forget =>
      simp only [Calls.move] at hmove
      split_ifs at hmove
      cases hmove
      exact ⟨htasks, hunsent⟩
  | collect =>
      simp only [Calls.move] at hmove
      split at hmove <;> cases hmove
      rename_i hqueue
      refine ⟨?_, hunsent⟩
      simp only [hqueue, List.length_cons] at htasks ⊢
      omega
  | answered request =>
      simp only [Calls.move] at hmove
      split_ifs at hmove with hmem
      cases hmove
      exact hcounted.endAttempt hmem
  | requeue request status =>
      simp only [Calls.move] at hmove
      split_ifs at hmove with hmem
      cases hmove
      exact (hcounted.endAttempt hmem).put _
  | backOff request status =>
      simp only [Calls.move] at hmove
      split_ifs at hmove with hmem
      cases hmove
      have hlength := length_erase_add_one hmem
      refine ⟨htasks, ?_⟩
      simp only [List.length_cons]
      omega
  | resend request =>
      simp only [Calls.move] at hmove
      split_ifs at hmove with hmem
      cases hmove
      exact (hcounted.endBackoff hmem).put _
  | giveUp request =>
      simp only [Calls.move] at hmove
      split_ifs at hmove with hmem
      cases hmove
      exact hcounted.endBackoff hmem
  | countDown =>
      simp only [Calls.move] at hmove
      split_ifs at hmove with hpos
      cases hmove
      refine ⟨htasks, ?_⟩
      simp only
      omega

/-- One worker's stage changes; the others go on serving. -/
theorem serving_of_work {call : Request} {stage stage' : Stage}
    (hmove : calls.move (.work call stage stage') = some next) :
    next.serving + (if stage.Serving then 1 else 0) =
      calls.serving + if stage'.Serving then 1 else 0 := by
  simp only [Calls.move] at hmove
  split_ifs at hmove with hmem
  cases hmove
  have hcount := (List.perm_cons_erase hmem).countP_eq fun worker => decide worker.2.Serving
  simp only [serving, List.countP_cons, decide_eq_true_eq] at hcount ⊢
  omega

theorem serving_of_move (hmove : calls.move move = some next)
    (hother : ∀ call stage stage', move ≠ .work call stage stage') :
    next.serving = calls.serving := by
  cases move with
  | work call stage stage' => exact absurd rfl (hother call stage stage')
  | dequeue =>
      simp only [Calls.move] at hmove
      split at hmove <;> cases hmove
      exact List.countP_cons_of_neg fun hserves => of_decide_eq_true hserves
  | retire call =>
      simp only [Calls.move] at hmove
      split_ifs at hmove with hmem
      cases hmove
      have hcount := (List.perm_cons_erase hmem).countP_eq fun worker => decide worker.2.Serving
      have hgone : ¬ decide (Stage.reported.Serving) = true := fun hserves =>
        of_decide_eq_true hserves
      exact (hcount.trans (List.countP_cons_of_neg hgone)).symm
  | enter =>
      cases hmove
      rfl
  | put | forget | answered | requeue | backOff | resend | giveUp | countDown =>
      simp only [Calls.move] at hmove
      split_ifs at hmove
      cases hmove
      rfl
  | take | settle | submit | handOn | register | taskDone | collect =>
      simp only [Calls.move] at hmove
      split at hmove <;> cases hmove
      rfl

end Calls

namespace Process

variable {me : Address} {config : Config} {process next : Process} {action : Action}

theorem counted_of_step (hcounted : process.replica.calls.Counted)
    (hstep : process.step me config action = some next) : next.replica.calls.Counted := by
  have hmoved := (step_effect hstep).moved
  cases hmove : moveOf me config process action with
  | none =>
      simp only [hmove, Moved] at hmoved
      exact hmoved ▸ hcounted
  | some move =>
      simp only [hmove, Moved] at hmoved
      exact hcounted.of_move hmoved

theorem workStep_serving {call : Request} {stage stage' : Stage} {work : Work} {done : Process}
    (hwork : workStep me config process call stage work = some (stage', done)) :
    servedBy (.worker (.work call stage work)) + (if stage.Serving then 1 else 0) =
      completedBy (.worker (.work call stage work)) + if stage'.Serving then 1 else 0 := by
  unfold workStep at hwork
  split at hwork
  case h_4 | h_11 => split_ifs at hwork <;> cases hwork <;> rfl
  case h_12 => split at hwork <;> cases hwork <;> rfl
  case h_13 => cases hwork
  all_goals
    cases hwork
    rfl

theorem servedBy_eq_zero (hother : ∀ call stage work, action ≠ .worker (.work call stage work)) :
    servedBy action = 0 ∧ completedBy action = 0 := by
  unfold servedBy completedBy
  constructor
  · split
    · exact absurd rfl (hother _ _ _)
    · rfl
  · split
    · exact absurd rfl (hother _ _ _)
    · rfl

/-- A call served starts to count, a call completed no longer does. -/
theorem serving_of_step (hstep : process.step me config action = some next) :
    next.replica.calls.serving + completedBy action =
      process.replica.calls.serving + servedBy action := by
  have hmoved := (step_effect hstep).moved
  by_cases hworks : ∃ call stage work, action = .worker (.work call stage work)
  · obtain ⟨call, stage, work, rfl⟩ := hworks
    obtain ⟨-, stage', done, hwork, -⟩ := work_of_step hstep
    simp only [moveOf, hwork, Option.map_some, Moved] at hmoved
    have hserving := Calls.serving_of_work hmoved
    have hbalance := workStep_serving hwork
    omega
  · push Not at hworks
    obtain ⟨hserved, hcompleted⟩ := servedBy_eq_zero hworks
    rw [hserved, hcompleted]
    cases hmove : moveOf me config process action with
    | none =>
        simp only [hmove, Moved] at hmoved
        rw [hmoved]
    | some move =>
        simp only [hmove, Moved] at hmoved
        refine congrArg (· + 0) (Calls.serving_of_move hmoved ?_)
        rintro call stage stage' rfl
        obtain ⟨work, done, haction, -⟩ := moveOf_causedBy hmove
        exact hworks call stage work haction

/-- Calls served and not completed are those of the workers that serve one. -/
def ServedCounted (me : Address) (process : Process) : Prop :=
  process.redis.requestsServed me =
    process.redis.requestsCompleted me + process.replica.calls.serving

theorem ServedCounted.step (hcounted : process.ServedCounted me)
    (hstep : process.step me config action = some next) : next.ServedCounted me := by
  have hledger := (step_effect hstep).ledger
  have hserved : next.redis.requestsServed me =
      process.redis.requestsServed me + servedBy action := congrArg Ledger.served hledger
  have hcompleted : next.redis.requestsCompleted me =
      process.redis.requestsCompleted me + completedBy action := congrArg Ledger.completed hledger
  have hserving := serving_of_step hstep
  unfold ServedCounted at hcounted ⊢
  omega

end Process

end CanyonOS
