import CanyonOS.Controller.Forwarding

/-!
# How a request ends

A request is over when its root call, the one with no parent, has ended. Its id must then be in
`request:completed` of some machine, where the GlobalController finds it. The worker that ran the
call adds the id in its `finally` block, and `_mark_future_failed` adds it when its own machine's
record names the request.
-/

namespace CanyonOS

/-- The method is over and the worker goes on to the end of its `finally` block. -/
def Stage.Ending : Stage → Prop
  | .returned _ | .stored _ | .finishing _ | .stamped _ | .counted _ => True
  | _ => False

instance : DecidablePred Stage.Ending
  | .returned _ | .stored _ | .finishing _ | .stamped _ | .counted _ => isTrue trivial
  | .dequeued | .started | .running | .reported => isFalse id

namespace Calls

/-- Every request a controller holds satisfies `property`. What only names a call, as
`_executor_futures` does, is left out. -/
structure HoldsOnly (property : Request → Prop) (calls : Calls) : Prop where
  entering : ∀ request ∈ calls.entering, property request
  queued : ∀ request ∈ calls.requestQueue, property request
  hand : ∀ request stage, calls.hand = some (request, stage) → property request
  submitted : ∀ request ∈ calls.workQueue, property request
  workers : ∀ worker ∈ calls.workers, property worker.1
  attempts : ∀ request ∈ calls.attempts, property request
  backoffs : ∀ request ∈ calls.backoffs, property request

variable {property : Request → Prop} {calls next : Calls} {move : Move} {request : Request}

theorem holdsOnly_init : HoldsOnly property {} where
  entering _ hmem := by cases hmem
  queued _ hmem := by cases hmem
  hand _ _ heq := by cases heq
  submitted _ hmem := by cases hmem
  workers _ hmem := by cases hmem
  attempts _ hmem := by cases hmem
  backoffs _ hmem := by cases hmem

theorem HoldsOnly.put (hholds : calls.HoldsOnly property) (hrequest : property request) :
    (calls.put request).HoldsOnly property := by
  refine { hholds with queued := fun other hmem => ?_ }
  rcases List.mem_append.mp hmem with hold | hnew
  · exact hholds.queued other hold
  · rwa [List.mem_singleton.mp hnew]

theorem HoldsOnly.endAttempt (hholds : calls.HoldsOnly property) (request : Request) :
    (calls.endAttempt request).HoldsOnly property :=
  { hholds with attempts := fun other hmem => hholds.attempts other (List.mem_of_mem_erase hmem) }

theorem HoldsOnly.endBackoff (hholds : calls.HoldsOnly property) (request : Request) :
    (calls.endBackoff request).HoldsOnly property :=
  { hholds with backoffs := fun other hmem => hholds.backoffs other (List.mem_of_mem_erase hmem) }

/-- A property of requests that forwarding and retrying keep holds of all a controller has, when it
holds of those that enter. -/
theorem HoldsOnly.of_move (hholds : calls.HoldsOnly property)
    (hforward : ∀ sender address request, property request →
      property (forwardedRequest sender address request))
    (hretry : ∀ request status, property request → property (retryRequest request status))
    (henter : ∀ request, move = .enter request → property request)
    (hmove : calls.move move = some next) : next.HoldsOnly property := by
  cases move with
  | enter request =>
      cases hmove
      refine { hholds with entering := fun other hmem => ?_ }
      rcases List.mem_append.mp hmem with hold | hnew
      · exact hholds.entering other hold
      · rw [List.mem_singleton.mp hnew]
        exact henter request rfl
  | put request =>
      simp only [Calls.move] at hmove
      split_ifs at hmove with hmem
      cases hmove
      refine HoldsOnly.put ?_ (hholds.entering request hmem)
      exact { hholds with
        entering := fun other hother => hholds.entering other (List.mem_of_mem_erase hother) }
  | take =>
      simp only [Calls.move] at hmove
      split at hmove <;> cases hmove
      rename_i request rest hhand hqueue
      refine { hholds with queued := fun other hmem => ?_, hand := fun other stage heq => ?_ }
      · exact hholds.queued other (hqueue ▸ List.mem_cons_of_mem _ hmem)
      · cases heq
        exact hholds.queued request (hqueue ▸ List.mem_cons_self)
  | settle | register =>
      simp only [Calls.move] at hmove
      split at hmove <;> cases hmove
      rename_i request hhand
      refine { hholds with hand := fun other stage heq => ?_ }
      cases heq
      exact hholds.hand request _ hhand
  | submit =>
      simp only [Calls.move] at hmove
      split at hmove <;> cases hmove
      rename_i request hhand
      have hrequest := hholds.hand request _ hhand
      refine { hholds with hand := fun other stage heq => ?_, submitted := fun other hmem => ?_ }
      · cases heq
        exact hrequest
      · rcases List.mem_append.mp hmem with hold | hnew
        · exact hholds.submitted other hold
        · rwa [List.mem_singleton.mp hnew]
  | handOn sender address =>
      simp only [Calls.move] at hmove
      split at hmove <;> cases hmove
      rename_i request hhand
      have hrequest := hholds.hand request _ hhand
      refine { hholds with hand := fun other stage heq => ?_, attempts := fun other hmem => ?_ }
      · cases heq
        exact hrequest
      · rcases List.mem_cons.mp hmem with rfl | hold
        · exact hforward sender address request hrequest
        · exact hholds.attempts other hold
  | taskDone =>
      simp only [Calls.move] at hmove
      split at hmove <;> cases hmove
      exact { hholds with hand := fun _ _ heq => by cases heq }
  | dequeue =>
      simp only [Calls.move] at hmove
      split at hmove <;> cases hmove
      rename_i call rest hqueue
      refine { hholds with submitted := fun other hmem => ?_, workers := fun worker hmem => ?_ }
      · exact hholds.submitted other (hqueue ▸ List.mem_cons_of_mem _ hmem)
      · rcases List.mem_cons.mp hmem with rfl | hold
        · exact hholds.submitted call (hqueue ▸ List.mem_cons_self)
        · exact hholds.workers worker hold
  | work call stage stage' =>
      simp only [Calls.move] at hmove
      split_ifs at hmove with hmem
      cases hmove
      refine { hholds with workers := fun worker hworker => ?_ }
      rcases List.mem_cons.mp hworker with rfl | hold
      · exact hholds.workers (call, stage) hmem
      · exact hholds.workers worker (List.mem_of_mem_erase hold)
  | retire call =>
      simp only [Calls.move] at hmove
      split_ifs at hmove
      cases hmove
      exact { hholds with
        workers := fun worker hmem => hholds.workers worker (List.mem_of_mem_erase hmem) }
  | forget | countDown =>
      simp only [Calls.move] at hmove
      split_ifs at hmove
      cases hmove
      exact { hholds with }
  | collect =>
      simp only [Calls.move] at hmove
      split at hmove <;> cases hmove
      rename_i hqueue
      refine { hholds with queued := fun other hmem => ?_ }
      exact hholds.queued other (hqueue ▸ List.mem_cons_of_mem _ hmem)
  | answered request =>
      simp only [Calls.move] at hmove
      split_ifs at hmove
      cases hmove
      exact hholds.endAttempt request
  | requeue request status =>
      simp only [Calls.move] at hmove
      split_ifs at hmove with hmem
      cases hmove
      exact (hholds.endAttempt request).put (hretry request status (hholds.attempts request hmem))
  | backOff request status =>
      simp only [Calls.move] at hmove
      split_ifs at hmove with hmem
      cases hmove
      refine { hholds.endAttempt request with backoffs := fun other hother => ?_ }
      rcases List.mem_cons.mp hother with rfl | hold
      · exact hretry request status (hholds.attempts request hmem)
      · exact hholds.backoffs other hold
  | resend request =>
      simp only [Calls.move] at hmove
      split_ifs at hmove with hmem
      cases hmove
      exact (hholds.endBackoff request).put (hholds.backoffs request hmem)
  | giveUp request =>
      simp only [Calls.move] at hmove
      split_ifs at hmove
      cases hmove
      exact hholds.endBackoff request

/-- A worker stays where it is until its own next step. -/
theorem worker_of_move (hmove : calls.move move = some next) {worker : Request × Stage}
    (hworker : worker ∈ calls.workers) :
    worker ∈ next.workers ∨ (∃ stage, move = .work worker.1 worker.2 stage) ∨
      worker.2 = .reported := by
  cases move with
  | dequeue =>
      simp only [Calls.move] at hmove
      split at hmove <;> cases hmove
      exact Or.inl (List.mem_cons_of_mem _ hworker)
  | work call stage stage' =>
      simp only [Calls.move] at hmove
      split_ifs at hmove
      cases hmove
      by_cases heq : worker = (call, stage)
      · subst heq
        exact Or.inr (Or.inl ⟨stage', rfl⟩)
      · exact Or.inl (List.mem_cons_of_mem _ ((List.mem_erase_of_ne heq).mpr hworker))
  | retire call =>
      simp only [Calls.move] at hmove
      split_ifs at hmove
      cases hmove
      by_cases heq : worker = (call, .reported)
      · subst heq
        exact Or.inr (Or.inr rfl)
      · exact Or.inl ((List.mem_erase_of_ne heq).mpr hworker)
  | enter =>
      cases hmove
      exact Or.inl hworker
  | put | forget | answered | requeue | backOff | resend | giveUp | countDown =>
      simp only [Calls.move] at hmove
      split_ifs at hmove
      cases hmove
      exact Or.inl hworker
  | take | settle | submit | handOn | register | taskDone | collect =>
      simp only [Calls.move] at hmove
      split at hmove <;> cases hmove
      exact Or.inl hworker

end Calls

namespace Process

variable {me : Address} {config : Config} {process next : Process} {action : Action}
  {futureId : FutureId}

/-! ### What ends a call -/

/-- The call `_mark_future_failed` is given in a step. -/
def marks (me : Address) (process : Process) : Action → Option FutureId
  | .server (.execute request refusal _) =>
      match admission process.replica.refusing (process.redis.isAccepted me request.futureId)
          request refusal with
      | .refused _ _ => some request.futureId
      | _ => none
  | .server (.relayUndelivered futureId _) => some futureId
  | .loop (.process (.refused _ _ _)) | .loop (.process (.raised _)) =>
      process.replica.calls.hand.map (·.1.futureId)
  | .worker (.work call _ (.refuse _ _)) | .worker (.work call _ (.raises _))
  | .worker (.work call _ (.undelivered _)) => some call.futureId
  | .metrics .failLeftover => process.replica.pass.toFail.head?
  | .metrics (.failGone futureId) => some futureId
  | .forward (.onForwarded request (.other _) _) => some request.futureId
  | .forward (.onForwarded request .unavailable _)
  | .forward (.onForwarded request .deadlineExceeded _) =>
      if forwardRetries < request.retries + 1 then some request.futureId else none
  | _ => none

/-- How a call comes to be recorded or reported as ended on this machine, with `completed` the ids
in `request:completed` after the step. -/
inductive Ends (me : Address) (process : Process) (action : Action) (completed : List RequestId)
    (futureId : FutureId) : Prop where
  | before (hterminal : (process.redis.future futureId).Terminal)
  | submission (call : Request) (reason : String)
      (haction : action = .stub (.submitFailed call reason)) (hcall : call.futureId = futureId)
  | marked (hmarks : process.marks me action = some futureId)
      (hcompleted : rootRequest (process.redis.future futureId).requestId
        (process.redis.future futureId).parent ⊆ completed)
  | worked (call : Request) (stage : Stage) (work : Work)
      (haction : action = .worker (.work call stage work)) (hstage : stage.Ending)
      (hcall : call.futureId = futureId)
  | arrived (message : ResultMessage) (haction : action = .server (.writeResult message))
      (hmessage : message.futureId = futureId)

/-- Every call that shows as ended after a step is accounted for. -/
structure Accounts (me : Address) (process next : Process) (action : Action) : Prop where
  completed : process.redis.completed ⊆ next.redis.completed
  terminal : ∀ futureId, (next.redis.future futureId).Terminal →
    Ends me process action next.redis.completed futureId
  sent : ∀ message ∈ next.replica.sent, message ∈ process.replica.sent ∨
    ∃ futureId, message.2.futureId = some futureId ∧
      Ends me process action next.redis.completed futureId

theorem Ends.mono {completed more : List RequestId}
    (hends : Ends me process action completed futureId) (hmore : completed ⊆ more) :
    Ends me process action more futureId := by
  cases hends with
  | before hterminal => exact .before hterminal
  | submission call reason haction hcall => exact .submission call reason haction hcall
  | marked hmarks hcompleted => exact .marked hmarks fun _ hmem => hmore (hcompleted hmem)
  | worked call stage work haction hstage hcall =>
      exact .worked call stage work haction hstage hcall
  | arrived message haction hmessage => exact .arrived message haction hmessage

/-- What a step does besides touches no record, id or message. -/
theorem Accounts.of_same {after : Process} (haccounts : Accounts me process after action)
    (hfuture : next.redis.future = after.redis.future)
    (hcompleted : after.redis.completed ⊆ next.redis.completed)
    (hsent : next.replica.sent = after.replica.sent) : Accounts me process next action where
  completed := List.Subset.trans haccounts.completed hcompleted
  terminal futureId hterminal :=
    (haccounts.terminal futureId (hfuture ▸ hterminal)).mono hcompleted
  sent message hmem := by
    rcases haccounts.sent message (hsent ▸ hmem) with hold | ⟨futureId, hfutureId, hends⟩
    · exact Or.inl hold
    · exact Or.inr ⟨futureId, hfutureId, hends.mono hcompleted⟩

theorem accounts_refl : Accounts me process process action where
  completed := List.Subset.refl _
  terminal _ hterminal := .before hterminal
  sent _ hmem := Or.inl hmem

/-- A write to one record, which ends the call only in a way accounted for. -/
theorem Accounts.hset (haccounts : Accounts me process next action) (futureId : FutureId)
    (fields : Record) (hends : ((next.redis.future futureId).hsetMultiple fields).Terminal →
      Ends me process action next.redis.completed futureId) :
    Accounts me process (next.hset futureId fields) action where
  completed := haccounts.completed
  terminal other hterminal := by
    rw [hset_redis] at hterminal
    by_cases heq : other = futureId
    · subst heq
      rw [Redis.hset_future_self] at hterminal
      exact hends hterminal
    · rw [Redis.hset_future_of_ne heq] at hterminal
      exact haccounts.terminal other hterminal
  sent := haccounts.sent

/-- A write that sets no outcome. -/
theorem terminal_of_hsetMultiple {record fields : Record}
    (hterminal : (record.hsetMultiple fields).Terminal) (hfailed : fields.failed ≠ some true)
    (hresult : fields.result = none) : record.Terminal := by
  rcases hterminal with hmarked | hdone
  · cases hfield : fields.failed with
    | none => exact Or.inl (by simpa [hfield] using hmarked)
    | some failed => simp_all
  · exact Or.inr (by simpa [hresult] using hdone)

theorem mem_resultMessages {redis : Redis} {addresses : List Address} {result : Option String}
    {failed : Bool} {errorMessage : String} {message : Address × Record}
    (hmem : message ∈ resultMessages redis addresses futureId result failed errorMessage) :
    message.1 ∈ addresses ∧ message.2.futureId = some futureId := by
  obtain ⟨address, haddress, rfl⟩ := List.mem_map.mp hmem
  exact ⟨haddress, rfl⟩

theorem Accounts.sendResultCallback (haccounts : Accounts me process next action)
    (addresses : List Address) (result : Option String) (failed : Bool) (errorMessage : String)
    (hends : Ends me process action next.redis.completed futureId) :
    Accounts me process
      (next.sendResultCallback addresses futureId result failed errorMessage) action where
  completed := haccounts.completed
  terminal := haccounts.terminal
  sent message hmem := by
    rcases List.mem_append.mp hmem with hold | hnew
    · exact haccounts.sent message hold
    · exact Or.inr ⟨futureId, (mem_resultMessages hnew).2, hends⟩

theorem Accounts.fanOutToConsumers (haccounts : Accounts me process next action)
    (result : Option String) (failed : Bool) (errorMessage : String)
    (hends : Ends me process action next.redis.completed futureId) :
    Accounts me process (next.fanOutToConsumers me futureId result failed errorMessage) action := by
  have hdropped : Accounts me process
      { next with
        replica := { next.replica with
          forwarded := Function.update next.replica.forwarded futureId none } } action :=
    haccounts.of_same rfl (List.Subset.refl _) rfl
  exact hdropped.sendResultCallback _ result failed errorMessage hends

theorem Accounts.completeRequest (haccounts : Accounts me process next action)
    (requestIds : List RequestId) :
    Accounts me process (next.completeRequest requestIds) action :=
  haccounts.of_same rfl (List.subset_append_right _ _) rfl

/-- A call that is marked failed is completed as its own record says. -/
theorem Accounts.markFutureFailed (haccounts : Accounts me process next action)
    (hfuture : next.redis.future = process.redis.future)
    (hmarks : process.marks me action = some futureId) (error : Failure)
    (origin : Option Address) (errorName : Option String) (beforeStart : Option Time) :
    Accounts me process
      (next.markFutureFailed me futureId error origin errorName beforeStart) action := by
  have hends : Ends me process action
      (rootRequest (next.redis.future futureId).requestId (next.redis.future futureId).parent ++
        next.redis.completed) futureId :=
    .marked hmarks (hfuture ▸ List.subset_append_left _ _)
  have hmarked := (haccounts.completeRequest (rootRequest (next.redis.future futureId).requestId
    (next.redis.future futureId).parent)).hset futureId
      (failureFields (next.redis.future futureId) error errorName beforeStart) fun _ => hends
  exact (hmarked.fanOutToConsumers none true _ hends).sendResultCallback _ none true _ hends

/-! ### One step, by thread -/

theorem accounts_of_move {move : Move} (hstep : process.move move = some next) :
    Accounts me process next action := by
  obtain ⟨calls, -, rfl⟩ := move_eq_some.mp hstep
  exact accounts_refl.of_same rfl (List.Subset.refl _) rfl

theorem stubStep_accounts {action : StubAction} (hstep : process.stubStep action = some next) :
    Accounts me process next (.stub action) := by
  cases action with
  | create call =>
      cases hstep
      exact accounts_refl.hset _ _ fun hterminal =>
        .before (terminal_of_hsetMultiple hterminal (by simp [createdFields]) rfl)
  | submitFailed call reason =>
      cases hstep
      exact accounts_refl.hset _ _ fun _ => .submission call reason rfl rfl

theorem serverStep_accounts {action : ServerAction}
    (hstep : process.serverStep me action = some next) :
    Accounts me process next (.server action) := by
  cases action with
  | execute request refusal now =>
      simp only [serverStep, execute] at hstep
      split_ifs at hstep
      split at hstep
      case h_1 | h_2 =>
        cases hstep
        exact accounts_refl
      case h_3 hadmission =>
        cases hstep
        have hmarked : Accounts me process
            { process with
              redis := { process.redis with
                accepted := (me, request.futureId) :: process.redis.accepted } }
            (.server (.execute request refusal now)) :=
          accounts_refl.of_same rfl (List.Subset.refl _) rfl
        exact hmarked.markFutureFailed rfl (by simp [marks, hadmission]) _ _ _ _
      case h_4 =>
        obtain ⟨calls, -, rfl⟩ := move_eq_some.mp hstep
        exact accounts_refl.of_same rfl (List.Subset.refl _) rfl
  | put request =>
      obtain ⟨queued, hqueued, rfl⟩ := Option.map_eq_some_iff.mp hstep
      exact (accounts_of_move hqueued).of_same rfl (List.Subset.refl _) rfl
  | writeResult message =>
      cases hstep
      have hends : Ends me process (.server (.writeResult message)) process.redis.completed
          message.futureId := .arrived message rfl rfl
      have hwritten := accounts_refl.hset message.futureId message.data fun _ => hends
      exact hwritten.fanOutToConsumers _ _ _ hends
  | relayUndelivered futureId reason =>
      simp only [serverStep] at hstep
      split_ifs at hstep
      cases hstep
      exact accounts_refl.markFutureFailed rfl rfl _ _ _ _
  | cleanup requestId =>
      cases hstep
      exact accounts_refl.of_same rfl (List.Subset.refl _) rfl

theorem processRequest_accounts {request : Request} {verdict : Verdict}
    (hhand : process.replica.calls.hand = some (request, .taken))
    (hstep : process.processRequest me config request verdict = some next) :
    Accounts me process next (.loop (.process verdict)) := by
  cases verdict with
  | refused error errorName now =>
      obtain ⟨done, hmove, rfl⟩ := Option.map_eq_some_iff.mp hstep
      have hdone : Accounts me process done (.loop (.process (.refused error errorName now))) :=
        accounts_of_move hmove
      obtain ⟨calls, -, rfl⟩ := move_eq_some.mp hmove
      exact hdone.markFutureFailed rfl (by simp [marks, hhand]) _ _ _ _
  | raised error =>
      obtain ⟨done, hmove, rfl⟩ := Option.map_eq_some_iff.mp hstep
      have hdone : Accounts me process done (.loop (.process (.raised error))) :=
        accounts_of_move hmove
      obtain ⟨calls, -, rfl⟩ := move_eq_some.mp hmove
      exact hdone.markFutureFailed rfl (by simp [marks, hhand]) _ _ _ _
  | held =>
      simp only [processRequest] at hstep
      split_ifs at hstep
      obtain ⟨done, hmove, rfl⟩ := Option.map_eq_some_iff.mp hstep
      have hdone : Accounts me process done (.loop (.process .held)) := accounts_of_move hmove
      obtain ⟨calls, -, rfl⟩ := move_eq_some.mp hmove
      have hheld := hdone.hset request.futureId
        { initialFields request with failed := none, error := none } fun hterminal =>
          .before (terminal_of_hsetMultiple hterminal (by simp) rfl)
      exact hheld.of_same rfl (List.Subset.refl _) rfl
  | «local» | forwarded address =>
      simp only [processRequest] at hstep
      split_ifs at hstep
      obtain ⟨moved, hmove, rfl⟩ := Option.map_eq_some_iff.mp hstep
      exact (accounts_of_move hmove).of_same rfl (List.Subset.refl _) rfl

theorem loopStep_accounts {action : LoopAction}
    (hstep : process.loopStep me config action = some next) :
    Accounts me process next (.loop action) := by
  cases action with
  | take | register | taskDone => exact accounts_of_move hstep
  | registerConsumer futureId address =>
      simp only [loopStep] at hstep
      have hregistered : Accounts me process (process.addConsumer futureId address)
          (.loop (.registerConsumer futureId address)) :=
        accounts_refl.of_same rfl (List.Subset.refl _) rfl
      split at hstep
      · split at hstep <;> cases hstep
        · rename_i result hresult
          exact hregistered.sendResultCallback _ _ _ _ (.before (Or.inr (by simp [hresult])))
        · exact hregistered
      · cases hstep
  | process verdict =>
      simp only [loopStep] at hstep
      split at hstep
      · rename_i hhand
        exact processRequest_accounts hhand hstep
      · cases hstep

theorem workStep_accounts {call : Request} {stage stage' : Stage} {work : Work}
    (hstep : workStep me config process call stage work = some (stage', next)) :
    Accounts me process next (.worker (.work call stage work)) := by
  have hworked : ∀ completed, stage.Ending →
      Ends me process (.worker (.work call stage work)) completed call.futureId :=
    fun completed hstage => .worked call stage work rfl hstage rfl
  unfold workStep at hstep
  split at hstep
  case h_1 =>
    cases hstep
    exact accounts_refl.hset _ _ fun hterminal =>
      .before (terminal_of_hsetMultiple hterminal (by simp [initialFields]) rfl)
  case h_2 | h_5 | h_8 =>
    cases hstep
    exact accounts_refl.markFutureFailed rfl rfl _ _ _ _
  case h_3 | h_10 =>
    cases hstep
    exact accounts_refl.of_same rfl (List.Subset.refl _) rfl
  case h_4 =>
    split_ifs at hstep <;> cases hstep <;> exact accounts_refl
  case h_6 =>
    cases hstep
    exact accounts_refl.hset _ _ fun _ => hworked _ trivial
  case h_7 =>
    cases hstep
    exact (accounts_refl.hset _ _ fun _ => hworked _ trivial).fanOutToConsumers _ _ _
      (hworked _ trivial)
  case h_9 =>
    cases hstep
    exact accounts_refl.hset _ _ fun _ => hworked _ trivial
  case h_11 =>
    split_ifs at hstep
    cases hstep
    exact (accounts_refl.markFutureFailed rfl rfl _ _ _ _).completeRequest _
  case h_12 =>
    split at hstep <;> cases hstep
    · exact (accounts_refl.sendResultCallback _ _ _ _ (hworked _ trivial)).completeRequest _
    · exact (accounts_refl.sendResultCallback _ _ _ _ (hworked _ trivial)).completeRequest _
    · exact accounts_refl.completeRequest _
  case h_13 => cases hstep

theorem workerStep_accounts {action : WorkerAction}
    (hstep : process.workerStep me config action = some next) :
    Accounts me process next (.worker action) := by
  cases action with
  | dequeue | retire | forget => exact accounts_of_move hstep
  | work call stage work =>
      simp only [workerStep] at hstep
      split at hstep
      case h_1 stage' done hwork =>
        obtain ⟨calls, -, rfl⟩ := move_eq_some.mp hstep
        exact (workStep_accounts hwork).of_same rfl (List.Subset.refl _) rfl
      case h_2 => cases hstep

theorem metricsStep_accounts {action : MetricsAction}
    (hstep : process.metricsStep me config action = some next) :
    Accounts me process next (.metrics action) := by
  cases action with
  | drain | drainUntil =>
      cases hstep
      exact accounts_refl.of_same rfl (List.Subset.refl _) rfl
  | tick now =>
      simp only [metricsStep] at hstep
      split_ifs at hstep <;> cases hstep <;>
        exact accounts_refl.of_same rfl (List.Subset.refl _) rfl
  | failUnfinished | cutOff =>
      simp only [metricsStep] at hstep
      split at hstep <;> cases hstep
      exact accounts_refl.of_same rfl (List.Subset.refl _) rfl
  | collect =>
      simp only [metricsStep] at hstep
      split at hstep
      · obtain ⟨collected, hcollected, rfl⟩ := Option.map_eq_some_iff.mp hstep
        exact (accounts_of_move hcollected).of_same rfl (List.Subset.refl _) rfl
      · cases hstep
  | failLeftover =>
      simp only [metricsStep] at hstep
      split at hstep <;> cases hstep
      rename_i call rest hpass
      have hpopped : Accounts me process
          { process with replica := { process.replica with pass := .failing rest } }
          (.metrics .failLeftover) :=
        accounts_refl.of_same rfl (List.Subset.refl _) rfl
      exact hpopped.markFutureFailed rfl (by simp [marks, hpass, Pass.toFail]) _ _ _ _
  | failGone futureId =>
      simp only [metricsStep] at hstep
      split_ifs at hstep
      cases hstep
      exact accounts_refl.markFutureFailed rfl rfl _ _ _ _

theorem retry_accounts {request : Request} {status : Status} {replicas : Nat}
    (hstatus : status = .unavailable ∨ status = .deadlineExceeded)
    (hstep : process.retry me request status replicas = some next) :
    Accounts me process next (.forward (.onForwarded request status replicas)) := by
  simp only [retry] at hstep
  split_ifs at hstep with hretries
  · obtain ⟨ended, hanswered, rfl⟩ := Option.map_eq_some_iff.mp hstep
    have hended : Accounts me process ended (.forward (.onForwarded request status replicas)) :=
      accounts_of_move hanswered
    obtain ⟨calls, -, rfl⟩ := move_eq_some.mp hanswered
    refine hended.markFutureFailed rfl ?_ _ _ _ _
    rcases hstatus with rfl | rfl <;> simp [marks, hretries]
  all_goals exact accounts_of_move hstep

theorem forwardStep_accounts {action : ForwardAction}
    (hstep : process.forwardStep me action = some next) :
    Accounts me process next (.forward action) := by
  cases action with
  | onForwarded request status replicas =>
      cases status with
      | ok => exact accounts_of_move hstep
      | other details =>
          obtain ⟨ended, hmove, rfl⟩ := Option.map_eq_some_iff.mp hstep
          have hended : Accounts me process ended
              (.forward (.onForwarded request (.other details) replicas)) := accounts_of_move hmove
          obtain ⟨calls, -, rfl⟩ := move_eq_some.mp hmove
          exact hended.markFutureFailed rfl rfl _ _ _ _
      | unavailable => exact retry_accounts (Or.inl rfl) hstep
      | deadlineExceeded => exact retry_accounts (Or.inr rfl) hstep
  | resend request =>
      simp only [forwardStep] at hstep
      split_ifs at hstep <;> exact accounts_of_move hstep
  | countDown => exact accounts_of_move hstep

theorem step_accounts (hstep : process.step me config action = some next) :
    Accounts me process next action := by
  cases action with
  | stub action => exact stubStep_accounts hstep
  | server action => exact serverStep_accounts hstep
  | loop action => exact loopStep_accounts hstep
  | worker action => exact workerStep_accounts hstep
  | metrics action => exact metricsStep_accounts hstep
  | forward action => exact forwardStep_accounts hstep

/-! ### The worker that ended it -/

/-- Past its method a worker goes on to the end, where it adds its root call's request. -/
theorem workStep_ending {call : Request} {stage stage' : Stage} {work : Work}
    (hstage : stage.Ending)
    (hstep : workStep me config process call stage work = some (stage', next)) :
    stage'.Ending ∨ rootRequest call.requestId call.parent ⊆ next.redis.completed := by
  unfold workStep at hstep
  split at hstep
  case h_1 | h_2 | h_3 | h_4 | h_5 => exact hstage.elim
  case h_11 =>
    split_ifs at hstep
    cases hstep
    exact Or.inr (List.subset_append_left _ _)
  case h_12 =>
    split at hstep <;> cases hstep <;> exact Or.inr (List.subset_append_left _ _)
  case h_13 => cases hstep
  all_goals
    cases hstep
    exact Or.inl trivial

theorem ending_of_work {call : Request} {stage : Stage} {work : Work} (hstage : stage.Ending)
    (hstep : process.step me config (.worker (.work call stage work)) = some next) :
    (∃ stage', (call, stage') ∈ next.replica.calls.workers ∧ stage'.Ending) ∨
      rootRequest call.requestId call.parent ⊆ next.redis.completed := by
  obtain ⟨-, stage', done, hwork, hworker, hredis, -⟩ := work_of_step hstep
  rcases workStep_ending hstage hwork with hending | hcompleted
  · exact Or.inl ⟨stage', hworker, hending⟩
  · exact Or.inr (hredis ▸ hcompleted)

theorem ending_of_step {call : Request} {stage : Stage}
    (hworker : (call, stage) ∈ process.replica.calls.workers) (hstage : stage.Ending)
    (hstep : process.step me config action = some next) :
    (∃ stage', (call, stage') ∈ next.replica.calls.workers ∧ stage'.Ending) ∨
      rootRequest call.requestId call.parent ⊆ next.redis.completed := by
  have hmoved := (step_effect hstep).moved
  cases hmove : moveOf me config process action with
  | none =>
      simp only [hmove, Moved] at hmoved
      exact Or.inl ⟨stage, hmoved ▸ hworker, hstage⟩
  | some move =>
      simp only [hmove, Moved] at hmoved
      rcases Calls.worker_of_move hmoved hworker with hsame | ⟨stage', rfl⟩ | hreported
      · exact Or.inl ⟨stage, hsame, hstage⟩
      · obtain ⟨work, done, rfl, -⟩ := moveOf_causedBy hmove
        exact ending_of_work hstage hstep
      · obtain rfl : stage = .reported := hreported
        exact hstage.elim

end Process

/-! ### All machines -/

/-- The machines, the replicas on them, and what the GlobalController found so far. -/
structure Service where
  redis : String → Redis := fun _ => {}
  replica : Address → Replica := fun _ => {}
  /-- the requests its passes found completed, and removed once every machine had cleaned up -/
  collected : List RequestId := []

namespace Service

inductive Action where
  | own (me : Address) (action : Process.Action)
  /-- a pass of the GlobalController has every machine clean the request up -/
  | collect (requestId : RequestId)

-- `calls` is the call each future id was made for.
variable (deployment : Deployment) (calls : FutureId → Request)

def process (service : Service) (me : Address) : Process :=
  { redis := service.redis (deployment.machine me), replica := service.replica me }

/-- The request is for the call its future id was made for, whatever the hops added to it. -/
def SameCall (request : Request) : Prop :=
  request.requestId = (calls request.futureId).requestId ∧
    request.parent = (calls request.futureId).parent

instance : DecidablePred (SameCall calls) := fun _ => inferInstanceAs (Decidable (_ ∧ _))

/-- A request this call is the root of. -/
def rootOf (futureId : FutureId) : List RequestId :=
  Process.rootRequest (calls futureId).requestId (calls futureId).parent

/-- What `WriteResult` is given: a message another controller sent, the short note that follows one
it could not deliver, or a person's answer to a question, which an agent asked in a call. -/
def Announced (service : Service) (me : Address) (message : Process.ResultMessage) : Prop :=
  rootOf calls message.futureId = [] ∨
    ∃ sender ∈ deployment.replicas, ∃ sent ∈ (service.replica sender).sent, sent.1 = me ∧
      sent.2.futureId = some message.futureId ∧
      (message.data = sent.2 ∨
        message.data = failureNote message.futureId (message.data.error.getD ""))

instance (service : Service) (me : Address) (message : Process.ResultMessage) :
    Decidable (service.Announced deployment calls me message) :=
  inferInstanceAs (Decidable (_ ∨ _))

/-- Calls are made and submitted by their own stubs, forwarded as they are, and end elsewhere only
by a message. -/
def Prompted (service : Service) (me : Address) : Process.Action → Prop
  | .stub (.create call) | .stub (.submitFailed call _) =>
      deployment.home call.futureId = me ∧ calls call.futureId = call
  | .server (.execute request _ _) =>
      SameCall calls request ∧
        (request.routeTo = none → deployment.home request.futureId = me)
  | .server (.writeResult message) => service.Announced deployment calls me message
  | _ => True

instance (service : Service) (me : Address) :
    DecidablePred (service.Prompted deployment calls me) := fun action =>
  match action with
  | .stub (.create call) | .stub (.submitFailed call _) =>
      inferInstanceAs
        (Decidable (deployment.home call.futureId = me ∧ calls call.futureId = call))
  | .server (.execute request _ _) =>
      inferInstanceAs (Decidable (SameCall calls request ∧
        (request.routeTo = none → deployment.home request.futureId = me)))
  | .server (.writeResult message) =>
      inferInstanceAs (Decidable (service.Announced deployment calls me message))
  | .server (.put _) | .server (.relayUndelivered _ _) | .server (.cleanup _) | .loop _
  | .worker _ | .metrics _ | .forward _ => isTrue trivial

/-- Every machine has cleaned the request up: its id leaves `request:completed`. -/
def remove (service : Service) (requestId : RequestId) : Service :=
  { service with
    redis := fun machine =>
      { service.redis machine with
        completed := (service.redis machine).completed.filter (· ≠ requestId) }
    collected := requestId :: service.collected }

def step (service : Service) : Action → Option Service
  | .own me action =>
      if me ∈ deployment.replicas ∧ service.Prompted deployment calls me action then
        ((service.process deployment me).step me (deployment.config me) action).map fun next =>
          { service with
            redis := Function.update service.redis (deployment.machine me) next.redis
            replica := Function.update service.replica me next.replica }
      else none
  | .collect requestId =>
      if ∃ me ∈ deployment.replicas,
          requestId ∈ (service.redis (deployment.machine me)).completed then
        some (service.remove requestId)
      else none

def system : TransitionSystem Service Action where
  step := step deployment calls

/-- The request is in `request:completed` of some machine, or a pass has found it there. -/
def Seen (service : Service) (requestId : RequestId) : Prop :=
  requestId ∈ service.collected ∨
    ∃ me ∈ deployment.replicas, requestId ∈ (service.redis (deployment.machine me)).completed

instance (service : Service) (requestId : RequestId) :
    Decidable (service.Seen deployment requestId) :=
  inferInstanceAs (Decidable (_ ∨ _))

/-- A worker is past the method of the call and on its way to the end. -/
def EndingAt (service : Service) (me : Address) (futureId : FutureId) : Prop :=
  ∃ worker ∈ (service.replica me).calls.workers, worker.1.futureId = futureId ∧ worker.2.Ending

instance (service : Service) (me : Address) (futureId : FutureId) :
    Decidable (service.EndingAt me futureId) :=
  inferInstanceAs (Decidable (∃ worker ∈ (service.replica me).calls.workers, _))

/-- No stub gives up a root call, and a root call is marked failed only by a controller whose Redis
has the call's record, which names the request and no parent. -/
def Remembers (service : Service) : Action → Prop
  | .own _ (.stub (.submitFailed call _)) => rootOf calls call.futureId = []
  | .own me action =>
      ∀ futureId ∈ (service.process deployment me).marks me action,
        let record := (service.redis (deployment.machine me)).future futureId
        rootOf calls futureId ⊆ Process.rootRequest record.requestId record.parent
  | .collect _ => True

instance (service : Service) :
    DecidablePred (service.Remembers deployment calls) := fun action => by
  unfold Remembers
  split
  · exact inferInstanceAs (Decidable (_ = _))
  · exact inferInstanceAs (Decidable (∀ futureId ∈ (service.process deployment _).marks _ _,
      ∀ requestId ∈ rootOf calls futureId, _))
  · exact isTrue trivial

/-- The requests of an ended root call are seen, or about to be by the worker that ended it. -/
def Settled (service : Service) (futureId : FutureId) : Prop :=
  ∀ requestId ∈ rootOf calls futureId,
    service.Seen deployment requestId ∨
      ∃ me ∈ deployment.replicas, service.EndingAt me futureId

structure Inv (service : Service) : Prop where
  sameCall : ∀ me, (service.replica me).calls.HoldsOnly (SameCall calls)
  terminal : ∀ machine futureId, ((service.redis machine).future futureId).Terminal →
    service.Settled deployment calls futureId
  sent : ∀ me, ∀ message ∈ (service.replica me).sent, ∀ futureId,
    message.2.futureId = some futureId → service.Settled deployment calls futureId

variable {deployment calls} {service next : Service} {me : Address} {action : Process.Action}
  {futureId : FutureId}

/-! ### One step -/

/-- One controller takes a step and the other machines and replicas stay as they are. -/
structure Steps (deployment : Deployment) (calls : FutureId → Request) (service next : Service)
    (me : Address) (action : Process.Action) : Prop where
  member : me ∈ deployment.replicas
  prompted : service.Prompted deployment calls me action
  own : (service.process deployment me).step me (deployment.config me) action =
    some (next.process deployment me)
  redis : ∀ machine, machine ≠ deployment.machine me → next.redis machine = service.redis machine
  replica : ∀ other, other ≠ me → next.replica other = service.replica other
  collected : next.collected = service.collected

theorem steps_of_step (hstep : service.step deployment calls (.own me action) = some next) :
    Steps deployment calls service next me action := by
  simp only [step] at hstep
  split_ifs at hstep with hallowed
  obtain ⟨after, hafter, rfl⟩ := Option.map_eq_some_iff.mp hstep
  refine ⟨hallowed.1, hallowed.2, ?_, fun machine hne => Function.update_of_ne hne _ _,
    fun other hne => Function.update_of_ne hne _ _, rfl⟩
  simpa [process] using hafter

theorem Steps.seen_of_completed (hsteps : Steps deployment calls service next me action)
    {requestId : RequestId}
    (hcompleted : requestId ∈ (next.process deployment me).redis.completed) :
    next.Seen deployment requestId :=
  Or.inr ⟨me, hsteps.member, hcompleted⟩

theorem Steps.seen (hsteps : Steps deployment calls service next me action)
    {requestId : RequestId} (hseen : service.Seen deployment requestId) :
    next.Seen deployment requestId := by
  rcases hseen with hcollected | ⟨other, hmem, hcompleted⟩
  · exact Or.inl (hsteps.collected ▸ hcollected)
  · by_cases hmachine : deployment.machine other = deployment.machine me
    · rw [hmachine] at hcompleted
      exact hsteps.seen_of_completed ((Process.step_accounts hsteps.own).completed hcompleted)
    · exact Or.inr ⟨other, hmem, by rwa [hsteps.redis _ hmachine]⟩

/-- The worker of a root call either goes on or has added its request. -/
theorem Steps.settled_of_worker (hsteps : Steps deployment calls service next me action)
    {call : Request} (hcall : SameCall calls call)
    (hworker : (∃ stage, (call, stage) ∈ (next.replica me).calls.workers ∧ stage.Ending) ∨
      Process.rootRequest call.requestId call.parent ⊆
        (next.process deployment me).redis.completed) :
    next.Settled deployment calls call.futureId := by
  intro requestId hroot
  rcases hworker with ⟨stage, hmem, hstage⟩ | hcompleted
  · exact Or.inr ⟨me, hsteps.member, (call, stage), hmem, rfl, hstage⟩
  · refine Or.inl (hsteps.seen_of_completed (hcompleted ?_))
    rwa [hcall.1, hcall.2]

theorem Steps.settled (hsteps : Steps deployment calls service next me action)
    (hinv : service.Inv deployment calls) (hsettled : service.Settled deployment calls futureId) :
    next.Settled deployment calls futureId := by
  intro requestId hroot
  rcases hsettled requestId hroot with hseen | ⟨other, hmem, worker, hworker, rfl, hstage⟩
  · exact Or.inl (hsteps.seen hseen)
  · by_cases hother : other = me
    · subst hother
      have hcall := (hinv.sameCall other).workers worker hworker
      exact hsteps.settled_of_worker hcall (Process.ending_of_step hworker hstage hsteps.own)
        requestId hroot
    · rw [← hsteps.replica other hother] at hworker
      exact Or.inr ⟨other, hmem, worker, hworker, rfl, hstage⟩

theorem Remembers.of_marks (hguard : service.Remembers deployment calls (.own me action))
    (hmarks : (service.process deployment me).marks me action = some futureId) :
    rootOf calls futureId ⊆
      Process.rootRequest ((service.process deployment me).redis.future futureId).requestId
        ((service.process deployment me).redis.future futureId).parent := by
  unfold Remembers at hguard
  split at hguard
  case h_1 heq =>
    cases heq
    cases hmarks
  case h_2 heq =>
    cases heq
    exact hguard futureId hmarks
  case h_3 heq => cases heq

theorem Steps.settled_of_ends (hsteps : Steps deployment calls service next me action)
    (hinv : service.Inv deployment calls)
    (hguard : service.Remembers deployment calls (.own me action))
    (hends : Process.Ends me (service.process deployment me) action
      (next.process deployment me).redis.completed futureId) :
    next.Settled deployment calls futureId := by
  cases hends with
  | before hterminal => exact hsteps.settled hinv (hinv.terminal _ futureId hterminal)
  | submission call reason haction hcall =>
      subst haction hcall
      intro requestId hroot
      rw [show rootOf calls call.futureId = [] from hguard] at hroot
      cases hroot
  | marked hmarks hcompleted =>
      intro requestId hroot
      exact Or.inl (hsteps.seen_of_completed (hcompleted (hguard.of_marks hmarks hroot)))
  | worked call stage work haction hstage hcall =>
      subst haction hcall
      obtain ⟨hworker, -⟩ := Process.work_of_step hsteps.own
      exact hsteps.settled_of_worker ((hinv.sameCall me).workers _ hworker)
        (Process.ending_of_work hstage hsteps.own)
  | arrived message haction hmessage =>
      subst haction hmessage
      rcases hsteps.prompted with hnested | ⟨sender, -, sent, hsent, -, hfuture, -⟩
      · intro requestId hroot
        rw [hnested] at hroot
        cases hroot
      · exact hsteps.settled hinv (hinv.sent sender sent hsent _ hfuture)

theorem Steps.sameCall (hsteps : Steps deployment calls service next me action)
    (hinv : service.Inv deployment calls) (other : Address) :
    (next.replica other).calls.HoldsOnly (SameCall calls) := by
  by_cases hother : other = me
  · subst hother
    have hmoved := (Process.step_effect hsteps.own).moved
    cases hmove : Process.moveOf other (deployment.config other)
        (service.process deployment other) action with
    | none =>
        rw [hmove] at hmoved
        exact (show (next.replica other).calls = (service.replica other).calls from hmoved) ▸
          hinv.sameCall other
    | some move =>
        rw [hmove] at hmoved
        refine (hinv.sameCall other).of_move (fun _ _ _ hsame => hsame) (fun _ _ hsame => hsame)
          ?_ hmoved
        rintro request rfl
        obtain ⟨refusal, now, rfl, -⟩ := Process.moveOf_causedBy hmove
        exact hsteps.prompted.1
  · rw [hsteps.replica other hother]
    exact hinv.sameCall other

theorem Steps.inv (hsteps : Steps deployment calls service next me action)
    (hinv : service.Inv deployment calls)
    (hguard : service.Remembers deployment calls (.own me action)) :
    next.Inv deployment calls where
  sameCall := hsteps.sameCall hinv
  terminal machine futureId hterminal := by
    by_cases hmachine : machine = deployment.machine me
    · subst hmachine
      exact hsteps.settled_of_ends hinv hguard
        ((Process.step_accounts hsteps.own).terminal futureId hterminal)
    · rw [hsteps.redis machine hmachine] at hterminal
      exact hsteps.settled hinv (hinv.terminal machine futureId hterminal)
  sent other message hmessage futureId hfuture := by
    by_cases hother : other = me
    · subst hother
      rcases (Process.step_accounts hsteps.own).sent message hmessage with
        hold | ⟨ended, hended, hends⟩
      · exact hsteps.settled hinv (hinv.sent other message hold futureId hfuture)
      · obtain rfl : ended = futureId := Option.some.inj (hended.symm.trans hfuture)
        exact hsteps.settled_of_ends hinv hguard hends
    · rw [hsteps.replica other hother] at hmessage
      exact hsteps.settled hinv (hinv.sent other message hmessage futureId hfuture)

/-- What a pass removes, it has seen. -/
theorem seen_remove {requestId other : RequestId} (hseen : service.Seen deployment other) :
    (service.remove requestId).Seen deployment other := by
  rcases hseen with hcollected | ⟨me, hmem, hcompleted⟩
  · exact Or.inl (List.mem_cons_of_mem _ hcollected)
  · by_cases heq : other = requestId
    · exact Or.inl (heq ▸ List.mem_cons_self)
    · exact Or.inr ⟨me, hmem, List.mem_filter.mpr ⟨hcompleted, by simpa using heq⟩⟩

theorem inv_remove (hinv : service.Inv deployment calls) (requestId : RequestId) :
    (service.remove requestId).Inv deployment calls := by
  have hsettled : ∀ futureId, service.Settled deployment calls futureId →
      (service.remove requestId).Settled deployment calls futureId :=
    fun futureId hsettled other hroot => (hsettled other hroot).imp_left seen_remove
  refine ⟨hinv.sameCall, fun machine futureId hterminal => ?_, fun me message hmessage => ?_⟩
  · exact hsettled futureId (hinv.terminal machine futureId hterminal)
  · intro futureId hfuture
    exact hsettled futureId (hinv.sent me message hmessage futureId hfuture)

theorem inv_step (action : Action) (hinv : service.Inv deployment calls)
    (hguard : service.Remembers deployment calls action)
    (hstep : service.step deployment calls action = some next) : next.Inv deployment calls := by
  cases action with
  | own me action => exact (steps_of_step hstep).inv hinv hguard
  | collect requestId =>
      simp only [step] at hstep
      split_ifs at hstep
      cases hstep
      exact inv_remove hinv requestId

theorem inv_init : Inv deployment calls {} where
  sameCall _ := Calls.holdsOnly_init
  terminal _ _ hterminal := by
    rcases hterminal with hfailed | hresult
    · cases hfailed
    · cases hresult
  sent _ _ hmessage := by cases hmessage

/-! ### Whole runs -/

/-- In a run that gives up no root call, and marks one failed only where its record is, the request
of every ended root is seen as soon as no worker is still at the end of its call. -/
theorem ended_root_seen {actions : List Action}
    (hguard : (system deployment calls).Guarded (Remembers deployment calls) {} actions)
    (hrun : (system deployment calls).run {} actions = some service) (machine : String)
    {futureId : FutureId} {requestId : RequestId} (hroot : requestId ∈ rootOf calls futureId)
    (hended : ((service.redis machine).future futureId).Terminal)
    (hrest : ∀ me ∈ deployment.replicas, ¬ service.EndingAt me futureId) :
    service.Seen deployment requestId := by
  have hinv : service.Inv deployment calls :=
    (system deployment calls).invariant_run (fun _ action _ hinv hguard hstep =>
      inv_step action hinv hguard hstep) inv_init hguard hrun
  rcases hinv.terminal machine futureId hended requestId hroot with hseen | ⟨me, hmem, hending⟩
  · exact hseen
  · exact absurd hending (hrest me hmem)

open Cluster (threeReplicas)

def rootCall : Request :=
  { futureId := "f", service := "Agent", function := "work", requestId := some "r" }

def rootCalls (futureId : FutureId) : Request :=
  { rootCall with futureId }

/-- The calling container's controller does not answer its stub. -/
def submissionLost : List Action :=
  [.own "o:1" (.stub (.create rootCall)),
    .own "o:1" (.stub (.submitFailed rootCall "CanyonOS in the calling container didn't answer"))]

/-- The call is forwarded to a replica whose drain ends before `run` takes it. -/
def cutOffElsewhere : List Action :=
  [.own "o:1" (.stub (.create rootCall)), .own "o:1" (.server (.execute rootCall none 0)),
    .own "o:1" (.server (.put rootCall)), .own "o:1" (.loop .take),
    .own "o:1" (.loop (.process (.forwarded "a:1"))), .own "o:1" (.loop .taskDone),
    .own "a:1" (.server (.execute (Calls.forwardedRequest "o:1" "a:1" rootCall) none 0)),
    .own "a:1" (.server (.put (Calls.forwardedRequest "o:1" "a:1" rootCall))),
    .own "a:1" (.metrics (.drain 10)), .own "a:1" (.metrics (.tick 0)),
    .own "a:1" (.metrics .failUnfinished), .own "a:1" (.metrics .collect),
    .own "a:1" (.metrics .cutOff), .own "a:1" (.metrics .failLeftover)]

/-- The call is run to its end where it was made. -/
def ranAtHome : List Action :=
  ([.stub (.create rootCall), .server (.execute rootCall none 0), .server (.put rootCall),
    .loop .take, .loop (.process .local), .loop .register, .loop .taskDone, .worker .dequeue,
    .worker (.work rootCall .dequeued .start), .worker (.work rootCall .started .serve),
    .worker (.work rootCall .running (.returns "1")),
    .worker (.work rootCall (.returned "1") .store),
    .worker (.work rootCall (.stored "1") .settle),
    .worker (.work rootCall (.finishing (some "1")) (.stamp ⟨3, 0, 0, none⟩)),
    .worker (.work rootCall (.stamped (some "1")) .count),
    .worker (.work rootCall (.counted (some "1")) .report)] : List Process.Action).map (.own "o:1")

/-- A root call that could not be submitted, or failed on a machine without its record, has ended
with no worker at it, and its request is in no `request:completed`. -/
theorem unsubmitted_root_unseen :
    (∃ final, (system threeReplicas rootCalls).run {} submissionLost = some final ∧
      ((final.redis "o:1").future "f").Terminal ∧
      (∀ me ∈ threeReplicas.replicas, ¬ final.EndingAt me "f") ∧
      ¬ final.Seen threeReplicas "r") ∧
    ∃ final, (system threeReplicas rootCalls).run {} cutOffElsewhere = some final ∧
      ((final.redis "a:1").future "f").Terminal ∧
      (∀ me ∈ threeReplicas.replicas, ¬ final.EndingAt me "f") ∧
      ¬ final.Seen threeReplicas "r" := by
  have hlost : ((system threeReplicas rootCalls).run {} submissionLost).isSome := by decide +kernel
  have hcutOff : ((system threeReplicas rootCalls).run {} cutOffElsewhere).isSome := by
    decide +kernel
  constructor
  · exact ⟨_, (Option.some_get hlost).symm, by decide +kernel +revert, by decide +kernel +revert,
      by decide +kernel +revert⟩
  · exact ⟨_, (Option.some_get hcutOff).symm, by decide +kernel +revert,
      by decide +kernel +revert, by decide +kernel +revert⟩

theorem ended_root_seen_ran :
    ∃ final, (system threeReplicas rootCalls).run {} ranAtHome = some final ∧
      final.Seen threeReplicas "r" := by
  have hran : ((system threeReplicas rootCalls).run {} ranAtHome).isSome := by decide +kernel
  have hguard : (system threeReplicas rootCalls).Guarded (Remembers threeReplicas rootCalls) {}
      ranAtHome := by decide +kernel
  refine ⟨_, (Option.some_get hran).symm, ended_root_seen hguard (Option.some_get hran).symm "o:1"
    (show "r" ∈ rootOf rootCalls "f" by decide) ?_ ?_⟩
  · decide +kernel +revert
  · decide +kernel +revert

end Service

end CanyonOS
