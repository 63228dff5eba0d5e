import CanyonOS.Controller.Drain

/-!
# Removing a drained replica

Whether every call a replica took on has ended, and its origin been told, when the replica is
removed. A call is accounted for while the controller holds it, while the drain's pass has it, or
while it is out at another replica; what is left is to have ended and been reported.
-/

namespace CanyonOS.Process

variable {me origin : Address} {config : Config} {process next : Process} {action : Action}
  {futureId : FutureId}

/-! ### A call run for another controller -/

theorem isAccepted_of_mem (hmem : (me, futureId) ∈ process.redis.accepted) :
    process.redis.isAccepted me futureId = true := by
  simpa [Redis.isAccepted] using hmem

theorem execute_of_accepted {request : Request} {refusal : Option (String × String)} {now : Time}
    (hmem : (me, request.futureId) ∈ process.redis.accepted)
    (hstep : process.step me config (.server (.execute request refusal now)) = some next) :
    next = process := by
  simp only [step, serverStep, execute, isAccepted_of_mem hmem, admission, if_true] at hstep
  split_ifs at hstep <;> exact (Option.some.inj hstep).symm

/-- Who decides a call run for another controller: the copy the replica holds, or the drain. -/
theorem RunFor.decided (hrun : RunFor me origin futureId process)
    (hmarked : (me, futureId) ∈ process.redis.accepted)
    (htaken : process.TakenOver me futureId) (horderly : process.Orderly me action)
    (hstep : process.step me config action = some next) :
    ((next.redis.future futureId).failed = (process.redis.future futureId).failed ∧
      (next.redis.future futureId).result = (process.redis.future futureId).result) ∨
    (∃ request, process.replica.calls.hand = some (request, .taken) ∧
      request.futureId = futureId) ∨
    (∃ call stage work, action = .worker (.work call stage work) ∧ call.futureId = futureId ∧
      (call, stage) ∈ process.replica.calls.workers) ∨
    futureId ∈ process.replica.pass.toFail := by
  by_cases hdecides : process.decides action = some futureId
  swap
  · exact Or.inl ((step_effect hstep).recorded.verdict hdecides)
  unfold decides at hdecides
  split at hdecides
  case h_1 =>
    cases hdecides
    exact absurd htaken horderly
  case h_2 =>
    cases hdecides
    rw [execute_of_accepted hmarked hstep]
    exact Or.inl ⟨rfl, rfl⟩
  case h_3 =>
    cases hdecides
    exact absurd htaken horderly
  case h_4 => exact absurd horderly id
  case h_5 =>
    simp only [step, loopStep] at hstep
    split at hstep
    case h_1 request hhand =>
      rw [hhand] at hdecides
      exact Or.inr (Or.inl ⟨request, hhand, Option.some.inj hdecides⟩)
    case h_2 => cases hstep
  case h_6 call stage work =>
    cases hdecides
    exact Or.inr (Or.inr (Or.inl ⟨call, stage, work, rfl, rfl, (work_of_step hstep).1⟩))
  case h_7 => exact Or.inr (Or.inr (Or.inr (List.mem_of_mem_head? hdecides)))
  case h_8 =>
    cases hdecides
    simp only [step, metricsStep] at hstep
    split_ifs at hstep with hgone
    rw [hrun.home] at hgone
    simp at hgone
  case h_9 request status replicas =>
    cases hdecides
    exact absurd rfl (hrun.pinned.attempts request (mem_attempts_of_step hstep))
  case h_10 => cases hdecides

theorem Kept.worker_unique (hkept : Kept me process) {first second : Request × Stage}
    (hfirst : first ∈ process.replica.calls.workers)
    (hsecond : second ∈ process.replica.calls.workers)
    (hfuture : first.1.futureId = second.1.futureId) : first = second := by
  by_contra hne
  obtain ⟨call, stage⟩ := first
  have hmem : second ∈ process.replica.calls.workers.erase (call, stage) :=
    (List.mem_erase_of_ne (Ne.symm hne)).mpr hsecond
  have hcount := workersOf_erase (fun _ => True) hfirst call.futureId
  have hsecond : 0 < workersOf (fun _ => True) call.futureId
      (process.replica.calls.workers.erase (call, stage)) := by
    rw [workersOf, List.countP_pos_iff]
    exact ⟨second, hmem, by simpa using hfuture.symm⟩
  have halone := hkept.alone call.futureId
  rw [if_pos ⟨rfl, trivial⟩] at hcount
  simp only [Calls.copies, Calls.submitted] at halone
  split_ifs at halone <;> omega

theorem Kept.hand_or_worker (hkept : Kept me process) {request : Request}
    (hhand : process.replica.calls.hand = some (request, .taken)) {worker : Request × Stage}
    (hworker : worker ∈ process.replica.calls.workers) :
    request.futureId ≠ worker.1.futureId := by
  intro hfuture
  have hcount : 0 < workersOf (fun _ => True) worker.1.futureId process.replica.calls.workers := by
    rw [workersOf, List.countP_pos_iff]
    exact ⟨worker, hworker, by simp⟩
  have halone := hkept.alone worker.1.futureId
  simp only [Calls.copies, Calls.routable, Calls.submitted, hhand, Calls.inHand, oneOf, hfuture,
    if_true] at halone
  split_ifs at halone <;> omega

theorem agrees_congr {record other : Record} {stage : Stage}
    (hagrees : stage.Agrees record) (hfailed : other.failed = record.failed)
    (hresult : other.result = record.result) : stage.Agrees other := by
  have houtcome : other.outcome = record.outcome := by
    simp only [Record.outcome, hfailed, hresult]
  cases stage with
  | stored => exact hresult.trans hagrees
  | finishing | stamped | counted => exact houtcome.trans hagrees
  | _ => trivial

theorem workStep_agrees {call : Request} {stage stage' : Stage} {work : Work} {done : Process}
    (hwork : workStep me config process call stage work = some (stage', done))
    (hdelivered : ∀ reason, work ≠ .undelivered reason)
    (hbefore : call.futureId ∈ process.replica.cutOff ∨
      stage.Agrees (process.redis.future call.futureId)) :
    call.futureId ∈ process.replica.cutOff ∨
      stage'.Agrees (done.redis.future call.futureId) := by
  unfold workStep at hwork
  split at hwork
  case h_4 =>
    split_ifs at hwork with hcut <;> cases hwork
    · exact Or.inl hcut
    · exact Or.inr trivial
  case h_5 =>
    cases hwork
    exact Or.inr (Record.outcome_of_failed (by simp [failureFields]))
  case h_6 serialized =>
    cases hwork
    exact Or.inr (by simp [Stage.Agrees])
  case h_7 serialized =>
    cases hwork
    refine hbefore.imp_right fun hresult => ?_
    have hresult : (process.redis.future call.futureId).result = some serialized := hresult
    exact Record.outcome_of_result (by simp) (by simp [hresult])
  case h_8 | h_11 => exact absurd rfl (hdelivered _)
  case h_9 measured _ =>
    cases hwork
    refine hbefore.imp_right fun hagrees => ?_
    exact agrees_congr hagrees (by simp [finishedFields]) (by simp [finishedFields])
  case h_10 =>
    cases hwork
    exact hbefore
  case h_12 => split at hwork <;> cases hwork <;> exact Or.inr trivial
  case h_13 => cases hwork
  all_goals
    cases hwork
    exact Or.inr trivial

theorem told_markFutureFailed {call : Request} (hcaller : foreignOrigin me call = some origin)
    (error : Failure) (errorName : Option String) (beforeStart : Option Time) :
    ∃ message,
      (origin, message) ∈
        (process.markFutureFailed me futureId error call.origin errorName beforeStart).replica.sent ∧
      message.outcome = some .failed := by
  obtain ⟨horigin, helsewhere⟩ := Option.filter_eq_some_iff.mp hcaller
  rw [markFutureFailed_replica]
  refine ⟨_, List.mem_append_right _ (List.mem_map.mpr ⟨origin, ?_, rfl⟩),
    resultMessage_outcome_failed _ futureId none _⟩
  refine List.mem_append_right _ (List.mem_filter.mpr ⟨?_, helsewhere⟩)
  simp [horigin]

theorem RunFor.failed_kept (htaken : process.TakenOver me futureId)
    (horderly : process.Orderly me action) (hstep : process.step me config action = some next)
    (hdrain : process.FailedByDrain futureId)
    (hfailed : (process.redis.future futureId).failed = some true) :
    (next.redis.future futureId).failed = some true := by
  have hkeep : ∀ written fields, next.redis.future = (process.redis.hset written fields).future →
      (futureId = written → fields.failed ≠ some false) →
      (next.redis.future futureId).failed = some true := by
    intro written fields hfuture hfields
    rw [hfuture]
    by_cases heq : futureId = written
    · subst heq
      cases hfield : fields.failed with
      | none => simp [hfield, hfailed]
      | some failed =>
          have hne := hfields rfl
          cases failed <;> simp_all
    · rwa [Redis.hset_future_of_ne heq]
  cases (step_effect hstep).recorded with
  | nothing hfuture => exact (congrFun hfuture futureId) ▸ hfailed
  | failure written fields hfield _ _ hfuture =>
      exact hkeep written fields hfuture fun _ => by simp [hfield]
  | other written fields hfield _ hfuture =>
      exact hkeep written fields hfuture fun _ => by simp [hfield]
  | start call hfuture =>
      refine hkeep call.futureId _ hfuture fun heq => ?_
      exact absurd (heq ▸ hdrain) horderly.2
  | store call serialized hfuture => exact hkeep call.futureId _ hfuture fun _ => nofun
  | settle call serialized _ hfuture =>
      refine hkeep call.futureId _ hfuture fun heq => ?_
      exact absurd (heq ▸ hdrain) horderly
  | arrival message hfuture =>
      refine hkeep message.futureId _ hfuture fun heq => ?_
      exact absurd (heq ▸ htaken) horderly

theorem RunFor.agrees_of_step (hrun : RunFor me origin futureId process) (hkept : Kept me process)
    (hmarked : (me, futureId) ∈ process.redis.accepted)
    (htaken : process.TakenOver me futureId) (horderly : process.Orderly me action)
    (hstep : process.step me config action = some next) {worker : Request × Stage}
    (hworker : worker ∈ next.replica.calls.workers) (hfuture : worker.1.futureId = futureId) :
    futureId ∈ next.replica.cutOff ∨ worker.2.Agrees (next.redis.future futureId) := by
  subst hfuture
  -- the worker that took the step
  have hworked : ∀ stage work stage' done, action = .worker (.work worker.1 stage work) →
      (worker.1, stage) ∈ process.replica.calls.workers →
      workStep me config process worker.1 stage work = some (stage', done) →
      next.redis.future = done.redis.future → worker.2 = stage' →
      worker.1.futureId ∈ next.replica.cutOff ∨
        worker.2.Agrees (next.redis.future worker.1.futureId) := by
    rintro stage work stage' done rfl hmem hwork hredis rfl
    rw [hredis]
    refine (workStep_agrees hwork ?_ (hrun.agrees (worker.1, stage) hmem rfl)).imp_left
      (cutOff_of_step hstep)
    rintro reason rfl
    exact horderly
  rcases mem_workers_of_step hstep hworker with hold | hnew |
    ⟨stage, work, done, haction, hmem, hwork, hredis⟩
  · rcases hrun.decided hmarked htaken horderly hstep with ⟨hfailed, hresult⟩ |
      ⟨request, hhand, hrequest⟩ | ⟨call, stage, work, rfl, hcall, hmem⟩ | hfailing
    · refine (hrun.agrees worker hold rfl).imp (cutOff_of_step hstep) fun hagrees => ?_
      exact agrees_congr hagrees hfailed hresult
    · exact absurd hrequest (hkept.hand_or_worker hhand hold)
    · obtain rfl := hkept.worker_unique hmem hold hcall
      obtain ⟨-, stage', done, hwork, hafter, hredis, -⟩ := work_of_step hstep
      have hreached := (hkept.step hstep).worker_unique hworker hafter rfl
      exact hworked _ work stage' done rfl hold hwork (congrArg Redis.future hredis)
        (congrArg Prod.snd hreached)
    · exact Or.inl (cutOff_of_step hstep (hkept.failing _ hfailing))
  · rw [hnew]
    exact Or.inr trivial
  · exact hworked stage work worker.2 done haction hmem hwork hredis rfl

theorem RunFor.told_of_step (hrun : RunFor me origin futureId process)
    (htaken : process.TakenOver me futureId) (horderly : process.Orderly me action)
    (hstep : process.step me config action = some next) (hdrain : next.FailedByDrain futureId) :
    (next.redis.future futureId).failed = some true ∧
      ∃ message, (origin, message) ∈ next.replica.sent ∧ message.outcome = some .failed := by
  rcases failedByDrain_of_step hstep hdrain with hbefore |
    ⟨call, rest, rfl, hpass, rfl, hwritten⟩
  · obtain ⟨hfailed, message, hsent, houtcome⟩ := hrun.told hbefore
    exact ⟨RunFor.failed_kept htaken horderly hstep hbefore hfailed, message,
      (step_effect hstep).sent.subset hsent, houtcome⟩
  · refine ⟨hwritten, ?_⟩
    have hcaller : foreignOrigin me call = some origin := by
      refine hrun.caller call (List.mem_append_right _ ?_) rfl
      rw [hpass]
      exact List.mem_cons_self
    simp only [step, metricsStep, hpass] at hstep
    cases hstep
    exact told_markFutureFailed hcaller _ _ _

theorem RunFor.step (hrun : RunFor me origin futureId process) (hkept : Kept me process)
    (hmarked : (me, futureId) ∈ process.redis.accepted)
    (htaken : process.TakenOver me futureId) (horderly : process.Orderly me action)
    (hstep : process.step me config action = some next) :
    RunFor me origin futureId next where
  pinned := by
    refine step_pinnedTo hstep hrun.pinned ?_
    rintro request refusal now - hqueued rfl
    exact absurd hmarked (not_mem_accepted_of_queued hqueued)
  home := by
    rcases (step_effect hstep).forwarded futureId with hsame |
      ⟨address, request, rfl, hhand, hrequest, -⟩ | ⟨hnone, -⟩
    · rw [hsame, hrun.home]
    · obtain ⟨taken, htaken, hne, hroute⟩ := step_forwarded hstep
      obtain rfl : taken = request := by simpa [htaken] using hhand
      have hpin := hrun.pinned.hand taken .taken htaken hrequest
      simp [hpin, hne.symm] at hroute
    · exact hnone
  caller request hrequest hfuture := by
    rcases mem_known_of_step hstep hrequest with hold | ⟨refusal, now, -, hqueued⟩ |
      ⟨sent, hsent, status, rfl⟩ | ⟨address, routed, rfl, hhand, rfl⟩
    · exact hrun.caller request hold hfuture
    · exact absurd (hfuture ▸ hmarked) (not_mem_accepted_of_queued hqueued)
    · exact absurd hfuture (hrun.pinned.attempts sent hsent)
    · obtain ⟨taken, htaken, hne, hroute⟩ := step_forwarded hstep
      obtain rfl : taken = routed := by simpa [htaken] using hhand
      have hpin := hrun.pinned.hand taken .taken htaken hfuture
      simp [hpin, hne.symm] at hroute
  agrees worker hworker hfuture :=
    hrun.agrees_of_step hkept hmarked htaken horderly hstep hworker hfuture
  told hdrain := hrun.told_of_step htaken horderly hstep hdrain

/-- A request just let in is the only trace of its call. -/
theorem Kept.runFor_new (hkept : Kept me process) {request : Request}
    {refusal : Option (String × String)} {now : Time}
    (hstep : process.step me config (.server (.execute request refusal now)) = some next)
    (hqueued : admission process.replica.refusing (process.redis.isAccepted me request.futureId)
      request refusal = .queued) (hcaller : foreignOrigin me request = some origin) :
    RunFor me origin request.futureId next := by
  have hfresh := not_mem_accepted_of_queued hqueued
  have hunknown : ∀ other ∈ process.replica.calls.requests,
      other.futureId ≠ request.futureId := by
    intro other hother heq
    exact hfresh (heq ▸ hkept.marked other (List.mem_append_left _ hother))
  refine ⟨?_, ?_, ?_, ?_, ?_⟩
  · refine step_pinnedTo hstep ⟨?_, ?_, ?_, ?_, ?_⟩ ?_
    · intro other hother heq
      exact absurd heq (hunknown other (by simp [Calls.requests, hother]))
    · intro other hother heq
      exact absurd heq (hunknown other (by simp [Calls.requests, hother]))
    · intro other stage hother heq
      exact absurd heq (hunknown other (by simp [Calls.requests, hother]))
    · intro other hother
      exact hunknown other (by simp [Calls.requests, hother])
    · intro other hother
      exact hunknown other (by simp [Calls.requests, hother])
    · rintro other refusal' now' heq - -
      cases heq
      simp only [Process.step, serverStep] at hstep
      split_ifs at hstep with haddressed
      rcases haddressed with ⟨-, hnone⟩ | hroute
      · simp [foreignOrigin, hnone] at hcaller
      · exact hroute
  · have hnone : process.replica.forwarded request.futureId = none := by
      by_contra hsome
      exact hfresh (hkept.away _ (Option.isSome_iff_ne_none.mpr hsome))
    rcases (step_effect hstep).forwarded request.futureId with hsame | ⟨_, _, haction, -⟩ |
      ⟨hdropped, -⟩
    · rw [hsame, hnone]
    · cases haction
    · exact hdropped
  · intro other hother heq
    rcases mem_known_of_step hstep hother with hold | ⟨_, _, haction, -⟩ |
      ⟨sent, hsent, status, rfl⟩ | ⟨_, _, haction, -⟩
    · exact absurd (heq ▸ hkept.marked other hold) hfresh
    · cases haction
      exact hcaller
    · exact absurd heq (hunknown sent (by simp [Calls.requests, hsent]))
    · cases haction
  · intro worker hworker heq
    rcases mem_workers_of_step hstep hworker with hold | hnew | ⟨_, _, _, haction, -⟩
    · refine absurd heq (hunknown worker.1 ?_)
      simp only [Calls.requests, List.mem_append, List.mem_map]
      exact Or.inl (Or.inl (Or.inl (Or.inr ⟨worker, hold, rfl⟩)))
    · rw [hnew]
      exact Or.inr trivial
    · cases haction
  · intro hdrain
    rcases failedByDrain_of_step hstep hdrain with ⟨hcut, -⟩ | ⟨_, _, haction, -⟩
    · exact absurd (hkept.cutOff _ hcut) hfresh
    · cases haction

/-! ### Accounting for a call -/

theorem Told.mono {request : Request} {outcome : Outcome}
    (htold : process.Told me request outcome) (hsent : process.replica.sent ⊆ next.replica.sent) :
    next.Told me request outcome := by
  intro origin horigin
  obtain ⟨message, hmem, houtcome⟩ := htold origin horigin
  exact ⟨message, hsent hmem, houtcome⟩

theorem Settled.of_verdict {request : Request} (hsettled : process.Settled me request)
    (hfailed : (next.redis.future request.futureId).failed =
      (process.redis.future request.futureId).failed)
    (hresult : (next.redis.future request.futureId).result =
      (process.redis.future request.futureId).result)
    (hsent : process.replica.sent ⊆ next.replica.sent) : next.Settled me request := by
  obtain ⟨outcome, houtcome, htold⟩ := hsettled
  refine ⟨outcome, ?_, htold.mono hsent⟩
  rw [← houtcome]
  simp only [Record.outcome, hfailed, hresult]

theorem settled_of_local {request : Request} (hlocal : foreignOrigin me request = none)
    (hterminal : (process.redis.future request.futureId).Terminal) :
    process.Settled me request := by
  obtain ⟨outcome, houtcome⟩ :=
    Option.isSome_iff_exists.mp (Record.terminal_iff_outcome.mp hterminal)
  refine ⟨outcome, houtcome, fun origin horigin => ?_⟩
  rw [hlocal] at horigin
  cases horigin

/-- A copy of a call names the caller of the request that was let in. -/
def SameCaller (me : Address) (request copy : Request) : Prop :=
  copy.futureId = request.futureId ∧
    ∀ origin, foreignOrigin me request = some origin → foreignOrigin me copy = some origin

theorem settled_markFutureFailed {request copy : Request} (hsame : SameCaller me request copy)
    (error : Failure) (errorName : Option String) (beforeStart : Option Time) :
    (process.markFutureFailed me copy.futureId error copy.origin errorName beforeStart).Settled me
      request := by
  refine ⟨.failed, ?_, fun origin horigin => told_markFutureFailed (hsame.2 origin horigin) _ _ _⟩
  rw [← hsame.1, markFutureFailed_future, Redis.hset_future_self]
  exact Record.outcome_of_failed rfl

theorem Inv.sameCaller (hinv : Inv me process) {request copy : Request}
    (hrequest : request ∈ process.admitted) (hcopy : copy ∈ process.known)
    (hfuture : copy.futureId = request.futureId) : SameCaller me request copy :=
  ⟨hfuture, fun origin horigin =>
    (hinv.runFor request hrequest origin horigin).caller copy hcopy hfuture⟩

theorem workStep_reported {request call : Request} {stage : Stage} {work : Work} {done : Process}
    (hwork : workStep me config process call stage work = some (.reported, done))
    (hdelivered : ∀ reason, work ≠ .undelivered reason) (hsame : SameCaller me request call)
    (hended : stage.Ended → call.futureId ∈ process.replica.cutOff ∨
      (process.redis.future call.futureId).Terminal)
    (hagrees : ∀ origin, foreignOrigin me request = some origin →
      call.futureId ∈ process.replica.cutOff ∨
        stage.Agrees (process.redis.future call.futureId)) :
    call.futureId ∈ process.replica.cutOff ∨ done.Settled me request := by
  by_cases hcut : call.futureId ∈ process.replica.cutOff
  · exact Or.inl hcut
  right
  unfold workStep at hwork
  split at hwork
  case h_2 =>
    cases hwork
    exact settled_markFutureFailed hsame _ _ _
  case h_4 =>
    split_ifs at hwork
    cases hwork
  case h_11 => exact absurd rfl (hdelivered _)
  case h_12 result =>
    have hredis : done.redis.future = process.redis.future := by
      split at hwork <;> cases hwork <;> rfl
    cases hcaller : foreignOrigin me request with
    | none =>
        refine settled_of_local hcaller ?_
        rw [hredis, ← hsame.1]
        exact (hended trivial).resolve_left hcut
    | some origin =>
        obtain ⟨horigin, helsewhere⟩ := Option.filter_eq_some_iff.mp (hsame.2 origin hcaller)
        have hreports : reportsTo me process call = some origin := by
          simpa [reportsTo, horigin, Option.filter, hcut] using helsewhere
        have houtcome : (process.redis.future call.futureId).outcome =
            some (result.elim .failed .done) :=
          (hagrees origin hcaller).resolve_left hcut
        refine ⟨result.elim .failed .done, ?_, ?_⟩
        · rw [hredis, ← hsame.1]
          exact houtcome
        · intro other hother
          obtain rfl : origin = other := Option.some.inj (hcaller.symm.trans hother)
          rw [hreports] at hwork
          cases result with
          | none =>
              cases hwork
              exact ⟨_, List.mem_append_right _ (List.mem_singleton_self _),
                resultMessage_outcome_failed _ _ _ _⟩
          | some serialized =>
              cases hwork
              exact ⟨_, List.mem_append_right _ (List.mem_singleton_self _),
                resultMessage_outcome_done _ _ _ _⟩
  case h_13 => cases hwork
  all_goals cases hwork

theorem Inv.accounted_of_leaves (hinv : Inv me process) (hagent : config.endpoint = false)
    (horderly : process.Orderly me action) (hstep : process.step me config action = some next)
    {request : Request} (hanswered : request ∈ process.replica.answered) {move : Move}
    (hmove : moveOf me config process action = some move)
    (hleaves : process.replica.calls.Leaves request.futureId move) :
    next.Accounted me request := by
  have hadmitted : request ∈ process.admitted := List.mem_append_right _ hanswered
  cases hleaves with
  | settle taken hhand hfuture =>
      have hsame := hinv.sameCaller hadmitted
        (List.mem_append_left _ (by simp [Calls.requests, hhand])) hfuture
      obtain ⟨verdict, rfl⟩ := moveOf_causedBy hmove
      simp only [step, loopStep, hhand] at hstep
      refine Or.inr (Or.inr (Or.inr (Or.inr ?_)))
      cases verdict with
      | refused | raised =>
          obtain ⟨done, -, rfl⟩ := Option.map_eq_some_iff.mp hstep
          exact settled_markFutureFailed hsame _ _ _
      | held => simp [processRequest, hagent] at hstep
      | «local» | forwarded => cases hmove
  | handOn sender address taken hhand hfuture =>
      obtain ⟨rfl, rfl⟩ := moveOf_causedBy hmove
      simp only [step, loopStep, hhand, processRequest] at hstep
      split_ifs at hstep
      obtain ⟨sent, -, rfl⟩ := Option.map_eq_some_iff.mp hstep
      refine Or.inr (Or.inr (Or.inl ?_))
      simp [hfuture]
  | collect head rest hqueue hfuture =>
      obtain rfl : action = .metrics .collect := moveOf_causedBy hmove
      simp only [step, metricsStep, hqueue] at hstep
      split at hstep
      case h_1 unfinished other rest' hpass heq =>
        cases heq
        obtain ⟨collected, -, rfl⟩ := Option.map_eq_some_iff.mp hstep
        exact Or.inr (Or.inl ⟨head, List.mem_append_right _ (List.mem_singleton_self _), hfuture⟩)
      case h_2 => cases hstep
  | report call stage hfuture =>
      obtain ⟨work, done, rfl, hwork⟩ := moveOf_causedBy hmove
      obtain ⟨hmem, stage', done', hwork', -, hredis, hsent⟩ := work_of_step hstep
      obtain ⟨rfl, rfl⟩ := Prod.mk.inj (Option.some.inj (hwork.symm.trans hwork'))
      have hsame : SameCaller me request call := by
        refine hinv.sameCaller hadmitted (List.mem_append_left _ ?_) hfuture
        simp only [Calls.requests, List.mem_append, List.mem_map]
        exact Or.inl (Or.inl (Or.inl (Or.inr ⟨(call, stage), hmem, rfl⟩)))
      have hreported := workStep_reported hwork
        (by rintro reason rfl; exact horderly) hsame
        (hinv.ended (call, stage) hmem) fun origin horigin =>
          hfuture ▸ (hinv.runFor request hadmitted origin horigin).agrees (call, stage) hmem hfuture
      refine Or.inr (Or.inr (Or.inr (hreported.imp ?_ ?_)))
      · exact fun hcut => hfuture ▸ cutOff_of_step hstep hcut
      · exact fun hsettled => hsettled.of_verdict (by rw [hredis]) (by rw [hredis])
          (by rw [hsent]; exact List.Subset.refl _)

theorem Inv.takenOver {request : Request} (hrequest : request ∈ process.admitted)
    (hcaller : foreignOrigin me request = some origin) :
    process.TakenOver me request.futureId :=
  ⟨request, hrequest, rfl, by rw [hcaller]; rfl⟩

theorem Inv.settled_of_step (hinv : Inv me process) (horderly : process.Orderly me action)
    (hstep : process.step me config action = some next) {request : Request}
    (hanswered : request ∈ process.replica.answered)
    (hgone : ¬ process.replica.calls.Holds request.futureId)
    (hsettled : process.Settled me request) : next.Accounted me request := by
  have hadmitted : request ∈ process.admitted := List.mem_append_right _ hanswered
  have hsent := (step_effect hstep).sent.subset
  cases hcaller : foreignOrigin me request with
  | none =>
      obtain ⟨outcome, houtcome, -⟩ := hsettled
      refine Or.inr (Or.inr (Or.inr (Or.inr (settled_of_local hcaller ?_))))
      exact terminal_of_step hinv.toKept horderly hstep (Record.terminal_of_outcome houtcome)
  | some origin =>
      have hrun := hinv.runFor request hadmitted origin hcaller
      rcases hrun.decided (hinv.admitted request hadmitted) (Inv.takenOver hadmitted hcaller)
        horderly hstep with ⟨hfailed, hresult⟩ | ⟨taken, hhand, hfuture⟩ |
        ⟨call, stage, work, rfl, hfuture, hmem⟩ | hfailing
      · exact Or.inr (Or.inr (Or.inr (Or.inr (hsettled.of_verdict hfailed hresult hsent))))
      · refine absurd ?_ hgone
        exact Calls.holds_iff.mpr (Or.inr (Or.inl ⟨taken, hhand, hfuture⟩))
      · refine absurd ?_ hgone
        refine Calls.holds_iff.mpr (Or.inr (Or.inr (Or.inr ⟨(call, stage), hmem, ?_, hfuture⟩)))
        rintro rfl
        obtain ⟨-, stage', done, hwork, -⟩ := work_of_step hstep
        simp [workStep] at hwork
      · refine Or.inr (Or.inr (Or.inr (Or.inl (cutOff_of_step hstep ?_))))
        exact hinv.failing _ hfailing

theorem Inv.accounted_of_step (hinv : Inv me process) (hagent : config.endpoint = false)
    (horderly : process.Orderly me action) (hstep : process.step me config action = some next)
    {request : Request} (hanswered : request ∈ process.replica.answered) :
    next.Accounted me request := by
  have hadmitted : request ∈ process.admitted := List.mem_append_right _ hanswered
  have heffect := step_effect hstep
  by_cases hholds : process.replica.calls.Holds request.futureId
  · have hmoved := heffect.moved
    cases hmove : moveOf me config process action with
    | none =>
        simp only [hmove, Moved] at hmoved
        exact Or.inl (hmoved ▸ hholds)
    | some move =>
        simp only [hmove, Moved] at hmoved
        rcases Calls.holds_or_leaves_of_move hmoved hholds with hstill | hleaves
        · exact Or.inl hstill
        · exact hinv.accounted_of_leaves hagent horderly hstep hanswered hmove hleaves
  · rcases hinv.accounted request hanswered with hholds' | ⟨collected, hmem, hfuture⟩ | haway |
      hcut | hsettled
    · exact absurd hholds' hholds
    · rcases collected_of_step hstep hmem with hstill | hcut
      · exact Or.inr (Or.inl ⟨collected, hstill, hfuture⟩)
      · exact Or.inr (Or.inr (Or.inr (Or.inl (hfuture ▸ hcut))))
    · rcases heffect.forwarded request.futureId with hkept | ⟨address, _, -, -, -, hnoted⟩ |
        ⟨-, hended⟩
      · exact Or.inr (Or.inr (Or.inl (hkept ▸ haway)))
      · exact Or.inr (Or.inr (Or.inl (by rw [hnoted]; rfl)))
      · refine Or.inr (Or.inr (Or.inr (Or.inr (settled_of_local ?_ ?_))))
        · rw [Option.eq_none_iff_forall_ne_some]
          intro origin hcaller
          rw [(hinv.runFor request hadmitted origin hcaller).home] at haway
          cases haway
        · rcases hended with hterminal | ⟨call, serialized, hworker, hfuture⟩
          · exact hterminal
          · exact Or.inr (heffect.recorded.result_isSome
              (hfuture ▸ hinv.stored call serialized hworker))
    · exact Or.inr (Or.inr (Or.inr (Or.inl (cutOff_of_step hstep hcut))))
    · exact hinv.settled_of_step horderly hstep hanswered hholds hsettled

theorem holds_of_put {request : Request}
    (hstep : process.step me config (.server (.put request)) = some next) :
    next.replica.calls.Holds request.futureId := by
  have hmoved := (step_effect hstep).moved
  simp only [moveOf, Moved, Calls.move] at hmoved
  split_ifs at hmoved
  rw [Calls.holds_iff, ← Option.some.inj hmoved]
  exact Or.inl ⟨request, List.mem_append_right _ (List.mem_singleton_self _), rfl⟩

theorem Inv.step (hinv : Inv me process) (hagent : config.endpoint = false)
    (horderly : process.Orderly me action) (hstep : process.step me config action = some next) :
    Inv me next where
  toKept := hinv.toKept.step hstep
  ended worker hworker hended := ended_of_step hinv horderly hstep hworker hended
  failed futureId hdrain := failed_of_step hinv horderly hstep hdrain
  runFor request hrequest origin hcaller := by
    rcases mem_admitted_of_step hstep hrequest with hold | ⟨refusal, now, rfl, hqueued⟩
    · exact (hinv.runFor request hold origin hcaller).step hinv.toKept (hinv.admitted request hold)
        (Inv.takenOver hold hcaller) horderly hstep
    · exact hinv.toKept.runFor_new hstep hqueued hcaller
  accounted request hanswered := by
    rw [(step_effect hstep).answered] at hanswered
    rcases List.mem_append.mp hanswered with hnew | hold
    · obtain rfl := mem_answeredBy hnew
      exact Or.inl (holds_of_put hstep)
    · exact hinv.accounted_of_step hagent horderly hstep hold

/-! ### Whole runs -/

def system (me : Address) (config : Config) : TransitionSystem Process Action where
  step process action := process.step me config action

theorem inv_init (redis : Redis) : Inv me { redis } where
  marked _ hrequest := by cases hrequest
  admitted _ hrequest := by cases hrequest
  cutOff _ hcut := by cases hcut
  away _ haway := by cases haway
  failing _ hfailing := by cases hfailing
  alone _ := Nat.zero_le _
  stored _ _ hworker := by cases hworker
  ended _ hworker := by cases hworker
  failed _ hdrain := by cases hdrain.1
  runFor _ hrequest := by cases hrequest
  accounted _ hanswered := by cases hanswered

/-- A replica that is removed with nothing left out has lost no call: each one it answered for has
ended, and the controller that made it has been sent its outcome. -/
theorem drain_loses_no_call {redis : Redis} {actions : List Action} {final : Process}
    (hagent : config.endpoint = false)
    (horderly : (system me config).Guarded (fun process => process.Orderly me) { redis } actions)
    (hrun : (system me config).run { redis } actions = some final)
    (hremoved : final.NothingLeftOut) :
    ∀ request ∈ final.replica.answered, final.Settled me request := by
  intro request hanswered
  have hinv : Inv me final := by
    refine (system me config).invariant_run ?_ (inv_init redis) horderly hrun
    intro before action after hinv hallowed hstep
    exact hinv.step hagent hallowed hstep
  have htoFail : final.replica.pass.toFail = [] := by
    rcases hremoved.idle with hpass | hpass <;> rw [hpass] <;> rfl
  have hcollected : final.replica.pass.collected = [] := by
    rcases hremoved.idle with hpass | hpass <;> rw [hpass] <;> rfl
  have hmarked : ∀ futureId ∈ final.replica.cutOff, final.FailedByDrain futureId :=
    fun futureId hcut => ⟨hcut, by rw [htoFail]; exact List.not_mem_nil⟩
  have hcutOff : request.futureId ∈ final.replica.cutOff → final.Settled me request := by
    intro hcut
    have hdrain := hmarked _ hcut
    cases hcaller : foreignOrigin me request with
    | none => exact settled_of_local hcaller (hinv.failed _ hdrain)
    | some origin =>
        have hrun := hinv.runFor request (List.mem_append_right _ hanswered) origin hcaller
        obtain ⟨hfailed, htold⟩ := hrun.told hdrain
        refine ⟨.failed, Record.outcome_of_failed hfailed, fun other hother => ?_⟩
        obtain rfl : origin = other := Option.some.inj (hcaller.symm.trans hother)
        exact htold
  rcases hinv.accounted request hanswered with ⟨held, hheld, hfuture⟩ | ⟨collected, hmem, -⟩ |
    haway | hcut | hsettled
  · exact hcutOff (hfuture ▸ hremoved.cutOff held hheld)
  · rw [hcollected] at hmem
    cases hmem
  · rw [hremoved.home request hanswered] at haway
    cases haway
  · exact hcutOff hcut
  · exact hsettled

def callFromElsewhere (futureId : FutureId) : Request :=
  { futureId
    service := "Agent"
    function := "work"
    requestId := some "r"
    parent := some "p"
    origin := some "origin:1"
    routeTo := some "a:1" }

/-- Marked for removal at 10 s, with a tick when the leftovers are due and another right before the
removal. The one pass runs while the call is in `run`'s hands. -/
def takenBeforeThePass : List Action :=
  let call := callFromElsewhere "f"
  [.server (.execute call none 0), .server (.put call), .loop .take,
    .metrics (.drain 10000000), .metrics (.tick 0), .metrics .failUnfinished, .metrics .cutOff,
    .loop (.process .local), .loop .register, .loop .taskDone, .metrics (.tick 9999999)]

/-- The pass missed the call: at the removal it has not ended, and its origin has been sent
nothing. -/
theorem call_in_hand_is_lost :
    ∃ final : Process,
      (system "a:1" {}).run {} takenBeforeThePass = some final ∧
        final.removeAt "a:1" = some 10000000 ∧ final.replica.pass.Idle ∧
        callFromElsewhere "f" ∈ final.replica.answered ∧
        ¬ (final.redis.future "f").Terminal ∧ final.replica.sent = [] :=
  ⟨_, rfl, rfl, by decide, by decide, by decide, rfl⟩

/-- One call has run and been reported, another is running when the pass comes. -/
def drainedInTime : List Action :=
  let first := callFromElsewhere "f"
  let second := callFromElsewhere "g"
  [.server (.execute first none 0), .server (.put first), .loop .take, .loop (.process .local),
    .loop .register, .loop .taskDone, .worker .dequeue, .worker (.work first .dequeued .start),
    .worker (.work first .started .serve), .worker (.work first .running (.returns "42")),
    .worker (.work first (.returned "42") .store), .worker (.work first (.stored "42") .settle),
    .worker (.work first (.finishing (some "42"))
      (.stamp { finishedAt := 1, cpuResource := 0, gpuResource := 0, queueTime := none })),
    .worker (.work first (.stamped (some "42")) .count),
    .worker (.work first (.counted (some "42")) .report), .worker (.retire first),
    .worker (.forget first), .server (.execute second none 0), .server (.put second),
    .loop .take, .loop (.process .local), .loop .register, .loop .taskDone, .worker .dequeue,
    .worker (.work second .dequeued .start), .worker (.work second .started .serve),
    .metrics (.drain 10000000), .metrics (.tick 0), .metrics .failUnfinished, .metrics .cutOff,
    .metrics .failLeftover]

theorem drain_loses_no_call_in_time :
    ∃ final : Process,
      (system "a:1" {}).run {} drainedInTime = some final ∧
        final.replica.answered.map Request.futureId = ["g", "f"] ∧
        ∀ request ∈ final.replica.answered, final.Settled "a:1" request :=
  ⟨_, rfl, rfl, drain_loses_no_call rfl
    (show (system "a:1" {}).Guarded (fun process => process.Orderly "a:1") {} drainedInTime by
      decide) rfl ⟨by decide, by decide, by decide⟩⟩

end CanyonOS.Process
