import CanyonOS.Controller.Custody
import CanyonOS.Controller.Pinned

/-!
# Draining a replica

What is asked of a replica that is removed after a drain, and what its controller keeps meanwhile:
the marker of every call it knows of, one copy of each, and the end of every call that has ended.
-/

namespace CanyonOS

/-- What a worker past its method relies on in the call's record. -/
def Stage.Agrees (record : Record) : Stage → Prop
  | .stored serialized => record.result = some serialized
  | .finishing result | .stamped result | .counted result =>
      record.outcome = some (result.elim .failed .done)
  | _ => True

/-- The method is over and the outcome is written. -/
def Stage.Ended : Stage → Prop
  | .finishing _ | .stamped _ | .counted _ => True
  | _ => False

namespace Process

/-- The other controller that made the call. -/
def foreignOrigin (me : Address) (request : Request) : Option Address :=
  request.origin.filter fun origin => Elsewhere me origin

/-- The drain has cut the call off and marked it failed. -/
def FailedByDrain (process : Process) (futureId : FutureId) : Prop :=
  futureId ∈ process.replica.cutOff ∧ futureId ∉ process.replica.pass.toFail

instance (process : Process) (futureId : FutureId) : Decidable (process.FailedByDrain futureId) :=
  inferInstanceAs (Decidable (_ ∧ _))

/-- The requests `Execute` let in. -/
def admitted (process : Process) : List Request :=
  process.replica.calls.entering ++ process.replica.answered

/-- The replica runs the call for another controller. -/
def TakenOver (me : Address) (process : Process) (futureId : FutureId) : Prop :=
  ∃ request ∈ process.admitted,
    request.futureId = futureId ∧ (foreignOrigin me request).isSome

instance (me : Address) (process : Process) (futureId : FutureId) :
    Decidable (process.TakenOver me futureId) :=
  inferInstanceAs (Decidable (∃ request ∈ process.admitted, _))

/-- Messages arrive, no one else decides a call the replica runs for another controller, and a
failure on record is not taken back. -/
def Orderly (me : Address) (process : Process) : Action → Prop
  | .worker (.work call _ .start) =>
      ¬ ((process.redis.future call.futureId).outcome = some .failed ∧
          (process.redis.future call.futureId).result = none) ∧
        ¬ process.FailedByDrain call.futureId
  | .worker (.work call _ .settle) => ¬ process.FailedByDrain call.futureId
  | .worker (.work _ _ (.undelivered _)) => False
  | .server (.relayUndelivered _ _) => False
  | .server (.writeResult message) => ¬ process.TakenOver me message.futureId
  | .stub (.submitFailed call _) => ¬ process.TakenOver me call.futureId
  | _ => True

instance (me : Address) (process : Process) : DecidablePred (process.Orderly me) := fun action =>
  match action with
  | .worker (.work _ _ .start) => inferInstanceAs (Decidable (_ ∧ _))
  | .worker (.work _ _ .settle) => inferInstanceAs (Decidable (¬ _))
  | .worker (.work _ _ (.undelivered _)) => isFalse id
  | .server (.relayUndelivered _ _) => isFalse id
  | .server (.writeResult _) => inferInstanceAs (Decidable (¬ _))
  | .stub (.submitFailed _ _) => inferInstanceAs (Decidable (¬ _))
  | .stub (.create _) | .server (.execute ..) | .server (.put _) | .server (.cleanup _)
  | .loop _ | .metrics _ | .forward _ | .worker .dequeue | .worker (.retire _)
  | .worker (.forget _) | .worker (.work _ _ (.refuse ..)) | .worker (.work _ _ .serve)
  | .worker (.work _ _ (.returns _)) | .worker (.work _ _ (.raises _))
  | .worker (.work _ _ .store) | .worker (.work _ _ (.stamp _)) | .worker (.work _ _ .count)
  | .worker (.work _ _ .report) => isTrue trivial

/-- Nothing is left for the removal to lose: the pass is over and has cut off whatever has not
finished, and no call is out at another replica. -/
structure NothingLeftOut (process : Process) : Prop where
  idle : process.replica.pass.Idle
  cutOff : ∀ request ∈ process.replica.calls.held, request.futureId ∈ process.replica.cutOff
  home : ∀ request ∈ process.replica.answered,
    process.replica.forwarded request.futureId = none

/-- The origin, when it is another controller, has been sent this outcome. -/
def Told (me : Address) (process : Process) (request : Request) (outcome : Outcome) : Prop :=
  ∀ origin, foreignOrigin me request = some origin →
    ∃ message, (origin, message) ∈ process.replica.sent ∧ message.outcome = some outcome

/-- The call has ended, and its origin knows how. -/
def Settled (me : Address) (process : Process) (request : Request) : Prop :=
  ∃ outcome, (process.redis.future request.futureId).outcome = some outcome ∧
    process.Told me request outcome

def Accounted (me : Address) (process : Process) (request : Request) : Prop :=
  process.replica.calls.Holds request.futureId ∨
    (∃ collected ∈ process.replica.pass.collected, collected.futureId = request.futureId) ∨
    (process.replica.forwarded request.futureId).isSome ∨
    request.futureId ∈ process.replica.cutOff ∨ process.Settled me request

/-- Every request the process knows of. -/
def known (process : Process) : List Request :=
  process.replica.calls.requests ++ process.replica.pass.requests

/-- A call the replica runs for `origin`. -/
structure RunFor (me origin : Address) (futureId : FutureId) (process : Process) : Prop where
  pinned : process.replica.calls.PinnedTo me futureId
  home : process.replica.forwarded futureId = none
  caller : ∀ request ∈ process.known, request.futureId = futureId →
    foreignOrigin me request = some origin
  agrees : ∀ worker ∈ process.replica.calls.workers, worker.1.futureId = futureId →
    futureId ∈ process.replica.cutOff ∨ worker.2.Agrees (process.redis.future futureId)
  told : process.FailedByDrain futureId →
    (process.redis.future futureId).failed = some true ∧
      ∃ message, (origin, message) ∈ process.replica.sent ∧ message.outcome = some .failed

/-- What every process keeps, whatever is to be said of a call. -/
structure Kept (me : Address) (process : Process) : Prop where
  marked : ∀ request ∈ process.known, (me, request.futureId) ∈ process.redis.accepted
  admitted : ∀ request ∈ process.admitted, (me, request.futureId) ∈ process.redis.accepted
  cutOff : ∀ futureId ∈ process.replica.cutOff, (me, futureId) ∈ process.redis.accepted
  away : ∀ futureId, (process.replica.forwarded futureId).isSome →
    (me, futureId) ∈ process.redis.accepted
  failing : ∀ futureId ∈ process.replica.pass.toFail, futureId ∈ process.replica.cutOff
  alone : ∀ futureId, process.replica.calls.copies (fun _ => True) futureId ≤
    if (me, futureId) ∈ process.redis.accepted then 1 else 0
  stored : ∀ call serialized, (call, .stored serialized) ∈ process.replica.calls.workers →
    (process.redis.future call.futureId).result.isSome

structure Inv (me : Address) (process : Process) : Prop extends Kept me process where
  ended : ∀ worker ∈ process.replica.calls.workers, worker.2.Ended →
    worker.1.futureId ∈ process.replica.cutOff ∨
      (process.redis.future worker.1.futureId).Terminal
  failed : ∀ futureId, process.FailedByDrain futureId →
    (process.redis.future futureId).Terminal
  runFor : ∀ request ∈ process.admitted, ∀ origin, foreignOrigin me request = some origin →
    RunFor me origin request.futureId process
  accounted : ∀ request ∈ process.replica.answered, process.Accounted me request

variable {me origin : Address} {config : Config} {process next : Process} {action : Action}
  {futureId : FutureId}

/-! ### What every step keeps -/

theorem mem_accepted_of_step (hstep : process.step me config action = some next)
    {entry : Address × FutureId} (hentry : entry ∈ process.redis.accepted) :
    entry ∈ next.redis.accepted := by
  rw [(step_effect hstep).accepted]
  exact List.mem_append_right _ hentry

/-- A request seen after a step was there before, is let in by the step, or is a copy made of one
that was there. -/
theorem mem_known_of_step (hstep : process.step me config action = some next) {request : Request}
    (hrequest : request ∈ next.known) :
    request ∈ process.known ∨
      (∃ refusal now, action = .server (.execute request refusal now) ∧
        admission process.replica.refusing (process.redis.isAccepted me request.futureId) request
          refusal = .queued) ∨
      (∃ sent ∈ process.replica.calls.attempts, ∃ status, request = retryRequest sent status) ∨
      ∃ address routed, action = .loop (.process (.forwarded address)) ∧
        process.replica.calls.hand = some (routed, .taken) ∧
        request = Calls.forwardedRequest me address routed := by
  rcases List.mem_append.mp hrequest with hcalls | hpass
  · have hmoved := (step_effect hstep).moved
    cases hmove : moveOf me config process action with
    | none =>
        simp only [hmove, Moved] at hmoved
        exact Or.inl (List.mem_append_left _ (hmoved ▸ hcalls))
    | some move =>
        simp only [hmove, Moved] at hmoved
        rcases Calls.mem_requests_of_move hmoved hcalls with hold | rfl | hretried |
          ⟨sender, address, routed, rfl, hhand, heq⟩
        · exact Or.inl (List.mem_append_left _ hold)
        · obtain ⟨refusal, now, haction, hqueued⟩ := moveOf_causedBy hmove
          exact Or.inr (Or.inl ⟨refusal, now, haction, hqueued⟩)
        · exact Or.inr (Or.inr (Or.inl hretried))
        · obtain ⟨rfl, haction⟩ := moveOf_causedBy hmove
          exact Or.inr (Or.inr (Or.inr ⟨address, routed, haction, hhand, heq⟩))
  · rcases mem_pass_of_step hstep hpass with hold | hfuture | hqueue
    · exact Or.inl (List.mem_append_right _ hold)
    · refine Or.inl (List.mem_append_left _ ?_)
      simp [Calls.requests, hfuture]
    · refine Or.inl (List.mem_append_left _ ?_)
      simp [Calls.requests, hqueue]

theorem mem_accepted_of_queued {request : Request} {refusal : Option (String × String)}
    {now : Time}
    (hstep : process.step me config (.server (.execute request refusal now)) = some next)
    (hqueued : admission process.replica.refusing (process.redis.isAccepted me request.futureId)
      request refusal = .queued) :
    (me, request.futureId) ∈ next.redis.accepted := by
  rw [(step_effect hstep).accepted]
  simp [acceptedBy, hqueued]

theorem not_mem_accepted_of_queued {request : Request} {refusal : Option (String × String)}
    (hqueued : admission process.replica.refusing (process.redis.isAccepted me request.futureId)
      request refusal = .queued) :
    (me, request.futureId) ∉ process.redis.accepted := by
  simpa [Redis.isAccepted] using admission_queued hqueued

theorem mem_answeredBy {request : Request} (hrequest : request ∈ answeredBy action) :
    action = .server (.put request) := by
  unfold answeredBy at hrequest
  split at hrequest
  · rw [List.mem_singleton.mp hrequest]
  · cases hrequest

theorem mem_entering_of_put {request : Request}
    (hstep : process.step me config (.server (.put request)) = some next) :
    request ∈ process.replica.calls.entering := by
  have hmoved := (step_effect hstep).moved
  simp only [moveOf, Moved, Calls.move] at hmoved
  by_contra hnot
  rw [if_neg hnot] at hmoved
  cases hmoved

theorem mem_admitted_of_step (hstep : process.step me config action = some next)
    {request : Request} (hrequest : request ∈ next.admitted) :
    request ∈ process.admitted ∨
      ∃ refusal now, action = .server (.execute request refusal now) ∧
        admission process.replica.refusing (process.redis.isAccepted me request.futureId) request
          refusal = .queued := by
  have heffect := step_effect hstep
  rcases List.mem_append.mp hrequest with hentering | hanswered
  · have hmoved := heffect.moved
    cases hmove : moveOf me config process action with
    | none =>
        simp only [hmove, Moved] at hmoved
        exact Or.inl (List.mem_append_left _ (hmoved ▸ hentering))
    | some move =>
        simp only [hmove, Moved] at hmoved
        rcases Calls.mem_entering_of_move hmoved hentering with hold | rfl
        · exact Or.inl (List.mem_append_left _ hold)
        · exact Or.inr (moveOf_causedBy hmove)
  · rw [heffect.answered] at hanswered
    rcases List.mem_append.mp hanswered with hnew | hold
    · obtain rfl := mem_answeredBy hnew
      exact Or.inl (List.mem_append_left _ (mem_entering_of_put hstep))
    · exact Or.inl (List.mem_append_right _ hold)

theorem Kept.step (hkept : Kept me process) (hstep : process.step me config action = some next) :
    Kept me next where
  marked request hrequest := by
    rcases mem_known_of_step hstep hrequest with hold | ⟨refusal, now, rfl, hqueued⟩ |
      ⟨sent, hsent, status, rfl⟩ | ⟨address, routed, rfl, hhand, rfl⟩
    · exact mem_accepted_of_step hstep (hkept.marked request hold)
    · exact mem_accepted_of_queued hstep hqueued
    · refine mem_accepted_of_step hstep (hkept.marked sent (List.mem_append_left _ ?_))
      simp [Calls.requests, hsent]
    · refine mem_accepted_of_step hstep (hkept.marked routed (List.mem_append_left _ ?_))
      simp [Calls.requests, hhand]
  admitted request hrequest := by
    rcases mem_admitted_of_step hstep hrequest with hold | ⟨refusal, now, rfl, hqueued⟩
    · exact mem_accepted_of_step hstep (hkept.admitted request hold)
    · exact mem_accepted_of_queued hstep hqueued
  cutOff futureId hcut := by
    refine mem_accepted_of_step hstep ?_
    rcases step_drain_cases hstep with ⟨hcutOff, -⟩ | ⟨unfinished, hpass, -, hcutOff⟩ |
      ⟨call, rest, -, -, hcutOff, -, -⟩
    · exact hkept.cutOff futureId (hcutOff ▸ hcut)
    · rw [hcutOff] at hcut
      rcases List.mem_append.mp hcut with hnew | hold
      · obtain ⟨request, hrequest, rfl⟩ := List.mem_map.mp hnew
        exact hkept.marked request (List.mem_append_right _ (by rwa [hpass]))
      · exact hkept.cutOff futureId hold
    · exact hkept.cutOff futureId (hcutOff ▸ hcut)
  away futureId haway := by
    refine mem_accepted_of_step hstep ?_
    rcases (step_effect hstep).forwarded futureId with hsame |
      ⟨address, request, -, hhand, rfl, -⟩ | ⟨hnone, -⟩
    · exact hkept.away futureId (hsame ▸ haway)
    · refine hkept.marked request (List.mem_append_left _ ?_)
      simp [Calls.requests, hhand]
    · simp [hnone] at haway
  failing futureId hfailing := by
    rcases step_drain_cases hstep with ⟨hcutOff, htoFail⟩ | ⟨unfinished, -, hpass, hcutOff⟩ |
      ⟨call, rest, hpass, hnext, hcutOff, -, -⟩
    · rw [hcutOff]
      exact hkept.failing futureId (htoFail ▸ hfailing)
    · rw [hpass] at hfailing
      rw [hcutOff]
      exact List.mem_append_left _ hfailing
    · rw [hnext] at hfailing
      rw [hcutOff]
      refine hkept.failing futureId ?_
      rw [hpass]
      exact List.mem_cons_of_mem _ hfailing
  alone futureId := by
    have hcopies := step_all_copies_le hstep futureId
    have hold := hkept.alone futureId
    rcases enteredBy_cases me process action futureId with hnone | ⟨hone, hfresh, hmarked⟩
    · by_cases hbefore : (me, futureId) ∈ process.redis.accepted
      · rw [if_pos hbefore] at hold
        rw [if_pos (mem_accepted_of_step hstep hbefore)]
        omega
      · rw [if_neg hbefore] at hold
        omega
    · have hafter : (me, futureId) ∈ next.redis.accepted := by
        rw [(step_effect hstep).accepted]
        exact List.mem_append_left _ hmarked
      rw [if_neg hfresh] at hold
      rw [if_pos hafter]
      omega
  stored call serialized hworker := by
    rcases mem_workers_of_step hstep hworker with hold | hnew |
      ⟨stage, work, done, -, -, hwork, hfuture⟩
    · exact (step_effect hstep).recorded.result_isSome (hkept.stored call serialized hold)
    · cases hnew
    · rw [hfuture, workStep_stored hwork]
      rfl

/-! ### A call that has ended stays so -/

theorem terminal_of_hset (hfuture : ∃ written fields,
      next.redis.future = (process.redis.hset written fields).future ∧
        ((process.redis.future written).Terminal →
          ((process.redis.future written).hsetMultiple fields).Terminal))
    (hterminal : (process.redis.future futureId).Terminal) :
    (next.redis.future futureId).Terminal := by
  obtain ⟨written, fields, hfuture, hkeep⟩ := hfuture
  rw [hfuture]
  by_cases heq : futureId = written
  · subst heq
    rw [Redis.hset_future_self]
    exact hkeep hterminal
  · rwa [Redis.hset_future_of_ne heq]

theorem terminal_of_step (hkept : Kept me process) (horderly : process.Orderly me action)
    (hstep : process.step me config action = some next)
    (hterminal : (process.redis.future futureId).Terminal) :
    (next.redis.future futureId).Terminal := by
  cases (step_effect hstep).recorded with
  | nothing hfuture => exact (congrFun hfuture futureId) ▸ hterminal
  | failure written fields hfailed _ _ hfuture =>
      exact terminal_of_hset
        ⟨written, fields, hfuture, fun _ => Record.terminal_hsetMultiple (Or.inl hfailed) _⟩
        hterminal
  | other written fields hfailed _ hfuture =>
      exact terminal_of_hset
        ⟨written, fields, hfuture, fun h => h.hsetMultiple (by simp [hfailed])⟩ hterminal
  | start call hfuture =>
      refine terminal_of_hset ⟨call.futureId, initialFields call, hfuture, fun h => ?_⟩ hterminal
      cases hresult : (process.redis.future call.futureId).result with
      | none =>
          refine absurd ⟨?_, hresult⟩ horderly.1
          rcases h with hfailed | hsome
          · exact Record.outcome_of_failed hfailed
          · simp [hresult] at hsome
      | some result => exact Record.terminal_hsetMultiple_of_result (by simp [hresult]) _
  | store call serialized hfuture =>
      exact terminal_of_hset ⟨call.futureId, _, hfuture, fun h => h.hsetMultiple nofun⟩ hterminal
  | settle call serialized hworker hfuture =>
      have hresult := hkept.stored call serialized hworker
      exact terminal_of_hset ⟨call.futureId, _, hfuture,
        fun _ => Record.terminal_hsetMultiple_of_result hresult _⟩ hterminal
  | arrival message hfuture =>
      exact terminal_of_hset ⟨message.futureId, message.data, hfuture,
        fun _ => Record.terminal_hsetMultiple message.terminal _⟩ hterminal

theorem cutOff_of_step (hstep : process.step me config action = some next)
    (hcut : futureId ∈ process.replica.cutOff) : futureId ∈ next.replica.cutOff := by
  rcases step_drain_cases hstep with ⟨hcutOff, -⟩ | ⟨unfinished, -, -, hcutOff⟩ |
    ⟨call, rest, -, -, hcutOff, -, -⟩
  · exact hcutOff ▸ hcut
  · exact hcutOff ▸ List.mem_append_right _ hcut
  · exact hcutOff ▸ hcut

/-- A call is newly failed by the drain only when the pass marks it. -/
theorem failedByDrain_of_step (hstep : process.step me config action = some next)
    (hfailed : next.FailedByDrain futureId) :
    process.FailedByDrain futureId ∨
      ∃ call rest, action = .metrics .failLeftover ∧
        process.replica.pass = .failing (call :: rest) ∧ call.futureId = futureId ∧
        (next.redis.future futureId).failed = some true := by
  obtain ⟨hcut, hmarked⟩ := hfailed
  rcases step_drain_cases hstep with ⟨hcutOff, htoFail⟩ | ⟨unfinished, hold, hpass, hcutOff⟩ |
    ⟨call, rest, hpass, hnext, hcutOff, haction, hwritten⟩
  · exact Or.inl ⟨hcutOff ▸ hcut, htoFail ▸ hmarked⟩
  · rw [hpass] at hmarked
    rw [hcutOff, List.mem_append] at hcut
    exact Or.inl ⟨hcut.resolve_left hmarked, by simp [hold, Pass.toFail]⟩
  · by_cases hcall : call.futureId = futureId
    · exact Or.inr ⟨call, rest, haction, hpass, hcall, hcall ▸ hwritten⟩
    · refine Or.inl ⟨hcutOff ▸ hcut, ?_⟩
      rw [hnext] at hmarked
      rw [hpass]
      exact fun hmem => (List.mem_cons.mp hmem).elim (fun heq => hcall heq.symm) hmarked

theorem workStep_ended {call : Request} {stage stage' : Stage} {work : Work} {done : Process}
    (hwork : workStep me config process call stage work = some (stage', done))
    (hstored : ∀ serialized, stage = .stored serialized →
      (process.redis.future call.futureId).result.isSome)
    (hbefore : stage.Ended → call.futureId ∈ process.replica.cutOff ∨
      (process.redis.future call.futureId).Terminal) (hafter : stage'.Ended) :
    call.futureId ∈ process.replica.cutOff ∨ (done.redis.future call.futureId).Terminal := by
  unfold workStep at hwork
  split at hwork
  case h_4 =>
    split_ifs at hwork with hcut <;> cases hwork
    · exact Or.inl hcut
    · exact hafter.elim
  case h_5 | h_8 =>
    cases hwork
    exact Or.inr (by simpa using Record.terminal_hsetMultiple (failureFields_terminal _ _ _ _) _)
  case h_7 serialized =>
    cases hwork
    have hresult := hstored serialized rfl
    exact Or.inr (by simpa using Record.terminal_hsetMultiple_of_result hresult _)
  case h_9 measured _ =>
    cases hwork
    refine (hbefore trivial).imp_right fun hterminal => ?_
    rw [hset_redis, Redis.hset_future_self]
    exact hterminal.hsetMultiple nofun
  case h_10 =>
    cases hwork
    exact hbefore trivial
  case h_11 => split_ifs at hwork; cases hwork; exact hafter.elim
  case h_12 => split at hwork <;> cases hwork <;> exact hafter.elim
  case h_13 => cases hwork
  all_goals
    cases hwork
    exact hafter.elim

theorem ended_of_step (hinv : Inv me process) (horderly : process.Orderly me action)
    (hstep : process.step me config action = some next) {worker : Request × Stage}
    (hworker : worker ∈ next.replica.calls.workers) (hended : worker.2.Ended) :
    worker.1.futureId ∈ next.replica.cutOff ∨
      (next.redis.future worker.1.futureId).Terminal := by
  rcases mem_workers_of_step hstep hworker with hold | hnew |
    ⟨stage, work, done, -, hmem, hwork, hfuture⟩
  · exact (hinv.ended worker hold hended).imp (cutOff_of_step hstep)
      (terminal_of_step hinv.toKept horderly hstep)
  · rw [hnew] at hended
    exact hended.elim
  · rw [hfuture]
    refine (workStep_ended hwork ?_ (hinv.ended (worker.1, stage) hmem) hended).imp_left
      (cutOff_of_step hstep)
    rintro serialized rfl
    exact hinv.stored worker.1 serialized hmem

theorem failed_of_step (hinv : Inv me process) (horderly : process.Orderly me action)
    (hstep : process.step me config action = some next) (hfailed : next.FailedByDrain futureId) :
    (next.redis.future futureId).Terminal := by
  rcases failedByDrain_of_step hstep hfailed with hbefore | ⟨call, rest, -, -, -, hwritten⟩
  · exact terminal_of_step hinv.toKept horderly hstep (hinv.failed futureId hbefore)
  · exact Or.inl hwritten

end Process

end CanyonOS
