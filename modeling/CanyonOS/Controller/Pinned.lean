import CanyonOS.Controller.Copies

/-!
# Calls made elsewhere

A request forwarded to a replica is pinned to it, so the replica runs the call itself: no copy of it
is ever sent on.
-/

namespace CanyonOS

namespace Calls

/-- At a replica that did not make the call: every copy is pinned to the replica, and it sends none
on. -/
structure PinnedTo (me : Address) (futureId : FutureId) (calls : Calls) : Prop where
  entering : ∀ request ∈ calls.entering, request.futureId = futureId → request.routeTo = some me
  queued : ∀ request ∈ calls.requestQueue, request.futureId = futureId →
    request.routeTo = some me
  hand : ∀ request stage, calls.hand = some (request, stage) → request.futureId = futureId →
    request.routeTo = some me
  attempts : ∀ request ∈ calls.attempts, request.futureId ≠ futureId
  backoffs : ∀ request ∈ calls.backoffs, request.futureId ≠ futureId

variable {calls next : Calls} {move : Move} {me : Address} {futureId : FutureId}

theorem PinnedTo.put {request : Request} (hpinned : calls.PinnedTo me futureId)
    (hrequest : request.futureId = futureId → request.routeTo = some me) :
    (calls.put request).PinnedTo me futureId where
  entering := hpinned.entering
  queued other hmem hfuture := by
    rcases List.mem_append.mp hmem with hold | hnew
    · exact hpinned.queued other hold hfuture
    · obtain rfl := List.mem_singleton.mp hnew
      exact hrequest hfuture
  hand := hpinned.hand
  attempts := hpinned.attempts
  backoffs := hpinned.backoffs

theorem PinnedTo.endAttempt (hpinned : calls.PinnedTo me futureId) (request : Request) :
    (calls.endAttempt request).PinnedTo me futureId where
  entering := hpinned.entering
  queued := hpinned.queued
  hand := hpinned.hand
  attempts other hmem := hpinned.attempts other (List.mem_of_mem_erase hmem)
  backoffs := hpinned.backoffs

theorem PinnedTo.endBackoff (hpinned : calls.PinnedTo me futureId) (request : Request) :
    (calls.endBackoff request).PinnedTo me futureId where
  entering := hpinned.entering
  queued := hpinned.queued
  hand := hpinned.hand
  attempts := hpinned.attempts
  backoffs other hmem := hpinned.backoffs other (List.mem_of_mem_erase hmem)

theorem PinnedTo.of_move (hpinned : calls.PinnedTo me futureId)
    (hmove : calls.move move = some next)
    (henter : ∀ request, move = .enter request → request.futureId = futureId →
      request.routeTo = some me)
    (hhandOn : ∀ sender address request, move = .handOn sender address →
      calls.hand = some (request, .taken) → request.futureId ≠ futureId) :
    next.PinnedTo me futureId := by
  cases move with
  | enter request =>
      cases hmove
      refine ⟨fun other hmem hfuture => ?_, hpinned.queued, hpinned.hand, hpinned.attempts,
        hpinned.backoffs⟩
      rcases List.mem_append.mp hmem with hold | hnew
      · exact hpinned.entering other hold hfuture
      · obtain rfl := List.mem_singleton.mp hnew
        exact henter other rfl hfuture
  | put request =>
      simp only [Calls.move] at hmove
      split_ifs at hmove with hmem
      cases hmove
      refine PinnedTo.put ⟨fun other hother => ?_, hpinned.queued, hpinned.hand, hpinned.attempts,
        hpinned.backoffs⟩ (hpinned.entering request hmem)
      exact hpinned.entering other (List.mem_of_mem_erase hother)
  | take =>
      simp only [Calls.move] at hmove
      split at hmove <;> cases hmove
      rename_i request rest hhand hqueue
      refine ⟨hpinned.entering, fun other hmem => ?_, fun other stage heq => ?_, hpinned.attempts,
        hpinned.backoffs⟩
      · exact hpinned.queued other (hqueue ▸ List.mem_cons_of_mem _ hmem)
      · cases heq
        exact hpinned.queued request (hqueue ▸ List.mem_cons_self)
  | settle | submit | register =>
      simp only [Calls.move] at hmove
      split at hmove <;> cases hmove
      rename_i request hhand
      refine ⟨hpinned.entering, hpinned.queued, fun other stage heq => ?_, hpinned.attempts,
        hpinned.backoffs⟩
      cases heq
      exact hpinned.hand request _ hhand
  | handOn sender address =>
      simp only [Calls.move] at hmove
      split at hmove <;> cases hmove
      rename_i request hhand
      refine ⟨hpinned.entering, hpinned.queued, fun other stage heq => ?_, fun other hmem => ?_,
        hpinned.backoffs⟩
      · cases heq
        exact hpinned.hand request _ hhand
      · rcases List.mem_cons.mp hmem with rfl | hold
        · exact hhandOn sender address request rfl hhand
        · exact hpinned.attempts other hold
  | taskDone =>
      simp only [Calls.move] at hmove
      split at hmove <;> cases hmove
      refine ⟨hpinned.entering, hpinned.queued, fun other stage heq => ?_, hpinned.attempts,
        hpinned.backoffs⟩
      cases heq
  | collect =>
      simp only [Calls.move] at hmove
      split at hmove <;> cases hmove
      rename_i hqueue
      refine ⟨hpinned.entering, fun other hmem => ?_, hpinned.hand, hpinned.attempts,
        hpinned.backoffs⟩
      exact hpinned.queued other (hqueue ▸ List.mem_cons_of_mem _ hmem)
  | dequeue =>
      simp only [Calls.move] at hmove
      split at hmove <;> cases hmove
      exact ⟨hpinned.entering, hpinned.queued, hpinned.hand, hpinned.attempts, hpinned.backoffs⟩
  | work | retire | forget | countDown =>
      simp only [Calls.move] at hmove
      split_ifs at hmove
      cases hmove
      exact ⟨hpinned.entering, hpinned.queued, hpinned.hand, hpinned.attempts, hpinned.backoffs⟩
  | answered request =>
      simp only [Calls.move] at hmove
      split_ifs at hmove
      cases hmove
      exact hpinned.endAttempt request
  | requeue request status =>
      simp only [Calls.move] at hmove
      split_ifs at hmove with hmem
      cases hmove
      exact (hpinned.endAttempt request).put fun hfuture =>
        absurd hfuture (hpinned.attempts request hmem)
  | backOff request status =>
      simp only [Calls.move] at hmove
      split_ifs at hmove with hmem
      cases hmove
      refine ⟨hpinned.entering, hpinned.queued, hpinned.hand,
        fun other hother => hpinned.attempts other (List.mem_of_mem_erase hother),
        fun other hother => ?_⟩
      rcases List.mem_cons.mp hother with rfl | hold
      · exact hpinned.attempts request hmem
      · exact hpinned.backoffs other hold
  | resend request =>
      simp only [Calls.move] at hmove
      split_ifs at hmove with hmem
      cases hmove
      exact (hpinned.endBackoff request).put fun hfuture =>
        absurd hfuture (hpinned.backoffs request hmem)
  | giveUp request =>
      simp only [Calls.move] at hmove
      split_ifs at hmove
      cases hmove
      exact hpinned.endBackoff request

end Calls

namespace Process

variable {me : Address} {config : Config} {process next : Process} {action : Action}
  {futureId : FutureId}

theorem step_forwarded {address : Address}
    (hstep : process.step me config (.loop (.process (.forwarded address))) = some next) :
    ∃ request, process.replica.calls.hand = some (request, .taken) ∧ address ≠ me ∧
      (request.routeTo = none ∨ request.routeTo = some address) := by
  simp only [step, loopStep] at hstep
  split at hstep
  case h_1 request hhand =>
    simp only [processRequest] at hstep
    split_ifs at hstep with hroute
    exact ⟨request, hhand, hroute⟩
  case h_2 => cases hstep

theorem step_pinnedTo (hstep : process.step me config action = some next)
    (hpinned : process.replica.calls.PinnedTo me futureId)
    (hexecute : ∀ request refusal now, action = .server (.execute request refusal now) →
      admission process.replica.refusing (process.redis.isAccepted me request.futureId) request
        refusal = .queued →
      request.futureId = futureId → request.routeTo = some me) :
    next.replica.calls.PinnedTo me futureId := by
  have hmoved := (step_effect hstep).moved
  cases hmove : moveOf me config process action with
  | none =>
      simp only [hmove, Moved] at hmoved
      exact hmoved ▸ hpinned
  | some move =>
      simp only [hmove, Moved] at hmoved
      refine hpinned.of_move hmoved ?_ ?_
      · rintro request rfl
        obtain ⟨refusal, now, haction, hqueued⟩ := moveOf_causedBy hmove
        exact hexecute request refusal now haction hqueued
      · rintro sender address request rfl hhand hfuture
        obtain ⟨-, rfl⟩ := moveOf_causedBy hmove
        obtain ⟨taken, htaken, hne, hroute⟩ := step_forwarded hstep
        obtain rfl : taken = request := by simpa [htaken] using hhand
        have hpin := hpinned.hand taken .taken htaken hfuture
        simp [hpin, hne.symm] at hroute

end Process

end CanyonOS
