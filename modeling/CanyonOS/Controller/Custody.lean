import CanyonOS.Controller.Copies

/-!
# Which calls a controller still holds

A call is held from the queue to the end of its worker, and no move lets go of it but those that
settle it, hand it on, give it to the drain, or report it.
-/

namespace CanyonOS.Calls

/-- Every request anywhere in the controller. -/
def requests (calls : Calls) : List Request :=
  calls.entering ++ calls.requestQueue ++ calls.hand.toList.map Prod.fst ++ calls.workQueue ++
    calls.workers.map Prod.fst ++ calls.executorFutures ++ calls.attempts ++ calls.backoffs

def inHands : Option (Request × HandStage) → List Request
  | some (request, .taken) => [request]
  | _ => []

/-- The requests still to be settled, handed on or reported. -/
def held (calls : Calls) : List Request :=
  calls.requestQueue ++ inHands calls.hand ++ calls.workQueue ++
    (calls.workers.filter (·.2 ≠ .reported)).map Prod.fst

def Holds (calls : Calls) (futureId : FutureId) : Prop :=
  ∃ request ∈ calls.held, request.futureId = futureId

variable {calls next : Calls} {move : Move}

/-- A request seen after a move was there before, has just arrived, or is a copy that is sent again
or sent on. -/
theorem mem_requests_of_move (hmove : calls.move move = some next) {request : Request}
    (hrequest : request ∈ next.requests) :
    request ∈ calls.requests ∨ move = .enter request ∨
      (∃ sent ∈ calls.attempts, ∃ status, request = retryRequest sent status) ∨
      ∃ me address routed, move = .handOn me address ∧ calls.hand = some (routed, .taken) ∧
        request = forwardedRequest me address routed := by
  cases move with
  | enter other =>
      cases hmove
      simp only [requests, List.mem_append, List.mem_singleton] at hrequest ⊢
      grind
  | put other =>
      simp only [Calls.move] at hmove
      split_ifs at hmove with hmem
      cases hmove
      simp only [requests, Calls.put, List.mem_append, List.mem_singleton] at hrequest ⊢
      grind [List.mem_of_mem_erase]
  | take =>
      simp only [Calls.move] at hmove
      split at hmove <;> cases hmove
      rename_i hhand hqueue
      simp only [requests, hhand, hqueue, List.mem_append, List.mem_cons] at hrequest ⊢
      simp at hrequest ⊢
      grind
  | settle | submit | register | taskDone =>
      simp only [Calls.move] at hmove
      split at hmove <;> cases hmove
      rename_i hhand
      simp [requests, hhand] at hrequest ⊢
      grind
  | handOn sender address =>
      simp only [Calls.move] at hmove
      split at hmove <;> cases hmove
      rename_i hhand
      simp [requests, hhand] at hrequest ⊢
      grind
  | dequeue =>
      simp only [Calls.move] at hmove
      split at hmove <;> cases hmove
      rename_i hqueue
      simp [requests, hqueue] at hrequest ⊢
      grind
  | collect =>
      simp only [Calls.move] at hmove
      split at hmove <;> cases hmove
      rename_i hqueue
      simp [requests, hqueue] at hrequest ⊢
      grind
  | work call stage stage' =>
      simp only [Calls.move] at hmove
      split_ifs at hmove with hmem
      cases hmove
      simp [requests] at hrequest ⊢
      grind [List.mem_of_mem_erase]
  | retire | forget | answered | requeue | backOff | resend | giveUp =>
      simp only [Calls.move] at hmove
      split_ifs at hmove with hmem
      cases hmove
      simp [requests, Calls.put, endAttempt, endBackoff] at hrequest ⊢
      grind [List.mem_of_mem_erase]
  | countDown =>
      simp only [Calls.move] at hmove
      split_ifs at hmove
      cases hmove
      exact Or.inl hrequest

theorem mem_entering_of_move (hmove : calls.move move = some next) {request : Request}
    (hrequest : request ∈ next.entering) : request ∈ calls.entering ∨ move = .enter request := by
  cases move with
  | enter other =>
      cases hmove
      rcases List.mem_append.mp hrequest with hold | hnew
      · exact Or.inl hold
      · exact Or.inr (List.mem_singleton.mp hnew ▸ rfl)
  | put other =>
      simp only [Calls.move] at hmove
      split_ifs at hmove
      cases hmove
      exact Or.inl (List.mem_of_mem_erase hrequest)
  | work | retire | forget | answered | requeue | backOff | resend | giveUp | countDown =>
      simp only [Calls.move] at hmove
      split_ifs at hmove
      cases hmove
      exact Or.inl hrequest
  | take | settle | submit | handOn | register | taskDone | dequeue | collect =>
      simp only [Calls.move] at hmove
      split at hmove <;> cases hmove
      exact Or.inl hrequest

/-- How a held call leaves: it is settled or handed on from `run`'s hands, collected by the drain,
or reported by its worker. -/
inductive Leaves (calls : Calls) (futureId : FutureId) : Move → Prop where
  | settle (request : Request) (hhand : calls.hand = some (request, .taken))
      (hfuture : request.futureId = futureId) : Leaves calls futureId .settle
  | handOn (me address : Address) (request : Request)
      (hhand : calls.hand = some (request, .taken)) (hfuture : request.futureId = futureId) :
      Leaves calls futureId (.handOn me address)
  | collect (request : Request) (rest : List Request) (hqueue : calls.requestQueue = request :: rest)
      (hfuture : request.futureId = futureId) : Leaves calls futureId .collect
  | report (call : Request) (stage : Stage) (hfuture : call.futureId = futureId) :
      Leaves calls futureId (.work call stage .reported)

theorem holds_iff {futureId : FutureId} :
    calls.Holds futureId ↔
      (∃ request ∈ calls.requestQueue, request.futureId = futureId) ∨
        (∃ request, calls.hand = some (request, .taken) ∧ request.futureId = futureId) ∨
        (∃ request ∈ calls.workQueue, request.futureId = futureId) ∨
        ∃ worker ∈ calls.workers, worker.2 ≠ .reported ∧ worker.1.futureId = futureId := by
  have hhand : ∀ request, request ∈ inHands calls.hand ↔ calls.hand = some (request, .taken) := by
    intro request
    unfold inHands
    split <;> simp_all [eq_comm]
  unfold Holds held
  simp only [List.mem_append, List.mem_map, List.mem_filter, hhand, decide_eq_true_eq]
  constructor
  · rintro ⟨request, ((hqueue | hhand) | hwork) | ⟨worker, ⟨hworker, hstage⟩, rfl⟩, hfuture⟩
    · exact Or.inl ⟨request, hqueue, hfuture⟩
    · exact Or.inr (Or.inl ⟨request, hhand, hfuture⟩)
    · exact Or.inr (Or.inr (Or.inl ⟨request, hwork, hfuture⟩))
    · exact Or.inr (Or.inr (Or.inr ⟨worker, hworker, hstage, hfuture⟩))
  · rintro (⟨request, hqueue, hfuture⟩ | ⟨request, hhand, hfuture⟩ | ⟨request, hwork, hfuture⟩ |
      ⟨worker, hworker, hstage, hfuture⟩)
    · exact ⟨request, Or.inl (Or.inl (Or.inl hqueue)), hfuture⟩
    · exact ⟨request, Or.inl (Or.inl (Or.inr hhand)), hfuture⟩
    · exact ⟨request, Or.inl (Or.inr hwork), hfuture⟩
    · exact ⟨worker.1, Or.inr ⟨worker, ⟨hworker, hstage⟩, rfl⟩, hfuture⟩

theorem holds_or_leaves_of_move (hmove : calls.move move = some next) {futureId : FutureId}
    (hholds : calls.Holds futureId) : next.Holds futureId ∨ calls.Leaves futureId move := by
  rw [holds_iff] at hholds ⊢
  cases move with
  | enter =>
      cases hmove
      exact Or.inl hholds
  | put request | requeue request | resend request =>
      simp only [Calls.move] at hmove
      split_ifs at hmove
      cases hmove
      rcases hholds with ⟨other, hmem, hfuture⟩ | hrest
      · exact Or.inl (Or.inl ⟨other, List.mem_append_left _ hmem, hfuture⟩)
      · exact Or.inl (Or.inr hrest)
  | forget | answered | backOff | giveUp | countDown =>
      simp only [Calls.move] at hmove
      split_ifs at hmove
      cases hmove
      exact Or.inl hholds
  | take =>
      simp only [Calls.move] at hmove
      split at hmove <;> cases hmove
      rename_i hhand hqueue
      rcases hholds with ⟨request, hmem, hfuture⟩ | ⟨request, hhand', -⟩ | hrest
      · rw [hqueue] at hmem
        rcases List.mem_cons.mp hmem with rfl | hmem
        · exact Or.inl (Or.inr (Or.inl ⟨request, rfl, hfuture⟩))
        · exact Or.inl (Or.inl ⟨request, hmem, hfuture⟩)
      · rw [hhand] at hhand'
        cases hhand'
      · exact Or.inl (Or.inr (Or.inr hrest))
  | settle =>
      simp only [Calls.move] at hmove
      split at hmove <;> cases hmove
      rename_i taken hhand
      rcases hholds with hqueue | ⟨request, hhand', hfuture⟩ | hrest
      · exact Or.inl (Or.inl hqueue)
      · exact Or.inr (.settle request hhand' hfuture)
      · exact Or.inl (Or.inr (Or.inr hrest))
  | handOn me address =>
      simp only [Calls.move] at hmove
      split at hmove <;> cases hmove
      rcases hholds with hqueue | ⟨request, hhand', hfuture⟩ | hrest
      · exact Or.inl (Or.inl hqueue)
      · exact Or.inr (.handOn me address request hhand' hfuture)
      · exact Or.inl (Or.inr (Or.inr hrest))
  | submit =>
      simp only [Calls.move] at hmove
      split at hmove <;> cases hmove
      rename_i taken hhand
      rcases hholds with hqueue | ⟨request, hhand', hfuture⟩ | ⟨request, hmem, hfuture⟩ | hworker
      · exact Or.inl (Or.inl hqueue)
      · rw [hhand] at hhand'
        cases hhand'
        refine Or.inl (Or.inr (Or.inr (Or.inl ⟨taken, ?_, hfuture⟩)))
        exact List.mem_append_right _ (List.mem_singleton_self taken)
      · exact Or.inl (Or.inr (Or.inr (Or.inl ⟨request, List.mem_append_left _ hmem, hfuture⟩)))
      · exact Or.inl (Or.inr (Or.inr (Or.inr hworker)))
  | register | taskDone =>
      simp only [Calls.move] at hmove
      split at hmove <;> cases hmove
      rename_i hhand
      rcases hholds with hqueue | ⟨request, hhand', -⟩ | hrest
      · exact Or.inl (Or.inl hqueue)
      · rw [hhand] at hhand'
        cases hhand'
      · exact Or.inl (Or.inr (Or.inr hrest))
  | dequeue =>
      simp only [Calls.move] at hmove
      split at hmove <;> cases hmove
      rename_i call rest hqueue
      rcases hholds with hwaiting | hhand | ⟨request, hmem, hfuture⟩ | ⟨worker, hmem, hworker⟩
      · exact Or.inl (Or.inl hwaiting)
      · exact Or.inl (Or.inr (Or.inl hhand))
      · rw [hqueue] at hmem
        rcases List.mem_cons.mp hmem with rfl | hmem
        · refine Or.inl (Or.inr (Or.inr (Or.inr
            ⟨(request, .dequeued), List.mem_cons_self, ?_, hfuture⟩)))
          exact Stage.noConfusion
        · exact Or.inl (Or.inr (Or.inr (Or.inl ⟨request, hmem, hfuture⟩)))
      · exact Or.inl (Or.inr (Or.inr (Or.inr ⟨worker, List.mem_cons_of_mem _ hmem, hworker⟩)))
  | work call stage stage' =>
      simp only [Calls.move] at hmove
      split_ifs at hmove with hcall
      cases hmove
      rcases hholds with hqueue | hhand | hwork | ⟨worker, hmem, hstage, hfuture⟩
      · exact Or.inl (Or.inl hqueue)
      · exact Or.inl (Or.inr (Or.inl hhand))
      · exact Or.inl (Or.inr (Or.inr (Or.inl hwork)))
      · by_cases heq : worker = (call, stage)
        · subst heq
          by_cases hreported : stage' = .reported
          · subst hreported
            exact Or.inr (.report call stage hfuture)
          · exact Or.inl (Or.inr (Or.inr (Or.inr
              ⟨(call, stage'), List.mem_cons_self, hreported, hfuture⟩)))
        · refine Or.inl (Or.inr (Or.inr (Or.inr ⟨worker, ?_, hstage, hfuture⟩)))
          exact List.mem_cons_of_mem _ ((List.mem_erase_of_ne heq).mpr hmem)
  | retire call =>
      simp only [Calls.move] at hmove
      split_ifs at hmove
      cases hmove
      rcases hholds with hqueue | hhand | hwork | ⟨worker, hmem, hstage, hfuture⟩
      · exact Or.inl (Or.inl hqueue)
      · exact Or.inl (Or.inr (Or.inl hhand))
      · exact Or.inl (Or.inr (Or.inr (Or.inl hwork)))
      · refine Or.inl (Or.inr (Or.inr (Or.inr ⟨worker, ?_, hstage, hfuture⟩)))
        refine (List.mem_erase_of_ne ?_).mpr hmem
        rintro rfl
        exact hstage rfl
  | collect =>
      simp only [Calls.move] at hmove
      split at hmove <;> cases hmove
      rename_i head rest hqueue
      rcases hholds with ⟨request, hmem, hfuture⟩ | hrest
      · rw [hqueue] at hmem
        rcases List.mem_cons.mp hmem with rfl | hmem
        · exact Or.inr (.collect request rest hqueue hfuture)
        · exact Or.inl (Or.inl ⟨request, hmem, hfuture⟩)
      · exact Or.inl (Or.inr hrest)

end CanyonOS.Calls
