import CanyonOS.Controller.Effects

/-!
# The outcome of a call is final

One machine's Redis under any number of replicas. An ended call stays ended, and a call the drain
cut off stays failed, exactly along the runs in which no step of `Process.Reopens` is taken.
-/

namespace CanyonOS

/-- One machine: the Redis its replicas share, and each replica's own process. -/
structure Machine where
  redis : Redis := {}
  replica : Address → Replica := fun _ => {}

namespace Machine

def process (machine : Machine) (me : Address) : Process :=
  { redis := machine.redis, replica := machine.replica me }

def step (config : Address → Config) (machine : Machine) :
    Address × Process.Action → Option Machine
  | (me, action) =>
      ((machine.process me).step me (config me) action).map fun next =>
        { redis := next.redis
          replica := Function.update machine.replica me next.replica }

def system (config : Address → Config) : TransitionSystem Machine (Address × Process.Action) where
  step := step config

/-- Some replica's drain cut the call off and has marked it failed. -/
def FailedByDrain (machine : Machine) (futureId : FutureId) : Prop :=
  ∃ me, futureId ∈ (machine.replica me).cutOff ∧ futureId ∉ (machine.replica me).pass.toFail

/-- What a step must not undo. -/
structure KeepsOutcomes (before after : Machine) : Prop where
  terminal : ∀ futureId,
    (before.redis.future futureId).Terminal → (after.redis.future futureId).Terminal
  failed : ∀ futureId,
    after.FailedByDrain futureId → (after.redis.future futureId).failed = some true

/-- The steps that take an outcome back: the first write of a call that failed before it ran, the
success of a call cut off while its result was being written, and a success sent for one. -/
def Reopens (machine : Machine) : Address × Process.Action → Prop
  | (_, .worker (.work call .dequeued .start)) =>
      (machine.redis.future call.futureId).outcome = some .failed ∧
          (machine.redis.future call.futureId).result = none ∨
        machine.FailedByDrain call.futureId
  | (_, .worker (.work call (.stored _) .settle)) => machine.FailedByDrain call.futureId
  | (_, .server (.writeResult message)) =>
      message.data.failed = some false ∧ machine.FailedByDrain message.futureId
  | _ => False

/-- What makes a single step decide the question: a worker that is to reset `failed` has stored a
result, and the calls cut off so far are failed. -/
structure Inv (machine : Machine) : Prop where
  stored : ∀ me call serialized, (call, .stored serialized) ∈ (machine.replica me).calls.workers →
    (machine.redis.future call.futureId).result.isSome
  failed : ∀ futureId,
    machine.FailedByDrain futureId → (machine.redis.future futureId).failed = some true

variable {config : Address → Config} {machine next : Machine} {me : Address}
  {action : Process.Action}

theorem step_eq_some (hstep : machine.step config (me, action) = some next) :
    (machine.process me).step me (config me) action = some (next.process me) ∧
      ∀ other, other ≠ me → next.replica other = machine.replica other := by
  obtain ⟨after, hafter, rfl⟩ := Option.map_eq_some_iff.mp hstep
  refine ⟨?_, fun other hne => Function.update_of_ne hne _ _⟩
  simpa [process] using hafter

/-! ### One step -/

/-- A call is newly failed by the drain only when the step marks it. -/
theorem failedByDrain_step (hstep : machine.step config (me, action) = some next)
    {futureId : FutureId} (hfailed : next.FailedByDrain futureId) :
    machine.FailedByDrain futureId ∨ (next.redis.future futureId).failed = some true := by
  obtain ⟨hown, hothers⟩ := step_eq_some hstep
  obtain ⟨replica, hcut, hmarked⟩ := hfailed
  by_cases hme : replica = me
  · subst hme
    rcases Process.step_drain_cases hown with ⟨hcutOff, htoFail⟩ |
      ⟨unfinished, hold, hpass, hcutOff⟩ | ⟨call, rest, hpass, hnext, hcutOff, -, hwritten⟩
    · simp only [process] at hcutOff htoFail
      exact Or.inl ⟨replica, hcutOff ▸ hcut, htoFail ▸ hmarked⟩
    · simp only [process] at hold hpass hcutOff
      rw [hpass] at hmarked
      rw [hcutOff, List.mem_append] at hcut
      refine Or.inl ⟨replica, hcut.resolve_left hmarked, ?_⟩
      simp [hold, Pass.toFail]
    · simp only [process] at hpass hnext hcutOff hwritten
      by_cases hcall : futureId = call.futureId
      · exact Or.inr (hcall ▸ hwritten)
      · refine Or.inl ⟨replica, hcutOff ▸ hcut, ?_⟩
        rw [hnext] at hmarked
        simpa [hpass, Pass.toFail, hcall] using hmarked
  · rw [hothers replica hme] at hcut hmarked
    exact Or.inl ⟨replica, hcut, hmarked⟩

/-- Nothing deletes a result. -/
theorem result_isSome_step (hstep : machine.step config (me, action) = some next)
    {futureId : FutureId} (hresult : (machine.redis.future futureId).result.isSome) :
    (next.redis.future futureId).result.isSome :=
  (Process.step_effect (step_eq_some hstep).1).recorded.result_isSome hresult

theorem stored_step (hinv : machine.Inv) (hstep : machine.step config (me, action) = some next)
    {replica : Address} {call : Request} {serialized : String}
    (hworker : (call, .stored serialized) ∈ (next.replica replica).calls.workers) :
    (next.redis.future call.futureId).result.isSome := by
  obtain ⟨hown, hothers⟩ := step_eq_some hstep
  by_cases hme : replica = me
  · subst hme
    rcases Process.mem_workers_of_step hown hworker with hold | hnew |
      ⟨stage, work, done, -, -, hwork, hfuture⟩
    · exact result_isSome_step hstep (hinv.stored replica call serialized hold)
    · cases hnew
    · change next.redis.future = done.redis.future at hfuture
      rw [hfuture, Process.workStep_stored hwork]
      rfl
  · rw [hothers replica hme] at hworker
    exact result_isSome_step hstep (hinv.stored replica call serialized hworker)

theorem inv_step (hinv : machine.Inv) (hstep : machine.step config (me, action) = some next)
    (hkeeps : KeepsOutcomes machine next) : next.Inv where
  stored _ _ _ hworker := stored_step hinv hstep hworker
  failed := hkeeps.failed

/-- One write keeps every outcome when, on the record it goes to, it leaves an ended call ended and
a call failed by the drain failed. -/
theorem keepsOutcomes_of_hset (hinv : machine.Inv)
    (hstep : machine.step config (me, action) = some next) {written : FutureId} {fields : Record}
    (hfuture : next.redis.future = (machine.redis.hset written fields).future)
    (hterminal : (machine.redis.future written).Terminal →
      ((machine.redis.future written).hsetMultiple fields).Terminal)
    (hfailed : machine.FailedByDrain written → fields.failed ≠ some false) :
    KeepsOutcomes machine next := by
  refine ⟨fun futureId hbefore => ?_, fun futureId hafter => ?_⟩
  · rw [hfuture]
    by_cases heq : futureId = written
    · subst heq
      simpa using hterminal hbefore
    · rwa [Redis.hset_future_of_ne heq]
  · rcases failedByDrain_step hstep hafter with hbefore | hmarked
    · rw [hfuture]
      by_cases heq : futureId = written
      · subst heq
        have hrecord := hinv.failed futureId hbefore
        cases hfield : fields.failed with
        | none => simp [hfield, hrecord]
        | some failed =>
            have hne := hfailed hbefore
            cases failed <;> simp_all
      · rw [Redis.hset_future_of_ne heq]
        exact hinv.failed futureId hbefore
    · exact hmarked

theorem keepsOutcomes_of_not_reopens (hinv : machine.Inv)
    (hstep : machine.step config (me, action) = some next)
    (hallowed : ¬ machine.Reopens (me, action)) : KeepsOutcomes machine next := by
  cases (Process.step_effect (step_eq_some hstep).1).recorded with
  | nothing hfuture =>
      change next.redis.future = machine.redis.future at hfuture
      refine ⟨fun futureId hbefore => hfuture ▸ hbefore, fun futureId hafter => ?_⟩
      rcases failedByDrain_step hstep hafter with hbefore | hmarked
      · exact hfuture ▸ hinv.failed futureId hbefore
      · exact hmarked
  | failure futureId fields hfailed _ _ hfuture =>
      refine keepsOutcomes_of_hset hinv hstep hfuture (fun _ => ?_) fun _ => by simp [hfailed]
      exact Record.terminal_hsetMultiple (Or.inl hfailed) _
  | other futureId fields hfailed _ hfuture =>
      refine keepsOutcomes_of_hset hinv hstep hfuture (fun hterminal => ?_) fun _ => by
        simp [hfailed]
      exact hterminal.hsetMultiple (by simp [hfailed])
  | start call hfuture =>
      have hnew : ¬ (((machine.redis.future call.futureId).outcome = some .failed ∧
          (machine.redis.future call.futureId).result = none) ∨
        machine.FailedByDrain call.futureId) := hallowed
      rw [not_or] at hnew
      refine keepsOutcomes_of_hset hinv hstep hfuture (fun hterminal => ?_) fun hfailed =>
        absurd hfailed hnew.2
      cases hresult : (machine.redis.future call.futureId).result with
      | none =>
          refine absurd ⟨?_, hresult⟩ hnew.1
          rcases hterminal with hfailed | hsome
          · exact Record.outcome_of_failed hfailed
          · simp [hresult] at hsome
      | some result =>
          exact Record.terminal_hsetMultiple_of_result (by simp [hresult]) _
  | store call serialized hfuture =>
      exact keepsOutcomes_of_hset hinv hstep hfuture
        (fun hterminal => hterminal.hsetMultiple nofun) fun _ => nofun
  | settle call serialized hworker hfuture =>
      refine keepsOutcomes_of_hset hinv hstep hfuture (fun _ => ?_) fun hfailed =>
        absurd hfailed hallowed
      exact Record.terminal_hsetMultiple_of_result (hinv.stored me call serialized hworker) _
  | arrival message hfuture =>
      refine keepsOutcomes_of_hset hinv hstep hfuture (fun _ => ?_) fun hfailed hreset =>
        hallowed ⟨hreset, hfailed⟩
      exact Record.terminal_hsetMultiple message.terminal _

theorem failedByDrain_of_step_eq (hstep : machine.step config (me, action) = some next)
    (hother : ∀ metrics, action ≠ .metrics metrics) {futureId : FutureId}
    (hfailed : machine.FailedByDrain futureId) : next.FailedByDrain futureId := by
  obtain ⟨hown, hothers⟩ := step_eq_some hstep
  obtain ⟨-, -, hpass, hcutOff⟩ := (Process.step_effect hown).sameDrain hother
  change (next.replica me).pass = (machine.replica me).pass at hpass
  change (next.replica me).cutOff = (machine.replica me).cutOff at hcutOff
  obtain ⟨replica, hcut, hmarked⟩ := hfailed
  refine ⟨replica, ?_⟩
  by_cases hme : replica = me
  · subst hme
    rw [hcutOff, hpass]
    exact ⟨hcut, hmarked⟩
  · rw [hothers replica hme]
    exact ⟨hcut, hmarked⟩

theorem start_future {call : Request}
    (hstep : machine.step config (me, .worker (.work call .dequeued .start)) = some next) :
    next.redis.future = (machine.redis.hset call.futureId (initialFields call)).future := by
  obtain ⟨calls, -, hnext⟩ := Process.move_eq_some.mp (step_eq_some hstep).1
  exact congrArg (·.redis.future) hnext.symm

theorem settle_future {call : Request} {serialized : String}
    (hstep : machine.step config (me, .worker (.work call (.stored serialized) .settle)) =
      some next) :
    next.redis.future = (machine.redis.hset call.futureId { failed := some false }).future := by
  obtain ⟨calls, -, hnext⟩ := Process.move_eq_some.mp (step_eq_some hstep).1
  exact congrArg (·.redis.future) hnext.symm

theorem writeResult_future {message : Process.ResultMessage}
    (hstep : machine.step config (me, .server (.writeResult message)) = some next) :
    next.redis.future = (machine.redis.hset message.futureId message.data).future := by
  cases hstep
  rfl

theorem not_keepsOutcomes_of_reset (hstep : machine.step config (me, action) = some next)
    (hother : ∀ metrics, action ≠ .metrics metrics) {futureId : FutureId} {fields : Record}
    (hfuture : next.redis.future = (machine.redis.hset futureId fields).future)
    (hreset : fields.failed = some false) (hfailed : machine.FailedByDrain futureId) :
    ¬ KeepsOutcomes machine next := by
  intro hkeeps
  have hrecord := hkeeps.failed futureId (failedByDrain_of_step_eq hstep hother hfailed)
  rw [hfuture, Redis.hset_future_self] at hrecord
  simp [hreset] at hrecord

theorem not_keepsOutcomes_of_reopens (hstep : machine.step config (me, action) = some next)
    (hreopens : machine.Reopens (me, action)) : ¬ KeepsOutcomes machine next := by
  unfold Reopens at hreopens
  split at hreopens
  case h_1 call heq =>
    cases heq
    rcases hreopens with ⟨houtcome, hresult⟩ | hfailed
    · intro hkeeps
      have hterminal := hkeeps.terminal call.futureId (Record.terminal_of_outcome houtcome)
      rw [start_future hstep, Redis.hset_future_self] at hterminal
      simp [Record.Terminal, initialFields, hresult] at hterminal
    · exact not_keepsOutcomes_of_reset hstep nofun (start_future hstep) rfl hfailed
  case h_2 call serialized heq =>
    cases heq
    exact not_keepsOutcomes_of_reset hstep nofun (settle_future hstep) rfl hreopens
  case h_3 message heq =>
    cases heq
    exact not_keepsOutcomes_of_reset hstep nofun (writeResult_future hstep) hreopens.1 hreopens.2
  case h_4 => exact hreopens.elim

/-! ### Whole runs -/

theorem inv_init : Inv {} where
  stored _ _ _ hworker := by cases hworker
  failed futureId hfailed := by
    obtain ⟨me, hcut, -⟩ := hfailed
    cases hcut

/-- Along a run every outcome is final exactly when no step of the run reopens one. -/
theorem outcomes_final_iff (config : Address → Config)
    (actions : List (Address × Process.Action)) :
    (system config).Along (fun before _ after => KeepsOutcomes before after) {} actions ↔
      (system config).Guarded (fun before action => ¬ before.Reopens action) {} actions := by
  refine (system config).along_iff_of_invariant Inv ?_ ?_ actions inv_init
  · rintro machine ⟨me, action⟩ next hinv hstep
    exact ⟨fun hkeeps hreopens => not_keepsOutcomes_of_reopens hstep hreopens hkeeps,
      keepsOutcomes_of_not_reopens hinv hstep⟩
  · rintro machine ⟨me, action⟩ next hinv hstep hkeeps
    exact inv_step hinv hstep hkeeps

/-- A call from another controller, and a drain that ends while it waits for a worker. -/
def waitingCall : Request :=
  { futureId := "f"
    service := "Agent"
    function := "work"
    requestId := some "r"
    parent := some "p"
    origin := some "origin:1"
    routeTo := some "a:1" }

def cutOffWhileWaiting : List (Address × Process.Action) :=
  [.server (.execute waitingCall none 0), .server (.put waitingCall), .loop .take,
    .loop (.process .local), .loop .register, .loop .taskDone, .metrics (.drain 10),
    .metrics (.tick 0), .metrics .failUnfinished, .metrics .cutOff, .metrics .failLeftover,
    .worker .dequeue].map ("a:1", ·)

/-- The worker that takes the call next writes `failed` 0 over the failure its caller already has:
the call is open again, with no result. -/
theorem start_reopens_failed_call :
    ∃ before after : Machine,
      (system fun _ => {}).run {} cutOffWhileWaiting = some before ∧
        before.step (fun _ => {}) ("a:1", .worker (.work waitingCall .dequeued .start)) =
          some after ∧
        (before.redis.future "f").Terminal ∧ before.FailedByDrain "f" ∧
        ("origin:1", some Outcome.failed) ∈
          (before.replica "a:1").sent.map (fun message => (message.1, message.2.outcome)) ∧
        ¬ (after.redis.future "f").Terminal ∧ (after.redis.future "f").failed = some false :=
  ⟨_, _, rfl, rfl, by decide, ⟨"a:1", by decide⟩, by decide, by decide, by decide⟩

end Machine

end CanyonOS
