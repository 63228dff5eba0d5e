import CanyonOS.Lib.TransitionSystem
import CanyonOS.Record
import Mathlib.Data.List.Nodup
import Mathlib.Logic.Function.Basic

/-!
# Waiting for a result

Any number of threads of one process wait for one future, each with an `Event` of its own, while
local controllers write the record and wake them. A step is one read of Redis, one operation on an
event, or one stretch of code under the lock of `_result_waiters`.
-/

namespace CanyonOS.Waiting

abbrev WaiterId := ℕ
abbrev NotifierId := ℕ

/-- How `wait_for_result` is left. -/
inductive Leave where
  | returned (result : String)
  /-- `AgentCallError` -/
  | failed (error : String)
  /-- `TimeoutError` -/
  | timedOut
  /-- a read of Redis raised -/
  | broken
deriving DecidableEq

/-- What a call of `wait_for_result` does next. -/
inductive Stage where
  | outside
  /-- at the top of the loop, before `error` is read -/
  | reading
  /-- `error` was empty, `failed` is read next -/
  | errorRead
  /-- `failed` was 1, `error` is read again -/
  | rereading
  /-- `result` is read next -/
  | failedRead
  /-- there was no result -/
  | checked
  /-- in `arrived.wait` -/
  | waiting
  /-- `arrived.wait` returned true, and the event is cleared next -/
  | woken
  /-- in the `finally` block -/
  | leaving (leave : Leave)
  | left (leave : Leave)
  /-- `_result_waiters` had no entry for the future any more -/
  | keyError
deriving DecidableEq

structure Waiter where
  stage : Stage := .outside
  arrived : Bool := false
  /-- it was given a `timeout` -/
  timed : Bool := false

/-- A call of `notify_result`: the events it copied are set one by one. -/
inductive Notifier where
  | toNotify
  | notifying (waiters : List WaiterId)
  | notified
deriving DecidableEq

def Notifier.pending : Notifier → List WaiterId
  | .notifying waiters => waiters
  | _ => []

structure State where
  record : Record
  waiters : WaiterId → Waiter := fun _ => {}
  /-- `_result_waiters.get(future_id)` -/
  entry : Option (List WaiterId) := none
  notifiers : NotifierId → Notifier := fun _ => .toNotify

inductive Action where
  | register (waiter : WaiterId) (timed : Bool)
  | read (waiter : WaiterId)
  /-- its own `timeout` has run out -/
  | expire (waiter : WaiterId)
  | block (waiter : WaiterId)
  | wake (waiter : WaiterId)
  /-- `arrived.wait` returned false, after `RESULT_RECHECK_SECONDS` at the latest -/
  | recheck (waiter : WaiterId)
  | clear (waiter : WaiterId)
  | breakOff (waiter : WaiterId)
  | unregister (waiter : WaiterId)
  /-- someone sets fields of the record -/
  | write (fields : Record)
  | notify (notifier : NotifierId)
  | set (notifier : NotifierId)

/-- The text of the record's `error`, empty when the field is unset. -/
def errorText (record : Record) : String :=
  record.error.getD ""

/-- The stage after the read of a stage that has one. -/
def readStage (record : Record) : Stage → Option Stage
  | .reading =>
      some (if errorText record = "" then .errorRead else .leaving (.failed (errorText record)))
  | .errorRead => some (if record.failed = some true then .rereading else .failedRead)
  | .rereading =>
      some (.leaving (.failed
        (if errorText record = "" then "Unknown error" else errorText record)))
  | .failedRead =>
      match record.result with
      | some result => some (.leaving (.returned result))
      | none => some .checked
  | _ => none

namespace State

def setWaiter (state : State) (waiter : WaiterId) (value : Waiter) : State :=
  { state with waiters := Function.update state.waiters waiter value }

def moveTo (state : State) (waiter : WaiterId) (stage : Stage) : State :=
  state.setWaiter waiter { state.waiters waiter with stage }

/-- `Event.set` -/
def wakeUp (state : State) (waiter : WaiterId) : State :=
  state.setWaiter waiter { state.waiters waiter with arrived := true }

/-- `discard`, and the entry with its last waiter. -/
def discard (waiters : List WaiterId) (waiter : WaiterId) : Option (List WaiterId) :=
  match waiters.erase waiter with
  | [] => none
  | rest => some rest

def step (state : State) : Action → Option State
  | .register waiter timed =>
      match (state.waiters waiter).stage with
      | .outside =>
          some { state.setWaiter waiter { stage := .reading, timed } with
            entry := some ((state.entry.getD []).insert waiter) }
      | _ => none
  | .read waiter =>
      (readStage state.record (state.waiters waiter).stage).map (state.moveTo waiter)
  | .expire waiter =>
      if (state.waiters waiter).stage = .checked ∧ (state.waiters waiter).timed = true then
        some (state.moveTo waiter (.leaving .timedOut))
      else none
  | .block waiter =>
      if (state.waiters waiter).stage = .checked then some (state.moveTo waiter .waiting) else none
  | .wake waiter =>
      if (state.waiters waiter).stage = .waiting ∧ (state.waiters waiter).arrived = true then
        some (state.moveTo waiter .woken)
      else none
  | .recheck waiter =>
      if (state.waiters waiter).stage = .waiting then some (state.moveTo waiter .reading) else none
  | .clear waiter =>
      if (state.waiters waiter).stage = .woken then
        some (state.setWaiter waiter
          { state.waiters waiter with stage := .reading, arrived := false })
      else none
  | .breakOff waiter =>
      if (readStage state.record (state.waiters waiter).stage).isSome then
        some (state.moveTo waiter (.leaving .broken))
      else none
  | .unregister waiter =>
      match (state.waiters waiter).stage, state.entry with
      | .leaving leave, some waiters =>
          some { state.moveTo waiter (.left leave) with entry := discard waiters waiter }
      | .leaving _, none => some (state.moveTo waiter .keyError)
      | _, _ => none
  | .write fields => some { state with record := state.record.hsetMultiple fields }
  | .notify notifier =>
      match state.notifiers notifier with
      | .toNotify =>
          some { state with
            notifiers := Function.update state.notifiers notifier
              (.notifying (state.entry.getD [])) }
      | _ => none
  | .set notifier =>
      match state.notifiers notifier with
      | .notifying (waiter :: rest) =>
          some { state.wakeUp waiter with
            notifiers := Function.update state.notifiers notifier (.notifying rest) }
      | .notifying [] =>
          some { state with
            notifiers := Function.update state.notifiers notifier .notified }
      | _ => none

end State

def system : TransitionSystem State Action where
  step := State.step

/-! ### What is claimed -/

/-- The stages of the loop. -/
def Stage.InLoop : Stage → Prop
  | .reading | .errorRead | .rereading | .failedRead | .checked | .waiting | .woken => True
  | .outside | .leaving _ | .left _ | .keyError => False

/-- The waiter whose step an action is. -/
def Action.waiter? : Action → Option WaiterId
  | .register waiter _ | .read waiter | .expire waiter | .block waiter | .wake waiter
  | .recheck waiter | .clear waiter | .breakOff waiter | .unregister waiter => some waiter
  | .write _ | .notify _ | .set _ => none

/-- An outcome that is recorded stays recorded. -/
def KeepsOutcome (state : State) : Action → Prop
  | .write fields => (state.record.hsetMultiple fields).Terminal
  | _ => True

/-- A recorded failure stays. -/
def KeepsFailure (state : State) : Action → Prop
  | .write fields => (state.record.hsetMultiple fields).failed = some true
  | _ => True

/-- No wait runs to `RESULT_RECHECK_SECONDS`, and Redis answers. -/
def Undisturbed (state : State) (action : Action) : Prop :=
  KeepsOutcome state action ∧ ∀ waiter, action ≠ .recheck waiter ∧ action ≠ .breakOff waiter

/-- A wait ends with the call's outcome, or because its own timeout ran out. -/
def Leave.Answers (timed : Bool) : Leave → Prop
  | .returned _ | .failed _ => True
  | .timedOut => timed = true
  | .broken => False

/-- Without a further timeout the waiter takes at most eight steps of its own, and until it has left
with the outcome one of them is enabled. -/
def Prompt (told : State) (waiter : WaiterId) : Prop :=
  ∀ more later, system.Guarded Undisturbed told more → system.run told more = some later →
    more.countP (·.waiter? = some waiter) ≤ 8 ∧
      ((∃ leave, (later.waiters waiter).stage = .left leave ∧
          leave.Answers (later.waiters waiter).timed) ∨
        ∃ action, action.waiter? = some waiter ∧ Undisturbed later action ∧
          (later.step action).isSome)

/-- Once a notify has returned that began after the outcome was written, every waiter in the loop
leaves promptly. -/
def NoLostWakeup : Prop :=
  ∀ record before written notifier after told waiter,
    system.run { record } before = some written → written.record.Terminal →
      system.Guarded KeepsOutcome written (.notify notifier :: after) →
        system.run written (.notify notifier :: after) = some told →
          told.notifiers notifier = .notified → (told.waiters waiter).stage.InLoop →
            Prompt told waiter

/-- A wait that began with the failure recorded does not return a result. -/
def NoStaleResult : Prop :=
  ∀ record before failed waiter timed after final result,
    system.run { record } before = some failed → failed.record.failed = some true →
      system.Guarded KeepsFailure failed (.register waiter timed :: after) →
        system.run failed (.register waiter timed :: after) = some final →
          (final.waiters waiter).stage ≠ .leaving (.returned result) ∧
            (final.waiters waiter).stage ≠ .left (.returned result)

/-- A thread is in `wait_for_result`. -/
def Stage.Inside : Stage → Prop
  | .outside | .left _ | .keyError => False
  | _ => True

/-- The entry is there while someone waits, and goes with the last. -/
def NoEntryLeft : Prop :=
  ∀ record actions final, system.run { record } actions = some final →
    ((∀ waiter, ¬ (final.waiters waiter).stage.Inside) → final.entry = none) ∧
      ∀ waiter, (final.waiters waiter).stage ≠ .keyError

/-! ### One step -/

variable {state next : State} {action : Action} {waiter : WaiterId}

namespace State

@[simp]
theorem moveTo_self (state : State) (waiter : WaiterId) (stage : Stage) :
    (state.moveTo waiter stage).waiters waiter = { state.waiters waiter with stage } :=
  Function.update_self ..

@[simp]
theorem setWaiter_self (state : State) (waiter : WaiterId) (value : Waiter) :
    (state.setWaiter waiter value).waiters waiter = value :=
  Function.update_self ..

theorem moveTo_of_ne {other : WaiterId} (hne : other ≠ waiter) (stage : Stage) :
    (state.moveTo waiter stage).waiters other = state.waiters other :=
  Function.update_of_ne hne ..

theorem setWaiter_of_ne {other : WaiterId} (hne : other ≠ waiter) (value : Waiter) :
    (state.setWaiter waiter value).waiters other = state.waiters other :=
  Function.update_of_ne hne ..

@[simp]
theorem moveTo_record (stage : Stage) : (state.moveTo waiter stage).record = state.record := rfl

@[simp]
theorem moveTo_entry (stage : Stage) : (state.moveTo waiter stage).entry = state.entry := rfl

@[simp]
theorem moveTo_notifiers (stage : Stage) :
    (state.moveTo waiter stage).notifiers = state.notifiers := rfl

@[simp]
theorem setWaiter_record (value : Waiter) :
    (state.setWaiter waiter value).record = state.record := rfl

@[simp]
theorem setWaiter_entry (value : Waiter) :
    (state.setWaiter waiter value).entry = state.entry := rfl

@[simp]
theorem setWaiter_notifiers (value : Waiter) :
    (state.setWaiter waiter value).notifiers = state.notifiers := rfl

theorem wakeUp_waiters (other : WaiterId) :
    (state.wakeUp waiter).waiters other =
      { state.waiters other with
        arrived := (state.waiters other).arrived || decide (other = waiter) } := by
  by_cases heq : other = waiter
  · subst heq
    simp [wakeUp]
  · simp [wakeUp, setWaiter_of_ne heq, heq]

theorem wakeUp_stage (other : WaiterId) :
    ((state.wakeUp waiter).waiters other).stage = (state.waiters other).stage := by
  rw [wakeUp_waiters]

theorem wakeUp_timed (other : WaiterId) :
    ((state.wakeUp waiter).waiters other).timed = (state.waiters other).timed := by
  rw [wakeUp_waiters]

theorem wakeUp_arrived {other : WaiterId} (harrived : (state.waiters other).arrived = true) :
    ((state.wakeUp waiter).waiters other).arrived = true := by
  rw [wakeUp_waiters]
  simp [harrived]

end State

/-- What a step that is the waiter's own can do to it. -/
inductive Moves (state next : State) (waiter : WaiterId) : Action → Prop
  | register (timed : Bool) (hstage : (state.waiters waiter).stage = .outside)
      (hnext : next.waiters waiter = { stage := .reading, timed })
      (hentry : next.entry = some ((state.entry.getD []).insert waiter)) :
      Moves state next waiter (.register waiter timed)
  | read (stage : Stage)
      (hstage : readStage state.record (state.waiters waiter).stage = some stage)
      (hnext : next.waiters waiter = { state.waiters waiter with stage })
      (hentry : next.entry = state.entry) : Moves state next waiter (.read waiter)
  | expire (hstage : (state.waiters waiter).stage = .checked)
      (htimed : (state.waiters waiter).timed = true)
      (hnext : next.waiters waiter = { state.waiters waiter with stage := .leaving .timedOut })
      (hentry : next.entry = state.entry) : Moves state next waiter (.expire waiter)
  | block (hstage : (state.waiters waiter).stage = .checked)
      (hnext : next.waiters waiter = { state.waiters waiter with stage := .waiting })
      (hentry : next.entry = state.entry) : Moves state next waiter (.block waiter)
  | wake (hstage : (state.waiters waiter).stage = .waiting)
      (hnext : next.waiters waiter = { state.waiters waiter with stage := .woken })
      (hentry : next.entry = state.entry) : Moves state next waiter (.wake waiter)
  | recheck (hstage : (state.waiters waiter).stage = .waiting)
      (hnext : next.waiters waiter = { state.waiters waiter with stage := .reading })
      (hentry : next.entry = state.entry) : Moves state next waiter (.recheck waiter)
  | clear (hstage : (state.waiters waiter).stage = .woken)
      (hnext : next.waiters waiter =
        { state.waiters waiter with stage := .reading, arrived := false })
      (hentry : next.entry = state.entry) : Moves state next waiter (.clear waiter)
  | breakOff (hstage : (readStage state.record (state.waiters waiter).stage).isSome)
      (hnext : next.waiters waiter = { state.waiters waiter with stage := .leaving .broken })
      (hentry : next.entry = state.entry) : Moves state next waiter (.breakOff waiter)
  | unregister (leave : Leave) (hstage : (state.waiters waiter).stage = .leaving leave)
      (waiters : List WaiterId) (hwaiters : state.entry = some waiters)
      (hnext : next.waiters waiter = { state.waiters waiter with stage := .left leave })
      (hentry : next.entry = State.discard waiters waiter) :
      Moves state next waiter (.unregister waiter)
  | missing (leave : Leave) (hstage : (state.waiters waiter).stage = .leaving leave)
      (hwaiters : state.entry = none)
      (hnext : next.waiters waiter = { state.waiters waiter with stage := .keyError })
      (hentry : next.entry = none) : Moves state next waiter (.unregister waiter)

/-- What a step can do: a waiter's own step leaves the record, the notifiers and the other waiters
as they are. -/
theorem moves_of_step (hown : action.waiter? = some waiter)
    (hstep : state.step action = some next) :
    Moves state next waiter action ∧ next.record = state.record ∧
      next.notifiers = state.notifiers ∧
      ∀ other, other ≠ waiter → next.waiters other = state.waiters other := by
  cases action with
  | register own timed =>
      obtain rfl := Option.some.inj hown
      simp only [State.step] at hstep
      split at hstep <;> cases hstep
      rename_i hstage
      refine ⟨.register timed hstage ?_ rfl, rfl, rfl, fun other hne => ?_⟩
      · exact State.setWaiter_self ..
      · exact State.setWaiter_of_ne hne _
  | read own =>
      obtain rfl := Option.some.inj hown
      obtain ⟨stage, hstage, rfl⟩ := Option.map_eq_some_iff.mp hstep
      exact ⟨.read stage hstage (by simp) rfl, rfl, rfl,
        fun other hne => State.moveTo_of_ne hne _⟩
  | expire own =>
      obtain rfl := Option.some.inj hown
      simp only [State.step] at hstep
      split_ifs at hstep with hready
      cases hstep
      exact ⟨.expire hready.1 hready.2 (by simp) rfl, rfl, rfl,
        fun other hne => State.moveTo_of_ne hne _⟩
  | block own =>
      obtain rfl := Option.some.inj hown
      simp only [State.step] at hstep
      split_ifs at hstep with hready
      cases hstep
      exact ⟨.block hready (by simp) rfl, rfl, rfl, fun other hne => State.moveTo_of_ne hne _⟩
  | wake own =>
      obtain rfl := Option.some.inj hown
      simp only [State.step] at hstep
      split_ifs at hstep with hready
      cases hstep
      exact ⟨.wake hready.1 (by simp) rfl, rfl, rfl, fun other hne => State.moveTo_of_ne hne _⟩
  | recheck own =>
      obtain rfl := Option.some.inj hown
      simp only [State.step] at hstep
      split_ifs at hstep with hready
      cases hstep
      exact ⟨.recheck hready (by simp) rfl, rfl, rfl, fun other hne => State.moveTo_of_ne hne _⟩
  | clear own =>
      obtain rfl := Option.some.inj hown
      simp only [State.step] at hstep
      split_ifs at hstep with hready
      cases hstep
      exact ⟨.clear hready (by simp) rfl, rfl, rfl, fun other hne => State.setWaiter_of_ne hne _⟩
  | breakOff own =>
      obtain rfl := Option.some.inj hown
      simp only [State.step] at hstep
      split_ifs at hstep with hready
      cases hstep
      exact ⟨.breakOff hready (by simp) rfl, rfl, rfl, fun other hne => State.moveTo_of_ne hne _⟩
  | unregister own =>
      obtain rfl := Option.some.inj hown
      simp only [State.step] at hstep
      split at hstep
      case h_1 leave waiters hstage hwaiters =>
        cases hstep
        refine ⟨.unregister leave hstage waiters hwaiters ?_ rfl, rfl, rfl, fun other hne => ?_⟩
        · exact State.moveTo_self ..
        · exact State.moveTo_of_ne hne _
      case h_2 leave hstage hwaiters =>
        cases hstep
        refine ⟨.missing leave hstage hwaiters ?_ hwaiters, rfl, rfl, fun other hne => ?_⟩
        · exact State.moveTo_self ..
        · exact State.moveTo_of_ne hne _
      case h_3 => cases hstep
  | write | notify | set => cases hown

/-- What the other steps do: they only write the record, or wake. -/
structure Wakes (state next : State) (action : Action) : Prop where
  stage : ∀ waiter, (next.waiters waiter).stage = (state.waiters waiter).stage
  timed : ∀ waiter, (next.waiters waiter).timed = (state.waiters waiter).timed
  entry : next.entry = state.entry
  arrived : ∀ waiter, (state.waiters waiter).arrived = true →
    (next.waiters waiter).arrived = true
  record : ∀ fields, action = .write fields → next.record = state.record.hsetMultiple fields
  same : (∀ fields, action ≠ .write fields) → next.record = state.record

theorem wakes_of_step (hother : action.waiter? = none) (hstep : state.step action = some next) :
    Wakes state next action := by
  cases action with
  | write fields =>
      cases hstep
      refine ⟨fun _ => rfl, fun _ => rfl, rfl, fun _ harrived => harrived, ?_, ?_⟩
      · intro fields' heq
        cases heq
        rfl
      · exact fun hnot => absurd rfl (hnot fields)
  | notify notifier =>
      simp only [State.step] at hstep
      split at hstep <;> cases hstep
      refine ⟨fun _ => rfl, fun _ => rfl, rfl, fun _ harrived => harrived, ?_, fun _ => rfl⟩
      intro fields heq
      cases heq
  | set notifier =>
      simp only [State.step] at hstep
      split at hstep
      case h_1 woken rest hnotifier =>
        cases hstep
        refine ⟨fun other => ?_, fun other => ?_, rfl, fun other harrived => ?_, ?_, fun _ => rfl⟩
        · exact State.wakeUp_stage other
        · exact State.wakeUp_timed other
        · exact State.wakeUp_arrived harrived
        · intro fields heq
          cases heq
      case h_2 =>
        cases hstep
        refine ⟨fun _ => rfl, fun _ => rfl, rfl, fun _ harrived => harrived, ?_, fun _ => rfl⟩
        intro fields heq
        cases heq
      case h_3 => cases hstep
  | register | read | expire | block | wake | recheck | clear | breakOff | unregister =>
      cases hother

theorem waiter?_cases (action : Action) (waiter : WaiterId) :
    action.waiter? = some waiter ∨ (∃ other, action.waiter? = some other ∧ waiter ≠ other) ∨
      action.waiter? = none := by
  cases hown : action.waiter? with
  | none => exact .inr (.inr rfl)
  | some other =>
      by_cases heq : waiter = other
      · exact .inl (by rw [heq])
      · exact .inr (.inl ⟨other, rfl, heq⟩)

/-- A waiter changes only by its own steps, apart from being woken. -/
theorem kept_of_step (hstep : state.step action = some next)
    (hother : action.waiter? ≠ some waiter) :
    (next.waiters waiter).stage = (state.waiters waiter).stage ∧
      (next.waiters waiter).timed = (state.waiters waiter).timed ∧
      ((state.waiters waiter).arrived = true → (next.waiters waiter).arrived = true) := by
  rcases waiter?_cases action waiter with hown | ⟨other, hown, hne⟩ | hnone
  · exact absurd hown hother
  · obtain ⟨-, -, -, hothers⟩ := moves_of_step hown hstep
    rw [hothers waiter hne]
    exact ⟨rfl, rfl, fun harrived => harrived⟩
  · have hwakes := wakes_of_step hnone hstep
    exact ⟨hwakes.stage waiter, hwakes.timed waiter, hwakes.arrived waiter⟩

/-! ### The entry of `_result_waiters` -/

/-- The entry holds exactly the events of those in `wait_for_result`, and is never empty. -/
structure Entered (state : State) : Prop where
  inside : ∀ waiter, (state.waiters waiter).stage.Inside ↔ waiter ∈ state.entry.getD []
  nonempty : state.entry ≠ some []
  nodup : (state.entry.getD []).Nodup
  found : ∀ waiter, (state.waiters waiter).stage ≠ .keyError

theorem inside_of_readStage {record : Record} {stage reached : Stage}
    (hread : readStage record stage = some reached) : stage.Inside ∧ reached.Inside := by
  cases stage with
  | reading | errorRead =>
      simp only [readStage, Option.some.injEq] at hread
      split_ifs at hread <;> subst hread <;> exact ⟨trivial, trivial⟩
  | rereading =>
      cases hread
      exact ⟨trivial, trivial⟩
  | failedRead =>
      simp only [readStage] at hread
      split at hread <;> cases hread <;> exact ⟨trivial, trivial⟩
  | outside | checked | waiting | woken | leaving | left | keyError => cases hread

theorem discard_getD (waiters : List WaiterId) (waiter : WaiterId) :
    (State.discard waiters waiter).getD [] = waiters.erase waiter ∧
      State.discard waiters waiter ≠ some [] := by
  unfold State.discard
  split
  case h_1 hempty => exact ⟨hempty.symm, nofun⟩
  case h_2 rest hrest =>
    refine ⟨rfl, fun heq => ?_⟩
    exact hrest (Option.some.inj heq)

/-- A step within `wait_for_result` keeps the entry right. -/
theorem Entered.of_within (hentered : Entered state) (hentry : next.entry = state.entry)
    (hothers : ∀ other, other ≠ waiter → next.waiters other = state.waiters other)
    (hbefore : (state.waiters waiter).stage.Inside)
    (hafter : (next.waiters waiter).stage.Inside) : Entered next where
  inside other := by
    rw [hentry]
    by_cases heq : other = waiter
    · subst heq
      exact iff_of_true hafter ((hentered.inside other).mp hbefore)
    · rw [hothers other heq]
      exact hentered.inside other
  nonempty := hentry ▸ hentered.nonempty
  nodup := hentry ▸ hentered.nodup
  found other := by
    by_cases heq : other = waiter
    · subst heq
      intro hleft
      rw [hleft] at hafter
      exact hafter
    · rw [hothers other heq]
      exact hentered.found other

theorem Entered.of_register (hentered : Entered state)
    (hothers : ∀ other, other ≠ waiter → next.waiters other = state.waiters other)
    (hnext : (next.waiters waiter).stage = .reading)
    (hentry : next.entry = some ((state.entry.getD []).insert waiter)) : Entered next where
  inside other := by
    rw [hentry, Option.getD_some, List.mem_insert_iff]
    by_cases heq : other = waiter
    · subst heq
      rw [hnext]
      exact iff_of_true trivial (.inl rfl)
    · rw [hothers other heq, hentered.inside other]
      exact ⟨.inr, fun hmem => hmem.resolve_left heq⟩
  nonempty := by
    rw [hentry]
    intro heq
    have hmem : waiter ∈ (state.entry.getD []).insert waiter := List.mem_insert_self
    rw [Option.some.inj heq] at hmem
    cases hmem
  nodup := by
    rw [hentry]
    exact List.Nodup.insert hentered.nodup
  found other := by
    by_cases heq : other = waiter
    · subst heq
      rw [hnext]
      nofun
    · rw [hothers other heq]
      exact hentered.found other

theorem Entered.of_unregister (hentered : Entered state) {leave : Leave} {waiters : List WaiterId}
    (hwaiters : state.entry = some waiters)
    (hothers : ∀ other, other ≠ waiter → next.waiters other = state.waiters other)
    (hnext : (next.waiters waiter).stage = .left leave)
    (hentry : next.entry = State.discard waiters waiter) : Entered next where
  inside other := by
    have hnodup : waiters.Nodup := by simpa [hwaiters] using hentered.nodup
    have hinside := hentered.inside other
    rw [hwaiters, Option.getD_some] at hinside
    rw [hentry, (discard_getD waiters waiter).1, hnodup.mem_erase_iff]
    by_cases heq : other = waiter
    · subst heq
      rw [hnext]
      exact iff_of_false id (fun hmem => hmem.1 rfl)
    · rw [hothers other heq, hinside]
      exact ⟨fun hmem => ⟨heq, hmem⟩, And.right⟩
  nonempty := hentry ▸ (discard_getD waiters waiter).2
  nodup := by
    have hnodup := hentered.nodup
    rw [hwaiters] at hnodup
    rw [hentry, (discard_getD waiters waiter).1]
    exact hnodup.erase waiter
  found other := by
    by_cases heq : other = waiter
    · subst heq
      rw [hnext]
      nofun
    · rw [hothers other heq]
      exact hentered.found other

theorem Entered.step (hentered : Entered state) (hstep : state.step action = some next) :
    Entered next := by
  cases hown : action.waiter? with
  | none =>
      have hwakes := wakes_of_step hown hstep
      refine ⟨fun waiter => ?_, ?_, ?_, fun waiter => ?_⟩
      · rw [hwakes.stage, hwakes.entry]
        exact hentered.inside waiter
      · exact hwakes.entry ▸ hentered.nonempty
      · exact hwakes.entry ▸ hentered.nodup
      · rw [hwakes.stage]
        exact hentered.found waiter
  | some waiter =>
      obtain ⟨hmoves, -, -, hothers⟩ := moves_of_step hown hstep
      cases hmoves with
      | register timed hstage hnext hentry =>
          exact hentered.of_register hothers (by rw [hnext]) hentry
      | read stage hstage hnext hentry =>
          obtain ⟨hbefore, hafter⟩ := inside_of_readStage hstage
          exact hentered.of_within hentry hothers hbefore (by rwa [hnext])
      | expire hstage _ hnext hentry | block hstage hnext hentry | wake hstage hnext hentry
      | recheck hstage hnext hentry | clear hstage hnext hentry =>
          refine hentered.of_within hentry hothers ?_ ?_
          · rw [hstage]
            trivial
          · rw [hnext]
            trivial
      | breakOff hstage hnext hentry =>
          obtain ⟨reached, hread⟩ := Option.isSome_iff_exists.mp hstage
          refine hentered.of_within hentry hothers (inside_of_readStage hread).1 ?_
          rw [hnext]
          trivial
      | unregister leave hstage waiters hwaiters hnext hentry =>
          exact hentered.of_unregister hwaiters hothers (by rw [hnext]) hentry
      | missing leave hstage hwaiters hnext hentry =>
          -- whoever is leaving is in the entry
          have hinside : waiter ∈ state.entry.getD [] := by
            rw [← hentered.inside waiter, hstage]
            trivial
          rw [hwaiters] at hinside
          cases hinside

theorem entered_of_run {record : Record} {actions : List Action} {final : State}
    (hrun : system.run { record } actions = some final) : Entered final := by
  have hinit : Entered { record } :=
    ⟨fun _ => iff_of_false id (by simp), nofun, .nil, fun _ => nofun⟩
  exact system.invariant_of_run (fun _ _ _ hentered hstep => hentered.step hstep) hinit hrun

theorem no_entry_left : NoEntryLeft := by
  intro record actions final hrun
  have hentered := entered_of_run hrun
  refine ⟨fun hnone => ?_, hentered.found⟩
  cases hentry : final.entry with
  | none => rfl
  | some waiters =>
      cases waiters with
      | nil => exact absurd hentry hentered.nonempty
      | cons waiter rest =>
          exfalso
          apply hnone waiter
          rw [hentered.inside waiter, hentry]
          exact List.mem_cons_self

/-! ### No result over a failure -/

/-- A wait that has not gone past the check of `failed`, or ended otherwise than with a result. -/
def Stage.NoResult : Stage → Prop
  | .reading | .errorRead | .rereading | .leaving (.failed _) | .leaving .timedOut
  | .leaving .broken | .left (.failed _) | .left .timedOut | .left .broken | .keyError => True
  | .outside | .failedRead | .checked | .waiting | .woken | .leaving (.returned _)
  | .left (.returned _) => False

theorem noResult_step (hfailed : state.record.failed = some true)
    (hstage : (state.waiters waiter).stage.NoResult) (hstep : state.step action = some next) :
    (next.waiters waiter).stage.NoResult := by
  by_cases hown : action.waiter? = some waiter
  · obtain ⟨hmoves, -⟩ := moves_of_step hown hstep
    cases hmoves with
    | register _ hbefore | expire hbefore | block hbefore | wake hbefore | recheck hbefore
    | clear hbefore =>
        rw [hbefore] at hstage
        exact hstage.elim
    | read stage hread hnext =>
        rw [hnext]
        cases hbefore : (state.waiters waiter).stage with
        | reading =>
            rw [hbefore] at hread
            simp only [readStage, Option.some.injEq] at hread
            split_ifs at hread <;> subst hread <;> trivial
        | errorRead =>
            rw [hbefore, readStage, if_pos hfailed] at hread
            cases hread
            trivial
        | rereading =>
            rw [hbefore] at hread
            cases hread
            trivial
        | failedRead =>
            rw [hbefore] at hstage
            exact hstage.elim
        | outside | checked | waiting | woken | leaving | left | keyError =>
            rw [hbefore] at hread
            cases hread
    | breakOff _ hnext =>
        rw [hnext]
        trivial
    | unregister leave hbefore _ _ hnext =>
        rw [hbefore] at hstage
        rw [hnext]
        cases leave <;> exact hstage
    | missing _ _ _ hnext =>
        rw [hnext]
        trivial
  · rw [(kept_of_step hstep hown).1]
    exact hstage

theorem record_of_step (hstep : state.step action = some next) :
    next.record = state.record ∨
      ∃ fields, action = .write fields ∧ next.record = state.record.hsetMultiple fields := by
  cases hown : action.waiter? with
  | some waiter => exact .inl (moves_of_step hown hstep).2.1
  | none =>
      have hwakes := wakes_of_step hown hstep
      by_cases hwrite : ∃ fields, action = .write fields
      · obtain ⟨fields, rfl⟩ := hwrite
        exact .inr ⟨fields, rfl, hwakes.record fields rfl⟩
      · exact .inl (hwakes.same fun fields heq => hwrite ⟨fields, heq⟩)

theorem failed_step (hkeeps : KeepsFailure state action) (hstep : state.step action = some next)
    (hfailed : state.record.failed = some true) : next.record.failed = some true := by
  rcases record_of_step hstep with hsame | ⟨fields, rfl, hwritten⟩
  · rwa [hsame]
  · rw [hwritten]
    exact hkeeps

/-- The failure is recorded, and the wait has not gone past it. -/
def FailsOnly (waiter : WaiterId) (state : State) : Prop :=
  state.record.failed = some true ∧ (state.waiters waiter).stage.NoResult

theorem no_stale_result : NoStaleResult := by
  intro record before started waiter timed after final result _ hfailed hguard hrun
  obtain ⟨registered, hregister, hrest⟩ := system.run_cons_eq_some.mp hrun
  obtain ⟨hallowed, hguard⟩ := system.along_cons_iff.mp hguard registered hregister
  have hinit : FailsOnly waiter registered := by
    refine ⟨failed_step hallowed hregister hfailed, ?_⟩
    obtain ⟨hmoves, -⟩ :=
      moves_of_step rfl (show started.step (.register waiter timed) = _ from hregister)
    cases hmoves with
    | register _ _ hnext =>
        rw [hnext]
        trivial
  have hfinal : FailsOnly waiter final := by
    refine system.invariant_run ?_ hinit hguard hrest
    intro state action next hinv hkeeps hstep
    exact ⟨failed_step hkeeps hstep hinv.1, noResult_step hinv.1 hinv.2 hstep⟩
  constructor
  · intro hreturned
    have hstage := hfinal.2
    rw [hreturned] at hstage
    exact hstage
  · intro hreturned
    have hstage := hfinal.2
    rw [hreturned] at hstage
    exact hstage

/-! ### No wakeup is lost -/

/-- The waiter has been woken by the notifier, or will be. -/
def Heard (state : State) (notifier : NotifierId) (waiter : WaiterId) : Prop :=
  (state.waiters waiter).arrived = true ∨ waiter ∈ (state.notifiers notifier).pending

/-- Where a wait read the record before the outcome was in it, it is going to be woken. -/
def Safe (state : State) (notifier : NotifierId) (waiter : WaiterId) : Prop :=
  match (state.waiters waiter).stage with
  | .failedRead => state.record.result.isSome ∨ Heard state notifier waiter
  | .checked | .waiting => Heard state notifier waiter
  | _ => True

/-- The outcome is recorded and the notifier has taken its copy. -/
structure Announced (notifier : NotifierId) (state : State) : Prop where
  recorded : state.record.Terminal
  begun : state.notifiers notifier ≠ .toNotify
  safe : ∀ waiter, Safe state notifier waiter

theorem terminal_step (hkeeps : KeepsOutcome state action)
    (hstep : state.step action = some next) (hrecorded : state.record.Terminal) :
    next.record.Terminal := by
  rcases record_of_step hstep with hsame | ⟨fields, rfl, hwritten⟩
  · rwa [hsame]
  · rw [hwritten]
    exact hkeeps

theorem result_step (hstep : state.step action = some next)
    (hresult : state.record.result.isSome) : next.record.result.isSome := by
  rcases record_of_step hstep with hsame | ⟨fields, -, hwritten⟩
  · rwa [hsame]
  · rw [hwritten]
    cases hfield : fields.result <;> simp [hfield, hresult]

/-- A waiter is taken off the list of a notifier by being woken. -/
theorem pending_step (hother : action.waiter? = none) (hstep : state.step action = some next)
    {notifier : NotifierId} (hbegun : state.notifiers notifier ≠ .toNotify)
    (hpending : waiter ∈ (state.notifiers notifier).pending) : Heard next notifier waiter := by
  cases action with
  | write fields =>
      cases hstep
      exact .inr hpending
  | notify other =>
      simp only [State.step] at hstep
      split at hstep <;> cases hstep
      rename_i hother
      have hne : notifier ≠ other := by
        rintro rfl
        exact hbegun hother
      exact .inr (by simpa [Function.update_of_ne hne] using hpending)
  | set other =>
      by_cases heq : notifier = other
      · subst heq
        simp only [State.step] at hstep
        split at hstep
        case h_1 woken rest hlist =>
          cases hstep
          rw [hlist] at hpending
          rcases List.mem_cons.mp hpending with rfl | hrest
          · left
            change ((state.wakeUp waiter).waiters waiter).arrived = true
            simp [State.wakeUp]
          · exact .inr (by simpa [Notifier.pending] using hrest)
        case h_2 hlist =>
          rw [hlist] at hpending
          cases hpending
        case h_3 => cases hstep
      · simp only [State.step] at hstep
        split at hstep <;> cases hstep <;>
          exact .inr (by simpa [Function.update_of_ne heq] using hpending)
  | register | read | expire | block | wake | recheck | clear | breakOff | unregister =>
      cases hother

theorem begun_step (hstep : state.step action = some next) {notifier : NotifierId}
    (hbegun : state.notifiers notifier ≠ .toNotify) : next.notifiers notifier ≠ .toNotify := by
  cases hown : action.waiter? with
  | some waiter => rwa [(moves_of_step hown hstep).2.2.1]
  | none =>
      cases action with
      | write fields =>
          cases hstep
          exact hbegun
      | notify other | set other =>
          simp only [State.step] at hstep
          split at hstep <;> cases hstep <;> by_cases heq : notifier = other <;>
            simp [heq, Function.update_of_ne] <;> simpa [heq] using hbegun
      | _ => cases hown

/-- Who has been woken or will be stays so until the event is cleared. -/
theorem heard_step (hstep : state.step action = some next) {notifier : NotifierId}
    (hbegun : state.notifiers notifier ≠ .toNotify) (hclear : action ≠ .clear waiter)
    (hregister : ∀ timed, action ≠ .register waiter timed)
    (hheard : Heard state notifier waiter) : Heard next notifier waiter := by
  rcases waiter?_cases action waiter with hown | ⟨other, hown, hne⟩ | hnone
  · obtain ⟨hmoves, -, hnotifiers, -⟩ := moves_of_step hown hstep
    have harrived : (next.waiters waiter).arrived = (state.waiters waiter).arrived := by
      cases hmoves with
      | register timed => exact absurd rfl (hregister timed)
      | clear => exact absurd rfl hclear
      | read _ _ hnext | expire _ _ hnext | block _ hnext | wake _ hnext | recheck _ hnext
      | breakOff _ hnext | unregister _ _ _ _ hnext | missing _ _ _ hnext => rw [hnext]
    unfold Heard
    rwa [harrived, hnotifiers]
  · obtain ⟨-, -, hnotifiers, hothers⟩ := moves_of_step hown hstep
    unfold Heard
    rwa [hothers waiter hne, hnotifiers]
  · rcases hheard with harrived | hpending
    · exact .inl ((wakes_of_step hnone hstep).arrived waiter harrived)
    · exact pending_step hnone hstep hbegun hpending

theorem safe_step {notifier : NotifierId} (hannounced : Announced notifier state)
    (hstep : state.step action = some next) (waiter : WaiterId) : Safe next notifier waiter := by
  have hsafe := hannounced.safe waiter
  by_cases hown : action.waiter? = some waiter
  · obtain ⟨hmoves, -⟩ := moves_of_step hown hstep
    cases hmoves with
    | register _ _ hnext | expire _ _ hnext | wake _ hnext | recheck _ hnext | clear _ hnext
    | breakOff _ hnext | unregister _ _ _ _ hnext | missing _ _ _ hnext =>
        unfold Safe
        rw [hnext]
        trivial
    | block hstage hnext =>
        unfold Safe at hsafe ⊢
        rw [hstage] at hsafe
        rw [hnext]
        exact heard_step hstep hannounced.begun nofun nofun hsafe
    | read stage hread hnext =>
        unfold Safe
        rw [hnext]
        cases hstage : (state.waiters waiter).stage with
        | reading =>
            rw [hstage] at hread
            simp only [readStage, Option.some.injEq] at hread
            split_ifs at hread <;> subst hread <;> trivial
        | errorRead =>
            rw [hstage] at hread
            simp only [readStage, Option.some.injEq] at hread
            split_ifs at hread with hfailed <;> subst hread
            · trivial
            · -- the outcome is recorded and not a failure, so there is a result to read
              exact .inl (result_step hstep (hannounced.recorded.resolve_left hfailed))
        | rereading =>
            rw [hstage] at hread
            cases hread
            trivial
        | failedRead =>
            rw [hstage] at hread
            unfold Safe at hsafe
            rw [hstage] at hsafe
            simp only [readStage] at hread
            split at hread <;> cases hread
            · trivial
            · rename_i hnone
              rcases hsafe with hresult | hheard
              · rw [hnone] at hresult
                cases hresult
              · exact heard_step hstep hannounced.begun nofun nofun hheard
        | outside | checked | waiting | woken | leaving | left | keyError =>
            rw [hstage] at hread
            cases hread
  · have hheard : Heard state notifier waiter → Heard next notifier waiter := by
      refine heard_step hstep hannounced.begun ?_ ?_
      · rintro rfl
        exact hown rfl
      · rintro timed rfl
        exact hown rfl
    unfold Safe at hsafe ⊢
    rw [(kept_of_step hstep hown).1]
    split at hsafe
    case h_1 => exact hsafe.imp (result_step hstep) hheard
    case h_2 | h_3 => exact hheard hsafe
    case h_4 => trivial

theorem Announced.step {notifier : NotifierId} (hannounced : Announced notifier state)
    (hkeeps : KeepsOutcome state action) (hstep : state.step action = some next) :
    Announced notifier next where
  recorded := terminal_step hkeeps hstep hannounced.recorded
  begun := begun_step hstep hannounced.begun
  safe := safe_step hannounced hstep

/-- Everyone in `wait_for_result` is in the copy that a notify takes. -/
theorem announced_of_notify {notifier : NotifierId} (hentered : Entered state)
    (hrecorded : state.record.Terminal) (hstep : state.step (.notify notifier) = some next) :
    Announced notifier next := by
  simp only [State.step] at hstep
  split at hstep <;> cases hstep
  refine ⟨hrecorded, by simp, fun waiter => ?_⟩
  have hheard : (state.waiters waiter).stage.Inside →
      waiter ∈ (Function.update state.notifiers notifier
        (.notifying (state.entry.getD [])) notifier).pending := by
    intro hinside
    rw [Function.update_self]
    exact (hentered.inside waiter).mp hinside
  unfold Safe
  split
  case h_1 hstage =>
    refine .inr (.inr (hheard ?_))
    rw [hstage]
    trivial
  case h_2 hstage | h_3 hstage =>
    refine .inr (hheard ?_)
    rw [hstage]
    trivial
  case h_4 => trivial

/-! ### Every waiter leaves -/

/-- How many steps of its own a waiter has left at most, once it has been woken. -/
def stepsLeft (record : Record) : Stage → ℕ
  | .failedRead => if record.result.isSome then 2 else 8
  | .checked => 7
  | .waiting => 6
  | .woken => 5
  | .reading => 4
  | .errorRead => 3
  | .rereading => 2
  | .leaving _ => 1
  | .outside | .left _ | .keyError => 0

theorem stepsLeft_le (record : Record) (stage : Stage) : stepsLeft record stage ≤ 8 := by
  cases stage <;> simp only [stepsLeft] <;> first | omega | split_ifs <;> omega

/-- A wait that has not been cut short by Redis, and whose outcome is an answer if it has one. -/
def Sound (waiter : Waiter) : Prop :=
  match waiter.stage with
  | .leaving leave | .left leave => leave.Answers waiter.timed
  | .outside | .keyError => False
  | _ => True

theorem sound_readStage {record : Record} {reached : Stage} (value : Waiter)
    (hread : readStage record value.stage = some reached) :
    Sound { value with stage := reached } := by
  cases hstage : value.stage with
  | reading | errorRead =>
      simp only [hstage, readStage, Option.some.injEq] at hread
      split_ifs at hread <;> subst hread <;> trivial
  | rereading =>
      rw [hstage] at hread
      cases hread
      trivial
  | failedRead =>
      simp only [hstage, readStage] at hread
      split at hread <;> cases hread <;> trivial
  | outside | checked | waiting | woken | leaving | left | keyError =>
      rw [hstage] at hread
      cases hread

theorem stepsLeft_readStage {record : Record} {stage reached : Stage}
    (hrecorded : record.Terminal) (hread : readStage record stage = some reached) :
    stepsLeft record reached < stepsLeft record stage := by
  cases stage with
  | reading =>
      simp only [readStage, Option.some.injEq] at hread
      split_ifs at hread <;> subst hread <;> simp [stepsLeft]
  | errorRead =>
      simp only [readStage, Option.some.injEq] at hread
      split_ifs at hread with hfailed <;> subst hread
      · simp [stepsLeft]
      · simp [stepsLeft, hrecorded.resolve_left hfailed]
  | rereading =>
      cases hread
      simp [stepsLeft]
  | failedRead =>
      simp only [readStage] at hread
      split at hread <;> cases hread <;> rename_i hresult <;> simp [stepsLeft, hresult]
  | outside | checked | waiting | woken | leaving | left | keyError => cases hread

/-- What holds of a waiter from the notify's return on. -/
structure Woken (notifier : NotifierId) (waiter : WaiterId) (state : State) : Prop where
  announced : Announced notifier state
  entered : Entered state
  notified : state.notifiers notifier = .notified
  sound : Sound (state.waiters waiter)

theorem notified_step (hstep : state.step action = some next) {notifier : NotifierId}
    (hnotified : state.notifiers notifier = .notified) :
    next.notifiers notifier = .notified := by
  cases hown : action.waiter? with
  | some waiter => rwa [(moves_of_step hown hstep).2.2.1]
  | none =>
      cases action with
      | write fields =>
          cases hstep
          exact hnotified
      | notify other | set other =>
          have hne : notifier ≠ other := by
            rintro rfl
            simp [State.step, hnotified] at hstep
          simp only [State.step] at hstep
          split at hstep <;> cases hstep <;>
            simpa [Function.update_of_ne hne] using hnotified
      | _ => cases hown

/-- A step of the waiter's own brings it nearer its end, and no other step takes it away. -/
theorem Woken.step {notifier : NotifierId} (hwoken : Woken notifier waiter state)
    (hallowed : Undisturbed state action) (hstep : state.step action = some next) :
    Woken notifier waiter next ∧
      stepsLeft next.record (next.waiters waiter).stage +
          (if action.waiter? = some waiter then 1 else 0) ≤
        stepsLeft state.record (state.waiters waiter).stage := by
  have hannounced := hwoken.announced.step hallowed.1 hstep
  have hentered := hwoken.entered.step hstep
  have hnotified := notified_step hstep hwoken.notified
  have hsound := hwoken.sound
  split_ifs with hown
  · obtain ⟨hmoves, hrecord, -⟩ := moves_of_step hown hstep
    rw [hrecord]
    refine ⟨⟨hannounced, hentered, hnotified, ?_⟩, ?_⟩
    · cases hmoves with
      | register _ hstage =>
          rw [Sound, hstage] at hsound
          exact hsound.elim
      | read stage hread hnext =>
          rw [hnext]
          exact sound_readStage _ hread
      | expire _ htimed hnext =>
          rw [hnext]
          exact htimed
      | block _ hnext | wake _ hnext | recheck _ hnext | clear _ hnext =>
          rw [hnext]
          trivial
      | breakOff => exact absurd rfl (hallowed.2 waiter).2
      | unregister leave hstage _ _ hnext =>
          rw [Sound, hstage] at hsound
          rw [hnext]
          exact hsound
      | missing _ _ _ hnext => exact absurd (congrArg Waiter.stage hnext) (hentered.found waiter)
    · cases hmoves with
      | register _ hstage =>
          rw [Sound, hstage] at hsound
          exact hsound.elim
      | read stage hread hnext =>
          rw [hnext]
          exact stepsLeft_readStage hwoken.announced.recorded hread
      | expire hstage _ hnext | block hstage hnext | wake hstage hnext | recheck hstage hnext
      | clear hstage hnext | unregister _ hstage _ _ hnext | missing _ hstage _ hnext =>
          rw [hnext, hstage]
          simp [stepsLeft]
      | breakOff => exact absurd rfl (hallowed.2 waiter).2
  · obtain ⟨hstage, htimed, -⟩ := kept_of_step hstep hown
    refine ⟨⟨hannounced, hentered, hnotified, ?_⟩, ?_⟩
    · unfold Sound
      rw [hstage, htimed]
      exact hsound
    · rw [hstage, Nat.add_zero]
      cases (state.waiters waiter).stage with
      | failedRead =>
          by_cases hresult : state.record.result.isSome
          · simp [stepsLeft, hresult, result_step hstep hresult]
          · simp only [stepsLeft, if_neg hresult]
            split_ifs <;> omega
      | _ => exact le_rfl

/-- A waiter that has not left has a step to take, other than to wait for the next recheck. -/
theorem Woken.enabled {notifier : NotifierId} (hwoken : Woken notifier waiter state) :
    (∃ leave, (state.waiters waiter).stage = .left leave ∧
        leave.Answers (state.waiters waiter).timed) ∨
      ∃ action, action.waiter? = some waiter ∧ Undisturbed state action ∧
        (state.step action).isSome := by
  have hsound := hwoken.sound
  have hsafe := hwoken.announced.safe waiter
  have hnotRecheck : ∀ action : Action, action.waiter? = some waiter →
      KeepsOutcome state action → action ≠ .recheck waiter → action ≠ .breakOff waiter →
        Undisturbed state action := by
    intro action hown hkeeps hrecheck hbreakOff
    refine ⟨hkeeps, fun other => ⟨?_, ?_⟩⟩
    · rintro rfl
      cases hown
      exact hrecheck rfl
    · rintro rfl
      cases hown
      exact hbreakOff rfl
  cases hstage : (state.waiters waiter).stage with
  | outside | keyError =>
      rw [Sound, hstage] at hsound
      exact hsound.elim
  | left leave =>
      rw [Sound, hstage] at hsound
      exact .inl ⟨leave, rfl, hsound⟩
  | reading | errorRead | rereading | failedRead =>
      refine .inr ⟨.read waiter, rfl, hnotRecheck _ rfl trivial nofun nofun, ?_⟩
      simp only [State.step, hstage, readStage]
      split <;> rfl
  | checked =>
      refine .inr ⟨.block waiter, rfl, hnotRecheck _ rfl trivial nofun nofun, ?_⟩
      simp [State.step, hstage]
  | waiting =>
      refine .inr ⟨.wake waiter, rfl, hnotRecheck _ rfl trivial nofun nofun, ?_⟩
      have harrived : (state.waiters waiter).arrived = true := by
        rw [Safe, hstage, Heard, hwoken.notified] at hsafe
        exact hsafe.resolve_right List.not_mem_nil
      simp [State.step, hstage, harrived]
  | woken =>
      refine .inr ⟨.clear waiter, rfl, hnotRecheck _ rfl trivial nofun nofun, ?_⟩
      simp [State.step, hstage]
  | leaving leave =>
      refine .inr ⟨.unregister waiter, rfl, hnotRecheck _ rfl trivial nofun nofun, ?_⟩
      have hinside : waiter ∈ state.entry.getD [] := by
        rw [← hwoken.entered.inside waiter, hstage]
        trivial
      cases hentry : state.entry <;> simp [State.step, hstage, hentry]

theorem Woken.run {notifier : NotifierId} {later : State} {more : List Action}
    (hwoken : Woken notifier waiter state) (hguard : system.Guarded Undisturbed state more)
    (hrun : system.run state more = some later) :
    Woken notifier waiter later ∧
      stepsLeft later.record (later.waiters waiter).stage +
          more.countP (·.waiter? = some waiter) ≤
        stepsLeft state.record (state.waiters waiter).stage := by
  induction more generalizing state with
  | nil =>
      cases hrun
      exact ⟨hwoken, le_rfl⟩
  | cons action more ih =>
      obtain ⟨next, hnext, hrest⟩ := system.run_cons_eq_some.mp hrun
      obtain ⟨hallowed, hguard⟩ := system.along_cons_iff.mp hguard next hnext
      obtain ⟨hstill, hone⟩ := hwoken.step hallowed hnext
      obtain ⟨hfinal, hmany⟩ := ih hstill hguard hrest
      refine ⟨hfinal, ?_⟩
      rw [List.countP_cons]
      simp only [decide_eq_true_eq]
      omega

theorem no_lost_wakeup : NoLostWakeup := by
  intro record before written notifier after told waiter hbefore hrecorded hguard hrun hnotified
    hloop
  obtain ⟨copied, hnotify, hrest⟩ := system.run_cons_eq_some.mp hrun
  obtain ⟨-, hguard⟩ := system.along_cons_iff.mp hguard copied hnotify
  have hentered := entered_of_run hbefore
  have hannounced : Announced notifier told := by
    refine system.invariant_run ?_ (announced_of_notify hentered hrecorded hnotify) hguard hrest
    intro state action next hinv hkeeps hstep
    exact hinv.step hkeeps hstep
  have htold : Entered told :=
    system.invariant_of_run (fun _ _ _ hentered hstep => hentered.step hstep) hentered hrun
  have hwoken : Woken notifier waiter told := by
    refine ⟨hannounced, htold, hnotified, ?_⟩
    unfold Sound
    cases hstage : (told.waiters waiter).stage <;> rw [hstage] at hloop <;> trivial
  intro more later hundisturbed hmore
  obtain ⟨hlater, hsteps⟩ := hwoken.run hundisturbed hmore
  have hbound := stepsLeft_le told.record (told.waiters waiter).stage
  exact ⟨by omega, hlater.enabled⟩

/-- Two waits find nothing, one of them has not blocked yet. -/
def twoWaits : List Action :=
  [.register 0 false, .read 0, .read 0, .read 0, .block 0, .register 1 true, .read 1, .read 1,
    .read 1, .write { result := some "42" }, .write { failed := some false }]

end CanyonOS.Waiting
