import Mathlib.Data.Rat.Defs
import Mathlib.Tactic.Simps.Basic

/-!
# The record of a call

Every agent call is a future, and each machine that takes part in it keeps a hash `future:<id>` in
its Redis. Nothing ever deletes a field of it: all writers only `HSET` some fields. This module has
the hash, the fields each writer sets, and the message that carries a record to another machine.
-/

namespace CanyonOS

abbrev FutureId := String
abbrev RequestId := String
abbrev AgentName := String
abbrev Address := String

/-- A time or a span of it, in microseconds: times are only added, subtracted and compared. -/
abbrev Time := Int

/-- `future:<id>` on one machine's Redis. A field nobody wrote is `none`. -/
structure Record where
  id : Option FutureId := none
  futureId : Option FutureId := none
  requestId : Option RequestId := none
  parent : Option FutureId := none
  service : Option AgentName := none
  method : Option String := none
  args : Option String := none
  createdAt : Option Time := none
  failed : Option Bool := none
  error : Option String := none
  errorName : Option String := none
  result : Option String := none
  finishedAt : Option Time := none
  cpuResource : Option Rat := none
  gpuResource : Option Rat := none
  agent : Option String := none
  queueTime : Option Time := none
deriving DecidableEq

/-- `HSET` of several fields at once: the fields given are replaced, the others stay. -/
@[simps]
def Record.hsetMultiple (record fields : Record) : Record where
  id := fields.id.or record.id
  futureId := fields.futureId.or record.futureId
  requestId := fields.requestId.or record.requestId
  parent := fields.parent.or record.parent
  service := fields.service.or record.service
  method := fields.method.or record.method
  args := fields.args.or record.args
  createdAt := fields.createdAt.or record.createdAt
  failed := fields.failed.or record.failed
  error := fields.error.or record.error
  errorName := fields.errorName.or record.errorName
  result := fields.result.or record.result
  finishedAt := fields.finishedAt.or record.finishedAt
  cpuResource := fields.cpuResource.or record.cpuResource
  gpuResource := fields.gpuResource.or record.gpuResource
  agent := fields.agent.or record.agent
  queueTime := fields.queueTime.or record.queueTime

/-! ### Outcomes -/

/-- What a record says of its call once it ended. `failed` wins over a result beside it, as it does
for everyone who reads a record. -/
inductive Outcome where
  | failed
  | done (result : String)
deriving DecidableEq

def Record.outcome (record : Record) : Option Outcome :=
  if record.failed = some true then some .failed else record.result.map .done

/-- `failed` is 1, or `result` is set. -/
def Record.Terminal (record : Record) : Prop :=
  record.failed = some true ∨ record.result.isSome

instance (record : Record) : Decidable record.Terminal :=
  inferInstanceAs (Decidable (_ ∨ _))

theorem Record.terminal_iff_outcome {record : Record} :
    record.Terminal ↔ record.outcome.isSome := by
  unfold Terminal outcome
  split <;> simp_all

theorem Record.terminal_of_outcome {record : Record} {outcome : Outcome}
    (houtcome : record.outcome = some outcome) : record.Terminal := by
  rw [terminal_iff_outcome, houtcome]
  rfl

theorem Record.outcome_of_failed {record : Record} (hfailed : record.failed = some true) :
    record.outcome = some .failed := by
  simp [outcome, hfailed]

theorem Record.outcome_of_result {record : Record} {result : String}
    (hfailed : record.failed ≠ some true) (hresult : record.result = some result) :
    record.outcome = some (.done result) := by
  simp [outcome, hfailed, hresult]

theorem Record.outcome_eq_failed_iff {record : Record} :
    record.outcome = some .failed ↔ record.failed = some true := by
  unfold outcome
  split <;> simp_all

theorem Record.outcome_eq_done_iff {record : Record} {result : String} :
    record.outcome = some (.done result) ↔
      record.failed ≠ some true ∧ record.result = some result := by
  unfold outcome
  split <;> simp_all

/-- A write that does not reset `failed` to 0 leaves an ended call ended. -/
theorem Record.Terminal.hsetMultiple {record fields : Record} (hterminal : record.Terminal)
    (hfailed : fields.failed ≠ some false) : (record.hsetMultiple fields).Terminal := by
  rcases hterminal with hrecord | hresult
  · left
    cases hfield : fields.failed with
    | none => simpa [hfield] using hrecord
    | some failed =>
        have htrue : failed = true := by simpa [hfield] using hfailed
        simp [hfield, htrue]
  · right
    cases hfield : fields.result <;> simp [hfield, hresult]

/-- A record with a result stays ended under every write. -/
theorem Record.terminal_hsetMultiple_of_result {record : Record} (hresult : record.result.isSome)
    (fields : Record) : (record.hsetMultiple fields).Terminal := by
  refine Or.inr ?_
  cases hfield : fields.result <;> simp [hfield, hresult]

/-- Writing an ended call's fields ends the record written. -/
theorem Record.terminal_hsetMultiple {fields : Record} (hfields : fields.Terminal)
    (record : Record) : (record.hsetMultiple fields).Terminal := by
  rcases hfields with hfailed | hresult
  · exact Or.inl (by simp [hfailed])
  · obtain ⟨result, hresult⟩ := Option.isSome_iff_exists.mp hresult
    exact Or.inr (by simp [hresult])

/-- A message that says whether the call failed gives its outcome to every record it is written
over. -/
theorem Record.outcome_hsetMultiple {fields : Record} {outcome : Outcome}
    (houtcome : fields.outcome = some outcome) (hfailed : fields.failed.isSome)
    (record : Record) : (record.hsetMultiple fields).outcome = some outcome := by
  obtain ⟨failed, hfield⟩ := Option.isSome_iff_exists.mp hfailed
  cases outcome with
  | failed =>
      rw [outcome_eq_failed_iff] at houtcome ⊢
      simp [houtcome]
  | done result =>
      rw [outcome_eq_done_iff] at houtcome ⊢
      rw [hfield] at houtcome
      simpa [hfield, houtcome.2] using houtcome.1

/-! ### The request a controller queues -/

/-- The payload of `Execute`: the call's fields, and what the hops so far added to them. -/
structure Request where
  futureId : FutureId
  service : AgentName := ""
  function : String := ""
  args : String := "{}"
  requestId : Option RequestId := none
  parent : Option FutureId := none
  createdAt : Option Time := none
  origin : Option Address := none
  routeTo : Option Address := none
  retries : Nat := 0
deriving DecidableEq

/-! ### What each writer sets -/

/-- What `_mark_future_failed` is given as `error`: a plain text, a called agent's failure passed on
(`AgentCallError`), or any other exception. -/
inductive Failure where
  | message (text : String)
  | agentCallError (text : String)
  | exception (type text : String)
deriving DecidableEq

/-- `service.method`, as Python prints fields that may be missing. -/
def Record.callName (record : Record) : String :=
  record.service.getD "None" ++ "." ++ record.method.getD "None"

/-- The text recorded; only an exception of this agent's own is prefixed with the call's name. -/
def Failure.errorMessage (record : Record) : Failure → String
  | .message text => text
  | .agentCallError text => text
  | .exception type text => s!"{record.callName} failed: {type}: {text}"

/-- The fields `_mark_future_failed` sets. Only `before_start` stamps `finished_at`. -/
def failureFields (record : Record) (error : Failure) (errorName : Option String := none)
    (beforeStart : Option Time := none) : Record :=
  { error := some (error.errorMessage record)
    failed := some true
    errorName := errorName
    finishedAt := beforeStart }

/-- The fields a stub sets when agent code makes a call. -/
def createdFields (call : Request) : Record :=
  { id := some call.futureId
    requestId := some (call.requestId.getD "")
    parent := call.parent
    service := some call.service
    method := some call.function
    args := some call.args
    createdAt := call.createdAt }

/-- The fields the start of `_execute_locally` sets. -/
def initialFields (call : Request) : Record :=
  { id := some call.futureId
    requestId := some (call.requestId.getD "")
    parent := some (call.parent.getD "")
    service := some call.service
    method := some call.function
    args := some call.args
    failed := some false
    error := some ""
    createdAt := call.createdAt }

/-- What the `finally` block of `_execute_locally` measured. -/
structure Measured where
  finishedAt : Time
  cpuResource : Rat
  gpuResource : Rat
  queueTime : Option Time

def finishedFields (replicaId : String) (measured : Measured) : Record :=
  { finishedAt := some measured.finishedAt
    cpuResource := some measured.cpuResource
    gpuResource := some measured.gpuResource
    agent := some replicaId
    queueTime := measured.queueTime }

/-- The message `_send_result_callback` builds: the record with the outcome it was called with
written over it. -/
def resultMessage (record : Record) (futureId : FutureId) (result : Option String) (failed : Bool)
    (errorMessage : String) : Record :=
  record.hsetMultiple
    { futureId := some futureId
      failed := some failed
      error := some errorMessage
      result := result }

/-- The short message sent after the full one could not be delivered. -/
def failureNote (futureId : FutureId) (errorMessage : String) : Record :=
  { futureId := some futureId, failed := some true, error := some errorMessage }

theorem failureFields_terminal (record : Record) (error : Failure) (errorName : Option String)
    (beforeStart : Option Time) :
    (failureFields record error errorName beforeStart).Terminal :=
  Or.inl rfl

@[simp]
theorem resultMessage_outcome_failed (record : Record) (futureId : FutureId)
    (result : Option String) (errorMessage : String) :
    (resultMessage record futureId result true errorMessage).outcome = some .failed :=
  Record.outcome_of_failed rfl

@[simp]
theorem resultMessage_outcome_done (record : Record) (futureId : FutureId) (result : String)
    (errorMessage : String) :
    (resultMessage record futureId (some result) false errorMessage).outcome =
      some (.done result) := by
  simp [resultMessage, Record.outcome]

end CanyonOS
