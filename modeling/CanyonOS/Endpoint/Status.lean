import CanyonOS.Telemetry.Traces

/-!
# The status of a request

`GET /status` answers from whatever of a finished request is still there: the hash of its root call,
the copy that cleanup keeps for a day, or the span in the dashboard's database.
-/

namespace CanyonOS.Endpoint

open Telemetry

/-- What the answer is made of, as each place that keeps it shapes it. -/
structure OutcomeFields where
  result : Option String := none
  failed : Option Bool := none
  error : Option String := none
  errorMessage : Option String := none
deriving DecidableEq

/-- The four keys `_cleanup_request` copies; no record has an `error_message`. -/
def outcomeOf (record : Record) : OutcomeFields where
  result := record.result
  failed := record.failed
  error := record.error

/-- A row of `otel_spans`. -/
structure DashboardSpan where
  output : Option String
  statusCode : String
  statusMessage : Option String
deriving DecidableEq

def statusCodeError : String := "STATUS_CODE_ERROR"

/-- The span an exported trace row ends up as. -/
def dashboardSpan (row : TraceRow) : DashboardSpan where
  output := row.output
  statusCode := if row.failed then statusCodeError else "STATUS_CODE_UNSET"
  statusMessage := if row.failed then row.errorMessage else none

/-- `_record_from_dashboard`. -/
def recordFromDashboard (span : Option DashboardSpan) : Option OutcomeFields :=
  span.map fun span =>
    if span.statusCode = statusCodeError then
      { failed := some true, errorMessage := span.statusMessage }
    else { result := span.output }

/-- What the endpoint's Redis and the dashboard have of a request; a key that expired is `none`. -/
structure RequestKeys where
  future : Option FutureId
  record : Option OutcomeFields
  result : Option OutcomeFields
  dashboard : Option DashboardSpan
  waiting : List String := []

variable {Value : Type*} (loads : String → Option Value) (dumps : String → String)

/-- The answer of `GET /status`. `serverError` is a result that `json.loads` does not take. -/
inductive Answer (Value : Type*) where
  | notFound
  | pending
  | inputRequired (question : String)
  | done (result : Value)
  | error (error : Option String)
  | serverError
deriving DecidableEq

/-- `get_status`, of the record it found. -/
def answerOf (waiting : List String) (record : Option OutcomeFields) : Answer Value :=
  match record with
  | none => .notFound
  | some record =>
      if record.failed = some true then .error record.error
      else if record.result.getD "" ≠ "" then
        match loads (record.result.getD "") with
        | some value => .done value
        | none => .serverError
      else
        match waiting.getLast? with
        | some oldest => .inputRequired oldest
        | none => .pending

def getStatus (keys : RequestKeys) : Answer Value :=
  answerOf loads keys.waiting
    (match keys.future with
    | some _ => keys.record
    | none => keys.result.or (recordFromDashboard keys.dashboard))

/-- `_normalize_json_text`, of a text. -/
def normalizeJsonText (text : String) : String :=
  if (loads text).isSome then text else dumps text

/-- The span of a root call; only rows that carry `finished_at` are exported. -/
def exportedSpan (root : FutureId) (record : Record) : Option DashboardSpan :=
  ((traceRow (normalizeJsonText loads dumps) none root record).filter
    (·.finishedAt.isSome)).map dashboardSpan

/-- Which keys of a cleaned-up request are gone. Its copy outlives the others. -/
structure Expired where
  future : Bool
  record : Bool
  result : Bool
  last : result = true → future = true ∧ record = true

/-- What is left of a finished request once some of its keys are gone. -/
def keysLeft (root : FutureId) (record : Record) (waiting : List String) (expired : Expired) :
    RequestKeys where
  future := if expired.future then none else some root
  record := if expired.record then none else some (outcomeOf record)
  result := if expired.result then none else some (outcomeOf record)
  dashboard := exportedSpan loads dumps root record
  waiting := waiting

/-- A record whose call has ended: it failed, or has a result, which is a JSON text. -/
def Finished (record : Record) : Prop :=
  record.failed = some true ∨
    ∃ result, record.result = some result ∧ result ≠ "" ∧ (loads result).isSome

/-- The answer while the root's hash is there. -/
def firstAnswer (record : Record) (waiting : List String) : Answer Value :=
  answerOf loads waiting (some (outcomeOf record))

/-! ### The same answer from every place -/

variable {loads dumps} {record : Record} {root : FutureId} {waiting : List String}

theorem firstAnswer_of_failed (hfailed : record.failed = some true) :
    firstAnswer loads record waiting = .error record.error := by
  rw [firstAnswer, answerOf, if_pos (show (outcomeOf record).failed = some true from hfailed)]
  rfl

theorem firstAnswer_of_result (hfailed : record.failed ≠ some true) {result : String}
    (hresult : record.result = some result) (hne : result ≠ "") {value : Value}
    (hloads : loads result = some value) :
    firstAnswer loads record waiting = .done value := by
  have hgetD : (outcomeOf record).result.getD "" = result := by simp [outcomeOf, hresult]
  rw [firstAnswer, answerOf, if_neg (show ¬ (outcomeOf record).failed = some true from hfailed),
    hgetD, if_pos hne, hloads]

theorem firstAnswer_ne_notFound (hfinished : Finished loads record) :
    firstAnswer loads record waiting ≠ .notFound := by
  by_cases hfailed : record.failed = some true
  · rw [firstAnswer_of_failed hfailed]
    intro heq
    cases heq
  · obtain ⟨result, hresult, hne, hloads⟩ := hfinished.resolve_left hfailed
    obtain ⟨value, hvalue⟩ := Option.isSome_iff_exists.mp hloads
    rw [firstAnswer_of_result hfailed hresult hne hvalue]
    intro heq
    cases heq

/-- The row a span was exported from says of the outcome what the record says. -/
theorem exportedSpan_eq_some {span : DashboardSpan}
    (hspan : exportedSpan loads dumps root record = some span) :
    span = dashboardSpan
      { futureId := "", failed := record.failed.getD false, errorMessage := record.error
        output := record.result.map (normalizeJsonText loads dumps) } := by
  rw [exportedSpan, Option.map_eq_some_iff] at hspan
  obtain ⟨row, hrow, rfl⟩ := hspan
  rw [Option.filter_eq_some_iff] at hrow
  rw [eq_rowOf hrow.1]
  rfl

/-- The dashboard's answer is the first one unless an error's text is lost on the way. -/
theorem answerOf_dashboard_iff (hfinished : Finished loads record) :
    answerOf loads waiting
        (recordFromDashboard (exportedSpan loads dumps root record)) =
        firstAnswer loads record waiting ↔
      (exportedSpan loads dumps root record).isSome ∧
        (record.failed = some true → record.error = none) := by
  cases hspan : exportedSpan loads dumps root record with
  | none =>
      have hne : Answer.notFound ≠ firstAnswer loads record waiting :=
        (firstAnswer_ne_notFound hfinished).symm
      simpa [recordFromDashboard, answerOf] using hne
  | some span =>
      rw [exportedSpan_eq_some hspan, recordFromDashboard, Option.map_some]
      by_cases hfailed : record.failed = some true
      · rw [firstAnswer_of_failed hfailed]
        simp only [dashboardSpan, hfailed, Option.getD_some, if_true, answerOf,
          Answer.error.injEq, Option.isSome_some, true_and, forall_const]
        exact eq_comm
      · obtain ⟨result, hresult, hne, hloads⟩ := hfinished.resolve_left hfailed
        obtain ⟨value, hvalue⟩ := Option.isSome_iff_exists.mp hloads
        have hfalse : record.failed.getD false = false := by
          cases hcase : record.failed with
          | none => rfl
          | some failed => cases failed <;> simp_all
        have hcode : ¬ "STATUS_CODE_UNSET" = statusCodeError := by decide
        rw [firstAnswer_of_result hfailed hresult hne hvalue]
        simp [dashboardSpan, hfalse, hcode, answerOf, hresult, normalizeJsonText, hvalue, hne,
          hfailed]

/-- When the status of a finished request stays what it was first. -/
theorem status_unchanged_iff (hfinished : Finished loads record) (expired : Expired) :
    getStatus loads (keysLeft loads dumps root record waiting expired) =
        firstAnswer loads record waiting ↔
      (expired.record = true → expired.future = true) ∧
        (expired.result = true →
          (exportedSpan loads dumps root record).isSome ∧
            (record.failed = some true → record.error = none)) := by
  obtain ⟨future, hash, result, hlast⟩ := expired
  cases result with
  | true =>
      obtain ⟨rfl, rfl⟩ := hlast rfl
      simp only [getStatus, keysLeft, if_true, Option.none_or, true_implies, true_and]
      exact answerOf_dashboard_iff hfinished
  | false =>
      cases future with
      | true => simp [getStatus, keysLeft, firstAnswer]
      | false =>
          cases hash with
          | false => simp [getStatus, keysLeft, firstAnswer]
          | true =>
              have hne : Answer.notFound ≠ firstAnswer loads record waiting :=
                (firstAnswer_ne_notFound hfinished).symm
              simpa [getStatus, keysLeft, answerOf] using hne

/-- `json.loads` and `json.dumps` of the texts used here. -/
def loadsQuoted (text : String) : Option String :=
  if text = "\"42\"" then some "42" else none

def dumpsQuoted (text : String) : String := "\"" ++ text ++ "\""

def doneRecord : Record :=
  { id := some "f", requestId := some "r", result := some "\"42\"", failed := some false
    finishedAt := some 9 }

def errorRecord : Record :=
  { id := some "f", requestId := some "r", failed := some true
    error := some "Greeter.greet failed: ValueError: boom", finishedAt := some 9 }

def allGone : Expired := ⟨true, true, true, fun _ => ⟨rfl, rfl⟩⟩

theorem status_unchanged_from_dashboard :
    getStatus loadsQuoted (keysLeft loadsQuoted dumpsQuoted "f" doneRecord [] allGone) =
      .done "42" :=
  (status_unchanged_iff (Or.inr ⟨"\"42\"", rfl, by decide, by decide⟩) allGone).mpr
    ⟨fun _ => rfl, fun _ => ⟨by decide, by decide⟩⟩

/-- A failed request's error text is gone once the dashboard answers, and any request is not found
while only its hash has expired. -/
theorem status_changes :
    getStatus loadsQuoted (keysLeft loadsQuoted dumpsQuoted "f" errorRecord [] allGone) ≠
        firstAnswer loadsQuoted errorRecord [] ∧
      getStatus loadsQuoted (keysLeft loadsQuoted dumpsQuoted "f" doneRecord []
          ⟨false, true, false, by decide⟩) ≠
        firstAnswer loadsQuoted doneRecord [] := by
  constructor <;> decide

end CanyonOS.Endpoint
