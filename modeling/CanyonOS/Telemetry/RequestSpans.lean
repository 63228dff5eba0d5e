import CanyonOS.Telemetry.TokenCounts

/-!
# Requests as spans

A request is all spans of a trace. Which ones a range has goes by the start of the first, and the
sums over its spans are what the dashboard shows of it (`metrics.sql.ts`).
-/

namespace CanyonOS.RequestSpans

open TokenCounts (Attributes attrCount spanTotalTokens)

/-- What the queries use of Postgres; a timestamp is a number of microseconds. -/
structure Postgres where
  /-- `to_timestamp(nanos / 1e9)` -/
  toTimestamp : ℤ → ℤ
  toTimestamp_mono : Monotone toTimestamp
  toTimestamp_micros : ∀ micros, toTimestamp (micros * 1000) = micros
  /-- a time that was sent, in seconds, as a `timestamptz` -/
  timestamptz : ℚ → ℤ
  timestamptz_mono : Monotone timestamptz
  timestamptz_near : ∀ time, |timestamptz time - time * 1000000| < 1

/-- A row of `otel_spans`, its times in nanoseconds. -/
structure Span where
  projectId : Option String
  traceId : String
  statusCode : String
  attributes : Attributes
  startTime : ℤ
  endTime : ℤ
  deriving DecidableEq

/-! ### What a span reports -/

def attrNumber (key : String) (span : Span) : Option ℚ :=
  span.attributes.lookup key

def spanCost : Span → Option ℚ := attrNumber "gen_ai.usage.cost"

def spanTokenCost : Span → Option ℚ := attrNumber "token_cost"

def spanServerCost : Span → Option ℚ := attrNumber "server_cost"

def spanErrorCount (span : Span) : Option ℚ :=
  attrCount span.attributes "error_count"

def spanTokens (span : Span) : Option ℚ :=
  spanTotalTokens span.attributes

def spanFailed (span : Span) : Bool :=
  span.statusCode = "STATUS_CODE_ERROR"

/-- `coalesce(sum(value), 0)` -/
def coalesceSum {Row : Type} (value : Row → Option ℚ) (rows : List Row) : ℚ :=
  (rows.filterMap value).sum

/-! ### The spans of a range -/

/-- `TimeRange`, its ends in seconds with as many digits as were sent. -/
structure TimeRange where
  fromTime : ℚ
  toTime : ℚ

section Scope

variable (postgres : Postgres)

/-- `unixNanos` -/
def unixNanos (time : ℚ) : ℤ :=
  postgres.timestamptz time * 1000

def withinRange (range : TimeRange) (nanos : ℤ) : Bool :=
  unixNanos postgres range.fromTime ≤ nanos && nanos < unixNanos postgres range.toTime

/-- A span with the start of its request. -/
structure RequestSpan extends Span where
  requestStart : ℤ
  deriving DecidableEq

/-- The partition of the window. -/
def sameRequest (span other : Span) : Bool :=
  span.projectId = other.projectId && span.traceId = other.traceId

/-- `min(s.start_time_unix_nano) over (partition by project, s.trace_id)`, for a row of them. -/
def earliestStart (spans : List Span) (span : Span) : ℤ :=
  ((spans.filter (sameRequest span)).map Span.startTime).foldl min span.startTime

def requestSpans (inScope : Span → Bool) (range : TimeRange) (spans : List Span) :
    List RequestSpan :=
  let scope := spans.filter inScope
  let touched := (scope.filter fun span => withinRange postgres range span.startTime).map
    Span.traceId
  let candidates := scope.filter fun span => touched.contains span.traceId
  (candidates.map fun span => ⟨span, earliestStart candidates span⟩).filter fun span =>
    withinRange postgres range span.requestStart

def projectRequestSpans (project : String) : TimeRange → List Span → List RequestSpan :=
  requestSpans postgres fun span => span.projectId = some project

end Scope

/-- `requestStart`: the start of a request as a timestamp. -/
def requestStart (postgres : Postgres) (span : RequestSpan) : ℤ :=
  postgres.toTimestamp span.requestStart

/-- The groups of `group by s.trace_id`. -/
def traces (rows : List RequestSpan) : List String :=
  (rows.map fun span => span.traceId).dedup

def spansOf (rows : List RequestSpan) (trace : String) : List RequestSpan :=
  rows.filter fun span => span.traceId = trace

theorem mem_traces {rows : List RequestSpan} {trace : String} :
    trace ∈ traces rows ↔ ∃ span ∈ rows, span.traceId = trace := by
  rw [traces, List.mem_dedup, List.mem_map]

theorem nodup_traces (rows : List RequestSpan) : (traces rows).Nodup :=
  List.nodup_dedup _

end CanyonOS.RequestSpans
