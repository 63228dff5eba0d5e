import CanyonOS.Lib.Buckets
import CanyonOS.Lib.Histogram
import CanyonOS.Telemetry.RequestSpans

/-!
# A histogram and the list behind it

The dashboard draws a bar for each part of a metric's range (`metrics.distribution.ts`), and a click
on one lists the requests between its bounds (`requests.repo.ts`). The chart sorts values into bars
with `width_bucket`, the list compares them with the bounds that the chart gave.
-/

namespace CanyonOS.Distribution

open Histogram RequestSpans

/-! ### The metrics -/

inductive DistributionMetric where
  | tokensPerRequest
  | costPerRequest
  | latency

/-- `round`, of a `numeric`. -/
def round (value : ℚ) : ℤ :=
  if 0 ≤ value then ⌊value + 1 / 2⌋ else -⌊-value + 1 / 2⌋

/-- From the first start to the last end, in milliseconds. -/
def latencyMs (spans : List RequestSpan) : ℚ :=
  let first := (spans.map fun span => span.startTime).min?.getD 0
  let last := (spans.map fun span => span.endTime).max?.getD 0
  round ((last - first : ℤ) / 1000000)

/-- `OTEL_DISTRIBUTION_VALUES`: the value of a request, none where `having` drops it. -/
def valueOf : DistributionMetric → List RequestSpan → Option ℚ
  | .tokensPerRequest, spans => some (coalesceSum (fun span => spanTokens span.toSpan) spans)
  | .costPerRequest, spans =>
      if spans.any fun span => (spanCost span.toSpan).isSome then
        some (coalesceSum (fun span => spanCost span.toSpan) spans)
      else none
  | .latency, spans => some (latencyMs spans)

def requestValue (metric : DistributionMetric) (rows : List RequestSpan) (trace : String) :
    Option ℚ :=
  valueOf metric (spansOf rows trace)

/-! ### The chart -/

structure Bucket where
  lower : ℚ
  upper : ℚ
  count : ℕ

structure DistributionStats where
  requestCount : ℕ
  min : Option ℚ
  max : Option ℚ
  buckets : List Bucket

/-- The `bucket` of the histogram. -/
def bucketNumber (low high : ℚ) (buckets : ℕ) (value : ℚ) : ℤ :=
  if high = low then 1 else bucketOf value low high buckets

/-- `t.bucket_total` -/
def bucketTotal (low high : ℚ) (buckets : ℕ) : ℕ :=
  if high = low then 1 else buckets

/-- What is counted under a number, from one on. -/
def bucket (low high : ℚ) (buckets : ℕ) (values : List ℚ) (number : ℕ) : Bucket where
  lower := bound low high (bucketTotal low high buckets) (number - 1)
  upper :=
    if number = bucketTotal low high buckets then high
    else bound low high (bucketTotal low high buckets) number
  count := values.countP fun value => bucketNumber low high buckets value = number

def distribution (metric : DistributionMetric) (rows : List RequestSpan) (buckets : ℕ) :
    Except String DistributionStats :=
  if buckets < 1 then
    .error ("distribution buckets must be a positive integer, got " ++ toString buckets)
  else
    let values := (traces rows).filterMap (requestValue metric rows)
    .ok
      { requestCount := values.length
        min := values.min?
        max := values.max?
        buckets :=
          match values.min?, values.max? with
          | some low, some high =>
              (List.range (bucketTotal low high buckets)).map fun part =>
                bucket low high buckets values (part + 1)
          | _, _ => [] }

/-! ### The list -/

structure RequestMetricRange where
  metric : DistributionMetric
  min : ℚ
  max : ℚ

inductive RequestStatus where
  | running
  | completed
  | failed
  deriving DecidableEq

/-- What narrows the listing; a time in seconds. -/
structure RequestFilters where
  status : Option RequestStatus
  range : Option RequestMetricRange
  createdFrom : Option ℚ
  createdTo : Option ℚ

/-- A row of `requests`. -/
structure Request where
  traceId : String
  firstStart : ℤ
  lastEnd : ℤ
  blockCount : ℕ
  failedBlockCount : ℕ
  errorCount : ℚ
  tokenCount : ℚ
  llmCost : ℚ
  harnessCost : ℚ
  totalCost : ℚ

def request (rows : List RequestSpan) (trace : String) : Request :=
  let spans := (spansOf rows trace).map RequestSpan.toSpan
  { traceId := trace
    firstStart := (spans.map Span.startTime).min?.getD 0
    lastEnd := (spans.map Span.endTime).max?.getD 0
    blockCount := spans.length
    failedBlockCount := spans.countP spanFailed
    errorCount := coalesceSum spanErrorCount spans
    tokenCount := coalesceSum spanTokens spans
    llmCost := coalesceSum spanTokenCost spans
    harnessCost := coalesceSum spanServerCost spans
    totalCost := coalesceSum spanCost spans }

/-- `REQUEST_STATUS` -/
def Request.status (request : Request) : RequestStatus :=
  if 0 < request.failedBlockCount then .failed else .completed

def statusPredicate (status : Option RequestStatus) (request : Request) : Bool :=
  match status with
  | none => true
  | some .running => false
  | some status => request.status = status

/-- The requests with their values, and the largest of them beside each. -/
def scored (metric : DistributionMetric) (rows : List RequestSpan) : List (String × ℚ) :=
  (traces rows).filterMap fun trace => (requestValue metric rows trace).map (trace, ·)

def inMetricRange (range : RequestMetricRange) (maxValue : Option ℚ) (value : ℚ) : Bool :=
  range.min ≤ value &&
    if ∃ largest ∈ maxValue, largest ≤ range.max then value ≤ range.max else value < range.max

def requestsInMetricRange (range : RequestMetricRange) (rows : List RequestSpan) : List String :=
  let maxValue := ((scored range.metric rows).map Prod.snd).max?
  ((scored range.metric rows).filter fun entry => inMetricRange range maxValue entry.2).map
    Prod.fst

def metricRangePredicate (range : Option RequestMetricRange) (rows : List RequestSpan)
    (request : Request) : Bool :=
  match range with
  | none => true
  | some range => (requestsInMetricRange range rows).contains request.traceId

def createdRangePredicate (postgres : Postgres) (filters : RequestFilters) (request : Request) :
    Bool :=
  let createdAt := postgres.toTimestamp request.firstStart
  filters.createdFrom.all (fun time => postgres.timestamptz time ≤ createdAt) &&
    filters.createdTo.all fun time => createdAt < postgres.timestamptz time

/-- The `matched` requests, which the pages are cut from and the total counts. -/
def matched (postgres : Postgres) (filters : RequestFilters) (rows : List RequestSpan) :
    List Request :=
  ((traces rows).map (request rows)).filter fun request =>
    metricRangePredicate filters.range rows request && statusPredicate filters.status request &&
      createdRangePredicate postgres filters request

/-- No filter but a bar of the chart. -/
def onBar (metric : DistributionMetric) (bucket : Bucket) : RequestFilters where
  status := none
  range := some ⟨metric, bucket.lower, bucket.upper⟩
  createdFrom := none
  createdTo := none

/-! ### What the two must agree on -/

section Agree

variable (postgres : Postgres) (metric : DistributionMetric)

/-- Each request that has a value is in one bar, and the list of a bar has its requests. -/
structure ChartAgrees (rows : List RequestSpan) (stats : DistributionStats) : Prop where
  total : (stats.buckets.map Bucket.count).sum = stats.requestCount
  first : stats.buckets.head?.map Bucket.lower = stats.min
  last : stats.buckets.getLast?.map Bucket.upper = stats.max
  once : ∀ trace ∈ traces rows, (requestValue metric rows trace).isSome → ∃ bucket,
    (stats.buckets.filter fun bucket =>
      ((matched postgres (onBar metric bucket) rows).map Request.traceId).contains trace) = [bucket]
  listed : ∀ bucket ∈ stats.buckets,
    (matched postgres (onBar metric bucket) rows).length = bucket.count ∧
      ∀ request ∈ matched postgres (onBar metric bucket) rows, ∃ value,
        requestValue metric rows request.traceId = some value ∧
          bucket.lower ≤ value ∧ value ≤ bucket.upper

/-- A chart of no bars is refused, any other agrees with the lists. -/
def HistogramHolds (rows : List RequestSpan) (buckets : ℕ) : Prop :=
  match distribution metric rows buckets with
  | .ok stats => ChartAgrees postgres metric rows stats
  | .error _ => buckets = 0

end Agree

/-! ### A bar and its bounds -/

section Bars

variable {low high value : ℚ} {buckets number : ℕ}

/-- Whether the list takes a value for a bar goes by the bar that counts it. -/
theorem inMetricRange_iff (metric : DistributionMetric) (values : List ℚ) (hbuckets : 1 ≤ buckets)
    (hlow : low ≤ value) (hhigh : value ≤ high) (hfirst : 1 ≤ number)
    (hlast : number ≤ bucketTotal low high buckets) :
    inMetricRange ⟨metric, (bucket low high buckets values number).lower,
        (bucket low high buckets values number).upper⟩ (some high) value = true ↔
      bucketNumber low high buckets value = number := by
  unfold inMetricRange bucket bucketNumber
  unfold bucketTotal at hlast ⊢
  simp only [Option.mem_def, Option.some.injEq, exists_eq_left', Bool.and_eq_true,
    decide_eq_true_eq]
  by_cases hsame : high = low
  · -- one value, and one bar
    rw [if_pos hsame] at hlast ⊢
    obtain rfl : number = 1 := by omega
    rw [if_pos rfl, if_pos hsame, if_pos le_rfl]
    push_cast
    rw [bound_zero]
    exact iff_of_true ⟨hlow, decide_eq_true hhigh⟩ trivial
  · rw [if_neg hsame] at hlast ⊢
    have hlt : low < high := lt_of_le_of_ne (hlow.trans hhigh) (Ne.symm hsame)
    rw [if_neg hsame, bucketOf_eq_iff hbuckets hlt hlow hhigh (by omega) (by omega)]
    refine and_congr_right fun _ => ?_
    by_cases htop : number = buckets
    · rw [if_pos htop, if_pos le_rfl, htop]
      exact iff_of_true (decide_eq_true hhigh) fun habsurd => absurd habsurd (lt_irrefl _)
    · have hless : (number : ℤ) < buckets := by omega
      rw [if_neg htop, if_neg (bound_lt_high hbuckets hlt hless).not_ge, decide_eq_true_iff]
      exact ⟨fun hupper _ => hupper, fun hupper => hupper hless⟩

theorem bucketNumber_mem (hbuckets : 1 ≤ buckets) (hlow : low ≤ value) (hhigh : value ≤ high) :
    ∃ part < bucketTotal low high buckets,
      bucketNumber low high buckets value = ((part + 1 : ℕ) : ℤ) := by
  unfold bucketNumber bucketTotal
  by_cases hsame : high = low
  · rw [if_pos hsame, if_pos hsame]
    exact ⟨0, Nat.one_pos, rfl⟩
  · rw [if_neg hsame, if_neg hsame]
    have hlt : low < high := lt_of_le_of_ne (hlow.trans hhigh) (Ne.symm hsame)
    obtain ⟨hone, hcount⟩ := bucketOf_mem hbuckets hlt hlow
    refine ⟨(bucketOf value low high buckets - 1).toNat, by omega, by omega⟩

end Bars

/-! ### The lists of the bars -/

section Lists

variable {postgres : Postgres} {metric : DistributionMetric} {rows : List RequestSpan}

theorem map_snd_scored :
    (scored metric rows).map Prod.snd = (traces rows).filterMap (requestValue metric rows) := by
  unfold scored
  rw [List.map_filterMap]
  refine List.filterMap_congr fun trace _ => ?_
  cases requestValue metric rows trace <;> rfl

theorem mem_requestsInMetricRange {lower upper : ℚ} {trace : String}
    (htrace : trace ∈ traces rows) :
    trace ∈ requestsInMetricRange ⟨metric, lower, upper⟩ rows ↔
      ∃ value ∈ requestValue metric rows trace, inMetricRange ⟨metric, lower, upper⟩
        ((traces rows).filterMap (requestValue metric rows)).max? value = true := by
  unfold requestsInMetricRange
  rw [map_snd_scored, List.mem_map]
  constructor
  · rintro ⟨⟨other, value⟩, hmem, rfl⟩
    obtain ⟨hscored, hrange⟩ := List.mem_filter.mp hmem
    obtain ⟨found, -, hvalue⟩ := List.mem_filterMap.mp hscored
    obtain ⟨read, hread, hpair⟩ := Option.map_eq_some_iff.mp hvalue
    cases hpair
    exact ⟨value, hread, hrange⟩
  · rintro ⟨value, hvalue, hrange⟩
    refine ⟨(trace, value), List.mem_filter.mpr ⟨List.mem_filterMap.mpr ⟨trace, htrace, ?_⟩,
      hrange⟩, rfl⟩
    rw [hvalue]
    rfl

theorem matched_onBar (bucket : Bucket) : matched postgres (onBar metric bucket) rows =
    ((traces rows).filter fun trace =>
      (requestsInMetricRange ⟨metric, bucket.lower, bucket.upper⟩ rows).contains trace).map
        (request rows) := by
  unfold matched
  rw [List.filter_map]
  refine congrArg (List.map (request rows)) (List.filter_congr fun trace _ => ?_)
  exact (Bool.and_true _).trans (Bool.and_true _)

section Bar

variable {low high : ℚ} {buckets part : ℕ} {trace : String}
  (hlow : ((traces rows).filterMap (requestValue metric rows)).min? = some low)
  (hhigh : ((traces rows).filterMap (requestValue metric rows)).max? = some high)
include hlow hhigh

theorem between_of_mem {value : ℚ} (htrace : trace ∈ traces rows)
    (hvalue : requestValue metric rows trace = some value) : low ≤ value ∧ value ≤ high := by
  have hmem : value ∈ (traces rows).filterMap (requestValue metric rows) :=
    List.mem_filterMap.mpr ⟨trace, htrace, hvalue⟩
  exact ⟨(List.min?_eq_some_iff.mp hlow).2 value hmem,
    (List.max?_eq_some_iff.mp hhigh).2 value hmem⟩

/-- The list of a bar has a request when the bar counts its value. -/
theorem mem_bar_iff (hbuckets : 1 ≤ buckets) (hpart : part < bucketTotal low high buckets)
    (values : List ℚ) (htrace : trace ∈ traces rows) :
    trace ∈ requestsInMetricRange ⟨metric, (bucket low high buckets values (part + 1)).lower,
        (bucket low high buckets values (part + 1)).upper⟩ rows ↔
      ∃ value ∈ requestValue metric rows trace,
        bucketNumber low high buckets value = ((part + 1 : ℕ) : ℤ) := by
  rw [mem_requestsInMetricRange htrace, hhigh]
  refine exists_congr fun value => and_congr_right fun hvalue => ?_
  obtain ⟨hge, hle⟩ := between_of_mem hlow hhigh htrace hvalue
  exact inMetricRange_iff metric values hbuckets hge hle (by omega) (by omega)

end Bar

end Lists

/-! ### All bars -/

section Main

variable {postgres : Postgres} {metric : DistributionMetric} {rows : List RequestSpan}

theorem chartAgrees_of_values {low high : ℚ} {buckets : ℕ} (hbuckets : 1 ≤ buckets)
    (hlow : ((traces rows).filterMap (requestValue metric rows)).min? = some low)
    (hhigh : ((traces rows).filterMap (requestValue metric rows)).max? = some high) :
    ChartAgrees postgres metric rows
      { requestCount := ((traces rows).filterMap (requestValue metric rows)).length
        min := some low
        max := some high
        buckets := (List.range (bucketTotal low high buckets)).map fun part =>
          bucket low high buckets ((traces rows).filterMap (requestValue metric rows))
            (part + 1) } := by
  generalize hvalues : (traces rows).filterMap (requestValue metric rows) = values
  have hpos : 0 < bucketTotal low high buckets := by
    unfold bucketTotal
    split_ifs <;> omega
  have hnumber {value : ℚ} (hmem : value ∈ values) : ∃ part < bucketTotal low high buckets,
      bucketNumber low high buckets value = ((part + 1 : ℕ) : ℤ) := by
    rw [hvalues] at hlow hhigh
    exact bucketNumber_mem hbuckets ((List.min?_eq_some_iff.mp hlow).2 value hmem)
      ((List.max?_eq_some_iff.mp hhigh).2 value hmem)
  have hbar {part : ℕ} (hpart : part < bucketTotal low high buckets) {trace : String}
      (htrace : trace ∈ traces rows) :=
    mem_bar_iff hlow hhigh hbuckets hpart values htrace
  constructor
  · -- every value is counted in one bar
    rw [List.map_map]
    refine Buckets.sum_map_countP fun value hmem => ?_
    obtain ⟨part, hpart, heq⟩ := hnumber hmem
    refine ⟨part, Buckets.filter_eq_singleton List.nodup_range (List.mem_range.mpr hpart) ?_⟩
    intro other _
    rw [heq, decide_eq_true_iff]
    omega
  · rw [List.head?_map, List.head?_range, if_neg hpos.ne']
    refine congrArg some ?_
    change bound low high _ ((0 + 1 : ℕ) - 1) = low
    rw [zero_add, Nat.cast_one, sub_self, bound_zero]
  · rw [List.getLast?_map, List.getLast?_range, if_neg hpos.ne']
    refine congrArg some (if_pos ?_)
    omega
  · intro trace htrace hsome
    obtain ⟨value, hvalue⟩ := Option.isSome_iff_exists.mp hsome
    obtain ⟨part, hpart, heq⟩ := hnumber
      (hvalues ▸ List.mem_filterMap.mpr ⟨trace, htrace, hvalue⟩ : value ∈ values)
    refine ⟨bucket low high buckets values (part + 1), ?_⟩
    rw [List.filter_map, Buckets.filter_eq_singleton List.nodup_range (List.mem_range.mpr hpart),
      List.map_singleton]
    intro other hother
    have hother := List.mem_range.mp hother
    have hmem : trace ∈ (matched postgres (onBar metric (bucket low high buckets values
        (other + 1))) rows).map Request.traceId ↔ trace ∈ requestsInMetricRange ⟨metric,
          (bucket low high buckets values (other + 1)).lower,
          (bucket low high buckets values (other + 1)).upper⟩ rows := by
      rw [matched_onBar, List.map_map, List.mem_map]
      constructor
      · rintro ⟨found, hfound, rfl⟩
        exact List.contains_iff_mem.mp (List.mem_filter.mp hfound).2
      · intro hrange
        exact ⟨trace, List.mem_filter.mpr ⟨htrace, List.contains_iff_mem.mpr hrange⟩, rfl⟩
    rw [Function.comp_apply, List.contains_iff_mem, hmem, hbar hother htrace]
    constructor
    · rintro ⟨read, hread, hnumber⟩
      rw [hvalue] at hread
      cases hread
      omega
    · rintro rfl
      exact ⟨value, hvalue, heq⟩
  · intro chosen hchosen
    obtain ⟨part, hpart, rfl⟩ := List.mem_map.mp hchosen
    have hpart := List.mem_range.mp hpart
    rw [matched_onBar, List.length_map, ← List.countP_eq_length_filter]
    constructor
    · change _ = values.countP _
      rw [← hvalues, List.countP_filterMap]
      refine List.countP_congr fun trace htrace => ?_
      rw [List.contains_iff_mem, hvalues, hbar hpart htrace]
      cases requestValue metric rows trace with
      | none => simp
      | some value => simp
    · intro request hrequest
      obtain ⟨trace, htrace, rfl⟩ := List.mem_map.mp hrequest
      obtain ⟨htrace, hlisted⟩ := List.mem_filter.mp htrace
      obtain ⟨value, hvalue, hrange⟩ := (mem_requestsInMetricRange htrace).mp
        (List.contains_iff_mem.mp hlisted)
      unfold inMetricRange at hrange
      obtain ⟨hge, hle⟩ := Bool.and_eq_true_iff.mp hrange
      refine ⟨value, hvalue, of_decide_eq_true hge, ?_⟩
      split_ifs at hle with htop
      · exact of_decide_eq_true hle
      · exact (of_decide_eq_true hle).le

theorem chartAgrees_of_no_values
    (hvalues : (traces rows).filterMap (requestValue metric rows) = []) :
    ChartAgrees postgres metric rows ⟨0, none, none, []⟩ where
  total := rfl
  first := rfl
  last := rfl
  once trace htrace hsome := by
    obtain ⟨value, hvalue⟩ := Option.isSome_iff_exists.mp hsome
    rw [List.filterMap_eq_nil_iff.mp hvalues trace htrace] at hvalue
    cases hvalue
  listed bucket hbucket := nomatch hbucket

/-- For all spans, the bars of a metric over a range partition the requests that have a value, and
the list of a bar has as many requests as the bar counts. -/
theorem histogramHolds (postgres : Postgres) (spans : List Span) (project : String)
    (range : TimeRange) (metric : DistributionMetric) (buckets : ℕ) :
    HistogramHolds postgres metric (projectRequestSpans postgres project range spans) buckets := by
  generalize projectRequestSpans postgres project range spans = rows
  unfold HistogramHolds distribution
  split_ifs with hbuckets
  · exact Nat.lt_one_iff.mp hbuckets
  · dsimp only
    by_cases hvalues : (traces rows).filterMap (requestValue metric rows) = []
    · rw [hvalues]
      exact chartAgrees_of_no_values hvalues
    · obtain ⟨low, hlow⟩ := Option.isSome_iff_exists.mp (List.isSome_min?_of_ne_nil hvalues)
      obtain ⟨high, hhigh⟩ := Option.isSome_iff_exists.mp (List.isSome_max?_of_ne_nil hvalues)
      have hagrees := @chartAgrees_of_values postgres _ _ _ _ _ (Nat.le_of_not_lt hbuckets) hlow
        hhigh
      rw [hlow, hhigh]
      exact hagrees

end Main

end CanyonOS.Distribution
