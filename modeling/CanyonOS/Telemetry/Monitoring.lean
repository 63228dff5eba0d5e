import Mathlib
import CanyonOS.Lib.Buckets
import CanyonOS.Telemetry.Rollups

/-!
# The series of the dashboard

A chart of at most about thirty cells is computed from rollups when its cells are of five minutes
or more, and from the points themselves otherwise (`monitoring.repo.ts`, `time-range.ts`). Of cells
that hold whole five minutes both would say the same, if the points were sorted into cells by their
times: the query sorts them by their times in microseconds.
-/

namespace CanyonOS.Monitoring

open JsValue Telemetry.Rollups

/-! ### Time -/

/-- `ROLLUP_SECONDS`. -/
def rollupSeconds : ℕ := 300

/-- A second, of the microseconds that timestamps are numbers of. -/
def second : ℤ := 1000000

def day : ℤ := 86400 * second

/-- The five minutes of a rollup. -/
def rollupMicros : ℤ := rollupSeconds * second

/-- What the queries use of Postgres. -/
structure Postgres where
  /-- `to_timestamp(nanos / 1e9)` -/
  toTimestamp : ℕ → ℤ
  toTimestamp_mono : Monotone toTimestamp
  toTimestamp_bucket : ∀ bucket : ℕ, toTimestamp (bucket * rollupNanos) = bucket * rollupMicros
  /-- a time that was sent, in seconds, as a `timestamptz` -/
  timestamptz : ℚ → ℤ
  timestamptz_near : ∀ time, |timestamptz time - time * 1000000| ≤ 1
  /-- `attributes ->> key` -/
  text : Attributes → CodeUnits → Option CodeUnits
  text_same : ∀ attributes others, attributes.Same others → ∀ key,
    text attributes key = text others key

/-- A time zone whose offsets are whole five minutes, and whose clocks change at whole five minutes
and never back into a day that is over. -/
structure Zone where
  /-- what local time is ahead at an instant -/
  offset : ℤ → ℤ
  /-- the instant of a local time -/
  instant : ℤ → ℤ
  offset_dvd : ∀ instant, rollupMicros ∣ offset instant
  offset_steady : ∀ instant, offset instant = offset (instant / rollupMicros * rollupMicros)
  days_mono : Monotone fun instant => (instant + offset instant) / day

/-- `Date.parse`, in milliseconds. -/
def dateParse (time : ℚ) : ℤ :=
  ⌊time * 1000⌋

/-- `unix_nanos`. -/
def unixNanos (time : ℚ) : ℤ :=
  dateParse time * 1000000

/-- `EARLIEST_FROM`, parsed. -/
def earliestFrom : ℤ := 946684800000

/-- A query, its times in seconds with as many digits as were sent, in the order that `RANGE_RULES`
ask for. -/
structure GridQuery where
  fromTime : ℚ
  toTime : ℚ
  zone : Zone
  earlier : dateParse fromTime < dateParse toTime
  recent : earliestFrom ≤ dateParse fromTime

/-! ### The grid -/

/-- `STEP_MINUTES`. -/
def stepMinutes : List ℕ := [1, 5, 15, 30, 60, 180, 360, 720, 1440, 4320]

/-- `TARGET_POINTS`. -/
def targetPoints : ℕ := 30

def rangeSeconds (query : GridQuery) : ℚ :=
  (dateParse query.toTime - dateParse query.fromTime) / 1000

def bucketSeconds (query : GridQuery) : ℕ :=
  let wanted := rangeSeconds query / 60 / targetPoints
  (stepMinutes.find? fun step : ℕ => wanted ≤ (step : ℚ)).getD 4320 * 60

/-- `DAY_SECONDS`. -/
def daySeconds : ℕ := 86400

structure Grid where
  count : ℤ
  bucketStart : ℤ → ℤ
  position : ℤ → ℤ

def realTimeGrid (fromStamp toStamp : ℤ) (zone : Zone) (widthSeconds : ℕ) : Grid :=
  let width := widthSeconds * second
  let localFrom := fromStamp + zone.offset fromStamp
  let origin := localFrom / day * day - zone.offset fromStamp
  let first := origin + (fromStamp - origin) / width * width
  { count := -((first - toStamp) / width)
    bucketStart := fun slot => first + (slot - 1) * width
    position := fun stamp => (stamp - first) / width + 1 }

/-- The days from 1970-01-01 to 2000-01-01. -/
def daysBefore2000 : ℤ := 10957

def localDayGrid (fromStamp toStamp : ℤ) (zone : Zone) (widthDays : ℕ) : Grid :=
  let dayOf := fun stamp => ((stamp + zone.offset stamp) / day - daysBefore2000) / widthDays
  let first := dayOf fromStamp
  { count := dayOf (toStamp - 1) - first + 1
    bucketStart := fun slot =>
      zone.instant ((daysBefore2000 + (first + slot - 1) * widthDays) * day)
    position := fun stamp => dayOf stamp - first + 1 }

def Grid.index (grid : Grid) (stamp : ℤ) : ℤ :=
  min (max (grid.position stamp) 1) grid.count

/-- `generate_series(1, count)`. -/
def Grid.slots (grid : Grid) : List ℤ :=
  (List.range grid.count.toNat).map fun slot : ℕ => (slot : ℤ) + 1

section Queries

variable (postgres : Postgres)

def timeGrid (query : GridQuery) : Grid :=
  let fromStamp := postgres.timestamptz query.fromTime
  let toStamp := postgres.timestamptz query.toTime
  if bucketSeconds query < daySeconds then
    realTimeGrid fromStamp toStamp query.zone (bucketSeconds query)
  else localDayGrid fromStamp toStamp query.zone (bucketSeconds query / daySeconds)

/-! ### Samples -/

/-- `MACHINE_UTILIZATION_METRICS`. -/
def machineUtilizationMetrics : List (CodeUnits × CodeUnits) :=
  [(ascii "cpu", ascii "canyonos.machine.cpu.utilization"),
    (ascii "memory", ascii "canyonos.machine.memory.utilization"),
    (ascii "disk", ascii "canyonos.machine.disk.utilization"),
    (ascii "gpu", ascii "canyonos.machine.gpu.utilization")]

/-- `SATURATION_METRIC`. -/
def saturationMetric : CodeUnits :=
  ascii "canyonos.machine.cpu.utilization"

/-- `RESOURCE_PROJECT_ATTRIBUTE`. -/
def resourceProjectAttribute : CodeUnits :=
  ascii "canyonos.project.id"

/-- `UNKNOWN_HOST`. -/
def unknownHost : CodeUnits :=
  ascii "unknown"

/-- A reading, of a point or of the points of a rollup. -/
structure MetricSample where
  key : CodeUnits
  resource : Option CodeUnits
  sum : ℚ
  count : ℕ
  max : ℚ
  lastValue : ℚ
  lastTime : ℕ
  bucket : ℤ

def sampleKey (series : Series) : CodeUnits :=
  (((postgres.text series.resourceAttributes (ascii "host.name")).filter (· ≠ [])).or
    series.serviceName).getD unknownHost

/-- `resource_case`. -/
def resourceCase (metricName : CodeUnits) : Option CodeUnits :=
  (machineUtilizationMetrics.find? fun entry => entry.2 = metricName).map Prod.fst

/-- Which rows a query reads, by their metric and their series. -/
abbrev Scope := CodeUnits → Series → Bool

def scope (projectId : CodeUnits) (metricNames : List CodeUnits) : Scope :=
  fun metricName series => metricNames.contains metricName &&
    postgres.text series.resourceAttributes resourceProjectAttribute = some projectId

def rawSample (grid : Grid) (row : MetricRow) : MetricSample where
  key := sampleKey postgres row.series
  resource := resourceCase row.metricName
  sum := row.value
  count := 1
  max := row.value
  lastValue := row.value
  lastTime := row.timeUnixNano
  bucket := grid.index (postgres.toTimestamp row.timeUnixNano)

/-- The points of a half-open range, each a sample. -/
def rawSamples (grid : Grid) (scope : Scope) (fromNanos toNanos : ℤ) (rows : List MetricRow) :
    List MetricSample :=
  (rows.filter fun row => scope row.metricName row.series &&
    (fromNanos ≤ row.timeUnixNano && row.timeUnixNano < toNanos)).map (rawSample postgres grid)

def rollupSample (grid : Grid) (rollup : RollupRow) : MetricSample where
  key := sampleKey postgres rollup.series
  resource := resourceCase rollup.metricName
  sum := rollup.sum
  count := rollup.count
  max := rollup.max
  lastValue := rollup.lastValue
  lastTime := rollup.lastTime
  bucket := grid.index (postgres.toTimestamp rollup.bucketStartUnixNano)

def rollupSamples (grid : Grid) (scope : Scope) (query : GridQuery) (rollups : List RollupRow) :
    List MetricSample :=
  (rollups.filter fun rollup => scope rollup.metricName rollup.series &&
    (bucketStartOf (unixNanos query.fromTime).toNat ≤ rollup.bucketStartUnixNano &&
      rollup.bucketStartUnixNano < unixNanos query.toTime)).map (rollupSample postgres grid)

def metricSamples (query : GridQuery) (scope : Scope) (database : Database) : List MetricSample :=
  let grid := timeGrid postgres query
  if bucketSeconds query < rollupSeconds then
    rawSamples postgres grid scope (postgres.timestamptz query.fromTime * 1000)
      (postgres.timestamptz query.toTime * 1000) database.otelMetrics
  else rollupSamples postgres grid scope query database.otelMetricRollups

/-! ### Series -/

/-- A cell of a chart: where it starts, how many points it is of, and their average. -/
structure Cell where
  start : ℤ
  points : ℕ
  average : Option ℚ

def cell (grid : Grid) (samples : List MetricSample) (slot : ℤ) : Cell :=
  let inside := samples.filter (·.bucket = slot)
  { start := grid.bucketStart slot
    points := (inside.map MetricSample.count).sum
    average :=
      if inside.isEmpty then none
      else some ((inside.map MetricSample.sum).sum / (inside.map MetricSample.count).sum) }

def series (grid : Grid) (samples : List MetricSample) : List Cell :=
  grid.slots.map (cell grid samples)

/-- The saturation of `series_sql`. -/
def saturation (query : GridQuery) (samples : Scope → List MetricSample) (projectId : CodeUnits) :
    List Cell :=
  series (timeGrid postgres query) (samples (scope postgres projectId [saturationMetric]))

/-- The values of one machine and resource in `resource_utilization_sql`. -/
def machineValues (query : GridQuery) (samples : Scope → List MetricSample) (projectId : CodeUnits)
    (key : CodeUnits) (resource : Option CodeUnits) : List Cell :=
  series (timeGrid postgres query)
    ((samples (scope postgres projectId (machineUtilizationMetrics.map Prod.snd))).filter
      fun sample => sample.key = key && sample.resource = resource)

/-- The points of a range widened to five-minute boundaries, each a sample. -/
def widenedSamples (query : GridQuery) (scope : Scope) (database : Database) : List MetricSample :=
  rawSamples postgres (timeGrid postgres query) scope
    (⌊query.fromTime / rollupSeconds⌋ * rollupNanos)
    (⌈query.toTime / rollupSeconds⌉ * rollupNanos) database.otelMetrics

/-- The charts of a project are the same from rollups and from points: the same cells, and in each
the same average of as many points. -/
structure SeriesAgree (query : GridQuery) (projectId : CodeUnits) (database : Database) : Prop where
  saturation :
    saturation postgres query (metricSamples postgres query · database) projectId =
      saturation postgres query (widenedSamples postgres query · database) projectId
  machines : ∀ key resource,
    machineValues postgres query (metricSamples postgres query · database) projectId key resource =
      machineValues postgres query (widenedSamples postgres query · database) projectId key resource

/-! ### When they agree -/

/-- Whether a point is one that the charts of a range are of, widened to five-minute boundaries. -/
def Charted (query : GridQuery) (scope : Scope) (row : MetricRow) : Bool :=
  scope row.metricName row.series &&
    (⌊query.fromTime / rollupSeconds⌋ * rollupNanos ≤ (row.timeUnixNano : ℤ) &&
      (row.timeUnixNano : ℤ) < ⌈query.toTime / rollupSeconds⌉ * rollupNanos)

/-- Whether the end of the range, in whole milliseconds, is after the start of a point's five
minutes. -/
def InRange (query : GridQuery) (row : MetricRow) : Bool :=
  bucketStartOf row.timeUnixNano < unixNanos query.toTime

/-- The start of the five minutes after those of a point. -/
def nextBucket (row : MetricRow) : ℤ :=
  postgres.toTimestamp (bucketStartOf row.timeUnixNano) + rollupMicros

/-- A point is in the range that rollups are read for, and its time in microseconds is still in its
five minutes, or those that follow are in the same cell. -/
def Kept (query : GridQuery) (row : MetricRow) : Prop :=
  InRange query row ∧ (postgres.toTimestamp row.timeUnixNano = nextBucket postgres row →
    (timeGrid postgres query).index (nextBucket postgres row) =
      (timeGrid postgres query).index (postgres.toTimestamp (bucketStartOf row.timeUnixNano)))

def HoldsWhen (query : GridQuery) (projectId : CodeUnits) (database : Database) : Prop :=
  ∀ row ∈ database.otelMetrics,
    Charted query (scope postgres projectId (machineUtilizationMetrics.map Prod.snd)) row →
      Kept postgres query row

end Queries

/-! ### Steps -/

theorem rollupMicros_pos : 0 < rollupMicros := by decide

theorem rollupMicros_dvd_day : rollupMicros ∣ day := by decide

theorem step_mem (query : GridQuery) : ∃ step ∈ stepMinutes, bucketSeconds query = step * 60 := by
  unfold bucketSeconds
  dsimp only
  generalize rangeSeconds query / 60 / targetPoints = wanted
  cases hfind : stepMinutes.find? fun step : ℕ => wanted ≤ (step : ℚ) with
  | none => exact ⟨4320, by decide, rfl⟩
  | some step => exact ⟨step, List.mem_of_find?_eq_some hfind, rfl⟩

/-- Steps of five minutes or more are whole five minutes, and those of a day or more whole days. -/
theorem dvd_bucketSeconds {query : GridQuery} (hstep : rollupSeconds ≤ bucketSeconds query) :
    rollupSeconds ∣ bucketSeconds query ∧
      (daySeconds ≤ bucketSeconds query → daySeconds ∣ bucketSeconds query) := by
  obtain ⟨step, hmem, heq⟩ := step_mem query
  rw [heq] at hstep ⊢
  fin_cases hmem <;> revert hstep <;> decide

/-- A range with such a step is of more than half an hour. -/
theorem lt_range {query : GridQuery} (hstep : rollupSeconds ≤ bucketSeconds query) :
    dateParse query.fromTime + 1800000 < dateParse query.toTime := by
  by_contra hle
  have hwanted : rangeSeconds query / 60 / targetPoints ≤ ((1 : ℕ) : ℚ) := by
    have hcast : ((dateParse query.toTime : ℚ)) ≤ dateParse query.fromTime + 1800000 := by
      exact_mod_cast not_lt.mp hle
    unfold rangeSeconds targetPoints
    rw [div_div, div_div, div_le_iff₀ (by norm_num)]
    push_cast
    linarith
  have hfind : (stepMinutes.find? fun step : ℕ =>
      rangeSeconds query / 60 / targetPoints ≤ (step : ℚ)) = some 1 :=
    List.find?_cons_of_pos (decide_eq_true hwanted)
  have hone : bucketSeconds query = 60 := by
    unfold bucketSeconds
    dsimp only
    rw [hfind]
    rfl
  rw [hone] at hstep
  exact absurd hstep (by decide)

theorem lt_timestamptz (postgres : Postgres) {query : GridQuery}
    (hstep : rollupSeconds ≤ bucketSeconds query) :
    postgres.timestamptz query.fromTime < postgres.timestamptz query.toTime := by
  have hrange : ((dateParse query.fromTime : ℤ) : ℚ) + 1800000 < (dateParse query.toTime : ℤ) := by
    exact_mod_cast lt_range hstep
  have hfrom : query.fromTime * 1000 < dateParse query.fromTime + 1 := Int.lt_floor_add_one _
  have hto : (dateParse query.toTime : ℚ) ≤ query.toTime * 1000 := Int.floor_le _
  have hnearFrom := (abs_le.mp (postgres.timestamptz_near query.fromTime)).2
  have hnearTo := (abs_le.mp (postgres.timestamptz_near query.toTime)).1
  have hlt : (postgres.timestamptz query.fromTime : ℚ) < postgres.timestamptz query.toTime := by
    linarith
  exact_mod_cast hlt

/-! ### Cells -/

/-- A grid whose cells hold whole five minutes, one after the other. -/
structure Sound (grid : Grid) : Prop where
  count_pos : 1 ≤ grid.count
  position_mono : Monotone grid.position
  whole : ∀ start stamp, rollupMicros ∣ start → start ≤ stamp → stamp < start + rollupMicros →
    grid.position stamp = grid.position start

theorem offset_eq_of_bucket (zone : Zone) {start stamp : ℤ} (hstart : rollupMicros ∣ start)
    (hle : start ≤ stamp) (hlt : stamp < start + rollupMicros) :
    zone.offset stamp = zone.offset start := by
  have hdiv : stamp / rollupMicros = start / rollupMicros :=
    Buckets.ediv_eq_ediv_of_lt rollupMicros_pos hstart dvd_rfl hle hlt
  rw [zone.offset_steady stamp, zone.offset_steady start, hdiv]

theorem dvd_localMidnight (stamp : ℤ) (zone : Zone) :
    rollupMicros ∣ (stamp + zone.offset stamp) / day * day - zone.offset stamp :=
  Int.dvd_sub (rollupMicros_dvd_day.mul_left _) (zone.offset_dvd stamp)

theorem sound_realTimeGrid {fromStamp toStamp : ℤ} (zone : Zone) {widthSeconds : ℕ}
    (hlt : fromStamp < toStamp) (hpos : 0 < widthSeconds) (hwidth : rollupSeconds ∣ widthSeconds) :
    Sound (realTimeGrid fromStamp toStamp zone widthSeconds) := by
  have hwidthPos : 0 < (widthSeconds : ℤ) * second := by
    have hsecond : 0 < second := by decide
    positivity
  have hunit : rollupMicros ∣ widthSeconds * second :=
    mul_dvd_mul_right (Int.natCast_dvd_natCast.mpr hwidth) second
  unfold realTimeGrid
  dsimp only
  generalize hlocal :
    (fromStamp + zone.offset fromStamp) / day * day - zone.offset fromStamp = origin
  have horigin : rollupMicros ∣ origin := hlocal ▸ dvd_localMidnight fromStamp zone
  generalize hfirst : origin + (fromStamp - origin) / (widthSeconds * second) *
    (widthSeconds * second) = first
  have hfirstDvd : rollupMicros ∣ first := hfirst ▸ Int.dvd_add horigin (hunit.mul_left _)
  have hfirstLe : first ≤ fromStamp := by
    have hle := Int.ediv_mul_le (fromStamp - origin) hwidthPos.ne'
    omega
  constructor
  · have hneg : (first - toStamp) / (widthSeconds * second) < 0 :=
      Int.ediv_neg_of_neg_of_pos (by omega) hwidthPos
    show 1 ≤ -((first - toStamp) / (widthSeconds * second))
    omega
  · intro stamp later hle
    exact Int.add_le_add_right (Int.ediv_le_ediv hwidthPos (by omega)) 1
  · intro start stamp hstart hle hstop
    exact congrArg (· + 1) (Buckets.ediv_eq_ediv_of_lt rollupMicros_pos
      (Int.dvd_sub hstart hfirstDvd) hunit (by omega) (by omega))

theorem sound_localDayGrid {fromStamp toStamp : ℤ} (zone : Zone) {widthDays : ℕ}
    (hlt : fromStamp < toStamp) : Sound (localDayGrid fromStamp toStamp zone widthDays) := by
  have hmono : Monotone fun stamp =>
      ((stamp + zone.offset stamp) / day - daysBefore2000) / (widthDays : ℤ) := by
    intro stamp later hle
    obtain hzero | hpos := Nat.eq_zero_or_pos widthDays
    · simp [hzero]
    · refine Int.ediv_le_ediv (Int.natCast_pos.mpr hpos) ?_
      have hdays := zone.days_mono hle
      dsimp only at hdays
      omega
  unfold localDayGrid
  constructor
  · have hle := hmono (Int.le_sub_one_of_lt hlt)
    dsimp only at hle ⊢
    omega
  · intro stamp later hle
    have hdays := hmono hle
    dsimp only at hdays ⊢
    omega
  · intro start stamp hstart hle hstop
    have hoffset := offset_eq_of_bucket zone hstart hle hstop
    have hday : (stamp + zone.offset stamp) / day = (start + zone.offset start) / day := by
      rw [hoffset]
      exact Buckets.ediv_eq_ediv_of_lt rollupMicros_pos (Int.dvd_add hstart (zone.offset_dvd start))
        rollupMicros_dvd_day (by omega) (by omega)
    dsimp only
    rw [hday]

theorem sound_timeGrid (postgres : Postgres) {query : GridQuery}
    (hstep : rollupSeconds ≤ bucketSeconds query) : Sound (timeGrid postgres query) := by
  have hlt := lt_timestamptz postgres hstep
  unfold timeGrid
  dsimp only
  split_ifs
  · exact sound_realTimeGrid query.zone hlt (lt_of_lt_of_le (by decide) hstep)
      (dvd_bucketSeconds hstep).1
  · exact sound_localDayGrid query.zone hlt

namespace Sound

variable {grid : Grid} (hsound : Sound grid)

include hsound

theorem index_mono : Monotone grid.index := by
  intro stamp later hle
  have hposition := hsound.position_mono hle
  unfold Grid.index
  omega

theorem index_mem_slots (stamp : ℤ) : grid.index stamp ∈ grid.slots := by
  have hcount := hsound.count_pos
  unfold Grid.slots
  rw [List.mem_map]
  refine ⟨(grid.index stamp - 1).toNat, List.mem_range.mpr ?_, ?_⟩ <;>
    · unfold Grid.index
      omega

theorem index_eq_of_bucket {start stamp : ℤ} (hstart : rollupMicros ∣ start) (hle : start ≤ stamp)
    (hlt : stamp < start + rollupMicros) : grid.index stamp = grid.index start := by
  unfold Grid.index
  rw [hsound.whole start stamp hstart hle hlt]

end Sound

/-! ### Rollups and points -/

/-- A scope that does not tell apart what the database does not. -/
def Respects (scope : Scope) : Prop :=
  ∀ metricName first second, Series.Same first second →
    scope metricName first = scope metricName second

section Reading

variable (postgres : Postgres) (query : GridQuery) (scope : Scope) (database : Database)

/-- The cell of the start of a point's five minutes. -/
def cellOfBucket (row : MetricRow) : ℤ :=
  (timeGrid postgres query).index (postgres.toTimestamp (bucketStartOf row.timeUnixNano))

/-- The cell of a point's time in microseconds. -/
def cellOfTime (row : MetricRow) : ℤ :=
  (timeGrid postgres query).index (postgres.toTimestamp row.timeUnixNano)

/-- The points whose rollups are read. -/
def rolledUp : List MetricRow :=
  (database.otelMetrics.filter (Charted query scope)).filter (InRange query)

variable {postgres query scope database}

/-- The times of a widened range are those of whole buckets. -/
theorem bucketStartOf_unixNanos : (bucketStartOf (unixNanos query.fromTime).toNat : ℤ) =
    ⌊query.fromTime / rollupSeconds⌋ * rollupNanos := by
  have hpos : 0 ≤ dateParse query.fromTime := le_trans (by decide) query.recent
  have hfloor : ⌊query.fromTime / rollupSeconds⌋ = dateParse query.fromTime / 300000 := by
    have hscale : query.fromTime / rollupSeconds = query.fromTime * 1000 / ((300000 : ℕ) : ℚ) := by
      rw [rollupSeconds]
      push_cast
      ring
    rw [hscale, Int.floor_div_natCast]
    rfl
  rw [hfloor]
  unfold bucketStartOf unixNanos rollupNanos
  omega

theorem le_bucketStartOf_iff {bound time : ℕ} (hbound : rollupNanos ∣ bound) :
    bound ≤ bucketStartOf time ↔ bound ≤ time := by
  obtain ⟨factor, rfl⟩ := hbound
  unfold bucketStartOf rollupNanos
  omega

theorem unixNanos_le : unixNanos query.toTime ≤ ⌈query.toTime / rollupSeconds⌉ * rollupNanos := by
  have hfloor : (dateParse query.toTime : ℚ) ≤ query.toTime * 1000 := Int.floor_le _
  have hceil : query.toTime / rollupSeconds ≤ ⌈query.toTime / rollupSeconds⌉ := Int.le_ceil _
  have hle : (unixNanos query.toTime : ℚ) ≤
      ((⌈query.toTime / rollupSeconds⌉ * rollupNanos : ℤ) : ℚ) := by
    unfold unixNanos rollupNanos
    rw [rollupSeconds] at hceil ⊢
    push_cast at hceil ⊢
    linarith
  exact_mod_cast hle

theorem eq_bucketStartOf_of_covers {rollup : RollupRow} {row : MetricRow}
    (haligned : rollupNanos ∣ rollup.bucketStartUnixNano) (hcovers : rollup.Covers row) :
    rollup.bucketStartUnixNano = bucketStartOf row.timeUnixNano :=
  ((bucketStartOf_eq_iff haligned).mpr hcovers.2.2).symm

/-- A rollup is read exactly where its points are. -/
theorem read_eq (hrespects : Respects scope) {rollup : RollupRow} {row : MetricRow}
    (haligned : rollupNanos ∣ rollup.bucketStartUnixNano) (hcovers : rollup.Covers row) :
    (scope rollup.metricName rollup.series &&
      (bucketStartOf (unixNanos query.fromTime).toNat ≤ rollup.bucketStartUnixNano &&
        (rollup.bucketStartUnixNano < unixNanos query.toTime : Bool))) =
      (InRange query row && Charted query scope row) := by
  have hbucket := eq_bucketStartOf_of_covers haligned hcovers
  obtain ⟨hmetric, hseries, -⟩ := hcovers
  have hlower : bucketStartOf (unixNanos query.fromTime).toNat ≤ bucketStartOf row.timeUnixNano ↔
      ⌊query.fromTime / rollupSeconds⌋ * rollupNanos ≤ (row.timeUnixNano : ℤ) := by
    rw [le_bucketStartOf_iff (dvd_bucketStartOf _), ← bucketStartOf_unixNanos, Nat.cast_le]
  have hupper : (bucketStartOf row.timeUnixNano : ℤ) < unixNanos query.toTime →
      (row.timeUnixNano : ℤ) < ⌈query.toTime / rollupSeconds⌉ * rollupNanos := by
    intro hlt
    have hbound := lt_of_lt_of_le hlt unixNanos_le
    generalize ⌈query.toTime / rollupSeconds⌉ = last at hbound
    unfold bucketStartOf rollupNanos at hbound
    unfold rollupNanos
    omega
  unfold InRange Charted
  rw [hbucket, hrespects _ _ _ hseries, hmetric, Bool.eq_iff_iff]
  simp only [Bool.and_eq_true, decide_eq_true_eq, hlower]
  constructor
  · rintro ⟨hscope, hle, hlt⟩
    exact ⟨hlt, hscope, hle, hupper hlt⟩
  · rintro ⟨hlt, hscope, hle, -⟩
    exact ⟨hscope, hle, hlt⟩

variable (postgres query) in
open Classical in
/-- What the rollups of a cell add up to, their points do. -/
theorem sum_rollupSamples {Value : Type*} [AddCommMonoid Value] (hrespects : Respects scope)
    (hrollups : database.RollupsEqualRaw) (ofSample : MetricSample → Value)
    (ofRow : MetricRow → Value) (hvalue : ∀ rollup ∈ database.otelMetricRollups,
      ofSample (rollupSample postgres (timeGrid postgres query) rollup) =
        ((database.covered rollup).map ofRow).sum) (slot : ℤ) :
    (((rollupSamples postgres (timeGrid postgres query) scope query
      database.otelMetricRollups).filter (·.bucket = slot)).map ofSample).sum =
      (((rolledUp query scope database).filter (cellOfBucket postgres query · = slot)).map
        ofRow).sum := by
  have hcovered := @Buckets.sum_map_sum_covered _ _ _ _ database.otelMetricRollups
    database.otelMetrics (fun rollup row => decide (rollup.Covers row))
    (fun rollup => decide ((timeGrid postgres query).index
        (postgres.toTimestamp rollup.bucketStartUnixNano) = slot) &&
      (scope rollup.metricName rollup.series &&
        (bucketStartOf (unixNanos query.fromTime).toNat ≤ rollup.bucketStartUnixNano &&
          rollup.bucketStartUnixNano < unixNanos query.toTime)))
    (fun row => decide (cellOfBucket postgres query row = slot) && InRange query row &&
      Charted query scope row) ofRow hrollups.once ?_
  · rw [rolledUp, List.filter_filter, List.filter_filter, ← hcovered, rollupSamples,
      List.filter_map, List.filter_filter, List.map_map]
    refine congrArg List.sum (List.map_congr_left fun rollup hrollup => ?_)
    exact hvalue rollup (List.mem_of_mem_filter hrollup)
  · intro rollup hrollup row hcovers
    have hcovers := of_decide_eq_true hcovers
    have haligned := hrollups.aligned rollup hrollup
    rw [read_eq hrespects haligned hcovers, cellOfBucket,
      eq_bucketStartOf_of_covers haligned hcovers, Bool.and_assoc]

theorem count_pos_of_mem_rollupSamples (hrollups : database.RollupsEqualRaw)
    {sample : MetricSample} (hsample : sample ∈ rollupSamples postgres (timeGrid postgres query)
      scope query database.otelMetricRollups) : 0 < sample.count := by
  obtain ⟨rollup, hmem, rfl⟩ := List.mem_map.mp hsample
  have hsummary := hrollups.summarizes rollup (List.mem_of_mem_filter hmem)
  have hne : (database.covered rollup).map MetricRow.sample ≠ [] := hsummary.ne_nil
  change 0 < rollup.count
  rw [hsummary.count]
  exact List.length_pos_iff.mpr hne

theorem points_rollupSamples (hrespects : Respects scope) (hrollups : database.RollupsEqualRaw)
    (slot : ℤ) :
    (cell (timeGrid postgres query) (rollupSamples postgres (timeGrid postgres query) scope query
      database.otelMetricRollups) slot).points =
      ((rolledUp query scope database).map (cellOfBucket postgres query)).count slot := by
  have hsum := sum_rollupSamples postgres query hrespects hrollups MetricSample.count (fun _ => 1)
    (fun rollup hrollup => ?_) slot
  · rw [List.map_const', List.sum_replicate, smul_eq_mul, mul_one] at hsum
    rw [List.count_eq_countP, List.countP_map, List.countP_eq_length_filter]
    exact hsum
  · rw [List.map_const', List.sum_replicate, smul_eq_mul, mul_one]
    exact (hrollups.summarizes rollup hrollup).count.trans (List.length_map _)

theorem points_widenedSamples (slot : ℤ) :
    (cell (timeGrid postgres query) (widenedSamples postgres query scope database) slot).points =
      ((database.otelMetrics.filter (Charted query scope)).map
        (cellOfTime postgres query)).count slot := by
  unfold cell widenedSamples rawSamples
  dsimp only
  rw [List.filter_map, List.map_map, List.count_eq_countP, List.countP_map,
    List.countP_eq_length_filter]
  change (List.map (fun _ => 1) _).sum = _
  rw [List.map_const', List.sum_replicate, smul_eq_mul, mul_one]
  rfl

theorem sum_widenedSamples (slot : ℤ) :
    (((widenedSamples postgres query scope database).filter (·.bucket = slot)).map
      MetricSample.sum).sum =
      (((database.otelMetrics.filter (Charted query scope)).filter
        (cellOfTime postgres query · = slot)).map MetricRow.value).sum := by
  unfold widenedSamples rawSamples
  rw [List.filter_map, List.map_map]
  rfl

/-- A cell is told by its points and their sum. -/
theorem cell_eq {grid : Grid} {samples others : List MetricSample} {slot : ℤ}
    (hsamples : ∀ sample ∈ samples, 0 < sample.count)
    (hothers : ∀ sample ∈ others, 0 < sample.count)
    (hpoints : (cell grid samples slot).points = (cell grid others slot).points)
    (hsum : ((samples.filter (·.bucket = slot)).map MetricSample.sum).sum =
      ((others.filter (·.bucket = slot)).map MetricSample.sum).sum) :
    cell grid samples slot = cell grid others slot := by
  have hempty : ∀ list : List MetricSample, (∀ sample ∈ list, 0 < sample.count) →
      (list.filter (·.bucket = slot)).isEmpty = decide ((cell grid list slot).points = 0) := by
    intro list hpos
    rw [Bool.eq_iff_iff, List.isEmpty_iff, decide_eq_true_eq]
    constructor
    · intro hnil
      simp only [cell, hnil, List.map_nil, List.sum_nil]
    · intro hzero
      refine List.eq_nil_iff_forall_not_mem.mpr fun sample hsample => ?_
      have hcount := List.sum_eq_zero_iff.mp hzero sample.count (List.mem_map_of_mem hsample)
      exact (hpos sample (List.mem_of_mem_filter hsample)).ne' hcount
  have hboth := hempty samples hsamples
  rw [hpoints, ← hempty others hothers] at hboth
  unfold cell at hpoints ⊢
  dsimp only at hpoints ⊢
  rw [hpoints, hsum, hboth]

theorem toTimestamp_nextBucket (row : MetricRow) :
    postgres.toTimestamp (bucketStartOf row.timeUnixNano + rollupNanos) =
      nextBucket postgres row := by
  obtain ⟨bucket, hbucket⟩ := dvd_bucketStartOf row.timeUnixNano
  rw [Nat.mul_comm] at hbucket
  have hnext : bucket * rollupNanos + rollupNanos = (bucket + 1) * rollupNanos := by ring
  rw [nextBucket, hbucket, hnext, postgres.toTimestamp_bucket, postgres.toTimestamp_bucket]
  push_cast
  ring

/-- The time of a point in microseconds is in its five minutes or at their end. -/
theorem toTimestamp_mem (row : MetricRow) :
    postgres.toTimestamp (bucketStartOf row.timeUnixNano) ≤ postgres.toTimestamp row.timeUnixNano ∧
      postgres.toTimestamp row.timeUnixNano ≤ nextBucket postgres row := by
  have htime := (bucketStartOf_eq_iff (dvd_bucketStartOf row.timeUnixNano)).mp rfl
  exact ⟨postgres.toTimestamp_mono htime.1,
    toTimestamp_nextBucket row ▸ postgres.toTimestamp_mono htime.2.le⟩

theorem dvd_toTimestamp (row : MetricRow) :
    rollupMicros ∣ postgres.toTimestamp (bucketStartOf row.timeUnixNano) := by
  obtain ⟨bucket, hbucket⟩ := dvd_bucketStartOf row.timeUnixNano
  rw [hbucket, mul_comm, postgres.toTimestamp_bucket]
  exact dvd_mul_left _ _

theorem kept_iff (hsound : Sound (timeGrid postgres query)) (row : MetricRow) :
    Kept postgres query row ↔ InRange query row = true ∧
      cellOfTime postgres query row = cellOfBucket postgres query row := by
  refine and_congr_right fun _ => ?_
  obtain ⟨hle, hnext⟩ := @toTimestamp_mem postgres row
  constructor
  · intro hkept
    obtain hlt | heq := hnext.lt_or_eq
    · exact hsound.index_eq_of_bucket (dvd_toTimestamp row) hle hlt
    · unfold cellOfTime
      rw [heq]
      exact hkept heq
  · intro hsame heq
    unfold cellOfTime at hsame
    rw [← heq]
    exact hsame

/-- Two readings of one scope agree exactly where every point is kept. -/
theorem series_eq_iff (hstep : rollupSeconds ≤ bucketSeconds query) (hrespects : Respects scope)
    (hrollups : database.RollupsEqualRaw) :
    series (timeGrid postgres query) (rollupSamples postgres (timeGrid postgres query) scope query
      database.otelMetricRollups) =
      series (timeGrid postgres query) (widenedSamples postgres query scope database) ↔
      ∀ row ∈ database.otelMetrics.filter (Charted query scope), Kept postgres query row := by
  have hsound := sound_timeGrid postgres hstep
  have hmoves : ∀ row ∈ database.otelMetrics.filter (Charted query scope),
      cellOfBucket postgres query row ≤ cellOfTime postgres query row :=
    fun row _ => hsound.index_mono (toTimestamp_mem row).1
  have hcount := @Buckets.count_eq_iff _ _ (InRange query) _ _ hmoves
  have hkept : (∀ row ∈ database.otelMetrics.filter (Charted query scope),
      Kept postgres query row) ↔ ∀ row ∈ database.otelMetrics.filter (Charted query scope),
        InRange query row = true ∧
          cellOfTime postgres query row = cellOfBucket postgres query row :=
    forall₂_congr fun row _ => kept_iff hsound row
  rw [hkept, ← hcount]
  unfold series
  rw [List.map_inj_left]
  constructor
  · intro hcells slot
    by_cases hslot : slot ∈ (timeGrid postgres query).slots
    · have hpoints := congrArg Cell.points (hcells slot hslot)
      rwa [points_rollupSamples hrespects hrollups, points_widenedSamples] at hpoints
    · -- every point is in some slot
      rw [List.count_eq_zero.mpr fun hmem => ?_, List.count_eq_zero.mpr fun hmem => ?_]
      · obtain ⟨row, -, hrow⟩ := List.mem_map.mp hmem
        exact hslot (hrow ▸ hsound.index_mem_slots _)
      · obtain ⟨row, -, hrow⟩ := List.mem_map.mp hmem
        exact hslot (hrow ▸ hsound.index_mem_slots _)
  · intro hcounts slot _
    have hrows := hcount.mp hcounts
    have hall : rolledUp query scope database = database.otelMetrics.filter (Charted query scope) :=
      List.filter_eq_self.mpr fun row hrow => (hrows row hrow).1
    refine cell_eq (fun sample => count_pos_of_mem_rollupSamples hrollups) ?_ ?_ ?_
    · intro sample hsample
      obtain ⟨row, -, rfl⟩ := List.mem_map.mp hsample
      exact one_pos
    · rw [points_rollupSamples hrespects hrollups, points_widenedSamples]
      exact hcounts slot
    · rw [sum_widenedSamples, sum_rollupSamples postgres query hrespects hrollups MetricSample.sum
        MetricRow.value (fun rollup hrollup => ?_) slot, hall]
      · refine congrArg (fun rows => (List.map MetricRow.value rows).sum)
          (List.filter_congr fun row hrow => ?_)
        rw [(hrows row hrow).2]
      · have hsum := (hrollups.summarizes rollup hrollup).sum
        rw [List.map_map] at hsum
        exact hsum

end Reading

/-! ### Charts -/

section Charts

variable {postgres : Postgres} {query : GridQuery} {database : Database}

theorem respects_scope (projectId : CodeUnits) (metricNames : List CodeUnits) :
    Respects (scope postgres projectId metricNames) := by
  intro metricName first second hsame
  unfold scope
  rw [postgres.text_same _ _ hsame.2.1]

/-- The rows of a scope that are of one machine and resource. -/
def entityScope (postgres : Postgres) (scope : Scope) (key : CodeUnits)
    (resource : Option CodeUnits) : Scope :=
  fun metricName series =>
    (sampleKey postgres series = key && resourceCase metricName = resource) &&
      scope metricName series

theorem respects_entityScope {scope : Scope} (hrespects : Respects scope) (key : CodeUnits)
    (resource : Option CodeUnits) : Respects (entityScope postgres scope key resource) := by
  intro metricName first second hsame
  have hkey : sampleKey postgres first = sampleKey postgres second := by
    unfold sampleKey
    rw [postgres.text_same _ _ hsame.2.1, hsame.1]
  unfold entityScope
  rw [hkey, hrespects metricName first second hsame]

theorem filter_rollupSamples (grid : Grid) (scope : Scope) (key : CodeUnits)
    (resource : Option CodeUnits) (rollups : List RollupRow) :
    (rollupSamples postgres grid scope query rollups).filter
        (fun sample => sample.key = key && sample.resource = resource) =
      rollupSamples postgres grid (entityScope postgres scope key resource) query rollups := by
  unfold rollupSamples
  rw [List.filter_map, List.filter_filter]
  refine congrArg (List.map _) (List.filter_congr fun rollup _ => ?_)
  exact (Bool.and_assoc _ _ _).symm

theorem filter_widenedSamples (scope : Scope) (key : CodeUnits) (resource : Option CodeUnits) :
    (widenedSamples postgres query scope database).filter
        (fun sample => sample.key = key && sample.resource = resource) =
      widenedSamples postgres query (entityScope postgres scope key resource) database := by
  unfold widenedSamples rawSamples
  rw [List.filter_map, List.filter_filter]
  refine congrArg (List.map _) (List.filter_congr fun row _ => ?_)
  exact (Bool.and_assoc _ _ _).symm

theorem metricSamples_eq (hstep : rollupSeconds ≤ bucketSeconds query) (scope : Scope) :
    metricSamples postgres query scope database =
      rollupSamples postgres (timeGrid postgres query) scope query database.otelMetricRollups :=
  if_neg (not_lt.mpr hstep)

/-- The machines' metrics have the saturation among them. -/
theorem charted_of_saturation {projectId : CodeUnits} {row : MetricRow}
    (hcharted : Charted query (scope postgres projectId [saturationMetric]) row) :
    Charted query (scope postgres projectId (machineUtilizationMetrics.map Prod.snd)) row := by
  unfold Charted scope at hcharted ⊢
  simp only [Bool.and_eq_true] at hcharted ⊢
  refine ⟨⟨?_, hcharted.1.2⟩, hcharted.2⟩
  have hname : row.metricName = saturationMetric :=
    List.mem_singleton.mp (List.contains_iff_mem.mp hcharted.1.1)
  rw [hname]
  exact List.contains_iff_mem.mpr List.mem_cons_self

/-- The charts of a project agree exactly where each point is in the range that rollups are read for
and rounding its time moves it to no other cell. -/
theorem seriesAgree_iff {projectId : CodeUnits} (hstep : rollupSeconds ≤ bucketSeconds query)
    (hrollups : database.RollupsEqualRaw) :
    SeriesAgree postgres query projectId database ↔
      HoldsWhen postgres query projectId database := by
  have hmachines : Respects (scope postgres projectId (machineUtilizationMetrics.map Prod.snd)) :=
    respects_scope projectId _
  constructor
  · intro hagree row hrow hcharted
    have hvalues := hagree.machines (sampleKey postgres row.series) (resourceCase row.metricName)
    unfold machineValues at hvalues
    dsimp only at hvalues
    rw [metricSamples_eq hstep, filter_rollupSamples, filter_widenedSamples,
      series_eq_iff hstep (respects_entityScope hmachines _ _) hrollups] at hvalues
    refine hvalues row (List.mem_filter.mpr ⟨hrow, ?_⟩)
    unfold Charted at hcharted ⊢
    unfold entityScope
    rw [decide_eq_true rfl, decide_eq_true rfl, Bool.true_and, Bool.true_and]
    exact hcharted
  · intro hholds
    constructor
    · unfold saturation
      dsimp only
      rw [metricSamples_eq hstep, series_eq_iff hstep (respects_scope projectId _) hrollups]
      intro row hrow
      obtain ⟨hmem, hcharted⟩ := List.mem_filter.mp hrow
      exact hholds row hmem (charted_of_saturation hcharted)
    · intro key resource
      unfold machineValues
      dsimp only
      rw [metricSamples_eq hstep, filter_rollupSamples, filter_widenedSamples,
        series_eq_iff hstep (respects_entityScope hmachines key resource) hrollups]
      intro row hrow
      obtain ⟨hmem, hcharted⟩ := List.mem_filter.mp hrow
      refine hholds row hmem ?_
      unfold Charted at hcharted ⊢
      unfold entityScope at hcharted
      simp only [Bool.and_eq_true] at hcharted ⊢
      exact ⟨hcharted.1.2, hcharted.2⟩

end Charts

/-! ### An hour of one point -/

/-- Times to the nearest microsecond, and a resource that has its project for an attribute. -/
def roundingPostgres (projectId : CodeUnits) : Postgres where
  toTimestamp nanos := ((nanos + 500) / 1000 : ℕ)
  toTimestamp_mono := by
    intro nanos later hle
    exact Int.ofNat_le.mpr (Nat.div_le_div_right (Nat.add_le_add_right hle 500))
  toTimestamp_bucket bucket := by
    have hdiv : (bucket * rollupNanos + 500) / 1000 = bucket * 300000000 := by
      unfold rollupNanos
      omega
    rw [hdiv]
    rfl
  timestamptz time := ⌊time * 1000000⌋
  timestamptz_near time := by
    have hle := Int.floor_le (time * 1000000)
    have hlt := Int.lt_floor_add_one (time * 1000000)
    rw [abs_le]
    constructor <;> linarith
  text _ key := if key = resourceProjectAttribute then some projectId else none
  text_same _ _ _ _ := rfl

def utc : Zone where
  offset _ := 0
  instant := id
  offset_dvd _ := dvd_zero _
  offset_steady _ := rfl
  days_mono _ _ hle := Int.ediv_le_ediv (by decide) (by omega)

/-- The first hour of 2026, in cells of five minutes. -/
def firstHour : GridQuery where
  fromTime := 1767225600
  toTime := 1767229200
  zone := utc
  earlier := by decide +kernel
  recent := by decide +kernel

/-- A reading of 50 percent some nanoseconds into 2026. -/
def reading (projectId : CodeUnits) (nanos : ℕ) : MetricRow where
  serviceName := some (ascii "canyonos")
  resourceAttributes := some
    { entries := [(resourceProjectAttribute, .string projectId)]
      distinct := .object (List.nodup_singleton _) (List.forall_mem_singleton.mpr (.string _)) }
  scopeName := none
  metricName := saturationMetric
  metricUnit := none
  metricType := .gauge
  timeUnixNano := 1767225600000000000 + nanos
  value := 50
  dataPointAttributes := none

/-- A point stored with its rollup. -/
def stored (row : MetricRow) : Database where
  otelMetrics := [row]
  otelMetricRollups := [newGroup row (bucketStartOf row.timeUnixNano)]

open Classical in
theorem rollupsEqualRaw_stored (row : MetricRow) : (stored row).RollupsEqualRaw := by
  have hcovers : (newGroup row (bucketStartOf row.timeUnixNano)).Covers row :=
    ⟨rfl, ⟨rfl, .refl _, .refl _⟩,
      (bucketStartOf_eq_iff (dvd_bucketStartOf row.timeUnixNano)).mp rfl⟩
  constructor
  · exact List.forall_mem_singleton.mpr (dvd_bucketStartOf _)
  · refine List.forall_mem_singleton.mpr ?_
    have hcovered : (stored row).covered (newGroup row (bucketStartOf row.timeUnixNano)) = [row] :=
      List.filter_eq_self.mpr (List.forall_mem_singleton.mpr (decide_eq_true hcovers))
    rw [hcovered]
    exact Summary.summarizes_single row.timeUnixNano row.value
  · refine List.forall_mem_singleton.mpr ⟨newGroup row (bucketStartOf row.timeUnixNano), ?_⟩
    exact List.filter_eq_self.mpr (List.forall_mem_singleton.mpr (decide_eq_true hcovers))

/-- A minute into the year, both say 50 percent in the first cell. -/
theorem seriesAgree_firstMinute : SeriesAgree (roundingPostgres (ascii "shop")) firstHour
    (ascii "shop") (stored (reading (ascii "shop") 60000000000)) := by
  refine (seriesAgree_iff (by decide +kernel) (rollupsEqualRaw_stored _)).mpr ?_
  refine List.forall_mem_singleton.mpr fun _ => ⟨by decide +kernel, fun hnext => ?_⟩
  exact absurd hnext (by decide +kernel)

/-- A nanosecond before the second cell, the points say 50 percent in that one, the rollups in the
first. -/
theorem not_seriesAgree_lastNanosecond : ¬ ∀ (postgres : Postgres) (query : GridQuery)
    (projectId : CodeUnits) (database : Database), rollupSeconds ≤ bucketSeconds query →
      database.RollupsEqualRaw →
        (saturation postgres query (metricSamples postgres query · database) projectId).map
            Cell.average =
          (saturation postgres query (widenedSamples postgres query · database) projectId).map
            Cell.average := by
  intro hagree
  have hsame := hagree (roundingPostgres (ascii "shop")) firstHour (ascii "shop") _
    (by decide +kernel) (rollupsEqualRaw_stored (reading (ascii "shop") 299999999999))
  exact absurd hsame (by decide +kernel)

end CanyonOS.Monitoring
