import CanyonOS.Lib.Buckets
import CanyonOS.Telemetry.Monitoring
import CanyonOS.Telemetry.RequestSpans

/-!
# The time series of a project

The range is cut into slots, of a fixed width or of whole local days (`time-range.ts`), and each
request goes into the slot that its start has a position in (`metrics.repo.ts`). Slots and positions
are computed apart: the slots from instants of midnights, the positions from local dates and from
starts in microseconds.
-/

namespace CanyonOS.TimeSeries

open Monitoring (Grid dateParse day daySeconds daysBefore2000 second stepMinutes targetPoints)
open RequestSpans

/-! ### Time zones -/

/-- A time zone, whose clocks may change at any instant by less than a day. A local time that comes
twice is the later of the two instants, one that is skipped is read with the offset before. -/
structure Zone where
  /-- what local time is ahead at an instant -/
  offset : ℤ → ℤ
  /-- the instant of a local time -/
  instant : ℤ → ℤ
  passed : ∀ localTime stamp, instant localTime ≤ stamp → localTime ≤ stamp + offset stamp
  near : ∀ localTime, instant localTime + offset (instant localTime) < localTime + day

/-- The clocks change once. -/
def Zone.change (at' before after : ℤ) (hless : |after - before| < day) : Zone where
  offset stamp := if stamp < at' then before else after
  instant localTime :=
    if localTime - before < at' ∧ localTime - after < at' then localTime - before
    else if at' ≤ localTime - before ∧ at' ≤ localTime - after then localTime - after
    else max (localTime - before) (localTime - after)
  passed localTime stamp hle := by
    split_ifs at hle ⊢ <;> omega
  near localTime := by
    have hday : 0 < day := by decide
    obtain ⟨hlow, hhigh⟩ := abs_lt.mp hless
    split_ifs <;> omega

/-- The clock shows a local time or a later one, and will come to it again. -/
def Repeated (zone : Zone) (localTime stamp : ℤ) : Prop :=
  localTime ≤ stamp + zone.offset stamp ∧ stamp < zone.instant localTime

/-! ### The grid -/

/-- A query, its times in seconds with as many digits as were sent. -/
structure GridQuery extends TimeRange where
  zone : Zone
  earlier : dateParse fromTime < dateParse toTime

def rangeSeconds (range : TimeRange) : ℚ :=
  (dateParse range.toTime - dateParse range.fromTime) / 1000

def bucketSeconds (range : TimeRange) : ℕ :=
  let wanted := rangeSeconds range / 60 / targetPoints
  (stepMinutes.find? fun step : ℕ => wanted ≤ (step : ℚ)).getD 4320 * 60

def realTimeGrid (fromStamp toStamp : ℤ) (zone : Zone) (widthSeconds : ℕ) : Grid :=
  let width := widthSeconds * second
  let localFrom := fromStamp + zone.offset fromStamp
  let origin := localFrom / day * day - zone.offset fromStamp
  let first := origin + (fromStamp - origin) / width * width
  { count := -((first - toStamp) / width)
    bucketStart := fun slot => first + (slot - 1) * width
    position := fun stamp => (stamp - first) / width + 1 }

/-- The local date of an instant, in buckets of days. -/
def dayOf (zone : Zone) (widthDays : ℕ) (stamp : ℤ) : ℤ :=
  ((stamp + zone.offset stamp) / day - daysBefore2000) / widthDays

/-- The local midnight that a slot starts with. -/
def midnight (zone : Zone) (widthDays : ℕ) (fromStamp slot : ℤ) : ℤ :=
  (daysBefore2000 + (dayOf zone widthDays fromStamp + slot - 1) * widthDays) * day

def localDayGrid (fromStamp toStamp : ℤ) (zone : Zone) (widthDays : ℕ) : Grid :=
  let first := dayOf zone widthDays fromStamp
  { count := dayOf zone widthDays (toStamp - 1) - first + 1
    bucketStart := fun slot => zone.instant (midnight zone widthDays fromStamp slot)
    position := fun stamp => dayOf zone widthDays stamp - first + 1 }

section Queries

variable (postgres : Postgres) (query : GridQuery)

def fromStamp : ℤ := postgres.timestamptz query.fromTime

def toStamp : ℤ := postgres.timestamptz query.toTime

def timeGrid : Grid :=
  let width := bucketSeconds query.toTimeRange
  if width < daySeconds then
    realTimeGrid (fromStamp postgres query) (toStamp postgres query) query.zone width
  else
    localDayGrid (fromStamp postgres query) (toStamp postgres query) query.zone
      (width / daySeconds)

end Queries

/-! ### The series -/

/-- The sums over some spans. -/
@[ext]
structure Totals where
  requestCount : ℕ
  blockCount : ℕ
  tokens : ℚ
  llmCost : ℚ
  harnessCost : ℚ
  totalCost : ℚ

def totals (rows : List RequestSpan) : Totals where
  requestCount := (traces rows).length
  blockCount := rows.length
  tokens := coalesceSum (fun span => spanTokens span.toSpan) rows
  llmCost := coalesceSum (fun span => spanTokenCost span.toSpan) rows
  harnessCost := coalesceSum (fun span => spanServerCost span.toSpan) rows
  totalCost := coalesceSum (fun span => spanCost span.toSpan) rows

structure Point where
  startAt : ℤ
  totals : Totals

section Series

variable (postgres : Postgres)

/-- `grid.index(requestStart('s'))` -/
def bucketOf (grid : Grid) (span : RequestSpan) : ℤ :=
  grid.index (requestStart postgres span)

def timeseries (grid : Grid) (rows : List RequestSpan) : List Point :=
  grid.slots.map fun slot =>
    { startAt := grid.bucketStart slot
      totals := totals (rows.filter fun span => bucketOf postgres grid span = slot) }

/-- What the points have together. -/
def sumOf (points : List Point) : Totals where
  requestCount := (points.map fun point => point.totals.requestCount).sum
  blockCount := (points.map fun point => point.totals.blockCount).sum
  tokens := (points.map fun point => point.totals.tokens).sum
  llmCost := (points.map fun point => point.totals.llmCost).sum
  harnessCost := (points.map fun point => point.totals.harnessCost).sum
  totalCost := (points.map fun point => point.totals.totalCost).sum

/-- The slots are in order from one that starts at or before `from` to one that starts before `to`,
each request is in the last one that starts at or before it, and the points add up to the totals of
the range. -/
structure Covers (query : GridQuery) (rows : List RequestSpan) : Prop where
  nonempty : 1 ≤ (timeGrid postgres query).count
  increasing : ∀ slot ∈ (timeGrid postgres query).slots, ∀ other ∈ (timeGrid postgres query).slots,
    slot < other →
      (timeGrid postgres query).bucketStart slot < (timeGrid postgres query).bucketStart other
  first : (timeGrid postgres query).bucketStart 1 ≤ fromStamp postgres query
  last : (timeGrid postgres query).bucketStart (timeGrid postgres query).count <
    toStamp postgres query
  placed : ∀ trace ∈ traces rows, ∃ slot ∈ (timeGrid postgres query).slots,
    ∀ span ∈ spansOf rows trace, bucketOf postgres (timeGrid postgres query) span = slot ∧
      (timeGrid postgres query).bucketStart slot * 1000 ≤ span.requestStart ∧
        ∀ other ∈ (timeGrid postgres query).slots,
          (timeGrid postgres query).bucketStart other * 1000 ≤ span.requestStart → other ≤ slot
  sums : sumOf (timeseries postgres (timeGrid postgres query) rows) = totals rows

/-- The first slot starts before the end of the range; the start of no request is rounded up to the
start of a slot; and on local days the clock does not show the midnight of a slot again after the
start of the range, its last microsecond or the start of a request. -/
structure HoldsWhen (query : GridQuery) (rows : List RequestSpan) : Prop where
  nonempty : (timeGrid postgres query).bucketStart 1 < toStamp postgres query
  exact : ∀ span ∈ rows, ∀ slot ∈ (timeGrid postgres query).slots,
    (timeGrid postgres query).bucketStart slot = requestStart postgres span →
      requestStart postgres span * 1000 ≤ span.requestStart
  unrepeated : daySeconds ≤ bucketSeconds query.toTimeRange →
    ∀ stamp ∈ fromStamp postgres query :: (toStamp postgres query - 1) ::
      rows.map (requestStart postgres), ∀ slot ∈ (timeGrid postgres query).slots,
        ¬ Repeated query.zone (midnight query.zone (bucketSeconds query.toTimeRange / daySeconds)
          (fromStamp postgres query) slot) stamp

end Series

/-! ### Grids -/

theorem mem_slots {grid : Grid} {slot : ℤ} : slot ∈ grid.slots ↔ 1 ≤ slot ∧ slot ≤ grid.count := by
  unfold Grid.slots
  rw [List.mem_map]
  constructor
  · rintro ⟨part, hpart, rfl⟩
    have hless := List.mem_range.mp hpart
    omega
  · rintro ⟨hfirst, hlast⟩
    exact ⟨(slot - 1).toNat, List.mem_range.mpr (by omega), by omega⟩

theorem nodup_slots (grid : Grid) : grid.slots.Nodup := by
  refine List.nodup_range.map fun part other heq => ?_
  exact Nat.cast_injective (add_right_cancel heq)

/-- Slots start in order, and an instant from the start of a slot on has at least its position. -/
structure Regular (grid : Grid) (fromStamp toStamp : ℤ) : Prop where
  increasing : StrictMono grid.bucketStart
  le_position : ∀ slot stamp, grid.bucketStart slot ≤ stamp → slot ≤ grid.position stamp
  position_bucketStart : ∀ slot, grid.position (grid.bucketStart slot) = slot
  position_from : grid.position fromStamp = 1
  position_to : grid.position (toStamp - 1) = grid.count

/-- An instant has the position of a slot that has not started yet. -/
def Early (grid : Grid) (stamp : ℤ) : Prop :=
  ∃ slot ∈ grid.slots, slot ≤ grid.position stamp ∧ stamp < grid.bucketStart slot

section RealTime

variable {fromStamp toStamp : ℤ} {zone : Zone} {widthSeconds : ℕ}

theorem width_pos (hwidth : 0 < widthSeconds) : 0 < (widthSeconds : ℤ) * second :=
  Int.mul_pos (Int.natCast_pos.mpr hwidth) (by decide)

theorem realTime_le_position_iff (hwidth : 0 < widthSeconds) (slot stamp : ℤ) :
    slot ≤ (realTimeGrid fromStamp toStamp zone widthSeconds).position stamp ↔
      (realTimeGrid fromStamp toStamp zone widthSeconds).bucketStart slot ≤ stamp := by
  unfold realTimeGrid
  dsimp only
  generalize fromStamp + zone.offset fromStamp = localFrom
  generalize localFrom / day * day - zone.offset fromStamp + _ = first
  have hquotient := Int.le_ediv_iff_mul_le (a := slot - 1) (b := stamp - first) (width_pos hwidth)
  omega

/-- Rounding up counts the last unit that is begun. -/
theorem neg_ediv_eq {unit : ℤ} (hunit : 0 < unit) (first last : ℤ) :
    -((first - last) / unit) = (last - 1 - first) / unit + 1 := by
  have hlow := Int.ediv_mul_le (last - 1 - first) hunit.ne'
  have hhigh := Int.lt_ediv_add_one_mul_self (last - 1 - first) hunit
  generalize (last - 1 - first) / unit = quotient at hlow hhigh ⊢
  have heq : (first - last) / unit = -(quotient + 1) := by
    apply le_antisymm
    · rw [← Int.lt_add_one_iff, Int.ediv_lt_iff_lt_mul hunit]
      have hfactor : (-(quotient + 1) + 1) * unit = -(quotient * unit) := by ring
      omega
    · rw [Int.le_ediv_iff_mul_le hunit]
      have hfactor : -(quotient + 1) * unit = -((quotient + 1) * unit) := by ring
      omega
  rw [heq, neg_neg]

theorem regular_realTimeGrid (hwidth : 0 < widthSeconds) :
    Regular (realTimeGrid fromStamp toStamp zone widthSeconds) fromStamp toStamp := by
  have hpos := width_pos hwidth
  refine ⟨?_, fun slot stamp => (realTime_le_position_iff hwidth slot stamp).mpr, ?_, ?_, ?_⟩
  all_goals unfold realTimeGrid; dsimp only
  · intro slot other hlt
    have hproduct := Int.mul_lt_mul_of_pos_right (Int.sub_lt_sub_right hlt 1) hpos
    exact Int.add_lt_add_left hproduct _
  · intro slot
    rw [add_sub_cancel_left, Int.mul_ediv_cancel _ hpos.ne', sub_add_cancel]
  · generalize (fromStamp + zone.offset fromStamp) / day * day - zone.offset fromStamp = origin
    have hmod := Int.emod_add_mul_ediv (fromStamp - origin) (widthSeconds * second)
    have hlow := Int.emod_nonneg (fromStamp - origin) hpos.ne'
    have hhigh := Int.emod_lt_of_pos (fromStamp - origin) hpos
    rw [Int.ediv_eq_zero_of_lt] <;> linarith
  · exact (neg_ediv_eq hpos _ _).symm

end RealTime

section LocalDays

variable {fromStamp toStamp : ℤ} {zone : Zone} {widthDays : ℕ}

/-- An instant has the position of a slot or a later one when its clock has come to its midnight. -/
theorem localDay_le_position_iff (hwidth : 0 < widthDays) (slot stamp : ℤ) :
    slot ≤ (localDayGrid fromStamp toStamp zone widthDays).position stamp ↔
      midnight zone widthDays fromStamp slot ≤ stamp + zone.offset stamp := by
  have hday : 0 < day := by decide
  have hpos : (0 : ℤ) < widthDays := Int.natCast_pos.mpr hwidth
  have hmidnight := Int.le_ediv_iff_mul_le
    (a := daysBefore2000 + (dayOf zone widthDays fromStamp + slot - 1) * widthDays)
    (b := stamp + zone.offset stamp) hday
  have hslot := Int.le_ediv_iff_mul_le (a := dayOf zone widthDays fromStamp + slot - 1)
    (b := (stamp + zone.offset stamp) / day - daysBefore2000) hpos
  unfold localDayGrid midnight
  dsimp only
  rw [← hmidnight, ← le_sub_iff_add_le', ← hslot]
  change slot ≤ dayOf zone widthDays stamp - _ + 1 ↔ _ ≤ dayOf zone widthDays stamp
  omega

theorem midnight_add_day_le (hwidth : 0 < widthDays) {slot other : ℤ} (hlt : slot < other) :
    midnight zone widthDays fromStamp slot + day ≤ midnight zone widthDays fromStamp other := by
  have hday : 0 < day := by decide
  have hpos : (1 : ℤ) ≤ widthDays := Int.natCast_pos.mpr hwidth
  have hslots : (dayOf zone widthDays fromStamp + slot - 1 + 1) * (widthDays : ℤ) ≤
      (dayOf zone widthDays fromStamp + other - 1) * widthDays :=
    Int.mul_le_mul_of_nonneg_right (by omega) (by omega)
  unfold midnight
  rw [← add_one_mul]
  refine Int.mul_le_mul_of_nonneg_right ?_ hday.le
  rw [add_one_mul] at hslots
  omega

theorem regular_localDayGrid (hwidth : 0 < widthDays) :
    Regular (localDayGrid fromStamp toStamp zone widthDays) fromStamp toStamp := by
  have hle (slot stamp : ℤ) := @localDay_le_position_iff fromStamp toStamp zone _ hwidth slot stamp
  refine ⟨?_, ?_, ?_, ?_, rfl⟩
  · -- the midnight of a later slot has not come when an earlier slot starts
    intro slot other hlt
    by_contra hge
    have hpassed := zone.passed _ _ (not_lt.mp hge)
    have hnear := zone.near (midnight zone widthDays fromStamp slot)
    exact absurd (hpassed.trans_lt hnear) (midnight_add_day_le hwidth hlt).not_gt
  · intro slot stamp hstart
    exact (hle slot stamp).mpr (zone.passed _ _ hstart)
  · intro slot
    refine le_antisymm (le_of_not_gt fun hlt => ?_) ?_
    · have hshown := (hle _ _).mp (Int.add_one_le_of_lt hlt)
      have hnear := zone.near (midnight zone widthDays fromStamp slot)
      have hnext := @midnight_add_day_le fromStamp zone _ hwidth _ _ (lt_add_one slot)
      exact absurd (hnext.trans hshown) hnear.not_ge
    · exact (hle slot _).mpr (zone.passed _ _ le_rfl)
  · unfold localDayGrid
    dsimp only
    omega

end LocalDays

/-! ### The grid of a query -/

section Query

variable {postgres : Postgres} {query : GridQuery}

theorem bucketSeconds_pos (range : TimeRange) : 0 < bucketSeconds range := by
  have hsteps : ∀ step ∈ stepMinutes, 0 < step := by decide
  unfold bucketSeconds
  dsimp only
  cases hfind : stepMinutes.find? fun step : ℕ =>
      rangeSeconds range / 60 / targetPoints ≤ (step : ℚ) with
  | none => decide
  | some step => exact Nat.mul_pos (hsteps step (List.mem_of_find?_eq_some hfind)) (by decide)

theorem regular_timeGrid : Regular (timeGrid postgres query) (fromStamp postgres query)
    (toStamp postgres query) := by
  unfold timeGrid
  dsimp only
  split_ifs with hshort
  · exact regular_realTimeGrid (bucketSeconds_pos _)
  · exact regular_localDayGrid (Nat.div_pos (Nat.le_of_not_lt hshort) (by decide))

/-- An instant is early when the clock will show again the midnight of a slot. -/
theorem early_iff (stamp : ℤ) : Early (timeGrid postgres query) stamp ↔
    daySeconds ≤ bucketSeconds query.toTimeRange ∧
      ∃ slot ∈ (timeGrid postgres query).slots, Repeated query.zone
        (midnight query.zone (bucketSeconds query.toTimeRange / daySeconds)
          (fromStamp postgres query) slot) stamp := by
  obtain hshort | hlong := lt_or_ge (bucketSeconds query.toTimeRange) daySeconds
  · have hgrid : timeGrid postgres query = realTimeGrid (fromStamp postgres query)
        (toStamp postgres query) query.zone (bucketSeconds query.toTimeRange) := if_pos hshort
    refine iff_of_false ?_ fun hearly => hearly.1.not_gt hshort
    rintro ⟨slot, -, hposition, hstart⟩
    rw [hgrid] at hposition hstart
    exact hstart.not_ge ((realTime_le_position_iff (bucketSeconds_pos _) slot stamp).mp hposition)
  · have hgrid : timeGrid postgres query = localDayGrid (fromStamp postgres query)
        (toStamp postgres query) query.zone (bucketSeconds query.toTimeRange / daySeconds) :=
      if_neg hlong.not_gt
    rw [and_iff_right hlong, hgrid]
    refine exists_congr fun slot => and_congr_right fun _ => and_congr_left fun _ => ?_
    exact localDay_le_position_iff (Nat.div_pos hlong (by decide)) slot stamp

end Query

/-! ### Starts of requests -/

section Starts

variable {postgres : Postgres}

/-- A timestamp is less than a microsecond from the nanoseconds. -/
theorem toTimestamp_near (postgres : Postgres) (nanos : ℤ) :
    (postgres.toTimestamp nanos - 1) * 1000 < nanos ∧
      nanos < (postgres.toTimestamp nanos + 1) * 1000 := by
  have hlow := postgres.toTimestamp_mono (by omega : nanos / 1000 * 1000 ≤ nanos)
  have hhigh := postgres.toTimestamp_mono (by omega : nanos ≤ (nanos / 1000 + 1) * 1000)
  rw [postgres.toTimestamp_micros] at hlow hhigh
  obtain heq | hne := eq_or_ne nanos (nanos / 1000 * 1000)
  · have hwhole := postgres.toTimestamp_micros (nanos / 1000)
    rw [← heq] at hwhole
    omega
  · omega

theorem foldl_min_spec (first : ℤ) (others : List ℤ) :
    (others.foldl min first = first ∨ others.foldl min first ∈ others) ∧
      others.foldl min first ≤ first ∧ ∀ other ∈ others, others.foldl min first ≤ other := by
  induction others generalizing first with
  | nil => exact ⟨.inl rfl, le_rfl, fun other hother => nomatch hother⟩
  | cons head others ih =>
      obtain ⟨hmem, hfirst, hothers⟩ := ih (min first head)
      rw [List.foldl_cons]
      refine ⟨?_, hfirst.trans (min_le_left _ _), List.forall_mem_cons.mpr
        ⟨hfirst.trans (min_le_right _ _), hothers⟩⟩
      obtain heq | hmem := hmem
      · obtain hmin | hmin := min_choice first head
        · exact .inl (heq.trans hmin)
        · exact .inr (List.mem_cons.mpr (.inl (heq.trans hmin)))
      · exact .inr (List.mem_cons_of_mem head hmem)

theorem foldl_min_le {first other : ℤ} {others : List ℤ} (hother : other ∈ others) :
    others.foldl min first ≤ others.foldl min other := by
  obtain ⟨-, -, hle⟩ := foldl_min_spec first others
  obtain heq | hmem := (foldl_min_spec other others).1
  · rw [heq]
    exact hle other hother
  · exact hle _ hmem

theorem sameRequest_eq {span other : Span} (hproject : span.projectId = other.projectId)
    (htrace : span.traceId = other.traceId) : sameRequest span = sameRequest other := by
  funext third
  rw [sameRequest, sameRequest, hproject, htrace]

theorem earliestStart_eq {spans : List Span} {span other : Span} (hspan : span ∈ spans)
    (hother : other ∈ spans) (hproject : span.projectId = other.projectId)
    (htrace : span.traceId = other.traceId) :
    earliestStart spans span = earliestStart spans other := by
  have hself (third : Span) : sameRequest third third = true := by
    simp [sameRequest]
  unfold earliestStart
  rw [sameRequest_eq hproject htrace]
  apply le_antisymm
  · exact foldl_min_le (List.mem_map_of_mem (List.mem_filter.mpr ⟨hother, hself other⟩))
  · refine foldl_min_le (List.mem_map_of_mem (List.mem_filter.mpr ⟨hspan, ?_⟩))
    rw [← sameRequest_eq hproject htrace]
    exact hself span

variable {project : String} {range : TimeRange} {spans : List Span} {span other : RequestSpan}

theorem exists_candidates (postgres : Postgres) (project : String) (range : TimeRange)
    (spans : List Span) : ∃ candidates : List Span,
      (∀ candidate ∈ candidates, candidate.projectId = some project) ∧
        ∀ span ∈ projectRequestSpans postgres project range spans, span.toSpan ∈ candidates ∧
          span.requestStart = earliestStart candidates span.toSpan ∧
            withinRange postgres range span.requestStart = true := by
  unfold projectRequestSpans requestSpans
  dsimp only
  generalize hscope : (spans.filter fun span => decide (span.projectId = some project)) = scope
  refine ⟨scope.filter fun span => ((scope.filter fun span =>
    withinRange postgres range span.startTime).map Span.traceId).contains span.traceId,
    fun candidate hcandidate => ?_, fun span hspan => ?_⟩
  · have hmem := (List.mem_filter.mp hcandidate).1
    rw [← hscope] at hmem
    exact of_decide_eq_true (List.mem_filter.mp hmem).2
  · obtain ⟨hmapped, hwithin⟩ := List.mem_filter.mp hspan
    obtain ⟨candidate, hcandidate, rfl⟩ := List.mem_map.mp hmapped
    exact ⟨hcandidate, rfl, hwithin⟩

/-- All spans of a request carry its start. -/
theorem requestStart_eq (hspan : span ∈ projectRequestSpans postgres project range spans)
    (hother : other ∈ projectRequestSpans postgres project range spans)
    (htrace : span.traceId = other.traceId) : span.requestStart = other.requestStart := by
  obtain ⟨candidates, hproject, hmem⟩ := exists_candidates postgres project range spans
  obtain ⟨hspan, hspanStart, -⟩ := hmem span hspan
  obtain ⟨hother, hotherStart, -⟩ := hmem other hother
  rw [hspanStart, hotherStart]
  exact earliestStart_eq hspan hother ((hproject _ hspan).trans (hproject _ hother).symm) htrace

theorem requestStart_mem (hspan : span ∈ projectRequestSpans postgres project range spans) :
    postgres.timestamptz range.fromTime * 1000 ≤ span.requestStart ∧
      span.requestStart < postgres.timestamptz range.toTime * 1000 := by
  obtain ⟨candidates, -, hmem⟩ := exists_candidates postgres project range spans
  have hwithin := (hmem span hspan).2.2
  unfold withinRange unixNanos at hwithin
  rw [Bool.and_eq_true, decide_eq_true_iff, decide_eq_true_iff] at hwithin
  exact hwithin

end Starts

/-! ### Sums -/

section Sums

variable {postgres : Postgres} {grid : Grid} {rows : List RequestSpan}

theorem coalesceSum_eq (value : RequestSpan → Option ℚ) (rows : List RequestSpan) :
    coalesceSum value rows = (rows.map fun span => (value span).getD 0).sum := by
  unfold coalesceSum
  induction rows with
  | nil => rfl
  | cons span rows ih =>
      rw [List.map_cons, List.sum_cons, ← ih, List.filterMap_cons]
      cases value span with
      | none => exact (zero_add _).symm
      | some cost => exact List.sum_cons

/-- The requests of some spans are those of all spans that have one of them. -/
theorem length_traces_filter (chosen : RequestSpan → Bool) :
    (traces (rows.filter chosen)).length =
      (traces rows).countP fun trace => (traces (rows.filter chosen)).contains trace := by
  rw [List.countP_eq_length_filter]
  refine List.Perm.length_eq ((List.perm_ext_iff_of_nodup (nodup_traces _)
    ((nodup_traces rows).filter _)).mpr fun trace => ?_)
  rw [List.mem_filter, List.contains_iff_mem]
  refine ⟨fun hmem => ⟨?_, hmem⟩, fun hmem => hmem.2⟩
  obtain ⟨span, hspan, htrace⟩ := mem_traces.mp hmem
  exact mem_traces.mpr ⟨span, (List.mem_filter.mp hspan).1, htrace⟩

theorem mem_traces_filter {slot : ℤ} {span : RequestSpan}
    (hone : ∀ other ∈ rows, other.traceId = span.traceId →
      bucketOf postgres grid other = bucketOf postgres grid span) (hspan : span ∈ rows) :
    span.traceId ∈ traces (rows.filter fun span => bucketOf postgres grid span = slot) ↔
      bucketOf postgres grid span = slot := by
  rw [mem_traces]
  constructor
  · rintro ⟨other, hother, htrace⟩
    obtain ⟨hother, hslot⟩ := List.mem_filter.mp hother
    exact (hone other hother htrace).symm.trans (of_decide_eq_true hslot)
  · intro hslot
    exact ⟨span, List.mem_filter.mpr ⟨hspan, decide_eq_true hslot⟩, rfl⟩

/-- The points add up when each request is in one slot. -/
theorem sumOf_timeseries (hslots : ∀ span ∈ rows, bucketOf postgres grid span ∈ grid.slots)
    (hone : ∀ span ∈ rows, ∀ other ∈ rows, other.traceId = span.traceId →
      bucketOf postgres grid other = bucketOf postgres grid span) :
    sumOf (timeseries postgres grid rows) = totals rows := by
  have honce : ∀ span ∈ rows, ∃ slot, (grid.slots.filter fun slot =>
      decide (bucketOf postgres grid span = slot)) = [slot] := by
    intro span hspan
    refine ⟨bucketOf postgres grid span, Buckets.filter_eq_singleton (nodup_slots grid)
      (hslots span hspan) fun slot _ => ?_⟩
    rw [decide_eq_true_iff, eq_comm]
  have hsum (value : RequestSpan → Option ℚ) : (grid.slots.map fun slot => coalesceSum value
      (rows.filter fun span => bucketOf postgres grid span = slot)).sum =
        coalesceSum value rows := by
    simp only [coalesceSum_eq]
    exact Buckets.sum_map_sum _ honce
  unfold sumOf timeseries totals
  simp only [List.map_map, Function.comp_def, hsum]
  congr 1
  · -- a request is counted in the slot that its spans are in
    simp only [length_traces_filter]
    refine Buckets.sum_map_countP fun trace htrace => ?_
    obtain ⟨span, hspan, rfl⟩ := mem_traces.mp htrace
    refine ⟨bucketOf postgres grid span, Buckets.filter_eq_singleton (nodup_slots grid)
      (hslots span hspan) fun slot _ => ?_⟩
    rw [List.contains_iff_mem, mem_traces_filter (hone span hspan) hspan, eq_comm]
  · simp only [← List.countP_eq_length_filter]
    exact Buckets.sum_map_countP honce

end Sums

/-! ### Slots and requests -/

section Main

variable {postgres : Postgres} {query : GridQuery} {rows : List RequestSpan}

/-- The condition, for any grid. -/
theorem unrepeated_iff {stamps : List ℤ} : (daySeconds ≤ bucketSeconds query.toTimeRange →
    ∀ stamp ∈ stamps, ∀ slot ∈ (timeGrid postgres query).slots,
      ¬ Repeated query.zone (midnight query.zone (bucketSeconds query.toTimeRange / daySeconds)
        (fromStamp postgres query) slot) stamp) ↔
      ∀ stamp ∈ stamps, ¬ Early (timeGrid postgres query) stamp := by
  simp only [early_iff, not_and, not_exists]
  exact ⟨fun hall stamp hstamp hlong => hall hlong stamp hstamp,
    fun hall hlong stamp hstamp => hall stamp hstamp hlong⟩

theorem bucketOf_eq (grid : Grid) (span : RequestSpan) : bucketOf postgres grid span =
    min (max (grid.position (requestStart postgres span)) 1) grid.count :=
  rfl

theorem holdsWhen_of_covers (hcovers : Covers postgres query rows) :
    HoldsWhen postgres query rows := by
  have hregular := @regular_timeGrid postgres query
  have hmono := hregular.increasing.monotone
  have hstarts : (timeGrid postgres query).bucketStart 1 < toStamp postgres query :=
    (hmono hcovers.nonempty).trans_lt hcovers.last
  have hplaced (span : RequestSpan) (hspan : span ∈ rows) :
      (timeGrid postgres query).bucketStart (bucketOf postgres (timeGrid postgres query) span) *
        1000 ≤ span.requestStart := by
    obtain ⟨slot, -, hslot⟩ := hcovers.placed span.traceId (mem_traces.mpr ⟨span, hspan, rfl⟩)
    obtain ⟨heq, hstart, -⟩ := hslot span (List.mem_filter.mpr ⟨hspan, decide_eq_true rfl⟩)
    rw [heq]
    exact hstart
  refine ⟨hstarts, ?_, unrepeated_iff.mpr ?_⟩
  · intro span hspan slot hslot hstart
    have hposition := hregular.position_bucketStart slot
    rw [hstart] at hposition
    have hbucket : bucketOf postgres (timeGrid postgres query) span = slot := by
      have hmem := mem_slots.mp hslot
      rw [bucketOf_eq]
      omega
    have hle := hplaced span hspan
    rw [hbucket, hstart] at hle
    exact hle
  · rintro stamp hstamp ⟨slot, hslot, hposition, hlate⟩
    have hmem := mem_slots.mp hslot
    obtain rfl | rfl | hstamp := List.mem_cons.mp hstamp |>.imp_right List.mem_cons.mp
    · rw [hregular.position_from] at hposition
      obtain rfl : slot = 1 := by omega
      exact hlate.not_ge hcovers.first
    · have hlast := (hmono hmem.2).trans_lt hcovers.last
      omega
    · obtain ⟨span, hspan, rfl⟩ := List.mem_map.mp hstamp
      have hslotLe : slot ≤ bucketOf postgres (timeGrid postgres query) span := by
        rw [bucketOf_eq]
        omega
      have hstart := hmono hslotLe
      have hle := hplaced span hspan
      have hnear := (toTimestamp_near postgres span.requestStart).2
      change requestStart postgres span < _ at hlate
      unfold requestStart at hlate
      omega

theorem count_pos_of_holdsWhen (hholds : HoldsWhen postgres query rows) :
    1 ≤ (timeGrid postgres query).count := by
  have hregular := @regular_timeGrid postgres query
  rw [← hregular.position_to]
  exact hregular.le_position 1 _ (Int.le_sub_one_of_lt hholds.nonempty)

theorem first_of_holdsWhen (hholds : HoldsWhen postgres query rows) :
    (timeGrid postgres query).bucketStart 1 ≤ fromStamp postgres query := by
  have hearly := unrepeated_iff.mp hholds.unrepeated _ List.mem_cons_self
  refine not_lt.mp fun hlt => hearly ⟨1, mem_slots.mpr ⟨le_rfl, count_pos_of_holdsWhen hholds⟩,
    (regular_timeGrid.position_from).ge, hlt⟩

/-- A request is in the last slot that starts at or before it. -/
theorem placed_of_holdsWhen (hholds : HoldsWhen postgres query rows) {span : RequestSpan}
    (hspan : span ∈ rows) (hfrom : fromStamp postgres query * 1000 ≤ span.requestStart) :
    bucketOf postgres (timeGrid postgres query) span ∈ (timeGrid postgres query).slots ∧
      (timeGrid postgres query).bucketStart (bucketOf postgres (timeGrid postgres query) span) *
        1000 ≤ span.requestStart ∧
      ∀ other ∈ (timeGrid postgres query).slots,
        (timeGrid postgres query).bucketStart other * 1000 ≤ span.requestStart →
          other ≤ bucketOf postgres (timeGrid postgres query) span := by
  have hregular := @regular_timeGrid postgres query
  have hcount := count_pos_of_holdsWhen hholds
  obtain ⟨hnearLow, hnearHigh⟩ := toTimestamp_near postgres span.requestStart
  change (requestStart postgres span - 1) * 1000 < _ at hnearLow
  change _ < (requestStart postgres span + 1) * 1000 at hnearHigh
  have hstamp : fromStamp postgres query ≤ requestStart postgres span := by
    have hmono := postgres.toTimestamp_mono hfrom
    rw [postgres.toTimestamp_micros] at hmono
    exact hmono
  have hposition : 1 ≤ (timeGrid postgres query).position (requestStart postgres span) :=
    hregular.le_position 1 _ ((first_of_holdsWhen hholds).trans hstamp)
  have hbucket : bucketOf postgres (timeGrid postgres query) span = min
      ((timeGrid postgres query).position (requestStart postgres span))
        (timeGrid postgres query).count := by
    rw [bucketOf_eq, max_eq_left hposition]
  have hmem : bucketOf postgres (timeGrid postgres query) span ∈
      (timeGrid postgres query).slots := by
    rw [mem_slots, hbucket]
    omega
  refine ⟨hmem, ?_, fun other hother hle => ?_⟩
  · have hearly := unrepeated_iff.mp hholds.unrepeated (requestStart postgres span)
      (List.mem_cons_of_mem _ (List.mem_cons_of_mem _ (List.mem_map_of_mem hspan)))
    have hstart : (timeGrid postgres query).bucketStart
        (bucketOf postgres (timeGrid postgres query) span) ≤ requestStart postgres span := by
      refine not_lt.mp fun hlt => hearly ⟨_, hmem, ?_, hlt⟩
      rw [hbucket]
      exact min_le_left _ _
    obtain hlt | heq := hstart.lt_or_eq
    · omega
    · rw [heq]
      exact hholds.exact span hspan _ hmem heq
  · have hother := mem_slots.mp hother
    have hpositionOther := hregular.le_position other (requestStart postgres span) (by omega)
    rw [hbucket]
    exact le_min hpositionOther hother.2

end Main

/-- The series covers its range and adds up when no start is rounded into the next slot and no
midnight of a slot comes twice around the ends of the range or the start of a request. -/
theorem covers_iff (postgres : Postgres) (query : GridQuery) (project : String)
    (spans : List Span) :
    Covers postgres query (projectRequestSpans postgres project query.toTimeRange spans) ↔
      HoldsWhen postgres query
        (projectRequestSpans postgres project query.toTimeRange spans) := by
  refine ⟨holdsWhen_of_covers, fun hholds => ?_⟩
  have hregular := @regular_timeGrid postgres query
  have hcount := count_pos_of_holdsWhen hholds
  have hfrom {span : RequestSpan}
      (hspan : span ∈ projectRequestSpans postgres project query.toTimeRange spans) :=
    placed_of_holdsWhen hholds hspan (requestStart_mem hspan).1
  have hone {span other : RequestSpan}
      (hspan : span ∈ projectRequestSpans postgres project query.toTimeRange spans)
      (hother : other ∈ projectRequestSpans postgres project query.toTimeRange spans)
      (htrace : other.traceId = span.traceId) : bucketOf postgres (timeGrid postgres query) other =
        bucketOf postgres (timeGrid postgres query) span := by
    unfold bucketOf requestStart
    rw [requestStart_eq hother hspan htrace]
  constructor
  · exact hcount
  · exact fun slot _ other _ hlt => hregular.increasing hlt
  · exact first_of_holdsWhen hholds
  · have hearly := unrepeated_iff.mp hholds.unrepeated _
      (List.mem_cons_of_mem _ List.mem_cons_self)
    have hle := not_lt.mp fun hlt => hearly
      ⟨_, mem_slots.mpr ⟨hcount, le_rfl⟩, (hregular.position_to).ge, hlt⟩
    omega
  · intro trace htrace
    obtain ⟨span, hspan, rfl⟩ := mem_traces.mp htrace
    refine ⟨_, (hfrom hspan).1, fun other hother => ?_⟩
    obtain ⟨hmem, hsame⟩ := List.mem_filter.mp hother
    have htrace := of_decide_eq_true hsame
    rw [← hone hspan hmem htrace]
    exact ⟨rfl, (hfrom hmem).2⟩
  · exact sumOf_timeseries (fun span hspan => (hfrom hspan).1)
      fun span hspan other hother htrace => hone hspan hother htrace

/-! ### A midnight that comes twice -/

/-- Times to the nearest microsecond. -/
def nearest : Postgres where
  toTimestamp nanos := (nanos + 500) / 1000
  toTimestamp_mono _ _ hle := Int.ediv_le_ediv (by decide) (by omega)
  toTimestamp_micros micros := by omega
  timestamptz time := ⌊time * 1000000 + 1 / 2⌋
  timestamptz_mono _ _ hle := Int.floor_mono (by linarith)
  timestamptz_near time := by
    have hlow := Int.lt_floor_add_one (time * 1000000 + 1 / 2)
    have hhigh := Int.floor_le (time * 1000000 + 1 / 2)
    rw [abs_lt]
    constructor <;> linarith

/-- On 2010-11-07, 02:31 UTC, the clocks went from 00:01 back to 23:01. -/
def stJohns : Zone :=
  Zone.change (1289097060 * second) (-9000 * second) (-12600 * second) (by decide)

/-- Three weeks from 2010-10-25 on, in slots of a day. -/
def threeWeeks : GridQuery where
  fromTime := 1287964800
  toTime := 1289779200
  zone := stJohns
  earlier := by decide +kernel

/-- A request half a minute after the first midnight. -/
def afterMidnight : Span where
  projectId := some "demo"
  traceId := "a1"
  statusCode := "STATUS_CODE_OK"
  attributes := []
  startTime := 1289097030 * 1000000000
  endTime := 1289097031 * 1000000000

/-- The slot of its local date starts at the second midnight, an hour later. -/
theorem not_covers_afterMidnight : ¬ Covers nearest threeWeeks
    (projectRequestSpans nearest "demo" threeWeeks.toTimeRange [afterMidnight]) := by
  intro hcovers
  have hspan : (⟨afterMidnight, afterMidnight.startTime⟩ : RequestSpan) ∈
      projectRequestSpans nearest "demo" threeWeeks.toTimeRange [afterMidnight] := by
    decide +kernel
  obtain ⟨slot, -, hslot⟩ := hcovers.placed "a1" (mem_traces.mpr ⟨_, hspan, rfl⟩)
  obtain ⟨rfl, hstart, -⟩ := hslot _ (List.mem_filter.mpr ⟨hspan, rfl⟩)
  revert hstart
  decide +kernel

end CanyonOS.TimeSeries
