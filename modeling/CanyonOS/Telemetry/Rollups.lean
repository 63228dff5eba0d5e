import Mathlib
import CanyonOS.Lib.JsonText
import CanyonOS.Lib.TimedSamples
import CanyonOS.Lib.TransitionSystem

/-!
# Rollups of metrics

The API keeps every metric point and one rollup for each metric, series and five minutes
(`telemetry.rollup.ts`, `telemetry.repo.ts`). An export is grouped in memory, by a text in which the
keys of attributes are sorted, and merged into the table, by the key the database computes. The two
keys agree, so the rollups say of the points what the points say, in whatever exports and order they
arrive.
-/

namespace CanyonOS.Telemetry.Rollups

open JsValue

/-! ### Rows -/

/-- An object of attributes, its keys in the order they were set. -/
structure Attributes where
  entries : List JsEntry
  distinct : (JsValue.object entries).DistinctKeys

namespace Attributes

/-- The default of the two columns. -/
def empty : Attributes where
  entries := []
  distinct := .object List.nodup_nil (List.forall_mem_nil _)

/-- The attributes as `jsonb` keeps them. -/
def stored (attributes : Attributes) : Attributes where
  entries := storedEntries attributes.entries
  distinct := distinctKeys_stored attributes.distinct

def Same (first second : Attributes) : Prop :=
  SameUpToKeys (.object first.entries) (.object second.entries)

end Attributes

inductive MetricType where
  | gauge
  | sumDelta
  | sumCumulative
deriving DecidableEq

/-- A row of `otel_metrics`; an attribute column that is not given has its default. -/
structure MetricRow where
  serviceName : Option CodeUnits
  resourceAttributes : Option Attributes
  scopeName : Option CodeUnits
  metricName : CodeUnits
  metricUnit : Option CodeUnits
  metricType : MetricType
  timeUnixNano : ℕ
  value : ℚ
  dataPointAttributes : Option Attributes

/-- A row of `otel_metric_rollups`. -/
structure RollupRow extends Summary ℕ ℚ where
  metricName : CodeUnits
  metricType : MetricType
  metricUnit : Option CodeUnits
  serviceName : Option CodeUnits
  resourceAttributes : Option Attributes
  dataPointAttributes : Option Attributes
  bucketStartUnixNano : ℕ

/-- What tells the series of one metric apart, as the database keeps it. -/
structure Series where
  serviceName : Option CodeUnits
  resourceAttributes : Attributes
  dataPointAttributes : Attributes

namespace Series

/-- Equal up to the order of keys. -/
def Same (first second : Series) : Prop :=
  first.serviceName = second.serviceName ∧
    first.resourceAttributes.Same second.resourceAttributes ∧
    first.dataPointAttributes.Same second.dataPointAttributes

def ofColumns (serviceName : Option CodeUnits)
    (resourceAttributes dataPointAttributes : Option Attributes) : Series where
  serviceName := serviceName
  resourceAttributes := (resourceAttributes.getD .empty).stored
  dataPointAttributes := (dataPointAttributes.getD .empty).stored

end Series

def MetricRow.series (row : MetricRow) : Series :=
  .ofColumns row.serviceName row.resourceAttributes row.dataPointAttributes

def RollupRow.series (row : RollupRow) : Series :=
  .ofColumns row.serviceName row.resourceAttributes row.dataPointAttributes

def MetricRow.sample (row : MetricRow) : ℕ × ℚ :=
  (row.timeUnixNano, row.value)

/-! ### Grouping -/

/-- `ROLLUP_NANOS`. -/
def rollupNanos : ℕ := 300 * 1000000000

/-- `bucket_start_of`. -/
def bucketStartOf (timeUnixNano : ℕ) : ℕ :=
  timeUnixNano - timeUnixNano % rollupNanos

/-- The number a key is when it counts as an index of an array. -/
def arrayIndex? (key : CodeUnits) : Option ℕ :=
  let digits := key.map fun unit => unit.val - 48
  let index := Nat.ofDigits 10 digits.reverse
  if key ≠ [] ∧ (∀ unit ∈ key, 48 ≤ unit.val ∧ unit.val < 58) ∧
      (digits.head? = some 0 → key.length = 1) ∧ index < 4294967295 then some index
  else none

def indexOrder (first second : JsEntry) : Prop :=
  (arrayIndex? first.1).getD 0 ≤ (arrayIndex? second.1).getD 0

instance decidableIndexOrder : DecidableRel indexOrder :=
  fun _ _ => inferInstanceAs (Decidable (_ ≤ _))

/-- `Object.fromEntries`, as its result lists its entries: indices of arrays come first. -/
def fromEntries (entries : List JsEntry) : List JsEntry :=
  (entries.filter fun entry => (arrayIndex? entry.1).isSome).insertionSort indexOrder ++
    entries.filter fun entry => !(arrayIndex? entry.1).isSome

def keyOrder (first second : JsEntry) : Prop :=
  first.1 ≤ second.1

instance decidableKeyOrder : DecidableRel keyOrder :=
  fun _ _ => inferInstanceAs (Decidable (_ ≤ _))

mutual

/-- `key_sorted`. -/
def keySorted : JsValue → JsValue
  | .null => .null
  | .bool value => .bool value
  | .number value => .number value
  | .string text => .string text
  | .array items => .array (keySortedItems items)
  | .object entries => .object (fromEntries ((keySortedEntries entries).insertionSort keyOrder))

def keySortedItems : List JsValue → List JsValue
  | [] => []
  | item :: items => keySorted item :: keySortedItems items

def keySortedEntries : List JsEntry → List JsEntry
  | [] => []
  | (key, nested) :: entries => (key, keySorted nested) :: keySortedEntries entries

end

/-- `String` of a natural number. -/
def decimal (number : ℕ) : CodeUnits :=
  if number = 0 then ascii "0"
  else ((Nat.digits 10 number).map fun digit => Fin.ofNat 0x10000 (48 + digit)).reverse

def attributesValue (attributes : Option Attributes) : JsValue :=
  .object (attributes.getD .empty).entries

def groupValue (row : MetricRow) (bucketStartUnixNano : ℕ) : JsValue :=
  .array [.string row.metricName, row.serviceName.elim .null .string,
    keySorted (attributesValue row.resourceAttributes),
    keySorted (attributesValue row.dataPointAttributes), .string (decimal bucketStartUnixNano)]

section Grouping

variable (numberText : ℚ → CodeUnits)

/-- `group_key`. -/
def groupKey (row : MetricRow) (bucketStartUnixNano : ℕ) : CodeUnits :=
  stringify numberText (groupValue row bucketStartUnixNano)

def newGroup (row : MetricRow) (bucketStartUnixNano : ℕ) : RollupRow where
  metricName := row.metricName
  metricType := row.metricType
  metricUnit := row.metricUnit
  serviceName := row.serviceName
  resourceAttributes := row.resourceAttributes
  dataPointAttributes := row.dataPointAttributes
  bucketStartUnixNano := bucketStartUnixNano
  sum := row.value
  count := 1
  min := row.value
  max := row.value
  lastValue := row.value
  lastTime := row.timeUnixNano

def addPoint (group : RollupRow) (row : MetricRow) : RollupRow :=
  let latest := group.lastTime ≤ row.timeUnixNano
  { group with
    sum := group.sum + row.value
    count := group.count + 1
    min := min group.min row.value
    max := max group.max row.value
    lastValue := if latest then row.value else group.lastValue
    lastTime := if latest then row.timeUnixNano else group.lastTime }

abbrev Groups := AList fun _ : CodeUnits => RollupRow

def groupPoint (groups : Groups) (row : MetricRow) : Groups :=
  let bucketStartUnixNano := bucketStartOf row.timeUnixNano
  let key := groupKey numberText row bucketStartUnixNano
  match groups.lookup key with
  | none => groups.insert key (newGroup row bucketStartUnixNano)
  | some group => groups.insert key (addPoint group row)

/-- `rollup_rows`. -/
def rollupRows (rows : List MetricRow) : List RollupRow :=
  let groups := rows.foldl (groupPoint numberText) ∅
  (groups.keys.insertionSort (· ≤ ·)).filterMap groups.lookup

end Grouping

/-! ### The tables -/

/-- `APPEND_CHUNK_SIZE`. -/
def appendChunkSize : ℕ := 1000

/-- The slices of a list that a loop over offsets takes. -/
def slices {α : Type*} (size : ℕ) (rows : List α) : List (List α) :=
  (List.range ((rows.length + size - 1) / size)).map fun chunk =>
    (rows.drop (chunk * size)).take size

/-- The two tables of metrics. -/
structure Database where
  otelMetrics : List MetricRow
  otelMetricRollups : List RollupRow

/-- What the `do update` of an upsert sets. -/
def mergeExcluded (row excluded : RollupRow) : RollupRow :=
  { row with
    sum := row.sum + excluded.sum
    count := row.count + excluded.count
    min := min row.min excluded.min
    max := max row.max excluded.max
    lastValue := if row.lastTime ≤ excluded.lastTime then excluded.lastValue else row.lastValue
    lastTime := max row.lastTime excluded.lastTime }

section Tables

variable {SeriesKey : Type*} [DecidableEq SeriesKey] (seriesKey : Series → SeriesKey)

/-- The columns of the unique index. -/
def conflictTarget (row : RollupRow) : CodeUnits × SeriesKey × ℕ :=
  (row.metricName, seriesKey row.series, row.bucketStartUnixNano)

def upsertRow (table : List RollupRow) (excluded : RollupRow) : List RollupRow :=
  if ∃ row ∈ table, conflictTarget seriesKey row = conflictTarget seriesKey excluded then
    table.map fun row =>
      if conflictTarget seriesKey row = conflictTarget seriesKey excluded then
        mergeExcluded row excluded
      else row
  else table ++ [excluded]

/-- One statement; the database refuses one that would touch a row twice. -/
def upsert (table rows : List RollupRow) : Option (List RollupRow) :=
  if (rows.map (conflictTarget seriesKey)).Nodup then some (rows.foldl (upsertRow seriesKey) table)
  else none

variable (numberText : ℚ → CodeUnits)

/-- The loops of `append_metrics`; `none` where a statement raises. -/
def appendInChunks (size : ℕ) (database : Database) (rows : List MetricRow) : Option Database :=
  let rollups := rollupRows numberText rows
  let otelMetrics := (slices size rows).foldl (· ++ ·) database.otelMetrics
  ((slices size rollups).foldlM (upsert seriesKey) database.otelMetricRollups).map
    fun otelMetricRollups => { otelMetrics, otelMetricRollups }

/-- `append_metrics`. -/
def appendMetrics (database : Database) (rows : List MetricRow) : Option Database :=
  appendInChunks seriesKey numberText appendChunkSize database rows

/-- The tables and the transactions that have begun, each with the points it appends. -/
structure State where
  database : Database
  transactions : List (List MetricRow)

inductive Action where
  /-- `insert_metrics` of an export's points -/
  | begins (rows : List MetricRow)
  | commits (transaction : ℕ)
  | fails (transaction : ℕ)

def step (state : State) : Action → Option State
  | .begins rows =>
      if rows = [] then some state
      else some { state with transactions := state.transactions ++ [rows] }
  | .commits transaction => do
      let rows ← state.transactions[transaction]?
      let database ← appendMetrics seriesKey numberText state.database rows
      some { database, transactions := state.transactions.eraseIdx transaction }
  | .fails transaction =>
      some { state with transactions := state.transactions.eraseIdx transaction }

def system : TransitionSystem State Action where
  step := step seriesKey numberText

def initial : State where
  database := { otelMetrics := [], otelMetricRollups := [] }
  transactions := []

end Tables

/-! ### The order of keys -/

theorem keySortedItems_eq (items : List JsValue) : keySortedItems items = items.map keySorted := by
  induction items with
  | nil => rfl
  | cons item items ih => rw [keySortedItems, ih, List.map_cons]

theorem keySortedEntries_eq (entries : List JsEntry) :
    keySortedEntries entries = entries.map (Prod.map id keySorted) := by
  induction entries with
  | nil => rfl
  | cons entry entries ih => rw [keySortedEntries, ih, List.map_cons, Prod.map, id]

/-- The entries are sorted and then mapped, as in the source. -/
theorem keySorted_object (entries : List JsEntry) :
    keySorted (.object entries) =
      .object (fromEntries ((entries.insertionSort keyOrder).map (Prod.map id keySorted))) := by
  have hmap := List.map_insertionSort keyOrder keyOrder (Prod.map id keySorted) entries
    fun _ _ _ _ => Iff.rfl
  rw [hmap, keySorted, keySortedEntries_eq]

open scoped List in
theorem fromEntries_perm (entries : List JsEntry) : fromEntries entries ~ entries := by
  unfold fromEntries
  calc
    _ ~ entries.filter (fun entry => (arrayIndex? entry.1).isSome) ++
          entries.filter (fun entry => !(arrayIndex? entry.1).isSome) :=
      (List.perm_insertionSort _ _).append_right _
    _ ~ entries := List.filter_append_perm _ entries

/-- Sorting keys changes their order only. -/
theorem sameUpToKeys_keySorted (value : JsValue) : SameUpToKeys value (keySorted value) := by
  induction value using JsValue.induct with
  | null | bool | number | string => exact .refl _
  | array items ih =>
      rw [keySorted, keySortedItems_eq]
      exact SameUpToKeys.array_map [] ih
  | object entries ih =>
      rw [keySorted, keySortedEntries_eq]
      have hsorted := (fromEntries_perm ((entries.map (Prod.map id keySorted)).insertionSort
        keyOrder)).trans (List.perm_insertionSort keyOrder _)
      exact (SameUpToKeys.object_map [] ih).trans (.permute hsorted.symm)

instance total_keyOrder : Std.Total keyOrder where
  total first second := le_total first.1 second.1

instance trans_keyOrder : IsTrans JsEntry keyOrder where
  trans _ _ _ := le_trans

/-- The entries of an object in another order are sorted alike. -/
theorem insertionSort_eq_of_perm {entries others : List JsEntry} (hperm : entries.Perm others)
    (hnodup : (entries.map Prod.fst).Nodup) :
    entries.insertionSort keyOrder = others.insertionSort keyOrder := by
  have hsort := (List.perm_insertionSort keyOrder entries).trans
    (hperm.trans (List.perm_insertionSort keyOrder others).symm)
  apply hsort.eq_of_pairwise _ (List.pairwise_insertionSort keyOrder entries)
    (List.pairwise_insertionSort keyOrder others)
  intro first second hfirst hsecond hle hge
  have hmem : first ∈ entries := (List.mem_insertionSort keyOrder).mp hfirst
  have hmem' : second ∈ entries :=
    hperm.mem_iff.mpr ((List.mem_insertionSort keyOrder).mp hsecond)
  exact List.inj_on_of_nodup_map hnodup hmem hmem' (le_antisymm hle hge)

/-- Values that are equal up to the order of keys are equal with sorted keys. -/
theorem keySorted_eq_of_same {value other : JsValue} (hsame : SameUpToKeys value other)
    (hdistinct : value.DistinctKeys) : keySorted value = keySorted other := by
  induction hsame with
  | refl => rfl
  | symm hsame ih => exact (ih (hsame.distinctKeys_iff.mpr hdistinct)).symm
  | trans hsame _ ih₁ ih₂ => exact (ih₁ hdistinct).trans (ih₂ (hsame.distinctKeys_iff.mp hdistinct))
  | item _ ih =>
      obtain _ | _ | _ | _ | hitems | _ := hdistinct
      rw [keySorted, keySorted, keySortedItems_eq, keySortedItems_eq, List.map_append,
        List.map_append, List.map_cons, List.map_cons,
        ih (hitems _ (List.mem_append_right _ List.mem_cons_self))]
  | entry _ ih =>
      obtain _ | _ | _ | _ | _ | ⟨hnodup, hentries⟩ := hdistinct
      have hvalue := ih (hentries _ (List.mem_append_right _ List.mem_cons_self))
      rw [keySorted, keySorted, keySortedEntries_eq, keySortedEntries_eq, List.map_append,
        List.map_append, List.map_cons, List.map_cons, Prod.map, Prod.map, hvalue]
  | permute hperm =>
      obtain _ | _ | _ | _ | _ | ⟨hnodup, hentries⟩ := hdistinct
      rw [keySorted_object, keySorted_object, insertionSort_eq_of_perm hperm hnodup]

theorem keySorted_eq_iff {value other : JsValue} (hdistinct : value.DistinctKeys) :
    keySorted value = keySorted other ↔ SameUpToKeys value other := by
  constructor
  · intro heq
    have hsorted := sameUpToKeys_keySorted value
    rw [heq] at hsorted
    exact hsorted.trans (sameUpToKeys_keySorted other).symm
  · intro hsame
    exact keySorted_eq_of_same hsame hdistinct

theorem fromEntries_map {f : JsValue → JsValue} (entries : List JsEntry) :
    fromEntries (entries.map (Prod.map id f)) = (fromEntries entries).map (Prod.map id f) := by
  have hsort := List.map_insertionSort indexOrder indexOrder (Prod.map id f)
    (entries.filter fun entry => (arrayIndex? entry.1).isSome) fun _ _ _ _ => Iff.rfl
  rw [fromEntries, fromEntries, List.map_append, hsort, List.filter_map, List.filter_map]
  rfl

/-- What the database keeps of a value with sorted keys. -/
theorem stored_keySorted (value : JsValue) : (keySorted value).stored = keySorted value.stored := by
  induction value using JsValue.induct with
  | null | bool | string => rfl
  | number value => cases value <;> rfl
  | array items ih =>
      rw [keySorted, keySortedItems_eq, stored, stored, storedItems_eq, storedItems_eq, keySorted,
        keySortedItems_eq, List.map_map, List.map_map]
      exact congrArg _ (List.map_congr_left ih)
  | object entries ih =>
      have hvalues : (entries.map (Prod.map id keySorted)).map (Prod.map id stored) =
          (entries.map (Prod.map id stored)).map (Prod.map id keySorted) := by
        rw [List.map_map, List.map_map]
        apply List.map_congr_left
        intro entry hentry
        exact Prod.ext rfl (ih entry hentry)
      have hsort := List.map_insertionSort keyOrder keyOrder (Prod.map id stored)
        (entries.map (Prod.map id keySorted)) fun _ _ _ _ => Iff.rfl
      rw [keySorted, keySortedEntries_eq, stored, stored, storedEntries_eq, storedEntries_eq,
        keySorted, keySortedEntries_eq, ← fromEntries_map, hsort, hvalues]

/-! ### The two keys -/

/-- The number a decimal text is of. -/
def ofDecimal (text : CodeUnits) : ℕ :=
  Nat.ofDigits 10 (text.reverse.map fun unit => unit.val - 48)

theorem ofDecimal_decimal (number : ℕ) : ofDecimal (decimal number) = number := by
  unfold decimal ofDecimal
  split
  case isTrue hzero => exact hzero.symm
  case isFalse =>
    have hdigits : (Nat.digits 10 number).map
        (fun digit => (Fin.ofNat 0x10000 (48 + digit)).val - 48) = Nat.digits 10 number := by
      apply (List.map_congr_left _).trans (List.map_id _)
      intro digit hdigit
      have hlt : digit < 10 := Nat.digits_lt_base (by decide) hdigit
      change (48 + digit) % 0x10000 - 48 = digit
      omega
    rw [List.reverse_reverse, List.map_map]
    exact (congrArg _ hdigits).trans (Nat.ofDigits_digits 10 number)

theorem decimal_injective : Function.Injective decimal :=
  Function.LeftInverse.injective ofDecimal_decimal

theorem stored_groupValue (row : MetricRow) (bucketStartUnixNano : ℕ) :
    (groupValue row bucketStartUnixNano).stored =
      .array [.string row.metricName, row.series.serviceName.elim .null .string,
        keySorted (.object row.series.resourceAttributes.entries),
        keySorted (.object row.series.dataPointAttributes.entries),
        .string (decimal bucketStartUnixNano)] := by
  have hservice : (row.serviceName.elim JsValue.null .string).stored =
      row.serviceName.elim .null .string := by
    cases row.serviceName <;> rfl
  rw [groupValue, stored, storedItems_eq]
  simp only [List.map_cons, List.map_nil, hservice, stored_keySorted]
  rfl

section Keys

variable {SeriesKey : Type*} {seriesKey : Series → SeriesKey} {numberText : ℚ → CodeUnits}

variable (seriesKey) in
/-- The columns of the unique index that a point is rolled up under. -/
def rowTarget (row : MetricRow) : CodeUnits × SeriesKey × ℕ :=
  (row.metricName, seriesKey row.series, bucketStartOf row.timeUnixNano)

variable (numberText) in
def rowKey (row : MetricRow) : CodeUnits :=
  groupKey numberText row (bucketStartOf row.timeUnixNano)

/-- Points are grouped in memory exactly where the database has one row for them. -/
theorem rowKey_eq_iff (hnumbers : NumberTexts numberText)
    (hseries : ∀ first second, seriesKey first = seriesKey second ↔ first.Same second)
    (row other : MetricRow) :
    rowKey numberText row = rowKey numberText other ↔
      rowTarget seriesKey row = rowTarget seriesKey other := by
  have hservice : ∀ first second : Option CodeUnits,
      first.elim JsValue.null .string = second.elim .null .string ↔ first = second := by
    intro first second
    cases first <;> cases second <;> simp
  unfold rowKey groupKey rowTarget
  rw [stringify_eq_iff hnumbers, stored_groupValue, stored_groupValue, Prod.mk.injEq,
    Prod.mk.injEq, hseries]
  simp only [JsValue.array.injEq, List.cons.injEq, JsValue.string.injEq, hservice,
    keySorted_eq_iff (Attributes.distinct _), decimal_injective.eq_iff, and_true, Series.Same,
    Attributes.Same, and_assoc]

end Keys

/-! ### The groups -/

section Groups

variable {SeriesKey : Type*} {seriesKey : Series → SeriesKey} {numberText : ℚ → CodeUnits}

/-- The summary a group has, of the samples of its points; no group where there are none. -/
def Rolled : Option RollupRow → List (ℕ × ℚ) → Prop
  | none, samples => samples = []
  | some row, samples => row.toSummary.Summarizes samples

theorem toSummary_newGroup (row : MetricRow) (bucketStartUnixNano : ℕ) :
    (newGroup row bucketStartUnixNano).toSummary = .single row.timeUnixNano row.value := rfl

theorem toSummary_addPoint (group : RollupRow) (row : MetricRow) :
    (addPoint group row).toSummary =
      group.toSummary.merge (.single row.timeUnixNano row.value) := by
  have htime : (if group.lastTime ≤ row.timeUnixNano then row.timeUnixNano else group.lastTime) =
      max group.lastTime row.timeUnixNano := (max_def _ _).symm
  unfold addPoint
  dsimp only
  rw [htime]
  rfl

theorem toSummary_mergeExcluded (row excluded : RollupRow) :
    (mergeExcluded row excluded).toSummary = row.toSummary.merge excluded.toSummary := rfl

theorem Rolled.merge {row excluded : Option RollupRow} {samples others : List (ℕ × ℚ)}
    (hrow : Rolled row samples) (hexcluded : Rolled excluded others) :
    Rolled (Option.merge mergeExcluded row excluded) (samples ++ others) := by
  match row, excluded with
  | none, none =>
      rw [Rolled] at hrow hexcluded
      rw [hrow, hexcluded]
      rfl
  | none, some excluded =>
      rw [Rolled] at hrow
      rw [hrow, List.nil_append]
      exact hexcluded
  | some row, none =>
      rw [Rolled] at hexcluded
      rw [hexcluded, List.append_nil]
      exact hrow
  | some row, some excluded => exact Summary.Summarizes.merge hrow hexcluded

/-- What the groups say of the points so far. -/
structure Grouped (seriesKey : Series → SeriesKey) (numberText : ℚ → CodeUnits) (groups : Groups)
    (rows : List MetricRow) : Prop where
  rolled : ∀ key, Rolled (groups.lookup key)
    ((rows.filter (rowKey numberText · = key)).map MetricRow.sample)
  target : ∀ key group, groups.lookup key = some group → ∃ row ∈ rows,
    rowKey numberText row = key ∧ conflictTarget seriesKey group = rowTarget seriesKey row

theorem grouped_groupPoint {groups : Groups} {rows : List MetricRow}
    (hgroups : Grouped seriesKey numberText groups rows) (row : MetricRow) :
    Grouped seriesKey numberText (groupPoint numberText groups row) (rows ++ [row]) := by
  obtain ⟨group, hlookup, hrolled, htarget⟩ : ∃ group,
      groupPoint numberText groups row = groups.insert (rowKey numberText row) group ∧
      Rolled (some group)
        (((rows.filter (rowKey numberText · = rowKey numberText row)).map MetricRow.sample) ++
          [row.sample]) ∧
      ∃ other ∈ rows ++ [row], rowKey numberText other = rowKey numberText row ∧
        conflictTarget seriesKey group = rowTarget seriesKey other := by
    have hkey := hgroups.rolled (rowKey numberText row)
    unfold groupPoint
    dsimp only
    change ∃ group, (match groups.lookup (rowKey numberText row) with
      | none =>
          groups.insert (rowKey numberText row) (newGroup row (bucketStartOf row.timeUnixNano))
      | some group => groups.insert (rowKey numberText row) (addPoint group row)) = _ ∧ _
    cases hlookup : groups.lookup (rowKey numberText row) with
    | none =>
        rw [hlookup, Rolled] at hkey
        refine ⟨_, rfl, ?_, row, List.mem_append_right _ List.mem_cons_self, rfl, rfl⟩
        rw [hkey, Rolled, toSummary_newGroup]
        exact Summary.summarizes_single _ _
    | some group =>
        rw [hlookup] at hkey
        obtain ⟨other, hother, hotherKey, hotherTarget⟩ := hgroups.target _ group hlookup
        refine ⟨_, rfl, ?_, other, List.mem_append_left _ hother, hotherKey, hotherTarget⟩
        rw [Rolled, toSummary_addPoint]
        exact Summary.Summarizes.merge hkey (Summary.summarizes_single _ _)
  rw [hlookup]
  constructor
  · intro key
    rw [List.filter_append, List.map_append]
    by_cases hkey : key = rowKey numberText row
    · subst hkey
      have hsingle : [row].filter (rowKey numberText · = rowKey numberText row) = [row] := by simp
      rw [AList.lookup_insert, hsingle]
      exact hrolled
    · have hne : ¬ rowKey numberText row = key := fun heq => hkey heq.symm
      have hsingle : [row].filter (rowKey numberText · = key) = [] := by simpa using hne
      rw [AList.lookup_insert_ne hkey, hsingle, List.map_nil, List.append_nil]
      exact hgroups.rolled key
  · intro key found hfound
    by_cases hkey : key = rowKey numberText row
    · subst hkey
      rw [AList.lookup_insert, Option.some.injEq] at hfound
      exact hfound ▸ htarget
    · rw [AList.lookup_insert_ne hkey] at hfound
      obtain ⟨other, hother, hotherKey⟩ := hgroups.target key found hfound
      exact ⟨other, List.mem_append_left _ hother, hotherKey⟩

theorem grouped_foldl {groups : Groups} {before : List MetricRow}
    (hgroups : Grouped seriesKey numberText groups before) (rows : List MetricRow) :
    Grouped seriesKey numberText (rows.foldl (groupPoint numberText) groups) (before ++ rows) := by
  induction rows generalizing groups before with
  | nil =>
      rw [List.append_nil]
      exact hgroups
  | cons row rows ih =>
      have hrest := ih (grouped_groupPoint hgroups row)
      rwa [List.append_assoc] at hrest

theorem grouped (rows : List MetricRow) :
    Grouped seriesKey numberText (rows.foldl (groupPoint numberText) ∅) rows := by
  have hempty : Grouped seriesKey numberText ∅ [] := by
    constructor
    · intro key
      rw [AList.lookup_empty]
      rfl
    · intro key group hlookup
      rw [AList.lookup_empty] at hlookup
      cases hlookup
  exact grouped_foldl hempty rows

end Groups

/-! ### The merge -/

section Merging

variable {SeriesKey : Type*} [DecidableEq SeriesKey] (seriesKey : Series → SeriesKey)

def samplesOf (target : CodeUnits × SeriesKey × ℕ) (rows : List MetricRow) : List (ℕ × ℚ) :=
  (rows.filter (rowTarget seriesKey · = target)).map MetricRow.sample

def find (table : List RollupRow) (target : CodeUnits × SeriesKey × ℕ) : Option RollupRow :=
  table.find? (conflictTarget seriesKey · = target)

/-- The rows of a table of rollups are those of the points, each once. -/
structure RollsUp (table : List RollupRow) (rows : List MetricRow) : Prop where
  nodup : (table.map (conflictTarget seriesKey)).Nodup
  rolled : ∀ target, Rolled (find seriesKey table target) (samplesOf seriesKey target rows)

variable {seriesKey} {numberText : ℚ → CodeUnits}

theorem find_eq_some {table : List RollupRow} {row : RollupRow}
    {target : CodeUnits × SeriesKey × ℕ} (hfind : find seriesKey table target = some row) :
    row ∈ table ∧ conflictTarget seriesKey row = target :=
  ⟨List.mem_of_find?_eq_some hfind, by simpa using List.find?_some hfind⟩

theorem find_ne_none {table : List RollupRow} {row : RollupRow} (hrow : row ∈ table) :
    find seriesKey table (conflictTarget seriesKey row) ≠ none := by
  intro hnone
  exact List.find?_eq_none.mp hnone row hrow (decide_eq_true rfl)

theorem find_cons (row : RollupRow) (rows : List RollupRow)
    (target : CodeUnits × SeriesKey × ℕ) :
    find seriesKey (row :: rows) target =
      if conflictTarget seriesKey row = target then some row else find seriesKey rows target := by
  by_cases htarget : conflictTarget seriesKey row = target
  · rw [if_pos htarget]
    exact List.find?_cons_of_pos (decide_eq_true htarget)
  · rw [if_neg htarget]
    exact List.find?_cons_of_neg (by simpa using htarget)

theorem mem_rollupRows {rows : List MetricRow} {group : RollupRow} :
    group ∈ rollupRows numberText rows ↔
      ∃ key, (rows.foldl (groupPoint numberText) ∅).lookup key = some group := by
  unfold rollupRows
  simp only [List.mem_filterMap, List.mem_insertionSort]
  constructor
  · rintro ⟨key, -, hlookup⟩
    exact ⟨key, hlookup⟩
  · rintro ⟨key, hlookup⟩
    refine ⟨key, AList.lookup_isSome.mp ?_, hlookup⟩
    rw [hlookup, Option.isSome_some]

/-- The rows of one export are the rollups of its points. -/
theorem rollsUp_rollupRows (hnumbers : NumberTexts numberText)
    (hseries : ∀ first second, seriesKey first = seriesKey second ↔ first.Same second)
    (rows : List MetricRow) : RollsUp seriesKey (rollupRows numberText rows) rows := by
  have hgroups : Grouped seriesKey numberText (rows.foldl (groupPoint numberText) ∅) rows :=
    grouped rows
  have hiff := rowKey_eq_iff hnumbers hseries
  constructor
  · have hkeys : ((rows.foldl (groupPoint numberText) ∅).keys.insertionSort (· ≤ ·)).Nodup :=
      (List.perm_insertionSort _ _).nodup_iff.mpr (AList.keys_nodup _)
    rw [rollupRows, List.Nodup, List.pairwise_map, List.pairwise_filterMap]
    apply hkeys.imp
    intro key other hne group hgroup otherGroup hother heq
    obtain ⟨row, -, rfl, htarget⟩ := hgroups.target key group hgroup
    obtain ⟨otherRow, -, rfl, hotherTarget⟩ := hgroups.target other otherGroup hother
    rw [htarget, hotherTarget] at heq
    exact hne ((hiff row otherRow).mpr heq)
  · intro target
    have hfilter : ∀ row, rowTarget seriesKey row = target →
        rows.filter (rowTarget seriesKey · = target) =
          rows.filter (rowKey numberText · = rowKey numberText row) := by
      rintro row rfl
      apply List.filter_congr
      intro other _
      rw [decide_eq_decide]
      exact (hiff other row).symm
    cases hfind : find seriesKey (rollupRows numberText rows) target with
    | none =>
        rw [Rolled, samplesOf, List.map_eq_nil_iff, List.filter_eq_nil_iff]
        intro row hrow htarget
        have htarget := of_decide_eq_true htarget
        have hrolled := hgroups.rolled (rowKey numberText row)
        cases hlookup : (rows.foldl (groupPoint numberText) ∅).lookup (rowKey numberText row) with
        | none =>
            rw [hlookup, Rolled, List.map_eq_nil_iff, List.filter_eq_nil_iff] at hrolled
            exact hrolled row hrow (decide_eq_true rfl)
        | some group =>
            obtain ⟨other, -, hkey, hother⟩ := hgroups.target _ group hlookup
            rw [(hiff other row).mp hkey, htarget] at hother
            exact find_ne_none (mem_rollupRows.mpr ⟨_, hlookup⟩) (hother ▸ hfind)
    | some group =>
        obtain ⟨hmem, htarget⟩ := find_eq_some hfind
        obtain ⟨key, hlookup⟩ := mem_rollupRows.mp hmem
        obtain ⟨row, -, rfl, hrow⟩ := hgroups.target key group hlookup
        have hrolled := hgroups.rolled (rowKey numberText row)
        rw [hlookup] at hrolled
        rw [samplesOf, hfilter row (hrow.symm.trans htarget)]
        exact hrolled

/-! ### One upsert -/

omit [DecidableEq SeriesKey] in
theorem conflictTarget_mergeExcluded (row excluded : RollupRow) :
    conflictTarget seriesKey (mergeExcluded row excluded) = conflictTarget seriesKey row := rfl

theorem map_conflictTarget_merge (table : List RollupRow) (excluded : RollupRow) :
    (table.map fun row =>
      if conflictTarget seriesKey row = conflictTarget seriesKey excluded then
        mergeExcluded row excluded
      else row).map (conflictTarget seriesKey) = table.map (conflictTarget seriesKey) := by
  rw [List.map_map]
  apply List.map_congr_left
  intro row _
  rw [Function.comp_apply]
  split
  · exact conflictTarget_mergeExcluded row excluded
  · rfl

theorem nodup_upsertRow {table : List RollupRow}
    (htable : (table.map (conflictTarget seriesKey)).Nodup) (excluded : RollupRow) :
    ((upsertRow seriesKey table excluded).map (conflictTarget seriesKey)).Nodup := by
  unfold upsertRow
  split
  case isTrue => rwa [map_conflictTarget_merge]
  case isFalse hnone =>
    rw [List.map_append, List.map_singleton]
    refine List.nodup_append.mpr ⟨htable, List.nodup_singleton _, ?_⟩
    intro target htarget other hother heq
    obtain ⟨row, hrow, rfl⟩ := List.mem_map.mp htarget
    rw [List.mem_singleton] at hother
    exact hnone ⟨row, hrow, heq.trans hother⟩

/-- An upsert of one row changes the row of its target only. -/
theorem find_upsertRow (table : List RollupRow) (excluded : RollupRow)
    (target : CodeUnits × SeriesKey × ℕ) :
    find seriesKey (upsertRow seriesKey table excluded) target =
      if conflictTarget seriesKey excluded = target then
        (find seriesKey table target).merge mergeExcluded (some excluded)
      else find seriesKey table target := by
  unfold upsertRow
  split
  case isTrue hfound =>
    have hsame : find seriesKey (table.map fun row =>
        if conflictTarget seriesKey row = conflictTarget seriesKey excluded then
          mergeExcluded row excluded
        else row) target = (find seriesKey table target).map fun row =>
          if conflictTarget seriesKey row = conflictTarget seriesKey excluded then
            mergeExcluded row excluded
          else row := by
      unfold find
      rw [List.find?_map]
      congr 2
      funext row
      rw [Function.comp_apply]
      split <;> rfl
    rw [hsame]
    cases hfind : find seriesKey table target with
    | none =>
        split
        case isTrue htarget =>
          obtain ⟨row, hrow, hrowTarget⟩ := hfound
          rw [← htarget, ← hrowTarget] at hfind
          exact absurd hfind (find_ne_none hrow)
        case isFalse => rfl
    | some row =>
        rw [Option.map_some, (find_eq_some hfind).2]
        by_cases htarget : conflictTarget seriesKey excluded = target
        · rw [if_pos htarget, if_pos htarget.symm]
          rfl
        · rw [if_neg htarget, if_neg fun heq => htarget heq.symm]
  case isFalse hnone =>
    have happend : find seriesKey (table ++ [excluded]) target =
        (find seriesKey table target).or (find seriesKey [excluded] target) := List.find?_append
    rw [happend, find_cons]
    by_cases htarget : conflictTarget seriesKey excluded = target
    · have hfind : find seriesKey table target = none := by
        rw [find, List.find?_eq_none]
        intro row hrow heq
        exact hnone ⟨row, hrow, (of_decide_eq_true heq).trans htarget.symm⟩
      rw [if_pos htarget, if_pos htarget, hfind]
      rfl
    · rw [if_neg htarget, if_neg htarget]
      exact Option.or_none

/-- Rows with different targets are merged one by one. -/
theorem find_foldl_upsertRow {table rows : List RollupRow}
    (hrows : (rows.map (conflictTarget seriesKey)).Nodup) (target : CodeUnits × SeriesKey × ℕ) :
    find seriesKey (rows.foldl (upsertRow seriesKey) table) target =
      (find seriesKey table target).merge mergeExcluded (find seriesKey rows target) := by
  induction rows generalizing table with
  | nil => exact Option.merge_none_right.symm
  | cons row rows ih =>
      rw [List.map_cons, List.nodup_cons] at hrows
      rw [List.foldl_cons, ih hrows.2, find_upsertRow, find_cons]
      by_cases htarget : conflictTarget seriesKey row = target
      · have hrest : find seriesKey rows target = none := by
          rw [find, List.find?_eq_none]
          intro other hother heq
          have hsame := (of_decide_eq_true heq).trans htarget.symm
          exact hrows.1 (List.mem_map.mpr ⟨other, hother, hsame⟩)
        rw [if_pos htarget, if_pos htarget, hrest, Option.merge_none_right]
      · rw [if_neg htarget, if_neg htarget]

theorem nodup_foldl_upsertRow {table : List RollupRow}
    (htable : (table.map (conflictTarget seriesKey)).Nodup) (rows : List RollupRow) :
    ((rows.foldl (upsertRow seriesKey) table).map (conflictTarget seriesKey)).Nodup := by
  induction rows generalizing table with
  | nil => exact htable
  | cons row rows ih => exact ih (nodup_upsertRow htable row)

theorem samplesOf_append (target : CodeUnits × SeriesKey × ℕ) (rows others : List MetricRow) :
    samplesOf seriesKey target (rows ++ others) =
      samplesOf seriesKey target rows ++ samplesOf seriesKey target others := by
  rw [samplesOf, List.filter_append, List.map_append, samplesOf, samplesOf]

theorem RollsUp.upserted {table rollups : List RollupRow} {before rows : List MetricRow}
    (htable : RollsUp seriesKey table before) (hrollups : RollsUp seriesKey rollups rows) :
    RollsUp seriesKey (rollups.foldl (upsertRow seriesKey) table) (before ++ rows) where
  nodup := nodup_foldl_upsertRow htable.nodup rollups
  rolled target := by
    rw [find_foldl_upsertRow hrollups.nodup, samplesOf_append]
    exact (htable.rolled target).merge (hrollups.rolled target)

/-! ### Statements of a thousand rows -/

theorem flatten_slices {α : Type*} {size : ℕ} (hsize : 0 < size) (rows : List α) :
    (slices size rows).flatten = rows := by
  have htake : ∀ count, ((List.range count).map fun chunk =>
      (rows.drop (chunk * size)).take size).flatten = rows.take (count * size) := by
    intro count
    induction count with
    | zero => simp
    | succ count ih =>
        rw [List.range_succ, List.map_append, List.flatten_append, ih, Nat.add_mul, Nat.one_mul,
          List.take_add]
        simp
  rw [slices, htake]
  apply List.take_of_length_le
  have hdiv := Nat.div_add_mod (rows.length + size - 1) size
  have hmod := Nat.mod_lt (rows.length + size - 1) hsize
  rw [Nat.mul_comm] at hdiv
  omega

omit [DecidableEq SeriesKey] in
theorem nodup_of_mem_slices {rows chunk : List RollupRow} {size : ℕ}
    (hrows : (rows.map (conflictTarget seriesKey)).Nodup) (hchunk : chunk ∈ slices size rows) :
    (chunk.map (conflictTarget seriesKey)).Nodup := by
  obtain ⟨offset, -, rfl⟩ := List.mem_map.mp hchunk
  have hsub := (List.take_sublist size (rows.drop (offset * size))).trans (List.drop_sublist _ _)
  exact hrows.sublist (hsub.map _)

theorem foldlM_upsert {chunks : List (List RollupRow)}
    (hchunks : ∀ chunk ∈ chunks, (chunk.map (conflictTarget seriesKey)).Nodup)
    (table : List RollupRow) :
    chunks.foldlM (upsert seriesKey) table =
      some (chunks.flatten.foldl (upsertRow seriesKey) table) := by
  induction chunks generalizing table with
  | nil => rfl
  | cons chunk chunks ih =>
      obtain ⟨hchunk, hchunks⟩ := List.forall_mem_cons.mp hchunks
      rw [List.foldlM_cons, upsert, if_pos hchunk, List.flatten_cons, List.foldl_append]
      exact ih hchunks _

theorem foldl_append_slices {α : Type*} (before : List α) (chunks : List (List α)) :
    chunks.foldl (· ++ ·) before = before ++ chunks.flatten := by
  induction chunks generalizing before with
  | nil => exact (List.append_nil before).symm
  | cons chunk chunks ih => rw [List.foldl_cons, ih, List.flatten_cons, List.append_assoc]

/-- What an export does to the tables, whatever the length of its statements. -/
theorem appendInChunks_eq (hnumbers : NumberTexts numberText)
    (hseries : ∀ first second, seriesKey first = seriesKey second ↔ first.Same second)
    {size : ℕ} (hsize : 0 < size) (database : Database) (rows : List MetricRow) :
    appendInChunks seriesKey numberText size database rows = some
      { otelMetrics := database.otelMetrics ++ rows
        otelMetricRollups := (rollupRows numberText rows).foldl (upsertRow seriesKey)
          database.otelMetricRollups } := by
  have hnodup := (rollsUp_rollupRows hnumbers hseries rows).nodup
  unfold appendInChunks
  dsimp only
  rw [foldlM_upsert fun chunk hchunk => nodup_of_mem_slices hnodup hchunk,
    flatten_slices hsize, foldl_append_slices, flatten_slices hsize, Option.map_some]

/-! ### Every run -/

theorem rollsUp_step (hnumbers : NumberTexts numberText)
    (hseries : ∀ first second, seriesKey first = seriesKey second ↔ first.Same second)
    {state next : State} {action : Action}
    (hstate : RollsUp seriesKey state.database.otelMetricRollups state.database.otelMetrics)
    (hstep : (system seriesKey numberText).step state action = some next) :
    RollsUp seriesKey next.database.otelMetricRollups next.database.otelMetrics := by
  cases action with
  | begins rows =>
      change (if rows = [] then _ else _) = _ at hstep
      split at hstep <;> cases hstep <;> exact hstate
  | commits transaction =>
      change (state.transactions[transaction]?.bind fun rows => _) = _ at hstep
      obtain ⟨rows, -, hstep⟩ := Option.bind_eq_some_iff.mp hstep
      rw [appendMetrics, appendInChunks_eq hnumbers hseries (by decide)] at hstep
      cases hstep
      exact hstate.upserted (rollsUp_rollupRows hnumbers hseries rows)
  | fails transaction =>
      cases hstep
      exact hstate

theorem rollsUp_run (hnumbers : NumberTexts numberText)
    (hseries : ∀ first second, seriesKey first = seriesKey second ↔ first.Same second)
    {actions : List Action} {final : State}
    (hrun : (system seriesKey numberText).run initial actions = some final) :
    RollsUp seriesKey final.database.otelMetricRollups final.database.otelMetrics := by
  have hinitial : RollsUp seriesKey initial.database.otelMetricRollups
      initial.database.otelMetrics := ⟨List.nodup_nil, fun _ => rfl⟩
  exact @TransitionSystem.invariant_of_run _ _ (system seriesKey numberText)
    (fun state => RollsUp seriesKey state.database.otelMetricRollups state.database.otelMetrics)
    (fun _ _ _ => rollsUp_step hnumbers hseries) _ _ _ hinitial hrun

end Merging

/-! ### The rollups and the points -/

/-- Whether a point is of a rollup's metric, series and five minutes. -/
def RollupRow.Covers (rollup : RollupRow) (row : MetricRow) : Prop :=
  row.metricName = rollup.metricName ∧ row.series.Same rollup.series ∧
    rollup.bucketStartUnixNano ≤ row.timeUnixNano ∧
    row.timeUnixNano < rollup.bucketStartUnixNano + rollupNanos

open Classical in
noncomputable def Database.covered (database : Database) (rollup : RollupRow) : List MetricRow :=
  database.otelMetrics.filter (rollup.Covers ·)

open Classical in
noncomputable def Database.covering (database : Database) (row : MetricRow) : List RollupRow :=
  database.otelMetricRollups.filter (·.Covers row)

/-- Each rollup says of its points what they say, and each point is in one. -/
structure Database.RollupsEqualRaw (database : Database) : Prop where
  aligned : ∀ rollup ∈ database.otelMetricRollups, rollupNanos ∣ rollup.bucketStartUnixNano
  summarizes : ∀ rollup ∈ database.otelMetricRollups,
    rollup.toSummary.Summarizes ((database.covered rollup).map MetricRow.sample)
  once : ∀ row ∈ database.otelMetrics, ∃ rollup, database.covering row = [rollup]

theorem bucketStartOf_eq_iff {start time : ℕ} (hstart : rollupNanos ∣ start) :
    bucketStartOf time = start ↔ start ≤ time ∧ time < start + rollupNanos := by
  obtain ⟨bucket, rfl⟩ := hstart
  unfold bucketStartOf rollupNanos
  omega

theorem dvd_bucketStartOf (time : ℕ) : rollupNanos ∣ bucketStartOf time :=
  Nat.dvd_sub_mod time

section Equal

variable {SeriesKey : Type*} [DecidableEq SeriesKey] {seriesKey : Series → SeriesKey}
  {numberText : ℚ → CodeUnits}

omit [DecidableEq SeriesKey] in
theorem covers_row_iff
    (hseries : ∀ first second, seriesKey first = seriesKey second ↔ first.Same second)
    {rollup : RollupRow} (haligned : rollupNanos ∣ rollup.bucketStartUnixNano) (row : MetricRow) :
    rollup.Covers row ↔ rowTarget seriesKey row = conflictTarget seriesKey rollup := by
  rw [rowTarget, conflictTarget, Prod.mk.injEq, Prod.mk.injEq, hseries,
    bucketStartOf_eq_iff haligned]
  rfl

variable {database : Database}

theorem RollsUp.find_of_mem {table : List RollupRow} {rows : List MetricRow}
    (hrolls : RollsUp seriesKey table rows) {rollup : RollupRow} (hrollup : rollup ∈ table) :
    find seriesKey table (conflictTarget seriesKey rollup) = some rollup := by
  have hne : find seriesKey table (conflictTarget seriesKey rollup) ≠ none := find_ne_none hrollup
  obtain ⟨found, hfound⟩ := Option.ne_none_iff_exists'.mp hne
  obtain ⟨hmem, htarget⟩ := find_eq_some hfound
  rw [hfound, List.inj_on_of_nodup_map hrolls.nodup hmem hrollup htarget]

theorem RollsUp.aligned {table : List RollupRow} {rows : List MetricRow}
    (hrolls : RollsUp seriesKey table rows) {rollup : RollupRow} (hrollup : rollup ∈ table) :
    rollupNanos ∣ rollup.bucketStartUnixNano := by
  have hrolled := hrolls.rolled (conflictTarget seriesKey rollup)
  rw [hrolls.find_of_mem hrollup] at hrolled
  have hsamples : samplesOf seriesKey (conflictTarget seriesKey rollup) rows ≠ [] :=
    Summary.Summarizes.ne_nil hrolled
  obtain ⟨sample, hsample⟩ := List.exists_mem_of_ne_nil _ hsamples
  obtain ⟨row, hrow, -⟩ := List.mem_map.mp hsample
  have htarget : rowTarget seriesKey row = conflictTarget seriesKey rollup :=
    of_decide_eq_true (List.mem_filter.mp hrow).2
  have hbucket : bucketStartOf row.timeUnixNano = rollup.bucketStartUnixNano :=
    congrArg (fun target => target.2.2) htarget
  exact hbucket ▸ dvd_bucketStartOf row.timeUnixNano

theorem rollupsEqualRaw_of_rollsUp
    (hseries : ∀ first second, seriesKey first = seriesKey second ↔ first.Same second)
    (hrolls : RollsUp seriesKey database.otelMetricRollups database.otelMetrics) :
    database.RollupsEqualRaw where
  aligned rollup hrollup := hrolls.aligned hrollup
  summarizes rollup hrollup := by
    have hcovered : database.covered rollup = database.otelMetrics.filter
        (rowTarget seriesKey · = conflictTarget seriesKey rollup) := by
      apply List.filter_congr
      intro row _
      rw [decide_eq_decide]
      exact covers_row_iff hseries (hrolls.aligned hrollup) row
    have hrolled := hrolls.rolled (conflictTarget seriesKey rollup)
    rw [hrolls.find_of_mem hrollup] at hrolled
    rw [hcovered]
    exact hrolled
  once row hrow := by
    have hrolled := hrolls.rolled (rowTarget seriesKey row)
    cases hfind : find seriesKey database.otelMetricRollups (rowTarget seriesKey row) with
    | none =>
        rw [hfind, Rolled, samplesOf, List.map_eq_nil_iff, List.filter_eq_nil_iff] at hrolled
        exact absurd (decide_eq_true rfl) (hrolled row hrow)
    | some rollup =>
        obtain ⟨hrollup, htarget⟩ := find_eq_some hfind
        refine ⟨rollup, List.perm_singleton.mp ?_⟩
        have hnodup : (database.covering row).Nodup := (List.Nodup.of_map _ hrolls.nodup).filter _
        refine (List.perm_ext_iff_of_nodup hnodup (List.nodup_singleton _)).mpr fun other => ?_
        rw [Database.covering, List.mem_filter, List.mem_singleton]
        have hdecide := @decide_eq_true_iff (other.Covers row) (Classical.propDecidable _)
        rw [hdecide]
        constructor
        · rintro ⟨hother, hcovers⟩
          have heq := (covers_row_iff hseries (hrolls.aligned hother) row).mp hcovers
          exact List.inj_on_of_nodup_map hrolls.nodup hother hrollup (heq.symm.trans htarget.symm)
        · rintro rfl
          exact ⟨hrollup, (covers_row_iff hseries (hrolls.aligned hrollup) row).mpr htarget.symm⟩

/-- The rollups equal the raw points in every run, and no statement touches a row twice. -/
theorem rollups_equal_raw (hnumbers : NumberTexts numberText)
    (hseries : ∀ first second, seriesKey first = seriesKey second ↔ first.Same second)
    {actions : List Action} {final : State}
    (hrun : (system seriesKey numberText).run initial actions = some final) :
    final.database.RollupsEqualRaw ∧
      ∀ size rows, 0 < size →
        (∀ chunk ∈ slices size (rollupRows numberText rows),
          (chunk.map (conflictTarget seriesKey)).Nodup) ∧
        appendInChunks seriesKey numberText size final.database rows =
          appendMetrics seriesKey numberText final.database rows := by
  refine ⟨rollupsEqualRaw_of_rollsUp hseries (rollsUp_run hnumbers hseries hrun), ?_⟩
  intro size rows hsize
  refine ⟨fun chunk hchunk => nodup_of_mem_slices
    (rollsUp_rollupRows hnumbers hseries rows).nodup hchunk, ?_⟩
  rw [appendMetrics, appendInChunks_eq hnumbers hseries hsize,
    appendInChunks_eq hnumbers hseries (by decide)]

end Equal

/-! ### A run of one export -/

/-- Natural numbers as the language writes them, the others by a number of theirs. -/
def naturalText (value : ℚ) : CodeUnits :=
  if value.den = 1 ∧ 0 ≤ value.num then decimal value.num.toNat
  else 0x2D :: decimal (Encodable.encode value)

theorem isNumberUnit_decimal (number : ℕ) :
    decimal number ≠ [] ∧ ∀ unit ∈ decimal number, 48 ≤ unit.val ∧ unit.val < 58 := by
  unfold decimal
  split
  case isTrue => exact ⟨List.cons_ne_nil _ _, List.forall_mem_singleton.mpr (by decide)⟩
  case isFalse hzero =>
    refine ⟨?_, ?_⟩
    · rw [Ne, List.reverse_eq_nil_iff, List.map_eq_nil_iff, Nat.digits_eq_nil_iff_eq_zero]
      exact hzero
    · intro unit hunit
      obtain ⟨digit, hdigit, rfl⟩ := List.mem_map.mp (List.mem_reverse.mp hunit)
      have hlt : digit < 10 := Nat.digits_lt_base (by decide) hdigit
      change 48 ≤ (48 + digit) % 0x10000 ∧ (48 + digit) % 0x10000 < 58
      omega

theorem numberTexts_naturalText : NumberTexts naturalText where
  injective value other heq := by
    have hhead : ∀ {number : ℕ} {text : CodeUnits}, decimal number ≠ 0x2D :: text := by
      intro number text h
      have hunit := (isNumberUnit_decimal number).2 0x2D (h ▸ List.mem_cons_self)
      exact absurd hunit (by decide)
    unfold naturalText at heq
    split at heq <;> split at heq
    case isTrue.isTrue hvalue hother =>
      have hnum := decimal_injective heq
      exact Rat.ext (by omega) (hvalue.1.trans hother.1.symm)
    case isTrue.isFalse => exact absurd heq hhead
    case isFalse.isTrue => exact absurd heq.symm hhead
    case isFalse.isFalse =>
      exact Encodable.encode_injective (decimal_injective (List.cons.inj heq).2)
  nonempty value := by
    unfold naturalText
    split
    · exact (isNumberUnit_decimal _).1
    · exact List.cons_ne_nil _ _
  units value := by
    have hdecimal : ∀ number, ∀ unit ∈ decimal number, IsNumberUnit unit :=
      fun number unit hunit => Or.inl ((isNumberUnit_decimal number).2 unit hunit)
    unfold naturalText
    split
    · exact hdecimal _
    · exact List.forall_mem_cons.mpr ⟨by decide, hdecimal _⟩

/-- Series up to the order of keys. -/
instance seriesSetoid : Setoid Series where
  r := Series.Same
  iseqv :=
    { refl := fun _ => ⟨rfl, .refl _, .refl _⟩
      symm := fun h => ⟨h.1.symm, h.2.1.symm, h.2.2.symm⟩
      trans := fun h h' => ⟨h.1.trans h'.1, h.2.1.trans h'.2.1, h.2.2.trans h'.2.2⟩ }

theorem distinctKeys_pair {first second : JsEntry} (hne : first.1 ≠ second.1)
    (hfirst : first.2.DistinctKeys) (hsecond : second.2.DistinctKeys) :
    (JsValue.object [first, second]).DistinctKeys :=
  .object (by simpa using hne)
    (List.forall_mem_cons.mpr ⟨hfirst, List.forall_mem_singleton.mpr hsecond⟩)

def cpu (attributes : Attributes) (timeUnixNano : ℕ) (value : ℚ) : MetricRow where
  serviceName := none
  resourceAttributes := some attributes
  scopeName := none
  metricName := ascii "cpu"
  metricUnit := none
  metricType := .gauge
  timeUnixNano := timeUnixNano
  value := value
  dataPointAttributes := none

def hostFirst : Attributes :=
  ⟨[(ascii "host", .string (ascii "a")), (ascii "core", .number (some 3))],
    distinctKeys_pair (by decide) (.string _) (.number _)⟩

def coreFirst : Attributes :=
  ⟨[(ascii "core", .number (some 3)), (ascii "host", .string (ascii "a"))],
    distinctKeys_pair (by decide) (.number _) (.string _)⟩

/-- Two points of one series, their keys in different orders. -/
def twoPoints : List MetricRow :=
  [cpu hostFirst 10 5, cpu coreFirst 20 7]

theorem exists_run_export {SeriesKey : Type*} [DecidableEq SeriesKey]
    {seriesKey : Series → SeriesKey} {numberText : ℚ → CodeUnits}
    (hnumbers : NumberTexts numberText)
    (hseries : ∀ first second, seriesKey first = seriesKey second ↔ first.Same second)
    {rows : List MetricRow} (hrows : rows ≠ []) :
    ∃ final, (system seriesKey numberText).run initial [.begins rows, .commits 0] = some final ∧
      final.database.otelMetrics = rows := by
  have happend := appendInChunks_eq hnumbers hseries (show 0 < appendChunkSize by decide)
    initial.database rows
  refine ⟨⟨⟨initial.database.otelMetrics ++ rows, (rollupRows numberText rows).foldl
    (upsertRow seriesKey) initial.database.otelMetricRollups⟩, []⟩, ?_, List.nil_append rows⟩
  refine TransitionSystem.run_cons_eq_some _ |>.mpr ⟨⟨initial.database, [rows]⟩, if_neg hrows, ?_⟩
  refine TransitionSystem.run_cons_eq_some _ |>.mpr ⟨_, ?_, rfl⟩
  change (appendInChunks seriesKey numberText appendChunkSize initial.database rows).bind _ = _
  rw [happend]
  rfl

open Classical in
theorem rollups_equal_raw_twoPoints :
    ∃ final, (system (Quotient.mk seriesSetoid) naturalText).run initial
        [.begins twoPoints, .commits 0] = some final ∧
      final.database.otelMetrics = twoPoints ∧ final.database.RollupsEqualRaw := by
  have hseries : ∀ first second : Series,
      Quotient.mk seriesSetoid first = Quotient.mk seriesSetoid second ↔ first.Same second :=
    fun _ _ => Quotient.eq
  obtain ⟨final, hrun, hmetrics⟩ :=
    exists_run_export numberTexts_naturalText hseries (List.cons_ne_nil _ _)
  exact ⟨final, hrun, hmetrics, (rollups_equal_raw numberTexts_naturalText hseries hrun).1⟩

end CanyonOS.Telemetry.Rollups
