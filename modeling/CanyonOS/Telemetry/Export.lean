import CanyonOS.Lib.Inevitable
import CanyonOS.Telemetry.Traces
import Mathlib

/-!
# The export queue

The three waiting tables, written by the controller and read by the exporter. SQLite reads a table
that it has no index for in the order its rows were inserted, and an upsert leaves a row in its
place. Expired rows are left out.
-/

namespace CanyonOS.Telemetry

def maxSpansPerPoll : ℕ := 512

def maxLogsPerPoll : ℕ := 512

def maxRowExportAttempts : ℕ := 5

/-- What the loops over the three tables differ in. -/
structure Signal (Row Item : Type*) where
  limit : ℕ
  /-- the rows a loop selects, while they are not sent -/
  due : Row → Bool
  /-- `none` where it raises, and nothing of an empty row -/
  convert : Row → Option (List Item)
  /-- `_reject_unexportable` of each row -/
  checksRows : Bool
  placeholder : Row → Option Item
  /-- whether the encoder takes the item -/
  encodable : Item → Bool
  /-- what an upsert makes of the row that is there and its own -/
  upsert : Row → Row → Row

/-- A row of a waiting table. -/
structure Waiting (Key Row : Type*) where
  key : Key
  row : Row
  sent : Bool
  /-- `_row_export_failures` -/
  attempts : ℕ

inductive Outcome (Item : Type*) where
  | skipped
  | empty
  | sends (items : List Item)

namespace Signal

variable {Key Row Item : Type*} [DecidableEq Key] (signal : Signal Row Item)

/-- `_placeholder_after_repeated_failure`, where there are placeholders. -/
def afterFailure (attempts : ℕ) (row : Row) : Outcome Item :=
  if attempts + 1 < maxRowExportAttempts then .skipped
  else
    match signal.placeholder row with
    | some item => if signal.encodable item then .sends [item] else .skipped
    | none => .skipped

/-- What a loop does with a row. -/
def outcome (attempts : ℕ) (row : Row) : Outcome Item :=
  match signal.convert row with
  | some [] => .empty
  | some (item :: items) =>
      if signal.checksRows && !(item :: items).all signal.encodable then
        signal.afterFailure attempts row
      else .sends (item :: items)
  | none => signal.afterFailure attempts row

def pending (waiting : Waiting Key Row) : Bool :=
  signal.due waiting.row && !waiting.sent

/-- The rows of one poll. -/
def window (table : List (Waiting Key Row)) : List (Waiting Key Row) :=
  (table.filter signal.pending).take signal.limit

def batch (table : List (Waiting Key Row)) : List Item :=
  (signal.window table).flatMap fun waiting =>
    match signal.outcome waiting.attempts waiting.row with
    | .sends items => items
    | _ => []

/-- `_deliver_and_mark`: whether every destination takes the batch, which no exporter can hand over
unless it can be encoded. -/
def delivered (destinations : List (List Item → Bool)) (table : List (Waiting Key Row)) : Bool :=
  destinations.all fun accepts =>
    (signal.batch table).all signal.encodable && accepts (signal.batch table)

/-- What a poll leaves of a row that it reads. -/
def after (delivered : Bool) (waiting : Waiting Key Row) : Waiting Key Row :=
  match signal.outcome waiting.attempts waiting.row with
  | .skipped => { waiting with attempts := waiting.attempts + 1 }
  | .empty => { waiting with sent := true }
  | .sends _ => { waiting with sent := delivered, attempts := 0 }

/-- `_send_pending`, or `_flush_pending` where there is no destination. -/
def poll (destinations : List (List Item → Bool)) (table : List (Waiting Key Row)) :
    List (Waiting Key Row) :=
  if destinations.isEmpty then []
  else table.map fun waiting =>
    if waiting.key ∈ (signal.window table).map Waiting.key then
      signal.after (signal.delivered destinations table) waiting
    else waiting

/-- An upsert. -/
def write (key : Key) (row : Row) (table : List (Waiting Key Row)) : List (Waiting Key Row) :=
  if key ∈ table.map Waiting.key then
    table.map fun waiting =>
      if waiting.key = key then { waiting with row := signal.upsert waiting.row row } else waiting
  else table ++ [{ key, row, sent := false, attempts := 0 }]

end Signal

inductive QueueStep (Key Row Item : Type*) where
  | write (key : Key) (row : Row)
  | poll (destinations : List (List Item → Bool))

variable {Key Row Item : Type*} [DecidableEq Key]

def Signal.step (signal : Signal Row Item) (step : QueueStep Key Row Item)
    (table : List (Waiting Key Row)) : List (Waiting Key Row) :=
  match step with
  | .write key row => signal.write key row table
  | .poll destinations => signal.poll destinations table

/-- A table, as the controller and the exporter go on working on it. -/
structure QueueRun (Key : Type*) [DecidableEq Key] (signal : Signal Row Item) where
  table : ℕ → List (Waiting Key Row)
  step : ℕ → QueueStep Key Row Item
  distinct : ((table 0).map Waiting.key).Nodup
  next : ∀ time, table (time + 1) = signal.step (step time) (table time)

/-! ### The three signals -/

/-- The loop over `traces_waiting`. -/
def traceSignal {Span : Type*} (convert placeholder : TraceRow → Option Span)
    (encodable : Span → Bool) : Signal TraceRow Span where
  limit := maxSpansPerPoll
  due := fun row => row.finishedAt.isSome
  convert := fun row => (convert row).map fun span => [span]
  checksRows := true
  placeholder := placeholder
  encodable := encodable
  upsert := fun stored excluded =>
    (tracesUpsert (some { toTraceRow := stored }) excluded).toTraceRow

/-- The loop over `metrics_waiting`. -/
def metricSignal {Sample Metrics : Type*} (convert : Sample → Option (Option Metrics))
    (encodable : Metrics → Bool) : Signal Sample Metrics where
  limit := maxSpansPerPoll
  due := fun _ => true
  convert := fun row => (convert row).map Option.toList
  checksRows := false
  placeholder := fun _ => none
  encodable := encodable
  upsert := fun _ excluded => excluded

/-- The loop over `logs_waiting`. -/
def logSignal {LogRow LogRecord : Type*} (convert : LogRow → Option (List LogRecord))
    (encodable : LogRecord → Bool) : Signal LogRow LogRecord where
  limit := maxLogsPerPoll
  due := fun _ => true
  convert := convert
  checksRows := false
  placeholder := fun _ => none
  encodable := encodable
  upsert := fun _ excluded => excluded

/-- The upsert of a trace leaves `sent` as it is. -/
theorem traceSignal_upsert {Span : Type*} (convert placeholder : TraceRow → Option Span)
    (encodable : Span → Bool) (stored excluded : TraceRow) (sent : Bool) :
    tracesUpsert (some { toTraceRow := stored, sent := sent }) excluded =
      { toTraceRow := (traceSignal convert placeholder encodable).upsert stored excluded,
        sent := sent } := by
  by_cases hoverwrites : Overwrites { toTraceRow := stored, sent := sent } excluded
  · have hsame : Overwrites { toTraceRow := stored } excluded := hoverwrites
    simp only [traceSignal, tracesUpsert, if_pos hoverwrites, if_pos hsame]
  · have hsame : ¬ Overwrites { toTraceRow := stored } excluded := hoverwrites
    simp only [traceSignal, tracesUpsert, if_neg hoverwrites, if_neg hsame]

/-! ### What an export is for -/

/-- The row can be selected, converted and encoded by itself. -/
def Signal.Exportable (signal : Signal Row Item) (row : Row) : Prop :=
  signal.due row = true ∧ ∃ item items, signal.convert row = some (item :: items) ∧
    (item :: items).all signal.encodable = true

/-- No poll can do anything with the row but skip it. -/
def Signal.stuck (signal : Signal Row Item) (waiting : Waiting Key Row) : Bool :=
  signal.pending waiting &&
    match signal.outcome maxRowExportAttempts waiting.row with
    | .skipped => true
    | _ => false

namespace QueueRun

variable {signal : Signal Row Item} (run : QueueRun Key signal)

def SentAt (time : ℕ) (key : Key) : Prop :=
  ∃ waiting ∈ run.table time, waiting.key = key ∧ waiting.sent = true

/-- Sent means accepted everywhere, and nothing is starved. -/
structure Holds : Prop where
  accepted : ∀ time, ∀ waiting ∈ run.table time, waiting.sent = false →
    ∀ later ∈ run.table (time + 1), later.key = waiting.key → later.sent = true →
    ∃ destinations, run.step time = .poll destinations ∧
      (signal.outcome waiting.attempts waiting.row = .empty ∨
        ∃ items, signal.outcome waiting.attempts waiting.row = .sends items ∧
          items ⊆ signal.batch (run.table time) ∧
          ∀ accepts ∈ destinations, accepts (signal.batch (run.table time)) = true)
  kept : ∀ time, ∀ waiting ∈ run.table time, waiting.sent = true →
    ∀ later ∈ run.table (time + 1), later.key = waiting.key → later.sent = true
  progress : ∀ start key,
    (∀ time ≥ start, ∀ destinations, run.step time = .poll destinations →
      destinations ≠ [] ∧ ∀ accepts ∈ destinations, ∀ batch, accepts batch = true) →
    (∀ time, ∃ later ≥ time, ∃ destinations, run.step later = .poll destinations) →
    key ∈ (run.table start).map Waiting.key →
    (∀ time ≥ start, ∀ waiting ∈ run.table time, waiting.key = key →
      signal.Exportable waiting.row) →
    ∃ time ≥ start, run.SentAt time key

/-- No row that is not checked by itself converts to what cannot be encoded, and those that can
only be skipped are too few to fill a poll. -/
structure Clear : Prop where
  encodes : ∀ time, ∀ waiting ∈ run.table time, signal.pending waiting = true →
    ∀ items, signal.convert waiting.row = some items →
      signal.checksRows = true ∨ items.all signal.encodable = true
  room : ∀ time, ((run.table time).filter signal.stuck).length < signal.limit

end QueueRun

/-! ### Keys -/

section Keys

variable {signal : Signal Row Item} {table : List (Waiting Key Row)}

omit [DecidableEq Key] in
@[simp]
theorem key_after (delivered : Bool) (waiting : Waiting Key Row) :
    (signal.after delivered waiting).key = waiting.key := by
  rw [Signal.after]
  split <;> rfl

theorem keys_poll {destinations : List (List Item → Bool)} (hne : destinations ≠ []) :
    (signal.poll destinations table).map Waiting.key = table.map Waiting.key := by
  have hempty : destinations.isEmpty = false := List.isEmpty_eq_false_iff.mpr hne
  rw [Signal.poll, hempty, if_neg Bool.false_ne_true, List.map_map]
  apply List.map_congr_left
  intro waiting _
  rw [Function.comp_apply]
  split_ifs
  · exact key_after _ _
  · rfl

theorem keys_write (key : Key) (row : Row) :
    (signal.write key row table).map Waiting.key =
      if key ∈ table.map Waiting.key then table.map Waiting.key
      else table.map Waiting.key ++ [key] := by
  rw [Signal.write]
  split_ifs
  · rw [List.map_map]
    apply List.map_congr_left
    intro waiting _
    rw [Function.comp_apply]
    split_ifs <;> rfl
  · rw [List.map_append]
    rfl

theorem nodup_step {step : QueueStep Key Row Item} (hdistinct : (table.map Waiting.key).Nodup) :
    ((signal.step step table).map Waiting.key).Nodup := by
  cases step with
  | write key row =>
      rw [Signal.step, keys_write]
      split_ifs with hmem
      · exact hdistinct
      · rw [List.nodup_append]
        refine ⟨hdistinct, List.nodup_singleton key, ?_⟩
        intro other hother same hsame heq
        rw [List.mem_singleton.mp hsame] at heq
        exact hmem (heq ▸ hother)
  | poll destinations =>
      rw [Signal.step]
      by_cases hne : destinations = []
      · subst hne
        rw [Signal.poll, List.isEmpty_nil, if_pos rfl]
        exact List.nodup_nil
      · rw [keys_poll hne]
        exact hdistinct

theorem QueueRun.nodup (run : QueueRun Key signal) (time : ℕ) :
    ((run.table time).map Waiting.key).Nodup := by
  induction time with
  | zero => exact run.distinct
  | succ time ih =>
      rw [run.next]
      exact nodup_step ih

omit [DecidableEq Key] in
theorem mem_window {waiting : Waiting Key Row} (hmem : waiting ∈ signal.window table) :
    waiting ∈ table ∧ signal.pending waiting = true :=
  List.mem_filter.mp (List.mem_of_mem_take hmem)

omit [DecidableEq Key] in
theorem key_mem_window (hdistinct : (table.map Waiting.key).Nodup) {waiting : Waiting Key Row}
    (hmem : waiting ∈ table) :
    waiting.key ∈ (signal.window table).map Waiting.key ↔ waiting ∈ signal.window table := by
  constructor
  · intro hkey
    obtain ⟨other, hother, heq⟩ := List.mem_map.mp hkey
    rw [← List.inj_on_of_nodup_map hdistinct (mem_window hother).1 hmem heq]
    exact hother
  · exact List.mem_map_of_mem

/-- What a poll leaves of a row. -/
theorem mem_poll {destinations : List (List Item → Bool)}
    (hdistinct : (table.map Waiting.key).Nodup) {later : Waiting Key Row}
    (hlater : later ∈ signal.poll destinations table) :
    ∃ waiting ∈ table, (waiting ∈ signal.window table ∧
        later = signal.after (signal.delivered destinations table) waiting) ∨
      later = waiting := by
  rw [Signal.poll] at hlater
  split_ifs at hlater with hempty
  · cases hlater
  · obtain ⟨waiting, hmem, hafter⟩ := List.mem_map.mp hlater
    refine ⟨waiting, hmem, ?_⟩
    split_ifs at hafter with hkey
    · exact Or.inl ⟨(key_mem_window hdistinct hmem).mp hkey, hafter.symm⟩
    · exact Or.inr hafter.symm

end Keys

/-! ### What a step does to a row -/

section Step

variable {signal : Signal Row Item} {table : List (Waiting Key Row)}

theorem mem_write {key : Key} {row : Row} {later : Waiting Key Row}
    (hlater : later ∈ signal.write key row table) :
    (∃ waiting ∈ table, later.key = waiting.key ∧ later.sent = waiting.sent) ∨
      (later.key ∉ table.map Waiting.key ∧ later.sent = false) := by
  rw [Signal.write] at hlater
  split_ifs at hlater with hmem
  · obtain ⟨waiting, hwaiting, rfl⟩ := List.mem_map.mp hlater
    refine Or.inl ⟨waiting, hwaiting, ?_⟩
    split_ifs <;> exact ⟨rfl, rfl⟩
  · obtain hold | hnew := List.mem_append.mp hlater
    · exact Or.inl ⟨later, hold, rfl, rfl⟩
    · rw [List.mem_singleton.mp hnew]
      exact Or.inr ⟨hmem, rfl⟩

/-- The row that a write finds or leaves under a key is as sent as it was. -/
theorem sent_write (hdistinct : (table.map Waiting.key).Nodup) {key : Key} {row : Row}
    {waiting later : Waiting Key Row} (hmem : waiting ∈ table)
    (hlater : later ∈ signal.write key row table) (hkey : later.key = waiting.key) :
    later.sent = waiting.sent := by
  obtain ⟨other, hother, hsame, hsent⟩ | ⟨hfresh, -⟩ := mem_write hlater
  · have heq : other = waiting :=
      List.inj_on_of_nodup_map hdistinct hother hmem (hsame.symm.trans hkey)
    rw [hsent, heq]
  · exact absurd (hkey ▸ List.mem_map_of_mem hmem) hfresh

theorem sent_poll (hdistinct : (table.map Waiting.key).Nodup)
    {destinations : List (List Item → Bool)} {waiting later : Waiting Key Row}
    (hmem : waiting ∈ table) (hlater : later ∈ signal.poll destinations table)
    (hkey : later.key = waiting.key) :
    (waiting ∈ signal.window table ∧
        later = signal.after (signal.delivered destinations table) waiting) ∨
      later = waiting := by
  obtain ⟨other, hother, hcase⟩ := mem_poll hdistinct hlater
  have hsame : other.key = later.key := by
    obtain ⟨-, rfl⟩ | rfl := hcase
    · rw [key_after]
    · rfl
  have heq : other = waiting :=
    List.inj_on_of_nodup_map hdistinct hother hmem (hsame.trans hkey)
  exact heq ▸ hcase

omit [DecidableEq Key] in
theorem subset_batch {waiting : Waiting Key Row} {items : List Item}
    (hmem : waiting ∈ signal.window table)
    (hsends : signal.outcome waiting.attempts waiting.row = .sends items) :
    items ⊆ signal.batch table := by
  intro item hitem
  rw [Signal.batch, List.mem_flatMap]
  refine ⟨waiting, hmem, ?_⟩
  rw [hsends]
  exact hitem

omit [DecidableEq Key] in
/-- A row that a poll marks was empty, or in a batch that every destination took. -/
theorem sent_after {delivered : Bool} {waiting : Waiting Key Row}
    (hunsent : waiting.sent = false) (hsent : (signal.after delivered waiting).sent = true) :
    signal.outcome waiting.attempts waiting.row = .empty ∨
      ∃ items, signal.outcome waiting.attempts waiting.row = .sends items ∧ delivered = true := by
  rw [Signal.after] at hsent
  split at hsent
  case h_1 hskipped =>
      rw [hunsent] at hsent
      cases hsent
  case h_2 hempty => exact Or.inl hempty
  case h_3 items hsends => exact Or.inr ⟨items, hsends, hsent⟩

omit [DecidableEq Key] in
theorem accepts_of_delivered {destinations : List (List Item → Bool)}
    (hdelivered : signal.delivered destinations table = true) :
    ∀ accepts ∈ destinations, accepts (signal.batch table) = true := by
  intro accepts haccepts
  have hboth := List.all_eq_true.mp hdelivered accepts haccepts
  exact (Bool.and_eq_true_iff.mp hboth).2

theorem accepted_of_step (hdistinct : (table.map Waiting.key).Nodup)
    {step : QueueStep Key Row Item} {waiting later : Waiting Key Row} (hmem : waiting ∈ table)
    (hunsent : waiting.sent = false) (hlater : later ∈ signal.step step table)
    (hkey : later.key = waiting.key) (hsent : later.sent = true) :
    ∃ destinations, step = .poll destinations ∧
      (signal.outcome waiting.attempts waiting.row = .empty ∨
        ∃ items, signal.outcome waiting.attempts waiting.row = .sends items ∧
          items ⊆ signal.batch table ∧
          ∀ accepts ∈ destinations, accepts (signal.batch table) = true) := by
  cases step with
  | write key row =>
      rw [sent_write hdistinct hmem hlater hkey, hunsent] at hsent
      cases hsent
  | poll destinations =>
      refine ⟨destinations, rfl, ?_⟩
      obtain ⟨hwindow, rfl⟩ | rfl := sent_poll hdistinct hmem hlater hkey
      · obtain hempty | ⟨items, hsends, hdelivered⟩ := sent_after hunsent hsent
        · exact Or.inl hempty
        · exact Or.inr ⟨items, hsends, subset_batch hwindow hsends,
            accepts_of_delivered hdelivered⟩
      · rw [hunsent] at hsent
        cases hsent

omit [DecidableEq Key] in
/-- What is sent is selected no more. -/
theorem unsent_of_mem_window {waiting : Waiting Key Row} (hmem : waiting ∈ signal.window table) :
    waiting.sent = false := by
  have hpending := (mem_window hmem).2
  rw [Signal.pending, Bool.and_eq_true_iff, Bool.not_eq_true'] at hpending
  exact hpending.2

theorem kept_of_step (hdistinct : (table.map Waiting.key).Nodup)
    {step : QueueStep Key Row Item} {waiting later : Waiting Key Row} (hmem : waiting ∈ table)
    (hsent : waiting.sent = true) (hlater : later ∈ signal.step step table)
    (hkey : later.key = waiting.key) : later.sent = true := by
  cases step with
  | write key row =>
      rw [sent_write hdistinct hmem hlater hkey, hsent]
  | poll destinations =>
      obtain ⟨hwindow, -⟩ | rfl := sent_poll hdistinct hmem hlater hkey
      · rw [unsent_of_mem_window hwindow] at hsent
        cases hsent
      · exact hsent

end Step

/-! ### Polls that every destination takes -/

section Accepted

variable {signal : Signal Row Item} {table : List (Waiting Key Row)}

theorem encodable_of_outcome {attempts : ℕ} {row : Row} {items : List Item}
    (hencodes : ∀ items, signal.convert row = some items →
      signal.checksRows = true ∨ items.all signal.encodable = true)
    (hsends : signal.outcome attempts row = .sends items) :
    items.all signal.encodable = true := by
  have hfailure : ∀ {items}, signal.afterFailure attempts row = .sends items →
      items.all signal.encodable = true := by
    intro items hafter
    rw [Signal.afterFailure] at hafter
    split_ifs at hafter
    split at hafter
    · split_ifs at hafter with hencodable
      cases hafter
      simpa using hencodable
    · cases hafter
  rw [Signal.outcome] at hsends
  split at hsends
  · cases hsends
  · rename_i item items' hconvert
    split_ifs at hsends with hrejected
    · exact hfailure hsends
    · cases hsends
      obtain hchecks | hall := hencodes _ hconvert
      · rw [hchecks, Bool.true_and, Bool.not_eq_true', Bool.not_eq_false] at hrejected
        exact hrejected
      · exact hall
  · exact hfailure hsends

omit [DecidableEq Key] in
theorem delivered_of_accepts {destinations : List (List Item → Bool)}
    (hencodes : ∀ waiting ∈ table, signal.pending waiting = true → ∀ items,
      signal.convert waiting.row = some items →
      signal.checksRows = true ∨ items.all signal.encodable = true)
    (haccepts : ∀ accepts ∈ destinations, ∀ batch, accepts batch = true) :
    signal.delivered destinations table = true := by
  have hbatch : (signal.batch table).all signal.encodable = true := by
    rw [List.all_eq_true]
    intro item hitem
    obtain ⟨waiting, hwaiting, hin⟩ := List.mem_flatMap.mp hitem
    obtain ⟨hmem, hpending⟩ := mem_window hwaiting
    split at hin
    · rename_i items hsends
      exact List.all_eq_true.mp (encodable_of_outcome (hencodes waiting hmem hpending) hsends)
        item hin
    · cases hin
  rw [Signal.delivered, List.all_eq_true]
  intro accepts hmem
  rw [hbatch, haccepts accepts hmem, Bool.true_and]

/-- How many polls that everybody takes a row can be in. -/
def weight (waiting : Waiting Key Row) : ℕ :=
  if waiting.sent then 0 else maxRowExportAttempts - waiting.attempts + 1

omit [DecidableEq Key] in
theorem weight_after_le (waiting : Waiting Key Row) (hunsent : waiting.sent = false) :
    weight (signal.after true waiting) ≤ weight waiting := by
  rw [Signal.after]
  split
  · simp only [weight, hunsent, Bool.false_eq_true, if_false]
    omega
  · exact Nat.zero_le _
  · exact Nat.zero_le _

theorem afterFailure_of_le {attempts : ℕ} (hlast : maxRowExportAttempts ≤ attempts + 1)
    (row : Row) :
    signal.afterFailure attempts row = signal.afterFailure maxRowExportAttempts row := by
  have hmax : ¬ maxRowExportAttempts + 1 < maxRowExportAttempts := by omega
  rw [Signal.afterFailure, Signal.afterFailure, if_neg (Nat.not_lt.mpr hlast), if_neg hmax]

theorem outcome_of_le {attempts : ℕ} (hlast : maxRowExportAttempts ≤ attempts + 1) (row : Row) :
    signal.outcome attempts row = signal.outcome maxRowExportAttempts row := by
  rw [Signal.outcome, Signal.outcome, afterFailure_of_le hlast]

omit [DecidableEq Key] in
/-- A row that is not stuck is sent at the latest with its last attempt. -/
theorem weight_after_lt {waiting : Waiting Key Row} (hpending : signal.pending waiting = true)
    (hfree : signal.stuck waiting = false) :
    weight (signal.after true waiting) < weight waiting := by
  have hunsent : waiting.sent = false := by
    rw [Signal.pending, Bool.and_eq_true_iff, Bool.not_eq_true'] at hpending
    exact hpending.2
  have hpositive : 0 < weight waiting := by
    simp only [weight, hunsent]
    exact Nat.succ_pos _
  rw [Signal.after]
  split
  · rename_i hskipped
    have hearly : waiting.attempts + 1 < maxRowExportAttempts := by
      by_contra hlate
      rw [outcome_of_le (Nat.not_lt.mp hlate)] at hskipped
      rw [Signal.stuck, hpending, hskipped] at hfree
      cases hfree
    simp only [weight, hunsent, Bool.false_eq_true, if_false]
    omega
  · exact hpositive
  · exact hpositive

end Accepted

/-! ### The rows before one -/

section Ahead

variable {signal : Signal Row Item} {table : List (Waiting Key Row)} {key : Key}
  {destinations : List (List Item → Bool)}

def ahead (key : Key) (table : List (Waiting Key Row)) : List (Waiting Key Row) :=
  table.takeWhile fun waiting => waiting.key ≠ key

theorem ahead_map {change : Waiting Key Row → Waiting Key Row}
    (hkeys : ∀ waiting, (change waiting).key = waiting.key) :
    ahead key (table.map change) = (ahead key table).map change := by
  rw [ahead, ahead, List.takeWhile_map]
  congr 1
  apply congrArg (fun keep => table.takeWhile keep)
  funext waiting
  rw [Function.comp_apply, hkeys]

theorem eq_ahead_append (hkey : key ∈ table.map Waiting.key) :
    ∃ waiting rest, waiting.key = key ∧ table = ahead key table ++ waiting :: rest := by
  induction table with
  | nil => cases hkey
  | cons first table ih =>
      by_cases hfirst : first.key = key
      · refine ⟨first, table, hfirst, ?_⟩
        rw [ahead, List.takeWhile_cons_of_neg (by simpa using hfirst)]
        rfl
      · have hrest : key ∈ table.map Waiting.key := by
          obtain hhead | htail := List.mem_cons.mp hkey
          · exact absurd hhead.symm hfirst
          · exact htail
        obtain ⟨waiting, rest, hwaiting, hsplit⟩ := ih hrest
        refine ⟨waiting, rest, hwaiting, ?_⟩
        have hcons : ahead key (first :: table) = first :: ahead key table :=
          List.takeWhile_cons_of_pos (by simpa using hfirst)
        rw [hcons, List.cons_append, ← hsplit]

theorem ahead_append (hkey : key ∈ table.map Waiting.key) (more : List (Waiting Key Row)) :
    ahead key (table ++ more) = ahead key table := by
  have hshort : (ahead key table).length ≠ table.length := by
    obtain ⟨waiting, rest, -, hsplit⟩ := eq_ahead_append hkey
    intro hlength
    have hcount := congrArg List.length hsplit
    rw [List.length_append, List.length_cons] at hcount
    omega
  rw [ahead] at hshort
  rw [ahead, List.takeWhile_append, if_neg hshort, ahead]

theorem mem_ahead {waiting : Waiting Key Row} (hmem : waiting ∈ ahead key table) :
    waiting ∈ table :=
  (List.takeWhile_sublist _).subset hmem

/-- How much is to do before a row is read. -/
def backlog (key : Key) (table : List (Waiting Key Row)) : ℕ :=
  ((ahead key table).map weight).sum

theorem backlog_write (hkey : key ∈ table.map Waiting.key) (other : Key) (row : Row) :
    backlog key (signal.write other row table) = backlog key table := by
  rw [backlog, backlog, Signal.write]
  split_ifs
  · rw [ahead_map (by intro waiting; split_ifs <;> rfl), List.map_map]
    congr 1
    apply List.map_congr_left
    intro waiting _
    rw [Function.comp_apply]
    split_ifs <;> rfl
  · rw [ahead_append hkey]

/-- What a poll that is delivered does to each row. -/
def polled (signal : Signal Row Item) (table : List (Waiting Key Row))
    (waiting : Waiting Key Row) : Waiting Key Row :=
  if waiting.key ∈ (signal.window table).map Waiting.key then signal.after true waiting
  else waiting

theorem poll_eq {destinations : List (List Item → Bool)} (hne : destinations ≠ [])
    (hdelivered : signal.delivered destinations table = true) :
    signal.poll destinations table = table.map (polled signal table) := by
  have hempty : destinations.isEmpty = false := List.isEmpty_eq_false_iff.mpr hne
  rw [Signal.poll, hempty, if_neg Bool.false_ne_true, hdelivered]
  rfl

theorem key_polled (waiting : Waiting Key Row) :
    (polled signal table waiting).key = waiting.key := by
  rw [polled]
  split_ifs
  · exact key_after _ _
  · rfl

theorem weight_polled_le (hdistinct : (table.map Waiting.key).Nodup) {waiting : Waiting Key Row}
    (hmem : waiting ∈ table) : weight (polled signal table waiting) ≤ weight waiting := by
  rw [polled]
  split_ifs with hkey
  · have hwindow := (key_mem_window hdistinct hmem).mp hkey
    exact weight_after_le waiting (unsent_of_mem_window hwindow)
  · exact le_rfl

theorem backlog_poll (hne : destinations ≠ [])
    (hdelivered : signal.delivered destinations table = true) :
    backlog key (signal.poll destinations table) =
      ((ahead key table).map fun waiting => weight (polled signal table waiting)).sum := by
  rw [backlog, poll_eq hne hdelivered, ahead_map key_polled, List.map_map]
  rfl

theorem backlog_poll_le (hdistinct : (table.map Waiting.key).Nodup) (hne : destinations ≠ [])
    (hdelivered : signal.delivered destinations table = true) :
    backlog key (signal.poll destinations table) ≤ backlog key table := by
  rw [backlog_poll hne hdelivered]
  exact List.sum_le_sum fun waiting hmem => weight_polled_le hdistinct (mem_ahead hmem)

/-- A poll that does not come to a row is full of rows before it. -/
theorem window_eq_of_not_mem (hkey : key ∈ table.map Waiting.key)
    (hpending : ∀ waiting ∈ table, waiting.key = key → signal.pending waiting = true)
    (hmissed : key ∉ (signal.window table).map Waiting.key) :
    signal.window table = ((ahead key table).filter signal.pending).take signal.limit ∧
      (signal.window table).length = signal.limit := by
  obtain ⟨waiting, rest, hwaiting, hsplit⟩ := eq_ahead_append hkey
  have hdue : signal.pending waiting = true := by
    refine hpending waiting ?_ hwaiting
    rw [hsplit]
    exact List.mem_append_right _ List.mem_cons_self
  have hfilter : table.filter signal.pending =
      (ahead key table).filter signal.pending ++ waiting :: rest.filter signal.pending := by
    conv_lhs => rw [hsplit, List.filter_append, List.filter_cons_of_pos hdue]
  have hfull : signal.limit ≤ ((ahead key table).filter signal.pending).length := by
    by_contra hshort
    apply hmissed
    rw [Signal.window, hfilter]
    refine List.mem_map.mpr ⟨waiting, ?_, hwaiting⟩
    obtain ⟨left, hleft⟩ := Nat.exists_eq_add_of_lt (Nat.not_le.mp hshort)
    rw [hleft, Nat.add_assoc, List.take_length_add_append, List.take_succ_cons]
    exact List.mem_append_right _ List.mem_cons_self
  have hwindow : signal.window table =
      ((ahead key table).filter signal.pending).take signal.limit := by
    rw [Signal.window, hfilter, List.take_append_of_le_length hfull]
  refine ⟨hwindow, ?_⟩
  rw [hwindow, List.length_take, Nat.min_eq_left hfull]

omit [DecidableEq Key] in
theorem exists_free (hroom : (table.filter signal.stuck).length < signal.limit)
    (hlength : (signal.window table).length = signal.limit) :
    ∃ waiting ∈ signal.window table, signal.stuck waiting = false := by
  by_contra hnone
  have hall : ∀ waiting ∈ signal.window table, signal.stuck waiting = true := by
    intro waiting hmem
    by_contra hfree
    exact hnone ⟨waiting, hmem, Bool.eq_false_iff.mpr hfree⟩
  have hsublist : (signal.window table).Sublist table :=
    (List.take_sublist _ _).trans List.filter_sublist
  have hstuck := (hsublist.filter signal.stuck).length_le
  rw [List.filter_eq_self.mpr hall] at hstuck
  omega

theorem backlog_poll_lt (hdistinct : (table.map Waiting.key).Nodup) (hne : destinations ≠ [])
    (hdelivered : signal.delivered destinations table = true)
    (hroom : (table.filter signal.stuck).length < signal.limit)
    (hkey : key ∈ table.map Waiting.key)
    (hpending : ∀ waiting ∈ table, waiting.key = key → signal.pending waiting = true)
    (hmissed : key ∉ (signal.window table).map Waiting.key) :
    backlog key (signal.poll destinations table) < backlog key table := by
  obtain ⟨hwindow, hlength⟩ := window_eq_of_not_mem hkey hpending hmissed
  obtain ⟨waiting, hmem, hfree⟩ := exists_free hroom hlength
  have hahead : waiting ∈ ahead key table := by
    rw [hwindow] at hmem
    exact List.mem_of_mem_filter (List.mem_of_mem_take hmem)
  rw [backlog_poll hne hdelivered]
  apply List.sum_lt_sum
  · intro other hother
    exact weight_polled_le hdistinct (mem_ahead hother)
  · refine ⟨waiting, hahead, ?_⟩
    rw [polled, if_pos (List.mem_map_of_mem hmem)]
    exact weight_after_lt (mem_window hmem).2 hfree

end Ahead

/-! ### Whole runs -/

section Run

variable {signal : Signal Row Item} {table : List (Waiting Key Row)}
  {destinations : List (List Item → Bool)} {key : Key}

theorem outcome_of_exportable {row : Row} (hexportable : signal.Exportable row) (attempts : ℕ) :
    ∃ items, signal.outcome attempts row = .sends items := by
  obtain ⟨-, item, items, hconvert, hencodable⟩ := hexportable
  refine ⟨item :: items, ?_⟩
  rw [Signal.outcome, hconvert]
  simp only [hencodable, Bool.not_true, Bool.and_false, Bool.false_eq_true, if_false]

theorem sent_of_mem_window (hne : destinations ≠ [])
    (hdelivered : signal.delivered destinations table = true)
    (hexportable : ∀ waiting ∈ table, waiting.key = key → signal.Exportable waiting.row)
    (hread : key ∈ (signal.window table).map Waiting.key) :
    ∃ later ∈ signal.poll destinations table, later.key = key ∧ later.sent = true := by
  obtain ⟨waiting, hwindow, hwaiting⟩ := List.mem_map.mp hread
  have hmem := (mem_window hwindow).1
  obtain ⟨items, hsends⟩ := outcome_of_exportable (hexportable waiting hmem hwaiting)
    waiting.attempts
  rw [poll_eq hne hdelivered]
  refine ⟨polled signal table waiting, List.mem_map_of_mem hmem, ?_, ?_⟩
  · rw [key_polled, hwaiting]
  · rw [polled, if_pos (List.mem_map_of_mem hwindow), Signal.after, hsends]

theorem mem_keys_step {step : QueueStep Key Row Item}
    (hne : ∀ destinations, step = .poll destinations → destinations ≠ [])
    (hkey : key ∈ table.map Waiting.key) : key ∈ (signal.step step table).map Waiting.key := by
  cases step with
  | write other row =>
      rw [Signal.step, keys_write]
      split_ifs
      · exact hkey
      · exact List.mem_append_left _ hkey
  | poll destinations =>
      rw [Signal.step, keys_poll (hne destinations rfl)]
      exact hkey

namespace QueueRun

variable {run : QueueRun Key signal}

theorem SentAt.succ {time : ℕ} (hsent : run.SentAt time key)
    (hkey : key ∈ (run.table (time + 1)).map Waiting.key) : run.SentAt (time + 1) key := by
  obtain ⟨waiting, hmem, hwaiting, hsent⟩ := hsent
  obtain ⟨later, hlater, hlaterKey⟩ := List.mem_map.mp hkey
  refine ⟨later, hlater, hlaterKey, ?_⟩
  rw [run.next] at hlater
  exact kept_of_step (run.nodup time) hmem hsent hlater (hlaterKey.trans hwaiting.symm)

/-- Each poll sends the row, or leaves less to do before it. -/
theorem progress_of_clear (hclear : run.Clear) {start : ℕ}
    (haccepts : ∀ time ≥ start, ∀ destinations, run.step time = .poll destinations →
      destinations ≠ [] ∧ ∀ accepts ∈ destinations, ∀ batch, accepts batch = true)
    (hpolls : ∀ time, ∃ later ≥ time, ∃ destinations, run.step later = .poll destinations)
    (hkey : key ∈ (run.table start).map Waiting.key)
    (hexportable : ∀ time ≥ start, ∀ waiting ∈ run.table time, waiting.key = key →
      signal.Exportable waiting.row) :
    ∃ time ≥ start, run.SentAt time key := by
  have hkeys : ∀ time ≥ start, key ∈ (run.table time).map Waiting.key := by
    intro time htime
    induction time, htime using Nat.le_induction with
    | base => exact hkey
    | succ time htime ih =>
        rw [run.next]
        refine mem_keys_step ?_ ih
        intro destinations hpoll
        exact (haccepts time htime destinations hpoll).1
  have hdelivered : ∀ time ≥ start, ∀ destinations, run.step time = .poll destinations →
      signal.delivered destinations (run.table time) = true := by
    intro time htime destinations hpoll
    exact delivered_of_accepts (hclear.encodes time) (haccepts time htime destinations hpoll).2
  apply @exists_of_descends_often fun time => backlog key (run.table time)
  · intro time htime
    rw [run.next]
    cases hstep : run.step time with
    | write other row => exact (backlog_write (hkeys time htime) other row).le
    | poll destinations =>
        exact backlog_poll_le (run.nodup time) (haccepts time htime destinations hstep).1
          (hdelivered time htime destinations hstep)
  · intro time htime
    obtain ⟨later, hlater, destinations, hpoll⟩ := hpolls time
    have hstart : later ≥ start := htime.trans hlater
    have hne := (haccepts later hstart destinations hpoll).1
    have hall := hdelivered later hstart destinations hpoll
    have hnext : run.table (later + 1) = signal.poll destinations (run.table later) := by
      rw [run.next, hpoll]
      rfl
    refine ⟨later, hlater, ?_⟩
    by_cases hsent : run.SentAt later key
    · exact Or.inl (hsent.succ (hkeys (later + 1) (by omega)))
    · by_cases hread : key ∈ (signal.window (run.table later)).map Waiting.key
      · left
        rw [SentAt, hnext]
        exact sent_of_mem_window hne hall (hexportable later hstart) hread
      · right
        rw [hnext]
        refine backlog_poll_lt (run.nodup later) hne hall (hclear.room later)
          (hkeys later hstart) ?_ hread
        -- a row that can be exported is pending until it is sent
        intro waiting hmem hwaiting
        have hunsent : waiting.sent = false := by
          by_contra htrue
          exact hsent ⟨waiting, hmem, hwaiting, Bool.not_eq_false _ ▸ htrue⟩
        rw [Signal.pending, (hexportable later hstart waiting hmem hwaiting).1, hunsent]
        rfl

theorem holds_of_clear (hclear : run.Clear) : run.Holds where
  accepted := by
    intro time waiting hmem hunsent later hlater hkey hsent
    rw [run.next] at hlater
    exact accepted_of_step (run.nodup time) hmem hunsent hlater hkey hsent
  kept := by
    intro time waiting hmem hsent later hlater hkey
    rw [run.next] at hlater
    exact kept_of_step (run.nodup time) hmem hsent hlater hkey
  progress := by
    intro start key haccepts hpolls hkey hexportable
    exact progress_of_clear hclear haccepts hpolls hkey hexportable

end QueueRun

end Run

/-! ### Some queues -/

/-- `session_id` as a trace id, read in hexadecimal: any number of digits is read, and 128 bits are
encoded. -/
def sessionSignal : Signal ℕ ℕ :=
  logSignal (fun session => some [session]) (fun traceId => decide (traceId < 2 ^ 128))

/-- One row, sent by the first poll. -/
def oneRow (signal : Signal Row Item) (row : Row)
    (hfirst : signal.poll [fun _ => true] [{ key := 0, row, sent := false, attempts := 0 }] =
      [{ key := 0, row, sent := true, attempts := 0 }])
    (hrest : signal.poll [fun _ => true] [{ key := 0, row, sent := true, attempts := 0 }] =
      [{ key := 0, row, sent := true, attempts := 0 }]) : QueueRun ℕ signal where
  table
    | 0 => [{ key := 0, row, sent := false, attempts := 0 }]
    | _ + 1 => [{ key := 0, row, sent := true, attempts := 0 }]
  step := fun _ => .poll [fun _ => true]
  distinct := List.nodup_singleton 0
  next
    | 0 => hfirst.symm
    | _ + 1 => hrest.symm

theorem clear_oneRow {signal : Signal Row Item} {row : Row}
    {hfirst : signal.poll [fun _ => true] [{ key := 0, row, sent := false, attempts := 0 }] =
      [{ key := 0, row, sent := true, attempts := 0 }]}
    {hrest : signal.poll [fun _ => true] [{ key := 0, row, sent := true, attempts := 0 }] =
      [{ key := 0, row, sent := true, attempts := 0 }]}
    (hlimit : 1 < signal.limit)
    (hencodes : ∀ items, signal.convert row = some items →
      items.all signal.encodable = true) :
    (oneRow signal row hfirst hrest).Clear where
  encodes := by
    intro time waiting hmem _ items hconvert
    have hrow : waiting.row = row := by
      cases time with
      | zero => rw [List.mem_singleton.mp hmem]
      | succ time => rw [List.mem_singleton.mp hmem]
    exact Or.inr (hencodes items (hrow ▸ hconvert))
  room := by
    intro time
    have hone : ((oneRow signal row hfirst hrest).table time).length = 1 := by
      cases time <;> rfl
    have hle := List.length_filter_le signal.stuck ((oneRow signal row hfirst hrest).table time)
    omega

def oneTrace : QueueRun ℕ (traceSignal (fun row => some row.futureId) (fun _ => none)
    (fun span => decide (span ≠ ""))) :=
  oneRow _ { futureId := "1f", sessionId := "2e", finishedAt := some 3 } rfl rfl

def oneSample : QueueRun ℕ (metricSignal (fun row : ℕ => some (some row)) fun _ => true) :=
  oneRow _ 7 rfl rfl

def oneLog : QueueRun ℕ sessionSignal :=
  oneRow _ 5 rfl rfl

/-- The first row has a session of 33 digits. -/
def blockedLogs : QueueRun ℕ sessionSignal where
  table := fun _ =>
    [{ key := 0, row := 2 ^ 128, sent := false, attempts := 0 },
      { key := 1, row := 5, sent := false, attempts := 0 }]
  step := fun _ => .poll [fun _ => true]
  distinct := by decide
  next := fun _ => rfl

theorem not_holds_blockedLogs : ¬ blockedLogs.Holds := by
  intro hholds
  obtain ⟨time, -, waiting, hmem, -, hsent⟩ := hholds.progress 0 1
    (by
      intro time _ destinations hpoll
      cases hpoll
      exact ⟨List.cons_ne_nil _ _, by simp⟩)
    (fun time => ⟨time, le_rfl, _, rfl⟩)
    (by decide)
    (by
      intro time _ waiting hmem hwaiting
      obtain rfl | rfl : waiting = _ ∨ waiting = _ := by simpa [blockedLogs] using hmem
      · cases hwaiting
      · exact ⟨rfl, 5, [], rfl, rfl⟩)
  obtain rfl | rfl : waiting = _ ∨ waiting = _ := by simpa [blockedLogs] using hmem
  · cases hsent
  · cases hsent

/-- The three queues keep their promise while each poll has room for a row it can send. -/
theorem export_holds {Span Sample Metrics LogRow LogRecord TraceKey SampleKey LogKey : Type*}
    [DecidableEq TraceKey] [DecidableEq SampleKey] [DecidableEq LogKey]
    {convertTrace placeholder : TraceRow → Option Span} {encodableSpan : Span → Bool}
    {convertSample : Sample → Option (Option Metrics)} {encodableMetrics : Metrics → Bool}
    {convertLog : LogRow → Option (List LogRecord)} {encodableLog : LogRecord → Bool}
    (traces : QueueRun TraceKey (traceSignal convertTrace placeholder encodableSpan))
    (metrics : QueueRun SampleKey (metricSignal convertSample encodableMetrics))
    (logs : QueueRun LogKey (logSignal convertLog encodableLog))
    (htraces : traces.Clear) (hmetrics : metrics.Clear) (hlogs : logs.Clear) :
    traces.Holds ∧ metrics.Holds ∧ logs.Holds :=
  ⟨traces.holds_of_clear htraces, metrics.holds_of_clear hmetrics, logs.holds_of_clear hlogs⟩

theorem export_holds_oneRow : oneTrace.Holds ∧ oneSample.Holds ∧ oneLog.Holds :=
  export_holds oneTrace oneSample oneLog
    (clear_oneRow (by decide) (by rintro _ ⟨⟩; rfl))
    (clear_oneRow (by decide) (by rintro _ ⟨⟩; rfl))
    (clear_oneRow (by decide) (by rintro _ ⟨⟩; rfl))

end CanyonOS.Telemetry
