import CanyonOS.Record

/-!
# The trace queue

A row of `traces_waiting` is what one read of a future's hash said of it. The same future is read
from several machines, at several stages of its call, and written over its own row.
-/

namespace CanyonOS.Telemetry

/-- The columns a future's record fills. Those of an LLM call, of costs and of rounded durations
are left out. -/
structure TraceRow where
  futureId : FutureId
  parentId : Option FutureId := none
  sessionId : RequestId := ""
  projectId : Option String := none
  agentId : Option String := none
  startedAt : Time := 0
  finishedAt : Option Time := none
  cpu : Rat := 0
  gpu : Rat := 0
  failed : Bool := false
  errorName : Option String := none
  errorMessage : Option String := none
  name : String := ""
  input : Option String := none
  output : Option String := none
deriving DecidableEq

/-- Python's `or`, for a text that may be missing or empty. -/
def orElse (text : Option String) (other : Option String) : Option String :=
  if text.getD "" = "" then other else text

/-- `service.method`, of the parts that are there. -/
def callName (record : Record) : String :=
  ".".intercalate ((record.service.toList ++ record.method.toList).filter (· ≠ ""))

/-- The row that `_trace_write_rows` makes of a record read at `future:<key>`. `normalizeJsonText`
is `_normalize_json_text`. -/
def rowOf (normalizeJsonText : String → String) (projectId : Option String) (key : FutureId)
    (record : Record) : TraceRow where
  futureId := (orElse record.id (some key)).getD ""
  parentId := orElse record.parent none
  sessionId := record.requestId.getD ""
  projectId := projectId
  agentId := record.agent
  startedAt := record.createdAt.getD 0
  finishedAt := record.finishedAt
  cpu := record.cpuResource.getD 0
  gpu := record.gpuResource.getD 0
  failed := record.failed.getD false
  errorName := record.errorName
  errorMessage := record.error
  name := (orElse (some (callName record)) (orElse record.agent none)).getD "unknown_agent"
  input := record.args.map normalizeJsonText
  output := record.result.map normalizeJsonText

/-- A row without a future or a request is dropped. -/
def traceRow (normalizeJsonText : String → String) (projectId : Option String) (key : FutureId)
    (record : Record) : Option TraceRow :=
  let row := rowOf normalizeJsonText projectId key record
  if row.futureId = "" ∨ row.sessionId = "" then none else some row

/-- A queued row. `sent` is the exporter's and no upsert touches it. -/
structure WaitingRow extends TraceRow where
  sent : Bool := false
deriving DecidableEq

/-- The `WHERE` clause of `_TRACES_UPSERT`. -/
def Overwrites (stored : WaitingRow) (excluded : TraceRow) : Prop :=
  (stored.finishedAt = none ∧ stored.failed = false) ∨ excluded.finishedAt.isSome ∨
    excluded.failed = true

instance (stored : WaitingRow) (excluded : TraceRow) : Decidable (Overwrites stored excluded) :=
  inferInstanceAs (Decidable (_ ∨ _))

/-- `_TRACES_UPSERT`, of a row for the future stored. -/
def tracesUpsert (stored : Option WaitingRow) (excluded : TraceRow) : WaitingRow :=
  match stored with
  | none => { toTraceRow := excluded }
  | some stored =>
      if Overwrites stored excluded then { toTraceRow := excluded, sent := stored.sent }
      else stored

/-- The rows of one future written one after another. -/
def writeRows (stored : Option WaitingRow) (rows : List TraceRow) : Option WaitingRow :=
  rows.foldl (fun stored excluded => some (tracesUpsert stored excluded)) stored

/-! ### Rows that lose what they said -/

/-- The row says when its call ended. -/
def HasFinished (stored : Option WaitingRow) : Prop :=
  ∃ row ∈ stored, row.finishedAt.isSome

instance (stored : Option WaitingRow) : Decidable (HasFinished stored) :=
  inferInstanceAs (Decidable (∃ _ ∈ _, _))

/-- Once the row says when its call ended it goes on saying so, whatever is written next. -/
def NeverRegresses (stored : Option WaitingRow) : List TraceRow → Prop
  | [] => True
  | row :: rows =>
      (HasFinished stored → HasFinished (some (tracesUpsert stored row))) ∧
        NeverRegresses (some (tracesUpsert stored row)) rows

/-- The call failed and nothing has said when it ended. -/
def FailedOpen (row : TraceRow) : Prop :=
  row.failed = true ∧ row.finishedAt = none

instance (row : TraceRow) : Decidable (FailedOpen row) := inferInstanceAs (Decidable (_ ∧ _))

/-- No row that failed without an end comes after one that has an end. -/
def NoLateFailure : List TraceRow → Prop
  | [] => True
  | row :: rows => (row.finishedAt.isSome → ∀ later ∈ rows, ¬ FailedOpen later) ∧ NoLateFailure rows

theorem eq_rowOf {normalizeJsonText : String → String} {projectId : Option String}
    {key : FutureId} {record : Record} {row : TraceRow}
    (hrow : traceRow normalizeJsonText projectId key record = some row) :
    row = rowOf normalizeJsonText projectId key record := by
  unfold traceRow at hrow
  dsimp only at hrow
  split_ifs at hrow
  exact (Option.some.inj hrow).symm

variable {stored : Option WaitingRow} {row : TraceRow} {rows : List TraceRow}

/-- `sent` of what is stored, or of a row just inserted. -/
def sentOf (stored : Option WaitingRow) : Bool :=
  (stored.map WaitingRow.sent).getD false

theorem sent_tracesUpsert : (tracesUpsert stored row).sent = sentOf stored := by
  unfold tracesUpsert sentOf
  split
  · rfl
  · split_ifs <;> rfl

/-- A row that finished or failed is written whatever is stored. -/
theorem tracesUpsert_eq (hended : row.finishedAt.isSome ∨ row.failed = true) :
    tracesUpsert stored row = { toTraceRow := row, sent := sentOf stored } := by
  unfold tracesUpsert sentOf
  split
  · rfl
  · rename_i before
    have hwritten : Overwrites before row := Or.inr hended
    rw [if_pos hwritten]
    rfl

theorem hasFinished_of_isSome (hfinished : row.finishedAt.isSome) :
    HasFinished (some (tracesUpsert stored row)) := by
  refine ⟨_, rfl, ?_⟩
  rw [tracesUpsert_eq (Or.inl hfinished)]
  exact hfinished

theorem not_hasFinished_of_failedOpen (hfailed : FailedOpen row) :
    ¬ HasFinished (some (tracesUpsert stored row)) := by
  rintro ⟨_, ⟨⟩, hfinished⟩
  rw [tracesUpsert_eq (Or.inr hfailed.1)] at hfinished
  simp [hfailed.2] at hfinished

/-- A row written over one that has finished: only a failure without an end undoes that. -/
theorem hasFinished_upsert_iff (hstored : HasFinished stored) :
    HasFinished (some (tracesUpsert stored row)) ↔ ¬ FailedOpen row := by
  constructor
  · intro hfinished hfailed
    exact not_hasFinished_of_failedOpen hfailed hfinished
  · intro hopen
    by_cases hfinished : row.finishedAt.isSome
    · exact hasFinished_of_isSome hfinished
    · obtain ⟨before, hbefore, hend⟩ := hstored
      cases hbefore
      have hkept : ¬ Overwrites before row := by
        rw [Option.not_isSome_iff_eq_none] at hfinished
        rintro (⟨hnone, -⟩ | hsome | hfailed)
        · simp [hnone] at hend
        · simp [hfinished] at hsome
        · exact hopen ⟨hfailed, hfinished⟩
      refine ⟨before, ?_, hend⟩
      rw [tracesUpsert, if_neg hkept]
      rfl

/-- What it says after a write it said before, or the row written says it. -/
theorem isSome_of_hasFinished_upsert (hafter : HasFinished (some (tracesUpsert stored row)))
    (hbefore : ¬ HasFinished stored) : row.finishedAt.isSome := by
  obtain ⟨_, ⟨⟩, hfinished⟩ := hafter
  unfold tracesUpsert at hfinished
  split at hfinished
  · exact hfinished
  · rename_i before
    split_ifs at hfinished
    · exact hfinished
    · exact absurd ⟨before, rfl, hfinished⟩ hbefore

theorem neverRegresses_iff :
    NeverRegresses stored rows ↔
      (HasFinished stored → ∀ later ∈ rows, ¬ FailedOpen later) ∧ NoLateFailure rows := by
  induction rows generalizing stored with
  | nil => simp [NeverRegresses, NoLateFailure]
  | cons row rows ih =>
      rw [NeverRegresses, NoLateFailure, ih]
      constructor
      · rintro ⟨hrow, hrest, hlater⟩
        refine ⟨?_, ?_, hlater⟩
        · intro hstored later hmem
          rcases List.mem_cons.mp hmem with rfl | hmem
          · exact (hasFinished_upsert_iff hstored).mp (hrow hstored)
          · exact hrest (hrow hstored) later hmem
        · intro hfinished
          exact hrest (hasFinished_of_isSome hfinished)
      · rintro ⟨hstored, hrow, hlater⟩
        refine ⟨?_, ?_, hlater⟩
        · intro hfinished
          exact (hasFinished_upsert_iff hfinished).mpr
            (hstored hfinished row List.mem_cons_self)
        · intro hafter later hmem
          by_cases hbefore : HasFinished stored
          · exact hstored hbefore later (List.mem_cons_of_mem _ hmem)
          · exact hrow (isSome_of_hasFinished_upsert hafter hbefore) later hmem

/-! ### Orders of the last rows -/

theorem writeRows_concat (rows : List TraceRow) (row : TraceRow) :
    writeRows stored (rows ++ [row]) = some (tracesUpsert (writeRows stored rows) row) := by
  rw [writeRows, List.foldl_append]
  rfl

/-- Rows of a call still running leave a finished one alone. -/
theorem writeRows_of_quiet {finished : WaitingRow} (hfinished : finished.finishedAt.isSome)
    (hquiet : ∀ row ∈ rows, row.finishedAt = none ∧ row.failed = false) :
    writeRows (some finished) rows = some finished := by
  induction rows with
  | nil => rfl
  | cons row rows ih =>
      rw [List.forall_mem_cons] at hquiet
      have hkept : ¬ Overwrites finished row := by
        rintro (⟨hnone, -⟩ | hsome | hfailed)
        · simp [hnone] at hfinished
        · simp [hquiet.1.1] at hsome
        · simp [hquiet.1.2] at hfailed
      have hrow : tracesUpsert (some finished) row = finished := by
        rw [tracesUpsert, if_neg hkept]
      rw [writeRows, List.foldl_cons, hrow]
      exact ih hquiet.2

/-- With one finished row among them and no failure without an end, the finished one is what
remains. -/
theorem writeRows_of_single {finished : TraceRow}
    (hsingle : rows.filter (fun row => row.finishedAt.isSome) = [finished])
    (hopen : ∀ row ∈ rows, ¬ FailedOpen row) :
    writeRows stored rows = some { toTraceRow := finished, sent := sentOf stored } := by
  induction rows generalizing stored with
  | nil => cases hsingle
  | cons row rows ih =>
      rw [List.forall_mem_cons] at hopen
      rw [writeRows, List.foldl_cons]
      by_cases hfinished : row.finishedAt.isSome
      · rw [List.filter_cons, if_pos hfinished, List.cons.injEq, List.filter_eq_nil_iff] at hsingle
        obtain ⟨rfl, hrest⟩ := hsingle
        rw [tracesUpsert_eq (Or.inl hfinished)]
        refine writeRows_of_quiet hfinished ?_
        intro later hmem
        have hnone : later.finishedAt = none := by simpa using hrest later hmem
        refine ⟨hnone, ?_⟩
        by_contra hfailed
        exact hopen.2 later hmem ⟨by simpa using hfailed, hnone⟩
      · rw [List.filter_cons, if_neg hfinished] at hsingle
        have hsent : sentOf (some (tracesUpsert stored row)) = sentOf stored := sent_tracesUpsert
        rw [← hsent]
        exact ih hsingle hopen.2

/-- The trace queue keeps what it knows and forgets in which order it learnt it, as far as no
failure without an end is written after, or beside, the row of the call's end. -/
theorem trace_queue_iff (rows : List TraceRow) (stored : Option WaitingRow)
    (lasts : List TraceRow) :
    (NeverRegresses none rows ↔ NoLateFailure rows) ∧
      (lasts.countP (fun row => row.finishedAt.isSome) = 1 →
        ((∀ first second : List TraceRow, first.Perm lasts → second.Perm lasts →
            writeRows stored first = writeRows stored second) ↔
          ∀ row ∈ lasts, ¬ FailedOpen row)) := by
  constructor
  · rw [neverRegresses_iff, and_iff_right]
    rintro ⟨_, ⟨⟩, -⟩
  · intro hone
    rw [List.countP_eq_length_filter, List.length_eq_one_iff] at hone
    obtain ⟨finished, hsingle⟩ := hone
    constructor
    · intro hsame failed hmem hopen
      have hfinished : finished ∈ lasts.filter fun row => row.finishedAt.isSome := by
        rw [hsingle]
        exact List.mem_singleton_self _
      obtain ⟨hmemFinished, hsome⟩ := List.mem_filter.mp hfinished
      have hperm : ∀ last ∈ lasts, ((lasts.erase last) ++ [last]).Perm lasts := by
        intro last hlast
        exact (List.perm_append_singleton _ _).trans (List.perm_cons_erase hlast).symm
      have horders := hsame _ _ (hperm failed hmem) (hperm finished hmemFinished)
      rw [writeRows_concat, writeRows_concat, tracesUpsert_eq (Or.inr hopen.1),
        tracesUpsert_eq (Or.inl hsome)] at horders
      have hrows := congrArg (Option.map fun row => row.finishedAt) horders
      simp only [Option.map_some, Option.some.injEq, hopen.2] at hrows
      rw [← hrows] at hsome
      cases hsome
    · intro hopen first second hfirst hsecond
      have hall : ∀ rows : List TraceRow, rows.Perm lasts →
          writeRows stored rows = some { toTraceRow := finished, sent := sentOf stored } := by
        intro rows hperm
        refine writeRows_of_single ?_ ?_
        · have hfilter := hperm.filter (fun row => row.finishedAt.isSome)
          rw [hsingle] at hfilter
          exact List.perm_singleton.mp hfilter
        · intro row hmem
          exact hopen row (hperm.mem_iff.mp hmem)
      rw [hall first hfirst, hall second hsecond]

/-- The executor's row of a call that ended. -/
def executorRow : TraceRow :=
  { futureId := "f", sessionId := "r", finishedAt := some 9, output := some "42" }

/-- The caller's row, to whom the result could not be sent. -/
def callerRow : TraceRow :=
  { futureId := "f", sessionId := "r", failed := true, errorMessage := some "UNAVAILABLE" }

theorem trace_queue_after_caller :
    NeverRegresses none [callerRow, executorRow] ∧
      ∀ first second : List TraceRow, first.Perm [executorRow, { futureId := "f" }] →
        second.Perm [executorRow, { futureId := "f" }] →
        writeRows none first = writeRows none second :=
  ⟨(trace_queue_iff _ none []).1.mpr ⟨by decide, by decide, trivial⟩,
    ((trace_queue_iff [] none [executorRow, { futureId := "f" }]).2 (by decide)).mpr (by decide)⟩

/-- Read from the executor first and from the caller next, a finished call is open again. -/
theorem late_failure_forgets_end :
    ¬ NeverRegresses none [executorRow, callerRow] ∧
      writeRows none [executorRow, callerRow] ≠ writeRows none [callerRow, executorRow] := by
  constructor
  · rintro ⟨-, hkept, -⟩
    revert hkept
    decide
  · decide

end CanyonOS.Telemetry
