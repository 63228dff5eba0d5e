import CanyonOS.Lib.Interleaving
import CanyonOS.Lib.TransitionSystem

/-!
# The log entries of a future

The `logs` field of a future's hash holds the text of a JSON list. `append_log_entry` reads the
field and writes it back with one entry more, for each failure, each line of the log handler and
each failed submission; a snapshot that arrives by `WriteResult` overwrites it. Any number of them
write to the field of one future on one Redis.
-/

namespace CanyonOS.LogEntries

open Interleaving

variable {Writer Entry : Type} [DecidableEq Writer]

/-- The `logs` field as `json.loads` reads it. -/
inductive LogsField (Entry : Type) where
  | absent
  | logs (entries : List Entry)
  /-- JSON that is not a list -/
  | value
  /-- not JSON, or no text at all -/
  | unreadable
deriving DecidableEq

namespace LogsField

/-- The field with no entry is not there. -/
def ofEntries : List Entry → LogsField Entry
  | [] => absent
  | entry :: entries => logs (entry :: entries)

def entries? : LogsField Entry → Option (List Entry)
  | absent => some []
  | logs entries => some entries
  | value | unreadable => none

@[simp]
theorem entries?_ofEntries (entries : List Entry) :
    (ofEntries entries).entries? = some entries := by
  cases entries <;> rfl

theorem ofEntries_inj {entries others : List Entry} :
    ofEntries entries = ofEntries others ↔ entries = others := by
  refine ⟨fun heq => ?_, congrArg ofEntries⟩
  have hentries := congrArg entries? heq
  rw [entries?_ofEntries, entries?_ofEntries] at hentries
  exact Option.some.inj hentries

theorem logs_eq_ofEntries {entries : List Entry} (hne : entries ≠ []) :
    logs entries = ofEntries entries := by
  cases entries with
  | nil => exact absurd rfl hne
  | cons entry entries => rfl

/-- `hset_multiple` of a snapshot's hash: a field the snapshot lacks stays. -/
def hsetMultiple (snapshot field : LogsField Entry) : LogsField Entry :=
  match snapshot with
  | absent => field
  | snapshot => snapshot

end LogsField

/-- What `append_log_entry` writes where `hget` gave `existing`; `none` where `append` raises. -/
def appendLogEntry (existing : LogsField Entry) (entry : Entry) : Option (LogsField Entry) :=
  match existing with
  | .absent | .unreadable => some (.logs [entry])
  | .logs entries => some (.logs (entries ++ [entry]))
  | .value => none

theorem appendLogEntry_ofEntries (entries : List Entry) (entry : Entry) :
    appendLogEntry (.ofEntries entries) entry = some (.ofEntries (entries ++ [entry])) := by
  cases entries <;> rfl

/-- The entries of a call that ran on another Redis, as `append_log_entry` left them there. -/
structure RemoteLogs (Entry : Type) where
  entries : List Entry
  nonempty : entries ≠ []

inductive Task (Entry : Type) where
  /-- `append_log_entry` -/
  | append (entry : Entry)
  /-- `_send_result_callback` between replicas of this Redis: `hgetall`, then `WriteResult` -/
  | callback
  /-- `WriteResult` of a snapshot from another Redis -/
  | receive (remote : RemoteLogs Entry)

def Task.entries : Task Entry → List Entry
  | append entry => [entry]
  | callback => []
  | receive remote => remote.entries

def entriesOf (tasks : List (Task Entry)) : List Entry :=
  tasks.flatMap Task.entries

structure Worker (Entry : Type) where
  tasks : List (Task Entry)
  /-- what the first task has read -/
  existing : Option (LogsField Entry) := none

structure State (Writer Entry : Type) where
  field : LogsField Entry
  worker : Writer → Worker Entry

inductive Action (Writer : Type) where
  | read (writer : Writer)
  | write (writer : Writer)
  | finish (writer : Writer)

def State.setWorker (state : State Writer Entry) (writer : Writer) (worker : Worker Entry) :
    State Writer Entry :=
  { state with worker := Function.update state.worker writer worker }

def State.setField (state : State Writer Entry) (field : LogsField Entry) : State Writer Entry :=
  { state with field := field }

@[simp]
theorem State.worker_setWorker_self (state : State Writer Entry) (writer : Writer)
    (worker : Worker Entry) : (state.setWorker writer worker).worker writer = worker := by
  simp [setWorker]

@[simp]
theorem State.worker_setWorker_of_ne (state : State Writer Entry) {writer other : Writer}
    (hne : other ≠ writer) (worker : Worker Entry) :
    (state.setWorker writer worker).worker other = state.worker other := by
  simp [setWorker, hne]

theorem State.setField_setWorker_self (state : State Writer Entry) (field : LogsField Entry)
    (writer : Writer) :
    (state.setField field).setWorker writer (state.worker writer) = state.setField field := by
  simp [setWorker, setField]

def step (state : State Writer Entry) : Action Writer → Option (State Writer Entry)
  | .read writer =>
      match state.worker writer with
      | ⟨.append entry :: tasks, none⟩ =>
          some (state.setWorker writer ⟨.append entry :: tasks, some state.field⟩)
      | ⟨.callback :: tasks, none⟩ =>
          some (state.setWorker writer ⟨.callback :: tasks, some state.field⟩)
      | _ => none
  | .write writer =>
      match state.worker writer with
      | ⟨.append entry :: tasks, some existing⟩ =>
          let field := (appendLogEntry existing entry).getD state.field
          some ((state.setField field).setWorker writer ⟨tasks, none⟩)
      -- `call_with_retry` may deliver the same snapshot again
      | ⟨.callback :: _, some snapshot⟩ => some (state.setField (snapshot.hsetMultiple state.field))
      | ⟨.receive remote :: tasks, none⟩ =>
          let snapshot := .logs remote.entries
          some ((state.setField snapshot).setWorker writer ⟨.callback :: tasks, some snapshot⟩)
      | _ => none
  | .finish writer =>
      match state.worker writer with
      | ⟨.callback :: tasks, some _⟩ => some (state.setWorker writer ⟨tasks, none⟩)
      | _ => none

def system : TransitionSystem (State Writer Entry) (Action Writer) := ⟨step⟩

def start (program : Writer → List (Task Entry)) : State Writer Entry :=
  ⟨.absent, fun writer => ⟨program writer, none⟩⟩

def State.Finished (state : State Writer Entry) : Prop :=
  ∀ writer, (state.worker writer).tasks = []

/-- The field holds each entry written so far exactly once, those of a writer in order. -/
def State.Kept (program : Writer → List (Task Entry)) (state : State Writer Entry) : Prop :=
  ∃ written : Writer → List Entry, ∃ logs : List Entry,
    state.field.entries? = some logs ∧ Merges written logs ∧
      ∀ writer, written writer ++ entriesOf (state.worker writer).tasks = entriesOf (program writer)

/-- A write finds the field as its writer's read found it; the first write of a snapshot of another
Redis finds none. -/
def Untouched (state : State Writer Entry) : Action Writer → Prop
  | .write writer =>
      match state.worker writer with
      | ⟨.append _ :: _, some existing⟩ => state.field = existing
      | ⟨.callback :: _, some snapshot⟩ => snapshot = .absent ∨ state.field = snapshot
      | ⟨.receive _ :: _, _⟩ => state.field = .absent
      | _ => True
  | _ => True

/-! ### Steps -/

inductive Steps (state : State Writer Entry) : Action Writer → State Writer Entry → Prop where
  | read {writer : Writer} {task : Task Entry} {tasks : List (Task Entry)}
      (hworker : state.worker writer = ⟨task :: tasks, none⟩) :
      Steps state (.read writer) (state.setWorker writer ⟨task :: tasks, some state.field⟩)
  | append {writer : Writer} {entry : Entry} {tasks : List (Task Entry)}
      {existing : LogsField Entry}
      (hworker : state.worker writer = ⟨.append entry :: tasks, some existing⟩) :
      Steps state (.write writer)
        ((state.setField ((appendLogEntry existing entry).getD state.field)).setWorker writer
          ⟨tasks, none⟩)
  | callback {writer : Writer} {tasks : List (Task Entry)} {snapshot : LogsField Entry}
      (hworker : state.worker writer = ⟨.callback :: tasks, some snapshot⟩) :
      Steps state (.write writer) (state.setField (snapshot.hsetMultiple state.field))
  | receive {writer : Writer} {remote : RemoteLogs Entry} {tasks : List (Task Entry)}
      (hworker : state.worker writer = ⟨.receive remote :: tasks, none⟩) :
      Steps state (.write writer)
        ((state.setField (.logs remote.entries)).setWorker writer
          ⟨.callback :: tasks, some (.logs remote.entries)⟩)
  | finish {writer : Writer} {tasks : List (Task Entry)} {snapshot : LogsField Entry}
      (hworker : state.worker writer = ⟨.callback :: tasks, some snapshot⟩) :
      Steps state (.finish writer) (state.setWorker writer ⟨tasks, none⟩)

theorem steps_of_step {state next : State Writer Entry} {action : Action Writer}
    (hstep : system.step state action = some next) : Steps state action next := by
  cases action with
  | read writer =>
      change step state (.read writer) = some next at hstep
      rw [step] at hstep
      split at hstep <;> cases hstep
      · exact .read ‹_›
      · exact .read ‹_›
  | write writer =>
      change step state (.write writer) = some next at hstep
      rw [step] at hstep
      split at hstep <;> cases hstep
      · exact .append ‹_›
      · exact .callback ‹_›
      · exact .receive ‹_›
  | finish writer =>
      change step state (.finish writer) = some next at hstep
      rw [step] at hstep
      split at hstep <;> cases hstep
      exact .finish ‹_›

/-! ### What a write keeps -/

section Writes

variable {program : Writer → List (Task Entry)} {state next : State Writer Entry}
  {logs seen items : List Entry} {writer : Writer} {worker : Worker Entry}

theorem merges_of_kept (hkept : state.Kept program) (hfield : state.field = .ofEntries logs) :
    ∃ written : Writer → List Entry, Merges written logs ∧
      ∀ writer, written writer ++ entriesOf (state.worker writer).tasks =
        entriesOf (program writer) := by
  obtain ⟨written, held, hheld, hmerges, hprogram⟩ := hkept
  rw [hfield, LogsField.entries?_ofEntries] at hheld
  cases hheld
  exact ⟨written, hmerges, hprogram⟩

variable (items worker) in
/-- A write of what was read and more keeps all entries only where nothing was written since. -/
theorem kept_write_iff (hkept : state.Kept program) (hfield : state.field = .ofEntries logs)
    (hseen : seen <+: logs)
    (htasks : entriesOf (state.worker writer).tasks = items ++ entriesOf worker.tasks) :
    ((state.setField (.ofEntries (seen ++ items))).setWorker writer worker).Kept program ↔
      seen = logs := by
  obtain ⟨written, hmerges, hprogram⟩ := merges_of_kept hkept hfield
  have hafter : ∀ other,
      Function.update written writer (written writer ++ items) other ++
          entriesOf ((state.setWorker writer worker).worker other).tasks =
        entriesOf (program other) := by
    intro other
    by_cases hother : other = writer
    · rw [hother, Function.update_self, State.worker_setWorker_self, List.append_assoc, ← htasks,
        hprogram writer]
    · rw [Function.update_of_ne hother, State.worker_setWorker_of_ne _ hother, hprogram other]
  constructor
  · intro hkept'
    obtain ⟨others, hothers, hprogram'⟩ := merges_of_kept hkept' rfl
    have heq : others = Function.update written writer (written writer ++ items) := by
      funext other
      exact List.append_cancel_right ((hprogram' other).trans (hafter other).symm)
    rw [heq] at hothers
    have hlength := hmerges.length_append hothers
    rw [List.length_append] at hlength
    exact hseen.eq_of_length (by omega)
  · rintro rfl
    exact ⟨_, _, LogsField.entries?_ofEntries _, hmerges.append writer items, hafter⟩

/-- The field is a list of entries, and what each writer has read is a beginning of it. -/
def State.Reads (state : State Writer Entry) (logs : List Entry) : Prop :=
  state.field = .ofEntries logs ∧
    ∀ writer, ∀ existing ∈ (state.worker writer).existing,
      ∃ seen, existing = .ofEntries seen ∧ seen <+: logs

theorem reads_setWorker (hreads : state.Reads logs)
    (hworker : ∀ existing ∈ worker.existing, ∃ seen, existing = .ofEntries seen ∧ seen <+: logs) :
    (state.setWorker writer worker).Reads logs := by
  refine ⟨hreads.1, fun other existing hexisting => ?_⟩
  by_cases hother : other = writer
  · rw [hother, State.worker_setWorker_self] at hexisting
    exact hworker existing hexisting
  · rw [State.worker_setWorker_of_ne _ hother] at hexisting
    exact hreads.2 other existing hexisting

omit [DecidableEq Writer] in
theorem reads_setField (hreads : state.Reads logs) (items : List Entry) :
    (state.setField (.ofEntries (logs ++ items))).Reads (logs ++ items) := by
  refine ⟨rfl, fun other existing hexisting => ?_⟩
  obtain ⟨seen, hseen, hunder⟩ := hreads.2 other existing hexisting
  exact ⟨seen, hseen, hunder.trans (List.prefix_append logs items)⟩

/-- A write that finds the field as it was read leaves it read the same way. -/
theorem reads_write (hreads : state.Reads logs) (items : List Entry)
    (hworker : ∀ existing ∈ worker.existing, existing = .ofEntries items ∧ logs = []) :
    ((state.setField (.ofEntries (logs ++ items))).setWorker writer worker).Reads
      (logs ++ items) := by
  apply reads_setWorker (reads_setField hreads items)
  intro existing hexisting
  obtain ⟨hitems, rfl⟩ := hworker existing hexisting
  exact ⟨items, hitems, List.prefix_refl _⟩

end Writes

/-! ### Runs -/

section Runs

variable {program : Writer → List (Task Entry)} {state next : State Writer Entry}
  {action : Action Writer}

structure Invariant (program : Writer → List (Task Entry)) (state : State Writer Entry) :
    Prop where
  kept : state.Kept program
  reads : ∃ logs, state.Reads logs

theorem invariant_start (program : Writer → List (Task Entry)) :
    Invariant program (start program) := by
  constructor
  · exact ⟨fun _ => [], [], rfl, .nil, fun _ => rfl⟩
  · refine ⟨[], rfl, fun writer existing hexisting => ?_⟩
    cases hexisting

/-- A step that changes neither the field nor what is still to be written. -/
theorem invariant_setWorker {writer : Writer} {worker : Worker Entry}
    (hinv : Invariant program state)
    (htasks : entriesOf worker.tasks = entriesOf (state.worker writer).tasks)
    (hworker : ∀ existing ∈ worker.existing, existing = state.field) :
    Invariant program (state.setWorker writer worker) := by
  obtain ⟨logs, hreads⟩ := hinv.reads
  constructor
  · have hkept := kept_write_iff [] worker hinv.kept hreads.1 (List.prefix_refl logs)
      (show entriesOf (state.worker writer).tasks = [] ++ entriesOf worker.tasks from htasks.symm)
    rw [List.append_nil, ← hreads.1] at hkept
    exact hkept.mpr rfl
  · refine ⟨logs, reads_setWorker hreads fun existing hexisting => ?_⟩
    exact ⟨logs, (hworker existing hexisting).trans hreads.1, List.prefix_refl logs⟩

theorem kept_step_iff (hinv : Invariant program state)
    (hstep : system.step state action = some next) :
    next.Kept program ↔ Untouched state action := by
  obtain ⟨logs, hreads⟩ := hinv.reads
  cases steps_of_step hstep with
  | read hworker =>
      refine iff_of_true (invariant_setWorker hinv ?_ ?_).kept trivial
      · rw [hworker]
      · rintro existing hexisting
        exact (Option.some.inj hexisting).symm
  | @append writer entry tasks existing hworker =>
      obtain ⟨seen, rfl, hunder⟩ := hreads.2 writer existing (by rw [hworker]; rfl)
      have hiff := kept_write_iff [entry] ⟨tasks, none⟩ hinv.kept hreads.1
        hunder (by rw [hworker]; rfl)
      simp only [Untouched, hworker]
      rw [appendLogEntry_ofEntries, Option.getD_some, hiff, hreads.1, LogsField.ofEntries_inj]
      exact eq_comm
  | @callback writer tasks snapshot hworker =>
      obtain ⟨seen, rfl, hunder⟩ := hreads.2 writer snapshot (by rw [hworker]; rfl)
      simp only [Untouched, hworker]
      cases seen with
      | nil => exact iff_of_true hinv.kept (Or.inl rfl)
      | cons entry seen =>
          have hiff := kept_write_iff [] (state.worker writer) hinv.kept
            hreads.1 hunder rfl
          rw [List.append_nil] at hiff
          rw [State.setField_setWorker_self] at hiff
          have hpresent : LogsField.ofEntries (entry :: seen) ≠ .absent := by rintro ⟨⟩
          rw [or_iff_right hpresent, hreads.1, LogsField.ofEntries_inj, eq_comm, ← hiff]
          rfl
  | @receive writer remote tasks hworker =>
      have hiff := kept_write_iff remote.entries
        ⟨.callback :: tasks, some (.logs remote.entries)⟩ hinv.kept hreads.1
        (List.nil_prefix) (by rw [hworker]; rfl)
      rw [List.nil_append, ← LogsField.logs_eq_ofEntries remote.nonempty] at hiff
      simp only [Untouched, hworker]
      rw [hiff, hreads.1]
      exact eq_comm.trans (@LogsField.ofEntries_inj Entry logs []).symm
  | finish hworker =>
      refine iff_of_true (invariant_setWorker hinv ?_ ?_).kept trivial
      · rw [hworker]
        rfl
      · rintro existing ⟨⟩

theorem reads_step (hinv : Invariant program state)
    (hstep : system.step state action = some next) (huntouched : Untouched state action) :
    ∃ logs, next.Reads logs := by
  obtain ⟨logs, hreads⟩ := hinv.reads
  cases steps_of_step hstep with
  | read hworker =>
      refine ⟨logs, reads_setWorker hreads fun existing hexisting => ?_⟩
      cases hexisting
      exact ⟨logs, hreads.1, List.prefix_refl logs⟩
  | @append writer entry tasks existing hworker =>
      simp only [Untouched, hworker] at huntouched
      rw [← huntouched, hreads.1, appendLogEntry_ofEntries, Option.getD_some]
      refine ⟨_, reads_write hreads [entry] ?_⟩
      rintro existing ⟨⟩
  | @callback writer tasks snapshot hworker =>
      simp only [Untouched, hworker] at huntouched
      have hfield : snapshot.hsetMultiple state.field = .ofEntries (logs ++ []) := by
        rcases huntouched with rfl | hfield
        · rw [List.append_nil, ← hreads.1]
          rfl
        · rw [← hfield, List.append_nil, hreads.1]
          cases logs <;> rfl
      rw [hfield]
      exact ⟨_, reads_setField hreads []⟩
  | @receive writer remote tasks hworker =>
      simp only [Untouched, hworker] at huntouched
      have hlogs : logs = [] :=
        LogsField.ofEntries_inj.mp (hreads.1.symm.trans (huntouched.trans rfl))
      subst hlogs
      rw [LogsField.logs_eq_ofEntries remote.nonempty]
      refine ⟨_, reads_write hreads remote.entries fun existing hexisting => ?_⟩
      exact ⟨(Option.some.inj hexisting).symm, rfl⟩
  | finish hworker =>
      refine ⟨logs, reads_setWorker hreads ?_⟩
      rintro existing ⟨⟩

theorem invariant_step (hinv : Invariant program state)
    (hstep : system.step state action = some next) (huntouched : Untouched state action) :
    Invariant program next :=
  ⟨(kept_step_iff hinv hstep).mpr huntouched, reads_step hinv hstep huntouched⟩

/-- Where all writers are done, the entries kept are those of their programs. -/
theorem merges_of_finished (hkept : state.Kept program) (hfinished : state.Finished) :
    ∃ logs, state.field.entries? = some logs ∧
      Merges (fun writer => entriesOf (program writer)) logs := by
  obtain ⟨written, logs, hfield, hmerges, hprogram⟩ := hkept
  refine ⟨logs, hfield, ?_⟩
  have heq : (fun writer => entriesOf (program writer)) = written := by
    funext writer
    rw [← hprogram writer, hfinished writer]
    exact List.append_nil _
  rw [heq]
  exact hmerges

end Runs

/-- Every state of a run keeps all entries exactly when each of its writes finds the field
untouched, and then the writers leave, once done, the interleaving of their entries. -/
theorem entries_kept_iff (program : Writer → List (Task Entry)) (actions : List (Action Writer)) :
    (system.Along (fun _ _ next => next.Kept program) (start program) actions ↔
      system.Guarded Untouched (start program) actions) ∧
    ∀ final, system.Guarded Untouched (start program) actions →
      system.run (start program) actions = some final → final.Finished →
      ∃ logs, final.field.entries? = some logs ∧
        Merges (fun writer => entriesOf (program writer)) logs := by
  constructor
  · apply system.along_iff_of_invariant (Invariant program) ?_ ?_ actions (invariant_start program)
    · intro state action next hinv hstep
      exact kept_step_iff hinv hstep
    · intro state action next hinv hstep hkept
      exact invariant_step hinv hstep ((kept_step_iff hinv hstep).mp hkept)
  · intro final hguarded hrun hfinished
    have hinv : Invariant program final := by
      apply system.invariant_run ?_ (invariant_start program) hguarded hrun
      intro state action next hinv huntouched hstep
      exact invariant_step hinv hstep huntouched
    exact merges_of_finished hinv.kept hfinished

/-- A thread of the log handler, and the failure of its call. -/
def searchProgram : Bool → List (Task String)
  | false => [.append "Searching", .append "Found nothing"]
  | true => [.append "search failed"]

theorem entries_kept_in_turn : Merges (fun writer => entriesOf (searchProgram writer))
    ["Searching", "search failed", "Found nothing"] := by
  obtain ⟨logs, hlogs, hmerges⟩ := (entries_kept_iff searchProgram [.read false, .write false,
    .read true, .write true, .read false, .write false]).2 _
      ⟨trivial, rfl, trivial, rfl, trivial, rfl, trivial⟩ rfl (by rintro (_ | _) <;> rfl)
  cases hlogs
  exact hmerges

/-- A line of the log handler and the failure of its call, both read before either is written. -/
theorem failure_drops_log_line :
    ¬ ∀ (program : Bool → List (Task String)) (actions : List (Action Bool)) (final),
      system.run (start program) actions = some final → final.Finished →
      ∃ logs, final.field.entries? = some logs ∧
        Merges (fun writer => entriesOf (program writer)) logs := by
  intro hkept
  obtain ⟨logs, hlogs, hmerges⟩ := hkept searchProgram [.read false, .write false, .read false,
    .read true, .write false, .write true] _ rfl (by rintro (_ | _) <;> rfl)
  cases hlogs
  have hlogged : "Found nothing" ∈ entriesOf (searchProgram false) := by decide
  have hline : "Found nothing" ∈ ["Searching", "search failed"] := hmerges.mem hlogged
  revert hline
  decide

end CanyonOS.LogEntries
