import CanyonOS.Lib.TransitionSystem
import CanyonOS.Telemetry.Delivered

/-!
# Polls that skip finished futures

The Global Controller polls one machine's Redis again and again, and keeps the futures it has
queued with their end: these are not read again. Calls write their records meanwhile, between any
two reads of a poll.
-/

namespace CanyonOS.Telemetry

/-- A poll under way. -/
structure Poll where
  /-- the keys the scan found -/
  present : List FutureId
  /-- those not looked at yet -/
  todo : List FutureId
  rows : List (FutureId × Record) := []

structure Polling where
  future : FutureId → Record := fun _ => {}
  /-- the futures that have a record -/
  keys : List FutureId := []
  /-- `traces_waiting` -/
  queue : FutureId → Option WaitingRow := fun _ => none
  finished : List FutureId := []
  poll : Option Poll := none

inductive PollAction where
  | write (futureId : FutureId) (fields : Record)
  /-- the scan may find a key twice, and keys written while it runs -/
  | scan (found : List FutureId)
  | read
  | queue
  /-- the poll raises -/
  | fail
  /-- the controller starts anew -/
  | restart

namespace Polling

def hset (polling : Polling) (futureId : FutureId) (fields : Record) : Polling :=
  { polling with
    future := Function.update polling.future futureId
      ((polling.future futureId).hsetMultiple fields)
    keys := polling.keys.insert futureId }

/-- One turn of `_pull_telemetry`'s loop. -/
def readNext (polling : Polling) (poll : Poll) (futureId : FutureId) (todo : List FutureId) :
    Poll :=
  let rest := { poll with todo := todo }
  if futureId ∈ polling.finished then rest
  else if polling.future futureId = {} then rest
  else { rest with rows := poll.rows ++ [(futureId, polling.future futureId)] }

/-- The futures a poll has queued with `finished_at`. -/
def newlyFinished (rows : List (FutureId × Record)) : List FutureId :=
  (rows.filter fun row => row.2.finishedAt.isSome).map fun row => rowId row.1 row.2

variable (normalizeJsonText : String → String) (projectId : Option String)

def tracesOf (rows : List (FutureId × Record)) : List TraceRow :=
  rows.filterMap fun row => traceRow normalizeJsonText projectId row.1 row.2

/-- Every writer that sets `id` sets it to the key's own. -/
def step (polling : Polling) : PollAction → Option Polling
  | .write futureId fields =>
      if fields.id = none ∨ fields.id = some futureId then some (polling.hset futureId fields)
      else none
  | .scan found =>
      if polling.poll.isNone ∧ ∀ key ∈ polling.keys, key ∈ found then
        some { polling with poll := some { present := found, todo := found } }
      else none
  | .read =>
      match polling.poll with
      | some poll =>
          match poll.todo with
          | futureId :: todo =>
              some { polling with poll := some (polling.readNext poll futureId todo) }
          | [] => none
      | none => none
  | .queue =>
      match polling.poll with
      | some poll =>
          if poll.todo = [] then
            some { polling with
              queue := traceWriteRows (tracesOf normalizeJsonText projectId poll.rows) polling.queue
              finished := polling.finished.filter (· ∈ poll.present) ++ newlyFinished poll.rows
              poll := none }
          else none
      | none => none
  | .fail =>
      match polling.poll with
      | some poll =>
          some { polling with
            finished :=
              if poll.todo = [] then polling.finished.filter (· ∈ poll.present)
              else polling.finished
            poll := none }
      | none => none
  | .restart => some { polling with finished := [], poll := none }

end Polling

def polls (normalizeJsonText : String → String) (projectId : Option String) :
    TransitionSystem Polling PollAction where
  step := Polling.step normalizeJsonText projectId

/-! ### What a write must leave alone -/

/-- What the queued row says of the outcome, and the request without which there is no row. -/
def SameOutcome (before after : Record) : Prop :=
  after.requestId = before.requestId ∧ after.failed = before.failed ∧ after.error = before.error ∧
    after.result = before.result

instance (before after : Record) : Decidable (SameOutcome before after) :=
  inferInstanceAs (Decidable (_ ∧ _))

/-- The rows of this future that the poll under way has read. -/
def Polling.pending (polling : Polling) (futureId : FutureId) : List Record :=
  match polling.poll with
  | some poll => (poll.rows.filter fun row => row.1 = futureId).map Prod.snd
  | none => []

/-- A poll has read `finished_at` in the record. -/
def Polling.ReadFinished (polling : Polling) (futureId : FutureId) : Prop :=
  futureId ∈ polling.finished ∨ ∃ record ∈ polling.pending futureId, record.finishedAt.isSome

instance (polling : Polling) (futureId : FutureId) : Decidable (polling.ReadFinished futureId) :=
  inferInstanceAs (Decidable (_ ∨ _))

/-- A poll has read the record as failed. -/
def Polling.ReadFailed (polling : Polling) (futureId : FutureId) : Prop :=
  (∃ stored ∈ polling.queue futureId, stored.failed = true) ∨
    ∃ record ∈ polling.pending futureId, record.failed = some true

instance (polling : Polling) (futureId : FutureId) : Decidable (polling.ReadFailed futureId) :=
  inferInstanceAs (Decidable (_ ∨ _))

/-- Once a poll has read `finished_at` no write changes the outcome, and a failure that a poll has
read is not taken back while `finished_at` is missing. -/
def KeepsOutcome (polling : Polling) : PollAction → Prop
  | .write futureId fields =>
      (polling.ReadFinished futureId →
        SameOutcome (polling.future futureId) ((polling.future futureId).hsetMultiple fields)) ∧
      (polling.ReadFailed futureId →
        ((polling.future futureId).hsetMultiple fields).failed = some true ∨
          ((polling.future futureId).hsetMultiple fields).finishedAt.isSome)
  | .scan _ | .read | .queue | .fail | .restart => True

instance decidableKeepsOutcome (polling : Polling) :
    (action : PollAction) → Decidable (KeepsOutcome polling action)
  | .write _ _ => inferInstanceAs (Decidable (_ ∧ _))
  | .scan _ => inferInstanceAs (Decidable True)
  | .read => inferInstanceAs (Decidable True)
  | .queue => inferInstanceAs (Decidable True)
  | .fail => inferInstanceAs (Decidable True)
  | .restart => inferInstanceAs (Decidable True)

/-- The queued row has the record's failed flag, error and result. -/
def Polling.Carries (normalizeJsonText : String → String) (projectId : Option String)
    (polling : Polling) (futureId : FutureId) : Prop :=
  ∀ row ∈ traceRow normalizeJsonText projectId futureId (polling.future futureId),
    ∃ stored ∈ polling.queue futureId, stored.failed = row.failed ∧
      stored.errorMessage = row.errorMessage ∧ stored.output = row.output

instance (normalizeJsonText : String → String) (projectId : Option String) (polling : Polling)
    (futureId : FutureId) : Decidable (polling.Carries normalizeJsonText projectId futureId) :=
  inferInstanceAs (Decidable (∀ _ ∈ _, ∃ _ ∈ _, _))

/-- One poll from its scan to its end, while nobody writes this future's record. -/
def WholePoll (futureId : FutureId) (actions : List PollAction) : Prop :=
  ∃ found middle, actions = .scan found :: middle ++ [.queue] ∧
    ∀ action ∈ middle, action = .read ∨
      ∃ other fields, action = .write other fields ∧ other ≠ futureId

/-! ### Rows of one future -/

variable {normalizeJsonText : String → String} {projectId : Option String}

/-- The record's `id` is its key's, if it has one. -/
def OwnId (futureId : FutureId) (record : Record) : Prop :=
  record.id = none ∨ record.id = some futureId

theorem OwnId.hsetMultiple {futureId : FutureId} {record fields : Record}
    (hrecord : OwnId futureId record) (hfields : OwnId futureId fields) :
    OwnId futureId (record.hsetMultiple fields) := by
  unfold OwnId at *
  rw [Record.hsetMultiple_id]
  rcases hfields with hnone | hsome
  · rw [hnone, Option.none_or]
    exact hrecord
  · rw [hsome, Option.some_or]
    exact Or.inr rfl

theorem rowId_of_ownId {futureId : FutureId} {record : Record} (hid : OwnId futureId record) :
    rowId futureId record = futureId := by
  unfold rowId orElse
  rcases hid with hid | hid
  · simp [hid]
  · rw [hid]
    split_ifs <;> rfl

theorem rowId_traceRow {futureId : FutureId} {record : Record} {row : TraceRow}
    (hid : OwnId futureId record)
    (hrow : traceRow normalizeJsonText projectId futureId record = some row) :
    row.futureId = futureId := by
  rw [eq_rowOf hrow]
  exact rowId_of_ownId hid

/-- Records of one outcome make rows of one outcome. -/
theorem traceRow_of_same {futureId : FutureId} {before after : Record} {row : TraceRow}
    (hbefore : OwnId futureId before) (hafter : OwnId futureId after)
    (hsame : SameOutcome before after)
    (hrow : traceRow normalizeJsonText projectId futureId after = some row) :
    ∃ earlier, traceRow normalizeJsonText projectId futureId before = some earlier ∧
      earlier.failed = row.failed ∧ earlier.errorMessage = row.errorMessage ∧
      earlier.output = row.output := by
  obtain ⟨hrequest, hfailed, herror, hresult⟩ := hsame
  have heq := eq_rowOf hrow
  refine ⟨rowOf normalizeJsonText projectId futureId before, ?_, ?_, ?_, ?_⟩
  · unfold traceRow at hrow ⊢
    dsimp only at hrow ⊢
    apply if_neg
    rintro (hempty | hempty)
    · rw [if_pos] at hrow
      · cases hrow
      · left
        exact (rowId_of_ownId hafter).trans ((rowId_of_ownId hbefore).symm.trans hempty)
    · rw [if_pos] at hrow
      · cases hrow
      · right
        simp only [rowOf] at hempty ⊢
        rw [hrequest]
        exact hempty
  · rw [heq]
    simp only [rowOf, hfailed]
  · rw [heq]
    simp only [rowOf, herror]
  · rw [heq]
    simp only [rowOf, hresult]

/-- What is stored after some rows was stored before, or is one of them. -/
theorem mem_writeRows {stored : Option WaitingRow} {rows : List TraceRow} {final : WaitingRow}
    (hfinal : final ∈ writeRows stored rows) :
    (∃ before ∈ stored, final.toTraceRow = before.toTraceRow) ∨ final.toTraceRow ∈ rows := by
  induction rows generalizing stored with
  | nil => exact Or.inl ⟨final, hfinal, rfl⟩
  | cons row rows ih =>
      rw [writeRows, List.foldl_cons] at hfinal
      rcases ih hfinal with ⟨middle, hmiddle, hsame⟩ | hmem
      · cases hmiddle
        cases stored with
        | none =>
            right
            rw [hsame]
            exact List.mem_cons_self
        | some before =>
            rw [hsame]
            unfold tracesUpsert
            dsimp only
            split_ifs
            · exact Or.inr List.mem_cons_self
            · exact Or.inl ⟨before, rfl, rfl⟩
      · exact Or.inr (List.mem_cons_of_mem _ hmem)

/-- The rows of a poll that are this future's, as they are written to the queue. -/
theorem traceWriteRows_tracesOf {rows : List (FutureId × Record)}
    (hid : ∀ row ∈ rows, OwnId row.1 row.2) (queue : FutureId → Option WaitingRow)
    (futureId : FutureId) :
    traceWriteRows (Polling.tracesOf normalizeJsonText projectId rows) queue futureId =
      writeRows (queue futureId) (((rows.filter fun row => row.1 = futureId).map Prod.snd).filterMap
        (traceRow normalizeJsonText projectId futureId)) := by
  induction rows generalizing queue with
  | nil => rfl
  | cons row rows ih =>
      rw [List.forall_mem_cons] at hid
      rw [List.filter_cons, Polling.tracesOf, List.filterMap_cons]
      cases htrace : traceRow normalizeJsonText projectId row.1 row.2 with
      | none =>
          by_cases hkey : row.1 = futureId
          · subst hkey
            rw [if_pos (by simp), List.map_cons, List.filterMap_cons, htrace]
            exact ih hid.2 queue
          · rw [if_neg (by simpa using hkey)]
            exact ih hid.2 queue
      | some trace =>
          have hown := rowId_traceRow hid.1 htrace
          dsimp only
          rw [traceWriteRows, List.foldl_cons]
          refine (ih hid.2 _).trans ?_
          by_cases hkey : row.1 = futureId
          · subst hkey
            rw [if_pos (by simp), List.map_cons, List.filterMap_cons, htrace, hown,
              Function.update_self]
            rfl
          · rw [if_neg (by simpa using hkey), hown, Function.update_of_ne (Ne.symm hkey)]

/-! ### What holds while polls and writes go on -/

/-- What a version of the record said of its end is what the record says now. -/
structure Earlier (version record : Record) : Prop where
  finished : version.finishedAt.isSome → SameOutcome version record ∧ record.finishedAt.isSome
  failed : version.failed = some true → record.failed = some true ∨ record.finishedAt.isSome

structure PollInv (normalizeJsonText : String → String) (projectId : Option String)
    (polling : Polling) : Prop where
  id : ∀ futureId, OwnId futureId (polling.future futureId)
  present : ∀ futureId, polling.future futureId ≠ {} → futureId ∈ polling.keys
  finished : ∀ futureId ∈ polling.finished, (polling.future futureId).finishedAt.isSome ∧
    polling.Carries normalizeJsonText projectId futureId
  storedFinished : ∀ futureId, ∀ stored ∈ polling.queue futureId, stored.finishedAt.isSome →
    (polling.future futureId).finishedAt.isSome
  storedFailed : ∀ futureId, ∀ stored ∈ polling.queue futureId, stored.failed = true →
    (polling.future futureId).failed = some true ∨ (polling.future futureId).finishedAt.isSome
  pendingId : ∀ futureId, ∀ version ∈ polling.pending futureId, OwnId futureId version
  pending : ∀ futureId, ∀ version ∈ polling.pending futureId,
    Earlier version (polling.future futureId)
  pendingNew : ∀ futureId, polling.pending futureId ≠ [] → futureId ∉ polling.finished
  pendingOrder : ∀ futureId, (polling.pending futureId).Pairwise fun first second =>
    first.finishedAt.isSome → second.finishedAt.isSome

theorem pollInv_start : PollInv normalizeJsonText projectId {} := by
  constructor
  · exact fun _ => Or.inl rfl
  · exact fun _ hwritten => absurd rfl hwritten
  · exact fun _ hmem => absurd hmem List.not_mem_nil
  · exact fun _ stored hstored => absurd hstored (Option.not_mem_none stored)
  · exact fun _ stored hstored => absurd hstored (Option.not_mem_none stored)
  · exact fun _ _ hmem => absurd hmem List.not_mem_nil
  · exact fun _ _ hmem => absurd hmem List.not_mem_nil
  · exact fun _ hpending => absurd rfl hpending
  · exact fun _ => List.Pairwise.nil

theorem finishedAt_hsetMultiple {record : Record} (fields : Record)
    (hfinished : record.finishedAt.isSome) : (record.hsetMultiple fields).finishedAt.isSome := by
  rw [Record.hsetMultiple_finishedAt, Option.isSome_or, hfinished, Bool.or_true]

theorem SameOutcome.trans {first second third : Record} (hfirst : SameOutcome first second)
    (hsecond : SameOutcome second third) : SameOutcome first third :=
  ⟨hsecond.1.trans hfirst.1, hsecond.2.1.trans hfirst.2.1, hsecond.2.2.1.trans hfirst.2.2.1,
    hsecond.2.2.2.trans hfirst.2.2.2⟩

variable {polling next : Polling} {futureId : FutureId}

/-- A row that carries the outcome still does after a write that leaves the outcome alone. -/
theorem Polling.Carries.of_same
    (hcarries : polling.Carries normalizeJsonText projectId futureId)
    (hbefore : OwnId futureId (polling.future futureId))
    (hafter : OwnId futureId (next.future futureId))
    (hsame : SameOutcome (polling.future futureId) (next.future futureId))
    (hqueue : next.queue futureId = polling.queue futureId) :
    next.Carries normalizeJsonText projectId futureId := by
  intro row hrow
  obtain ⟨earlier, hearlier, hfailed, herror, houtput⟩ := traceRow_of_same hbefore hafter hsame hrow
  obtain ⟨stored, hstored, hcolumns⟩ := hcarries earlier hearlier
  rw [hqueue]
  exact ⟨stored, hstored, hcolumns.1.trans hfailed, hcolumns.2.1.trans herror,
    hcolumns.2.2.trans houtput⟩

theorem pollInv_write {fields : Record} (hinv : PollInv normalizeJsonText projectId polling)
    (hkeeps : KeepsOutcome polling (.write futureId fields)) (hid : OwnId futureId fields) :
    PollInv normalizeJsonText projectId (polling.hset futureId fields) := by
  have hself : (polling.hset futureId fields).future futureId =
      (polling.future futureId).hsetMultiple fields := Function.update_self _ _ _
  have hother : ∀ other, other ≠ futureId →
      (polling.hset futureId fields).future other = polling.future other :=
    fun other hne => Function.update_of_ne hne _ _
  have hown : ∀ other, OwnId other ((polling.hset futureId fields).future other) := by
    intro other
    by_cases heq : other = futureId
    · subst heq
      rw [hself]
      exact (hinv.id other).hsetMultiple hid
    · rw [hother other heq]
      exact hinv.id other
  have hend : ∀ other, (polling.future other).finishedAt.isSome →
      ((polling.hset futureId fields).future other).finishedAt.isSome := by
    intro other hfinished
    by_cases heq : other = futureId
    · subst heq
      rw [hself]
      exact finishedAt_hsetMultiple fields hfinished
    · rw [hother other heq]
      exact hfinished
  have hsame : ∀ other, polling.ReadFinished other →
      SameOutcome (polling.future other) ((polling.hset futureId fields).future other) := by
    intro other hread
    by_cases heq : other = futureId
    · subst heq
      rw [hself]
      exact hkeeps.1 hread
    · rw [hother other heq]
      exact ⟨rfl, rfl, rfl, rfl⟩
  have hfailed : ∀ other, polling.ReadFailed other →
      (polling.future other).failed = some true ∨ (polling.future other).finishedAt.isSome →
      ((polling.hset futureId fields).future other).failed = some true ∨
        ((polling.hset futureId fields).future other).finishedAt.isSome := by
    intro other hread hbefore
    by_cases heq : other = futureId
    · subst heq
      rw [hself]
      exact hkeeps.2 hread
    · rw [hother other heq]
      exact hbefore
  constructor
  · exact hown
  · intro other hwritten
    by_cases heq : other = futureId
    · subst heq
      exact List.mem_insert_self
    · rw [hother other heq] at hwritten
      exact List.mem_insert_of_mem (hinv.present other hwritten)
  · intro other hmem
    obtain ⟨hfinished, hcarries⟩ := hinv.finished other hmem
    exact ⟨hend other hfinished,
      hcarries.of_same (hinv.id other) (hown other) (hsame other (Or.inl hmem)) rfl⟩
  · intro other stored hstored hfinished
    exact hend other (hinv.storedFinished other stored hstored hfinished)
  · intro other stored hstored hrow
    exact hfailed other (Or.inl ⟨stored, hstored, hrow⟩)
      (hinv.storedFailed other stored hstored hrow)
  · exact hinv.pendingId
  · intro other version hversion
    have hearlier := hinv.pending other version hversion
    constructor
    · intro hfinished
      obtain ⟨hbefore, hrecord⟩ := hearlier.finished hfinished
      exact ⟨hbefore.trans (hsame other (Or.inr ⟨version, hversion, hfinished⟩)),
        hend other hrecord⟩
    · intro hrow
      exact hfailed other (Or.inr ⟨version, hversion, hrow⟩) (hearlier.failed hrow)
  · exact hinv.pendingNew
  · exact hinv.pendingOrder

/-- A read adds the record as it stands, or nothing. -/
theorem pending_readNext {poll : Poll} (hpoll : polling.poll = some poll) (todo : List FutureId)
    (other : FutureId) :
    let next := { polling with poll := some (polling.readNext poll futureId todo) }
    next.pending other = polling.pending other ∨
      other ∉ polling.finished ∧
        next.pending other = polling.pending other ++ [polling.future other] := by
  intro next
  have hpending : polling.pending other =
      (poll.rows.filter fun row => row.1 = other).map Prod.snd := by
    rw [Polling.pending, hpoll]
  have hnext : next.pending other =
      ((polling.readNext poll futureId todo).rows.filter fun row => row.1 = other).map
        Prod.snd := rfl
  rw [hpending, hnext]
  unfold Polling.readNext
  dsimp only
  split_ifs with hfinished hempty
  · exact Or.inl rfl
  · exact Or.inl rfl
  · by_cases heq : futureId = other
    · subst heq
      right
      refine ⟨hfinished, ?_⟩
      simp
    · left
      simp [heq]

theorem pollInv_read {poll : Poll} (hinv : PollInv normalizeJsonText projectId polling)
    (hpoll : polling.poll = some poll) (futureId : FutureId) (todo : List FutureId) :
    PollInv normalizeJsonText projectId
      { polling with poll := some (polling.readNext poll futureId todo) } := by
  have hread := @pending_readNext _ futureId _ hpoll todo
  have hversion : ∀ other, ∀ version ∈ ({ polling with
      poll := some (polling.readNext poll futureId todo) } : Polling).pending other,
      version ∈ polling.pending other ∨ version = polling.future other := by
    intro other version hmem
    rcases hread other with hsame | ⟨-, hgrown⟩
    · rw [hsame] at hmem
      exact Or.inl hmem
    · rw [hgrown] at hmem
      rcases List.mem_append.mp hmem with hold | hnew
      · exact Or.inl hold
      · exact Or.inr (List.mem_singleton.mp hnew)
  refine ⟨hinv.id, hinv.present, hinv.finished, hinv.storedFinished, hinv.storedFailed, ?_, ?_, ?_,
    ?_⟩
  · intro other version hmem
    rcases hversion other version hmem with hold | rfl
    · exact hinv.pendingId other version hold
    · exact hinv.id other
  · intro other version hmem
    rcases hversion other version hmem with hold | rfl
    · exact hinv.pending other version hold
    · exact ⟨fun hfinished => ⟨⟨rfl, rfl, rfl, rfl⟩, hfinished⟩, fun hfailed => Or.inl hfailed⟩
  · intro other hpending
    rcases hread other with hsame | ⟨hnew, -⟩
    · rw [hsame] at hpending
      exact hinv.pendingNew other hpending
    · exact hnew
  · intro other
    rcases hread other with hsame | ⟨-, hgrown⟩
    · rw [hsame]
      exact hinv.pendingOrder other
    · rw [hgrown, List.pairwise_append]
      refine ⟨hinv.pendingOrder other, List.pairwise_singleton _ _, ?_⟩
      intro first hfirst second hsecond hfinished
      rw [List.mem_singleton.mp hsecond]
      exact ((hinv.pending other first hfirst).finished hfinished).2

/-- The poll is over, and nothing it read is queued. -/
theorem pollInv_drop {finished : List FutureId}
    (hinv : PollInv normalizeJsonText projectId polling)
    (hfinished : ∀ futureId ∈ finished, futureId ∈ polling.finished) :
    PollInv normalizeJsonText projectId { polling with finished := finished, poll := none } := by
  refine ⟨hinv.id, hinv.present, ?_, hinv.storedFinished, hinv.storedFailed, ?_, ?_, ?_, ?_⟩
  · intro futureId hmem
    exact hinv.finished futureId (hfinished futureId hmem)
  · exact fun _ _ hmem => absurd hmem List.not_mem_nil
  · exact fun _ _ hmem => absurd hmem List.not_mem_nil
  · exact fun _ hpending => absurd rfl hpending
  · exact fun _ => List.Pairwise.nil

/-- The state after a poll has queued its rows. -/
def Polling.queued (normalizeJsonText : String → String) (projectId : Option String)
    (polling : Polling) (poll : Poll) : Polling :=
  { polling with
    queue := traceWriteRows (tracesOf normalizeJsonText projectId poll.rows) polling.queue
    finished := polling.finished.filter (· ∈ poll.present) ++ newlyFinished poll.rows
    poll := none }

theorem queue_queued {poll : Poll} (hinv : PollInv normalizeJsonText projectId polling)
    (hpoll : polling.poll = some poll) (futureId : FutureId) :
    (polling.queued normalizeJsonText projectId poll).queue futureId =
      writeRows (polling.queue futureId) ((polling.pending futureId).filterMap
        (traceRow normalizeJsonText projectId futureId)) := by
  rw [Polling.pending, hpoll]
  apply traceWriteRows_tracesOf
  intro row hrow
  apply hinv.pendingId
  rw [Polling.pending, hpoll]
  exact List.mem_map.mpr ⟨row, List.mem_filter.mpr ⟨hrow, by simp⟩, rfl⟩

/-- What is stored once some of the rows read are written says nothing of the end that the record
does not say. -/
theorem stored_writeRows (hinv : PollInv normalizeJsonText projectId polling)
    {versions : List Record} (hversions : ∀ version ∈ versions, version ∈ polling.pending futureId)
    {stored : WaitingRow}
    (hstored : stored ∈ writeRows (polling.queue futureId)
      (versions.filterMap (traceRow normalizeJsonText projectId futureId))) :
    (stored.finishedAt.isSome → (polling.future futureId).finishedAt.isSome) ∧
      (stored.failed = true → (polling.future futureId).failed = some true ∨
        (polling.future futureId).finishedAt.isSome) := by
  rcases mem_writeRows hstored with ⟨before, hbefore, hsame⟩ | hrow
  · rw [hsame]
    exact ⟨hinv.storedFinished futureId before hbefore, hinv.storedFailed futureId before hbefore⟩
  · obtain ⟨version, hversion, htrace⟩ := List.mem_filterMap.mp hrow
    have hearlier := hinv.pending futureId version (hversions version hversion)
    rw [eq_rowOf htrace]
    constructor
    · intro hfinished
      exact (hearlier.finished hfinished).2
    · intro hfailed
      apply hearlier.failed
      cases hfield : version.failed with
      | none => simp [rowOf, hfield] at hfailed
      | some failed => simpa [rowOf, hfield] using hfailed

/-- The last version read is the one queued, unless the row stored is of an end it knows nothing
of. -/
theorem carries_queued {poll : Poll} (hinv : PollInv normalizeJsonText projectId polling)
    (hpoll : polling.poll = some poll) {earlier : List Record} {last : Record}
    (hsplit : polling.pending futureId = earlier ++ [last])
    (hsame : SameOutcome last (polling.future futureId))
    (hended : last.finishedAt.isSome ∨ last.failed = some true ∨
      ∀ stored ∈ writeRows (polling.queue futureId)
        (earlier.filterMap (traceRow normalizeJsonText projectId futureId)),
        stored.finishedAt = none ∧ stored.failed = false) :
    (polling.queued normalizeJsonText projectId poll).Carries normalizeJsonText projectId
      futureId := by
  intro row hrow
  have hlast : OwnId futureId last := by
    apply hinv.pendingId
    rw [hsplit]
    exact List.mem_append_right _ (List.mem_singleton_self _)
  obtain ⟨trace, htrace, hcolumns⟩ := traceRow_of_same hlast (hinv.id futureId) hsame hrow
  have hqueue : (polling.queued normalizeJsonText projectId poll).queue futureId =
      some (tracesUpsert (writeRows (polling.queue futureId)
        (earlier.filterMap (traceRow normalizeJsonText projectId futureId))) trace) := by
    rw [queue_queued hinv hpoll, hsplit, List.filterMap_append]
    simp only [List.filterMap_cons, List.filterMap_nil, htrace]
    exact writeRows_concat _ _
  refine ⟨_, hqueue, ?_⟩
  have hwritten : (tracesUpsert (writeRows (polling.queue futureId)
      (earlier.filterMap (traceRow normalizeJsonText projectId futureId))) trace).toTraceRow =
        trace := by
    unfold tracesUpsert
    split
    · rfl
    · rename_i stored hstored
      have hover : Overwrites stored trace := by
        rw [eq_rowOf htrace]
        rcases hended with hfinished | hfailed | hopen
        · exact Or.inr (Or.inl hfinished)
        · refine Or.inr (Or.inr ?_)
          simp [rowOf, hfailed]
        · exact Or.inl (hopen stored hstored)
      rw [if_pos hover]
  rw [hwritten]
  exact hcolumns

theorem pollInv_queue {poll : Poll} (hinv : PollInv normalizeJsonText projectId polling)
    (hpoll : polling.poll = some poll) :
    PollInv normalizeJsonText projectId (polling.queued normalizeJsonText projectId poll) := by
  have hstored : ∀ futureId, ∀ stored ∈ (polling.queued normalizeJsonText projectId poll).queue
      futureId, _ := fun futureId stored hmem =>
    stored_writeRows hinv (fun _ hversion => hversion) (queue_queued hinv hpoll futureId ▸ hmem)
  refine ⟨hinv.id, hinv.present, ?_, fun futureId stored hmem => (hstored futureId stored hmem).1,
    fun futureId stored hmem => (hstored futureId stored hmem).2, ?_, ?_, ?_, ?_⟩
  · intro futureId hmem
    rcases List.mem_append.mp hmem with hold | hnew
    · have hfinished := List.mem_of_mem_filter hold
      obtain ⟨hend, hcarries⟩ := hinv.finished futureId hfinished
      refine ⟨hend, hcarries.of_same (hinv.id futureId) (hinv.id futureId) ⟨rfl, rfl, rfl, rfl⟩ ?_⟩
      have hnone : polling.pending futureId = [] := by
        by_contra hpending
        exact hinv.pendingNew futureId hpending hfinished
      rw [queue_queued hinv hpoll, hnone]
      rfl
    · obtain ⟨row, hrow, hid⟩ := List.mem_map.mp hnew
      obtain ⟨hrow, hfinished⟩ := List.mem_filter.mp hrow
      have hversion : row.2 ∈ polling.pending row.1 := by
        rw [Polling.pending, hpoll]
        exact List.mem_map.mpr ⟨row, List.mem_filter.mpr ⟨hrow, by simp⟩, rfl⟩
      have hkey : row.1 = futureId := by
        rw [← hid]
        exact (rowId_of_ownId (hinv.pendingId row.1 row.2 hversion)).symm
      rw [hkey] at hversion
      -- the last version read has its end too, for it was read later
      obtain ⟨earlier, last, hsplit⟩ : ∃ earlier last,
          polling.pending futureId = earlier ++ [last] := by
        rcases List.eq_nil_or_concat (polling.pending futureId) with hnil | hconcat
        · rw [hnil] at hversion
          cases hversion
        · obtain ⟨earlier, last, hconcat⟩ := hconcat
          exact ⟨earlier, last, hconcat.trans List.concat_eq_append⟩
      have hlast : last ∈ polling.pending futureId := by
        rw [hsplit]
        exact List.mem_append_right _ (List.mem_singleton_self _)
      have hend : last.finishedAt.isSome := by
        have horder := hinv.pendingOrder futureId
        rw [hsplit, List.pairwise_append] at horder
        rw [hsplit] at hversion
        rcases List.mem_append.mp hversion with hbefore | hself
        · exact horder.2.2 row.2 hbefore last (List.mem_singleton_self _) hfinished
        · rw [← List.mem_singleton.mp hself]
          exact hfinished
      obtain ⟨hsame, hrecord⟩ := (hinv.pending futureId last hlast).finished hend
      exact ⟨hrecord, carries_queued hinv hpoll hsplit hsame (Or.inl hend)⟩
  · exact fun _ _ hmem => absurd hmem List.not_mem_nil
  · exact fun _ _ hmem => absurd hmem List.not_mem_nil
  · exact fun _ hpending => absurd rfl hpending
  · exact fun _ => List.Pairwise.nil

theorem pollInv_step {action : PollAction} (hinv : PollInv normalizeJsonText projectId polling)
    (hkeeps : KeepsOutcome polling action)
    (hstep : polling.step normalizeJsonText projectId action = some next) :
    PollInv normalizeJsonText projectId next := by
  cases action with
  | write futureId fields =>
      simp only [Polling.step] at hstep
      split_ifs at hstep with hid
      cases hstep
      exact pollInv_write hinv hkeeps hid
  | scan found =>
      simp only [Polling.step] at hstep
      split_ifs at hstep with hidle
      cases hstep
      have hdropped := pollInv_drop hinv (fun _ hmem => hmem)
      exact ⟨hinv.id, hinv.present, hdropped.finished, hinv.storedFinished, hinv.storedFailed,
        hdropped.pendingId, hdropped.pending, hdropped.pendingNew, hdropped.pendingOrder⟩
  | read =>
      simp only [Polling.step] at hstep
      split at hstep
      · rename_i poll hpoll
        split at hstep
        · cases hstep
          exact pollInv_read hinv hpoll _ _
        · cases hstep
      · cases hstep
  | queue =>
      simp only [Polling.step] at hstep
      split at hstep
      · rename_i poll hpoll
        split_ifs at hstep
        cases hstep
        exact pollInv_queue hinv hpoll
      · cases hstep
  | fail =>
      simp only [Polling.step] at hstep
      split at hstep
      · cases hstep
        apply pollInv_drop hinv
        intro futureId hmem
        split_ifs at hmem
        · exact List.mem_of_mem_filter hmem
        · exact hmem
      · cases hstep
  | restart =>
      cases hstep
      exact pollInv_drop hinv fun _ hmem => absurd hmem List.not_mem_nil

/-! ### One more poll -/

/-- While the poll goes on, the record stays, and the future has none, is still to be looked at,
is known to be finished, or was read as it stands. -/
structure Watched (futureId : FutureId) (record : Record) (polling : Polling) (poll : Poll) :
    Prop where
  same : polling.future futureId = record
  pending : ∀ version ∈ polling.pending futureId, version = record
  seen : record = {} ∨ futureId ∈ poll.todo ∨ futureId ∈ polling.finished ∨
    polling.pending futureId ≠ []

theorem watched_step {action : PollAction} {record : Record} {poll : Poll}
    (hpoll : polling.poll = some poll) (hwatched : Watched futureId record polling poll)
    (haction : action = .read ∨ ∃ other fields, action = .write other fields ∧ other ≠ futureId)
    (hstep : polling.step normalizeJsonText projectId action = some next) :
    ∃ poll', next.poll = some poll' ∧ Watched futureId record next poll' := by
  rcases haction with rfl | ⟨other, fields, rfl, hne⟩
  · simp only [Polling.step, hpoll] at hstep
    split at hstep
    · rename_i key todo htodo
      cases hstep
      have hread := @pending_readNext _ key _ hpoll todo futureId
      refine ⟨_, rfl, hwatched.same, ?_, ?_⟩
      · intro version hmem
        rcases hread with hsame | ⟨-, hgrown⟩
        · rw [hsame] at hmem
          exact hwatched.pending version hmem
        · rw [hgrown] at hmem
          rcases List.mem_append.mp hmem with hold | hnew
          · exact hwatched.pending version hold
          · rw [List.mem_singleton.mp hnew]
            exact hwatched.same
      · by_cases hrecord : record = {}
        · exact Or.inl hrecord
        right
        rcases hwatched.seen.resolve_left hrecord with hmem | hfinished | hpending
        · rw [htodo] at hmem
          rcases List.mem_cons.mp hmem with rfl | hlater
          · by_cases hfinished : futureId ∈ polling.finished
            · exact Or.inr (Or.inl hfinished)
            · right
              right
              have hwritten : polling.future futureId ≠ {} := hwatched.same ▸ hrecord
              simp [Polling.pending, Polling.readNext, hfinished, hwritten]
          · left
            unfold Polling.readNext
            split_ifs <;> exact hlater
        · exact Or.inr (Or.inl hfinished)
        · right
          right
          rcases hread with hsame | ⟨-, hgrown⟩
          · rw [hsame]
            exact hpending
          · rw [hgrown]
            simp
    · cases hstep
  · simp only [Polling.step] at hstep
    split_ifs at hstep
    cases hstep
    exact ⟨poll, hpoll, (Function.update_of_ne (Ne.symm hne) _ _).trans hwatched.same,
      hwatched.pending, hwatched.seen⟩

theorem watched_run {record : Record} {poll : Poll}
    (hpoll : polling.poll = some poll) (hwatched : Watched futureId record polling poll)
    {actions : List PollAction}
    (hactions : ∀ action ∈ actions, action = .read ∨
      ∃ other fields, action = .write other fields ∧ other ≠ futureId)
    (hrun : (polls normalizeJsonText projectId).run polling actions = some next) :
    ∃ poll', next.poll = some poll' ∧ Watched futureId record next poll' := by
  induction actions generalizing polling poll with
  | nil =>
      cases hrun
      exact ⟨poll, hpoll, hwatched⟩
  | cons action actions ih =>
      rw [List.forall_mem_cons] at hactions
      obtain ⟨middle, hstep, hrest⟩ := (polls _ _).run_cons_eq_some.mp hrun
      obtain ⟨poll', hpoll', hwatched'⟩ :=
        watched_step hpoll hwatched hactions.1 hstep
      exact ih hpoll' hwatched' hactions.2 hrest

theorem carries_of_watched {record : Record} {poll : Poll}
    (hinv : PollInv normalizeJsonText projectId polling) (hpoll : polling.poll = some poll)
    (hwatched : Watched futureId record polling poll) (hdone : poll.todo = []) :
    (polling.queued normalizeJsonText projectId poll).Carries normalizeJsonText projectId
      futureId := by
  rcases List.eq_nil_or_concat (polling.pending futureId) with hnil | ⟨earlier, last, hconcat⟩
  · rcases hwatched.seen with hrecord | hmem | hfinished | hpending
    · intro row hrow
      change row ∈ traceRow normalizeJsonText projectId futureId (polling.future futureId) at hrow
      rw [hwatched.same, hrecord] at hrow
      simp [traceRow, rowOf] at hrow
    · rw [hdone] at hmem
      cases hmem
    · refine (hinv.finished futureId hfinished).2.of_same (hinv.id futureId) (hinv.id futureId)
        ⟨rfl, rfl, rfl, rfl⟩ ?_
      rw [queue_queued hinv hpoll, hnil]
      rfl
    · exact absurd hnil hpending
  · rw [List.concat_eq_append] at hconcat
    have hlast : last = polling.future futureId := by
      rw [hwatched.same]
      apply hwatched.pending
      rw [hconcat]
      exact List.mem_append_right _ (List.mem_singleton_self _)
    apply carries_queued hinv hpoll hconcat
    · rw [hlast]
      exact ⟨rfl, rfl, rfl, rfl⟩
    · rw [hlast]
      by_cases hended : (polling.future futureId).finishedAt.isSome ∨
          (polling.future futureId).failed = some true
      · exact hended.imp id Or.inl
      · right
        right
        intro stored hstored
        obtain ⟨hfinished, hfailed⟩ := stored_writeRows hinv (fun version hversion => by
          rw [hconcat]
          exact List.mem_append_left _ hversion) hstored
        constructor
        · rw [← Option.not_isSome_iff_eq_none]
          intro hsome
          exact hended (Or.inl (hfinished hsome))
        · rw [← Bool.not_eq_true]
          intro htrue
          exact hended (hfailed htrue).symm

/-- The last write is queued: in every run that keeps to the condition, one poll after the last
write of a record its row carries the record's failed flag, error and result. -/
theorem last_write_queued (normalizeJsonText : String → String) (projectId : Option String)
    {actions pass : List PollAction} {before after : Polling} (futureId : FutureId)
    (hkeeps : (polls normalizeJsonText projectId).Guarded KeepsOutcome {} (actions ++ pass))
    (hrun : (polls normalizeJsonText projectId).run {} actions = some before)
    (hpoll : WholePoll futureId pass)
    (hpass : (polls normalizeJsonText projectId).run before pass = some after) :
    after.Carries normalizeJsonText projectId futureId := by
  obtain ⟨found, middle, rfl, hmiddle⟩ := hpoll
  have hstep : ∀ polling action next, PollInv normalizeJsonText projectId polling →
      KeepsOutcome polling action → (polls normalizeJsonText projectId).step polling action =
        some next → PollInv normalizeJsonText projectId next :=
    fun _ _ _ => pollInv_step
  obtain ⟨hkeepsBefore, hkeepsPass⟩ := ((polls _ _).along_append_iff).mp hkeeps
  have hbefore := (polls _ _).invariant_run hstep pollInv_start hkeepsBefore hrun
  obtain ⟨last, hfirst, hlast⟩ := ((polls _ _).run_append_eq_some).mp hpass
  have hkeepsFirst := (((polls _ _).along_append_iff).mp (hkeepsPass before hrun)).1
  have hinv := (polls _ _).invariant_run hstep hbefore hkeepsFirst hfirst
  obtain ⟨scanned, hscan, hread⟩ := ((polls _ _).run_cons_eq_some).mp hfirst
  obtain ⟨_, hqueue, hend⟩ := ((polls _ _).run_cons_eq_some).mp hlast
  cases hend
  simp only [polls, Polling.step] at hscan
  split_ifs at hscan with hidle
  cases hscan
  have hscanned : Watched futureId (before.future futureId)
      { before with poll := some { present := found, todo := found } }
      { present := found, todo := found } := by
    refine ⟨rfl, fun _ hmem => absurd hmem List.not_mem_nil, ?_⟩
    by_cases hrecord : before.future futureId = {}
    · exact Or.inl hrecord
    · exact Or.inr (Or.inl (hidle.2 futureId (hbefore.present futureId hrecord)))
  obtain ⟨poll, hpoll, hwatched⟩ := watched_run rfl hscanned hmiddle hread
  simp only [polls, Polling.step, hpoll] at hqueue
  split_ifs at hqueue with hdone
  cases hqueue
  exact carries_of_watched hinv hpoll hwatched hdone

/-- One poll of the future `key`, with nothing in between. -/
def pollOf (key : FutureId) : List PollAction :=
  [.scan [key], .read, .queue]

theorem wholePoll_pollOf (key : FutureId) : WholePoll key (pollOf key) := by
  refine ⟨[key], [.read], rfl, ?_⟩
  intro action hmem
  exact Or.inl (List.mem_singleton.mp hmem)

/-- A call that is polled while it runs, and returns. -/
def callReturns : List PollAction :=
  .write "f" { id := some "f", requestId := some "r", failed := some false } :: pollOf "f" ++
    [.write "f" { result := some "42" }, .write "f" { finishedAt := some 7 }]

theorem last_write_queued_returned :
    ∃ before after : Polling, (polls id none).run {} callReturns = some before ∧
      (polls id none).run before (pollOf "f") = some after ∧ after.Carries id none "f" := by
  have hbefore : ((polls id none).run {} callReturns).isSome := by decide
  have hafter : ((polls id none).run (((polls id none).run {} callReturns).get hbefore)
      (pollOf "f")).isSome := by decide +revert
  refine ⟨_, _, (Option.some_get hbefore).symm, (Option.some_get hafter).symm, ?_⟩
  exact last_write_queued id none "f" (by decide) (Option.some_get hbefore).symm
    (wholePoll_pollOf "f") (Option.some_get hafter).symm

/-- A question at the endpoint, as its record is written there. -/
def questionFields : Record :=
  { id := some "q", requestId := some "r", parent := some "f", service := some "Endpoint",
    method := some "ask", args := some "{}" }

/-- `_fail_waiting_questions` stamps the end and then marks the failure; a poll comes between. -/
def questionFails : List PollAction :=
  .write "q" questionFields :: .write "q" { finishedAt := some 7 } :: pollOf "q" ++
    [.write "q" (failureFields questionFields
      (.message "Request finished before the question was answered") (some "RequestFinished"))]

/-- The question's failure never reaches the queue: its row says that the call did not fail. -/
theorem failure_after_stamp_not_queued :
    ∃ before after : Polling, (polls id none).run {} questionFails = some before ∧
      (polls id none).run before (pollOf "q") = some after ∧ ¬ after.Carries id none "q" := by
  have hbefore : ((polls id none).run {} questionFails).isSome := by decide
  have hafter : ((polls id none).run (((polls id none).run {} questionFails).get hbefore)
      (pollOf "q")).isSome := by decide +revert
  refine ⟨_, _, (Option.some_get hbefore).symm, (Option.some_get hafter).symm, ?_⟩
  decide +revert

end CanyonOS.Telemetry
