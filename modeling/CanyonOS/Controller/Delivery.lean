import CanyonOS.Controller.Process
import CanyonOS.Lib.LastWrite

/-!
# Delivering an outcome when sends fail

How a call's end reaches its parties: the producer's own Redis, the consumers registered there, and
the origin. A result that could not be sent is turned into a failure, which is sent to the consumers
while the loop over them is still going on. Each send is one attempt that gets through or does not.
-/

namespace CanyonOS.Delivery

/-- The producer, and on which machine each controller is. -/
structure Setting (Machine : Type*) where
  me : Address
  replicaId : String := ""
  machine : Address → Machine

/-- Whose turn it is to be sent the end of the call. -/
inductive Turn where
  | consumer (address : Address)
  | origin (address : Address)

def Turn.address : Turn → Address
  | .consumer address | .origin address => address

/-- Which sends get through: `none`, or the reason they do not. The failures sent in between are
told apart by the turn they are sent at, or `none` when the call itself failed. -/
structure Pattern where
  ending : Turn → Option String
  endingNote : Turn → Bool
  failure : Option Turn → Address → Option String
  failureNote : Option Turn → Address → Bool

/-- The call's record on every machine, and its consumers on the producer's. -/
structure State (Machine : Type*) where
  records : Machine → Record
  consumers : List Address

inductive Ending where
  | returns (serialized : String)
  | raises (error : Failure)

variable {Machine : Type*} [DecidableEq Machine]

def State.hset (state : State Machine) (machine : Machine) (fields : Record) : State Machine :=
  { state with
    records := Function.update state.records machine
      ((state.records machine).hsetMultiple fields) }

def State.srem (state : State Machine) (address : Address) : State Machine :=
  { state with consumers := state.consumers.filter (· ≠ address) }

variable (setting : Setting Machine) (pattern : Pattern) (futureId : FutureId)

/-- The producer's own machine. -/
def Setting.home : Machine := setting.machine setting.me

def undeliveredMessage (snapshot : Record) (reason : String) : String :=
  s!"Could not send the result of {snapshot.callName} back to its caller: {reason}"

/-- `_send_result_callback`. A result that is not delivered is marked failed by `markFailed`; a
failure is not, so it passes none. -/
def sendResultCallback (attempt : Option String) (noteArrives : Bool)
    (markFailed : Option (String → State Machine → State Machine)) (address : Address)
    (result : Option String) (failed : Bool) (errorMessage : String) (state : State Machine) :
    State Machine :=
  let snapshot := resultMessage (state.records setting.home) futureId result failed errorMessage
  match attempt with
  | none => state.hset (setting.machine address) snapshot
  | some reason =>
      let dropped := state.srem address
      let (message, marked) :=
        match markFailed with
        | some markFailed =>
            let message := undeliveredMessage snapshot reason
            (message, markFailed message dropped)
        | none => (errorMessage, dropped)
      if noteArrives then
        marked.hset (setting.machine address) (failureNote futureId message)
      else marked

/-- `_fan_out_to_consumers`: the set is read once, whatever is dropped from it on the way. -/
def fanOutToConsumers (send : Address → State Machine → State Machine) (state : State Machine) :
    State Machine :=
  (state.consumers.filter (Process.Elsewhere setting.me)).foldl (fun state address =>
    send address state) state

def sendFailure (cause : Option Turn) (errorMessage : String) (address : Address) :
    State Machine → State Machine :=
  sendResultCallback setting futureId (pattern.failure cause address)
    (pattern.failureNote cause address) none address none true errorMessage

/-- `_mark_future_failed`, in the calls of it that name no origin. -/
def markFutureFailed (cause : Option Turn) (error : Failure) (errorName : Option String)
    (state : State Machine) : State Machine :=
  let record := state.records setting.home
  fanOutToConsumers setting
    (sendFailure setting pattern futureId cause (error.errorMessage record))
    (state.hset setting.home (failureFields record error errorName))

def sendResult (serialized : String) (turn : Turn) : State Machine → State Machine :=
  sendResultCallback setting futureId (pattern.ending turn) (pattern.endingNote turn)
    (some fun message =>
      markFutureFailed setting pattern futureId (some turn) (.message message)
        (some "ResultNotDelivered"))
    turn.address (some serialized) false ""

/-- The end of `_execute_locally`. `origin` is where it reports, when that is another controller and
the call was not cut off. -/
def finish (measured : Measured) (origin : Option Address) (ending : Ending)
    (state : State Machine) : State Machine :=
  let finished := finishedFields setting.replicaId measured
  match ending with
  | .returns serialized =>
      let stored := (state.hset setting.home { result := some serialized }).hset setting.home
        { failed := some false }
      let told := fanOutToConsumers setting
        (fun address => sendResult setting pattern futureId serialized (.consumer address)) stored
      let stamped := told.hset setting.home finished
      match origin with
      | some origin => sendResult setting pattern futureId serialized (.origin origin) stamped
      | none => stamped
  | .raises error =>
      let failed := markFutureFailed setting pattern futureId none error none state
      let stamped := failed.hset setting.home finished
      match origin with
      | some origin =>
          sendResultCallback setting futureId (pattern.ending (.origin origin))
            (pattern.endingNote (.origin origin)) none origin none true
            ((stamped.records setting.home).error.getD "") stamped
      | none => stamped

/-! ### What arrives where -/

/-- The failure, or the note sent after it, arrives. -/
def Reaches (cause : Option Turn) (address : Address) : Prop :=
  pattern.failure cause address = none ∨ pattern.failureNote cause address = true

instance (cause : Option Turn) (address : Address) : Decidable (Reaches pattern cause address) :=
  inferInstanceAs (Decidable (_ ∨ _))

/-- The failures that arrive when these controllers are sent one. -/
def failureArrivals (cause : Option Turn) (addresses : List Address) :
    List (Machine × Outcome) :=
  (addresses.filter (Reaches pattern cause)).map fun address => (setting.machine address, .failed)

/-- The consumers still listed after that: a failed send drops its consumer. -/
def stillListed (cause : Option Turn) (listed : List Address) : List Address :=
  listed.filter fun address =>
    ¬ (Process.Elsewhere setting.me address ∧ (pattern.failure cause address).isSome)

/-- What arrives when the parties whose turns are left are sent the result. -/
def resultArrivals (serialized : String) :
    List Turn → List Address → List (Machine × Outcome)
  | [], _ => []
  | turn :: turns, listed =>
      if (pattern.ending turn).isNone then
        (setting.machine turn.address, .done serialized) :: resultArrivals serialized turns listed
      else
        let others := listed.filter (· ≠ turn.address)
        let note : List (Machine × Outcome) :=
          if pattern.endingNote turn then [(setting.machine turn.address, .failed)] else []
        (setting.home, .failed) ::
          failureArrivals setting pattern (some turn)
            (others.filter (Process.Elsewhere setting.me)) ++ note ++
          resultArrivals serialized turns (stillListed setting pattern (some turn) others)

/-- The consumers still listed after those turns. -/
def listedAfter : List Turn → List Address → List Address
  | [], listed => listed
  | turn :: turns, listed =>
      if (pattern.ending turn).isNone then listedAfter turns listed
      else listedAfter turns
        (stillListed setting pattern (some turn) (listed.filter (· ≠ turn.address)))

/-- What arrives at which machine, in order, the producer's own writes among it. -/
def arrivals (consumers : List Address) (origin : Option Address) :
    Ending → List (Machine × Outcome)
  | .returns serialized =>
      let others := consumers.filter (Process.Elsewhere setting.me)
      (setting.home, .done serialized) ::
        resultArrivals setting pattern serialized
          (others.map .consumer ++ origin.toList.map .origin) consumers
  | .raises _ =>
      let reported := origin.toList.filter fun origin =>
        pattern.ending (.origin origin) = none ∨ pattern.endingNote (.origin origin) = true
      (setting.home, .failed) ::
        failureArrivals setting pattern none (consumers.filter (Process.Elsewhere setting.me)) ++
        reported.map fun origin => (setting.machine origin, .failed)

/-- The records say what was last written to them, or what they said at first. -/
def Tracks (initial state : State Machine) (writes : List (Machine × Outcome)) : Prop :=
  ∀ machine, (state.records machine).outcome =
    (LastWrite.lastWrite writes machine).or (initial.records machine).outcome

/-- No two machines end with different outcomes. -/
def OneOutcome (state : State Machine) : Prop :=
  ∀ machine machine', (state.records machine).Terminal → (state.records machine').Terminal →
    (state.records machine).outcome = (state.records machine').outcome

omit [DecidableEq Machine] in
theorem failureNote_outcome (errorMessage : String) :
    (failureNote futureId errorMessage).outcome = some .failed := rfl

variable {initial state : State Machine} {writes : List (Machine × Outcome)}

@[simp]
theorem hset_consumers (machine : Machine) (fields : Record) :
    (state.hset machine fields).consumers = state.consumers := rfl

@[simp]
theorem hset_records_self (machine : Machine) (fields : Record) :
    (state.hset machine fields).records machine =
      (state.records machine).hsetMultiple fields := by
  simp [State.hset]

theorem hset_records_of_ne {machine other : Machine} (hne : other ≠ machine) (fields : Record) :
    (state.hset machine fields).records other = state.records other := by
  simp [State.hset, hne]

theorem Tracks.hset (htracks : Tracks initial state writes) {fields : Record} {outcome : Outcome}
    (houtcome : fields.outcome = some outcome) (hfailed : fields.failed.isSome)
    (machine : Machine) :
    Tracks initial (state.hset machine fields) (writes ++ [(machine, outcome)]) := by
  intro other
  rw [LastWrite.lastWrite_concat]
  by_cases heq : machine = other
  · subst heq
    rw [if_pos rfl, hset_records_self, Option.some_or]
    exact Record.outcome_hsetMultiple houtcome hfailed _
  · rw [if_neg heq, hset_records_of_ne (Ne.symm heq)]
    exact htracks other

theorem Tracks.srem (htracks : Tracks initial state writes) (address : Address) :
    Tracks initial (state.srem address) writes := htracks

/-- The metrics of the call leave its outcome alone. -/
theorem Tracks.stamp (htracks : Tracks initial state writes) (measured : Measured) (machine : Machine) :
    Tracks initial (state.hset machine (finishedFields setting.replicaId measured)) writes := by
  intro other
  rw [← htracks other]
  by_cases heq : other = machine
  · subst heq
    simp [Record.outcome, finishedFields]
  · rw [hset_records_of_ne heq]

/-- What one failure sent to one consumer writes, and whom it drops. -/
theorem sendFailure_spec (htracks : Tracks initial state writes) (cause : Option Turn)
    (errorMessage : String) (address : Address) :
    Tracks initial (sendFailure setting pattern futureId cause errorMessage address state)
        (writes ++ failureArrivals setting pattern cause [address]) ∧
      (sendFailure setting pattern futureId cause errorMessage address state).consumers =
        state.consumers.filter fun other =>
          ¬ (other = address ∧ (pattern.failure cause address).isSome) := by
  unfold sendFailure sendResultCallback
  cases hfailure : pattern.failure cause address with
  | none =>
      have hreaches : Reaches pattern cause address := Or.inl hfailure
      refine ⟨?_, by simp⟩
      rw [failureArrivals, List.filter_singleton, decide_eq_true hreaches]
      exact htracks.hset (resultMessage_outcome_failed _ _ _ _) rfl _
  | some reason =>
      cases hnote : pattern.failureNote cause address with
      | true =>
          have hreaches : Reaches pattern cause address := Or.inr hnote
          refine ⟨?_, by simp [State.srem]⟩
          rw [failureArrivals, List.filter_singleton, decide_eq_true hreaches]
          exact (htracks.srem address).hset (failureNote_outcome _ _) rfl _
      | false =>
          have hmisses : ¬ Reaches pattern cause address := by simp [Reaches, hfailure, hnote]
          refine ⟨?_, by simp [State.srem]⟩
          rw [failureArrivals, List.filter_singleton, decide_eq_false hmisses]
          simpa using htracks.srem address

omit [DecidableEq Machine] in
theorem failureArrivals_cons (cause : Option Turn) (address : Address)
    (addresses : List Address) :
    failureArrivals setting pattern cause (address :: addresses) =
      failureArrivals setting pattern cause [address] ++
        failureArrivals setting pattern cause addresses := by
  rw [failureArrivals, failureArrivals, failureArrivals, ← List.map_append, ← List.filter_append]
  rfl

/-- The loop over the consumers, one at a time. -/
theorem foldl_sendFailure_spec (cause : Option Turn) (errorMessage : String)
    (addresses : List Address) (htracks : Tracks initial state writes) :
    Tracks initial
        (addresses.foldl (fun state address =>
          sendFailure setting pattern futureId cause errorMessage address state) state)
        (writes ++ failureArrivals setting pattern cause addresses) ∧
      (addresses.foldl (fun state address =>
          sendFailure setting pattern futureId cause errorMessage address state) state).consumers =
        state.consumers.filter fun address =>
          ¬ (address ∈ addresses ∧ (pattern.failure cause address).isSome) := by
  induction addresses generalizing state writes with
  | nil => simpa [failureArrivals] using htracks
  | cons address addresses ih =>
      obtain ⟨hsent, hconsumers⟩ := sendFailure_spec setting pattern futureId htracks cause
        errorMessage address
      obtain ⟨hrest, hlisted⟩ := ih hsent
      constructor
      · rw [failureArrivals_cons, ← List.append_assoc]
        exact hrest
      · rw [List.foldl_cons, hlisted, hconsumers, List.filter_filter]
        refine List.filter_congr fun other _ => ?_
        by_cases heq : other = address
        · subst heq
          cases pattern.failure cause other <;> simp
        · simp [heq]

theorem markFutureFailed_spec (htracks : Tracks initial state writes) (cause : Option Turn)
    (error : Failure) (errorName : Option String) :
    Tracks initial (markFutureFailed setting pattern futureId cause error errorName state)
        (writes ++ (setting.home, .failed) :: failureArrivals setting pattern cause
          (state.consumers.filter (Process.Elsewhere setting.me))) ∧
      (markFutureFailed setting pattern futureId cause error errorName state).consumers =
        stillListed setting pattern cause state.consumers := by
  have hfailed := htracks.hset
    (show (failureFields (state.records setting.home) error errorName).outcome = some .failed from
      rfl) rfl setting.home
  obtain ⟨hrest, hlisted⟩ := foldl_sendFailure_spec setting pattern futureId cause
    (error.errorMessage (state.records setting.home))
    (state.consumers.filter (Process.Elsewhere setting.me)) hfailed
  constructor
  · rw [List.append_cons]
    exact hrest
  · refine hlisted.trans (List.filter_congr fun address hmem => ?_)
    have hlistedNow : address ∈ state.consumers := hmem
    simp [hlistedNow]

theorem sendResult_spec_none (htracks : Tracks initial state writes) (serialized : String) (turn : Turn)
    (hending : pattern.ending turn = none) :
    Tracks initial (sendResult setting pattern futureId serialized turn state)
        (writes ++ [(setting.machine turn.address, .done serialized)]) ∧
      (sendResult setting pattern futureId serialized turn state).consumers =
        state.consumers := by
  unfold sendResult sendResultCallback
  rw [hending]
  exact ⟨htracks.hset (resultMessage_outcome_done _ _ _ _) rfl _, rfl⟩

/-- What an undelivered result arrives as: a failure of the record and of its consumers. -/
theorem sendResult_spec_some (htracks : Tracks initial state writes) (serialized : String) (turn : Turn)
    (hending : pattern.ending turn ≠ none) :
    Tracks initial (sendResult setting pattern futureId serialized turn state)
        (writes ++ (setting.home, .failed) ::
          failureArrivals setting pattern (some turn)
            ((state.consumers.filter (· ≠ turn.address)).filter
              (Process.Elsewhere setting.me)) ++
          if pattern.endingNote turn then [(setting.machine turn.address, .failed)] else []) ∧
      (sendResult setting pattern futureId serialized turn state).consumers =
        stillListed setting pattern (some turn) (state.consumers.filter (· ≠ turn.address)) := by
  obtain ⟨reason, hreason⟩ := Option.ne_none_iff_exists'.mp hending
  have hdropped := htracks.srem turn.address
  unfold sendResult sendResultCallback
  rw [hreason]
  obtain ⟨hmarked, hlisted⟩ := markFutureFailed_spec setting pattern futureId hdropped (some turn)
    (.message (undeliveredMessage (resultMessage (state.records setting.home) futureId
      (some serialized) false "") reason)) (some "ResultNotDelivered")
  rw [List.append_assoc]
  cases hnote : pattern.endingNote turn with
  | true =>
      refine ⟨?_, hlisted⟩
      rw [← List.append_assoc]
      exact hmarked.hset (failureNote_outcome _ _) rfl _
  | false =>
      refine ⟨?_, hlisted⟩
      rw [if_neg Bool.false_ne_true, List.append_nil]
      exact hmarked

/-- The turns of a result, one after another. -/
theorem foldl_sendResult_spec (htracks : Tracks initial state writes) (serialized : String)
    (turns : List Turn) :
    Tracks initial
        (turns.foldl (fun state turn =>
          sendResult setting pattern futureId serialized turn state) state)
        (writes ++ resultArrivals setting pattern serialized turns state.consumers) ∧
      (turns.foldl (fun state turn =>
          sendResult setting pattern futureId serialized turn state) state).consumers =
        listedAfter setting pattern turns state.consumers := by
  induction turns generalizing state writes with
  | nil => exact ⟨by simpa [resultArrivals] using htracks, rfl⟩
  | cons turn turns ih =>
      rw [resultArrivals, listedAfter, List.foldl_cons]
      cases hending : pattern.ending turn with
      | none =>
          obtain ⟨hsent, hconsumers⟩ := sendResult_spec_none setting pattern futureId htracks
            serialized turn hending
          obtain ⟨hrest, hlisted⟩ := ih hsent
          rw [hconsumers] at hrest hlisted
          refine ⟨?_, hlisted⟩
          simpa using hrest
      | some reason =>
          obtain ⟨hsent, hconsumers⟩ := sendResult_spec_some setting pattern futureId htracks
            serialized turn (by simp [hending])
          obtain ⟨hrest, hlisted⟩ := ih hsent
          rw [hconsumers] at hrest hlisted
          refine ⟨?_, hlisted⟩
          rw [if_neg (by simp)]
          rw [List.append_assoc] at hrest
          simpa using hrest

omit [DecidableEq Machine] in
theorem resultArrivals_append (serialized : String) (turns turns' : List Turn)
    (listed : List Address) :
    resultArrivals setting pattern serialized (turns ++ turns') listed =
      resultArrivals setting pattern serialized turns listed ++
        resultArrivals setting pattern serialized turns'
          (listedAfter setting pattern turns listed) := by
  induction turns generalizing listed with
  | nil => rfl
  | cons turn turns ih =>
      rw [List.cons_append, resultArrivals, resultArrivals, listedAfter]
      cases pattern.ending turn with
      | none => simpa using ih listed
      | some reason =>
          simp only [Option.isNone_some, Bool.false_eq_true, if_false, ih, List.append_assoc,
            List.cons_append]

/-- The loop over the consumers, as turns. -/
theorem fanOutToConsumers_sendResult (serialized : String) :
    fanOutToConsumers setting
        (fun address => sendResult setting pattern futureId serialized (.consumer address)) state =
      ((state.consumers.filter (Process.Elsewhere setting.me)).map Turn.consumer).foldl
        (fun state turn => sendResult setting pattern futureId serialized turn state) state := by
  rw [List.foldl_map]
  rfl

theorem tracks_returns (serialized : String) :
    Tracks state
      ((state.hset setting.home { result := some serialized }).hset setting.home
        { failed := some false })
      [(setting.home, .done serialized)] := by
  intro machine
  by_cases heq : setting.home = machine
  · subst heq
    simp [LastWrite.lastWrite, Record.outcome]
  · rw [hset_records_of_ne (Ne.symm heq), hset_records_of_ne (Ne.symm heq)]
    simp [LastWrite.lastWrite, heq]

variable (measured : Measured) (origin : Option Address)

theorem finish_returns_spec (serialized : String) :
    Tracks state
      (finish setting pattern futureId measured origin (.returns serialized) state)
      (arrivals setting pattern state.consumers origin (.returns serialized)) := by
  obtain ⟨htold, hlisted⟩ := foldl_sendResult_spec setting pattern futureId
    (@tracks_returns _ _ setting state serialized) serialized
    ((state.consumers.filter (Process.Elsewhere setting.me)).map Turn.consumer)
  have hstamped := htold.stamp setting measured setting.home
  rw [arrivals, resultArrivals_append]
  cases origin with
  | none =>
      simp only [finish, fanOutToConsumers_sendResult]
      simpa [resultArrivals] using hstamped
  | some origin =>
      obtain ⟨hreported, -⟩ := foldl_sendResult_spec setting pattern futureId hstamped serialized
        [Turn.origin origin]
      simp only [hset_consumers] at hlisted hreported
      simp only [finish, fanOutToConsumers_sendResult]
      rw [hlisted, List.append_assoc] at hreported
      exact hreported

theorem finish_raises_spec (error : Failure) :
    Tracks state
      (finish setting pattern futureId measured origin (.raises error) state)
      (arrivals setting pattern state.consumers origin (.raises error)) := by
  have hinitial : Tracks state state [] := by
    intro machine
    rfl
  obtain ⟨hmarked, -⟩ := markFutureFailed_spec setting pattern futureId hinitial none error none
  have hstamped := hmarked.stamp setting measured setting.home
  rw [List.nil_append] at hstamped
  rw [arrivals]
  cases origin with
  | none =>
      simp only [finish]
      simpa using hstamped
  | some origin =>
      simp only [finish]
      unfold sendResultCallback
      cases hending : pattern.ending (.origin origin) with
      | none =>
          simpa [hending] using
            hstamped.hset (resultMessage_outcome_failed _ _ _ _) rfl (setting.machine origin)
      | some reason =>
          have hdropped := hstamped.srem origin
          cases hnote : pattern.endingNote (.origin origin) with
          | true =>
              simpa [hending, hnote] using
                hdropped.hset (failureNote_outcome futureId _) rfl (setting.machine origin)
          | false => simpa [hending, hnote] using hdropped

theorem finish_spec (ending : Ending) :
    Tracks state (finish setting pattern futureId measured origin ending state)
      (arrivals setting pattern state.consumers origin ending) := by
  cases ending with
  | returns serialized => exact finish_returns_spec setting pattern futureId measured origin _
  | raises error => exact finish_raises_spec setting pattern futureId measured origin _

/-! ### One outcome for all parties -/

/-- A call that raised is a failure for everyone it reaches. -/
theorem yields_raises (consumers : List Address) (error : Failure) :
    LastWrite.Yields Outcome.failed
      (arrivals setting pattern consumers origin (.raises error)) := by
  apply LastWrite.yields_of_forall
  intro write hmem
  simp only [arrivals, failureArrivals, List.mem_cons, List.mem_append, List.mem_map] at hmem
  rcases hmem with (rfl | ⟨_, -, rfl⟩) | ⟨_, -, rfl⟩ <;> rfl

/-- A result no send of which fails is everyone's result. -/
theorem yields_delivered (consumers : List Address) (serialized : String)
    (hdelivered : ∀ turn, pattern.ending turn = none) :
    LastWrite.Yields (Outcome.done serialized)
      (arrivals setting pattern consumers origin (.returns serialized)) := by
  have hall : ∀ (turns : List Turn) (listed : List Address),
      ∀ write ∈ resultArrivals setting pattern serialized turns listed,
        write.2 = Outcome.done serialized := by
    intro turns
    induction turns with
    | nil =>
        intro listed write hmem
        cases hmem
    | cons turn turns ih =>
        intro listed write hmem
        rw [resultArrivals, hdelivered turn] at hmem
        rcases List.mem_cons.mp hmem with rfl | hlater
        · rfl
        · exact ih listed write hlater
  apply LastWrite.yields_of_forall
  intro write hmem
  rcases List.mem_cons.mp hmem with rfl | hlater
  · rfl
  · exact hall _ _ write hlater

/-- Consumers `a:1` and `b:1`; nothing sent to `b:1` gets through. -/
def unreachable : Pattern where
  ending turn := if turn.address = "b:1" then some "UNAVAILABLE" else none
  endingNote turn := turn.address ≠ "b:1"
  failure _ address := if address = "b:1" then some "UNAVAILABLE" else none
  failureNote _ address := address ≠ "b:1"

end CanyonOS.Delivery
