import CanyonOS.Lib.TransitionSystem
import CanyonOS.Record
import Mathlib.Data.List.Count
import Mathlib.Data.List.Nodup
import Mathlib.Logic.Function.Basic

/-!
# The questions of a request

One request at its endpoint: the questions its agents ask, which `_process_request` lists under
`request:<id>:waiting`, the answers that pop them, the writes that end the root call, and the loops
of `_fail_waiting_questions` that pop what nobody answered.
-/

namespace CanyonOS.Questions

structure Request where
  requestId : RequestId
  root : FutureId

/-- A call to the endpoint agent, as it arrives at the endpoint's controller. -/
structure Question where
  futureId : FutureId
  parent : Option FutureId
  method : String
  args : String
  createdAt : Option Time
  /-- the controller of the agent that asks -/
  origin : Address
  text : String
deriving DecidableEq

/-- An entry of `request:<id>:waiting`. -/
structure Waiting where
  futureId : FutureId
  question : String
deriving DecidableEq

/-- How far `_process_request` has come with a question. -/
inductive Phase where
  | absent
  | received
  | recorded
  | registered
  | listed
  /-- it has read `request:<id>:future` -/
  | read (future : Option FutureId)
  | done
deriving DecidableEq

/-- A question's answer or failure, with the consumers it was sent to. -/
structure Settlement where
  failed : Bool
  consumers : List Address
deriving DecidableEq

structure State where
  /-- `request:<id>:future` -/
  future : Option FutureId := none
  records : FutureId → Record := fun _ => {}
  /-- `future:<id>:consumers` -/
  consumers : FutureId → List Address := fun _ => []
  /-- `request:<id>:waiting`, the newest first -/
  waiting : List Waiting := []
  questions : List Question := []
  phase : FutureId → Phase := fun _ => .absent
  /-- the loops of `_fail_waiting_questions` about to pop -/
  drains : ℕ := 0
  /-- what the other loops have popped -/
  failing : List FutureId := []
  /-- what `POST /answer` has popped -/
  answering : List FutureId := []
  settled : FutureId → List Settlement := fun _ => []

inductive Action where
  | setFuture
  | arrive (question : Question)
  /-- the next command of the question's handler -/
  | handle (question : Question)
  /-- a message with the root's outcome arrives -/
  | writeResult (data : Record)
  /-- any other write of the root's record: by `_mark_future_failed`, or by a replica on this
  machine -/
  | write (fields : Record)
  | pop
  | fail (futureId : FutureId) (now : Time)
  | finish
  | take
  | answer (futureId : FutureId) (result : String) (now : Time)

def setRecord (state : State) (futureId : FutureId) (fields : Record) : State :=
  { state with
    records := Function.update state.records futureId
      ((state.records futureId).hsetMultiple fields) }

def setPhase (state : State) (futureId : FutureId) (phase : Phase) : State :=
  { state with phase := Function.update state.phase futureId phase }

/-- The fan-out of a question's outcome. -/
def settle (state : State) (futureId : FutureId) (failed : Bool) : State :=
  { state with
    settled := Function.update state.settled futureId
      ({ failed, consumers := state.consumers futureId } :: state.settled futureId) }

/-- The record a question gets, under the asker's own ids. -/
def Question.fields (request : Request) (question : Question) : Record where
  id := question.futureId
  requestId := request.requestId
  parent := question.parent
  service := "endpoint"
  method := question.method
  args := question.args
  createdAt := question.createdAt

/-- The message makes `WriteResult` start `on_request_done`. -/
def NamesRequest (data : Record) : Prop :=
  data.parent.getD "" = "" ∧ data.requestId.getD "" ≠ ""

instance : DecidablePred NamesRequest := fun data =>
  inferInstanceAs (Decidable (data.parent.getD "" = "" ∧ data.requestId.getD "" ≠ ""))

/-- What the handler finds of the root by the id it read. -/
def rootRecord (state : State) (future : Option FutureId) : Record :=
  (future.map state.records).getD {}

def handle (request : Request) (state : State) (question : Question) : Option State :=
  match state.phase question.futureId with
  | .received =>
      some (setPhase (setRecord state question.futureId (question.fields request))
        question.futureId .recorded)
  | .recorded =>
      some { setPhase state question.futureId .registered with
        consumers := Function.update state.consumers question.futureId
          ((state.consumers question.futureId).insert question.origin) }
  | .registered =>
      some { setPhase state question.futureId .listed with
        waiting := { futureId := question.futureId, question := question.text } :: state.waiting }
  | .listed => some (setPhase state question.futureId (.read state.future))
  | .read future =>
      -- a question can arrive after its request finished
      let drains := if (rootRecord state future).Terminal then state.drains + 1 else state.drains
      some { setPhase state question.futureId .done with drains }
  | .absent | .done => none

def step (request : Request) (state : State) : Action → Option State
  | .setFuture => some { state with future := some request.root }
  | .arrive question =>
      if question.futureId ≠ request.root ∧
          question.futureId ∉ state.questions.map Question.futureId then
        some { setPhase state question.futureId .received with
          questions := question :: state.questions }
      else none
  | .handle question =>
      if question ∈ state.questions then handle request state question else none
  | .writeResult data =>
      some { setRecord state request.root data with
        drains := if NamesRequest data then state.drains + 1 else state.drains }
  | .write fields => some (setRecord state request.root fields)
  | .pop =>
      match state.drains, state.waiting.getLast? with
      | drains + 1, some entry =>
          some { state with
            drains
            waiting := state.waiting.dropLast
            failing := entry.futureId :: state.failing }
      | _, _ => none
  | .fail futureId now =>
      if futureId ∈ state.failing then
        let failure : Record :=
          { finishedAt := some now, failed := some true,
            error := some "Request finished before the question was answered",
            errorName := some "RequestFinished" }
        some { settle (setRecord state futureId failure) futureId true with
          failing := state.failing.erase futureId
          drains := state.drains + 1 }
      else none
  | .finish =>
      match state.drains, state.waiting with
      | drains + 1, [] => some { state with drains }
      | _, _ => none
  | .take =>
      state.waiting.getLast?.map fun entry =>
        { state with
          waiting := state.waiting.dropLast
          answering := entry.futureId :: state.answering }
  | .answer futureId result now =>
      if futureId ∈ state.answering then
        let fields : Record :=
          { futureId := some futureId, result := some result, finishedAt := some now }
        some { settle (setRecord state futureId fields) futureId false with
          answering := state.answering.erase futureId }
      else none

def system (request : Request) : TransitionSystem State Action where
  step := step request

/-- Every handler, loop and answer that was started is over. -/
structure Quiet (state : State) : Prop where
  handlers : ∀ question ∈ state.questions, state.phase question.futureId = .done
  drains : state.drains = 0
  failing : state.failing = []
  answering : state.answering = []

instance (state : State) : Decidable (Quiet state) :=
  decidable_of_iff
    ((∀ question ∈ state.questions, state.phase question.futureId = .done) ∧ state.drains = 0 ∧
      state.failing = [] ∧ state.answering = [])
    ⟨fun hquiet => ⟨hquiet.1, hquiet.2.1, hquiet.2.2.1, hquiet.2.2.2⟩,
      fun hquiet => ⟨hquiet.handlers, hquiet.drains, hquiet.failing, hquiet.answering⟩⟩

/-- Each question was answered or failed, once, and its asker was told. -/
structure SettledOnce (state : State) : Prop where
  waiting : state.waiting = []
  settled : ∀ question ∈ state.questions, ∃ settlement,
    state.settled question.futureId = [settlement] ∧ question.origin ∈ settlement.consumers

/-- Somebody is still to look at the root, or to pop what waits. -/
def Attended (state : State) : Prop :=
  state.drains ≠ 0 ∨ state.failing ≠ [] ∨
    ∃ question ∈ state.questions, state.phase question.futureId ≠ .done

instance (state : State) : Decidable (Attended state) :=
  inferInstanceAs (Decidable (_ ∨ _ ∨ ∃ question ∈ state.questions, _))

/-- The root does not end behind the back of a waiting question: by a write that starts no loop, or
before `request:<id>:future` is set. -/
def NoneLeft (request : Request) (state : State) : Action → Prop
  | .write fields => ((state.records request.root).hsetMultiple fields).Terminal →
      ¬ (state.records request.root).Terminal → state.waiting = [] ∨ Attended state
  | .writeResult data => ¬ NamesRequest data →
      ((state.records request.root).hsetMultiple data).Terminal →
      ¬ (state.records request.root).Terminal → state.waiting = [] ∨ Attended state
  | .handle question => state.phase question.futureId = .read none →
      (state.records request.root).Terminal →
      state.waiting = [] ∨ Attended (setPhase state question.futureId .done)
  | _ => True

/-! ### Where a question is -/

def Phase.isRegistered : Phase → Bool
  | .registered | .listed | .read _ | .done => true
  | .absent | .received | .recorded => false

def Phase.isListed : Phase → Bool
  | .listed | .read _ | .done => true
  | .absent | .received | .recorded | .registered => false

/-- The hands a question is in, and the outcomes it has had. -/
def held (state : State) (futureId : FutureId) : ℕ :=
  (state.waiting.map Waiting.futureId).count futureId + state.failing.count futureId +
    state.answering.count futureId + (state.settled futureId).length

structure Inv (request : Request) (state : State) : Prop where
  nodup : (state.questions.map Question.futureId).Nodup
  root : request.root ∉ state.questions.map Question.futureId
  absent : ∀ futureId, futureId ∉ state.questions.map Question.futureId →
    state.phase futureId = .absent
  held : ∀ futureId, held state futureId = if (state.phase futureId).isListed then 1 else 0
  registered : ∀ question ∈ state.questions, (state.phase question.futureId).isRegistered →
    question.origin ∈ state.consumers question.futureId
  told : ∀ question ∈ state.questions, ∀ settlement ∈ state.settled question.futureId,
    question.origin ∈ settlement.consumers
  future : ∀ futureId ∈ state.future, futureId = request.root
  read : ∀ question ∈ state.questions, ∀ futureId,
    state.phase question.futureId = .read (some futureId) → futureId = request.root
  attended : (state.records request.root).Terminal → state.waiting = [] ∨ Attended state

variable {request : Request} {state next : State} {question : Question} {futureId : FutureId}

@[simp]
theorem phase_setPhase_self (state : State) (futureId : FutureId) (phase : Phase) :
    (setPhase state futureId phase).phase futureId = phase := by
  simp [setPhase]

theorem phase_setPhase_of_ne {other : FutureId} (hne : other ≠ futureId) (phase : Phase) :
    (setPhase state futureId phase).phase other = state.phase other := by
  simp [setPhase, hne]

theorem records_setRecord_of_ne {other : FutureId} (hne : other ≠ futureId) (fields : Record) :
    (setRecord state futureId fields).records other = state.records other := by
  simp [setRecord, hne]

@[simp]
theorem settled_settle_self (state : State) (futureId : FutureId) (failed : Bool) :
    (settle state futureId failed).settled futureId =
      { failed, consumers := state.consumers futureId } :: state.settled futureId := by
  simp [settle]

theorem settled_settle_of_ne {other : FutureId} (hne : other ≠ futureId) (failed : Bool) :
    (settle state futureId failed).settled other = state.settled other := by
  simp [settle, hne]

theorem Inv.eq_of_futureId (hinv : Inv request state) {left right : Question}
    (hleft : left ∈ state.questions) (hright : right ∈ state.questions)
    (heq : left.futureId = right.futureId) : left = right :=
  List.inj_on_of_nodup_map hinv.nodup hleft hright heq

theorem Inv.ne_root (hinv : Inv request state) (hasked : question ∈ state.questions) :
    request.root ≠ question.futureId := by
  intro heq
  apply hinv.root
  rw [heq]
  exact List.mem_map_of_mem hasked

/-- What is in somebody's hands was asked and listed. -/
theorem Inv.listed_of_held (hinv : Inv request state) (hheld : 0 < Questions.held state futureId) :
    (state.phase futureId).isListed ∧ ∃ question ∈ state.questions, question.futureId = futureId := by
  have hlisted : (state.phase futureId).isListed := by
    by_contra hnot
    rw [hinv.held, if_neg hnot] at hheld
    exact lt_irrefl 0 hheld
  refine ⟨hlisted, List.mem_map.mp ?_⟩
  by_contra hmem
  rw [hinv.absent futureId hmem] at hlisted
  cases hlisted

theorem Phase.isRegistered_of_isListed {phase : Phase} (hlisted : phase.isListed) :
    phase.isRegistered := by
  cases phase <;> first | rfl | cases hlisted

/-! ### The handler -/

/-- The handler goes on without listing anything. -/
theorem Inv.setPhase (hinv : Inv request state) (hasked : question ∈ state.questions)
    {phase : Phase} (hlisted : phase.isListed = (state.phase question.futureId).isListed)
    (hregistered : phase.isRegistered → (state.phase question.futureId).isRegistered)
    (hread : ∀ futureId, phase = .read (some futureId) → futureId = request.root)
    (hattended : (state.records request.root).Terminal →
      state.waiting = [] ∨ Attended (Questions.setPhase state question.futureId phase)) :
    Inv request (Questions.setPhase state question.futureId phase) where
  nodup := hinv.nodup
  root := hinv.root
  absent other hmem := by
    have hne : other ≠ question.futureId := by
      rintro rfl
      exact hmem (List.mem_map_of_mem hasked)
    rw [phase_setPhase_of_ne hne]
    exact hinv.absent other hmem
  held other := by
    change Questions.held state other = _
    rw [hinv.held]
    by_cases heq : other = question.futureId
    · rw [heq, phase_setPhase_self, hlisted]
    · rw [phase_setPhase_of_ne heq]
  registered other hother hphase := by
    by_cases heq : other.futureId = question.futureId
    · rw [heq, phase_setPhase_self] at hphase
      refine hinv.registered other hother ?_
      rw [heq]
      exact hregistered hphase
    · rw [phase_setPhase_of_ne heq] at hphase
      exact hinv.registered other hother hphase
  told := hinv.told
  future := hinv.future
  read other hother found hphase := by
    by_cases heq : other.futureId = question.futureId
    · rw [heq, phase_setPhase_self] at hphase
      exact hread found hphase
    · rw [phase_setPhase_of_ne heq] at hphase
      exact hinv.read other hother found hphase
  attended := hattended

theorem attended_setPhase (hasked : question ∈ state.questions) {phase : Phase}
    (hphase : phase ≠ .done) : Attended (setPhase state question.futureId phase) := by
  right
  right
  refine ⟨question, hasked, ?_⟩
  rwa [phase_setPhase_self]

/-- A write of a question's record is not one of the root's. -/
theorem Inv.setRecord (hinv : Inv request state) (hne : request.root ≠ futureId)
    (fields : Record) : Inv request (Questions.setRecord state futureId fields) where
  nodup := hinv.nodup
  root := hinv.root
  absent := hinv.absent
  held := hinv.held
  registered := hinv.registered
  told := hinv.told
  future := hinv.future
  read := hinv.read
  attended := by
    rw [records_setRecord_of_ne hne]
    exact hinv.attended

theorem Inv.register (hinv : Inv request state) (hasked : question ∈ state.questions)
    (hphase : state.phase question.futureId = .recorded) :
    Inv request { Questions.setPhase state question.futureId .registered with
      consumers := Function.update state.consumers question.futureId
        ((state.consumers question.futureId).insert question.origin) } where
  nodup := hinv.nodup
  root := hinv.root
  absent other hmem := by
    have hne : other ≠ question.futureId := by
      rintro rfl
      exact hmem (List.mem_map_of_mem hasked)
    exact (phase_setPhase_of_ne hne _).trans (hinv.absent other hmem)
  held other := by
    change Questions.held state other =
      if ((Questions.setPhase state question.futureId .registered).phase other).isListed then 1
      else 0
    rw [hinv.held]
    by_cases heq : other = question.futureId
    · rw [heq, phase_setPhase_self, hphase]
      rfl
    · rw [phase_setPhase_of_ne heq]
  registered other hother hregistered := by
    change other.origin ∈ Function.update state.consumers question.futureId _ other.futureId
    by_cases heq : other.futureId = question.futureId
    · rw [hinv.eq_of_futureId hother hasked heq, Function.update_self]
      exact List.mem_insert_self
    · rw [Function.update_of_ne heq]
      refine hinv.registered other hother ?_
      rwa [← phase_setPhase_of_ne heq .registered]
  told := hinv.told
  future := hinv.future
  read other hother found hread := by
    change (Questions.setPhase state question.futureId .registered).phase other.futureId = _ at hread
    by_cases heq : other.futureId = question.futureId
    · rw [heq, phase_setPhase_self] at hread
      cases hread
    · rw [phase_setPhase_of_ne heq] at hread
      exact hinv.read other hother found hread
  attended _ := .inr (attended_setPhase hasked (by simp))

theorem Inv.list (hinv : Inv request state) (hasked : question ∈ state.questions)
    (hphase : state.phase question.futureId = .registered) :
    Inv request { Questions.setPhase state question.futureId .listed with
      waiting := { futureId := question.futureId, question := question.text } :: state.waiting } where
  nodup := hinv.nodup
  root := hinv.root
  absent other hmem := by
    have hne : other ≠ question.futureId := by
      rintro rfl
      exact hmem (List.mem_map_of_mem hasked)
    exact (phase_setPhase_of_ne hne _).trans (hinv.absent other hmem)
  held other := by
    have hbefore := hinv.held other
    change ((question.futureId :: state.waiting.map Waiting.futureId).count other +
      state.failing.count other + state.answering.count other + (state.settled other).length) =
        if ((Questions.setPhase state question.futureId .listed).phase other).isListed then 1
        else 0
    unfold Questions.held at hbefore
    by_cases heq : other = question.futureId
    · subst heq
      rw [hphase] at hbefore
      rw [phase_setPhase_self, List.count_cons_self]
      simp only [Phase.isListed, Bool.false_eq_true, if_false, if_true] at hbefore ⊢
      omega
    · rw [phase_setPhase_of_ne heq, List.count_cons_of_ne (Ne.symm heq)]
      exact hbefore
  registered other hother hregistered := by
    refine hinv.registered other hother ?_
    by_cases heq : other.futureId = question.futureId
    · rw [heq, hphase]
      rfl
    · rwa [← phase_setPhase_of_ne heq .listed]
  told := hinv.told
  future := hinv.future
  read other hother found hread := by
    change (Questions.setPhase state question.futureId .listed).phase other.futureId = _ at hread
    by_cases heq : other.futureId = question.futureId
    · rw [heq, phase_setPhase_self] at hread
      cases hread
    · rw [phase_setPhase_of_ne heq] at hread
      exact hinv.read other hother found hread
  attended _ := .inr (attended_setPhase hasked (by simp))

theorem Inv.arrive (hinv : Inv request state) (hroot : question.futureId ≠ request.root)
    (hfresh : question.futureId ∉ state.questions.map Question.futureId) :
    Inv request { Questions.setPhase state question.futureId .received with
      questions := question :: state.questions } where
  nodup := List.nodup_cons.mpr ⟨hfresh, hinv.nodup⟩
  root := List.not_mem_cons_of_ne_of_not_mem hroot.symm hinv.root
  absent other hmem := by
    rw [List.map_cons, List.mem_cons, not_or] at hmem
    exact (phase_setPhase_of_ne hmem.1 _).trans (hinv.absent other hmem.2)
  held other := by
    change Questions.held state other =
      if ((Questions.setPhase state question.futureId .received).phase other).isListed then 1
      else 0
    rw [hinv.held]
    by_cases heq : other = question.futureId
    · rw [heq, phase_setPhase_self, hinv.absent _ hfresh]
      rfl
    · rw [phase_setPhase_of_ne heq]
  registered other hother hregistered := by
    rcases List.mem_cons.mp hother with rfl | hold
    · change ((Questions.setPhase state other.futureId .received).phase _).isRegistered
        at hregistered
      rw [phase_setPhase_self] at hregistered
      cases hregistered
    · have hne : other.futureId ≠ question.futureId := by
        intro heq
        exact hfresh (heq ▸ List.mem_map_of_mem hold)
      refine hinv.registered other hold ?_
      rwa [← phase_setPhase_of_ne hne .received]
  told other hother settlement hsettlement := by
    rcases List.mem_cons.mp hother with rfl | hold
    · have hheld := hinv.held other.futureId
      rw [hinv.absent _ hfresh] at hheld
      have hempty : (state.settled other.futureId).length = 0 := by
        simp only [Questions.held, Phase.isListed, Bool.false_eq_true, if_false] at hheld
        omega
      change settlement ∈ state.settled other.futureId at hsettlement
      rw [List.length_eq_zero_iff.mp hempty] at hsettlement
      cases hsettlement
    · exact hinv.told other hold settlement hsettlement
  future := hinv.future
  read other hother found hread := by
    change (Questions.setPhase state question.futureId .received).phase other.futureId = _ at hread
    by_cases heq : other.futureId = question.futureId
    · rw [heq, phase_setPhase_self] at hread
      cases hread
    · rw [phase_setPhase_of_ne heq] at hread
      rcases List.mem_cons.mp hother with rfl | hold
      · exact absurd rfl heq
      · exact hinv.read other hold found hread
  attended _ := by
    right
    right
    right
    refine ⟨question, List.mem_cons_self, ?_⟩
    change (Questions.setPhase state question.futureId .received).phase question.futureId ≠ .done
    rw [phase_setPhase_self]
    simp

/-- Only the number of loops changes. -/
theorem Inv.drains (hinv : Inv request state) {drains : ℕ}
    (hattended : (state.records request.root).Terminal →
      state.waiting = [] ∨ Attended { state with drains }) :
    Inv request { state with drains } where
  nodup := hinv.nodup
  root := hinv.root
  absent := hinv.absent
  held := hinv.held
  registered := hinv.registered
  told := hinv.told
  future := hinv.future
  read := hinv.read
  attended := hattended

theorem Inv.handle (hinv : Inv request state) (hasked : question ∈ state.questions)
    (hguard : NoneLeft request state (.handle question))
    (hstep : handle request state question = some next) : Inv request next := by
  unfold Questions.handle at hstep
  cases hphase : state.phase question.futureId with
  | absent | done =>
      rw [hphase] at hstep
      cases hstep
  | received =>
      rw [hphase] at hstep
      cases hstep
      refine (hinv.setRecord (hinv.ne_root hasked) _).setPhase hasked ?_ ?_ ?_ ?_
      · change _ = (state.phase question.futureId).isListed
        rw [hphase]
        rfl
      · intro hregistered
        cases hregistered
      · intro futureId heq
        cases heq
      · intro _
        exact .inr (attended_setPhase hasked (by simp))
  | recorded =>
      rw [hphase] at hstep
      cases hstep
      exact hinv.register hasked hphase
  | registered =>
      rw [hphase] at hstep
      cases hstep
      exact hinv.list hasked hphase
  | listed =>
      rw [hphase] at hstep
      cases hstep
      refine hinv.setPhase hasked ?_ ?_ ?_ ?_
      · rw [hphase]
        rfl
      · intro _
        rw [hphase]
        rfl
      · intro futureId heq
        exact hinv.future futureId (Phase.read.inj heq)
      · intro _
        exact .inr (attended_setPhase hasked (by simp))
  | read future =>
      rw [hphase] at hstep
      cases hstep
      -- the guard speaks for a handler that found no id; the others see the root itself
      have hlooked : (state.records request.root).Terminal → state.waiting = [] ∨
          Attended (Questions.setPhase state question.futureId .done) ∨
            (rootRecord state future).Terminal := by
        intro hterminal
        cases future with
        | none =>
            rcases hguard hphase hterminal with hwaiting | hattended
            · exact .inl hwaiting
            · exact .inr (.inl hattended)
        | some found =>
            obtain rfl := hinv.read question hasked found hphase
            exact .inr (.inr hterminal)
      by_cases hterminal : (rootRecord state future).Terminal
      · rw [if_pos hterminal]
        refine (hinv.drains fun _ => .inr (.inl (Nat.succ_ne_zero _))).setPhase hasked ?_ ?_ ?_ ?_
        · change _ = (state.phase question.futureId).isListed
          rw [hphase]
          rfl
        · intro _
          change (state.phase question.futureId).isRegistered
          rw [hphase]
          rfl
        · intro futureId heq
          cases heq
        · intro _
          exact .inr (.inl (Nat.succ_ne_zero _))
      · rw [if_neg hterminal]
        refine hinv.setPhase hasked ?_ ?_ ?_ ?_
        · rw [hphase]
          rfl
        · intro _
          rw [hphase]
          rfl
        · intro futureId heq
          cases heq
        · intro hroot
          rcases hlooked hroot with hwaiting | hattended | hseen
          · exact .inl hwaiting
          · exact .inr hattended
          · exact absurd hseen hterminal

/-! ### The root, the answers and the loops -/

/-- A write of the root that starts no loop, or one more. -/
theorem Inv.writeRoot (hinv : Inv request state) (fields : Record)
    (hattended : ((state.records request.root).hsetMultiple fields).Terminal →
      ¬ (state.records request.root).Terminal → state.waiting = [] ∨ Attended state) :
    Inv request (Questions.setRecord state request.root fields) where
  nodup := hinv.nodup
  root := hinv.root
  absent := hinv.absent
  held := hinv.held
  registered := hinv.registered
  told := hinv.told
  future := hinv.future
  read := hinv.read
  attended hterminal := by
    simp only [Questions.setRecord, Function.update_self] at hterminal
    by_cases hbefore : (state.records request.root).Terminal
    · exact hinv.attended hbefore
    · exact hattended hterminal hbefore

theorem count_getLast {waiting : List Waiting} {entry : Waiting}
    (hlast : waiting.getLast? = some entry) (futureId : FutureId) :
    (waiting.map Waiting.futureId).count futureId =
      (waiting.dropLast.map Waiting.futureId).count futureId +
        if entry.futureId = futureId then 1 else 0 := by
  have hsplit := List.dropLast_append_getLast? entry hlast
  calc (waiting.map Waiting.futureId).count futureId
      = ((waiting.dropLast ++ [entry]).map Waiting.futureId).count futureId := by rw [hsplit]
    _ = _ := by simp [List.count_append, List.count_cons]

/-- A question passes from one hand to another, or gets its outcome. -/
theorem Inv.move (hinv : Inv request state) (hquestions : next.questions = state.questions)
    (hphase : next.phase = state.phase) (hconsumers : next.consumers = state.consumers)
    (hfuture : next.future = state.future)
    (hroot : next.records request.root = state.records request.root)
    (hheld : ∀ futureId, Questions.held next futureId = Questions.held state futureId)
    (htold : ∀ question ∈ state.questions, ∀ settlement ∈ next.settled question.futureId,
      question.origin ∈ settlement.consumers)
    (hattended : next.waiting = [] ∨ Attended next ∨ ¬ (state.records request.root).Terminal) :
    Inv request next where
  nodup := by rw [hquestions]; exact hinv.nodup
  root := by rw [hquestions]; exact hinv.root
  absent := by rw [hquestions, hphase]; exact hinv.absent
  held futureId := by rw [hheld, hphase]; exact hinv.held futureId
  registered := by rw [hquestions, hphase, hconsumers]; exact hinv.registered
  told := by rw [hquestions]; exact htold
  future := by rw [hfuture]; exact hinv.future
  read := by rw [hquestions, hphase]; exact hinv.read
  attended hterminal := by
    rw [hroot] at hterminal
    rcases hattended with hwaiting | hattended | hopen
    · exact .inl hwaiting
    · exact .inr hattended
    · exact absurd hterminal hopen

/-- The asker of a question in somebody's hands is among its consumers. -/
theorem Inv.told_settle (hinv : Inv request state) (hheld : 0 < Questions.held state futureId)
    (failed : Bool) (question : Question) (hasked : question ∈ state.questions)
    (settlement : Settlement)
    (hmem : settlement ∈ (settle state futureId failed).settled question.futureId) :
    question.origin ∈ settlement.consumers := by
  by_cases heq : question.futureId = futureId
  · subst heq
    rw [settled_settle_self] at hmem
    rcases List.mem_cons.mp hmem with rfl | hold
    · have hlisted := (hinv.listed_of_held hheld).1
      exact hinv.registered question hasked (Phase.isRegistered_of_isListed hlisted)
    · exact hinv.told question hasked settlement hold
  · rw [settled_settle_of_ne heq] at hmem
    exact hinv.told question hasked settlement hmem

theorem count_erase_add {futureIds : List FutureId} (hmem : futureId ∈ futureIds)
    (other : FutureId) :
    (futureIds.erase futureId).count other + (if futureId = other then 1 else 0) =
      futureIds.count other := by
  have hpositive := List.count_pos_iff.mpr hmem
  by_cases heq : futureId = other
  · subst heq
    rw [List.count_erase_self, if_pos rfl]
    omega
  · rw [List.count_erase_of_ne (Ne.symm heq), if_neg heq]
    rfl

theorem length_settled_settle (state : State) (futureId other : FutureId) (failed : Bool) :
    ((settle state futureId failed).settled other).length =
      (state.settled other).length + if futureId = other then 1 else 0 := by
  by_cases heq : other = futureId
  · subst heq
    rw [settled_settle_self, if_pos rfl]
    rfl
  · rw [settled_settle_of_ne heq, if_neg (Ne.symm heq)]
    rfl

theorem held_pos_of_failing (hmem : futureId ∈ state.failing) : 0 < held state futureId := by
  have hcount := List.count_pos_iff.mpr hmem
  unfold held
  omega

theorem held_pos_of_answering (hmem : futureId ∈ state.answering) : 0 < held state futureId := by
  have hcount := List.count_pos_iff.mpr hmem
  unfold held
  omega

theorem Inv.pop (hinv : Inv request state) {entry : Waiting}
    (hlast : state.waiting.getLast? = some entry) (drains : ℕ) :
    Inv request { state with
      drains
      waiting := state.waiting.dropLast
      failing := entry.futureId :: state.failing } := by
  refine hinv.move rfl rfl rfl rfl rfl (fun futureId => ?_) hinv.told
    (.inr (.inl (.inr (.inl (List.cons_ne_nil _ _)))))
  unfold Questions.held
  rw [count_getLast hlast]
  simp only [List.count_cons, beq_iff_eq]
  omega

theorem Inv.fail (hinv : Inv request state) (hmem : futureId ∈ state.failing)
    (hroot : request.root ≠ futureId) (failure : Record) :
    Inv request { settle (Questions.setRecord state futureId failure) futureId true with
      failing := state.failing.erase futureId
      drains := state.drains + 1 } := by
  refine hinv.move rfl rfl rfl rfl (records_setRecord_of_ne hroot _) (fun other => ?_) ?_
    (.inr (.inl (.inl (Nat.succ_ne_zero _))))
  · have hcount := count_erase_add hmem other
    have hlength := length_settled_settle state futureId other true
    change (state.waiting.map Waiting.futureId).count other +
      (state.failing.erase futureId).count other + state.answering.count other +
        ((settle state futureId true).settled other).length = _
    unfold Questions.held
    omega
  · exact hinv.told_settle (held_pos_of_failing hmem) true

theorem Inv.take (hinv : Inv request state) {entry : Waiting}
    (hlast : state.waiting.getLast? = some entry) :
    Inv request { state with
      waiting := state.waiting.dropLast
      answering := entry.futureId :: state.answering } := by
  refine hinv.move rfl rfl rfl rfl rfl (fun futureId => ?_) hinv.told ?_
  · unfold Questions.held
    rw [count_getLast hlast]
    simp only [List.count_cons, beq_iff_eq]
    omega
  · by_cases hterminal : (state.records request.root).Terminal
    · rcases hinv.attended hterminal with hwaiting | hattended
      · rw [hwaiting] at hlast
        cases hlast
      · exact .inr (.inl hattended)
    · exact .inr (.inr hterminal)

theorem Inv.answer (hinv : Inv request state) (hmem : futureId ∈ state.answering)
    (hroot : request.root ≠ futureId) (fields : Record) :
    Inv request { settle (Questions.setRecord state futureId fields) futureId false with
      answering := state.answering.erase futureId } := by
  refine hinv.move rfl rfl rfl rfl (records_setRecord_of_ne hroot _) (fun other => ?_) ?_ ?_
  · have hcount := count_erase_add hmem other
    have hlength := length_settled_settle state futureId other false
    change (state.waiting.map Waiting.futureId).count other + state.failing.count other +
      (state.answering.erase futureId).count other +
        ((settle state futureId false).settled other).length = _
    unfold Questions.held
    omega
  · exact hinv.told_settle (held_pos_of_answering hmem) false
  · by_cases hterminal : (state.records request.root).Terminal
    · rcases hinv.attended hterminal with hwaiting | hattended
      · exact .inl hwaiting
      · exact .inr (.inl hattended)
    · exact .inr (.inr hterminal)

theorem inv_step {action : Action} (hinv : Inv request state)
    (hguard : NoneLeft request state action) (hstep : step request state action = some next) :
    Inv request next := by
  have hroot : ∀ futureId, 0 < held state futureId → request.root ≠ futureId := by
    intro futureId hheld
    obtain ⟨-, question, hasked, rfl⟩ := hinv.listed_of_held hheld
    exact hinv.ne_root hasked
  cases action with
  | setFuture =>
      cases hstep
      refine { hinv with future := fun futureId hmem => ?_ }
      exact (Option.some.inj hmem).symm
  | arrive question =>
      simp only [step] at hstep
      split_ifs at hstep with harrived
      cases hstep
      exact hinv.arrive harrived.1 harrived.2
  | handle question =>
      simp only [step] at hstep
      split_ifs at hstep with hasked
      exact hinv.handle hasked hguard hstep
  | writeResult data =>
      cases hstep
      by_cases hnames : NamesRequest data
      · rw [if_pos hnames]
        have hmore : Inv request { state with drains := state.drains + 1 } :=
          hinv.drains fun _ => .inr (.inl (Nat.succ_ne_zero _))
        exact hmore.writeRoot data fun _ _ => .inr (.inl (Nat.succ_ne_zero _))
      · rw [if_neg hnames]
        exact hinv.writeRoot data (hguard hnames)
  | write fields =>
      cases hstep
      exact hinv.writeRoot fields hguard
  | pop =>
      simp only [step] at hstep
      split at hstep
      case h_1 drains entry _ hlast =>
        cases hstep
        exact hinv.pop hlast drains
      case h_2 => cases hstep
  | fail futureId now =>
      simp only [step] at hstep
      split_ifs at hstep with hmem
      cases hstep
      exact hinv.fail hmem (hroot futureId (held_pos_of_failing hmem)) _
  | finish =>
      simp only [step] at hstep
      split at hstep
      case h_1 drains _ hempty =>
        cases hstep
        exact hinv.drains fun _ => .inl hempty
      case h_2 => cases hstep
  | take =>
      obtain ⟨entry, hlast, rfl⟩ := Option.map_eq_some_iff.mp hstep
      exact hinv.take hlast
  | answer futureId result now =>
      simp only [step] at hstep
      split_ifs at hstep with hmem
      cases hstep
      exact hinv.answer hmem (hroot futureId (held_pos_of_answering hmem)) _

theorem inv_empty (request : Request) : Inv request {} where
  nodup := List.nodup_nil
  root := List.not_mem_nil
  absent _ _ := rfl
  held _ := rfl
  registered _ hmem := by cases hmem
  told _ hmem := by cases hmem
  future _ hmem := by cases hmem
  read _ hmem := by cases hmem
  attended _ := .inl rfl

theorem Inv.settledOnce (hinv : Inv request state) (hquiet : Quiet state)
    (hended : (state.records request.root).Terminal) : SettledOnce state := by
  have hwaiting : state.waiting = [] := by
    rcases hinv.attended hended with hwaiting | hdrains | hfailing | ⟨question, hasked, hphase⟩
    · exact hwaiting
    · exact absurd hquiet.drains hdrains
    · exact absurd hquiet.failing hfailing
    · exact absurd (hquiet.handlers question hasked) hphase
  refine ⟨hwaiting, fun question hasked => ?_⟩
  have hheld := hinv.held question.futureId
  rw [hquiet.handlers question hasked] at hheld
  have hlength : (state.settled question.futureId).length = 1 := by
    simpa [Questions.held, hwaiting, hquiet.failing, hquiet.answering, Phase.isListed] using hheld
  obtain ⟨settlement, hsettled⟩ := List.length_eq_one_iff.mp hlength
  refine ⟨settlement, hsettled, hinv.told question hasked settlement ?_⟩
  rw [hsettled]
  exact List.mem_singleton_self settlement

instance (request : Request) (state : State) : DecidablePred (NoneLeft request state)
  | .write _ => inferInstanceAs (Decidable (_ → ¬ _ → _ ∨ _))
  | .writeResult _ => inferInstanceAs (Decidable (¬ _ → _ → ¬ _ → _ ∨ _))
  | .handle _ => inferInstanceAs (Decidable (_ → _ → _ ∨ _))
  | .setFuture | .arrive _ | .pop | .fail _ _ | .finish | .take | .answer _ _ _ => isTrue trivial

instance (state : State) : Decidable (SettledOnce state) :=
  decidable_of_iff
    (state.waiting = [] ∧ ∀ question ∈ state.questions,
      (state.settled question.futureId).length = 1 ∧
        ∀ settlement ∈ state.settled question.futureId, question.origin ∈ settlement.consumers)
    (by
      constructor
      · rintro ⟨hwaiting, hsettled⟩
        refine ⟨hwaiting, fun question hasked => ?_⟩
        obtain ⟨hlength, horigin⟩ := hsettled question hasked
        obtain ⟨settlement, heq⟩ := List.length_eq_one_iff.mp hlength
        exact ⟨settlement, heq, horigin settlement (heq ▸ List.mem_singleton_self settlement)⟩
      · rintro ⟨hwaiting, hsettled⟩
        refine ⟨hwaiting, fun question hasked => ?_⟩
        obtain ⟨settlement, heq, horigin⟩ := hsettled question hasked
        refine ⟨by rw [heq]; rfl, fun other hmem => ?_⟩
        rw [heq] at hmem
        rwa [List.mem_singleton.mp hmem])

def booking : Request where
  requestId := "r1"
  root := "f1"

/-- A question of the agent behind the root call, which runs on another machine. -/
def whichDay : Question where
  futureId := "f2"
  parent := some "f1"
  method := "ask_human"
  args := "{}"
  createdAt := some 1
  origin := "10.0.0.2:5000"
  text := "which day?"

def asking : List Action :=
  [.setFuture, .arrive whichDay, .handle whichDay, .handle whichDay, .handle whichDay,
    .handle whichDay, .handle whichDay]

/-- The replica that ran the root is gone: `_mark_future_failed` ends the root at its caller. -/
def replicaGone : Action :=
  .write { failed := some true, error := some "its replica is gone",
           errorName := some "ReplicaRemovedError" }

/-- A second question comes when the root's failure has arrived, and one loop fails both. -/
def lateQuestion : List Action :=
  [.arrive { whichDay with futureId := "f3" },
    .writeResult { id := some "f1", requestId := some "r1", parent := some "", failed := some true,
                   error := some "booking.run failed" },
    .handle { whichDay with futureId := "f3" }, .handle { whichDay with futureId := "f3" },
    .handle { whichDay with futureId := "f3" }, .handle { whichDay with futureId := "f3" },
    .pop, .fail "f2" 3, .handle { whichDay with futureId := "f3" }, .pop, .finish, .fail "f3" 4,
    .finish]

end CanyonOS.Questions
