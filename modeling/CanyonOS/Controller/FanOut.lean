import CanyonOS.Controller.Process

/-!
# Telling the consumers of a result

One future on the machine whose Redis has its consumer set. A call that ends is written to the
record first, and then its outcome is sent to everyone in the set; a consumer is put in the set
first, and then looks for a result. The two may interleave in any way, and so may the messages.
-/

namespace CanyonOS.FanOut

/-- What the run is about: the future, how its call ends, and where the controllers are. -/
structure Setting where
  futureId : FutureId
  outcome : Outcome
  machine : Address → String
  -- the machine whose Redis has the consumer set
  here : String

/-- What `_fan_out_to_consumers` is called with. -/
structure Ended where
  result : Option String
  failed : Bool
  errorMessage : String
deriving DecidableEq

/-- How far a controller of this machine is with ending the call. -/
inductive EndStage where
  -- `result` is written, `failed` is not
  | stored (serialized : String)
  -- the outcome is written, the consumer set not read
  | written (ended : Ended)
  | sending (ended : Ended) (addresses : List Address)
deriving DecidableEq

/-- How far `_process_request` is with a consumer of the future. -/
inductive RegisterStage where
  | registered
  | pushing (result : String)
deriving DecidableEq

structure State where
  redis : String → Record := fun _ => {}
  consumers : List Address := []
  endings : List (Address × EndStage) := []
  registrations : List (Address × RegisterStage) := []
  inFlight : List (Address × Record) := []

inductive Action where
  | store (me : Address) (serialized : String)
  | settle (me : Address) (serialized : String)
  | fail (me : Address) (error : Failure) (errorName : Option String) (beforeStart : Option Time)
  | arrive (me : Address) (data : Record)
  | read (me : Address) (ended : Ended)
  | send (me : Address) (ended : Ended) (address : Address) (rest : List Address)
  | finish (me : Address) (ended : Ended)
  | register (address : Address)
  | check (address : Address)
  | push (address : Address) (result : String)
  | deliver (address : Address) (message : Record)

variable (setting : Setting)

def State.hset (state : State) (machine : String) (fields : Record) : State :=
  { state with
    redis := Function.update state.redis machine ((state.redis machine).hsetMultiple fields) }

/-- An ending moves on from one stage to the next. -/
def State.advance (state : State) (me : Address) (before after : EndStage) : State :=
  { state with endings := (me, after) :: state.endings.erase (me, before) }

def State.begin (state : State) (me : Address) (stage : EndStage) : State :=
  { state with endings := (me, stage) :: state.endings }

def State.send (state : State) (address : Address) (ended : Ended) : State :=
  { state with
    inFlight := (address, resultMessage (state.redis setting.here) setting.futureId ended.result
      ended.failed ended.errorMessage) :: state.inFlight }

def endedWith (data : Record) : Ended where
  result := data.result
  failed := data.failed.getD false
  errorMessage := data.error.getD ""

def step (state : State) : Action → Option State
  | .store me serialized =>
      if setting.outcome = .done serialized ∧ setting.machine me = setting.here then
        some ((state.hset setting.here { result := some serialized }).begin me
          (.stored serialized))
      else none
  | .settle me serialized =>
      if (me, .stored serialized) ∈ state.endings then
        some ((state.hset setting.here { failed := some false }).advance me (.stored serialized)
          (.written ⟨some serialized, false, ""⟩))
      else none
  | .fail me error errorName beforeStart =>
      if setting.outcome = .failed ∧ setting.machine me = setting.here then
        let record := state.redis setting.here
        some ((state.hset setting.here (failureFields record error errorName beforeStart)).begin me
          (.written ⟨none, true, error.errorMessage record⟩))
      else none
  | .arrive me data =>
      if data.outcome = some setting.outcome ∧ setting.machine me = setting.here then
        some ((state.hset setting.here data).begin me (.written (endedWith data)))
      else none
  | .read me ended =>
      if (me, .written ended) ∈ state.endings then
        some (state.advance me (.written ended)
          (.sending ended (state.consumers.filter (Process.Elsewhere me))))
      else none
  | .send me ended address rest =>
      if (me, .sending ended (address :: rest)) ∈ state.endings then
        some ((state.send setting address ended).advance me (.sending ended (address :: rest))
          (.sending ended rest))
      else none
  | .finish me ended =>
      if (me, .sending ended []) ∈ state.endings then
        some { state with endings := state.endings.erase (me, .sending ended []) }
      else none
  | .register address =>
      if address ≠ "" then
        some { state with
          consumers := state.consumers.insert address
          registrations := (address, .registered) :: state.registrations }
      else none
  | .check address =>
      if (address, .registered) ∈ state.registrations then
        match (state.redis setting.here).result with
        | some result =>
            some { state with
              registrations :=
                (address, .pushing result) :: state.registrations.erase (address, .registered) }
        | none =>
            some { state with registrations := state.registrations.erase (address, .registered) }
      else none
  | .push address result =>
      if (address, .pushing result) ∈ state.registrations then
        some { state.send setting address ⟨some result, false, ""⟩ with
          registrations := state.registrations.erase (address, .pushing result) }
      else none
  | .deliver address message =>
      if (address, message) ∈ state.inFlight then
        some { state.hset (setting.machine address) message with
          inFlight := state.inFlight.erase (address, message) }
      else none

def system : TransitionSystem State Action where
  step := step setting

/-! ### When nobody is left out -/

/-- The outcome is written and its fan-out has still to read the consumer set. -/
def EndStage.Unread : EndStage → Prop
  | .written _ => True
  | _ => False

instance : DecidablePred EndStage.Unread := fun stage =>
  match stage with
  | .written _ => isTrue trivial
  | .stored _ | .sending _ _ => isFalse id

/-- A consumer registers before the failure is written, or before its fan-out reads the set; and
it does not find a result beside the failure. -/
def RegistersInTime (state : State) : Action → Prop
  | .register _ =>
      (state.redis setting.here).failed = some true →
        ∃ ending ∈ state.endings, ending.2.Unread
  | .check _ =>
      (state.redis setting.here).failed = some true →
        (state.redis setting.here).result = none
  | _ => True

instance (state : State) : DecidablePred (RegistersInTime setting state) := fun action =>
  match action with
  | .register _ => inferInstanceAs (Decidable (_ → _))
  | .check _ => inferInstanceAs (Decidable (_ → _))
  | .store .. | .settle .. | .fail .. | .arrive .. | .read .. | .send .. | .finish .. | .push ..
  | .deliver .. => isTrue trivial

/-! ### The invariant -/

/-- What is sent says how the call ended. -/
def Ended.Carries (ended : Ended) : Outcome → Prop
  | .failed => ended.failed = true
  | .done serialized => ended.failed = false ∧ ended.result = some serialized

def EndStage.Carries (stage : EndStage) (outcome : Outcome) : Prop :=
  match stage with
  | .stored serialized => outcome = .done serialized
  | .written ended | .sending ended _ => ended.Carries outcome

/-- The ending has still to send to the address, or to read it from the set. -/
def EndStage.Reaches (stage : EndStage) (address : Address) : Prop :=
  match stage with
  | .stored _ | .written _ => True
  | .sending _ addresses => address ∈ addresses

/-- The consumer's Redis has the outcome, or somebody is about to send it there. -/
def Served (state : State) (address : Address) : Prop :=
  (state.redis (setting.machine address)).outcome = some setting.outcome ∨
    (∃ message, (address, message) ∈ state.inFlight) ∨
    (∃ ending ∈ state.endings, ending.2.Reaches address) ∨
    (setting.outcome ≠ .failed ∧ ∃ stage, (address, stage) ∈ state.registrations)

def Decided (state : State) : Prop :=
  (state.redis setting.here).outcome = some setting.outcome

structure Inv (state : State) : Prop where
  single : ∀ machine outcome,
    (state.redis machine).outcome = some outcome → outcome = setting.outcome
  named : ∀ address ∈ state.consumers, address ≠ ""
  endings : ∀ ending ∈ state.endings, setting.machine ending.1 = setting.here ∧
    ending.2.Carries setting.outcome ∧ Decided setting state
  pushing : ∀ address result, (address, .pushing result) ∈ state.registrations →
    setting.outcome = .done result ∧ Decided setting state
  inFlight : ∀ message ∈ state.inFlight, message.2.outcome = some setting.outcome ∧
    message.2.failed.isSome ∧ Decided setting state
  served : ∀ address ∈ state.consumers, Decided setting state → Served setting state address

variable {setting} {state next : State}

theorem Inv.failed_ne (hinv : Inv setting state) {serialized : String}
    (houtcome : setting.outcome = .done serialized) (machine : String) :
    (state.redis machine).failed ≠ some true := by
  intro hfailed
  have hsingle := hinv.single machine .failed (Record.outcome_of_failed hfailed)
  rw [houtcome] at hsingle
  cases hsingle

theorem resultMessage_outcome {ended : Ended} (hcarries : ended.Carries setting.outcome)
    (record : Record) :
    (resultMessage record setting.futureId ended.result ended.failed ended.errorMessage).outcome =
      some setting.outcome := by
  cases houtcome : setting.outcome with
  | failed =>
      rw [houtcome] at hcarries
      rw [show ended.failed = true from hcarries]
      exact resultMessage_outcome_failed _ _ _ _
  | done serialized =>
      rw [houtcome] at hcarries
      rw [hcarries.1, hcarries.2]
      exact resultMessage_outcome_done _ _ _ _

/-! ### Writes -/

theorem State.hset_redis_self (machine : String) (fields : Record) :
    (state.hset machine fields).redis machine = (state.redis machine).hsetMultiple fields :=
  Function.update_self _ _ _

theorem State.hset_redis_of_ne {machine other : String} (hne : other ≠ machine)
    (fields : Record) : (state.hset machine fields).redis other = state.redis other :=
  Function.update_of_ne hne _ _

/-- A write that records how the call ended takes nothing away. -/
theorem decided_hset {machine : String} {fields : Record}
    (hnew : ((state.redis machine).hsetMultiple fields).outcome = some setting.outcome)
    (hdecided : Decided setting state) : Decided setting (state.hset machine fields) := by
  unfold Decided
  by_cases hhere : setting.here = machine
  · subst hhere
    rw [State.hset_redis_self]
    exact hnew
  · rw [State.hset_redis_of_ne hhere]
    exact hdecided

theorem single_hset (hinv : Inv setting state) {machine : String} {fields : Record}
    (hnew : ((state.redis machine).hsetMultiple fields).outcome = some setting.outcome)
    (other : String) (outcome : Outcome)
    (houtcome : ((state.hset machine fields).redis other).outcome = some outcome) :
    outcome = setting.outcome := by
  by_cases hother : other = machine
  · subst hother
    rw [State.hset_redis_self, hnew] at houtcome
    exact (Option.some.inj houtcome).symm
  · rw [State.hset_redis_of_ne hother] at houtcome
    exact hinv.single other outcome houtcome

theorem served_hset {machine : String} {fields : Record} {address : Address}
    (hnew : ((state.redis machine).hsetMultiple fields).outcome = some setting.outcome)
    (hserved : Served setting state address) :
    Served setting (state.hset machine fields) address := by
  rcases hserved with hinformed | hrest
  · left
    by_cases hmachine : setting.machine address = machine
    · subst hmachine
      rw [State.hset_redis_self]
      exact hnew
    · rw [State.hset_redis_of_ne hmachine]
      exact hinformed
  · exact Or.inr hrest

/-- Once the call has ended, recording its outcome anywhere keeps the invariant. -/
theorem inv_hset (hinv : Inv setting state) {machine : String} {fields : Record}
    (hnew : ((state.redis machine).hsetMultiple fields).outcome = some setting.outcome)
    (hdecided : Decided setting state) : Inv setting (state.hset machine fields) where
  single := single_hset hinv hnew
  named := hinv.named
  endings ending hmem :=
    ⟨(hinv.endings ending hmem).1, (hinv.endings ending hmem).2.1, decided_hset hnew hdecided⟩
  pushing address result hmem :=
    ⟨(hinv.pushing address result hmem).1, decided_hset hnew hdecided⟩
  inFlight message hmem :=
    ⟨(hinv.inFlight message hmem).1, (hinv.inFlight message hmem).2.1, decided_hset hnew hdecided⟩
  served address hmem _ := served_hset hnew (hinv.served address hmem hdecided)

/-- The write that ends the call, followed by an ending that has everyone still to tell. -/
theorem inv_begin (hinv : Inv setting state) {me : Address} {fields : Record} {stage : EndStage}
    (hnew : ((state.redis setting.here).hsetMultiple fields).outcome = some setting.outcome)
    (hme : setting.machine me = setting.here) (hcarries : stage.Carries setting.outcome)
    (hreaches : ∀ address, stage.Reaches address) :
    Inv setting ((state.hset setting.here fields).begin me stage) := by
  have hdecided : Decided setting (state.hset setting.here fields) := by
    unfold Decided
    rw [State.hset_redis_self]
    exact hnew
  refine
    { single := single_hset hinv hnew
      named := hinv.named
      endings := ?_
      pushing := fun address result hmem => ⟨(hinv.pushing address result hmem).1, hdecided⟩
      inFlight := fun message hmem =>
        ⟨(hinv.inFlight message hmem).1, (hinv.inFlight message hmem).2.1, hdecided⟩
      served := ?_ }
  · intro ending hmem
    rcases List.mem_cons.mp hmem with rfl | hold
    · exact ⟨hme, hcarries, hdecided⟩
    · exact ⟨(hinv.endings ending hold).1, (hinv.endings ending hold).2.1, hdecided⟩
  · intro address _ _
    exact Or.inr (Or.inr (Or.inl ⟨(me, stage), List.mem_cons_self, hreaches address⟩))

/-! ### An ending moves on -/

theorem inv_advance (hinv : Inv setting state) {me : Address} {before after : EndStage}
    (hmem : (me, before) ∈ state.endings) (hcarries : after.Carries setting.outcome)
    (hreaches : ∀ address ∈ state.consumers, before.Reaches address →
      after.Reaches address ∨
        (state.redis (setting.machine address)).outcome = some setting.outcome ∨
        ∃ message, (address, message) ∈ state.inFlight) :
    Inv setting (state.advance me before after) := by
  refine
    { single := hinv.single
      named := hinv.named
      endings := ?_
      pushing := hinv.pushing
      inFlight := hinv.inFlight
      served := ?_ }
  · intro ending hending
    rcases List.mem_cons.mp hending with rfl | hold
    · exact ⟨(hinv.endings _ hmem).1, hcarries, (hinv.endings _ hmem).2.2⟩
    · exact hinv.endings ending (List.mem_of_mem_erase hold)
  · intro address haddress hdecided
    rcases hinv.served address haddress hdecided with
      hinformed | hflight | ⟨ending, hending, hreach⟩ | hlooking
    · exact Or.inl hinformed
    · exact Or.inr (Or.inl hflight)
    · by_cases heq : ending = (me, before)
      · subst heq
        rcases hreaches address haddress hreach with hafter | hinformed | hflight
        · exact Or.inr (Or.inr (Or.inl ⟨(me, after), List.mem_cons_self, hafter⟩))
        · exact Or.inl hinformed
        · exact Or.inr (Or.inl hflight)
      · refine Or.inr (Or.inr (Or.inl ⟨ending, List.mem_cons_of_mem _ ?_, hreach⟩))
        exact (List.mem_erase_of_ne heq).mpr hending
    · exact Or.inr (Or.inr (Or.inr hlooking))

/-- Sending the outcome to somebody keeps the invariant. -/
theorem inv_send (hinv : Inv setting state) {ended : Ended}
    (hcarries : ended.Carries setting.outcome) (hdecided : Decided setting state)
    (address : Address) : Inv setting (state.send setting address ended) := by
  refine
    { single := hinv.single
      named := hinv.named
      endings := hinv.endings
      pushing := hinv.pushing
      inFlight := ?_
      served := ?_ }
  · intro message hmem
    rcases List.mem_cons.mp hmem with rfl | hold
    · exact ⟨resultMessage_outcome hcarries _, rfl, hdecided⟩
    · exact hinv.inFlight message hold
  · intro other hother _
    rcases hinv.served other hother hdecided with hinformed | ⟨message, hflight⟩ | hrest
    · exact Or.inl hinformed
    · exact Or.inr (Or.inl ⟨message, List.mem_cons_of_mem _ hflight⟩)
    · exact Or.inr (Or.inr hrest)

/-- A consumer may stop looking once it is served some other way. -/
theorem inv_stopLooking (hinv : Inv setting state) {address : Address} {stage : RegisterStage}
    (hserved : Decided setting state →
      (state.redis (setting.machine address)).outcome = some setting.outcome ∨
        (∃ message, (address, message) ∈ state.inFlight) ∨
        (∃ ending ∈ state.endings, ending.2.Reaches address) ∨ setting.outcome = .failed) :
    Inv setting
      { state with registrations := state.registrations.erase (address, stage) } := by
  refine
    { single := hinv.single
      named := hinv.named
      endings := hinv.endings
      pushing := fun other result hmem =>
        hinv.pushing other result (List.mem_of_mem_erase hmem)
      inFlight := hinv.inFlight
      served := ?_ }
  intro other hother hdecided
  rcases hinv.served other hother hdecided with
    hinformed | hflight | hending | ⟨hdone, kept, hlooking⟩
  · exact Or.inl hinformed
  · exact Or.inr (Or.inl hflight)
  · exact Or.inr (Or.inr (Or.inl hending))
  · by_cases heq : (other, kept) = (address, stage)
    · cases heq
      rcases hserved hdecided with hinformed | hflight | hending | hfailed
      · exact Or.inl hinformed
      · exact Or.inr (Or.inl hflight)
      · exact Or.inr (Or.inr (Or.inl hending))
      · exact absurd hfailed hdone
    · refine Or.inr (Or.inr (Or.inr ⟨hdone, kept, ?_⟩))
      exact (List.mem_erase_of_ne heq).mpr hlooking

/-! ### One step -/

/-- Who is not in the list a fan-out reads shares the Redis it reads it from. -/
theorem mem_elsewhere_or_here (hinv : Inv setting state) {me address : Address}
    (hme : setting.machine me = setting.here) (hmem : address ∈ state.consumers) :
    address ∈ state.consumers.filter (Process.Elsewhere me) ∨
      setting.machine address = setting.here := by
  by_cases heq : address = me
  · exact Or.inr (heq ▸ hme)
  · refine Or.inl (List.mem_filter.mpr ⟨hmem, ?_⟩)
    exact decide_eq_true ⟨hinv.named address hmem, heq⟩

theorem inv_register (hinv : Inv setting state) {address : Address} (hname : address ≠ "")
    (hguard : RegistersInTime setting state (.register address)) :
    Inv setting { state with
      consumers := state.consumers.insert address
      registrations := (address, .registered) :: state.registrations } := by
  refine
    { single := hinv.single
      named := ?_
      endings := hinv.endings
      pushing := ?_
      inFlight := hinv.inFlight
      served := ?_ }
  · intro other hmem
    rcases List.mem_insert_iff.mp hmem with rfl | hold
    · exact hname
    · exact hinv.named other hold
  · intro other result hmem
    rcases List.mem_cons.mp hmem with heq | hold
    · cases heq
    · exact hinv.pushing other result hold
  · intro other hmem hdecided
    rcases List.mem_insert_iff.mp hmem with rfl | hold
    · by_cases hfailed : setting.outcome = .failed
      · have hrecord : (state.redis setting.here).failed = some true := by
          rw [← Record.outcome_eq_failed_iff, ← hfailed]
          exact hdecided
        obtain ⟨ending, hending, hunread⟩ := hguard hrecord
        refine Or.inr (Or.inr (Or.inl ⟨ending, hending, ?_⟩))
        cases hstage : ending.2 with
        | written ended => trivial
        | stored _ | sending _ _ => simp [hstage, EndStage.Unread] at hunread
      · exact Or.inr (Or.inr (Or.inr ⟨hfailed, .registered, List.mem_cons_self⟩))
    · rcases hinv.served other hold hdecided with
        hinformed | hflight | hending | ⟨hdone, stage, hlooking⟩
      · exact Or.inl hinformed
      · exact Or.inr (Or.inl hflight)
      · exact Or.inr (Or.inr (Or.inl hending))
      · exact Or.inr (Or.inr (Or.inr ⟨hdone, stage, List.mem_cons_of_mem _ hlooking⟩))

/-- A result found by a consumer that registered in time is how the call ended. -/
theorem outcome_of_result (hinv : Inv setting state) {address : Address} {result : String}
    (hguard : RegistersInTime setting state (.check address))
    (hresult : (state.redis setting.here).result = some result) :
    setting.outcome = .done result ∧ Decided setting state := by
  have hfailed : (state.redis setting.here).failed ≠ some true := by
    intro hfailed
    rw [hguard hfailed] at hresult
    cases hresult
  have houtcome := Record.outcome_of_result hfailed hresult
  have hsingle := hinv.single _ _ houtcome
  rw [hsingle] at houtcome
  exact ⟨hsingle.symm, houtcome⟩

theorem inv_check (hinv : Inv setting state) {address : Address}
    (hguard : RegistersInTime setting state (.check address))
    (hstep : step setting state (.check address) = some next) : Inv setting next := by
  simp only [step] at hstep
  split_ifs at hstep with hmem
  cases hresult : (state.redis setting.here).result with
  | none =>
      rw [hresult] at hstep
      cases hstep
      refine inv_stopLooking hinv fun hdecided => Or.inr (Or.inr (Or.inr ?_))
      cases houtcome : setting.outcome with
      | failed => rfl
      | done serialized =>
          unfold Decided at hdecided
          rw [houtcome, Record.outcome_eq_done_iff, hresult] at hdecided
          cases hdecided.2
  | some result =>
      rw [hresult] at hstep
      cases hstep
      obtain ⟨hdone, hdecided⟩ := outcome_of_result hinv hguard hresult
      refine
        { single := hinv.single
          named := hinv.named
          endings := hinv.endings
          pushing := ?_
          inFlight := hinv.inFlight
          served := ?_ }
      · intro other pushed hpushing
        rcases List.mem_cons.mp hpushing with heq | hold
        · cases heq
          exact ⟨hdone, hdecided⟩
        · exact hinv.pushing other pushed (List.mem_of_mem_erase hold)
      · intro other hother _
        rcases hinv.served other hother hdecided with
          hinformed | hflight | hending | ⟨hne, stage, hlooking⟩
        · exact Or.inl hinformed
        · exact Or.inr (Or.inl hflight)
        · exact Or.inr (Or.inr (Or.inl hending))
        · by_cases heq : (other, stage) = (address, .registered)
          · cases heq
            exact Or.inr (Or.inr (Or.inr ⟨hne, .pushing result, List.mem_cons_self⟩))
          · refine Or.inr (Or.inr (Or.inr ⟨hne, stage, List.mem_cons_of_mem _ ?_⟩))
            exact (List.mem_erase_of_ne heq).mpr hlooking

theorem inv_deliver (hinv : Inv setting state) {address : Address} {message : Record}
    (hmem : (address, message) ∈ state.inFlight) :
    Inv setting { state.hset (setting.machine address) message with
      inFlight := state.inFlight.erase (address, message) } := by
  obtain ⟨houtcome, hfailed, hdecided⟩ := hinv.inFlight _ hmem
  have hnew := Record.outcome_hsetMultiple houtcome hfailed
    (state.redis (setting.machine address))
  have hwritten := inv_hset hinv hnew hdecided
  refine
    { single := hwritten.single
      named := hwritten.named
      endings := hwritten.endings
      pushing := hwritten.pushing
      inFlight := fun other hother => hwritten.inFlight other (List.mem_of_mem_erase hother)
      served := ?_ }
  intro other hother hafter
  rcases hwritten.served other hother hafter with hinformed | ⟨sent, hflight⟩ | hrest
  · exact Or.inl hinformed
  · by_cases heq : (other, sent) = (address, message)
    · cases heq
      left
      change ((state.hset _ message).redis _).outcome = _
      rw [State.hset_redis_self]
      exact hnew
    · exact Or.inr (Or.inl ⟨sent, (List.mem_erase_of_ne heq).mpr hflight⟩)
  · exact Or.inr (Or.inr hrest)

theorem inv_step (action : Action) (hinv : Inv setting state)
    (hguard : RegistersInTime setting state action)
    (hstep : step setting state action = some next) : Inv setting next := by
  cases action with
  | store me serialized =>
      simp only [step] at hstep
      split_ifs at hstep with hstore
      cases hstep
      obtain ⟨hdone, hme⟩ := hstore
      refine inv_begin hinv ?_ hme hdone fun _ => trivial
      rw [hdone, Record.outcome_eq_done_iff]
      exact ⟨hinv.failed_ne hdone setting.here, rfl⟩
  | settle me serialized =>
      simp only [step] at hstep
      split_ifs at hstep with hmem
      cases hstep
      obtain ⟨-, hcarries, hdecided⟩ := hinv.endings _ hmem
      have hdone : setting.outcome = .done serialized := hcarries
      have hnew : ((state.redis setting.here).hsetMultiple { failed := some false }).outcome =
          some setting.outcome := by
        unfold Decided at hdecided
        rw [hdone, Record.outcome_eq_done_iff] at hdecided ⊢
        exact ⟨by simp, hdecided.2⟩
      refine inv_advance (inv_hset hinv hnew hdecided) hmem ?_ fun _ _ _ => Or.inl trivial
      rw [hdone]
      exact ⟨rfl, rfl⟩
  | fail me error errorName beforeStart =>
      simp only [step] at hstep
      split_ifs at hstep with hfail
      cases hstep
      obtain ⟨hfailed, hme⟩ := hfail
      refine inv_begin hinv ?_ hme ?_ fun _ => trivial
      · rw [hfailed]
        exact Record.outcome_of_failed rfl
      · rw [hfailed]
        exact rfl
  | arrive me data =>
      simp only [step] at hstep
      split_ifs at hstep with harrive
      cases hstep
      obtain ⟨houtcome, hme⟩ := harrive
      cases hend : setting.outcome with
      | failed =>
          rw [hend, Record.outcome_eq_failed_iff] at houtcome
          refine inv_begin hinv ?_ hme ?_ fun _ => trivial
          · rw [hend]
            exact Record.outcome_of_failed (by simp [houtcome])
          · rw [hend]
            simp [EndStage.Carries, Ended.Carries, endedWith, houtcome]
      | done serialized =>
          rw [hend, Record.outcome_eq_done_iff] at houtcome
          have hrecord := hinv.failed_ne hend setting.here
          refine inv_begin hinv ?_ hme ?_ fun _ => trivial
          · rw [hend, Record.outcome_eq_done_iff]
            refine ⟨?_, by simp [houtcome.2]⟩
            cases hfield : data.failed with
            | none => simpa [hfield] using hrecord
            | some failed => simpa [hfield] using houtcome.1
          · rw [hend]
            refine ⟨?_, houtcome.2⟩
            cases hfield : data.failed with
            | none => simp [endedWith, hfield]
            | some failed => simpa [endedWith, hfield] using houtcome.1
  | read me ended =>
      simp only [step] at hstep
      split_ifs at hstep with hmem
      cases hstep
      obtain ⟨hme, hcarries, hdecided⟩ := hinv.endings _ hmem
      refine inv_advance hinv hmem hcarries fun address haddress _ => ?_
      rcases mem_elsewhere_or_here hinv hme haddress with hlisted | hhere
      · exact Or.inl hlisted
      · exact Or.inr (Or.inl (hhere ▸ hdecided))
  | send me ended address rest =>
      simp only [step] at hstep
      split_ifs at hstep with hmem
      cases hstep
      obtain ⟨-, hcarries, hdecided⟩ := hinv.endings _ hmem
      refine inv_advance (inv_send hinv hcarries hdecided address) hmem hcarries ?_
      intro other _ hreaches
      rcases List.mem_cons.mp hreaches with rfl | hrest
      · exact Or.inr (Or.inr ⟨_, List.mem_cons_self⟩)
      · exact Or.inl hrest
  | finish me ended =>
      simp only [step] at hstep
      split_ifs at hstep with hmem
      cases hstep
      refine
        { single := hinv.single
          named := hinv.named
          endings := fun ending hending => hinv.endings ending (List.mem_of_mem_erase hending)
          pushing := hinv.pushing
          inFlight := hinv.inFlight
          served := ?_ }
      intro address haddress hdecided
      rcases hinv.served address haddress hdecided with
        hinformed | hflight | ⟨ending, hending, hreach⟩ | hlooking
      · exact Or.inl hinformed
      · exact Or.inr (Or.inl hflight)
      · have hne : ending ≠ (me, .sending ended []) := by
          rintro rfl
          cases hreach
        exact Or.inr (Or.inr (Or.inl ⟨ending, (List.mem_erase_of_ne hne).mpr hending, hreach⟩))
      · exact Or.inr (Or.inr (Or.inr hlooking))
  | register address =>
      simp only [step] at hstep
      split_ifs at hstep with hname
      cases hstep
      exact inv_register hinv hname hguard
  | check address => exact inv_check hinv hguard hstep
  | push address result =>
      simp only [step] at hstep
      split_ifs at hstep with hmem
      cases hstep
      obtain ⟨hdone, hdecided⟩ := hinv.pushing address result hmem
      have hcarries : Ended.Carries ⟨some result, false, ""⟩ setting.outcome := by
        rw [hdone]
        exact ⟨rfl, rfl⟩
      exact inv_stopLooking (inv_send hinv hcarries hdecided address) fun _ =>
        Or.inr (Or.inl ⟨_, List.mem_cons_self⟩)
  | deliver address message =>
      simp only [step] at hstep
      split_ifs at hstep with hmem
      cases hstep
      exact inv_deliver hinv hmem

/-! ### Whole runs -/

/-- Before the call ends no machine has an outcome for it. -/
def initial (records : String → Record) : State :=
  { redis := records }

theorem inv_initial {records : String → Record}
    (hrecords : ∀ machine, ¬ (records machine).Terminal) : Inv setting (initial records) where
  single machine outcome houtcome := absurd (Record.terminal_of_outcome houtcome) (hrecords machine)
  named _ hmem := by cases hmem
  endings _ hmem := by cases hmem
  pushing _ _ hmem := by cases hmem
  inFlight _ hmem := by cases hmem
  served _ hmem := by cases hmem

/-- When nothing is left to do after the call ended, every registered consumer's Redis has its
outcome. -/
theorem consumers_informed {records : String → Record}
    (hrecords : ∀ machine, ¬ (records machine).Terminal) {actions : List Action}
    (hguard : (system setting).Guarded (RegistersInTime setting) (initial records) actions)
    (hrun : (system setting).run (initial records) actions = some state)
    (hended : (state.redis setting.here).Terminal) (hendings : state.endings = [])
    (hregistrations : state.registrations = []) (hinFlight : state.inFlight = []) :
    (state.redis setting.here).outcome = some setting.outcome ∧
      ∀ address ∈ state.consumers,
        (state.redis (setting.machine address)).outcome = some setting.outcome := by
  have hinv : Inv setting state :=
    (system setting).invariant_run (fun _ action _ hinv hguard hstep =>
      inv_step action hinv hguard hstep) (inv_initial hrecords) hguard hrun
  have hdecided : Decided setting state := by
    obtain ⟨outcome, houtcome⟩ :=
      Option.isSome_iff_exists.mp (Record.terminal_iff_outcome.mp hended)
    unfold Decided
    rw [houtcome, hinv.single _ _ houtcome]
  refine ⟨hdecided, fun address haddress => ?_⟩
  rcases hinv.served address haddress hdecided with
    hinformed | ⟨message, hflight⟩ | ⟨ending, hending, -⟩ | ⟨-, stage, hlooking⟩
  · exact hinformed
  · rw [hinFlight] at hflight
    cases hflight
  · rw [hendings] at hending
    cases hending
  · rw [hregistrations] at hlooking
    cases hlooking

/-! ### A failed call and a consumer on another machine -/

def failedCall : Setting where
  futureId := "f"
  outcome := .failed
  machine address := if address = "consumer:1" then "other" else "origin"
  here := "origin"

/-- What the consumer of a failed call is sent. -/
def failureTold : Record :=
  { futureId := some "f", failed := some true, error := some "boom" }

def registersAfterFanOut : List Action :=
  [.fail "producer:1" (.message "boom") none none, .read "producer:1" ⟨none, true, "boom"⟩,
    .finish "producer:1" ⟨none, true, "boom"⟩, .register "consumer:1", .check "consumer:1"]

def registersBeforeFanOut : List Action :=
  [.fail "producer:1" (.message "boom") none none, .register "consumer:1",
    .read "producer:1" ⟨none, true, "boom"⟩, .check "consumer:1",
    .send "producer:1" ⟨none, true, "boom"⟩ "consumer:1" [],
    .finish "producer:1" ⟨none, true, "boom"⟩, .deliver "consumer:1" failureTold]

/-- Registered after the failure was fanned out, a consumer looks for a result, finds none, and is
never told. -/
theorem late_consumer_not_told :
    ∃ final, (system failedCall).run {} registersAfterFanOut = some final ∧
      (final.redis "origin").outcome = some .failed ∧ "consumer:1" ∈ final.consumers ∧
      final.endings = [] ∧ final.registrations = [] ∧ final.inFlight = [] ∧
      ¬ (final.redis "other").Terminal :=
  ⟨_, rfl, by decide, by decide, rfl, rfl, rfl, by decide⟩

theorem consumers_informed_in_time :
    ∃ final, (system failedCall).run {} registersBeforeFanOut = some final ∧
      (final.redis "origin").outcome = some .failed ∧
      ∀ address ∈ final.consumers, (final.redis (failedCall.machine address)).outcome =
        some failedCall.outcome :=
  ⟨_, rfl, consumers_informed (fun _ => by decide)
    (show (system failedCall).Guarded (RegistersInTime failedCall) (initial fun _ => {})
      registersBeforeFanOut by decide) rfl (by decide) rfl rfl rfl⟩

end CanyonOS.FanOut
