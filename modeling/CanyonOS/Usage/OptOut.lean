import Mathlib
import CanyonOS.Lib.TransitionSystem
import CanyonOS.Usage.Delivery

/-!
# Opting out of usage reporting

Runs of the CLI that record events, turn reporting off and on and deliver, on one home directory.
Each read or change of a file is a step of its own. Files that no run wrote are left out.
-/

namespace CanyonOS.Usage.OptOut

variable {RunId Id EventId : Type*}

/-- `MAX_PENDING_EVENTS` -/
def maxPendingEvents : ℕ := 1000

/-- What `settings.json` says. -/
inductive Settings (Id : Type*) where
  | on (installationId : Id)
  | off
deriving DecidableEq

/-- A file of the outbox, and how many opt-outs had completed when the run that wrote it began. -/
structure Event (Id EventId : Type*) where
  eventId : EventId
  installationId : Id
  began : ℕ
deriving DecidableEq

/-- A directory entry of the outbox. -/
inductive Entry (RunId EventId : Type*) where
  | event (eventId : EventId)
  | temporary (run : RunId)
deriving DecidableEq

/-- Where `record_event` stands. -/
inductive Recording (Id EventId : Type*) where
  | loads
  /-- for `settings.lock` -/
  | waits
  | reloads
  /-- `set_usage_reporting(True)`, behind the notice -/
  | starts
  | saves (installationId : Id)
  | makesRoom (installationId : Id)
  | creates (installationId : Id)
  | replaces (installationId : Id) (eventId : EventId)

/-- Where `set_usage_reporting(False)` stands, and the id it has replaced. -/
inductive OptingOut (RunId Id EventId : Type*) where
  | saves
  | lists (forgets : Option Id)
  | deletes (forgets : Option Id) (entries : List (Entry RunId EventId))

/-- Where `set_usage_reporting(True)` stands. -/
inductive OptingIn (Id : Type*) where
  | loads
  | saves (installationId : Id)

/-- Where `deliver_pending_events` stands; each event of the batch with the number of opt-outs
completed when it was read. -/
inductive Delivering (Id EventId : Type*) where
  | locks
  | sweeps
  | checks
  | scans
  | reads (names : List EventId) (batch : List (Event Id EventId × ℕ))
  | posts (batch : List (Event Id EventId × ℕ))
  | unlinks (names : List EventId)

inductive Run (RunId Id EventId : Type*) where
  | idle
  | recording (began : ℕ) (step : Recording Id EventId)
  | optingOut (step : OptingOut RunId Id EventId)
  | optingIn (step : OptingIn Id)
  | delivering (step : Delivering Id EventId)
  | ended

namespace Run

variable (run : Run RunId Id EventId)

def began : Option ℕ :=
  match run with
  | .recording began _ => some began
  | _ => none

/-- Whether an opt-out has listed the outbox. -/
def purging : Bool :=
  match run with
  | .optingOut (.deletes _ _) => true
  | _ => false

def batch : List (Event Id EventId × ℕ) :=
  match run with
  | .delivering (.reads _ batch) | .delivering (.posts batch) => batch
  | _ => []

/-- The id an opt-out has replaced. -/
def forgets : Option Id :=
  match run with
  | .optingOut (.lists forgets) | .optingOut (.deletes forgets _) => forgets
  | _ => none

/-- A new id that is not saved yet. -/
def saving : Option Id :=
  match run with
  | .recording _ (.saves installationId) | .optingIn (.saves installationId) => some installationId
  | _ => none

/-- The id that the event of the run will carry. -/
def holding : Option Id :=
  match run with
  | .recording _ (.makesRoom installationId) | .recording _ (.creates installationId)
  | .recording _ (.replaces installationId _) => some installationId
  | _ => none

end Run

structure State (RunId Id EventId : Type*) where
  settings : Option (Settings Id)
  /-- oldest first -/
  outbox : List (Event Id EventId)
  /-- of the runs between `mkstemp` and `os.replace` -/
  temporaries : List RunId
  settingsLock : Option RunId
  deliveryLock : Option RunId
  runs : RunId → Run RunId Id EventId
  /-- how many opt-outs have completed, and the ids they forgot -/
  optOuts : ℕ
  forgotten : List Id
  /-- every id ever drawn -/
  drawn : List Id

inductive Command
  | record
  | optOut
  | optIn
  | deliver

inductive Action (RunId Id EventId : Type*) where
  | begins (run : RunId) (command : Command)
  /-- `newId` is what the run would draw -/
  | loads (run : RunId) (newId : Id)
  | locks (run : RunId)
  | saves (run : RunId)
  | makesRoom (run : RunId)
  | creates (run : RunId) (eventId : EventId)
  | replaces (run : RunId)
  | lists (run : RunId)
  | deletes (run : RunId)
  | completes (run : RunId)
  | sweeps (run : RunId) (stale : List RunId)
  | checks (run : RunId)
  | scans (run : RunId)
  | reads (run : RunId)
  | posts (run : RunId) (stored : Bool)
  | unlinks (run : RunId)
  /-- an error or a kill -/
  | stops (run : RunId) (cleans : Bool)

section Step

variable [DecidableEq RunId] [DecidableEq Id] [DecidableEq EventId]

namespace State

variable (state : State RunId Id EventId) (run : RunId)

def set (next : Run RunId Id EventId) : State RunId Id EventId :=
  { state with runs := Function.update state.runs run next }

/-- A run that ends, or leaves its `with`, gives back its locks. -/
def release : State RunId Id EventId :=
  { state with
    settingsLock := if state.settingsLock = some run then none else state.settingsLock
    deliveryLock := if state.deliveryLock = some run then none else state.deliveryLock }

def draw (newId : Id) : State RunId Id EventId :=
  { state with drawn := newId :: state.drawn }

def unlink (eventId : EventId) : State RunId Id EventId :=
  { state with outbox := state.outbox.filter fun event => event.eventId ≠ eventId }

omit [DecidableEq Id] [DecidableEq EventId] in
@[simp]
theorem set_runs (next : Run RunId Id EventId) :
    (state.set run next).runs = Function.update state.runs run next := rfl

def remove : Entry RunId EventId → State RunId Id EventId
  | .event eventId => state.unlink eventId
  | .temporary run =>
      { state with temporaries := state.temporaries.filter fun other => other ≠ run }

/-- `os.replace` -/
def place (event : Event Id EventId) : State RunId Id EventId :=
  { state with
    outbox := (state.outbox.filter fun other => other.eventId ≠ event.eventId) ++ [event]
    temporaries := state.temporaries.filter fun other => other ≠ run }

end State

variable (state : State RunId Id EventId) (run : RunId)

/-- A read of the settings. -/
def loadStep (newId : Id) : Option (State RunId Id EventId) :=
  match state.runs run, state.settings with
  | .recording began .loads, none => some (state.set run (.recording began .waits))
  | .recording _ .loads, some .off => some (state.set run .ended)
  | .recording began .loads, some (.on installationId) =>
      some (state.set run (.recording began (.makesRoom installationId)))
  | .recording began .reloads, none => some (state.set run (.recording began .starts))
  | .recording _ .reloads, some .off => some ((state.release run).set run .ended)
  | .recording began .reloads, some (.on installationId)
  | .recording began .starts, some (.on installationId) =>
      some ((state.release run).set run (.recording began (.makesRoom installationId)))
  | .recording began .starts, _ =>
      if newId ∈ state.drawn then none
      else some ((state.draw newId).set run (.recording began (.saves newId)))
  | .optingIn .loads, some (.on _) => some (state.set run .ended)
  | .optingIn .loads, _ =>
      if newId ∈ state.drawn then none
      else some ((state.draw newId).set run (.optingIn (.saves newId)))
  | _, _ => none

def lockStep : Option (State RunId Id EventId) :=
  match state.runs run with
  | .recording began .waits =>
      if state.settingsLock = none then
        some ({ state with settingsLock := some run }.set run (.recording began .reloads))
      else none
  | .delivering .locks =>
      if state.deliveryLock = none then
        some ({ state with deliveryLock := some run }.set run (.delivering .sweeps))
      else some (state.set run .ended)
  | _ => none

/-- `_save_settings` -/
def saveStep : Option (State RunId Id EventId) :=
  match state.runs run with
  | .recording began (.saves installationId) =>
      some (({ state with settings := some (.on installationId) }.release run).set run
        (.recording began (.makesRoom installationId)))
  | .optingIn (.saves installationId) =>
      some ({ state with settings := some (.on installationId) }.set run .ended)
  | .optingOut .saves =>
      let forgets := match state.settings with
        | some (.on installationId) => some installationId
        | _ => none
      some ({ state with settings := some .off }.set run (.optingOut (.lists forgets)))
  | _ => none

/-- One file of a batch, or the end of it. -/
def readStep : Option (State RunId Id EventId) :=
  match state.runs run with
  | .delivering (.reads [] []) => some ((state.release run).set run .ended)
  | .delivering (.reads [] batch) => some (state.set run (.delivering (.posts batch)))
  | .delivering (.reads (name :: names) batch) =>
      match state.outbox.find? fun event => event.eventId = name with
      | none => some (state.set run (.delivering (.reads names batch)))
      | some event =>
          let batch := batch ++ [(event, state.optOuts)]
          if batch.length = maxEventsPerRequest then
            some (state.set run (.delivering (.posts batch)))
          else some (state.set run (.delivering (.reads names batch)))
  | _ => none

def step (state : State RunId Id EventId) :
    Action RunId Id EventId → Option (State RunId Id EventId)
  | .begins run command =>
      match state.runs run with
      | .idle =>
          some (state.set run (match command with
            | .record => .recording state.optOuts .loads
            | .optOut => .optingOut .saves
            | .optIn => .optingIn .loads
            | .deliver => .delivering .locks))
      | _ => none
  | .loads run newId => loadStep state run newId
  | .locks run => lockStep state run
  | .saves run => saveStep state run
  | .makesRoom run =>
      match state.runs run with
      | .recording began (.makesRoom installationId) =>
          some ({ state with
            outbox := state.outbox.drop (state.outbox.length + 1 - maxPendingEvents) }.set run
              (.recording began (.creates installationId)))
      | _ => none
  | .creates run eventId =>
      match state.runs run with
      | .recording began (.creates installationId) =>
          some ({ state with temporaries := run :: state.temporaries }.set run
            (.recording began (.replaces installationId eventId)))
      | _ => none
  | .replaces run =>
      match state.runs run with
      | .recording began (.replaces installationId eventId) =>
          if run ∈ state.temporaries then
            some ((state.place run { eventId, installationId, began }).set run .ended)
          else none
      | _ => none
  | .lists run =>
      match state.runs run with
      | .optingOut (.lists forgets) =>
          some (state.set run (.optingOut (.deletes forgets
            (state.outbox.map (fun event => .event event.eventId) ++
              state.temporaries.map .temporary))))
      | _ => none
  | .deletes run =>
      match state.runs run with
      | .optingOut (.deletes forgets (entry :: entries)) =>
          some ((state.remove entry).set run (.optingOut (.deletes forgets entries)))
      | _ => none
  | .completes run =>
      match state.runs run with
      | .optingOut (.deletes forgets []) =>
          some ({ state with
            optOuts := state.optOuts + 1
            forgotten := forgets.toList ++ state.forgotten }.set run .ended)
      | _ => none
  | .sweeps run stale =>
      match state.runs run with
      | .delivering .sweeps =>
          some ({ state with
            temporaries := state.temporaries.filter fun other => other ∉ stale }.set run
              (.delivering .checks))
      | _ => none
  | .checks run =>
      match state.runs run, state.settings with
      | .delivering .checks, some (.on _) => some (state.set run (.delivering .scans))
      | .delivering .checks, _ => some ((state.release run).set run .ended)
      | _, _ => none
  | .scans run =>
      match state.runs run with
      | .delivering .scans =>
          some (state.set run (.delivering (.reads (state.outbox.map Event.eventId) [])))
      | _ => none
  | .reads run => readStep state run
  | .posts run stored =>
      match state.runs run with
      | .delivering (.posts batch) =>
          if stored then
            some (state.set run (.delivering (.unlinks (batch.map fun item => item.1.eventId))))
          else some ((state.release run).set run .ended)
      | _ => none
  | .unlinks run =>
      match state.runs run with
      | .delivering (.unlinks []) => some (state.set run (.delivering .checks))
      | .delivering (.unlinks (name :: names)) =>
          some ((state.unlink name).set run (.delivering (.unlinks names)))
      | _ => none
  | .stops run cleans =>
      some (((if cleans then state.remove (.temporary run) else state).release run).set run .ended)

/-- A home directory nothing was recorded in. -/
def initial (settings : Option (Settings Id)) : State RunId Id EventId where
  settings := settings
  outbox := []
  temporaries := []
  settingsLock := none
  deliveryLock := none
  runs _ := .idle
  optOuts := 0
  forgotten := []
  drawn := match settings with
    | some (.on installationId) => [installationId]
    | _ => []

def system (RunId Id EventId : Type*) [DecidableEq RunId] [DecidableEq Id]
    [DecidableEq EventId] :
    TransitionSystem (State RunId Id EventId) (Action RunId Id EventId) where
  step := step

end Step

/-- What is sent was recorded by runs that began after every opt-out so far, and no event carries an
id that one of these forgot. -/
def Final (state : State RunId Id EventId) (action : Action RunId Id EventId)
    (next : State RunId Id EventId) : Prop :=
  (match action with
    | .posts run _ => ∀ item ∈ (state.runs run).batch,
        state.optOuts ≤ item.1.began ∧ item.1.installationId ∉ state.forgotten
    | _ => True) ∧
    ∀ event ∈ next.outbox, event.installationId ∉ next.forgotten

/-- An event file is written before any opt-out that the run has not outlived lists the outbox, and
a batch is posted before an opt-out completes that its events were not read after. -/
def InTime (state : State RunId Id EventId) : Action RunId Id EventId → Prop
  | .replaces run =>
      (state.runs run).began = some state.optOuts ∧ ∀ other, (state.runs other).purging = false
  | .posts run _ => ∀ item ∈ (state.runs run).batch, item.2 = state.optOuts
  | _ => True

instance [Fintype RunId] (state : State RunId Id EventId) :
    (action : Action RunId Id EventId) → Decidable (InTime state action)
  | .replaces _ => inferInstanceAs (Decidable (_ ∧ ∀ other, (state.runs other).purging = false))
  | .posts run _ => inferInstanceAs (Decidable (∀ item ∈ (state.runs run).batch, _ = _))
  | .begins _ _ | .loads _ _ | .locks _ | .saves _ | .makesRoom _ | .creates _ _ | .lists _
  | .deletes _ | .completes _ | .sweeps _ _ | .checks _ | .scans _ | .reads _ | .unlinks _
  | .stops _ _ => inferInstanceAs (Decidable True)

instance [DecidableEq Id] (state : State RunId Id EventId) (next : State RunId Id EventId) :
    (action : Action RunId Id EventId) → Decidable (Final state action next)
  | .posts run _ => inferInstanceAs (Decidable ((∀ item ∈ (state.runs run).batch, _ ∧ _) ∧ _))
  | .begins _ _ | .loads _ _ | .locks _ | .saves _ | .makesRoom _ | .creates _ _ | .replaces _
  | .lists _ | .deletes _ | .completes _ | .sweeps _ _ | .checks _ | .scans _ | .reads _
  | .unlinks _ | .stops _ _ => inferInstanceAs (Decidable (True ∧ _))

/-! ### What holds while every step is in time -/

/-- What a run may be, where it was `old` and the rest is as given. -/
structure Fits (outbox : List (Event Id EventId)) (optOuts : ℕ) (forgotten : List Id)
    (old next : Run RunId Id EventId) : Prop where
  purging : ∀ forgets entries, next = .optingOut (.deletes forgets entries) →
    ∀ event ∈ outbox, .event event.eventId ∈ entries
  began : ∀ began, next.began = some began → began ≤ optOuts
  holding : ∀ installationId, next.holding = some installationId →
    next.began = some optOuts → installationId ∉ forgotten
  batch : ∀ item ∈ next.batch, item.2 ≤ optOuts ∧ item.1.began = item.2 ∧
    (item.2 = optOuts → item.1.installationId ∉ forgotten)
  forgets : ∀ installationId, next.forgets = some installationId →
    old.forgets = some installationId
  saving : ∀ installationId, next.saving = some installationId →
    old.saving = some installationId

/-- The id is forgotten, or an opt-out has replaced it. -/
def Retired (state : State RunId Id EventId) (installationId : Id) : Prop :=
  installationId ∈ state.forgotten ∨ ∃ run, (state.runs run).forgets = some installationId

structure Sound (state : State RunId Id EventId) : Prop where
  outbox : ∀ event ∈ state.outbox,
    event.began = state.optOuts ∧ event.installationId ∉ state.forgotten
  runs : ∀ run, Fits state.outbox state.optOuts state.forgotten (state.runs run) (state.runs run)
  retired : ∀ installationId, Retired state installationId → installationId ∈ state.drawn
  settings : ∀ installationId, state.settings = some (.on installationId) →
    installationId ∈ state.drawn ∧ ¬ Retired state installationId
  saving : ∀ run installationId, (state.runs run).saving = some installationId →
    installationId ∈ state.drawn ∧ ¬ Retired state installationId ∧
      state.settings ≠ some (.on installationId) ∧
      ∀ other, (state.runs other).saving = some installationId → other = run

section Fits

variable {outbox fewer : List (Event Id EventId)} {optOuts : ℕ} {forgotten : List Id}
  {old middle next : Run RunId Id EventId}

theorem Fits.of_subset (hfits : Fits outbox optOuts forgotten old next) (hsubset : fewer ⊆ outbox) :
    Fits fewer optOuts forgotten old next :=
  { hfits with
    purging := fun forgets entries heq event hevent =>
      hfits.purging forgets entries heq event (hsubset hevent) }

theorem Fits.of_old (hfits : Fits outbox optOuts forgotten old next) :
    Fits outbox optOuts forgotten next next :=
  { hfits with
    forgets := fun _ heq => heq
    saving := fun _ heq => heq }

theorem fits_ended : Fits outbox optOuts forgotten old .ended where
  purging := by intro _ _ heq; cases heq
  began := by intro _ heq; cases heq
  holding := by intro _ heq; cases heq
  batch := by intro _ hmem; cases hmem
  forgets := by intro _ heq; cases heq
  saving := by intro _ heq; cases heq

/-- A step of `record_event` that holds no id and draws none. -/
theorem fits_recording {began : ℕ} {step : Recording Id EventId} (hbegan : began ≤ optOuts)
    (hholding : ∀ installationId, (Run.recording began step : Run RunId Id EventId).holding =
      some installationId → began = optOuts → installationId ∉ forgotten)
    (hsaving : (Run.recording began step : Run RunId Id EventId).saving = none) :
    Fits outbox optOuts forgotten old (.recording began step) where
  purging := by intro _ _ heq; cases heq
  began := by
    intro other heq
    cases heq
    exact hbegan
  holding := by
    intro installationId heq hbegan
    exact hholding installationId heq (Option.some_inj.mp hbegan)
  batch := by intro _ hmem; cases hmem
  forgets := by intro _ heq; cases heq
  saving := by
    intro _ heq
    rw [hsaving] at heq
    cases heq

theorem fits_delivering {step : Delivering Id EventId}
    (hbatch : ∀ item ∈ (Run.delivering step : Run RunId Id EventId).batch,
      item.2 ≤ optOuts ∧ item.1.began = item.2 ∧
        (item.2 = optOuts → item.1.installationId ∉ forgotten)) :
    Fits outbox optOuts forgotten old (.delivering step) where
  purging := by intro _ _ heq; cases heq
  began := by intro _ heq; cases heq
  holding := by intro _ heq; cases heq
  batch := hbatch
  forgets := by intro _ heq; cases heq
  saving := by intro _ heq; cases heq

end Fits

section Sound

variable [DecidableEq RunId]
variable {state next : State RunId Id EventId} {run : RunId}

/-- All but the locks, the temporary files and one run is as before. -/
structure Moves (state : State RunId Id EventId) (run : RunId)
    (after : Run RunId Id EventId) (next : State RunId Id EventId) : Prop where
  settings : next.settings = state.settings
  outbox : next.outbox ⊆ state.outbox
  runs : next.runs = Function.update state.runs run after
  optOuts : next.optOuts = state.optOuts
  forgotten : next.forgotten = state.forgotten
  drawn : next.drawn = state.drawn

theorem retired_of_moves {after : Run RunId Id EventId} (hmoves : Moves state run after next)
    (hfits : Fits next.outbox state.optOuts state.forgotten (state.runs run) after)
    {installationId : Id} (hretired : Retired next installationId) :
    Retired state installationId := by
  obtain hforgotten | ⟨other, hforgets⟩ := hretired
  · rw [hmoves.forgotten] at hforgotten
    exact Or.inl hforgotten
  · rw [hmoves.runs] at hforgets
    by_cases heq : other = run
    · rw [heq, Function.update_self] at hforgets
      exact Or.inr ⟨run, hfits.forgets installationId hforgets⟩
    · rw [Function.update_of_ne heq] at hforgets
      exact Or.inr ⟨other, hforgets⟩

theorem saving_of_moves {after : Run RunId Id EventId} (hmoves : Moves state run after next)
    (hfits : Fits next.outbox state.optOuts state.forgotten (state.runs run) after)
    {other : RunId} {installationId : Id}
    (hsaving : (next.runs other).saving = some installationId) :
    (state.runs other).saving = some installationId := by
  rw [hmoves.runs] at hsaving
  by_cases heq : other = run
  · rw [heq, Function.update_self] at hsaving
    rw [heq]
    exact hfits.saving installationId hsaving
  · rw [Function.update_of_ne heq] at hsaving
    exact hsaving

/-- Most steps of a run move it alone, and take files away at most. -/
theorem sound_of_moves (hsound : Sound state) {after : Run RunId Id EventId}
    (hmoves : Moves state run after next)
    (hfits : Fits next.outbox state.optOuts state.forgotten (state.runs run) after) :
    Sound next := by
  have hretired : ∀ {installationId}, Retired next installationId →
      Retired state installationId := retired_of_moves hmoves hfits
  refine ⟨?_, ?_, ?_, ?_, ?_⟩
  · intro event hevent
    rw [hmoves.optOuts, hmoves.forgotten]
    exact hsound.outbox event (hmoves.outbox hevent)
  · intro other
    rw [hmoves.optOuts, hmoves.forgotten, hmoves.runs]
    by_cases heq : other = run
    · rw [heq, Function.update_self]
      exact hfits.of_old
    · rw [Function.update_of_ne heq]
      exact (hsound.runs other).of_subset hmoves.outbox
  · intro installationId hnext
    rw [hmoves.drawn]
    exact hsound.retired installationId (hretired hnext)
  · intro installationId hsettings
    rw [hmoves.settings] at hsettings
    obtain ⟨hdrawn, hnot⟩ := hsound.settings installationId hsettings
    rw [hmoves.drawn]
    exact ⟨hdrawn, fun hnext => hnot (hretired hnext)⟩
  · intro other installationId hsaving
    obtain ⟨hdrawn, hnot, hsettings, honly⟩ :=
      hsound.saving other installationId (saving_of_moves hmoves hfits hsaving)
    rw [hmoves.drawn, hmoves.settings]
    refine ⟨hdrawn, fun hnext => hnot (hretired hnext), hsettings, ?_⟩
    intro third hthird
    exact honly third (saving_of_moves hmoves hfits hthird)

/-- A run draws an id that nobody has drawn before. -/
theorem sound_draw (hsound : Sound state) {newId : Id} (hfresh : newId ∉ state.drawn)
    {after : Run RunId Id EventId}
    (hbegan : ∀ began, after.began = some began → began ≤ state.optOuts)
    (hsaving : after.saving = some newId) : Sound ((state.draw newId).set run after) := by
  -- a run that is saving an id does nothing else
  have hforgets : after.forgets = none := by
    cases after with
    | optingOut step => cases hsaving
    | _ => rfl
  have hholding : after.holding = none := by
    cases after with
    | recording began step => cases step <;> first | rfl | cases hsaving
    | _ => rfl
  have hbatch : after.batch = [] := by
    cases after with
    | delivering step => cases hsaving
    | _ => rfl
  have hnotRetired : ∀ {installationId}, Retired ((state.draw newId).set run after)
      installationId → Retired state installationId := by
    rintro installationId (hforgotten | ⟨other, hother⟩)
    · exact Or.inl hforgotten
    · by_cases heq : other = run
      · rw [State.set_runs, heq, Function.update_self, hforgets] at hother
        cases hother
      · rw [State.set_runs, Function.update_of_ne heq] at hother
        exact Or.inr ⟨other, hother⟩
  have hnew : ¬ Retired ((state.draw newId).set run after) newId := by
    intro hretired
    exact hfresh (hsound.retired newId (hnotRetired hretired))
  have hothers : ∀ {other installationId}, other ≠ run →
      (((state.draw newId).set run after).runs other).saving = some installationId →
      (state.runs other).saving = some installationId := by
    intro other installationId hne hother
    rw [State.set_runs, Function.update_of_ne hne] at hother
    exact hother
  refine ⟨hsound.outbox, ?_, ?_, ?_, ?_⟩
  · intro other
    by_cases heq : other = run
    · rw [State.set_runs, heq, Function.update_self]
      refine ⟨?_, hbegan, ?_, ?_, fun _ hsame => hsame, fun _ hsame => hsame⟩
      · rintro forgets entries rfl
        cases hsaving
      · intro installationId hheld
        rw [hholding] at hheld
        cases hheld
      · intro item hitem
        rw [hbatch] at hitem
        cases hitem
    · rw [State.set_runs, Function.update_of_ne heq]
      exact hsound.runs other
  · intro installationId hretired
    exact List.mem_cons_of_mem _ (hsound.retired installationId (hnotRetired hretired))
  · intro installationId hsettings
    obtain ⟨hdrawn, hnot⟩ := hsound.settings installationId hsettings
    exact ⟨List.mem_cons_of_mem _ hdrawn, fun hretired => hnot (hnotRetired hretired)⟩
  · intro other installationId hother
    by_cases heq : other = run
    · have hsame : newId = installationId := by
        rw [State.set_runs, heq, Function.update_self, hsaving] at hother
        exact Option.some_inj.mp hother
      subst hsame
      refine ⟨List.mem_cons_self, hnew, ?_, ?_⟩
      · intro hsettings
        exact hfresh (hsound.settings newId hsettings).1
      · intro third hthird
        by_contra hne
        exact hfresh (hsound.saving third newId (hothers (heq ▸ hne) hthird)).1
    · obtain ⟨hdrawn, hnot, hsettings, honly⟩ :=
        hsound.saving other installationId (hothers heq hother)
      refine ⟨List.mem_cons_of_mem _ hdrawn, fun hretired => hnot (hnotRetired hretired),
        hsettings, ?_⟩
      intro third hthird
      by_cases hthirdRun : third = run
      · rw [State.set_runs, hthirdRun, Function.update_self, hsaving] at hthird
        cases hthird
        exact absurd hdrawn hfresh
      · exact honly third (hothers hthirdRun hthird)

/-- A drawn id becomes the one of the settings. -/
theorem sound_saved (hsound : Sound state) {installationId : Id}
    (hsaving : (state.runs run).saving = some installationId) {after : Run RunId Id EventId}
    (hnext : Moves { state with settings := some (.on installationId) } run after next)
    (hfits : Fits next.outbox state.optOuts state.forgotten (state.runs run) after)
    (hsaved : after.saving = none) : Sound next := by
  obtain ⟨hdrawn, hnot, -, honly⟩ := hsound.saving run installationId hsaving
  have hretired : ∀ {other}, Retired next other → Retired state other :=
    fun hretired => (@retired_of_moves _ _ _ _ { state with settings := some (.on installationId) }
      next run after hnext hfits _ hretired)
  have hstill : ∀ {other third}, (next.runs other).saving = some third → other ≠ run ∧
      (state.runs other).saving = some third := by
    intro other third hother
    rw [hnext.runs] at hother
    by_cases heq : other = run
    · rw [heq, Function.update_self, hsaved] at hother
      cases hother
    · rw [Function.update_of_ne heq] at hother
      exact ⟨heq, hother⟩
  refine ⟨?_, ?_, ?_, ?_, ?_⟩
  · intro event hevent
    rw [hnext.optOuts, hnext.forgotten]
    exact hsound.outbox event (hnext.outbox hevent)
  · intro other
    rw [hnext.optOuts, hnext.forgotten, hnext.runs]
    by_cases heq : other = run
    · rw [heq, Function.update_self]
      exact hfits.of_old
    · rw [Function.update_of_ne heq]
      exact (hsound.runs other).of_subset hnext.outbox
  · intro other hother
    rw [hnext.drawn]
    exact hsound.retired other (hretired hother)
  · intro other hsettings
    rw [hnext.settings] at hsettings
    cases hsettings
    rw [hnext.drawn]
    exact ⟨hdrawn, fun hother => hnot (hretired hother)⟩
  · intro other third hother
    obtain ⟨hne, hbefore⟩ := hstill hother
    obtain ⟨hthirdDrawn, hthirdNot, -, hthirdOnly⟩ := hsound.saving other third hbefore
    rw [hnext.drawn, hnext.settings]
    refine ⟨hthirdDrawn, fun hthird => hthirdNot (hretired hthird), ?_, ?_⟩
    · intro hsame
      cases hsame
      exact hne (honly other hbefore)
    · intro fourth hfourth
      exact hthirdOnly fourth (hstill hfourth).2

/-- An opt-out replaces the settings, and with them the id it forgets. -/
theorem sound_optOut (hsound : Sound state) {forgets : Option Id}
    (hforgets : ∀ installationId, forgets = some installationId →
      state.settings = some (.on installationId)) :
    Sound ({ state with settings := some .off }.set run (.optingOut (.lists forgets))) := by
  have hretired : ∀ {installationId},
      Retired ({ state with settings := some .off }.set run (.optingOut (.lists forgets)))
        installationId →
      Retired state installationId ∨ state.settings = some (.on installationId) := by
    rintro installationId (hforgotten | ⟨other, hother⟩)
    · exact Or.inl (Or.inl hforgotten)
    · by_cases heq : other = run
      · rw [State.set_runs, heq, Function.update_self] at hother
        exact Or.inr (hforgets installationId hother)
      · rw [State.set_runs, Function.update_of_ne heq] at hother
        exact Or.inl (Or.inr ⟨other, hother⟩)
  have hstill : ∀ {other installationId},
      (({ state with settings := some .off }.set run
        (.optingOut (.lists forgets)) : State RunId Id EventId).runs other).saving =
        some installationId → (state.runs other).saving = some installationId := by
    intro other installationId hother
    by_cases heq : other = run
    · rw [State.set_runs, heq, Function.update_self] at hother
      cases hother
    · rw [State.set_runs, Function.update_of_ne heq] at hother
      exact hother
  refine ⟨hsound.outbox, ?_, ?_, ?_, ?_⟩
  · intro other
    by_cases heq : other = run
    · rw [State.set_runs, heq, Function.update_self]
      refine ⟨?_, ?_, ?_, ?_, fun _ hsame => hsame, fun _ hsame => hsame⟩
      · intro _ _ hcase; cases hcase
      · intro _ hcase; cases hcase
      · intro _ hcase; cases hcase
      · intro _ hcase; cases hcase
    · rw [State.set_runs, Function.update_of_ne heq]
      exact hsound.runs other
  · intro installationId hnext
    obtain hbefore | hsettings := hretired hnext
    · exact hsound.retired installationId hbefore
    · exact (hsound.settings installationId hsettings).1
  · intro installationId hsettings
    cases hsettings
  · intro other installationId hother
    obtain ⟨hdrawn, hnot, hsettings, honly⟩ := hsound.saving other installationId (hstill hother)
    refine ⟨hdrawn, ?_, (fun hoff => by cases hoff),
      fun third hthird => honly third (hstill hthird)⟩
    intro hnext
    obtain hbefore | hsame := hretired hnext
    · exact hnot hbefore
    · exact hsettings hsame

/-- An opt-out that completes leaves an empty outbox. -/
theorem sound_completes (hsound : Sound state) {forgets : Option Id}
    (hrun : state.runs run = .optingOut (.deletes forgets [])) :
    Sound ({ state with
      optOuts := state.optOuts + 1
      forgotten := forgets.toList ++ state.forgotten }.set run .ended) := by
  have hempty : ∀ event, event ∉ state.outbox := by
    intro event hevent
    cases (hsound.runs run).purging forgets [] hrun event hevent
  have hretired : ∀ {installationId}, Retired ({ state with
      optOuts := state.optOuts + 1
      forgotten := forgets.toList ++ state.forgotten }.set run .ended) installationId →
      Retired state installationId := by
    rintro installationId (hforgotten | ⟨other, hother⟩)
    · obtain hnew | hold := List.mem_append.mp hforgotten
      · refine Or.inr ⟨run, ?_⟩
        rw [hrun]
        exact Option.mem_toList.mp hnew
      · exact Or.inl hold
    · by_cases heq : other = run
      · rw [State.set_runs, heq, Function.update_self] at hother
        cases hother
      · rw [State.set_runs, Function.update_of_ne heq] at hother
        exact Or.inr ⟨other, hother⟩
  have hstill : ∀ {other installationId},
      (Function.update state.runs run .ended other).saving = some installationId →
      (state.runs other).saving = some installationId := by
    intro other installationId hother
    by_cases heq : other = run
    · rw [heq, Function.update_self] at hother
      cases hother
    · rw [Function.update_of_ne heq] at hother
      exact hother
  refine ⟨fun event hevent => absurd hevent (hempty event), ?_, ?_, ?_, ?_⟩
  · intro other
    by_cases heq : other = run
    · rw [State.set_runs, heq, Function.update_self]
      exact fits_ended
    · rw [State.set_runs, Function.update_of_ne heq]
      have hfits := hsound.runs other
      refine ⟨fun _ _ _ event hevent => absurd hevent (hempty event), ?_, ?_, ?_,
        hfits.forgets, hfits.saving⟩
      · intro began hbegan
        exact (hfits.began began hbegan).trans (Nat.le_succ _)
      · intro installationId _ hbegan
        exact absurd (hfits.began _ hbegan) (Nat.not_succ_le_self _)
      · intro item hitem
        obtain ⟨hle, hbegan, -⟩ := hfits.batch item hitem
        refine ⟨hle.trans (Nat.le_succ _), hbegan, ?_⟩
        intro heq
        exact absurd (heq ▸ hle) (Nat.not_succ_le_self _)
  · intro installationId hnext
    exact hsound.retired installationId (hretired hnext)
  · intro installationId hsettings
    obtain ⟨hdrawn, hnot⟩ := hsound.settings installationId hsettings
    exact ⟨hdrawn, fun hnext => hnot (hretired hnext)⟩
  · intro other installationId hother
    obtain ⟨hdrawn, hnot, hsettings, honly⟩ := hsound.saving other installationId (hstill hother)
    exact ⟨hdrawn, fun hnext => hnot (hretired hnext), hsettings,
      fun third hthird => honly third (hstill hthird)⟩

/-- An event file is written while no opt-out has listed the outbox. -/
theorem sound_place [DecidableEq EventId] (hsound : Sound state) {event : Event Id EventId}
    (hbegan : event.began = state.optOuts) (hid : event.installationId ∉ state.forgotten)
    (hpurging : ∀ other, (state.runs other).purging = false) :
    Sound ((state.place run event).set run .ended) := by
  have hretired : ∀ {installationId}, Retired ((state.place run event).set run .ended)
      installationId → Retired state installationId := by
    rintro installationId (hforgotten | ⟨other, hother⟩)
    · exact Or.inl hforgotten
    · by_cases heq : other = run
      · rw [State.set_runs, heq, Function.update_self] at hother
        cases hother
      · rw [State.set_runs, Function.update_of_ne heq] at hother
        exact Or.inr ⟨other, hother⟩
  have hstill : ∀ {other installationId},
      (((state.place run event).set run .ended).runs other).saving = some installationId →
      (state.runs other).saving = some installationId := by
    intro other installationId hother
    by_cases heq : other = run
    · rw [State.set_runs, heq, Function.update_self] at hother
      cases hother
    · rw [State.set_runs, Function.update_of_ne heq] at hother
      exact hother
  refine ⟨?_, ?_, ?_, ?_, ?_⟩
  · intro other hother
    obtain hold | hnew := List.mem_append.mp hother
    · exact hsound.outbox other (List.mem_of_mem_filter hold)
    · rw [List.mem_singleton.mp hnew]
      exact ⟨hbegan, hid⟩
  · intro other
    by_cases heq : other = run
    · rw [State.set_runs, heq, Function.update_self]
      exact fits_ended
    · rw [State.set_runs, Function.update_of_ne heq]
      refine { hsound.runs other with purging := ?_ }
      intro forgets entries hrun
      have hnot := hpurging other
      rw [show state.runs other = _ from hrun] at hnot
      cases hnot
  · intro installationId hnext
    exact hsound.retired installationId (hretired hnext)
  · intro installationId hsettings
    obtain ⟨hdrawn, hnot⟩ := hsound.settings installationId hsettings
    exact ⟨hdrawn, fun hnext => hnot (hretired hnext)⟩
  · intro other installationId hother
    obtain ⟨hdrawn, hnot, hsettings, honly⟩ := hsound.saving other installationId (hstill hother)
    exact ⟨hdrawn, fun hnext => hnot (hretired hnext), hsettings,
      fun third hthird => honly third (hstill hthird)⟩

theorem moves_set (after : Run RunId Id EventId) : Moves state run after (state.set run after) :=
  ⟨rfl, List.Subset.refl _, rfl, rfl, rfl, rfl⟩

theorem moves_release (after : Run RunId Id EventId) :
    Moves state run after ((state.release run).set run after) :=
  ⟨rfl, List.Subset.refl _, rfl, rfl, rfl, rfl⟩

theorem moves_of_subset {fewer : List (Event Id EventId)} (hfewer : fewer ⊆ state.outbox)
    (after : Run RunId Id EventId) :
    Moves state run after ({ state with outbox := fewer }.set run after) :=
  ⟨rfl, hfewer, rfl, rfl, rfl, rfl⟩

theorem Sound.of_fewer (hsound : Sound state) {fewer : List (Event Id EventId)}
    (hfewer : fewer ⊆ state.outbox) {after : Run RunId Id EventId}
    (hfits : Fits state.outbox state.optOuts state.forgotten (state.runs run) after) :
    Sound ({ state with outbox := fewer }.set run after) :=
  sound_of_moves hsound (moves_of_subset hfewer after) (hfits.of_subset hfewer)

omit [DecidableEq RunId] in
theorem Sound.began_le (hsound : Sound state) {began : ℕ} {step : Recording Id EventId}
    (hrun : state.runs run = .recording began step) : began ≤ state.optOuts :=
  (hsound.runs run).began began (by rw [hrun]; rfl)

omit [DecidableEq RunId] in
/-- The id in the settings may be held by a run that records. -/
theorem Sound.fits_of_settings (hsound : Sound state) {began : ℕ} {step : Recording Id EventId}
    (hrun : state.runs run = .recording began step) {installationId : Id}
    (hsettings : state.settings = some (.on installationId)) :
    Fits state.outbox state.optOuts state.forgotten (state.runs run)
      (.recording began (.makesRoom installationId)) := by
  refine fits_recording (hsound.began_le hrun) ?_ rfl
  intro other heq _ hforgotten
  cases heq
  exact (hsound.settings installationId hsettings).2 (Or.inl hforgotten)

theorem sound_load [DecidableEq Id] {newId : Id} (hsound : Sound state)
    (hstep : loadStep state run newId = some next) : Sound next := by
  unfold loadStep at hstep
  split at hstep
  case h_1 began hrun hsettings =>
    cases hstep
    refine sound_of_moves hsound (moves_set _) (fits_recording (hsound.began_le hrun) ?_ rfl)
    intro _ heq; cases heq
  case h_2 | h_5 =>
    cases hstep
    first
    | exact sound_of_moves hsound (moves_set _) fits_ended
    | exact sound_of_moves hsound (moves_release _) fits_ended
  case h_3 began installationId hrun hsettings =>
    cases hstep
    exact sound_of_moves hsound (moves_set _) (hsound.fits_of_settings hrun hsettings)
  case h_4 began hrun hsettings =>
    cases hstep
    refine sound_of_moves hsound (moves_set _) (fits_recording (hsound.began_le hrun) ?_ rfl)
    intro _ heq; cases heq
  case h_6 began installationId hrun hsettings =>
    cases hstep
    exact sound_of_moves hsound (moves_release _) (hsound.fits_of_settings hrun hsettings)
  case h_7 began installationId hrun hsettings =>
    cases hstep
    exact sound_of_moves hsound (moves_release _) (hsound.fits_of_settings hrun hsettings)
  case h_8 began hrun _ =>
    split at hstep
    · cases hstep
    case isFalse hfresh =>
      cases hstep
      refine sound_draw hsound hfresh ?_ rfl
      intro other heq
      cases heq
      exact hsound.began_le hrun
  case h_9 =>
    cases hstep
    exact sound_of_moves hsound (moves_set _) fits_ended
  case h_10 =>
    split at hstep
    · cases hstep
    case isFalse hfresh =>
      cases hstep
      refine sound_draw hsound hfresh ?_ rfl
      intro _ heq; cases heq
  case h_11 => cases hstep

omit [DecidableEq RunId] in
/-- A delivery that holds no batch. -/
theorem fits_delivering_nil {outbox : List (Event Id EventId)} {optOuts : ℕ} {forgotten : List Id}
    {old : Run RunId Id EventId} {step : Delivering Id EventId}
    (hnil : (Run.delivering step : Run RunId Id EventId).batch = []) :
    Fits outbox optOuts forgotten old (.delivering step) := by
  refine fits_delivering ?_
  intro item hitem
  rw [hnil] at hitem
  cases hitem

theorem sound_lock (hsound : Sound state) (hstep : lockStep state run = some next) :
    Sound next := by
  unfold lockStep at hstep
  split at hstep
  case h_1 began hrun =>
    split at hstep
    · cases hstep
      refine sound_of_moves hsound ⟨rfl, List.Subset.refl _, rfl, rfl, rfl, rfl⟩
        (fits_recording (hsound.began_le hrun) ?_ rfl)
      intro _ heq; cases heq
    · cases hstep
  case h_2 =>
    split at hstep
    · cases hstep
      exact sound_of_moves hsound ⟨rfl, List.Subset.refl _, rfl, rfl, rfl, rfl⟩
        (fits_delivering_nil rfl)
    · cases hstep
      exact sound_of_moves hsound (moves_set _) fits_ended
  case h_3 => cases hstep

theorem sound_save (hsound : Sound state) (hstep : saveStep state run = some next) :
    Sound next := by
  unfold saveStep at hstep
  split at hstep
  case h_1 began installationId hrun =>
    cases hstep
    have hsaving : (state.runs run).saving = some installationId := by rw [hrun]; rfl
    refine sound_saved hsound hsaving ⟨rfl, List.Subset.refl _, rfl, rfl, rfl, rfl⟩
      (fits_recording (hsound.began_le hrun) ?_ rfl) rfl
    intro other heq _ hforgotten
    cases heq
    exact (hsound.saving run installationId hsaving).2.1 (Or.inl hforgotten)
  case h_2 installationId hrun =>
    cases hstep
    have hsaving : (state.runs run).saving = some installationId := by rw [hrun]; rfl
    exact sound_saved hsound hsaving ⟨rfl, List.Subset.refl _, rfl, rfl, rfl, rfl⟩ fits_ended rfl
  case h_3 hrun =>
    cases hstep
    refine sound_optOut hsound ?_
    intro installationId heq
    split at heq
    case h_1 hsettings =>
      cases heq
      exact hsettings
    case h_2 => cases heq
  case h_4 => cases hstep

theorem sound_read [DecidableEq EventId] (hsound : Sound state)
    (hstep : readStep state run = some next) : Sound next := by
  unfold readStep at hstep
  split at hstep
  case h_1 =>
    cases hstep
    exact sound_of_moves hsound (moves_release _) fits_ended
  case h_2 batch _ hrun =>
    cases hstep
    refine sound_of_moves hsound (moves_set _) (fits_delivering ?_)
    have hbatch := (hsound.runs run).batch
    rw [hrun] at hbatch
    exact hbatch
  case h_3 name names batch hrun =>
    have hbatch := (hsound.runs run).batch
    rw [hrun] at hbatch
    split at hstep
    · cases hstep
      exact sound_of_moves hsound (moves_set _) (fits_delivering hbatch)
    case h_2 event hfind =>
      -- an event of the outbox is one of the runs that began after every opt-out so far
      obtain ⟨hbegan, hid⟩ := hsound.outbox event (List.mem_of_find?_eq_some hfind)
      have hlonger : ∀ item ∈ batch ++ [(event, state.optOuts)], item.2 ≤ state.optOuts ∧
          item.1.began = item.2 ∧
            (item.2 = state.optOuts → item.1.installationId ∉ state.forgotten) := by
        intro item hitem
        obtain hold | hnew := List.mem_append.mp hitem
        · exact hbatch item hold
        · rw [List.mem_singleton.mp hnew]
          exact ⟨le_rfl, hbegan, fun _ => hid⟩
      dsimp only at hstep
      split at hstep
      · cases hstep
        exact sound_of_moves hsound (moves_set _) (fits_delivering hlonger)
      · cases hstep
        exact sound_of_moves hsound (moves_set _) (fits_delivering hlonger)
  case h_4 => cases hstep

/-- The entry that an opt-out deletes is the only one it then has not on its list. -/
theorem sound_deletes [DecidableEq EventId] (hsound : Sound state) {forgets : Option Id}
    {entry : Entry RunId EventId} {entries : List (Entry RunId EventId)}
    (hrun : state.runs run = .optingOut (.deletes forgets (entry :: entries))) :
    Sound ((state.remove entry).set run (.optingOut (.deletes forgets entries))) := by
  have hlisted := (hsound.runs run).purging forgets (entry :: entries) hrun
  have hforgets : ∀ installationId, forgets = some installationId →
      (state.runs run).forgets = some installationId := by
    intro installationId heq
    rw [hrun]
    exact heq
  cases entry with
  | event eventId =>
      refine sound_of_moves hsound (moves_of_subset (fun _ => List.mem_of_mem_filter) _)
        ⟨?_, ?_, ?_, ?_, hforgets, ?_⟩
      · rintro _ _ heq event hevent
        cases heq
        obtain ⟨hmem, hne⟩ := List.mem_filter.mp hevent
        obtain hhead | htail := List.mem_cons.mp (hlisted event hmem)
        · cases hhead
          exact absurd rfl (of_decide_eq_true hne)
        · exact htail
      all_goals intro _ heq; cases heq
  | temporary other =>
      refine sound_of_moves hsound ⟨rfl, List.Subset.refl _, rfl, rfl, rfl, rfl⟩
        ⟨?_, ?_, ?_, ?_, hforgets, ?_⟩
      · rintro _ _ heq event hevent
        cases heq
        obtain hhead | htail := List.mem_cons.mp (hlisted event hevent)
        · cases hhead
        · exact htail
      all_goals intro _ heq; cases heq

omit [DecidableEq RunId] in
/-- A run that steps on keeps the id it holds. -/
theorem Sound.fits_of_holding (hsound : Sound state) {began : ℕ}
    {before after : Recording Id EventId}
    (hrun : state.runs run = .recording began before)
    (hholding : (Run.recording began after : Run RunId Id EventId).holding =
      (Run.recording began before : Run RunId Id EventId).holding)
    (hsaving : (Run.recording began after : Run RunId Id EventId).saving = none) :
    Fits state.outbox state.optOuts state.forgotten (state.runs run)
      (.recording began after) := by
  refine fits_recording (hsound.began_le hrun) ?_ hsaving
  intro installationId heq hbegan
  refine (hsound.runs run).holding installationId ?_ ?_
  · rw [hrun, ← hholding]
    exact heq
  · rw [hrun, ← hbegan]
    rfl

section Step

variable [DecidableEq Id] [DecidableEq EventId] {action : Action RunId Id EventId}

theorem sound_step (hsound : Sound state) (hintime : InTime state action)
    (hstep : step state action = some next) : Sound next := by
  cases action with
  | begins run command =>
      simp only [step] at hstep
      split at hstep
      case h_1 hidle =>
        cases hstep
        refine sound_of_moves hsound (moves_set _) ?_
        cases command with
        | record =>
            refine fits_recording le_rfl ?_ rfl
            intro _ heq; cases heq
        | optOut =>
            refine ⟨?_, ?_, ?_, ?_, ?_, ?_⟩
            · intro _ _ heq; cases heq
            all_goals intro _ heq; cases heq
        | optIn =>
            refine ⟨?_, ?_, ?_, ?_, ?_, ?_⟩
            · intro _ _ heq; cases heq
            all_goals intro _ heq; cases heq
        | deliver => exact fits_delivering_nil rfl
      case h_2 => cases hstep
  | loads run newId => exact sound_load hsound hstep
  | locks run => exact sound_lock hsound hstep
  | saves run => exact sound_save hsound hstep
  | makesRoom run =>
      simp only [step] at hstep
      split at hstep
      case h_1 began installationId hrun =>
        cases hstep
        exact hsound.of_fewer (List.drop_subset _ _) (hsound.fits_of_holding hrun rfl rfl)
      case h_2 => cases hstep
  | creates run eventId =>
      simp only [step] at hstep
      split at hstep
      case h_1 began installationId hrun =>
        cases hstep
        exact sound_of_moves hsound ⟨rfl, List.Subset.refl _, rfl, rfl, rfl, rfl⟩
          (hsound.fits_of_holding hrun rfl rfl)
      case h_2 => cases hstep
  | replaces run =>
      simp only [step] at hstep
      split at hstep
      case h_1 began installationId eventId hrun =>
        split at hstep
        · cases hstep
          obtain ⟨hbegan, hpurging⟩ := hintime
          have hsame : began = state.optOuts := by
            rw [hrun] at hbegan
            exact Option.some_inj.mp hbegan
          refine sound_place hsound hsame ?_ hpurging
          exact (hsound.runs run).holding installationId (by rw [hrun]; rfl) hbegan
        · cases hstep
      case h_2 => cases hstep
  | lists run =>
      simp only [step] at hstep
      split at hstep
      case h_1 forgets hrun =>
        cases hstep
        refine sound_of_moves hsound (moves_set _) ⟨?_, ?_, ?_, ?_, ?_, ?_⟩
        · rintro _ _ heq event hevent
          cases heq
          exact List.mem_append_left _ (List.mem_map_of_mem hevent)
        case refine_5 =>
          intro installationId heq
          rw [hrun]
          exact heq
        all_goals intro _ heq; cases heq
      case h_2 => cases hstep
  | deletes run =>
      simp only [step] at hstep
      split at hstep
      case h_1 hrun =>
        cases hstep
        exact sound_deletes hsound hrun
      case h_2 => cases hstep
  | completes run =>
      simp only [step] at hstep
      split at hstep
      case h_1 hrun =>
        cases hstep
        exact sound_completes hsound hrun
      case h_2 => cases hstep
  | sweeps run stale =>
      simp only [step] at hstep
      split at hstep
      · cases hstep
        exact sound_of_moves hsound ⟨rfl, List.Subset.refl _, rfl, rfl, rfl, rfl⟩
          (fits_delivering_nil rfl)
      · cases hstep
  | checks run =>
      simp only [step] at hstep
      split at hstep
      · cases hstep
        exact sound_of_moves hsound (moves_set _) (fits_delivering_nil rfl)
      · cases hstep
        exact sound_of_moves hsound (moves_release _) fits_ended
      · cases hstep
  | scans run =>
      simp only [step] at hstep
      split at hstep
      · cases hstep
        exact sound_of_moves hsound (moves_set _) (fits_delivering_nil rfl)
      · cases hstep
  | reads run => exact sound_read hsound hstep
  | posts run stored =>
      simp only [step] at hstep
      split at hstep
      · split at hstep
        · cases hstep
          exact sound_of_moves hsound (moves_set _) (fits_delivering_nil rfl)
        · cases hstep
          exact sound_of_moves hsound (moves_release _) fits_ended
      · cases hstep
  | unlinks run =>
      simp only [step] at hstep
      split at hstep
      · cases hstep
        exact sound_of_moves hsound (moves_set _) (fits_delivering_nil rfl)
      · cases hstep
        exact hsound.of_fewer (fun _ => List.mem_of_mem_filter) (fits_delivering_nil rfl)
      · cases hstep
  | stops run cleans =>
      have hmoves : Moves state run .ended next := by
        cases hstep
        cases cleans <;> exact ⟨rfl, List.Subset.refl _, rfl, rfl, rfl, rfl⟩
      exact sound_of_moves hsound hmoves fits_ended

omit [DecidableEq RunId] [DecidableEq Id] [DecidableEq EventId] in
/-- What the step sends is what was read since the last opt-out, and that is newer than it. -/
theorem final_of_sound (hsound : Sound state) (hintime : InTime state action)
    (hnext : Sound next) : Final state action next := by
  refine ⟨?_, fun event hevent => (hnext.outbox event hevent).2⟩
  cases action with
  | posts run stored =>
      intro item hitem
      obtain ⟨-, hbegan, hid⟩ := (hsound.runs run).batch item hitem
      have hread : item.2 = state.optOuts := hintime item hitem
      exact ⟨(hbegan.trans hread).ge, hid hread⟩
  | _ => trivial

end Step

end Sound

theorem sound_initial (settings : Option (Settings Id)) :
    Sound (initial settings : State RunId Id EventId) := by
  refine ⟨?_, ?_, ?_, ?_, ?_⟩
  · intro _ hevent; cases hevent
  · intro run
    refine ⟨?_, ?_, ?_, ?_, ?_, ?_⟩
    · intro _ _ heq; cases heq
    all_goals intro _ heq; cases heq
  · rintro _ (hforgotten | ⟨_, hforgets⟩)
    · cases hforgotten
    · cases hforgets
  · rintro installationId rfl
    refine ⟨List.mem_singleton_self _, ?_⟩
    rintro (hforgotten | ⟨_, hforgets⟩)
    · cases hforgotten
    · cases hforgets
  · intro _ _ hsaving; cases hsaving

section Runs

variable [DecidableEq RunId] [DecidableEq Id] [DecidableEq EventId]

/-- Opting out is final in every run that writes its events and posts its batches in time. -/
theorem opt_out_final (settings : Option (Settings Id)) (actions : List (Action RunId Id EventId))
    (hintime : (system RunId Id EventId).Guarded InTime (initial settings) actions) :
    (system RunId Id EventId).Along Final (initial settings) actions := by
  refine (system RunId Id EventId).along_of_guarded ?_ actions (sound_initial settings) hintime
  intro state action next hsound hintime hstep
  have hnext := sound_step hsound hintime hstep
  exact ⟨hnext, final_of_sound hsound hintime hnext⟩

end Runs

/-- A first event, and then a delivery that posts it. -/
def firstEvent : List (Action (Fin 4) ℕ ℕ) :=
  [.begins 0 .record, .loads 0 7, .locks 0, .loads 0 7, .loads 0 7, .saves 0, .makesRoom 0,
    .creates 0 5, .replaces 0, .begins 1 .deliver, .locks 1, .sweeps 1 [], .checks 1, .scans 1,
    .reads 1, .reads 1, .posts 1 true, .unlinks 1, .unlinks 1, .checks 1, .scans 1, .reads 1]

theorem opt_out_final_firstEvent :
    ((system (Fin 4) ℕ ℕ).run (initial none) firstEvent).isSome = true ∧
      (system (Fin 4) ℕ ℕ).Along Final (initial none) firstEvent :=
  ⟨by decide +kernel, opt_out_final none firstEvent (by decide +kernel)⟩

/-- A run has read the settings when an opt-out runs from its start to its end; the run then writes
its event, and reporting is turned on again. -/
def lateEvent : List (Action (Fin 4) ℕ ℕ) :=
  [.begins 0 .record, .loads 0 8, .begins 1 .optOut, .saves 1, .lists 1, .completes 1,
    .makesRoom 0, .creates 0 5, .replaces 0, .begins 2 .optIn, .loads 2 8, .saves 2,
    .begins 3 .deliver, .locks 3, .sweeps 3 [], .checks 3, .scans 3, .reads 3, .reads 3]

/-- The delivery posts the event, with the forgotten id. -/
theorem not_final_lateEvent :
    ¬ (system (Fin 4) ℕ ℕ).Along Final (initial (some (.on 7))) (lateEvent ++ [.posts 3 true]) ∧
      ((system (Fin 4) ℕ ℕ).run (initial (some (.on 7))) lateEvent).map
        (fun state => ((state.runs 3).batch.map Prod.fst, state.optOuts, state.forgotten)) =
        some ([{ eventId := 5, installationId := 7, began := 0 }], 1, [7]) := by
  decide +kernel

end CanyonOS.Usage.OptOut
