import CanyonOS.Controller.Cleanup

/-!
# How a request leaves every machine

The keys of one request on all machines: what its calls write, the passes of `_cleanup_request` on
each machine, and the cycles in which the GlobalController marks the request delivered everywhere
and, once no machine lists a future of it, takes it out of `request:completed`.
-/

namespace CanyonOS.Cleanup

/-- The keys that the calls of a request write. -/
def Key.OfCalls : Key → Prop
  | .delivered | .result | .lock => False
  | .futures | .root | .context | .waiting | .hash _ | .children _ | .consumers _ | .affinity =>
      True

instance : DecidablePred Key.OfCalls
  | .delivered | .result | .lock => isFalse id
  | .futures | .root | .context | .waiting | .hash _ | .children _ | .consumers _ | .affinity =>
      isTrue trivial

/-- `HSET`, `SADD` and `LPUSH` keep the expiry of a key that is there; `SET` takes it away. -/
def Store.write (store : Store) (key : Key) : Store :=
  store.set key <| some <|
    match key with
    | .root | .context => none
    | _ => (store.keys key).getD none

/-- `SET NX` of the marker. -/
def Store.mark (store : Store) : Store :=
  if store.keys .delivered = none then store.set .delivered (some none) else store

end CanyonOS.Cleanup

namespace CanyonOS.Leaving

open Cleanup (Key Store)

/-- The machines, and `FUTURE_CLEANUP_GRACE_SECONDS`. -/
structure Fleet (Machine : Type*) where
  machines : List Machine
  grace : Nat

/-- Where a cycle of the GlobalController is. -/
inductive Cycle (Machine : Type*) where
  | waiting
  /-- reading `request:completed`; the id is in it on the machines found -/
  | collecting (todo found : List Machine)
  /-- reading the request's futures once more; the machines read so far list none -/
  | counting (todo found : List Machine)
  /-- delivered: setting the marker -/
  | marking (todo : List Machine)
  /-- gone: taking the id out of `request:completed` -/
  | removing (todo : List Machine)

structure State (Machine : Type*) where
  store : Machine → Store
  /-- the members of `request:<id>:futures` while that key is there -/
  listed : Machine → List FutureId := fun _ => []
  completed : Machine → Bool := fun _ => false
  cycle : Cycle Machine := .waiting
  /-- every key the request's calls have written -/
  written : Machine → List Key := fun _ => []
  /-- the id has been taken out of `request:completed` of some machine -/
  left : Bool := false

inductive Action (Machine : Type*) where
  /-- a call of the request writes a key: its own record, a copy pushed by `WriteResult`, ... -/
  | write (machine : Machine) (key : Key)
  /-- `SADD` to `request:<id>:futures` -/
  | list (machine : Machine) (futureId : FutureId)
  /-- the last waiting question is popped -/
  | popWaiting (machine : Machine)
  | complete (machine : Machine)
  | pass (machine : Machine) (action : Cleanup.Action)
  | tick (elapsed : Nat)
  /-- the next command of the cycle; `delivered` tells whether the futures read are all terminal or
  the request was marked everywhere before -/
  | cycle (delivered : Bool)

variable {Machine : Type*} [DecidableEq Machine]

def State.put (state : State Machine) (machine : Machine) (store : Store) : State Machine :=
  { state with store := Function.update state.store machine store }

/-- The machine as one pass sees it. -/
def Fleet.setting (fleet : Fleet Machine) (state : State Machine) (machine : Machine) :
    Cleanup.Setting where
  grace := fleet.grace
  members := state.listed machine

def smembers (fleet : Fleet Machine) (state : State Machine) (machine : Machine) :
    List FutureId :=
  Cleanup.smembers (fleet.setting state machine) (state.store machine)

/-- `_trigger_cleanup`, one command at a time. -/
def advance (fleet : Fleet Machine) (state : State Machine) (delivered : Bool) :
    Cycle Machine → State Machine
  | .waiting => { state with cycle := .collecting fleet.machines [] }
  | .collecting (machine :: todo) found =>
      { state with
        cycle := .collecting todo (if state.completed machine then machine :: found else found) }
  | .collecting [] [] => { state with cycle := .waiting }
  | .collecting [] found => { state with cycle := .counting fleet.machines found }
  | .counting (machine :: todo) found =>
      if smembers fleet state machine = [] then { state with cycle := .counting todo found }
      else if delivered then { state with cycle := .marking fleet.machines }
      else { state with cycle := .waiting }
  | .counting [] found => { state with cycle := .removing found }
  | .marking (machine :: todo) =>
      { state.put machine (state.store machine).mark with cycle := .marking todo }
  | .marking [] => { state with cycle := .waiting }
  | .removing (machine :: todo) =>
      { state with
        completed := Function.update state.completed machine false
        left := true
        cycle := .removing todo }
  | .removing [] => { state with cycle := .waiting }

def wrote (state : State Machine) (machine : Machine) (key : Key) : State Machine :=
  { state.put machine ((state.store machine).write key) with
    written := Function.update state.written machine (key :: state.written machine) }

def step (fleet : Fleet Machine) (state : State Machine) : Action Machine → Option (State Machine)
  | .write machine key =>
      if key.OfCalls ∧ key ≠ .futures then some (wrote state machine key) else none
  | .list machine futureId =>
      some { wrote state machine .futures with
        listed := Function.update state.listed machine
          ((smembers fleet state machine).insert futureId) }
  | .popWaiting machine =>
      some (state.put machine ((state.store machine).set .waiting none))
  | .complete machine =>
      some { state with completed := Function.update state.completed machine true }
  | .pass machine action =>
      match action with
      | .tick _ | .mark => none
      | .begin _ | .advance _ | .raise _ | .kill _ =>
          (Cleanup.step (fleet.setting state machine) (state.store machine) action).map
            (state.put machine)
  | .tick elapsed =>
      some { state with store := fun machine => (state.store machine).tick elapsed }
  | .cycle delivered => some (advance fleet state delivered state.cycle)

def system (fleet : Fleet Machine) : TransitionSystem (State Machine) (Action Machine) where
  step := step fleet

/-- No machine has a key of the request yet. -/
def initial (now : Time) : State Machine where
  store _ := { keys := fun _ => none, now := now }

/-! ### When nothing is left behind -/

/-- Nothing was ever written here, or the pass that took the lock last came to its end. -/
def Handled (state : State Machine) (machine : Machine) : Prop :=
  (state.written machine = [] ∧ (state.store machine).keys .delivered = none) ∨
    ∃ pass ∈ (state.store machine).holder, (state.store machine).passes pass = .ended

/-- No pass has taken the lock here yet, and the request has not left. -/
def Open (state : State Machine) (machine : Machine) : Prop :=
  (state.store machine).holder = none ∧ state.left = false

/-- The futures a pass finds listed are all that the request has keys of on this machine. -/
def ListsAll (fleet : Fleet Machine) (state : State Machine) (machine : Machine) : Prop :=
  match smembers fleet state machine with
  | [] => state.written machine = []
  | futureIds => ∀ key ∈ state.written machine,
      key ∈ Cleanup.keysToExpire futureIds ∨ key = .affinity

/-- Nothing is written on a machine after a pass there has begun its work; a pass finds every future
listed whose keys are there; no marker is set again after such a pass; and the request is taken out
of `request:completed` only when every machine has been handled. -/
def Covered (fleet : Fleet Machine) (state : State Machine) : Action Machine → Prop
  | .write machine _ | .list machine _ => Open state machine
  | .pass machine (.advance pass) =>
      (state.store machine).passes pass = .listing → ListsAll fleet state machine
  | .cycle _ =>
      match state.cycle with
      | .marking (machine :: _) =>
          (state.store machine).keys .delivered ≠ none ∨ Open state machine
      | .removing (_ :: _) => ∀ machine ∈ fleet.machines, Handled state machine
      | _ => True
  | _ => True

section Decidable

omit [DecidableEq Machine]

variable (fleet : Fleet Machine) (state : State Machine) (machine : Machine)

instance : Decidable (Handled state machine) :=
  inferInstanceAs (Decidable (_ ∨ ∃ pass ∈ (state.store machine).holder, _))

instance : Decidable (Open state machine) :=
  inferInstanceAs (Decidable (_ ∧ _))

instance : Decidable (ListsAll fleet state machine) := by
  unfold ListsAll
  split <;> infer_instance

instance decidableCovered : (action : Action Machine) → Decidable (Covered fleet state action)
  | .write machine _ | .list machine _ => inferInstanceAs (Decidable (Open state machine))
  | .pass machine (.advance pass) =>
      inferInstanceAs (Decidable ((state.store machine).passes pass = .listing →
        ListsAll fleet state machine))
  | .cycle _ => by
      unfold Covered
      dsimp only
      split <;> infer_instance
  | .pass _ (.begin _) | .pass _ (.raise _) | .pass _ (.kill _) | .pass _ (.tick _)
  | .pass _ .mark | .popWaiting _ | .complete _ | .tick _ => isTrue trivial

end Decidable

/-! ### One machine -/

/-- Neither a key written here nor the marker is without an expiry. -/
def Clean (written : List Key) (store : Store) : Prop :=
  ∀ key ∈ .delivered :: written, store.keys key ≠ some none

/-- What a pass at work still has to see to. -/
def PassInv (written : List Key) (store : Store) : Cleanup.Stage → Prop
  | .keeping futureIds | .dating futureIds =>
      ∀ key ∈ written, key ∈ Cleanup.keysToExpire futureIds ∨ key = .affinity
  | .expiring todo =>
      ∀ key ∈ .delivered :: written,
        key ∈ todo ∨ key = .affinity ∨ store.keys key ≠ some none
  | .marking => written = []
  | .releasing true => Clean written store
  | .idle | .checking | .fetching | .claiming | .listing | .releasing false | .ended | .skipped _
  | .broken => True

/-- What the pass that took the lock last has come to. -/
def HolderInv (written : List Key) (store : Store) (stage : Cleanup.Stage) : Prop :=
  stage.AtWork ∨ stage = .broken ∨ stage = .ended ∧ Clean written store

structure MachineInv (written : List Key) (store : Store) : Prop where
  present : ∀ key : Key, key.OfCalls → store.keys key ≠ none → key ∈ written
  ofCalls : ∀ key ∈ written, key.OfCalls
  working : ∀ pass, (store.passes pass).AtWork → store.holder ≠ none
  passes : ∀ pass, PassInv written store (store.passes pass)
  holder : ∀ pass, store.holder = some pass → HolderInv written store (store.passes pass)

/-- No key written by a call, nor the marker, comes to be or loses its expiry. -/
def Quiet (store next : Store) : Prop :=
  ∀ key : Key, key.OfCalls ∨ key = .delivered →
    (next.keys key = some none → store.keys key = some none) ∧
      (next.keys key ≠ none → store.keys key ≠ none)

variable {written : List Key} {store next : Store}

theorem Quiet.refl : Quiet store store :=
  fun _ _ => ⟨id, id⟩

theorem Quiet.of_keys (hkeys : next.keys = store.keys) : Quiet store next := by
  intro key _
  rw [hkeys]
  exact ⟨id, id⟩

theorem quiet_set {key : Key} (hkey : ¬ (key.OfCalls ∨ key = .delivered))
    (value : Option (Option Time)) : Quiet store (store.set key value) := by
  intro other hother
  have hne : other ≠ key := by
    rintro rfl
    exact hkey hother
  rw [Store.keys_set_of_ne hne]
  exact ⟨id, id⟩

theorem quiet_delete (key : Key) : Quiet store (store.set key none) := by
  intro other _
  by_cases heq : other = key
  · subst heq
    rw [Store.keys_set_self]
    exact ⟨fun heq => (by cases heq), fun hne => absurd rfl hne⟩
  · rw [Store.keys_set_of_ne heq]
    exact ⟨id, id⟩

theorem quiet_expireNx (key : Key) (seconds : Nat) : Quiet store (store.expireNx key seconds) := by
  intro other _
  unfold Store.expireNx
  split_ifs with hopen
  · by_cases heq : other = key
    · subst heq
      rw [Store.keys_set_self, hopen]
      exact ⟨fun _ => rfl, fun _ => by simp⟩
    · rw [Store.keys_set_of_ne heq]
      exact ⟨id, id⟩
  · exact ⟨id, id⟩

theorem quiet_tick (elapsed : Nat) : Quiet store (store.tick elapsed) := by
  intro key _
  rcases store.keys_tick elapsed key with hsame | ⟨hgone, -⟩
  · rw [hsame]
    exact ⟨id, id⟩
  · rw [hgone]
    exact ⟨fun heq => (by cases heq), fun hne => absurd rfl hne⟩

theorem ofCalls_or_delivered (hwritten : ∀ key ∈ written, key.OfCalls) {key : Key}
    (hmem : key ∈ .delivered :: written) : key.OfCalls ∨ key = .delivered := by
  rcases List.mem_cons.mp hmem with rfl | hold
  · exact Or.inr rfl
  · exact Or.inl (hwritten key hold)

theorem Clean.of_quiet (hclean : Clean written store) (hquiet : Quiet store next)
    (hwritten : ∀ key ∈ written, key.OfCalls) : Clean written next := by
  intro key hmem hopen
  exact hclean key hmem ((hquiet key (ofCalls_or_delivered hwritten hmem)).1 hopen)

theorem PassInv.of_quiet {stage : Cleanup.Stage} (hpass : PassInv written store stage)
    (hquiet : Quiet store next) (hwritten : ∀ key ∈ written, key.OfCalls) :
    PassInv written next stage := by
  cases stage with
  | keeping | dating | marking => exact hpass
  | expiring todo =>
      intro key hmem
      rcases hpass key hmem with htodo | haffinity | hexpiring
      · exact Or.inl htodo
      · exact Or.inr (Or.inl haffinity)
      · exact Or.inr (Or.inr fun hopen =>
          hexpiring ((hquiet key (ofCalls_or_delivered hwritten hmem)).1 hopen))
  | releasing whole =>
      cases whole with
      | true => exact Clean.of_quiet hpass hquiet hwritten
      | false => trivial
  | idle | checking | fetching | claiming | listing | ended | skipped | broken => trivial

theorem HolderInv.of_quiet {stage : Cleanup.Stage} (hholder : HolderInv written store stage)
    (hquiet : Quiet store next) (hwritten : ∀ key ∈ written, key.OfCalls) :
    HolderInv written next stage := by
  rcases hholder with hwork | hbroken | ⟨hended, hclean⟩
  · exact Or.inl hwork
  · exact Or.inr (Or.inl hbroken)
  · exact Or.inr (Or.inr ⟨hended, hclean.of_quiet hquiet hwritten⟩)

/-- Keys that only go or get an expiry leave every pass as it is. -/
theorem MachineInv.of_quiet (hinv : MachineInv written store) (hquiet : Quiet store next)
    (hpasses : next.passes = store.passes) (hholder : next.holder = store.holder) :
    MachineInv written next where
  present key hkey hpresent :=
    hinv.present key hkey ((hquiet key (Or.inl hkey)).2 hpresent)
  ofCalls := hinv.ofCalls
  working pass hwork := by
    rw [hpasses] at hwork
    rw [hholder]
    exact hinv.working pass hwork
  passes pass := by
    rw [hpasses]
    exact (hinv.passes pass).of_quiet hquiet hinv.ofCalls
  holder pass hheld := by
    rw [hholder] at hheld
    rw [hpasses]
    exact (hinv.holder pass hheld).of_quiet hquiet hinv.ofCalls

/-- A pass goes to its next stage. -/
theorem MachineInv.enter (hinv : MachineInv written store) {pass : Nat} {stage : Cleanup.Stage}
    (hpass : PassInv written store stage) (hwork : stage.AtWork → store.holder ≠ none)
    (hheld : store.holder = some pass → HolderInv written store stage) :
    MachineInv written (store.enter pass stage) where
  present := hinv.present
  ofCalls := hinv.ofCalls
  working other hother := by
    by_cases heq : other = pass
    · subst heq
      rw [Store.passes_enter_self] at hother
      exact hwork hother
    · rw [Store.passes_enter_of_ne heq] at hother
      exact hinv.working other hother
  passes other := by
    by_cases heq : other = pass
    · subst heq
      rw [Store.passes_enter_self]
      exact hpass.of_quiet (Quiet.of_keys rfl) hinv.ofCalls
    · rw [Store.passes_enter_of_ne heq]
      exact (hinv.passes other).of_quiet (Quiet.of_keys rfl) hinv.ofCalls
  holder other hother := by
    by_cases heq : other = pass
    · subst heq
      rw [Store.passes_enter_self]
      exact (hheld hother).of_quiet (Quiet.of_keys rfl) hinv.ofCalls
    · rw [Store.passes_enter_of_ne heq]
      exact (hinv.holder other hother).of_quiet (Quiet.of_keys rfl) hinv.ofCalls

/-- A pass that has not worked yet has never had the lock. -/
theorem MachineInv.not_held (hinv : MachineInv written store) {pass : Nat}
    (hidle : ¬ (store.passes pass).AtWork) (hbroken : store.passes pass ≠ .broken)
    (hended : store.passes pass ≠ .ended) : store.holder ≠ some pass := by
  intro hheld
  rcases hinv.holder pass hheld with hwork | heq | ⟨heq, -⟩
  · exact hidle hwork
  · exact hbroken heq
  · exact hended heq

/-- A command on the keys, after which the pass is still at work. -/
theorem MachineInv.work (hinv : MachineInv written store) {pass : Nat} {stage : Cleanup.Stage}
    (hatWork : (store.passes pass).AtWork) (hquiet : Quiet store next)
    (hpasses : next.passes = store.passes) (hholder : next.holder = store.holder)
    (hpass : PassInv written next stage) (hstage : stage.AtWork) :
    MachineInv written (next.enter pass stage) :=
  (hinv.of_quiet hquiet hpasses hholder).enter hpass
    (fun _ => hholder ▸ hinv.working pass hatWork) fun _ => Or.inl hstage

/-- The pass has found the lock free. -/
theorem MachineInv.claim (hinv : MachineInv written store) {pass : Nat} :
    MachineInv written
      (({ store.set .lock (some none) with holder := some pass } : Store).enter pass .listing) where
  present key hkey hpresent := by
    have hquiet : Quiet store (store.set .lock (some none)) := quiet_set (by decide) _
    exact hinv.present key hkey ((hquiet key (Or.inl hkey)).2 hpresent)
  ofCalls := hinv.ofCalls
  working _ _ := by simp [Store.enter]
  passes other := by
    by_cases heq : other = pass
    · subst heq
      rw [Store.passes_enter_self]
      trivial
    · rw [Store.passes_enter_of_ne heq]
      exact (hinv.passes other).of_quiet (quiet_set (by decide) _) hinv.ofCalls
  holder other hother := by
    obtain rfl : pass = other := Option.some.inj hother
    rw [Store.passes_enter_self]
    exact Or.inl trivial

@[simp]
theorem holder_expireNx (key : Key) (seconds : Nat) :
    (store.expireNx key seconds).holder = store.holder := by
  unfold Store.expireNx
  split_ifs <;> rfl

/-! ### One command of a pass -/

variable {setting : Cleanup.Setting} {pass : Nat}

theorem machineInv_advance (hinv : MachineInv written store)
    (hlists : store.passes pass = .listing →
      match Cleanup.smembers setting store with
      | [] => written = []
      | futureIds => ∀ key ∈ written, key ∈ Cleanup.keysToExpire futureIds ∨ key = .affinity)
    (hstep : Cleanup.advance setting store pass (store.passes pass) = some next) :
    MachineInv written next := by
  have hpass := hinv.passes pass
  cases hstage : store.passes pass with
  | idle | ended | skipped | broken =>
      rw [hstage] at hstep
      cases hstep
  | checking =>
      have hfree : store.holder ≠ some pass :=
        hinv.not_held (by simp [hstage, Cleanup.Stage.AtWork]) (by simp [hstage]) (by simp [hstage])
      simp only [hstage, Cleanup.advance] at hstep
      split_ifs at hstep <;> cases hstep
      · exact hinv.enter trivial (fun hwork => hwork.elim) fun hheld => absurd hheld hfree
      · exact hinv.enter trivial (fun hwork => hwork.elim) fun hheld => absurd hheld hfree
  | fetching =>
      have hfree : store.holder ≠ some pass :=
        hinv.not_held (by simp [hstage, Cleanup.Stage.AtWork]) (by simp [hstage]) (by simp [hstage])
      simp only [hstage, Cleanup.advance] at hstep
      split_ifs at hstep <;> cases hstep
      · exact hinv.enter trivial (fun hwork => hwork.elim) fun hheld => absurd hheld hfree
      · exact hinv.enter trivial (fun hwork => hwork.elim) fun hheld => absurd hheld hfree
  | claiming =>
      have hfree : store.holder ≠ some pass :=
        hinv.not_held (by simp [hstage, Cleanup.Stage.AtWork]) (by simp [hstage]) (by simp [hstage])
      simp only [hstage, Cleanup.advance] at hstep
      split_ifs at hstep <;> cases hstep
      · exact hinv.claim
      · exact hinv.enter trivial (fun hwork => hwork.elim) fun hheld => absurd hheld hfree
  | listing =>
      have hwork : (store.passes pass).AtWork := by simp [hstage, Cleanup.Stage.AtWork]
      have hlists := hlists hstage
      simp only [hstage, Cleanup.advance] at hstep
      split at hstep
      · rename_i hnone
        cases hstep
        rw [hnone] at hlists
        exact hinv.work hwork Quiet.refl rfl rfl hlists trivial
      · rename_i futureId rest hsome
        rw [hsome] at hlists
        have hall : ∀ key ∈ .delivered :: written,
            key ∈ Cleanup.keysToExpire (futureId :: rest) ∨ key = .affinity ∨
              store.keys key ≠ some none := by
          intro key hmem
          rcases List.mem_cons.mp hmem with rfl | hold
          · exact Or.inl (List.mem_append_right _ (List.mem_singleton.mpr rfl))
          · exact (hlists key hold).imp_right Or.inl
        split_ifs at hstep <;> cases hstep
        · exact hinv.work hwork Quiet.refl rfl rfl hall trivial
        · exact hinv.work hwork Quiet.refl rfl rfl hlists trivial
  | marking =>
      have hwork : (store.passes pass).AtWork := by simp [hstage, Cleanup.Stage.AtWork]
      simp only [hstage, Cleanup.advance] at hstep
      rw [hstage] at hpass
      cases hstep
      obtain rfl : written = [] := hpass
      refine hinv.work hwork (quiet_expireNx _ _) (Cleanup.passes_expireNx _ _)
        (holder_expireNx _ _) ?_ trivial
      intro key hmem
      rw [List.mem_singleton.mp hmem]
      exact Cleanup.expireNx_ne _ _
  | keeping futureIds =>
      have hwork : (store.passes pass).AtWork := by simp [hstage, Cleanup.Stage.AtWork]
      simp only [hstage, Cleanup.advance] at hstep
      rw [hstage] at hpass
      cases hstep
      exact hinv.work hwork (quiet_set (by decide) _) rfl rfl hpass trivial
  | dating futureIds =>
      have hwork : (store.passes pass).AtWork := by simp [hstage, Cleanup.Stage.AtWork]
      simp only [hstage, Cleanup.advance] at hstep
      rw [hstage] at hpass
      cases hstep
      refine hinv.work hwork (quiet_set (by decide) _) rfl rfl ?_ trivial
      intro key hmem
      rcases List.mem_cons.mp hmem with rfl | hold
      · exact Or.inl (List.mem_append_right _ (List.mem_singleton.mpr rfl))
      · exact (hpass key hold).imp_right Or.inl
  | expiring todo =>
      have hwork : (store.passes pass).AtWork := by simp [hstage, Cleanup.Stage.AtWork]
      rw [hstage] at hpass
      cases todo with
      | nil =>
          simp only [hstage, Cleanup.advance] at hstep
          cases hstep
          refine hinv.work hwork (quiet_delete _) rfl rfl ?_ trivial
          intro key hmem
          by_cases heq : key = .affinity
          · rw [heq, Store.keys_set_self]
            simp
          · rw [Store.keys_set_of_ne heq]
            rcases hpass key hmem with htodo | haffinity | hexpiring
            · cases htodo
            · exact absurd haffinity heq
            · exact hexpiring
      | cons first todo =>
          simp only [hstage, Cleanup.advance] at hstep
          cases hstep
          refine hinv.work hwork (quiet_expireNx _ _) (Cleanup.passes_expireNx _ _)
            (holder_expireNx _ _) ?_ trivial
          intro key hmem
          rcases hpass key hmem with htodo | haffinity | hexpiring
          · rcases List.mem_cons.mp htodo with rfl | hlater
            · exact Or.inr (Or.inr (Cleanup.expireNx_ne _ _))
            · exact Or.inl hlater
          · exact Or.inr (Or.inl haffinity)
          · exact Or.inr (Or.inr fun hopen =>
              hexpiring ((quiet_expireNx first _ key
                (ofCalls_or_delivered hinv.ofCalls hmem)).1 hopen))
  | releasing whole =>
      simp only [hstage, Cleanup.advance] at hstep
      rw [hstage] at hpass
      cases hstep
      have hquiet : Quiet store (store.set .lock none) := quiet_delete _
      have hreleased := hinv.of_quiet hquiet rfl rfl
      cases whole with
      | true =>
          exact hreleased.enter trivial (fun hwork => hwork.elim) fun _ =>
            Or.inr (Or.inr ⟨rfl, Clean.of_quiet hpass hquiet hinv.ofCalls⟩)
      | false =>
          exact hreleased.enter trivial (fun hwork => hwork.elim) fun _ => Or.inr (Or.inl rfl)

theorem machineInv_cleanup {action : Cleanup.Action} (hinv : MachineInv written store)
    (haction : ∀ elapsed, action ≠ .tick elapsed) (hmark : action ≠ .mark)
    (hlists : ∀ pass, action = .advance pass → store.passes pass = .listing →
      match Cleanup.smembers setting store with
      | [] => written = []
      | futureIds => ∀ key ∈ written, key ∈ Cleanup.keysToExpire futureIds ∨ key = .affinity)
    (hstep : Cleanup.step setting store action = some next) : MachineInv written next := by
  cases action with
  | begin pass =>
      simp only [Cleanup.step] at hstep
      split_ifs at hstep with hidle
      cases hstep
      exact hinv.enter trivial (fun hwork => hwork.elim) fun hheld => absurd hheld
        (hinv.not_held (by simp [hidle, Cleanup.Stage.AtWork]) (by simp [hidle]) (by simp [hidle]))
  | advance pass => exact machineInv_advance hinv (hlists pass rfl) hstep
  | raise pass =>
      obtain ⟨stage, hafter, rfl⟩ := Option.map_eq_some_iff.mp hstep
      unfold Cleanup.afterException at hafter
      split at hafter <;> cases hafter
      case h_1 | h_2 | h_3 | h_4 =>
        exact hinv.enter trivial (fun hwork => hwork.elim) fun _ => Or.inr (Or.inl rfl)
      all_goals
        rename_i hstage
        have hwork : (store.passes pass).AtWork := by simp [hstage, Cleanup.Stage.AtWork]
        exact hinv.enter trivial (fun _ => hinv.working pass hwork) fun _ => Or.inl trivial
  | kill pass =>
      obtain ⟨_, -, rfl⟩ := Option.map_eq_some_iff.mp hstep
      exact hinv.enter trivial (fun hwork => hwork.elim) fun _ => Or.inr (Or.inl rfl)
  | tick elapsed => exact absurd rfl (haction elapsed)
  | mark => exact absurd rfl hmark

theorem Quiet.enter (hquiet : Quiet store next) (pass : Nat) (stage : Cleanup.Stage) :
    Quiet store (next.enter pass stage) :=
  hquiet

/-- A pass writes nothing that the claim on a key's expiry is about. -/
theorem quiet_advance {stage : Cleanup.Stage}
    (hstep : Cleanup.advance setting store pass stage = some next) : Quiet store next := by
  cases stage with
  | idle | ended | skipped | broken => cases hstep
  | checking | fetching =>
      simp only [Cleanup.advance] at hstep
      split_ifs at hstep <;> cases hstep <;> exact Quiet.refl.enter _ _
  | claiming =>
      simp only [Cleanup.advance] at hstep
      split_ifs at hstep <;> cases hstep
      · have hclaimed : Quiet store (store.set .lock (some none)) := quiet_set (by decide) _
        exact hclaimed
      · exact Quiet.refl.enter _ _
  | listing =>
      simp only [Cleanup.advance] at hstep
      split at hstep
      · cases hstep
        exact Quiet.refl.enter _ _
      · split_ifs at hstep <;> cases hstep <;> exact Quiet.refl.enter _ _
  | marking =>
      cases hstep
      exact (quiet_expireNx _ _).enter _ _
  | keeping | dating =>
      cases hstep
      exact (quiet_set (by decide) _).enter _ _
  | expiring todo =>
      cases todo with
      | nil =>
          cases hstep
          exact (quiet_delete _).enter _ _
      | cons =>
          cases hstep
          exact (quiet_expireNx _ _).enter _ _
  | releasing =>
      cases hstep
      exact (quiet_delete _).enter _ _

theorem quiet_cleanup {action : Cleanup.Action} (hmark : action ≠ .mark)
    (hstep : Cleanup.step setting store action = some next) : Quiet store next := by
  cases action with
  | begin pass =>
      simp only [Cleanup.step] at hstep
      split_ifs at hstep
      cases hstep
      exact Quiet.refl.enter _ _
  | advance pass => exact quiet_advance hstep
  | raise pass | kill pass =>
      obtain ⟨_, -, rfl⟩ := Option.map_eq_some_iff.mp hstep
      exact Quiet.refl.enter _ _
  | tick elapsed =>
      cases hstep
      exact quiet_tick elapsed
  | mark => exact absurd rfl hmark

/-! ### Writes and markers -/

/-- Before a pass has taken the lock the keys of a machine may change in any way that the list of
what was written keeps up with. -/
theorem MachineInv.of_open {more : List Key} (hinv : MachineInv written store)
    (hopen : store.holder = none) (hpasses : next.passes = store.passes)
    (hholder : next.holder = store.holder) (hmore : ∀ key ∈ more, key.OfCalls)
    (hpresent : ∀ key : Key, key.OfCalls → next.keys key ≠ none → key ∈ more) :
    MachineInv more next where
  present := hpresent
  ofCalls := hmore
  working pass hwork := by
    rw [hpasses] at hwork
    exact absurd hopen (hinv.working pass hwork)
  passes pass := by
    have hidle : ¬ (store.passes pass).AtWork := fun hwork => hinv.working pass hwork hopen
    rw [hpasses]
    cases hstage : store.passes pass with
    | keeping | dating | expiring | marking | releasing | listing =>
        rw [hstage] at hidle
        exact absurd trivial hidle
    | idle | checking | fetching | claiming | ended | skipped | broken => trivial
  holder pass hheld := by
    rw [hholder, hopen] at hheld
    cases hheld

theorem machineInv_write (hinv : MachineInv written store) (hopen : store.holder = none) {key : Key}
    (hkey : key.OfCalls) : MachineInv (key :: written) (store.write key) := by
  refine hinv.of_open hopen rfl rfl ?_ ?_
  · intro other hmem
    rcases List.mem_cons.mp hmem with rfl | hold
    · exact hkey
    · exact hinv.ofCalls other hold
  · intro other hother hpresent
    by_cases heq : other = key
    · exact heq ▸ List.mem_cons_self
    · unfold Store.write at hpresent
      rw [Store.keys_set_of_ne heq] at hpresent
      exact List.mem_cons_of_mem _ (hinv.present other hother hpresent)

theorem machineInv_mark (hinv : MachineInv written store)
    (hopen : store.keys .delivered ≠ none ∨ store.holder = none) :
    MachineInv written store.mark := by
  unfold Store.mark
  split_ifs with hgone
  · refine hinv.of_open (hopen.resolve_left (absurd hgone)) rfl rfl hinv.ofCalls ?_
    intro other hother hpresent
    have hne : other ≠ .delivered := by
      rintro rfl
      exact hother
    rw [Store.keys_set_of_ne hne] at hpresent
    exact hinv.present other hother hpresent
  · exact hinv

/-! ### All machines -/

structure Inv (fleet : Fleet Machine) (state : State Machine) : Prop where
  machine : ∀ machine, MachineInv (state.written machine) (state.store machine)
  left : state.left = true → ∀ machine ∈ fleet.machines,
    Clean (state.written machine) (state.store machine)

variable {fleet : Fleet Machine} {state after : State Machine}

omit [DecidableEq Machine] in
theorem clean_of_handled {machine : Machine}
    (hinv : MachineInv (state.written machine) (state.store machine))
    (hhandled : Handled state machine) :
    Clean (state.written machine) (state.store machine) := by
  rcases hhandled with ⟨hnone, hunmarked⟩ | ⟨pass, hheld, hended⟩
  · intro key hmem
    rw [hnone] at hmem
    rw [List.mem_singleton.mp hmem, hunmarked]
    simp
  · rcases hinv.holder pass hheld with hwork | hbroken | ⟨-, hclean⟩
    · rw [hended] at hwork
      exact hwork.elim
    · rw [hended] at hbroken
      cases hbroken
    · exact hclean

/-- One machine's keys change, quietly if the request has left. -/
theorem Inv.put (hinv : Inv fleet state) {machine : Machine} {next : Store}
    (hmachine : MachineInv (state.written machine) next)
    (hquiet : state.left = true → Quiet (state.store machine) next) :
    Inv fleet (state.put machine next) where
  machine other := by
    by_cases heq : other = machine
    · subst heq
      simpa [State.put] using hmachine
    · simpa [State.put, heq] using hinv.machine other
  left hleft other hmem := by
    by_cases heq : other = machine
    · subst heq
      have hclean := (hinv.left hleft other hmem).of_quiet (hquiet hleft)
        (hinv.machine other).ofCalls
      simpa [State.put] using hclean
    · simpa [State.put, heq] using hinv.left hleft other hmem

theorem Inv.wrote (hinv : Inv fleet state) {machine : Machine} (hopen : Open state machine)
    {key : Key} (hkey : key.OfCalls) : Inv fleet (wrote state machine key) where
  machine other := by
    by_cases heq : other = machine
    · subst heq
      simpa [Leaving.wrote, State.put] using machineInv_write (hinv.machine other) hopen.1 hkey
    · simpa [Leaving.wrote, State.put, heq] using hinv.machine other
  left hleft := by
    have hnot : state.left = true := hleft
    rw [hopen.2] at hnot
    cases hnot

theorem quiet_mark (hmarked : store.keys .delivered ≠ none) : Quiet store store.mark := by
  rw [Store.mark, if_neg hmarked]
  exact Quiet.refl

theorem inv_cycle (hinv : Inv fleet state) {delivered : Bool}
    (hcovered : Covered fleet state (.cycle delivered)) :
    Inv fleet (advance fleet state delivered state.cycle) := by
  have hgo : ∀ cycle, Inv fleet { state with cycle } := fun _ => ⟨hinv.machine, hinv.left⟩
  cases hcycle : state.cycle with
  | waiting => exact hgo _
  | collecting todo found =>
      cases todo with
      | nil => cases found <;> exact hgo _
      | cons => exact hgo _
  | counting todo found =>
      cases todo with
      | nil => exact hgo _
      | cons =>
          simp only [advance]
          split_ifs <;> exact hgo _
  | marking todo =>
      cases todo with
      | nil => exact hgo _
      | cons machine todo =>
          simp only [Covered, hcycle] at hcovered
          have hmarked := hinv.put
            (machineInv_mark (hinv.machine machine) (hcovered.imp_right And.left)) fun hleft => by
              refine quiet_mark (hcovered.resolve_right fun hopen => ?_)
              rw [hopen.2] at hleft
              cases hleft
          exact ⟨hmarked.machine, hmarked.left⟩
  | removing todo =>
      cases todo with
      | nil => exact hgo _
      | cons machine todo =>
          simp only [Covered, hcycle] at hcovered
          exact ⟨hinv.machine, fun _ other hmem =>
            clean_of_handled (hinv.machine other) (hcovered other hmem)⟩

theorem inv_pass (hinv : Inv fleet state) {machine : Machine} {action : Cleanup.Action}
    (hcovered : Covered fleet state (.pass machine action))
    (haction : ∀ elapsed, action ≠ .tick elapsed) (hmark : action ≠ .mark) {next : Store}
    (hstep : Cleanup.step (fleet.setting state machine) (state.store machine) action = some next) :
    Inv fleet (state.put machine next) := by
  refine hinv.put (machineInv_cleanup (hinv.machine machine) haction hmark ?_ hstep) fun _ =>
    quiet_cleanup hmark hstep
  rintro pass rfl hlisting
  exact hcovered hlisting

theorem inv_step {action : Action Machine} (hinv : Inv fleet state)
    (hcovered : Covered fleet state action) (hstep : step fleet state action = some after) :
    Inv fleet after := by
  cases action with
  | write machine key =>
      simp only [step] at hstep
      split_ifs at hstep with hkey
      cases hstep
      exact hinv.wrote hcovered hkey.1
  | list machine futureId =>
      cases hstep
      have hwrote := hinv.wrote hcovered (show Key.OfCalls .futures from trivial)
      exact ⟨hwrote.machine, hwrote.left⟩
  | popWaiting machine =>
      cases hstep
      have hquiet : Quiet (state.store machine) ((state.store machine).set .waiting none) :=
        quiet_delete _
      exact hinv.put ((hinv.machine machine).of_quiet hquiet rfl rfl) fun _ => hquiet
  | complete machine =>
      cases hstep
      exact ⟨hinv.machine, hinv.left⟩
  | pass machine action =>
      cases action with
      | begin pass | advance pass | raise pass | kill pass =>
          obtain ⟨next, hnext, rfl⟩ := Option.map_eq_some_iff.mp hstep
          exact inv_pass hinv hcovered (fun _ heq => by cases heq) (fun heq => by cases heq) hnext
      | tick | mark => cases hstep
  | tick elapsed =>
      cases hstep
      exact
        { machine := fun machine => (hinv.machine machine).of_quiet (quiet_tick elapsed) rfl rfl
          left := fun hleft machine hmem =>
            (hinv.left hleft machine hmem).of_quiet (quiet_tick elapsed)
              (hinv.machine machine).ofCalls }
  | cycle delivered =>
      cases hstep
      exact inv_cycle hinv hcovered

omit [DecidableEq Machine] in
theorem inv_initial (now : Time) : Inv fleet (initial now) where
  machine _ :=
    { present := fun _ _ hpresent => absurd rfl hpresent
      ofCalls := fun _ hmem => by cases hmem
      working := fun _ hwork => hwork.elim
      passes := fun _ => trivial
      holder := fun _ hheld => by cases hheld }
  left hleft := by cases hleft

/-- A request that has left `request:completed` leaves no key without an expiry on any machine, if
its machines were all handled in time and listed all they held. -/
theorem request_leaves_nothing {now : Time} {actions : List (Action Machine)}
    (hcovered : (system fleet).Guarded (Covered fleet) (initial now) actions)
    (hrun : (system fleet).run (initial now) actions = some state) (hleft : state.left = true)
    {machine : Machine} (hmachine : machine ∈ fleet.machines) {key : Key}
    (hkey : key.OfCalls ∨ key = .delivered) :
    (state.store machine).keys key ≠ some none := by
  have hinv : Inv fleet state :=
    (system fleet).invariant_run (fun _ _ _ => inv_step) (inv_initial now) hcovered hrun
  intro hopen
  refine hinv.left hleft machine hmachine key ?_ hopen
  rcases hkey with hcalls | rfl
  · refine List.mem_cons_of_mem _ ((hinv.machine machine).present key hcalls ?_)
    rw [hopen]
    simp
  · exact List.mem_cons_self

/-- The request runs on `a`, whose Redis is not `b`'s. -/
def twoMachines : Fleet String where
  machines := ["a", "b"]
  grace := 30

/-- The call `f` is made and run on a machine. -/
def ranOn (machine : String) : List (Action String) :=
  [.write machine (.hash "f"), .list machine "f", .complete machine]

/-- The next `count` commands of the GlobalController; what is read is all terminal. -/
def cycles (count : Nat) : List (Action String) :=
  List.replicate count (.cycle true)

/-- A pass on a machine, to its end. -/
def wholePass (machine : String) (count : Nat) : List (Action String) :=
  .pass machine (.begin 0) :: List.replicate count (.pass machine (.advance 0))

def leavingRun : List (Action String) :=
  ranOn "a" ++ cycles 8 ++ wholePass "a" 14 ++ wholePass "b" 6 ++ [.tick 30000000] ++ cycles 9

/-- `WriteResult` pushes a copy of `f` to `b`, which lists no future of the request. -/
def copyRun : List (Action String) :=
  ranOn "a" ++ [.write "b" (.hash "f")] ++ cycles 8 ++ wholePass "a" 14 ++ wholePass "b" 6 ++
    [.tick 30000000] ++ cycles 9

/-- Both machines run a call; `b`'s pass comes ten seconds after `a`'s, and a cycle between the two
expiries finds only `b`'s future. -/
def markedAgainRun : List (Action String) :=
  ranOn "a" ++ ranOn "b" ++ cycles 8 ++ wholePass "a" 14 ++ [.tick 10000000] ++
    wholePass "b" 14 ++ [.tick 20000000] ++ cycles 9 ++ [.tick 10000000] ++ cycles 10

theorem request_leaves_nothing_ran :
    ∃ state, (system twoMachines).run (initial 0) leavingRun = some state ∧
      state.left = true ∧ (state.store "a").keys (.hash "f") ≠ some none := by
  have hrun : ((system twoMachines).run (initial 0) leavingRun).isSome := by decide +kernel
  have hcovered : (system twoMachines).Guarded (Covered twoMachines) (initial 0) leavingRun := by
    decide +kernel
  have hleft : (((system twoMachines).run (initial 0) leavingRun).get hrun).left = true := by
    decide +kernel +revert
  exact ⟨_, (Option.some_get hrun).symm, hleft,
    request_leaves_nothing hcovered (Option.some_get hrun).symm hleft
      (show "a" ∈ twoMachines.machines by decide) (Or.inl trivial)⟩

/-- The request has left, and the copy of `f` on `b` stays without an expiry; or the marker on `a`,
set again after it had expired, does. -/
theorem copy_or_marker_leaks :
    (∃ state, (system twoMachines).run (initial 0) copyRun = some state ∧
      state.left = true ∧ (state.store "b").keys (.hash "f") = some none) ∧
    ∃ state, (system twoMachines).run (initial 0) markedAgainRun = some state ∧
      state.left = true ∧ (state.store "a").keys .delivered = some none := by
  have hcopy : ((system twoMachines).run (initial 0) copyRun).isSome := by decide +kernel
  have hmarked : ((system twoMachines).run (initial 0) markedAgainRun).isSome := by decide +kernel
  exact ⟨⟨_, (Option.some_get hcopy).symm, by decide +kernel +revert, by decide +kernel +revert⟩,
    ⟨_, (Option.some_get hmarked).symm, by decide +kernel +revert, by decide +kernel +revert⟩⟩

end CanyonOS.Leaving
