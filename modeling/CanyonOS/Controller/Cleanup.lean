import CanyonOS.Lib.TransitionSystem
import CanyonOS.Record
import Mathlib.Logic.Function.Basic

/-!
# Cleaning up a request

The keys of one request in one machine's Redis, the passes of `_cleanup_request` that the replicas
sharing it run, one command at a time, and the ways in which a pass is cut short. No call of the
request runs any more.
-/

namespace CanyonOS.Cleanup

/-- A key of the request, on one machine. -/
inductive Key where
  | futures
  | root
  | context
  | waiting
  | hash (futureId : FutureId)
  | children (futureId : FutureId)
  | consumers (futureId : FutureId)
  /-- `telemetry:delivered:<id>` -/
  | delivered
  | result
  | affinity
  | lock
deriving DecidableEq

/-- How far a pass is. -/
inductive Stage where
  | idle
  /-- about to look at the marker's time to live -/
  | checking
  /-- about to look for the marker -/
  | fetching
  /-- about to take the lock -/
  | claiming
  | listing
  /-- no future is listed here; about to expire the marker -/
  | marking
  /-- about to keep the outcome for `/status` -/
  | keeping (futureIds : List FutureId)
  | dating (futureIds : List FutureId)
  | expiring (todo : List Key)
  /-- in the `finally` block, after the whole pass or after an exception -/
  | releasing (whole : Bool)
  /-- handled to the end -/
  | ended
  /-- handled to the end without doing anything: the lock was held, by the pass given when that was
  still at work -/
  | skipped (worker : Option Nat)
  /-- ended by an exception, or killed -/
  | broken
deriving DecidableEq

/-- The pass holds the lock and goes on to release it. -/
def Stage.AtWork : Stage → Prop
  | .listing | .marking | .keeping _ | .dating _ | .expiring _ | .releasing _ => True
  | .idle | .checking | .fetching | .claiming | .ended | .skipped _ | .broken => False

instance : (stage : Stage) → Decidable stage.AtWork
  | .listing | .marking | .keeping _ | .dating _ | .expiring _ | .releasing _ => isTrue trivial
  | .idle | .checking | .fetching | .claiming | .ended | .skipped _ | .broken => isFalse id

/-- `none` is a missing key, `some none` one without an expiry. -/
structure Store where
  keys : Key → Option (Option Time)
  now : Time
  /-- the pass that took the lock last -/
  holder : Option Nat := none
  passes : Nat → Stage := fun _ => .idle

inductive Action where
  | begin (pass : Nat)
  | advance (pass : Nat)
  /-- the command the pass is about to run raises -/
  | raise (pass : Nat)
  | kill (pass : Nat)
  | tick (elapsed : Nat)
  /-- the Global Controller marks the request again: `SET NX` -/
  | mark

def second : Time := 1000000

/-- `RESULT_TTL_SECONDS` -/
def resultTtl : Nat := 24 * 3600

namespace Store

def set (store : Store) (key : Key) (value : Option (Option Time)) : Store :=
  { store with keys := Function.update store.keys key value }

def enter (store : Store) (pass : Nat) (stage : Stage) : Store :=
  { store with passes := Function.update store.passes pass stage }

/-- `EXPIRE NX`: only a key that is there and has no expiry gets one. -/
def expireNx (store : Store) (key : Key) (seconds : Nat) : Store :=
  if store.keys key = some none then
    store.set key (some (some (store.now + seconds * second)))
  else store

/-- `TTL`, which Redis rounds to the nearest second. -/
def ttl (store : Store) (key : Key) : Int :=
  match store.keys key with
  | none => -2
  | some none => -1
  | some (some time) => (time - store.now + second / 2) / second

/-- The keys whose time is over are gone. -/
def tick (store : Store) (elapsed : Nat) : Store :=
  { store with
    keys := fun key =>
      match store.keys key with
      | some (some time) => if time ≤ store.now + elapsed then none else some (some time)
      | value => value
    now := store.now + elapsed }

end Store

/-- The keys of a request with these futures, but for its marker. -/
def futureKeys (futureIds : List FutureId) : List Key :=
  [.futures, .root, .context, .waiting] ++
    futureIds.flatMap fun futureId => [.hash futureId, .children futureId, .consumers futureId]

/-- `keys_to_expire`: the marker goes last. -/
def keysToExpire (futureIds : List FutureId) : List Key :=
  futureKeys futureIds ++ [.delivered]

/-- `FUTURE_CLEANUP_GRACE_SECONDS`, and the futures the request has on this machine. -/
structure Setting where
  grace : Nat
  members : List FutureId

/-- `SMEMBERS` of `request:<id>:futures` -/
def smembers (setting : Setting) (store : Store) : List FutureId :=
  if store.keys .futures = none then [] else setting.members

/-- The pass at work that holds the lock. -/
def worker (store : Store) : Option Nat :=
  store.holder.filter fun pass => (store.passes pass).AtWork

/-- The next command of a pass of `_cleanup_request`. -/
def advance (setting : Setting) (store : Store) (pass : Nat) : Stage → Option Store
  | .checking =>
      if 0 < store.ttl .delivered then some (store.enter pass .ended)
      else some (store.enter pass .fetching)
  | .fetching =>
      if store.keys .delivered = none then some (store.enter pass .ended)
      else some (store.enter pass .claiming)
  | .claiming =>
      if store.keys .lock = none then
        some (({ store.set .lock (some none) with holder := some pass } : Store).enter pass .listing)
      else some (store.enter pass (.skipped (worker store)))
  | .listing =>
      match smembers setting store with
      | [] => some (store.enter pass .marking)
      | futureId :: rest =>
          if store.keys .root = none then
            some (store.enter pass (.expiring (keysToExpire (futureId :: rest))))
          else some (store.enter pass (.keeping (futureId :: rest)))
  | .marking => some ((store.expireNx .delivered setting.grace).enter pass (.releasing true))
  | .keeping futureIds =>
      some ((store.set .result (some ((store.keys .result).getD none))).enter pass
        (.dating futureIds))
  | .dating futureIds =>
      some ((store.set .result (some (some (store.now + resultTtl * second)))).enter pass
        (.expiring (keysToExpire futureIds)))
  | .expiring (key :: todo) =>
      some ((store.expireNx key setting.grace).enter pass (.expiring todo))
  | .expiring [] => some ((store.set .affinity none).enter pass (.releasing true))
  | .releasing whole =>
      some ((store.set .lock none).enter pass (if whole then .ended else .broken))
  | .idle | .ended | .skipped _ | .broken => none

/-- Inside the `try` block an exception still releases the lock. -/
def afterException : Stage → Option Stage
  | .checking | .fetching | .claiming | .releasing _ => some .broken
  | .listing | .marking | .keeping _ | .dating _ | .expiring _ => some (.releasing false)
  | .idle | .ended | .skipped _ | .broken => none

def step (setting : Setting) (store : Store) : Action → Option Store
  | .begin pass =>
      if store.passes pass = .idle then some (store.enter pass .checking) else none
  | .advance pass => advance setting store pass (store.passes pass)
  | .raise pass => (afterException (store.passes pass)).map (store.enter pass)
  | .kill pass => (afterException (store.passes pass)).map fun _ => store.enter pass .broken
  | .tick elapsed => some (store.tick elapsed)
  | .mark => if store.keys .delivered = none then some (store.set .delivered (some none)) else none

def system (setting : Setting) : TransitionSystem Store Action where
  step := step setting

/-- A request just marked delivered, before any pass: nothing has an expiry yet. A set without
members is no key. -/
def start (setting : Setting) (present : Key → Bool) (now : Time) : Store where
  keys key :=
    match key with
    | .delivered => some none
    | .futures => if setting.members = [] then none else some none
    | .lock => none
    | key => if present key then some none else none
  now := now

/-- The keys a pass cleans with the marker: none where no future of the request lives. -/
def cleaned (setting : Setting) : List Key :=
  if setting.members = [] then [] else futureKeys setting.members

/-- Every key cleaned has an expiry, or is gone. -/
def AllExpiring (setting : Setting) (store : Store) : Prop :=
  ∀ key ∈ cleaned setting, store.keys key ≠ some none

instance (setting : Setting) (store : Store) : Decidable (AllExpiring setting store) :=
  inferInstanceAs (Decidable (∀ _ ∈ _, _))

/-- A marker with an expiry outlives every key cleaned with it. -/
def MarkerLast (setting : Setting) (store : Store) : Prop :=
  ∀ time, store.keys .delivered = some (some time) → ∀ key ∈ cleaned setting,
    store.keys key = none ∨ ∃ earlier ≤ time, store.keys key = some (some earlier)

/-- A pass handled to the end leaves nothing without an expiry, unless it left that to a pass that
was at work then, and still is or was cut short since; and a marker with an expiry is the last to
go. -/
structure Resumes (setting : Setting) (store : Store) : Prop where
  ended : ∀ pass, store.passes pass = .ended → AllExpiring setting store
  skipped : ∀ pass worker, store.passes pass = .skipped worker → AllExpiring setting store ∨
    ∃ other ∈ worker, (store.passes other).AtWork ∨ store.passes other = .broken
  marker : MarkerLast setting store

/-- A lock found held is held by a pass at work, and the list of the futures does not expire while
a key of them has no expiry. -/
def Uninterrupted (setting : Setting) (store : Store) : Action → Prop
  | .advance pass =>
      store.passes pass = .claiming → store.keys .lock = none ∨ (worker store).isSome
  | .tick elapsed =>
      (store.tick elapsed).keys .futures = none → AllExpiring setting store
  | .begin _ | .raise _ | .kill _ | .mark => True

instance decidableUninterrupted (setting : Setting) (store : Store) :
    (action : Action) → Decidable (Uninterrupted setting store action)
  | .advance _ => inferInstanceAs (Decidable (_ → _))
  | .tick _ => inferInstanceAs (Decidable (_ → _))
  | .begin _ => inferInstanceAs (Decidable True)
  | .raise _ => inferInstanceAs (Decidable True)
  | .kill _ => inferInstanceAs (Decidable True)
  | .mark => inferInstanceAs (Decidable True)

/-! ### What every command keeps -/

variable {setting : Setting} {store next : Store}

@[simp]
theorem Store.keys_set_self (key : Key) (value : Option (Option Time)) :
    (store.set key value).keys key = value := by
  simp [set]

theorem Store.keys_set_of_ne {key other : Key} (hne : other ≠ key)
    (value : Option (Option Time)) : (store.set key value).keys other = store.keys other := by
  simp [set, hne]

@[simp]
theorem Store.passes_enter_self (pass : Nat) (stage : Stage) :
    (store.enter pass stage).passes pass = stage := by
  simp [enter]

theorem Store.passes_enter_of_ne {pass other : Nat} (hne : other ≠ pass) (stage : Stage) :
    (store.enter pass stage).passes other = store.passes other := by
  simp [enter, hne]

theorem ne_of_mem_cleaned {key : Key} (hmem : key ∈ cleaned setting) :
    key ≠ .delivered ∧ key ≠ .result ∧ key ≠ .affinity ∧ key ≠ .lock := by
  unfold cleaned at hmem
  split_ifs at hmem
  · cases hmem
  · rcases List.mem_append.mp hmem with hfixed | hfuture
    · refine ⟨?_, ?_, ?_, ?_⟩ <;> rintro rfl <;> simp at hfixed
    · obtain ⟨futureId, -, hkey⟩ := List.mem_flatMap.mp hfuture
      refine ⟨?_, ?_, ?_, ?_⟩ <;> rintro rfl <;> simp at hkey

/-- What the keys say of each other at any time. -/
structure KeysInv (setting : Setting) (store : Store) : Prop where
  bounded : ∀ key ∈ cleaned setting, ∀ time, store.keys key = some (some time) →
    time ≤ store.now + setting.grace * second
  markerLast : MarkerLast setting store
  markerGone : store.keys .delivered = none → AllExpiring setting store
  listed : store.keys .futures = none → AllExpiring setting store

/-- No key cleaned loses its expiry. -/
def Kept (setting : Setting) (store next : Store) : Prop :=
  ∀ key ∈ cleaned setting, store.keys key ≠ some none → next.keys key ≠ some none

theorem AllExpiring.kept (hall : AllExpiring setting store) (hkept : Kept setting store next) :
    AllExpiring setting next := by
  intro key hmem
  exact hkept key hmem (hall key hmem)

/-- What a pass knows of the keys. -/
def StageInv (setting : Setting) (store : Store) : Stage → Prop
  | .keeping futureIds | .dating futureIds =>
      futureIds = setting.members ∧ setting.members ≠ []
  | .expiring todo =>
      setting.members ≠ [] ∧ ∃ done, keysToExpire setting.members = done ++ todo ∧
        ∀ key ∈ done, key ∈ cleaned setting → store.keys key ≠ some none
  | .marking | .releasing true | .ended => AllExpiring setting store
  | .idle | .checking | .fetching | .claiming | .listing | .skipped _ | .releasing false
  | .broken => True

theorem StageInv.kept {stage : Stage} (hstage : StageInv setting store stage)
    (hkept : Kept setting store next) : StageInv setting next stage := by
  cases stage with
  | expiring todo =>
      obtain ⟨hmembers, done, hsplit, hdone⟩ := hstage
      refine ⟨hmembers, done, hsplit, ?_⟩
      intro key hmem hcleaned
      exact hkept key hcleaned (hdone key hmem hcleaned)
  | releasing whole =>
      cases whole with
      | true => exact AllExpiring.kept hstage hkept
      | false => trivial
  | marking | ended => exact AllExpiring.kept hstage hkept
  | keeping | dating => exact hstage
  | idle | checking | fetching | claiming | listing | skipped | broken => trivial

/-- The pass is at work, or was and is over. -/
def Stage.Worked (stage : Stage) : Prop :=
  stage.AtWork ∨ stage = .ended ∨ stage = .broken

theorem not_worked {stage : Stage}
    (hstage : stage = .idle ∨ stage = .checking ∨ stage = .fetching ∨ stage = .claiming) :
    ¬ stage.Worked := by
  rintro (hwork | rfl | rfl)
  · rcases hstage with rfl | rfl | rfl | rfl <;> exact hwork
  · simp at hstage
  · simp at hstage

structure Inv (setting : Setting) (store : Store) : Prop where
  keys : KeysInv setting store
  stages : ∀ pass, StageInv setting store (store.passes pass)
  skipped : ∀ pass worker, store.passes pass = .skipped worker →
    ∃ other ∈ worker, (store.passes other).Worked

/-- A pass goes to its next stage after a command. -/
theorem Inv.enter {pass : Nat} {stage : Stage} (hinv : Inv setting store)
    (hkeys : KeysInv setting next) (hkept : Kept setting store next)
    (hpasses : next.passes = store.passes) (hstage : StageInv setting next stage)
    (hworked : (store.passes pass).Worked → stage.Worked)
    (hskipped : ∀ worker, stage = .skipped worker →
      ∃ other ∈ worker, other ≠ pass ∧ (store.passes other).Worked) :
    Inv setting (next.enter pass stage) := by
  refine ⟨⟨hkeys.bounded, hkeys.markerLast, hkeys.markerGone, hkeys.listed⟩, ?_, ?_⟩
  · intro other
    by_cases heq : other = pass
    · subst heq
      rw [Store.passes_enter_self]
      exact hstage.kept fun _ _ => id
    · rw [Store.passes_enter_of_ne heq, hpasses]
      exact (hinv.stages other).kept hkept
  · intro skipping worker hworker
    by_cases heq : skipping = pass
    · subst heq
      rw [Store.passes_enter_self] at hworker
      obtain ⟨other, hmem, hne, hother⟩ := hskipped worker hworker
      refine ⟨other, hmem, ?_⟩
      rw [Store.passes_enter_of_ne hne, hpasses]
      exact hother
    · rw [Store.passes_enter_of_ne heq, hpasses] at hworker
      obtain ⟨other, hmem, hother⟩ := hinv.skipped skipping worker hworker
      refine ⟨other, hmem, ?_⟩
      by_cases hself : other = pass
      · subst hself
        rw [Store.passes_enter_self]
        exact hworked hother
      · rw [Store.passes_enter_of_ne hself, hpasses]
        exact hother

/-- Only the keys changed: every pass is where it was. -/
theorem Inv.of_keys (hinv : Inv setting store) (hkeys : KeysInv setting next)
    (hkept : Kept setting store next) (hpasses : next.passes = store.passes) :
    Inv setting next := by
  refine ⟨hkeys, ?_, ?_⟩
  · intro pass
    rw [hpasses]
    exact (hinv.stages pass).kept hkept
  · rw [hpasses]
    exact hinv.skipped

/-- A key that is not cleaned, nor the marker, says nothing of the others. -/
theorem KeysInv.set {key : Key} (hinv : KeysInv setting store) (hcleaned : key ∉ cleaned setting)
    (hdelivered : key ≠ .delivered) (hfutures : key ≠ .futures)
    (value : Option (Option Time)) : KeysInv setting (store.set key value) := by
  have hkeys : ∀ other, other ≠ key → (store.set key value).keys other = store.keys other :=
    fun other hne => Store.keys_set_of_ne hne value
  have hmem : ∀ other ∈ cleaned setting, (store.set key value).keys other = store.keys other :=
    fun other hother => hkeys other fun heq => hcleaned (heq ▸ hother)
  refine ⟨?_, ?_, ?_, ?_⟩
  · intro other hother
    rw [hmem other hother]
    exact hinv.bounded other hother
  · intro time htime other hother
    rw [hkeys _ (Ne.symm hdelivered)] at htime
    rw [hmem other hother]
    exact hinv.markerLast time htime other hother
  · intro hnone other hother
    rw [hkeys _ (Ne.symm hdelivered)] at hnone
    rw [hmem other hother]
    exact hinv.markerGone hnone other hother
  · intro hnone other hother
    rw [hkeys _ (Ne.symm hfutures)] at hnone
    rw [hmem other hother]
    exact hinv.listed hnone other hother

theorem kept_set {key : Key} (hcleaned : key ∉ cleaned setting)
    (value : Option (Option Time)) : Kept setting store (store.set key value) := by
  intro other hother hbefore
  have hne : other ≠ key := fun heq => hcleaned (heq ▸ hother)
  rw [Store.keys_set_of_ne hne]
  exact hbefore

theorem kept_expireNx (key : Key) : Kept setting store (store.expireNx key setting.grace) := by
  intro other _ hbefore
  unfold Store.expireNx
  split_ifs with hopen
  · by_cases heq : other = key
    · subst heq
      exact absurd hopen hbefore
    · rw [Store.keys_set_of_ne heq]
      exact hbefore
  · exact hbefore

/-- An expiry given by a pass: the marker is given one only when the others have theirs. -/
theorem KeysInv.expireNx {key : Key} (hinv : KeysInv setting store)
    (hmarker : key = .delivered → AllExpiring setting store) :
    KeysInv setting (store.expireNx key setting.grace) := by
  have hkept := @kept_expireNx setting store key
  unfold Store.expireNx at hkept ⊢
  split_ifs at hkept ⊢ with hopen
  · have hself : (store.set key (some (some (store.now + setting.grace * second)))).keys key =
        some (some (store.now + setting.grace * second)) := Store.keys_set_self _ _
    have hkeys : ∀ other, other ≠ key →
        (store.set key (some (some (store.now + setting.grace * second)))).keys other =
          store.keys other :=
      fun other hne => Store.keys_set_of_ne hne _
    refine ⟨?_, ?_, ?_, ?_⟩
    · intro other hother time htime
      by_cases heq : other = key
      · subst heq
        rw [hself] at htime
        cases htime
        exact Int.le_refl _
      · rw [hkeys other heq] at htime
        exact hinv.bounded other hother time htime
    · intro time htime other hother
      by_cases hdelivered : key = .delivered
      · subst hdelivered
        rw [hself] at htime
        cases htime
        rw [hkeys other (ne_of_mem_cleaned hother).1]
        have hexpiring := hmarker rfl other hother
        cases hvalue : store.keys other with
        | none => exact Or.inl rfl
        | some expiry =>
            cases expiry with
            | none => exact absurd hvalue hexpiring
            | some earlier => exact Or.inr ⟨earlier, hinv.bounded other hother earlier hvalue, rfl⟩
      · rw [hkeys _ (Ne.symm hdelivered)] at htime
        have hlast := hinv.markerLast time htime other hother
        by_cases heq : other = key
        · subst heq
          rw [hopen] at hlast
          rcases hlast with hnone | ⟨_, _, hsome⟩
          · cases hnone
          · cases hsome
        · rw [hkeys other heq]
          exact hlast
    · intro hnone
      have hdelivered : key ≠ .delivered := by
        rintro rfl
        rw [hself] at hnone
        cases hnone
      rw [hkeys _ (Ne.symm hdelivered)] at hnone
      exact (hinv.markerGone hnone).kept hkept
    · intro hnone
      have hfutures : key ≠ .futures := by
        rintro rfl
        rw [hself] at hnone
        cases hnone
      rw [hkeys _ (Ne.symm hfutures)] at hnone
      exact (hinv.listed hnone).kept hkept
  · exact hinv

/-- A key after time has passed: it is as it was, or its time was over. -/
theorem Store.keys_tick (store : Store) (elapsed : Nat) (key : Key) :
    (store.tick elapsed).keys key = store.keys key ∨
      (store.tick elapsed).keys key = none ∧
        ∃ time ≤ store.now + elapsed, store.keys key = some (some time) := by
  unfold tick
  dsimp only
  split
  · rename_i time htime
    split_ifs with hover
    · exact Or.inr ⟨rfl, time, hover, htime⟩
    · exact Or.inl htime.symm
  · exact Or.inl rfl

theorem kept_tick (elapsed : Nat) : Kept setting store (store.tick elapsed) := by
  intro key _ hbefore
  rcases store.keys_tick elapsed key with hsame | ⟨hnone, -⟩
  · rw [hsame]
    exact hbefore
  · rw [hnone]
    simp

theorem KeysInv.tick (hinv : KeysInv setting store) {elapsed : Nat}
    (hlisted : (store.tick elapsed).keys .futures = none → AllExpiring setting store) :
    KeysInv setting (store.tick elapsed) := by
  refine ⟨?_, ?_, ?_, fun hnone => (hlisted hnone).kept (kept_tick elapsed)⟩
  · intro key hmem time htime
    have hbefore : store.keys key = some (some time) := by
      rcases store.keys_tick elapsed key with hsame | ⟨hnone, -⟩
      · rw [← hsame]
        exact htime
      · rw [hnone] at htime
        cases htime
    have hbound := hinv.bounded key hmem time hbefore
    have hlater : store.now ≤ (store.tick elapsed).now :=
      Int.le_add_of_nonneg_right (Int.natCast_nonneg elapsed)
    exact Int.le_trans hbound (Int.add_le_add_right hlater _)
  · intro time htime key hmem
    have hbefore : store.keys .delivered = some (some time) := by
      rcases store.keys_tick elapsed .delivered with hsame | ⟨hnone, -⟩
      · rw [← hsame]
        exact htime
      · rw [hnone] at htime
        cases htime
    rcases store.keys_tick elapsed key with hsame | ⟨hnone, -⟩
    · rw [hsame]
      exact hinv.markerLast time hbefore key hmem
    · exact Or.inl hnone
  · intro hnone
    have hexpiring : AllExpiring setting store := by
      rcases store.keys_tick elapsed .delivered with hsame | ⟨-, time, -, hbefore⟩
      · exact hinv.markerGone (hsame ▸ hnone)
      · intro key hmem hopen
        rcases hinv.markerLast time hbefore key hmem with hgone | ⟨_, -, hsome⟩
        · rw [hopen] at hgone
          cases hgone
        · rw [hopen] at hsome
          cases hsome
    exact hexpiring.kept (kept_tick elapsed)

/-- A marker set again has no expiry, and whatever it vouched for before is gone. -/
theorem KeysInv.mark (hinv : KeysInv setting store) :
    KeysInv setting (store.set .delivered (some none)) := by
  have hkeys : ∀ key ∈ cleaned setting,
      (store.set .delivered (some none)).keys key = store.keys key :=
    fun key hmem => Store.keys_set_of_ne (ne_of_mem_cleaned hmem).1 _
  refine ⟨?_, ?_, ?_, ?_⟩
  · intro key hmem
    rw [hkeys key hmem]
    exact hinv.bounded key hmem
  · intro time htime
    rw [Store.keys_set_self] at htime
    cases htime
  · intro hnone
    rw [Store.keys_set_self] at hnone
    cases hnone
  · intro hnone key hmem
    rw [Store.keys_set_of_ne (by decide)] at hnone
    rw [hkeys key hmem]
    exact hinv.listed hnone key hmem

/-! ### One command of a pass -/

theorem expireNx_ne (key : Key) (seconds : Nat) :
    (store.expireNx key seconds).keys key ≠ some none := by
  unfold Store.expireNx
  split_ifs with hopen
  · rw [Store.keys_set_self]
    simp
  · exact hopen

@[simp]
theorem passes_expireNx (key : Key) (seconds : Nat) :
    (store.expireNx key seconds).passes = store.passes := by
  unfold Store.expireNx
  split_ifs <;> rfl

theorem delivered_not_mem_futureKeys (futureIds : List FutureId) :
    Key.delivered ∉ futureKeys futureIds := by
  simp [futureKeys]

/-- When the marker's turn comes, every other key has had its own. -/
theorem marker_last {futureIds : List FutureId} {done todo : List Key}
    (hsplit : keysToExpire futureIds = done ++ .delivered :: todo) :
    done = futureKeys futureIds := by
  rcases List.eq_nil_or_concat todo with rfl | ⟨earlier, last, rfl⟩
  · exact (List.append_inj' hsplit rfl).1.symm
  · rw [List.concat_eq_append, ← List.cons_append, ← List.append_assoc] at hsplit
    have hkeys := (List.append_inj' hsplit rfl).1
    refine absurd ?_ (delivered_not_mem_futureKeys futureIds)
    rw [hkeys]
    exact List.mem_append_right _ List.mem_cons_self

theorem not_mem_cleaned {key : Key} (hkey : key = .delivered ∨ key = .result ∨ key = .affinity ∨
    key = .lock) : key ∉ cleaned setting := by
  intro hmem
  obtain ⟨hdelivered, hresult, haffinity, hlock⟩ := ne_of_mem_cleaned hmem
  rcases hkey with heq | heq | heq | heq
  · exact hdelivered heq
  · exact hresult heq
  · exact haffinity heq
  · exact hlock heq

/-- A command on a key beside the ones cleaned, by a pass at work. -/
theorem Inv.set_enter {key : Key} {pass : Nat} {stage : Stage} (hinv : Inv setting store)
    (hkey : key = .result ∨ key = .affinity ∨ key = .lock) (value : Option (Option Time))
    (hstage : StageInv setting store stage) (hworked : stage.Worked) :
    Inv setting ((store.set key value).enter pass stage) := by
  have hcleaned : key ∉ cleaned setting := not_mem_cleaned (Or.inr hkey)
  have hother : key ≠ .delivered ∧ key ≠ .futures := by
    rcases hkey with rfl | rfl | rfl <;> decide
  have hkept := @kept_set setting store key hcleaned value
  refine hinv.enter (hinv.keys.set hcleaned hother.1 hother.2 value) hkept rfl
    (hstage.kept hkept) (fun _ => hworked) ?_
  rintro worker rfl
  rcases hworked with hwork | hended | hbroken
  · exact hwork.elim
  · cases hended
  · cases hbroken

theorem inv_advance {pass : Nat} (hinv : Inv setting store)
    (hfree : store.passes pass = .claiming → store.keys .lock = none ∨ (worker store).isSome)
    (hstep : advance setting store pass (store.passes pass) = some next) : Inv setting next := by
  have hstay : ∀ stage, StageInv setting store stage →
      ((store.passes pass).Worked → stage.Worked) → (∀ worker, stage ≠ .skipped worker) →
      Inv setting (store.enter pass stage) :=
    fun stage hstage hworked hskipped => hinv.enter hinv.keys (fun _ _ => id) rfl hstage hworked
      fun worker heq => absurd heq (hskipped worker)
  have hpass := hinv.stages pass
  cases hstage : store.passes pass with
  | idle | ended | skipped | broken =>
      rw [hstage] at hstep
      cases hstep
  | checking =>
      simp only [hstage, advance] at hstep
      split_ifs at hstep with httl
      · cases hstep
        refine hstay .ended ?_ (fun _ => Or.inr (Or.inl rfl)) (fun _ => Stage.noConfusion)
        -- a marker with time to live vouches for every other key
        intro key hmem hopen
        cases hmarker : store.keys .delivered with
        | none => simp [Store.ttl, hmarker] at httl
        | some expiry =>
            cases expiry with
            | none => simp [Store.ttl, hmarker] at httl
            | some time =>
                rcases hinv.keys.markerLast time hmarker key hmem with hgone | ⟨_, -, hsome⟩
                · rw [hopen] at hgone
                  cases hgone
                · rw [hopen] at hsome
                  cases hsome
      · cases hstep
        exact hstay .fetching trivial
          (fun hworked => absurd hworked (not_worked (Or.inr (Or.inl hstage))))
          (fun _ => Stage.noConfusion)
  | fetching =>
      simp only [hstage, advance] at hstep
      split_ifs at hstep with hmarker
      · cases hstep
        exact hstay .ended (hinv.keys.markerGone hmarker) (fun _ => Or.inr (Or.inl rfl))
          (fun _ => Stage.noConfusion)
      · cases hstep
        exact hstay .claiming trivial
          (fun hworked => absurd hworked (not_worked (Or.inr (Or.inr (Or.inl hstage)))))
          (fun _ => Stage.noConfusion)
  | claiming =>
      simp only [hstage, advance] at hstep
      split_ifs at hstep with hlock
      · cases hstep
        have hcleaned : Key.lock ∉ cleaned setting :=
          not_mem_cleaned (Or.inr (Or.inr (Or.inr rfl)))
        have hkeys := hinv.keys.set hcleaned (by decide) (by decide) (some none)
        exact hinv.enter ⟨hkeys.bounded, hkeys.markerLast, hkeys.markerGone, hkeys.listed⟩
          (kept_set hcleaned (some none)) rfl trivial (fun _ => Or.inl trivial)
          fun _ heq => Stage.noConfusion heq
      · cases hstep
        obtain ⟨other, hother⟩ := Option.isSome_iff_exists.mp ((hfree hstage).resolve_left hlock)
        have hwork : (store.passes other).AtWork :=
          of_decide_eq_true (Option.filter_eq_some_iff.mp hother).2
        refine hinv.enter hinv.keys (fun _ _ => id) rfl trivial
          (fun hworked => absurd hworked (not_worked (Or.inr (Or.inr (Or.inr hstage))))) ?_
        rintro worker heq
        cases heq
        refine ⟨other, hother, ?_, Or.inl hwork⟩
        rintro rfl
        rw [hstage] at hwork
        exact hwork
  | listing =>
      simp only [hstage, advance] at hstep
      split at hstep
      · rename_i hnone
        cases hstep
        refine hstay .marking ?_ (fun _ => Or.inl trivial) (fun _ => Stage.noConfusion)
        unfold smembers at hnone
        split_ifs at hnone with hfutures
        · exact hinv.keys.listed hfutures
        · intro key hmem
          rw [cleaned, if_pos hnone] at hmem
          cases hmem
      · rename_i futureId rest hsome
        have hmembers : futureId :: rest = setting.members := by
          unfold smembers at hsome
          split_ifs at hsome
          exact hsome.symm
        have hnonempty : setting.members ≠ [] := by
          rw [← hmembers]
          exact List.cons_ne_nil _ _
        split_ifs at hstep
        · cases hstep
          refine hstay _ ⟨hnonempty, [], by rw [hmembers, List.nil_append], ?_⟩
            (fun _ => Or.inl trivial) (fun _ => Stage.noConfusion)
          exact fun _ hmem => absurd hmem List.not_mem_nil
        · cases hstep
          exact hstay _ ⟨hmembers, hnonempty⟩ (fun _ => Or.inl trivial)
            (fun _ => Stage.noConfusion)
  | marking =>
      simp only [hstage, advance] at hstep
      rw [hstage] at hpass
      cases hstep
      have hkept := @kept_expireNx setting store .delivered
      exact hinv.enter (hinv.keys.expireNx fun _ => hpass) hkept (passes_expireNx _ _)
        (AllExpiring.kept hpass hkept) (fun _ => Or.inl trivial) fun _ heq => Stage.noConfusion heq
  | keeping futureIds =>
      simp only [hstage, advance] at hstep
      rw [hstage] at hpass
      cases hstep
      exact hinv.set_enter (Or.inl rfl) _ hpass (Or.inl trivial)
  | dating futureIds =>
      simp only [hstage, advance] at hstep
      rw [hstage] at hpass
      cases hstep
      refine hinv.set_enter (Or.inl rfl) _ ?_ (Or.inl trivial)
      refine ⟨hpass.2, [], by rw [hpass.1, List.nil_append], ?_⟩
      exact fun _ hmem => absurd hmem List.not_mem_nil
  | expiring todo =>
      rw [hstage] at hpass
      obtain ⟨hmembers, done, hsplit, hdone⟩ := hpass
      cases todo with
      | nil =>
          simp only [hstage, advance] at hstep
          cases hstep
          refine hinv.set_enter (Or.inr (Or.inl rfl)) _ ?_ (Or.inl trivial)
          intro key hmem
          rw [List.append_nil] at hsplit
          refine hdone key ?_ hmem
          rw [← hsplit]
          rw [cleaned, if_neg hmembers] at hmem
          exact List.mem_append_left _ hmem
      | cons key todo =>
          simp only [hstage, advance] at hstep
          cases hstep
          have hkept := @kept_expireNx setting store key
          have hmarker : key = .delivered → AllExpiring setting store := by
            rintro rfl other hmem
            refine hdone other ?_ hmem
            rw [marker_last hsplit]
            rw [cleaned, if_neg hmembers] at hmem
            exact hmem
          refine hinv.enter (hinv.keys.expireNx hmarker) hkept (passes_expireNx key _)
            ⟨hmembers, done ++ [key], by rw [hsplit, List.append_assoc]; rfl, ?_⟩
            (fun _ => Or.inl trivial) (fun _ heq => Stage.noConfusion heq)
          intro other hmem hcleaned
          rcases List.mem_append.mp hmem with hbefore | hnow
          · exact hkept other hcleaned (hdone other hbefore hcleaned)
          · rw [List.mem_singleton.mp hnow]
            exact expireNx_ne key _
  | releasing whole =>
      simp only [hstage, advance] at hstep
      rw [hstage] at hpass
      cases hstep
      cases whole with
      | true => exact hinv.set_enter (Or.inr (Or.inr rfl)) _ hpass (Or.inr (Or.inl rfl))
      | false => exact hinv.set_enter (Or.inr (Or.inr rfl)) _ trivial (Or.inr (Or.inr rfl))

/-- An exception or a kill leaves the keys alone. -/
theorem inv_after_exception {pass : Nat} {stage : Stage} (hinv : Inv setting store)
    (hstage : stage = .broken ∨ stage = .releasing false) :
    Inv setting (store.enter pass stage) := by
  refine hinv.enter hinv.keys (fun _ _ => id) rfl ?_ (fun _ => ?_) ?_
  · rcases hstage with rfl | rfl <;> trivial
  · rcases hstage with rfl | rfl
    · exact Or.inr (Or.inr rfl)
    · exact Or.inl trivial
  · rintro worker rfl
    rcases hstage with heq | heq <;> cases heq

theorem inv_step {action : Action} (hinv : Inv setting store)
    (huninterrupted : Uninterrupted setting store action)
    (hstep : step setting store action = some next) : Inv setting next := by
  cases action with
  | begin pass =>
      simp only [step] at hstep
      split_ifs at hstep with hidle
      cases hstep
      exact hinv.enter hinv.keys (fun _ _ => id) rfl trivial
        (fun hworked => absurd hworked (not_worked (Or.inl hidle)))
        fun _ heq => Stage.noConfusion heq
  | advance pass => exact inv_advance hinv huninterrupted hstep
  | raise pass =>
      obtain ⟨stage, hafter, rfl⟩ := Option.map_eq_some_iff.mp hstep
      apply inv_after_exception hinv
      cases hstage : store.passes pass <;> rw [hstage] at hafter <;> cases hafter
      all_goals first | exact Or.inl rfl | exact Or.inr rfl
  | kill pass =>
      obtain ⟨_, -, rfl⟩ := Option.map_eq_some_iff.mp hstep
      exact inv_after_exception hinv (Or.inl rfl)
  | tick elapsed =>
      cases hstep
      exact hinv.of_keys (hinv.keys.tick huninterrupted) (kept_tick elapsed) rfl
  | mark =>
      simp only [step] at hstep
      split_ifs at hstep
      cases hstep
      exact hinv.of_keys hinv.keys.mark (kept_set (not_mem_cleaned (Or.inl rfl)) _) rfl

theorem inv_start (setting : Setting) (present : Key → Bool) (now : Time) :
    Inv setting (start setting present now) := by
  have hopen : ∀ key time, (start setting present now).keys key ≠ some (some time) := by
    intro key time
    unfold start
    dsimp only
    split
    · simp
    · split_ifs <;> simp
    · simp
    · split_ifs <;> simp
  refine ⟨⟨?_, ?_, ?_, ?_⟩, fun pass => trivial, fun _ _ heq => Stage.noConfusion heq⟩
  · intro key _ time htime
    exact absurd htime (hopen key time)
  · intro time htime
    exact absurd htime (hopen _ time)
  · intro hnone
    cases hnone
  · intro hnone key hmem
    by_cases hmembers : setting.members = []
    · rw [cleaned, if_pos hmembers] at hmem
      cases hmem
    · simp [start, hmembers] at hnone

/-- Cleanup resumes: however many replicas run their passes, and wherever one of them raises or is
killed, a pass handled to the end leaves an expiry on every key, or leaves that to a pass at work,
as long as no lock stays behind and the list of the futures outlives the passes it takes. -/
theorem cleanup_resumes (setting : Setting) (present : Key → Bool) (now : Time)
    {actions : List Action} {store : Store}
    (huninterrupted : (system setting).Guarded (Uninterrupted setting)
      (start setting present now) actions)
    (hrun : (system setting).run (start setting present now) actions = some store) :
    Resumes setting store := by
  have hinv := (system setting).invariant_run (fun _ _ _ => inv_step)
    (inv_start setting present now) huninterrupted hrun
  have hended : ∀ pass, store.passes pass = .ended → AllExpiring setting store := by
    intro pass hended
    have hpass := hinv.stages pass
    rw [hended] at hpass
    exact hpass
  refine ⟨hended, ?_, hinv.keys.markerLast⟩
  intro pass worker hskipped
  obtain ⟨other, hmem, hwork | hover | hbroken⟩ := hinv.skipped pass worker hskipped
  · exact Or.inr ⟨other, hmem, Or.inl hwork⟩
  · exact Or.inl (hended other hover)
  · exact Or.inr ⟨other, hmem, Or.inr hbroken⟩

/-- One future `f` on this machine, and every key of it. -/
def oneFuture : Setting where
  grace := 30
  members := ["f"]

def oneStart : Store :=
  start oneFuture (fun _ => true) 0

/-- A pass that is raised at in the middle of its loop, after the first key got its expiry. -/
def raisedPass : List Action :=
  .begin 0 :: List.replicate 7 (.advance 0) ++ [.raise 0, .advance 0]

def resumedRun : List Action :=
  raisedPass ++ .begin 1 :: List.replicate 16 (.advance 1)

/-- The next pass ends before the list of the futures expires. -/
theorem cleanup_resumes_raised :
    ∃ store, (system oneFuture).run oneStart resumedRun = some store ∧
      store.passes 1 = .ended ∧ Resumes oneFuture store := by
  have hrun : ((system oneFuture).run oneStart resumedRun).isSome := by decide
  refine ⟨_, (Option.some_get hrun).symm, by decide +revert, ?_⟩
  exact cleanup_resumes oneFuture (fun _ => true) 0 (by decide) (Option.some_get hrun).symm

/-- The first pass is killed with the lock in its hands. -/
def killedRun : List Action :=
  .begin 0 :: List.replicate 3 (.advance 0) ++ .kill 0 :: .begin 1 :: List.replicate 3 (.advance 1)

/-- The next pass comes after the list of the futures has expired. -/
def lateRun : List Action :=
  raisedPass ++ .tick 30000000 :: .begin 1 :: List.replicate 6 (.advance 1)

/-- In both runs the second pass is handled to the end and `f` stays without an expiry, in the
second with a marker that has one. -/
theorem interrupted_pass_leaks :
    (∃ store, (system oneFuture).run oneStart killedRun = some store ∧
      store.passes 1 = .skipped none ∧ ¬ Resumes oneFuture store) ∧
    ∃ store, (system oneFuture).run oneStart lateRun = some store ∧
      store.passes 1 = .ended ∧ ¬ AllExpiring oneFuture store ∧ ¬ MarkerLast oneFuture store := by
  constructor
  · have hrun : ((system oneFuture).run oneStart killedRun).isSome := by decide
    have hskipped : (((system oneFuture).run oneStart killedRun).get hrun).passes 1 =
        .skipped none := by decide +revert
    have hleft : ¬ AllExpiring oneFuture (((system oneFuture).run oneStart killedRun).get hrun) := by
      decide +revert
    refine ⟨_, (Option.some_get hrun).symm, hskipped, ?_⟩
    intro hresumes
    rcases hresumes.skipped 1 none hskipped with hall | ⟨_, hmem, -⟩
    · exact hleft hall
    · cases hmem
  · have hrun : ((system oneFuture).run oneStart lateRun).isSome := by decide
    have hmarker : (((system oneFuture).run oneStart lateRun).get hrun).keys .delivered =
        some (some 60000000) := by decide +revert
    have hkey : (((system oneFuture).run oneStart lateRun).get hrun).keys (.hash "f") =
        some none := by decide +revert
    refine ⟨_, (Option.some_get hrun).symm, by decide +revert, by decide +revert, ?_⟩
    intro hlast
    rcases hlast _ hmarker (.hash "f") (by decide) with hnone | ⟨_, -, hsome⟩
    · rw [hkey] at hnone
      cases hnone
    · rw [hkey] at hsome
      cases hsome

end CanyonOS.Cleanup
