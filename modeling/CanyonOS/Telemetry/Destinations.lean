import Mathlib
import CanyonOS.Controller.Governance
import CanyonOS.Lib.TransitionSystem

/-!
# Reloading the destinations

`_reload_destinations_if_changed`: the exporter process rebuilds the exporters of its three signals
when the destinations in Redis change. A constructor may raise for any destination of any signal.
-/

namespace CanyonOS.Destinations

open CodePoints JsonValue

/-! ### The destinations -/

structure Destination where
  name : CodePoints
  protocol : CodePoints
  endpoint : CodePoints
  headers : Option (List (CodePoints × JsonValue))
  insecure : Option Bool
  timeout : Option FloatValue

def supportedProtocols : List CodePoints :=
  [ofString "grpc", ofString "http", ofString "http/protobuf"]

section Validation

-- the standard library's `json.loads`, and what strings do
variable (loads : CodePoints → Loaded) (strip lower : CodePoints → CodePoints)

/-- A string that is not blank. -/
def nonEmptyString : Option JsonValue → Option CodePoints
  | some (.str text) => if strip text = [] then none else some text
  | _ => none

def isHeader (header : CodePoints × JsonValue) : Bool :=
  strip header.1 ≠ [] ∧ header.2 matches .str _

/-- `None` for a value that is not there or null, and no value for one that breaks the rule. -/
def headersOf : Option JsonValue → Option (Option (List (CodePoints × JsonValue)))
  | none | some .null => some none
  | some (.dict headers) => if headers.all (isHeader strip) then some (some headers) else none
  | some _ => none

def insecureOf : Option JsonValue → Option (Option Bool)
  | none | some .null => some none
  | some (.bool insecure) => some (some insecure)
  | some _ => none

/-- `_positive_number` -/
def positiveNumber : JsonValue → Option FloatValue
  | .int value => (Governance.floatOfInt value).toOption.filter fun _ => 0 < value
  | .float (.finite value) => if 0 < value then some (.finite value) else none
  | _ => none

def timeoutOf : Option JsonValue → Option (Option FloatValue)
  | none | some .null => some none
  | some value => (positiveNumber value).map some

/-- `_validate_destination`: the normalized destination, when no rule is broken. -/
def validateDestination : JsonValue → Option Destination
  | .dict fields => do
      let name ← nonEmptyString strip (get fields (ofString "name"))
      let protocol ← match get fields (ofString "protocol") with
        | some (.str protocol) => some (lower protocol)
        | _ => none
      guard (protocol ∈ supportedProtocols)
      let endpoint ← nonEmptyString strip (get fields (ofString "endpoint"))
      let headers ← headersOf strip (get fields (ofString "headers"))
      let insecure ← insecureOf (get fields (ofString "insecure"))
      let timeout ← timeoutOf (get fields (ofString "timeout"))
      some
        { name := strip name, protocol, endpoint := strip endpoint, headers, insecure, timeout }
  | _ => none

/-- `_configured_destinations`: of a key that is not there there are none either. -/
def configuredDestinations (raw : Option CodePoints) : Option (List Destination) := do
  match loads (← raw) with
  | .value (.list items) =>
      let destinations ← items.mapM (validateDestination strip lower)
      if destinations ≠ [] ∧ (destinations.map Destination.name).Nodup then some destinations
      else none
  | _ => none

end Validation

/-! ### The exporters -/

inductive Signal where
  | trace
  | metric
  | log
deriving DecidableEq

/-- One that was built, in the attempt with this number. -/
structure Exporter where
  attempt : ℕ
  signal : Signal
  name : CodePoints
deriving DecidableEq

/-- Of an HTTP destination for traces. -/
structure Recorder where
  attempt : ℕ
  name : CodePoints
deriving DecidableEq

structure State where
  attempts : ℕ
  /-- `_last_destinations_raw` -/
  raw : Option CodePoints
  exporters : Signal → List Exporter
  /-- `_partial_success_recorders` -/
  recorders : List Recorder
  built : List Exporter
  shutDown : List Exporter

/-- What one poll meets: what Redis has under the key, if it answers, and the constructors that
raise. -/
structure Poll where
  read : Option (Option CodePoints)
  raises : Signal → CodePoints → Bool

inductive Outcome where
  /-- the value is the last accepted one -/
  | current
  | rejected
  | reloaded
deriving DecidableEq

def exportersOf (attempt : ℕ) (destinations : List Destination) (signal : Signal) :
    List Exporter :=
  destinations.map fun destination => ⟨attempt, signal, destination.name⟩

def recordersOf (attempt : ℕ) (destinations : List Destination) : List Recorder :=
  (destinations.filter fun destination => destination.protocol ≠ ofString "grpc").map
    fun destination => ⟨attempt, destination.name⟩

/-- One signal's `_build_exporters`: all of them, or, when a constructor raises, those that were
built before it and are shut down. -/
def buildExporters (attempt : ℕ) (raises : CodePoints → Bool) (signal : Signal) :
    List Destination → Except (List Exporter) (List Exporter)
  | [] => .ok []
  | destination :: destinations =>
      if raises destination.name then .error []
      else
        let exporter : Exporter := ⟨attempt, signal, destination.name⟩
        match buildExporters attempt raises signal destinations with
        | .ok built => .ok (exporter :: built)
        | .error built => .error (exporter :: built)

def State.discard (state : State) (built : List Exporter) : State :=
  { state with built := state.built ++ built, shutDown := state.shutDown ++ built }

def State.keep (state : State) (built : List Exporter) : State :=
  { state with built := state.built ++ built }

section Reload

variable (loads : CodePoints → Loaded) (strip lower : CodePoints → CodePoints)

/-- Builds the exporters of all signals; the recorders are replaced with the trace exporters. -/
def buildAll (state : State) (destinations : List Destination)
    (raises : Signal → CodePoints → Bool) : State × Bool :=
  match buildExporters state.attempts (raises .trace) .trace destinations with
  | .error built => (state.discard built, false)
  | .ok traces =>
      let traced :=
        { state.keep traces with recorders := recordersOf state.attempts destinations }
      match buildExporters state.attempts (raises .metric) .metric destinations with
      | .error built => (traced.discard built, false)
      | .ok metrics =>
          match buildExporters state.attempts (raises .log) .log destinations with
          | .error built => ((traced.keep metrics).discard built, false)
          | .ok logs => ((traced.keep metrics).keep logs, true)

def State.next (state : State) : State :=
  { state with attempts := state.attempts + 1 }

/-- `_reload_destinations_if_changed` -/
def reload (state : State) (poll : Poll) : State × Outcome :=
  match poll.read with
  | none => (state, .rejected)
  | some raw =>
      if raw = state.raw then (state, .current)
      else
        match configuredDestinations loads strip lower raw with
        | none => (state.next, .rejected)
        | some destinations =>
            match buildAll state destinations poll.raises with
            | (built, false) => (built.next, .rejected)
            | (built, true) =>
                ({ built.next with
                  raw
                  exporters := exportersOf state.attempts destinations
                  shutDown := built.shutDown ++ state.exporters .trace ++ state.exporters .metric ++
                    state.exporters .log }, .reloaded)

/-- Before `main` has built any. -/
def empty (raw : Option CodePoints) : State where
  attempts := 0
  raw := raw
  exporters := fun _ => []
  recorders := []
  built := []
  shutDown := []

/-- How `main` starts: without a usable value it exports nothing. -/
def start (raw : Option CodePoints) (raises : Signal → CodePoints → Bool) : State :=
  match configuredDestinations loads strip lower raw with
  | none => (empty raw).next
  | some destinations =>
      match buildAll (empty raw) destinations raises with
      | (built, false) => built.next
      | (built, true) => { built.next with exporters := exportersOf 0 destinations }

def system : TransitionSystem State Poll where
  step state poll := some (reload loads strip lower state poll).1

/-! ### What a reload promises -/

/-- The exporters, the accepted value and the recorders are those from before, and what was built
meanwhile has been shut down. -/
structure Unchanged (before after : State) : Prop where
  exporters : after.exporters = before.exporters
  raw : after.raw = before.raw
  recorders : after.recorders = before.recorders
  discarded : ∀ exporter ∈ after.built, exporter ∉ before.built → exporter ∈ after.shutDown

/-- Exporters and recorders are of the configuration that was read. -/
def Together (before : State) (poll : Poll) (after : State) : Prop :=
  ∃ destinations, poll.read = some after.raw ∧
    configuredDestinations loads strip lower after.raw = some destinations ∧
    after.exporters = exportersOf before.attempts destinations ∧
    after.recorders = recordersOf before.attempts destinations

def Clean (before : State) (poll : Poll) (after : State) : Prop :=
  if (reload loads strip lower before poll).2 = .reloaded then
    Together loads strip lower before poll after
  else Unchanged before after

/-- All trace exporters are built, and then one for metrics or logs is not. -/
def FailsLate (before : State) (poll : Poll) : Prop :=
  ∃ raw destinations, poll.read = some raw ∧ raw ≠ before.raw ∧
    configuredDestinations loads strip lower raw = some destinations ∧
    (∀ destination ∈ destinations, poll.raises .trace destination.name = false) ∧
    ∃ destination ∈ destinations,
      poll.raises .metric destination.name ∨ poll.raises .log destination.name

end Reload

/-! ### What is built -/

section Build

variable {attempt : ℕ} {raises : CodePoints → Bool} {signal : Signal}
  {destinations : List Destination}

theorem buildExporters_of_none (attempt : ℕ) (signal : Signal)
    (hnone : ∀ destination ∈ destinations, raises destination.name = false) :
    buildExporters attempt raises signal destinations =
      .ok (exportersOf attempt destinations signal) := by
  induction destinations with
  | nil => rfl
  | cons destination destinations ih =>
      obtain ⟨hfirst, hrest⟩ := List.forall_mem_cons.mp hnone
      rw [buildExporters, hfirst, ih hrest]
      rfl

/-- Those built before the one that raised are of this attempt and signal. -/
theorem buildExporters_of_some (attempt : ℕ) (signal : Signal)
    (hsome : ∃ destination ∈ destinations, raises destination.name = true) :
    ∃ built, buildExporters attempt raises signal destinations = .error built ∧
      ∀ exporter ∈ built, exporter.attempt = attempt ∧ exporter.signal = signal := by
  induction destinations with
  | nil =>
      obtain ⟨destination, hmem, -⟩ := hsome
      cases hmem
  | cons destination destinations ih =>
      rw [buildExporters]
      by_cases hfirst : raises destination.name = true
      · exact ⟨[], if_pos hfirst, fun _ hmem => (nomatch hmem)⟩
      · have hlater : ∃ later ∈ destinations, raises later.name = true := by
          obtain ⟨later, hmem, hraises⟩ := hsome
          rcases List.mem_cons.mp hmem with rfl | hmem
          · exact absurd hraises hfirst
          · exact ⟨later, hmem, hraises⟩
        obtain ⟨built, hbuilt, hall⟩ := ih hlater
        rw [if_neg hfirst, hbuilt]
        exact ⟨_, rfl, List.forall_mem_cons.mpr ⟨⟨rfl, rfl⟩, hall⟩⟩

theorem exists_or_forall (raises : CodePoints → Bool) (destinations : List Destination) :
    (∃ destination ∈ destinations, raises destination.name = true) ∨
      ∀ destination ∈ destinations, raises destination.name = false := by
  by_cases hsome : ∃ destination ∈ destinations, raises destination.name = true
  · exact .inl hsome
  · push Not at hsome
    exact .inr fun destination hmem => eq_false_of_ne_true (hsome destination hmem)

theorem of_mem_exportersOf {exporter : Exporter}
    (hmem : exporter ∈ exportersOf attempt destinations signal) :
    exporter.attempt = attempt ∧ exporter.signal = signal := by
  obtain ⟨destination, -, rfl⟩ := List.mem_map.mp hmem
  exact ⟨rfl, rfl⟩

end Build

/-- What is remembered of exporters is of attempts that have been made. -/
structure Fresh (state : State) : Prop where
  built : ∀ exporter ∈ state.built, exporter.attempt < state.attempts
  shutDown : ∀ exporter ∈ state.shutDown, exporter.attempt < state.attempts
  exporters : ∀ signal, ∀ exporter ∈ state.exporters signal, exporter.attempt < state.attempts

section BuildAll

variable {state : State} {destinations : List Destination} {raises : Signal → CodePoints → Bool}

/-- The outcomes of building for all three signals. -/
theorem buildAll_cases (state : State) (destinations : List Destination)
    (raises : Signal → CodePoints → Bool) :
    ((∃ destination ∈ destinations, raises .trace destination.name = true) ∧
      ∃ built, buildAll state destinations raises = (state.discard built, false) ∧
        ∀ exporter ∈ built, exporter.attempt = state.attempts) ∨
    ((∀ destination ∈ destinations, raises .trace destination.name = false) ∧
      (∃ destination ∈ destinations,
        raises .metric destination.name = true ∨ raises .log destination.name = true) ∧
      ∃ kept discarded, buildAll state destinations raises =
          (({ state.keep (exportersOf state.attempts destinations .trace) with
              recorders := recordersOf state.attempts destinations }.keep kept).discard discarded,
            false) ∧
        (∀ exporter ∈ kept, exporter.attempt = state.attempts) ∧
        ∀ exporter ∈ discarded, exporter.attempt = state.attempts ∧ exporter.signal ≠ .trace) ∨
    ((∀ destination ∈ destinations, raises .trace destination.name = false) ∧
      (∀ destination ∈ destinations,
        raises .metric destination.name = false ∧ raises .log destination.name = false) ∧
      ∃ kept, buildAll state destinations raises =
          ({ state.keep kept with recorders := recordersOf state.attempts destinations }, true) ∧
        ∀ exporter ∈ kept, exporter.attempt = state.attempts) := by
  rcases exists_or_forall (raises .trace) destinations with htrace | htrace
  · left
    obtain ⟨built, hbuilt, hall⟩ :=
      buildExporters_of_some state.attempts .trace htrace
    refine ⟨htrace, built, ?_, fun exporter hmem => (hall exporter hmem).1⟩
    rw [buildAll, hbuilt]
  right
  have htraces := buildExporters_of_none state.attempts .trace htrace
  rcases exists_or_forall (raises .metric) destinations with hmetric | hmetric
  · left
    obtain ⟨built, hbuilt, hall⟩ :=
      buildExporters_of_some state.attempts .metric hmetric
    refine ⟨htrace, ?_, [], built, ?_, fun _ hmem => (nomatch hmem), ?_⟩
    · obtain ⟨destination, hmem, hraises⟩ := hmetric
      exact ⟨destination, hmem, .inl hraises⟩
    · rw [buildAll, htraces, hbuilt]
      simp [State.keep, State.discard]
    · intro exporter hmem
      exact ⟨(hall exporter hmem).1, by rw [(hall exporter hmem).2]; decide⟩
  have hmetrics := buildExporters_of_none state.attempts .metric hmetric
  rcases exists_or_forall (raises .log) destinations with hlog | hlog
  · left
    obtain ⟨built, hbuilt, hall⟩ :=
      buildExporters_of_some state.attempts .log hlog
    refine ⟨htrace, ?_, exportersOf state.attempts destinations .metric, built, ?_, ?_, ?_⟩
    · obtain ⟨destination, hmem, hraises⟩ := hlog
      exact ⟨destination, hmem, .inr hraises⟩
    · rw [buildAll, htraces, hmetrics, hbuilt]
    · exact fun exporter hmem => (of_mem_exportersOf hmem).1
    · intro exporter hmem
      exact ⟨(hall exporter hmem).1, by rw [(hall exporter hmem).2]; decide⟩
  · right
    have hlogs := buildExporters_of_none state.attempts .log hlog
    refine ⟨htrace, fun destination hmem => ⟨hmetric destination hmem, hlog destination hmem⟩,
      exportersOf state.attempts destinations .trace ++
        exportersOf state.attempts destinations .metric ++
          exportersOf state.attempts destinations .log, ?_, ?_⟩
    · rw [buildAll, htraces, hmetrics, hlogs]
      simp [State.keep, List.append_assoc]
    · intro exporter hmem
      rcases List.mem_append.mp hmem with hmem | hmem
      · rcases List.mem_append.mp hmem with hmem | hmem
        · exact (of_mem_exportersOf hmem).1
        · exact (of_mem_exportersOf hmem).1
      · exact (of_mem_exportersOf hmem).1

end BuildAll

/-! ### Reloads -/

section Reloads

variable {loads : CodePoints → Loaded} {strip lower : CodePoints → CodePoints}

theorem destinations_ne_nil {raw : Option CodePoints} {destinations : List Destination}
    (hconfigured : configuredDestinations loads strip lower raw = some destinations) :
    destinations ≠ [] := by
  obtain ⟨text, -, hparsed⟩ := Option.bind_eq_some_iff.mp hconfigured
  split at hparsed
  case h_2 => cases hparsed
  case h_1 =>
    obtain ⟨validated, -, hvalidated⟩ := Option.bind_eq_some_iff.mp hparsed
    split_ifs at hvalidated with hallowed
    cases hvalidated
    exact hallowed.1

theorem Fresh.mono {state after : State} (hfresh : Fresh state) (added discarded : List Exporter)
    (hadded : ∀ exporter ∈ added, exporter.attempt = state.attempts)
    (hdiscarded : ∀ exporter ∈ discarded, exporter.attempt ≤ state.attempts)
    (hbuilt : after.built = state.built ++ added)
    (hshutDown : after.shutDown = state.shutDown ++ discarded)
    (hattempts : after.attempts = state.attempts + 1)
    (hexporters : ∀ signal, ∀ exporter ∈ after.exporters signal,
      exporter.attempt ≤ state.attempts) : Fresh after where
  built := by
    intro exporter hmem
    rw [hbuilt] at hmem
    rw [hattempts]
    rcases List.mem_append.mp hmem with hmem | hmem
    · exact Nat.lt_succ_of_lt (hfresh.built exporter hmem)
    · exact Nat.lt_succ_of_le (hadded exporter hmem).le
  shutDown := by
    intro exporter hmem
    rw [hshutDown] at hmem
    rw [hattempts]
    rcases List.mem_append.mp hmem with hmem | hmem
    · exact Nat.lt_succ_of_lt (hfresh.shutDown exporter hmem)
    · exact Nat.lt_succ_of_le (hdiscarded exporter hmem)
  exporters := by
    intro signal exporter hmem
    rw [hattempts]
    exact Nat.lt_succ_of_le (hexporters signal exporter hmem)

theorem Fresh.next {state : State} (hfresh : Fresh state) : Fresh state.next :=
  hfresh.mono [] [] (by simp) (by simp) (List.append_nil _).symm
    (List.append_nil _).symm rfl fun signal exporter hmem =>
      (hfresh.exporters signal exporter hmem).le

theorem unchanged_next (state : State) : Unchanged state state.next where
  exporters := rfl
  raw := rfl
  recorders := rfl
  discarded := fun _ hmem hnew => absurd hmem hnew

theorem not_failsLate_of_configured {state : State} {poll : Poll} {raw : Option CodePoints}
    (hread : poll.read = some raw)
    (hconfigured : configuredDestinations loads strip lower raw = none) :
    ¬ FailsLate loads strip lower state poll := by
  rintro ⟨other, destinations, hother, -, hsome, -⟩
  rw [hread] at hother
  cases hother
  rw [hconfigured] at hsome
  cases hsome

/-- A reload that builds nothing has nothing to leave behind. -/
theorem clean_iff_of_kept {state : State} {poll : Poll} {outcome : Outcome}
    (hreload : reload loads strip lower state poll = (state, outcome))
    (houtcome : outcome ≠ .reloaded) (hlate : ¬ FailsLate loads strip lower state poll) :
    Clean loads strip lower state poll state ↔ ¬ FailsLate loads strip lower state poll := by
  refine iff_of_true ?_ hlate
  rw [Clean, hreload, if_neg houtcome]
  exact ⟨rfl, rfl, rfl, fun _ hmem hnew => absurd hmem hnew⟩

/-- The poll reads valid destinations that are not the accepted ones. -/
structure Reads (loads : CodePoints → Loaded) (strip lower : CodePoints → CodePoints)
    (state : State) (poll : Poll) (raw : Option CodePoints) (destinations : List Destination) :
    Prop where
  read : poll.read = some raw
  changed : raw ≠ state.raw
  configured : configuredDestinations loads strip lower raw = some destinations

section Reads

variable {state : State} {poll : Poll} {raw : Option CodePoints} {destinations : List Destination}

theorem Reads.reload_rejected (hreads : Reads loads strip lower state poll raw destinations)
    {built : State} (hbuild : buildAll state destinations poll.raises = (built, false)) :
    reload loads strip lower state poll = (built.next, .rejected) := by
  rw [reload, hreads.read]
  dsimp only
  rw [if_neg hreads.changed, hreads.configured]
  dsimp only
  rw [hbuild]

theorem Reads.reload_reloaded (hreads : Reads loads strip lower state poll raw destinations)
    {built : State} (hbuild : buildAll state destinations poll.raises = (built, true)) :
    reload loads strip lower state poll =
      ({ built.next with
        raw
        exporters := exportersOf state.attempts destinations
        shutDown := built.shutDown ++ state.exporters .trace ++ state.exporters .metric ++
          state.exporters .log }, .reloaded) := by
  rw [reload, hreads.read]
  dsimp only
  rw [if_neg hreads.changed, hreads.configured]
  dsimp only
  rw [hbuild]

theorem Reads.failsLate_iff (hreads : Reads loads strip lower state poll raw destinations) :
    FailsLate loads strip lower state poll ↔
      (∀ destination ∈ destinations, poll.raises .trace destination.name = false) ∧
        ∃ destination ∈ destinations,
          poll.raises .metric destination.name ∨ poll.raises .log destination.name := by
  constructor
  · rintro ⟨other, others, hother, -, hsome, hlate⟩
    rw [hreads.read] at hother
    cases hother
    rw [hreads.configured] at hsome
    cases hsome
    exact hlate
  · exact fun hlate => ⟨raw, destinations, hreads.read, hreads.changed, hreads.configured, hlate⟩

/-- Exporters of this attempt and of earlier ones, whichever were kept. -/
theorem mem_three {exporter : Exporter} {first second third : List Exporter}
    {property : Exporter → Prop} (hfirst : ∀ exporter ∈ first, property exporter)
    (hsecond : ∀ exporter ∈ second, property exporter)
    (hthird : ∀ exporter ∈ third, property exporter)
    (hmem : exporter ∈ first ++ second ++ third) : property exporter := by
  rcases List.mem_append.mp hmem with hmem | hmem
  · rcases List.mem_append.mp hmem with hmem | hmem
    · exact hfirst exporter hmem
    · exact hsecond exporter hmem
  · exact hthird exporter hmem

/-- A trace exporter was not built. -/
theorem reload_spec_of_trace (hfresh : Fresh state)
    (hreads : Reads loads strip lower state poll raw destinations) {built : List Exporter}
    (htrace : ∃ destination ∈ destinations, poll.raises .trace destination.name = true)
    (hbuild : buildAll state destinations poll.raises = (state.discard built, false))
    (hbuilt : ∀ exporter ∈ built, exporter.attempt = state.attempts) :
    Fresh (reload loads strip lower state poll).1 ∧
      (Clean loads strip lower state poll (reload loads strip lower state poll).1 ↔
        ¬ FailsLate loads strip lower state poll) := by
  have hreload := hreads.reload_rejected hbuild
  rw [hreload]
  constructor
  · exact hfresh.mono built built hbuilt (fun exporter hmem => (hbuilt exporter hmem).le) rfl rfl
      rfl fun signal exporter hmem => (hfresh.exporters signal exporter hmem).le
  · refine iff_of_true ?_ ?_
    · rw [Clean, hreload, if_neg (fun hreloaded => nomatch hreloaded)]
      refine ⟨rfl, rfl, rfl, fun exporter hmem hnew => ?_⟩
      exact List.mem_append_right _ ((List.mem_append.mp hmem).resolve_left hnew)
    · rw [hreads.failsLate_iff]
      rintro ⟨hnone, -⟩
      obtain ⟨destination, hmem, hraises⟩ := htrace
      rw [hnone destination hmem] at hraises
      cases hraises

/-- The new trace exporters are left running. -/
theorem reload_spec_of_late (hfresh : Fresh state)
    (hreads : Reads loads strip lower state poll raw destinations) {kept discarded : List Exporter}
    (hlate : FailsLate loads strip lower state poll)
    (hbuild : buildAll state destinations poll.raises =
      (({ state.keep (exportersOf state.attempts destinations .trace) with
          recorders := recordersOf state.attempts destinations }.keep kept).discard discarded,
        false))
    (hkept : ∀ exporter ∈ kept, exporter.attempt = state.attempts)
    (hdiscarded : ∀ exporter ∈ discarded,
      exporter.attempt = state.attempts ∧ exporter.signal ≠ .trace) :
    Fresh (reload loads strip lower state poll).1 ∧
      (Clean loads strip lower state poll (reload loads strip lower state poll).1 ↔
        ¬ FailsLate loads strip lower state poll) := by
  have hreload := hreads.reload_rejected hbuild
  rw [hreload]
  constructor
  · refine hfresh.mono (exportersOf state.attempts destinations .trace ++ kept ++ discarded)
      discarded ?_ (fun exporter hmem => (hdiscarded exporter hmem).1.le) ?_ rfl rfl ?_
    · intro exporter hmem
      exact mem_three (fun exporter hmem => (of_mem_exportersOf hmem).1) hkept
        (fun exporter hmem => (hdiscarded exporter hmem).1) hmem
    · rw [← List.append_assoc, ← List.append_assoc]
      rfl
    · exact fun signal exporter hmem => (hfresh.exporters signal exporter hmem).le
  · refine iff_of_false ?_ (not_not.mpr hlate)
    rw [Clean, hreload, if_neg (fun hreloaded => nomatch hreloaded)]
    intro hunchanged
    obtain ⟨destination, hmem⟩ :=
      List.exists_mem_of_ne_nil _ (destinations_ne_nil hreads.configured)
    let exporter : Exporter := ⟨state.attempts, .trace, destination.name⟩
    have hexporter : exporter ∈ exportersOf state.attempts destinations .trace :=
      List.mem_map.mpr ⟨destination, hmem, rfl⟩
    have hnew : exporter ∉ state.built := fun hbuilt =>
      absurd (hfresh.built exporter hbuilt) (Nat.lt_irrefl _)
    have hbuilt : exporter ∈ ((state.built ++
        exportersOf state.attempts destinations .trace) ++ kept) ++ discarded :=
      List.mem_append_left _ (List.mem_append_left _ (List.mem_append_right _ hexporter))
    have hshutDown : exporter ∈ state.shutDown ++ discarded :=
      hunchanged.discarded exporter hbuilt hnew
    rcases List.mem_append.mp hshutDown with hold | hdiscard
    · exact absurd (hfresh.shutDown exporter hold) (Nat.lt_irrefl _)
    · exact (hdiscarded exporter hdiscard).2 rfl

/-- Everything was built. -/
theorem reload_spec_of_all (hfresh : Fresh state)
    (hreads : Reads loads strip lower state poll raw destinations) {kept : List Exporter}
    (hall : ∀ destination ∈ destinations,
      poll.raises .metric destination.name = false ∧ poll.raises .log destination.name = false)
    (hbuild : buildAll state destinations poll.raises =
      ({ state.keep kept with recorders := recordersOf state.attempts destinations }, true))
    (hkept : ∀ exporter ∈ kept, exporter.attempt = state.attempts) :
    Fresh (reload loads strip lower state poll).1 ∧
      (Clean loads strip lower state poll (reload loads strip lower state poll).1 ↔
        ¬ FailsLate loads strip lower state poll) := by
  have hreload := hreads.reload_reloaded hbuild
  rw [hreload]
  constructor
  · refine hfresh.mono kept (state.exporters .trace ++ state.exporters .metric ++
      state.exporters .log) hkept ?_ rfl ?_ rfl fun signal exporter hmem =>
        (of_mem_exportersOf hmem).1.le
    · intro exporter hmem
      have hold (signal : Signal) : ∀ exporter ∈ state.exporters signal,
          exporter.attempt ≤ state.attempts :=
        fun exporter hmem => (hfresh.exporters signal exporter hmem).le
      exact mem_three (hold .trace) (hold .metric) (hold .log) hmem
    · rw [← List.append_assoc, ← List.append_assoc]
      rfl
  · refine iff_of_true ?_ ?_
    · rw [Clean, hreload, if_pos rfl]
      exact ⟨destinations, hreads.read, hreads.configured, rfl, rfl⟩
    · rw [hreads.failsLate_iff]
      rintro ⟨-, destination, hmem, hraises⟩
      obtain ⟨hmetric, hlog⟩ := hall destination hmem
      rw [hmetric, hlog] at hraises
      exact hraises.elim Bool.false_ne_true Bool.false_ne_true

end Reads

theorem reload_spec (state : State) (poll : Poll) (hfresh : Fresh state) :
    Fresh (reload loads strip lower state poll).1 ∧
      (Clean loads strip lower state poll (reload loads strip lower state poll).1 ↔
        ¬ FailsLate loads strip lower state poll) := by
  cases hread : poll.read with
  | none =>
      have hreload : reload loads strip lower state poll = (state, .rejected) := by
        rw [reload, hread]
      have hlate : ¬ FailsLate loads strip lower state poll := by
        rintro ⟨raw, destinations, hsome, -⟩
        rw [hread] at hsome
        cases hsome
      rw [hreload]
      exact ⟨hfresh, clean_iff_of_kept hreload (by decide) hlate⟩
  | some raw =>
      by_cases hraw : raw = state.raw
      case pos =>
        have hreload : reload loads strip lower state poll = (state, .current) := by
          rw [reload, hread]
          exact if_pos hraw
        have hlate : ¬ FailsLate loads strip lower state poll := by
          rintro ⟨other, destinations, hother, hchanged, -⟩
          rw [hread] at hother
          cases hother
          exact hchanged hraw
        rw [hreload]
        exact ⟨hfresh, clean_iff_of_kept hreload (by decide) hlate⟩
      cases hconfigured : configuredDestinations loads strip lower raw with
      | none =>
          have hreload : reload loads strip lower state poll = (state.next, .rejected) := by
            rw [reload, hread]
            dsimp only
            rw [if_neg hraw, hconfigured]
          rw [hreload]
          refine ⟨hfresh.next, iff_of_true ?_ (not_failsLate_of_configured hread hconfigured)⟩
          rw [Clean, hreload, if_neg (fun hreloaded => nomatch hreloaded)]
          exact unchanged_next state
      | some destinations =>
          have hreads : Reads loads strip lower state poll raw destinations :=
            ⟨hread, hraw, hconfigured⟩
          rcases buildAll_cases state destinations poll.raises with
            ⟨htrace, built, hbuild, hbuilt⟩ |
            ⟨htrace, hlater, kept, discarded, hbuild, hkept, hdiscarded⟩ |
            ⟨-, hall, kept, hbuild, hkept⟩
          · exact reload_spec_of_trace hfresh hreads htrace hbuild hbuilt
          · have hlate := hreads.failsLate_iff.mpr ⟨htrace, hlater⟩
            exact reload_spec_of_late hfresh hreads hlate hbuild hkept hdiscarded
          · exact reload_spec_of_all hfresh hreads hall hbuild hkept

theorem fresh_start (raw : Option CodePoints) (raises : Signal → CodePoints → Bool) :
    Fresh (start loads strip lower raw raises) := by
  have hempty : Fresh (empty raw) :=
    ⟨fun _ hmem => (nomatch hmem), fun _ hmem => (nomatch hmem), fun _ _ hmem => (nomatch hmem)⟩
  unfold start
  split
  case h_1 => exact hempty.next
  case h_2 destinations hconfigured =>
    rcases buildAll_cases (empty raw) destinations raises with
      ⟨-, built, hbuild, hbuilt⟩ | ⟨-, -, kept, discarded, hbuild, hkept, hdiscarded⟩ |
        ⟨-, -, kept, hbuild, hkept⟩
    · rw [hbuild]
      exact hempty.mono built built hbuilt (fun exporter hmem => (hbuilt exporter hmem).le) rfl rfl
        rfl fun _ _ hmem => (nomatch hmem)
    · rw [hbuild]
      refine hempty.mono (exportersOf 0 destinations .trace ++ kept ++ discarded) discarded
        (fun exporter hmem => ?_) (fun exporter hmem => (hdiscarded exporter hmem).1.le) rfl rfl rfl
        fun _ _ hmem => (nomatch hmem)
      exact mem_three (fun exporter hmem => (of_mem_exportersOf hmem).1) hkept
        (fun exporter hmem => (hdiscarded exporter hmem).1) hmem
    · rw [hbuild]
      exact hempty.mono kept [] hkept (by simp) rfl rfl rfl
        fun signal exporter hmem => (of_mem_exportersOf hmem).1.le

end Reloads

/-- For all the values that the key has one after another, and all the failures. -/
theorem reloads_clean_iff (loads : CodePoints → Loaded) (strip lower : CodePoints → CodePoints)
    (raw : Option CodePoints) (raises : Signal → CodePoints → Bool) (polls : List Poll) :
    (system loads strip lower).Along (Clean loads strip lower)
        (start loads strip lower raw raises) polls ↔
      (system loads strip lower).Guarded
        (fun before poll => ¬ FailsLate loads strip lower before poll)
        (start loads strip lower raw raises) polls := by
  refine (system loads strip lower).along_iff_of_invariant Fresh ?_ ?_ polls
    (fresh_start raw raises)
  · intro state poll next hfresh hstep
    cases hstep
    exact (reload_spec state poll hfresh).2
  · intro state poll next hfresh hstep _
    cases hstep
    exact (reload_spec state poll hfresh).1

/-! ### A metric exporter that is not built -/

def destinationsText (name : String) : CodePoints :=
  ofString ("[\x7b\"name\": \"" ++ name ++
    "\", \"protocol\": \"http\", \"endpoint\": \"http://collector:4318\"\x7d]")

def destinationsJson (name : String) : JsonValue :=
  .list [.dict [
    (ofString "name", .str (ofString name)),
    (ofString "protocol", .str (ofString "http")),
    (ofString "endpoint", .str (ofString "http://collector:4318"))]]

/-- `json.loads` of these two. -/
def loadsTwo (text : CodePoints) : Loaded :=
  if text = destinationsText "first" then .value (destinationsJson "first")
  else if text = destinationsText "second" then .value (destinationsJson "second")
  else .valueError

def same (text : CodePoints) : CodePoints := text

/-- The second destination's metric exporter can't be built. -/
def metricRaises : Poll where
  read := some (some (destinationsText "second"))
  raises := fun signal _ => signal = .metric

def running : State :=
  start loadsTwo same same (some (destinationsText "first")) fun _ _ => false

theorem not_clean_metricRaises :
    ¬ (system loadsTwo same same).Along (Clean loadsTwo same same) running [metricRaises] := by
  intro halong
  have hclean : Clean loadsTwo same same running metricRaises
      (reload loadsTwo same same running metricRaises).1 := halong.1
  have hrejected : (reload loadsTwo same same running metricRaises).2 ≠ .reloaded := by
    decide +kernel
  rw [Clean, if_neg hrejected] at hclean
  have hrecorders := hclean.recorders
  revert hrecorders
  decide +kernel

end CanyonOS.Destinations
