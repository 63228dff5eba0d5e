import Mathlib
import CanyonOS.Controller.Governance
import CanyonOS.Lib.TransitionSystem

/-!
# Saving and seeding the governance document

Dashboards save one agent's rules in a transaction that watches `governance:config`; a deploy reads
the key and sets it. Each command is a step of its own. The document is a valid one throughout.
-/

namespace CanyonOS.Seeding

open CodePoints JsonValue Governance

abbrev Object (Value : Type) := AList fun _ : CodePoints => Value

structure Document where
  agents : Object AgentRules
  others : Object JsonValue

/-- `parse_config` of a key that is not there. -/
def Document.ofStored (stored : Option Document) : Document :=
  stored.getD { agents := ∅, others := ∅ }

/-- What a dashboard saves for an agent. -/
structure Body where
  requires : List CodePoints
  spend : Option Spend

def storedSince (stored : Option AgentRules) : Option CodePoints := do
  let rules ← stored
  let spend ← rules.spend.join
  spend.since

/-- The callback of `save_agent_rules`. -/
def Body.rules (body : Body) (stored : Option AgentRules) (now : CodePoints) : AgentRules where
  requires := some body.requires
  spend := some (body.spend.map fun spend =>
    { spend with since := some ((spend.since.or (storedSince stored)).getD now) })

def Document.save (config : Document) (agent : CodePoints) (rules : AgentRules) : Document :=
  { config with agents := config.agents.insert agent rules }

def stamp (rules : AgentRules) (now : CodePoints) : AgentRules :=
  match rules.spend with
  | some (some spend) => { rules with
      spend := some (some { spend with since := some (spend.since.getD now) }) }
  | _ => rules

def seedAgents (agents : Object AgentRules) (fromYaml : List (CodePoints × AgentRules))
    (now : CodePoints) : Object AgentRules :=
  fromYaml.foldl (fun agents (name, rules) =>
    if name ∈ agents then agents else agents.insert name (stamp rules now)) agents

def seed (existing : Option Document) (fromYaml : List (CodePoints × AgentRules))
    (now : CodePoints) : Document where
  agents := seedAgents (Document.ofStored existing).agents fromYaml now
  others := ∅

/-- `SAVE_ATTEMPTS` -/
def saveAttempts : ℕ := 5

/-- Where `write_agent_rules` stands. -/
inductive Saving where
  | watches
  | reads (watched : ℕ)
  | execs (watched : ℕ) (config : Document) (rules : AgentRules)

/-- Where `_seed_governance` stands, and how many saves there were when it read the document. -/
inductive Deploying where
  | reads
  | sets (existing : Option Document) (saves : ℕ)

inductive Party where
  | idle
  | saving (agent : CodePoints) (body : Body) (attempt : ℕ) (step : Saving)
  | deploying (fromYaml : List (CodePoints × AgentRules)) (step : Deploying)
  | ended

structure State (PartyId : Type*) where
  stored : Option Document
  /-- of the key; a transaction that watched it compares them -/
  writes : ℕ
  parties : PartyId → Party
  /-- the successful ones, newest first -/
  saves : List (CodePoints × AgentRules)

inductive Action (PartyId : Type*) where
  | saves (party : PartyId) (agent : CodePoints) (body : Body)
  | deploys (party : PartyId) (fromYaml : List (CodePoints × AgentRules))
  | watches (party : PartyId)
  | reads (party : PartyId) (now : CodePoints)
  | execs (party : PartyId)
  | sets (party : PartyId) (now : CodePoints)
  /-- an error or a kill -/
  | stops (party : PartyId)

section Step

variable {PartyId : Type*} [DecidableEq PartyId] (state : State PartyId)

def State.set (party : PartyId) (next : Party) : State PartyId :=
  { state with parties := Function.update state.parties party next }

def State.document : Document :=
  Document.ofStored state.stored

def readStep (party : PartyId) (now : CodePoints) : Option (State PartyId) :=
  match state.parties party with
  | .saving agent body attempt (.reads watched) =>
      let rules := body.rules (state.document.agents.lookup agent) now
      some (state.set party (.saving agent body attempt (.execs watched state.document rules)))
  | .deploying fromYaml .reads =>
      some (state.set party (.deploying fromYaml (.sets state.stored state.saves.length)))
  | _ => none

def execStep (party : PartyId) : Option (State PartyId) :=
  match state.parties party with
  | .saving agent body attempt (.execs watched config rules) =>
      if watched = state.writes then
        some ({ state with
          stored := some (config.save agent rules)
          writes := state.writes + 1
          saves := (agent, rules) :: state.saves }.set party .ended)
      else if attempt + 1 < saveAttempts then
        some (state.set party (.saving agent body (attempt + 1) .watches))
      else some (state.set party .ended)
  | _ => none

def step (state : State PartyId) : Action PartyId → Option (State PartyId)
  | .saves party agent body =>
      match state.parties party with
      | .idle => some (state.set party (.saving agent body 0 .watches))
      | _ => none
  | .deploys party fromYaml =>
      match state.parties party with
      | .idle => some (state.set party (.deploying fromYaml .reads))
      | _ => none
  | .watches party =>
      match state.parties party with
      | .saving agent body attempt .watches =>
          some (state.set party (.saving agent body attempt (.reads state.writes)))
      | _ => none
  | .reads party now => readStep state party now
  | .execs party => execStep state party
  | .sets party now =>
      match state.parties party with
      | .deploying fromYaml (.sets existing _) =>
          some ({ state with
            stored := some (seed existing fromYaml now)
            writes := state.writes + 1 }.set party .ended)
      | _ => none
  | .stops party => some (state.set party .ended)

def initial (stored : Option Document) : State PartyId where
  stored := stored
  writes := 0
  parties _ := .idle
  saves := []

def system (PartyId : Type*) [DecidableEq PartyId] :
    TransitionSystem (State PartyId) (Action PartyId) where
  step := step

end Step

section Claims

variable {PartyId : Type*}

/-- Every agent saved so far has the rules of its last save, and the step has taken nothing out of
the document. -/
def NotLost (before : State PartyId) (_ : Action PartyId) (after : State PartyId) : Prop :=
  (∀ agent rules, after.saves.lookup agent = some rules →
    after.document.agents.lookup agent = some rules) ∧
  (∀ agent ∈ before.document.agents, agent ∈ after.document.agents) ∧
  after.document.others = before.document.others

/-- When a deploy sets the document, no save has succeeded since it read it, an agent that has come
into it since is one of its own, and there is no other top-level key. -/
def InTime (state : State PartyId) : Action PartyId → Prop
  | .sets party _ =>
      match state.parties party with
      | .deploying fromYaml (.sets existing saves) =>
          saves = state.saves.length ∧
          (∀ agent ∈ state.document.agents, agent ∈ (Document.ofStored existing).agents ∨
            agent ∈ fromYaml.map Prod.fst) ∧
          (Document.ofStored existing).others = ∅
      | _ => True
  | _ => True

end Claims

/-! ### Seeding keeps what it read -/

section Seeding

variable {agents : Object AgentRules} {fromYaml : List (CodePoints × AgentRules)}
  {now agent : CodePoints}

theorem lookup_seedAgents (hagent : agent ∈ agents) :
    (seedAgents agents fromYaml now).lookup agent = agents.lookup agent := by
  induction fromYaml generalizing agents with
  | nil => rfl
  | cons entry fromYaml ih =>
      obtain ⟨name, rules⟩ := entry
      rw [seedAgents, List.foldl_cons]
      dsimp only
      split_ifs with hname
      · exact ih hagent
      · have hne : agent ≠ name := fun heq => hname (heq ▸ hagent)
        have hinsert : agent ∈ agents.insert name (stamp rules now) :=
          (AList.mem_insert _).mpr (Or.inr hagent)
        exact (ih hinsert).trans (AList.lookup_insert_ne hne)

theorem mem_seedAgents_of_mem (hagent : agent ∈ agents) :
    agent ∈ seedAgents agents fromYaml now := by
  rw [← AList.lookup_isSome, lookup_seedAgents hagent]
  exact AList.lookup_isSome.mpr hagent

theorem mem_seedAgents_of_mem_yaml (hagent : agent ∈ fromYaml.map Prod.fst) :
    agent ∈ seedAgents agents fromYaml now := by
  induction fromYaml generalizing agents with
  | nil => cases hagent
  | cons entry fromYaml ih =>
      obtain ⟨name, rules⟩ := entry
      rw [seedAgents, List.foldl_cons]
      dsimp only
      rw [List.map_cons, List.mem_cons] at hagent
      obtain rfl | hrest := hagent
      · split_ifs with hname
        · exact mem_seedAgents_of_mem hname
        · exact mem_seedAgents_of_mem ((AList.mem_insert _).mpr (Or.inl rfl))
      · exact ih hrest

end Seeding

/-! ### What holds while every step is in time -/

section Consistent

variable {PartyId : Type*} {state next : State PartyId} {party : PartyId}

/-- What a party may have read. -/
def Fits (state : State PartyId) : Party → Prop
  | .saving _ _ _ (.reads watched) => watched ≤ state.writes
  | .saving _ _ _ (.execs watched config _) =>
      watched ≤ state.writes ∧ (watched = state.writes → config = state.document)
  | .deploying _ (.sets existing saves) =>
      (Document.ofStored existing).others = state.document.others ∧ saves ≤ state.saves.length ∧
        (saves = state.saves.length → ∀ agent rules, state.saves.lookup agent = some rules →
          (Document.ofStored existing).agents.lookup agent = some rules)
  | _ => True

structure Consistent (state : State PartyId) : Prop where
  saved : ∀ agent rules, state.saves.lookup agent = some rules →
    state.document.agents.lookup agent = some rules
  parties : ∀ party, Fits state (state.parties party)

/-- A write makes every transaction fail that watched the key before it. -/
theorem Fits.of_write {read : Party} (hfits : Fits state read)
    (hwrites : next.writes = state.writes + 1)
    (hothers : next.document.others = state.document.others)
    (hsaves : next.saves = state.saves ∨ next.saves.length = state.saves.length + 1) :
    Fits next read := by
  cases read with
  | saving agent body attempt step =>
      cases step with
      | watches => trivial
      | reads watched =>
          have hle : watched ≤ state.writes := hfits
          rw [Fits, hwrites]
          omega
      | execs watched config rules =>
          have hle : watched ≤ state.writes := hfits.1
          rw [Fits, hwrites]
          constructor
          · omega
          · intro heq
            omega
  | deploying fromYaml step =>
      cases step with
      | reads => trivial
      | sets existing saves =>
          obtain ⟨hsame, hle, hsaved⟩ := hfits
          rw [Fits, hothers]
          refine ⟨hsame, ?_⟩
          obtain hkept | hmore := hsaves
          · rw [hkept]
            exact ⟨hle, hsaved⟩
          · rw [hmore]
            constructor
            · omega
            · intro heq
              omega
  | idle => trivial
  | ended => trivial

variable [DecidableEq PartyId]

theorem consistent_set {after : Party} (hconsistent : Consistent state) (hfits : Fits state after) :
    Consistent (state.set party after) := by
  refine ⟨hconsistent.saved, ?_⟩
  intro other
  show Fits state (Function.update state.parties party after other)
  by_cases heq : other = party
  · rw [heq, Function.update_self]
    exact hfits
  · rw [Function.update_of_ne heq]
    exact hconsistent.parties other

theorem notLost_set {action : Action PartyId} {after : Party} (hconsistent : Consistent state) :
    NotLost state action (state.set party after) :=
  ⟨hconsistent.saved, fun _ hagent => hagent, rfl⟩

/-- A party that ends with a write. -/
theorem consistent_write (hconsistent : Consistent state) {action : Action PartyId}
    (hwrites : next.writes = state.writes + 1) (hparties : next.parties = state.parties)
    (hsaves : next.saves = state.saves ∨ next.saves.length = state.saves.length + 1)
    (hlost : NotLost state action next) :
    Consistent (next.set party .ended) ∧ NotLost state action (next.set party .ended) := by
  refine ⟨consistent_set ⟨hlost.1, ?_⟩ trivial, hlost⟩
  intro other
  rw [hparties]
  exact (hconsistent.parties other).of_write hwrites hlost.2.2 hsaves

theorem consistent_exec (hconsistent : Consistent state) {action : Action PartyId}
    (hstep : execStep state party = some next) : Consistent next ∧ NotLost state action next := by
  unfold execStep at hstep
  split at hstep
  case h_1 agent body attempt watched config rules hparty =>
    split at hstep
    case isTrue hwatched =>
      cases hstep
      have hconfig : config = state.document := by
        have hfits := hconsistent.parties party
        rw [hparty] at hfits
        exact hfits.2 hwatched
      subst hconfig
      refine consistent_write hconsistent rfl rfl (Or.inr rfl) ⟨?_, ?_, rfl⟩
      · intro other saved hlast
        by_cases heq : other = agent
        · subst heq
          rw [List.lookup_cons_self] at hlast
          rw [← hlast]
          exact AList.lookup_insert _
        · rw [List.lookup_cons, beq_eq_false_iff_ne.mpr heq] at hlast
          exact (AList.lookup_insert_ne heq).trans (hconsistent.saved other saved hlast)
      · intro other hother
        exact (AList.mem_insert _).mpr (Or.inr hother)
    case isFalse =>
      split at hstep
      · cases hstep
        exact ⟨consistent_set hconsistent trivial, notLost_set hconsistent⟩
      · cases hstep
        exact ⟨consistent_set hconsistent trivial, notLost_set hconsistent⟩
  case h_2 => cases hstep

theorem consistent_read {now : CodePoints} (hconsistent : Consistent state)
    {action : Action PartyId} (hstep : readStep state party now = some next) :
    Consistent next ∧ NotLost state action next := by
  unfold readStep at hstep
  split at hstep
  case h_1 agent body attempt watched hparty =>
    cases hstep
    have hle : watched ≤ state.writes := by
      have hfits := hconsistent.parties party
      rw [hparty] at hfits
      exact hfits
    exact ⟨consistent_set hconsistent ⟨hle, fun _ => rfl⟩, notLost_set hconsistent⟩
  case h_2 =>
    cases hstep
    exact ⟨consistent_set hconsistent ⟨rfl, le_rfl, fun _ => hconsistent.saved⟩,
      notLost_set hconsistent⟩
  case h_3 => cases hstep

theorem consistent_step {action : Action PartyId} (hconsistent : Consistent state)
    (hintime : InTime state action) (hstep : step state action = some next) :
    Consistent next ∧ NotLost state action next := by
  cases action with
  | saves party agent body =>
      simp only [step] at hstep
      split at hstep
      · cases hstep
        exact ⟨consistent_set hconsistent trivial, notLost_set hconsistent⟩
      · cases hstep
  | deploys party fromYaml =>
      simp only [step] at hstep
      split at hstep
      · cases hstep
        exact ⟨consistent_set hconsistent trivial, notLost_set hconsistent⟩
      · cases hstep
  | watches party =>
      simp only [step] at hstep
      split at hstep
      · cases hstep
        exact ⟨consistent_set hconsistent le_rfl, notLost_set hconsistent⟩
      · cases hstep
  | reads party now => exact consistent_read hconsistent hstep
  | execs party => exact consistent_exec hconsistent hstep
  | sets party now =>
      simp only [step] at hstep
      split at hstep
      case h_1 fromYaml existing saves hparty =>
        cases hstep
        rw [InTime, hparty] at hintime
        obtain ⟨hsaves, hagents, hnone⟩ := hintime
        have hfits := hconsistent.parties party
        rw [hparty] at hfits
        obtain ⟨hothers, -, hsaved⟩ := hfits
        refine consistent_write hconsistent rfl rfl (Or.inl rfl) ⟨?_, ?_, ?_⟩
        · intro agent rules hlast
          -- the deploy read the document after the last save
          have hread := hsaved hsaves agent rules hlast
          have hmem : agent ∈ (Document.ofStored existing).agents := by
            rw [← AList.lookup_isSome, hread]
            rfl
          exact (lookup_seedAgents hmem).trans hread
        · intro agent hagent
          obtain hmem | hyaml := hagents agent hagent
          · exact mem_seedAgents_of_mem hmem
          · exact mem_seedAgents_of_mem_yaml hyaml
        · exact hnone.symm.trans hothers
      case h_2 => cases hstep
  | stops party =>
      cases hstep
      exact ⟨consistent_set hconsistent trivial, notLost_set hconsistent⟩

omit [DecidableEq PartyId] in
theorem consistent_initial (stored : Option Document) :
    Consistent (initial stored : State PartyId) :=
  ⟨fun _ _ hlast => (by cases hlast), fun _ => trivial⟩

end Consistent

/-! ### Runs of one dashboard and one deploy -/

def planner : CodePoints := ofString "planner"

def noRules : Body := { requires := [], spend := none }

def saveSteps : List (Action Bool) :=
  [.saves false planner noRules, .watches false, .reads false [], .execs false]

end CanyonOS.Seeding
