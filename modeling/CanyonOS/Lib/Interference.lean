import Mathlib.Logic.Basic

/-!
# A program among others

A sequential program works on a state that others change too. Before each of its commands the
others take any number of steps, and the command may fail in place of running. What the others do
is an input, so a program is a function of it, and quantifying over it quantifies over every
interleaving.
-/

namespace Interference

/-- What happens at one command: the steps of the others before it, and whether it fails. -/
structure Turn (Step : Type) where
  steps : List Step := []
  fails : Bool := false

structure World (State Step : Type) where
  state : State
  /-- the turns of the commands to come; none where the others are done -/
  turns : List (Turn Step) := []

/-- A failing command ends the program, as an exception that nobody catches does. -/
abbrev Program (State Step α : Type) := EStateM Unit (World State Step) α

variable {State Step α β : Type} {advance : State → Step → State}

/-- One command, after the others' steps. -/
def command (advance : State → Step → State) (run : State → α × State) : Program State Step α :=
  fun world =>
    match world.turns with
    | [] => .ok (run world.state).1 ⟨(run world.state).2, []⟩
    | turn :: turns =>
        let state := turn.steps.foldl advance world.state
        if turn.fails then .error () ⟨state, turns⟩
        else .ok (run state).1 ⟨(run state).2, turns⟩

/-! ### Assertions -/

/-- Run from a state of `pre`, the program answers in one of `post` or fails in one of `abort`,
whatever the others do. -/
def Triple (pre : State → Prop) (program : Program State Step α) (post : α → State → Prop)
    (abort : State → Prop) : Prop :=
  ∀ world, pre world.state →
    match program world with
    | .ok answer next => post answer next.state
    | .error _ next => abort next.state

/-- No step of the others makes the assertion false. -/
def Stable (advance : State → Step → State) (assertion : State → Prop) : Prop :=
  ∀ state step, assertion state → assertion (advance state step)

theorem Stable.foldl {assertion : State → Prop} (hstable : Stable advance assertion)
    (steps : List Step) {state : State} (hstate : assertion state) :
    assertion (steps.foldl advance state) := by
  induction steps generalizing state with
  | nil => exact hstate
  | cons step steps ih => exact ih (hstable state step hstate)

theorem Stable.and {left right : State → Prop} (hleft : Stable advance left)
    (hright : Stable advance right) : Stable advance fun state => left state ∧ right state := by
  intro state step hstate
  exact ⟨hleft state step hstate.1, hright state step hstate.2⟩

theorem Stable.forall {ι : Sort*} {assertion : ι → State → Prop}
    (hstable : ∀ index, Stable advance (assertion index)) :
    Stable advance fun state => ∀ index, assertion index state := by
  intro state step hstate index
  exact hstable index state step (hstate index)

theorem Stable.const (fact : Prop) : Stable advance fun _ => fact := by
  intro _ _ hfact
  exact hfact

namespace Triple

variable {pre abort : State → Prop} {post : α → State → Prop}

theorem weaken {program : Program State Step α} {pre' : State → Prop} {post' : α → State → Prop}
    (htriple : Triple pre program post abort) (hpre : ∀ state, pre' state → pre state)
    (hpost : ∀ answer state, post answer state → post' answer state) :
    Triple pre' program post' abort := by
  intro world hworld
  have hrun := htriple world (hpre _ hworld)
  cases hprogram : program world with
  | ok answer next =>
      rw [hprogram] at hrun
      exact hpost answer next.state hrun
  | error _ next =>
      rw [hprogram] at hrun
      exact hrun

/-- What is assumed may name values of the state the program starts from. -/
theorem exists_pre {ι : Sort*} {program : Program State Step α} {pre : ι → State → Prop}
    (htriple : ∀ index, Triple (pre index) program post abort) :
    Triple (fun state => ∃ index, pre index state) program post abort := by
  rintro world ⟨index, hworld⟩
  exact htriple index world hworld

theorem pure (answer : α) (hpre : ∀ state, pre state → post answer state) :
    Triple pre (Pure.pure answer : Program State Step α) post abort := by
  intro world hworld
  exact hpre _ hworld

theorem bind {program : Program State Step α} {next : α → Program State Step β}
    {after : β → State → Prop} (hprogram : Triple pre program post abort)
    (hnext : ∀ answer, Triple (post answer) (next answer) after abort) :
    Triple pre (program >>= next) after abort := by
  intro world hworld
  have hfirst := hprogram world hworld
  change match EStateM.bind program next world with
    | .ok answer final => after answer final.state
    | .error _ final => abort final.state
  unfold EStateM.bind
  cases hrun : program world with
  | ok answer middle =>
      rw [hrun] at hfirst
      exact hnext answer middle hfirst
  | error _ middle =>
      rw [hrun] at hfirst
      exact hfirst

/-- A command: the others' steps keep what holds before it. -/
theorem command {run : State → α × State} (hstable : Stable advance pre)
    (hrun : ∀ state, pre state → post (run state).1 (run state).2)
    (habort : ∀ state, pre state → abort state) :
    Triple pre (Interference.command advance run) post abort := by
  intro world hworld
  unfold Interference.command
  cases world.turns with
  | nil => exact hrun _ hworld
  | cons turn turns =>
      have hturn := hstable.foldl turn.steps hworld
      cases hfails : turn.fails with
      | true =>
          simp only [hfails, if_true]
          exact habort _ hturn
      | false =>
          simp only [hfails, Bool.false_eq_true, if_false]
          exact hrun _ hturn

/-- A `for` loop that runs over the whole list. The invariant speaks of the elements done. -/
theorem forIn (inv : List α → β → State → Prop) {body : α → β → Program State Step (ForInStep β)}
    (elements : List α) (init : β)
    (hbody : ∀ done element rest acc, elements = done ++ element :: rest →
      Triple (inv done acc) (body element acc)
        (fun step state => ∃ acc', step = .yield acc' ∧ inv (done ++ [element]) acc' state) abort) :
    Triple (inv [] init) (ForIn.forIn elements init body) (inv elements) abort := by
  have hrest : ∀ rest done acc, elements = done ++ rest →
      Triple (inv done acc) (ForIn.forIn rest acc body) (inv elements) abort := by
    intro rest
    induction rest with
    | nil =>
        intro done acc hsplit
        rw [List.append_nil] at hsplit
        subst hsplit
        rw [List.forIn_nil]
        exact pure acc fun _ hstate => hstate
    | cons element rest ih =>
        intro done acc hsplit
        rw [List.forIn_cons]
        apply bind (hbody done element rest acc hsplit)
        intro step world hworld
        obtain ⟨acc', rfl, hinv⟩ := hworld
        exact ih (done ++ [element]) acc' (by simpa using hsplit) world hinv
  exact hrest elements [] init rfl

end Triple

end Interference
