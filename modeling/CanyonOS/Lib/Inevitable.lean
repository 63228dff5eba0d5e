import CanyonOS.Lib.TransitionSystem
import Mathlib.Order.WellFounded

/-!
# What every run comes to

A goal is inevitable from a state when no run can avoid it: the state has it, or it can move and
every move leads to a state it is inevitable from.
-/

namespace TransitionSystem

variable {State Action : Type*} (sys : TransitionSystem State Action)

/-- No action is enabled. -/
def Halted (state : State) : Prop :=
  ∀ action, sys.step state action = none

inductive Inevitable (goal : State → Prop) : State → Prop
  | now {state : State} : goal state → Inevitable goal state
  | later {state : State} : ¬ sys.Halted state →
      (∀ action next, sys.step state action = some next → Inevitable goal next) →
      Inevitable goal state

/-- Where every step descends, a run goes on until it halts. -/
theorem inevitable_of_descends {Rank : Type*} [Preorder Rank] [WellFoundedLT Rank]
    {invariant goal : State → Prop} (rank : State → Rank)
    (hkeep : ∀ state action next, invariant state → sys.step state action = some next →
      invariant next)
    (hdescends : ∀ state action next, invariant state → sys.step state action = some next →
      rank next < rank state)
    (hhalted : ∀ state, invariant state → sys.Halted state → goal state)
    (state : State) (hinit : invariant state) : sys.Inevitable goal state := by
  induction hrank : rank state using WellFoundedLT.induction generalizing state with
  | ind value ih =>
      by_cases hhalt : sys.Halted state
      · exact .now (hhalted state hinit hhalt)
      · refine .later hhalt ?_
        intro action next hstep
        have hlower := hdescends state action next hinit hstep
        rw [hrank] at hlower
        exact ih _ hlower next (hkeep state action next hinit hstep) rfl

/-- A trap is a set of states without the goal that no step leaves. -/
structure Trap (goal trap : State → Prop) : Prop where
  avoids : ∀ state, trap state → ¬ goal state
  closed : ∀ state action next, trap state → sys.step state action = some next → trap next

variable {sys} {goal trap : State → Prop}

theorem Trap.not_inevitable (htrap : sys.Trap goal trap) {state : State}
    (hinevitable : sys.Inevitable goal state) : ¬ trap state := by
  induction hinevitable with
  | now hgoal =>
      intro htrapped
      exact htrap.avoids _ htrapped hgoal
  | later hmoves _ ih =>
      intro htrapped
      apply hmoves
      intro action
      by_contra hstep
      obtain ⟨next, hstep⟩ := Option.ne_none_iff_exists'.mp hstep
      exact ih action next hstep (htrap.closed _ action next htrapped hstep)

/-- Where every run comes to the goal or to a trap, and the goal is an end, every run comes to the
goal exactly when none comes to the trap. -/
theorem Trap.inevitable_iff (htrap : sys.Trap goal trap)
    (hend : ∀ state, goal state → sys.Halted state) {state : State}
    (heither : sys.Inevitable (fun state => goal state ∨ trap state) state) :
    sys.Inevitable goal state ↔
      ∀ actions final, sys.run state actions = some final → ¬ trap final := by
  constructor
  · clear heither
    intro hinevitable
    induction hinevitable with
    | now hgoal =>
        intro actions final hrun
        cases actions with
        | nil =>
            cases hrun
            exact htrap.not_inevitable (.now hgoal)
        | cons action actions =>
            obtain ⟨next, hstep, -⟩ := sys.run_cons_eq_some.mp hrun
            rw [hend _ hgoal action] at hstep
            cases hstep
    | later hmoves hnext ih =>
        intro actions final hrun
        cases actions with
        | nil =>
            cases hrun
            exact htrap.not_inevitable (.later hmoves hnext)
        | cons action actions =>
            obtain ⟨next, hstep, hrest⟩ := sys.run_cons_eq_some.mp hrun
            exact ih action next hstep actions final hrest
  · intro havoids
    induction heither with
    | now hgoal =>
        exact .now (hgoal.resolve_right (havoids [] _ rfl))
    | later hmoves _ ih =>
        refine .later hmoves ?_
        intro action next hstep
        refine ih action next hstep ?_
        intro actions final hrun
        exact havoids (action :: actions) final (sys.run_cons_eq_some.mpr ⟨next, hstep, hrun⟩)

end TransitionSystem

/-- Where a rank never rises, and again and again the goal is reached or the rank falls, the goal is
reached. -/
theorem exists_of_descends_often {rank : ℕ → ℕ} {goal : ℕ → Prop} {start : ℕ}
    (hkeeps : ∀ time ≥ start, rank (time + 1) ≤ rank time)
    (hoften : ∀ time ≥ start, ∃ later ≥ time, goal (later + 1) ∨ rank (later + 1) < rank later) :
    ∃ time ≥ start, goal time := by
  have hmono : ∀ time ≥ start, ∀ later ≥ time, rank later ≤ rank time := by
    intro time htime later hlater
    induction later, hlater using Nat.le_induction with
    | base => exact le_rfl
    | succ later hlater ih => exact (hkeeps later (htime.trans hlater)).trans ih
  have hreach : ∀ value, ∀ time ≥ start, rank time = value → ∃ later ≥ start, goal later := by
    intro value
    induction value using Nat.strong_induction_on with
    | h value ih =>
        intro time htime hrank
        obtain ⟨later, hlater, hgoal | hfalls⟩ := hoften time htime
        · exact ⟨later + 1, by omega, hgoal⟩
        · have hle := hmono time htime later hlater
          exact ih (rank (later + 1)) (by omega) (later + 1) (by omega) rfl
  exact hreach (rank start) start le_rfl rfl
