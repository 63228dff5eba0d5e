import Mathlib.Logic.Basic

/-!
# Guarded transition systems

The step function is partial and executable: `step state action` is `none` where the action is not
enabled. A run is a list of actions, so one definition serves to replay a schedule and to quantify
over every schedule.
-/

structure TransitionSystem (State Action : Type*) where
  step : State → Action → Option State

namespace TransitionSystem

variable {State Action : Type*} (sys : TransitionSystem State Action)

/-- The state a schedule ends in; `none` when one of its actions is not enabled at its turn. -/
def run (state : State) : List Action → Option State
  | [] => some state
  | action :: actions =>
      match sys.step state action with
      | none => none
      | some next => run next actions

/-- Every step the schedule takes satisfies `property`, which sees the state before the step, the
action and the state after it. -/
def Along (property : State → Action → State → Prop) (state : State) : List Action → Prop
  | [] => True
  | action :: actions =>
      match sys.step state action with
      | none => True
      | some next => property state action next ∧ Along property next actions

instance decidableAlong {property : State → Action → State → Prop}
    [∀ before action after, Decidable (property before action after)] :
    (state : State) → (actions : List Action) → Decidable (sys.Along property state actions)
  | _, [] => isTrue trivial
  | state, action :: actions =>
      match hstep : sys.step state action with
      | none => isTrue (by rw [Along, hstep]; trivial)
      | some next =>
          have : Decidable (sys.Along property next actions) := decidableAlong next actions
          decidable_of_iff (property state action next ∧ sys.Along property next actions)
            (by rw [Along, hstep])

/-- Every step of the schedule is taken in a state that allows it. -/
def Guarded (guard : State → Action → Prop) (state : State) (actions : List Action) : Prop :=
  sys.Along (fun before action _ => guard before action) state actions

instance {guard : State → Action → Prop} [∀ state action, Decidable (guard state action)]
    (state : State) (actions : List Action) : Decidable (sys.Guarded guard state actions) :=
  inferInstanceAs (Decidable (sys.Along _ state actions))

@[simp]
theorem run_nil (state : State) : sys.run state [] = some state := rfl

theorem run_cons_eq_some {state final : State} {action : Action} {actions : List Action} :
    sys.run state (action :: actions) = some final ↔
      ∃ next, sys.step state action = some next ∧ sys.run next actions = some final := by
  cases hstep : sys.step state action <;> simp [run, hstep]

theorem along_cons_iff {property : State → Action → State → Prop} {state : State}
    {action : Action} {actions : List Action} :
    sys.Along property state (action :: actions) ↔
      ∀ next, sys.step state action = some next →
        property state action next ∧ sys.Along property next actions := by
  cases hstep : sys.step state action <;> simp [Along, hstep]

theorem along_append_iff {property : State → Action → State → Prop} {state : State}
    {before after : List Action} :
    sys.Along property state (before ++ after) ↔
      sys.Along property state before ∧
        ∀ middle, sys.run state before = some middle → sys.Along property middle after := by
  induction before generalizing state with
  | nil => simp [Along]
  | cons action before ih =>
      rw [List.cons_append, along_cons_iff, along_cons_iff]
      constructor
      · intro halong
        constructor
        · intro next hnext
          obtain ⟨hproperty, hrest⟩ := halong next hnext
          exact ⟨hproperty, (ih.mp hrest).1⟩
        · intro middle hrun
          obtain ⟨next, hnext, hrest⟩ := sys.run_cons_eq_some.mp hrun
          exact (ih.mp (halong next hnext).2).2 middle hrest
      · rintro ⟨hbefore, hafter⟩ next hnext
        obtain ⟨hproperty, hrest⟩ := hbefore next hnext
        refine ⟨hproperty, ih.mpr ⟨hrest, fun middle hrun => ?_⟩⟩
        exact hafter middle (sys.run_cons_eq_some.mpr ⟨next, hnext, hrun⟩)

theorem run_append_eq_some {state final : State} {before after : List Action} :
    sys.run state (before ++ after) = some final ↔
      ∃ middle, sys.run state before = some middle ∧ sys.run middle after = some final := by
  induction before generalizing state with
  | nil => simp
  | cons action before ih =>
      rw [List.cons_append, run_cons_eq_some]
      constructor
      · rintro ⟨next, hnext, hrest⟩
        obtain ⟨middle, hbefore, hafter⟩ := ih.mp hrest
        exact ⟨middle, sys.run_cons_eq_some.mpr ⟨next, hnext, hbefore⟩, hafter⟩
      · rintro ⟨middle, hbefore, hafter⟩
        obtain ⟨next, hnext, hrest⟩ := sys.run_cons_eq_some.mp hbefore
        exact ⟨next, hnext, ih.mpr ⟨middle, hrest, hafter⟩⟩

theorem exists_before_last_of_along {property : State → Action → State → Prop}
    {state final : State} {actions : List Action} {last : Action}
    (halong : sys.Along property state (actions ++ [last]))
    (hrun : sys.run state (actions ++ [last]) = some final) :
    ∃ middle, sys.run state actions = some middle ∧ property middle last final := by
  obtain ⟨middle, hbefore, hlast⟩ := sys.run_append_eq_some.mp hrun
  obtain ⟨next, hnext, hfinal⟩ := sys.run_cons_eq_some.mp hlast
  cases hfinal
  have hafter := (sys.along_append_iff.mp halong).2 middle hbefore
  exact ⟨middle, hbefore, (sys.along_cons_iff.mp hafter _ hnext).1⟩

theorem exists_last_of_along {property : State → Action → State → Prop} {state final : State}
    {actions : List Action} {last : Action} (halong : sys.Along property state (actions ++ [last]))
    (hrun : sys.run state (actions ++ [last]) = some final) :
    ∃ middle, property middle last final := by
  obtain ⟨middle, -, hlast⟩ := sys.exists_before_last_of_along halong hrun
  exact ⟨middle, hlast⟩

/-- An invariant that every allowed step preserves holds at the end of every allowed run. -/
theorem invariant_run {invariant : State → Prop} {guard : State → Action → Prop}
    (hstep : ∀ state action next, invariant state → guard state action →
      sys.step state action = some next → invariant next)
    {state final : State} {actions : List Action} (hinit : invariant state)
    (hguard : sys.Guarded guard state actions) (hrun : sys.run state actions = some final) :
    invariant final := by
  induction actions generalizing state with
  | nil =>
      cases hrun
      exact hinit
  | cons action actions ih =>
      obtain ⟨next, hnext, hrest⟩ := sys.run_cons_eq_some.mp hrun
      obtain ⟨hallowed, hguard⟩ := sys.along_cons_iff.mp hguard next hnext
      exact ih (hstep state action next hinit hallowed hnext) hguard hrest

/-- An invariant that every step preserves holds at the end of every run. -/
theorem invariant_of_run {invariant : State → Prop}
    (hstep : ∀ state action next, invariant state → sys.step state action = some next →
      invariant next)
    {state final : State} {actions : List Action} (hinit : invariant state)
    (hrun : sys.run state actions = some final) : invariant final := by
  induction actions generalizing state with
  | nil =>
      cases hrun
      exact hinit
  | cons action actions ih =>
      obtain ⟨next, hnext, hrest⟩ := sys.run_cons_eq_some.mp hrun
      exact ih (hstep state action next hinit hnext) hrest

/-- A property that every allowed step from the invariant has, holds along every allowed run. -/
theorem along_of_guarded {invariant : State → Prop} {guard : State → Action → Prop}
    {property : State → Action → State → Prop}
    (hstep : ∀ state action next, invariant state → guard state action →
      sys.step state action = some next → invariant next ∧ property state action next)
    {state : State} (actions : List Action) (hinit : invariant state)
    (hguard : sys.Guarded guard state actions) : sys.Along property state actions := by
  induction actions generalizing state with
  | nil => trivial
  | cons action actions ih =>
      refine sys.along_cons_iff.mpr fun next hnext => ?_
      obtain ⟨hallowed, hguard⟩ := sys.along_cons_iff.mp hguard next hnext
      obtain ⟨hinv, hproperty⟩ := hstep state action next hinit hallowed hnext
      exact ⟨hproperty, ih hinv hguard⟩

/-- A property that every step from the invariant has, holds along every run. -/
theorem along_of_invariant {invariant : State → Prop} {property : State → Action → State → Prop}
    (hstep : ∀ state action next, invariant state → sys.step state action = some next →
      invariant next ∧ property state action next)
    {state : State} (actions : List Action) (hinit : invariant state) :
    sys.Along property state actions := by
  induction actions generalizing state with
  | nil => trivial
  | cons action actions ih =>
      apply sys.along_cons_iff.mpr
      intro next hnext
      obtain ⟨hinv, hproperty⟩ := hstep state action next hinit hnext
      exact ⟨hproperty, ih hinv⟩

/-- A weaker property of single steps holds along a schedule where a stronger one does. -/
theorem along_imp {stronger weaker : State → Action → State → Prop}
    (himp : ∀ before action after, stronger before action after → weaker before action after)
    {state : State} (actions : List Action) (halong : sys.Along stronger state actions) :
    sys.Along weaker state actions := by
  induction actions generalizing state with
  | nil => trivial
  | cons action actions ih =>
      apply sys.along_cons_iff.mpr
      intro next hnext
      obtain ⟨hproperty, hrest⟩ := sys.along_cons_iff.mp halong next hnext
      exact ⟨himp state action next hproperty, ih hrest⟩

/-- Two properties of single steps agree along a schedule when they agree at every step from a
state of the invariant, and a step with the first property keeps the invariant. -/
theorem along_iff_of_invariant (invariant : State → Prop)
    {left right : State → Action → State → Prop}
    (hiff : ∀ state action next, invariant state → sys.step state action = some next →
      (left state action next ↔ right state action next))
    (hkeep : ∀ state action next, invariant state → sys.step state action = some next →
      left state action next → invariant next)
    {state : State} (actions : List Action) (hinit : invariant state) :
    sys.Along left state actions ↔ sys.Along right state actions := by
  induction actions generalizing state with
  | nil => exact Iff.rfl
  | cons action actions ih =>
      rw [along_cons_iff, along_cons_iff]
      refine forall_congr' fun next => forall_congr' fun hnext => ?_
      constructor
      · rintro ⟨hleft, hrest⟩
        have hinv := hkeep state action next hinit hnext hleft
        exact ⟨(hiff state action next hinit hnext).mp hleft, (ih hinv).mp hrest⟩
      · rintro ⟨hright, hrest⟩
        have hleft := (hiff state action next hinit hnext).mpr hright
        have hinv := hkeep state action next hinit hnext hleft
        exact ⟨hleft, (ih hinv).mpr hrest⟩

end TransitionSystem
