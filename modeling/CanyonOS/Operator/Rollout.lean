import Mathlib
import CanyonOS.Record

/-!
# Surge updates

What the operator asks of a StatefulSet, decided from the pods it sees.
-/

namespace CanyonOS.Operator

structure PodCondition where
  type : String
  status : String
deriving DecidableEq

/-- What a pod list shows of a pod. `revision` is its `revisionLabel`, empty where it has none. -/
structure Pod where
  name : String
  revision : String
  deletionTimestamp : Option Time := none
  conditions : List PodCondition := []
deriving DecidableEq

def podReady : String := "Ready"

def conditionTrue : String := "True"

/-- A pod that takes calls: ready and not shutting down. Only its first `Ready` condition counts. -/
def podServing (pod : Pod) : Bool :=
  pod.deletionTimestamp.isNone &&
    match pod.conditions.find? (·.type = podReady) with
    | some condition => condition.status = conditionTrue
    | none => false

/-- `strings.CutPrefix`. -/
def cutLead (text lead : String) : Option String :=
  if lead.toList <+: text.toList then
    some (String.ofList (text.toList.drop lead.toList.length))
  else none

def digits (text : List Char) : Option Nat :=
  if text ≠ [] ∧ text.all Char.isDigit then some (Nat.ofDigitChars 10 text 0) else none

/-- `strconv.Atoi`: an optional sign and decimal digits, within an `int`. -/
def atoi (text : String) : Option Int :=
  let value : Option Int :=
    match text.toList with
    | '-' :: rest => (digits rest).map fun value => -(value : Int)
    | '+' :: rest => (digits rest).map Int.ofNat
    | rest => (digits rest).map Int.ofNat
  value.filter fun value => -2 ^ 63 ≤ value ∧ value < 2 ^ 63

/-- A replica's ordinal in its StatefulSet. -/
def podIndex (workload : String) (pod : Pod) : Option Int :=
  (cutLead pod.name (workload ++ "-")).bind atoi

/-- What a surge update asks for: how many replicas to run, which old pod to replace next, and how
many pods are still on an old revision. -/
structure Rollout where
  replicas : Int32
  replace : Option Pod := none
  pending : Nat := 0
deriving DecidableEq

/-- What `planRollout` counts in its loop over the pods. -/
structure Survey where
  old : List Pod := []
  newReady : Nat := 0
  newTotal : Nat := 0
  stopping : Bool := false
  serving : Nat := 0
  surging : Bool := false

/-- One pass of the loop. -/
def Survey.count (desired : Int32) (updateRevision workload : String) (survey : Survey)
    (pod : Pod) : Survey :=
  match podIndex workload pod with
  | none => survey
  | some index =>
      let survey :=
        if desired.toInt ≤ index ∧ pod.deletionTimestamp = none then
          { survey with surging := true }
        else if index < desired.toInt ∧ podServing pod then
          { survey with serving := survey.serving + 1 }
        else survey
      if pod.revision ≠ updateRevision then
        -- a stopping old pod is still to be replaced
        { survey with
          old := survey.old ++ [pod]
          stopping := survey.stopping || pod.deletionTimestamp.isSome }
      else if pod.deletionTimestamp.isSome then
        { survey with stopping := true }
      else
        { survey with
          newTotal := survey.newTotal + 1
          newReady := if podServing pod then survey.newReady + 1 else survey.newReady }

/-- The index a pod is sorted by. -/
def sortIndex (workload : String) (pod : Pod) : Int :=
  (podIndex workload pod).getD 0

/-- `slices.SortFunc`, the highest index first. It is not stable: which of two pods of one index
comes first is left open. -/
structure SortFunc (workload : String) where
  sort : List Pod → List Pod
  perm : ∀ pods, (sort pods).Perm pods
  ordered : ∀ pods, (sort pods).Pairwise fun first second =>
    sortIndex workload second ≤ sortIndex workload first

def planRollout {workload : String} (sortFunc : SortFunc workload) (desired : Int32)
    (updateRevision : String) (pods : List Pod) : Rollout :=
  let survey := pods.foldl (Survey.count desired updateRevision workload) {}
  if desired = 0 ∨ updateRevision = "" then { replicas := desired }
  else if survey.old = [] then
    if survey.surging ∧ survey.serving < desired.toInt then { replicas := desired + 1 }
    else { replicas := desired }
  else
    let plan : Rollout := { replicas := desired + 1, pending := survey.old.length }
    if survey.stopping ∨ survey.newTotal = 0 ∨ survey.newReady < survey.newTotal ∨
        (survey.old.length + survey.newTotal : Int) < plan.replicas.toInt then
      plan
    else { plan with replace := (sortFunc.sort survey.old).head? }

/-! ### What the loop counts -/

section Counted

variable (desired : Int32) (updateRevision workload : String)

/-- The loop looks only at pods that have an ordinal. -/
def Listed (pod : Pod) : Prop :=
  (podIndex workload pod).isSome

def IsOld (pod : Pod) : Prop :=
  Listed workload pod ∧ pod.revision ≠ updateRevision

def IsNew (pod : Pod) : Prop :=
  Listed workload pod ∧ pod.revision = updateRevision ∧ pod.deletionTimestamp = none

def Stopping (pod : Pod) : Prop :=
  Listed workload pod ∧ pod.deletionTimestamp.isSome

/-- A replica below `desired` that serves. -/
def ServesBelow (pod : Pod) : Prop :=
  (∃ index ∈ podIndex workload pod, index < desired.toInt) ∧ podServing pod

def Surges (pod : Pod) : Prop :=
  (∃ index ∈ podIndex workload pod, desired.toInt ≤ index) ∧ pod.deletionTimestamp = none

instance : DecidablePred (Listed workload) := fun _ => inferInstanceAs (Decidable (_ = true))

instance : DecidablePred (IsOld updateRevision workload) := fun _ =>
  inferInstanceAs (Decidable (_ ∧ _))

instance : DecidablePred (IsNew updateRevision workload) := fun _ =>
  inferInstanceAs (Decidable (_ ∧ _))

instance : DecidablePred (Stopping workload) := fun _ => inferInstanceAs (Decidable (_ ∧ _))

instance : DecidablePred (ServesBelow desired workload) := fun _ =>
  inferInstanceAs (Decidable (_ ∧ _))

instance : DecidablePred (Surges desired workload) := fun _ =>
  inferInstanceAs (Decidable (_ ∧ _))

/-- The pods `planRollout` lists as old. -/
def oldPods (pods : List Pod) : List Pod :=
  pods.filter (IsOld updateRevision workload)

def newPods (pods : List Pod) : List Pod :=
  pods.filter (IsNew updateRevision workload)

variable {desired updateRevision workload}

theorem deletionTimestamp_of_serving {pod : Pod} (hserving : podServing pod) :
    pod.deletionTimestamp = none := by
  rw [podServing, Bool.and_eq_true, Option.isNone_iff_eq_none] at hserving
  exact hserving.1

/-- What a survey says after the pods, from what it said before them. -/
structure Surveyed (desired : Int32) (updateRevision workload : String) (before after : Survey)
    (pods : List Pod) : Prop where
  old : after.old = before.old ++ oldPods updateRevision workload pods
  newTotal : after.newTotal = before.newTotal + (newPods updateRevision workload pods).length
  newReady : after.newReady =
    before.newReady + (newPods updateRevision workload pods).countP podServing
  stopping : after.stopping = (before.stopping || pods.any (Stopping workload))
  serving : after.serving = before.serving + pods.countP (ServesBelow desired workload)
  surging : after.surging = (before.surging || pods.any (Surges desired workload))

theorem surveyed_count (survey : Survey) (pod : Pod) :
    Surveyed desired updateRevision workload survey
      (survey.count desired updateRevision workload pod) [pod] := by
  cases hindex : podIndex workload pod with
  | none =>
      constructor <;>
        simp [Survey.count, hindex, oldPods, newPods, IsOld, IsNew, Listed, Stopping, ServesBelow,
          Surges]
  | some index =>
      have hbelow : desired.toInt ≤ index ↔ ¬ index < desired.toInt := Int.not_lt.symm
      cases hdeletion : pod.deletionTimestamp with
      | none =>
          by_cases hrevision : pod.revision = updateRevision <;>
            by_cases hlt : index < desired.toInt <;>
            cases hserving : podServing pod <;> constructor <;>
            simp [Survey.count, hindex, hdeletion, hrevision, hlt, hserving, hbelow, oldPods,
              newPods, IsOld, IsNew, Listed, Stopping, ServesBelow, Surges]
      | some time =>
          have hserving : podServing pod = false := by simp [podServing, hdeletion]
          by_cases hrevision : pod.revision = updateRevision <;> constructor <;>
            simp [Survey.count, hindex, hdeletion, hrevision, hserving, oldPods, newPods, IsOld,
              IsNew, Listed, Stopping, ServesBelow, Surges]

theorem Surveyed.trans {first second third : Survey} {pods pods' : List Pod}
    (hpods : Surveyed desired updateRevision workload first second pods)
    (hpods' : Surveyed desired updateRevision workload second third pods') :
    Surveyed desired updateRevision workload first third (pods ++ pods') where
  old := by rw [hpods'.old, hpods.old, List.append_assoc, oldPods, oldPods, oldPods,
    List.filter_append]
  newTotal := by rw [hpods'.newTotal, hpods.newTotal, Nat.add_assoc, newPods, newPods, newPods,
    List.filter_append, List.length_append]
  newReady := by rw [hpods'.newReady, hpods.newReady, Nat.add_assoc, newPods, newPods, newPods,
    List.filter_append, List.countP_append]
  stopping := by rw [hpods'.stopping, hpods.stopping, Bool.or_assoc, List.any_append]
  serving := by rw [hpods'.serving, hpods.serving, Nat.add_assoc, List.countP_append]
  surging := by rw [hpods'.surging, hpods.surging, Bool.or_assoc, List.any_append]

variable (desired updateRevision workload) in
/-- The loop over the pods counts what it should. -/
theorem surveyed_foldl (survey : Survey) (pods : List Pod) :
    Surveyed desired updateRevision workload survey
      (pods.foldl (Survey.count desired updateRevision workload) survey) pods := by
  induction pods generalizing survey with
  | nil => constructor <;> simp [oldPods, newPods]
  | cons pod pods ih =>
      rw [List.foldl_cons]
      exact (surveyed_count survey pod).trans (ih _)

end Counted

/-! ### Which pod is replaced, and when -/

section Plan

variable {workload : String} (sortFunc : SortFunc workload) (desired : Int32)
variable (updateRevision : String) (pods : List Pod)

/-- An old pod is to be replaced now: no pod stops, the new ones serve, and one more than `desired`
exists. -/
def ReplacesNext (desired : Int32) (updateRevision workload : String) (pods : List Pod) : Prop :=
  desired ≠ 0 ∧ updateRevision ≠ "" ∧ oldPods updateRevision workload pods ≠ [] ∧
    (∀ pod ∈ pods, ¬ Stopping workload pod) ∧ newPods updateRevision workload pods ≠ [] ∧
    (∀ pod ∈ newPods updateRevision workload pods, podServing pod) ∧
    (desired + 1).toInt ≤
      (oldPods updateRevision workload pods).length + (newPods updateRevision workload pods).length

instance : Decidable (ReplacesNext desired updateRevision workload pods) :=
  inferInstanceAs (Decidable (_ ∧ _))

/-- The checks of `planRollout` that keep it from naming a pod. -/
theorem holds_back_iff (hdesired : desired ≠ 0) (hrevision : updateRevision ≠ "")
    (hold : oldPods updateRevision workload pods ≠ []) :
    (pods.any (Stopping workload) = true ∨ (newPods updateRevision workload pods).length = 0 ∨
        (newPods updateRevision workload pods).countP podServing <
          (newPods updateRevision workload pods).length ∨
        ((oldPods updateRevision workload pods).length +
          (newPods updateRevision workload pods).length : Int) < (desired + 1).toInt) ↔
      ¬ ReplacesNext desired updateRevision workload pods := by
  have hready : (newPods updateRevision workload pods).countP podServing <
        (newPods updateRevision workload pods).length ↔
      ¬ ∀ pod ∈ newPods updateRevision workload pods, podServing pod := by
    rw [← List.countP_eq_length]
    exact List.countP_le_length.lt_iff_ne
  have hstopping : pods.any (Stopping workload) = true ↔
      ¬ ∀ pod ∈ pods, ¬ Stopping workload pod := by
    simp
  rw [hstopping, hready, List.length_eq_zero_iff, ← Int.not_le, ReplacesNext]
  tauto

/-- The plan, said of the list instead of its survey. -/
theorem planRollout_eq :
    planRollout sortFunc desired updateRevision pods =
      if desired = 0 ∨ updateRevision = "" then { replicas := desired }
      else if oldPods updateRevision workload pods = [] then
        if (∃ pod ∈ pods, Surges desired workload pod) ∧
            (pods.countP (ServesBelow desired workload) : Int) < desired.toInt then
          { replicas := desired + 1 }
        else { replicas := desired }
      else
        { replicas := desired + 1
          pending := (oldPods updateRevision workload pods).length
          replace :=
            if ReplacesNext desired updateRevision workload pods then
              (sortFunc.sort (oldPods updateRevision workload pods)).head?
            else none } := by
  obtain ⟨hold, htotal, hready, hstopping, hserving, hsurging⟩ :=
    surveyed_foldl desired updateRevision workload {} pods
  unfold planRollout
  simp only [hold, htotal, hready, hstopping, hserving, hsurging, List.nil_append, Nat.zero_add,
    Bool.false_or]
  by_cases hnone : desired = 0 ∨ updateRevision = ""
  · rw [if_pos hnone, if_pos hnone]
  · rw [if_neg hnone, if_neg hnone]
    by_cases hnoOld : oldPods updateRevision workload pods = []
    · simp only [hnoOld, if_true, List.any_eq_true, decide_eq_true_eq]
    · rw [if_neg hnoOld, if_neg hnoOld]
      rw [not_or] at hnone
      have hback := holds_back_iff desired updateRevision pods hnone.1 hnone.2 hnoOld
      by_cases hnext : ReplacesNext desired updateRevision workload pods
      · rw [if_neg (mt hback.mp (not_not_intro hnext)), if_pos hnext]
      · rw [if_pos (hback.mpr hnext), if_neg hnext]

/-- The pod to replace is the first of the old ones in the sorted order. -/
theorem planRollout_replace :
    (planRollout sortFunc desired updateRevision pods).replace =
      if ReplacesNext desired updateRevision workload pods then
        (sortFunc.sort (oldPods updateRevision workload pods)).head?
      else none := by
  rw [planRollout_eq]
  by_cases hnext : ReplacesNext desired updateRevision workload pods
  · obtain ⟨hdesired, hrevision, hold, -⟩ := hnext
    rw [if_neg (not_or.mpr ⟨hdesired, hrevision⟩), if_neg hold]
  · rw [if_neg hnext]
    split_ifs <;> rfl

end Plan

/-! ### Capacity -/

section Capacity

/-- Taking away the pod the plan names leaves `desired` others serving, if it serves. -/
def KeepsCapacity (desired : Int32) (pods : List Pod) (plan : Rollout) : Prop :=
  ∀ pod, plan.replace = some pod → podServing pod →
    desired.toInt ≤ ((pods.erase pod).countP podServing : Int)

instance (desired : Int32) (pods : List Pod) (plan : Rollout) :
    Decidable (KeepsCapacity desired pods plan) :=
  match hreplace : plan.replace with
  | none => isTrue (by simp [KeepsCapacity, hreplace])
  | some pod =>
      decidable_of_iff
        (podServing pod → desired.toInt ≤ ((pods.erase pod).countP podServing : Int))
        (by simp [KeepsCapacity, hreplace])

/-- No pod of the list is sorted before this one. -/
def Highest (workload : String) (pods : List Pod) (pod : Pod) : Prop :=
  pod ∈ pods ∧ ∀ other ∈ pods, sortIndex workload other ≤ sortIndex workload pod

instance (workload : String) (pods : List Pod) (pod : Pod) :
    Decidable (Highest workload pods pod) :=
  inferInstanceAs (Decidable (_ ∧ _))

variable (desired : Int32) (updateRevision workload : String) (pods : List Pod)

/-- Pods without an ordinal, which the plan does not count. -/
def strayPods : List Pod :=
  pods.filter fun pod => ¬ Listed workload pod

/-- If an old pod that serves is next, the old pods that do not serve are fewer than the pods there
are beyond `desired`. -/
def CapacityToSpare : Prop :=
  ReplacesNext desired updateRevision workload pods →
  (∃ pod, Highest workload (oldPods updateRevision workload pods) pod ∧ podServing pod) →
    ((oldPods updateRevision workload pods).countP (fun pod => ¬ podServing pod) : Int) +
        desired.toInt <
      (oldPods updateRevision workload pods).length +
        (newPods updateRevision workload pods).length +
        (strayPods workload pods).countP podServing

variable {desired updateRevision workload pods}

variable (updateRevision) in
/-- While no pod stops, the pods that serve are old ones, new ones and strays. -/
theorem countP_podServing (hnone : ∀ pod ∈ pods, ¬ Stopping workload pod) :
    pods.countP podServing =
      (oldPods updateRevision workload pods).countP podServing +
        (newPods updateRevision workload pods).countP podServing +
        (strayPods workload pods).countP podServing := by
  induction pods with
  | nil => rfl
  | cons pod pods ih =>
      rw [List.forall_mem_cons] at hnone
      obtain ⟨hpod, hnone⟩ := hnone
      have ih := ih hnone
      simp only [oldPods, newPods, strayPods] at ih ⊢
      by_cases hlisted : Listed workload pod
      · have hrunning : pod.deletionTimestamp = none := by
          simpa [Stopping, hlisted] using hpod
        by_cases hrevision : pod.revision = updateRevision <;> cases hserving : podServing pod <;>
          simp [IsOld, IsNew, hlisted, hrunning, hrevision, hserving, ih] <;>
          omega
      · cases hserving : podServing pod with
        | false => simp [IsOld, IsNew, hlisted, hserving, ih]
        | true =>
            simp [IsOld, IsNew, hlisted, hserving, ih]
            omega

/-- Sorting puts a pod of the highest index first. -/
theorem SortFunc.highest_of_head? (sortFunc : SortFunc workload) {pod : Pod}
    (hhead : (sortFunc.sort pods).head? = some pod) : Highest workload pods pod := by
  obtain ⟨rest, hsorted⟩ : ∃ rest, sortFunc.sort pods = pod :: rest := by
    cases hsort : sortFunc.sort pods with
    | nil => simp [hsort] at hhead
    | cons first rest =>
        rw [hsort] at hhead
        cases hhead
        exact ⟨rest, rfl⟩
  have hperm := sortFunc.perm pods
  have hordered := sortFunc.ordered pods
  rw [hsorted] at hperm hordered
  refine ⟨hperm.mem_iff.mp List.mem_cons_self, ?_⟩
  intro other hother
  rcases List.mem_cons.mp (hperm.mem_iff.mpr hother) with rfl | hrest
  · exact le_refl _
  · exact List.rel_of_pairwise_cons hordered hrest

def HigherFirst (workload : String) (first second : Pod) : Prop :=
  sortIndex workload second ≤ sortIndex workload first

instance : DecidableRel (HigherFirst workload) := fun _ _ => inferInstanceAs (Decidable (_ ≤ _))

instance : Std.Total (HigherFirst workload) := ⟨fun _ _ => le_total _ _⟩

instance : IsTrans Pod (HigherFirst workload) := ⟨fun _ _ _ hfirst hsecond => hsecond.trans hfirst⟩

/-- Sorting by insertion, as short lists are, but with one pod put first where the order allows. -/
def SortFunc.preferring (workload : String) (pod : Pod) : SortFunc workload where
  sort pods :=
    if Highest workload pods pod then
      pod :: (pods.erase pod).insertionSort (HigherFirst workload)
    else pods.insertionSort (HigherFirst workload)
  perm pods := by
    split_ifs with hhighest
    · exact ((List.perm_insertionSort _ _).cons pod).trans (List.perm_cons_erase hhighest.1).symm
    · exact List.perm_insertionSort _ _
  ordered pods := by
    split_ifs with hhighest
    · refine List.Pairwise.cons ?_ (List.pairwise_insertionSort (HigherFirst workload) _)
      intro other hother
      rw [List.mem_insertionSort] at hother
      exact hhighest.2 other (List.mem_of_mem_erase hother)
    · exact List.pairwise_insertionSort (HigherFirst workload) _

/-- Two replicas wanted: the higher old one serves and the lower does not. -/
def halfReady : List Pod :=
  [{ name := "helloagent-0", revision := "helloagent-old" },
    { name := "helloagent-1", revision := "helloagent-old"
      conditions := [⟨podReady, conditionTrue⟩] },
    { name := "helloagent-2", revision := "helloagent-new"
      conditions := [⟨podReady, conditionTrue⟩] }]

end Capacity

end CanyonOS.Operator
