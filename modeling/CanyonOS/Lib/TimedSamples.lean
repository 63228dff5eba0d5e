import Mathlib

/-!
# Summaries of timed samples

What is kept of a list of samples: their number and sum, the least and the greatest, and one of the
latest. Two summaries are merged without the samples, in any order.
-/

structure Summary (Time Value : Type*) where
  sum : Value
  count : ℕ
  min : Value
  max : Value
  lastValue : Value
  lastTime : Time

namespace Summary

variable {Time Value : Type*}

def single (time : Time) (value : Value) : Summary Time Value where
  sum := value
  count := 1
  min := value
  max := value
  lastValue := value
  lastTime := time

variable [LinearOrder Time] [AddCommMonoid Value] [LinearOrder Value]

def merge (old new : Summary Time Value) : Summary Time Value where
  sum := old.sum + new.sum
  count := old.count + new.count
  min := Min.min old.min new.min
  max := Max.max old.max new.max
  lastValue := if old.lastTime ≤ new.lastTime then new.lastValue else old.lastValue
  lastTime := Max.max old.lastTime new.lastTime

theorem merge_min (old new : Summary Time Value) :
    (old.merge new).min = Min.min old.min new.min := rfl

theorem merge_max (old new : Summary Time Value) :
    (old.merge new).max = Max.max old.max new.max := rfl

structure Summarizes (summary : Summary Time Value) (samples : List (Time × Value)) : Prop where
  count : summary.count = samples.length
  sum : summary.sum = (samples.map Prod.snd).sum
  min_mem : summary.min ∈ samples.map Prod.snd
  min_le : ∀ sample ∈ samples, summary.min ≤ sample.2
  max_mem : summary.max ∈ samples.map Prod.snd
  le_max : ∀ sample ∈ samples, sample.2 ≤ summary.max
  last_mem : (summary.lastTime, summary.lastValue) ∈ samples
  le_lastTime : ∀ sample ∈ samples, sample.1 ≤ summary.lastTime

theorem summarizes_single (time : Time) (value : Value) :
    (single time value).Summarizes [(time, value)] where
  count := rfl
  sum := by simp [single]
  min_mem := List.mem_singleton_self _
  min_le := by simp [single]
  max_mem := List.mem_singleton_self _
  le_max := by simp [single]
  last_mem := List.mem_singleton_self _
  le_lastTime := by simp [single]

namespace Summarizes

variable {summary other : Summary Time Value} {samples others : List (Time × Value)}

theorem ne_nil (hsummary : summary.Summarizes samples) : samples ≠ [] :=
  List.ne_nil_of_mem hsummary.last_mem

theorem merge (hsummary : summary.Summarizes samples) (hother : other.Summarizes others) :
    (summary.merge other).Summarizes (samples ++ others) where
  count := by rw [Summary.merge, hsummary.count, hother.count, List.length_append]
  sum := by rw [Summary.merge, hsummary.sum, hother.sum, List.map_append, List.sum_append]
  min_mem := by
    rw [List.map_append, List.mem_append, merge_min]
    rcases min_choice summary.min other.min with h | h <;> rw [h]
    · exact Or.inl hsummary.min_mem
    · exact Or.inr hother.min_mem
  min_le := by
    rw [List.forall_mem_append]
    exact ⟨fun sample hsample => min_le_of_left_le (hsummary.min_le sample hsample),
      fun sample hsample => min_le_of_right_le (hother.min_le sample hsample)⟩
  max_mem := by
    rw [List.map_append, List.mem_append, merge_max]
    rcases max_choice summary.max other.max with h | h <;> rw [h]
    · exact Or.inl hsummary.max_mem
    · exact Or.inr hother.max_mem
  le_max := by
    rw [List.forall_mem_append]
    exact ⟨fun sample hsample => le_max_of_le_left (hsummary.le_max sample hsample),
      fun sample hsample => le_max_of_le_right (hother.le_max sample hsample)⟩
  last_mem := by
    rw [List.mem_append, Summary.merge]
    dsimp only
    by_cases htime : summary.lastTime ≤ other.lastTime
    · rw [if_pos htime, max_eq_right htime]
      exact Or.inr hother.last_mem
    · rw [if_neg htime, max_eq_left (le_of_not_ge htime)]
      exact Or.inl hsummary.last_mem
  le_lastTime := by
    rw [List.forall_mem_append]
    exact ⟨fun sample hsample => le_max_of_le_left (hsummary.le_lastTime sample hsample),
      fun sample hsample => le_max_of_le_right (hother.le_lastTime sample hsample)⟩

end Summarizes

end Summary
