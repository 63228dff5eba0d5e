import Mathlib.Data.List.DropRight

/-!
# Trimmed lists

A list without the fillers at its ends, cut to a length and without the fillers the cut leaves at
the end. Two lists are cut to the same when they agree up to fillers at the end of the cut.
-/

namespace Trimming

variable {α : Type*} (isFiller : α → Bool)

/-- Without the fillers at the start, cut, and without those at the end. -/
def trim (limit : ℕ) (items : List α) : List α :=
  ((items.dropWhile isFiller).take limit).rdropWhile isFiller

theorem rdropWhile_append_of_all {items fillers : List α}
    (hfillers : ∀ item ∈ fillers, isFiller item) :
    (items ++ fillers).rdropWhile isFiller = items.rdropWhile isFiller := by
  have hreverse : ∀ item ∈ fillers.reverse, isFiller item := by
    intro item hitem
    exact hfillers item (List.mem_reverse.mp hitem)
  rw [List.rdropWhile, List.rdropWhile, List.reverse_append,
    List.dropWhile_append_of_pos hreverse]

theorem mem_rtakeWhile {items : List α} {item : α} (hitem : item ∈ items.rtakeWhile isFiller) :
    isFiller item :=
  List.mem_takeWhile_imp (List.mem_reverse.mp hitem)

/-- Fillers at the end do not matter to what a cut leaves. -/
theorem rdropWhile_take_rdropWhile (limit : ℕ) (items : List α) :
    ((items.rdropWhile isFiller).take limit).rdropWhile isFiller =
      (items.take limit).rdropWhile isFiller := by
  conv_rhs => rw [← List.rdropWhile_append_rtakeWhile (p := isFiller) (l := items), List.take_append]
  refine (rdropWhile_append_of_all isFiller fun item hitem => ?_).symm
  exact mem_rtakeWhile isFiller (List.mem_of_mem_take hitem)

theorem rdropWhile_cons (item : α) (items : List α) :
    (item :: items).rdropWhile isFiller =
      if items.rdropWhile isFiller = [] ∧ isFiller item then []
      else item :: items.rdropWhile isFiller := by
  by_cases hall : items.rdropWhile isFiller = []
  · have hfillers : ∀ other ∈ items, isFiller other := List.rdropWhile_eq_nil_iff.mp hall
    rw [← List.singleton_append, rdropWhile_append_of_all isFiller hfillers,
      List.rdropWhile_singleton]
    simp [hall]
  · have hne : (items.reverse.dropWhile isFiller).isEmpty = false := by
      simpa [List.rdropWhile] using hall
    rw [if_neg fun h => hall h.1, List.rdropWhile, List.reverse_cons, List.dropWhile_append, hne,
      List.rdropWhile]
    simp

theorem trim_eq_nil_iff {limit : ℕ} (hlimit : limit ≠ 0) (items : List α) :
    trim isFiller limit items = [] ↔ ∀ item ∈ items, isFiller item := by
  rw [← List.dropWhile_eq_nil_iff, trim, List.rdropWhile_eq_nil_iff]
  constructor
  · intro hall
    by_contra hne
    obtain ⟨head, rest, hrest⟩ := List.exists_cons_of_ne_nil hne
    have hhead := List.head_dropWhile_not isFiller hne
    obtain ⟨limit, rfl⟩ := Nat.exists_eq_succ_of_ne_zero hlimit
    rw [hrest, List.take_succ_cons] at hall
    simp only [hrest, List.head_cons] at hhead
    rw [hall head List.mem_cons_self] at hhead
    cases hhead
  · intro hnil item hitem
    rw [hnil, List.take_nil] at hitem
    cases hitem

/-! ### What two cuts leave -/

/-- Cut to a length, the lists are the same but for fillers at the end. -/
def Same (limit : ℕ) (left right : List α) : Prop :=
  (left.take limit).rdropWhile isFiller = (right.take limit).rdropWhile isFiller

variable {isFiller} {limit : ℕ} {left right : List α} {item : α}

theorem same_zero : Same isFiller 0 left right := rfl

theorem same_of_fillers (hleft : ∀ item ∈ left, isFiller item)
    (hright : ∀ item ∈ right, isFiller item) : Same isFiller limit left right := by
  rw [Same, List.rdropWhile_eq_nil_iff.mpr, List.rdropWhile_eq_nil_iff.mpr]
  · intro item hitem
    exact hright item (List.mem_of_mem_take hitem)
  · intro item hitem
    exact hleft item (List.mem_of_mem_take hitem)

theorem same_cons_iff :
    Same isFiller (limit + 1) (item :: left) (item :: right) ↔ Same isFiller limit left right := by
  rw [Same, Same, List.take_succ_cons, List.take_succ_cons, rdropWhile_cons, rdropWhile_cons]
  by_cases hleft : (left.take limit).rdropWhile isFiller = [] <;>
    by_cases hright : (right.take limit).rdropWhile isFiller = [] <;>
    by_cases hitem : isFiller item = true <;>
    simp [hleft, hright, hitem]

/-- One filler more before the first other item shows unless that is cut off. -/
theorem same_fillers_iff {filler : α} (hfiller : isFiller filler = true)
    (hitem : isFiller item = false) (count : ℕ) :
    Same isFiller limit (filler :: (List.replicate count filler ++ item :: left))
      (List.replicate count filler ++ item :: right) ↔ limit ≤ count := by
  induction count generalizing limit with
  | zero =>
      cases limit with
      | zero => exact iff_of_true same_zero le_rfl
      | succ limit =>
          refine iff_of_false (fun hsame => ?_) (by omega)
          rw [Same, List.replicate_zero, List.nil_append, List.nil_append, List.take_succ_cons,
            List.take_succ_cons, rdropWhile_cons, rdropWhile_cons,
            if_neg (c := _ ∧ isFiller item = true) (by simp [hitem])] at hsame
          split at hsame
          · cases hsame
          · rw [(List.cons.inj hsame).1, hitem] at hfiller
            cases hfiller
  | succ count ih =>
      cases limit with
      | zero => exact iff_of_true same_zero (by omega)
      | succ limit =>
          rw [List.replicate_succ, List.cons_append, List.cons_append, same_cons_iff, ih]
          omega

end Trimming
