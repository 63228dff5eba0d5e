import Mathlib

/-!
# Items in buckets

Items that each lie in one of some parts are summed part by part; numbers between two multiples of a
unit are divided by a multiple of the unit as the lower of the two is; and items that all move to
higher buckets, if they move at all, leave every bucket as full as it was only where none moves.
-/

namespace Buckets

section Parts

variable {Part Item Value : Type*} [AddCommMonoid Value]

theorem sum_map_ite_eq (parts : List Part) (chosen : Part → Bool) (value : Value) :
    (parts.map fun part => if chosen part then value else 0).sum =
      (parts.filter chosen).length • value := by
  induction parts with
  | nil => exact (zero_nsmul value).symm
  | cons part parts ih =>
      rw [List.map_cons, List.sum_cons, ih, List.filter_cons]
      split_ifs
      · rw [List.length_cons, succ_nsmul']
      · rw [zero_add]

/-- A sum over the items of the chosen parts, where each item is in one part. -/
theorem sum_map_sum_covered {parts : List Part} {items : List Item} {covers : Part → Item → Bool}
    {chosen : Part → Bool} {wanted : Item → Bool} (value : Item → Value)
    (honce : ∀ item ∈ items, ∃ part, parts.filter (covers · item) = [part])
    (hchosen : ∀ part ∈ parts, ∀ item, covers part item → chosen part = wanted item) :
    ((parts.filter chosen).map fun part => ((items.filter (covers part)).map value).sum).sum =
      ((items.filter wanted).map value).sum := by
  induction items with
  | nil => simp
  | cons item items ih =>
      obtain ⟨⟨part, hpart⟩, honce⟩ := List.forall_mem_cons.mp honce
      have hmem : part ∈ parts ∧ covers part item = true :=
        List.mem_filter.mp (hpart ▸ List.mem_singleton_self part)
      have hsplit : ∀ part, ((((item :: items).filter (covers part)).map value).sum : Value) =
          (if covers part item then value item else 0) +
            ((items.filter (covers part)).map value).sum := by
        intro part
        rw [List.filter_cons]
        split_ifs
        · rw [List.map_cons, List.sum_cons]
        · rw [zero_add]
      have hone : ((parts.filter chosen).filter (covers · item)).length =
          if wanted item then 1 else 0 := by
        rw [List.filter_comm, hpart, List.filter_cons, hchosen part hmem.1 item hmem.2]
        split_ifs <;> rfl
      rw [List.map_congr_left fun part _ => hsplit part, List.sum_map_add, ih honce,
        sum_map_ite_eq, hone, List.filter_cons]
      split_ifs
      · rw [one_nsmul, List.map_cons, List.sum_cons]
      · rw [zero_nsmul, zero_add]

theorem filter_eq_singleton {parts : List Part} (hnodup : parts.Nodup) {part : Part}
    (hpart : part ∈ parts) {chosen : Part → Bool}
    (hchosen : ∀ other ∈ parts, chosen other = true ↔ other = part) :
    parts.filter chosen = [part] := by
  classical
  calc parts.filter chosen = parts.filter (· == part) := by
        refine List.filter_congr fun other hother => ?_
        rw [Bool.eq_iff_iff, hchosen other hother, beq_iff_eq]
    _ = [part] := by
        rw [List.filter_beq, List.count_eq_one_of_mem hnodup hpart, List.replicate_one]

/-- A sum over all items, each in one part. -/
theorem sum_map_sum {parts : List Part} {items : List Item} {covers : Part → Item → Bool}
    (value : Item → Value) (honce : ∀ item ∈ items, ∃ part, parts.filter (covers · item) = [part]) :
    (parts.map fun part => ((items.filter (covers part)).map value).sum).sum =
      (items.map value).sum := by
  have hsum := @sum_map_sum_covered Part Item Value _ parts items covers (fun _ => true)
    (fun _ => true) value honce fun _ _ _ _ => rfl
  rw [List.filter_true, List.filter_true] at hsum
  exact hsum

/-- Items that each lie in one part are counted part by part. -/
theorem sum_map_countP {parts : List Part} {items : List Item} {covers : Part → Item → Bool}
    (honce : ∀ item ∈ items, ∃ part, parts.filter (covers · item) = [part]) :
    (parts.map fun part => items.countP (covers part)).sum = items.length := by
  simpa [List.countP_eq_length_filter] using sum_map_sum (fun _ : Item => (1 : ℕ)) honce

end Parts

/-- No multiple of a unit lies strictly between two others next to each other. -/
theorem ediv_eq_ediv_of_lt {unit start number width : ℤ} (hunit : 0 < unit)
    (hstart : unit ∣ start) (hwidth : unit ∣ width) (hle : start ≤ number)
    (hlt : number < start + unit) : number / width = start / width := by
  obtain ⟨factor, rfl⟩ := hwidth
  obtain ⟨multiple, rfl⟩ := hstart
  have hnumber : number / unit = multiple := by
    rw [Int.ediv_eq_iff_of_pos hunit]
    constructor <;> nlinarith
  rw [← Int.ediv_ediv_of_nonneg hunit.le, ← Int.ediv_ediv_of_nonneg hunit.le, hnumber,
    Int.mul_ediv_cancel_left _ hunit.ne']

section Moves

variable {Item : Type*} {items : List Item} {kept : Item → Bool} {before after : Item → ℤ}

theorem eq_of_sum_map_eq (hle : ∀ item ∈ items, before item ≤ after item)
    (hsum : (items.map after).sum = (items.map before).sum) :
    ∀ item ∈ items, after item = before item := by
  induction items with
  | nil => exact List.forall_mem_nil _
  | cons item items ih =>
      rw [List.forall_mem_cons] at hle ⊢
      rw [List.map_cons, List.map_cons, List.sum_cons, List.sum_cons] at hsum
      have hrest : (items.map before).sum ≤ (items.map after).sum :=
        List.sum_le_sum hle.2
      have hhead := hle.1
      exact ⟨by omega, ih hle.2 (by omega)⟩

/-- Every bucket is as full as before exactly where no item is lost or moves. -/
theorem count_eq_iff (hle : ∀ item ∈ items, before item ≤ after item) :
    (∀ bucket, ((items.filter kept).map before).count bucket = (items.map after).count bucket) ↔
      ∀ item ∈ items, kept item = true ∧ after item = before item := by
  constructor
  · intro hcount
    have hperm : ((items.filter kept).map before).Perm (items.map after) :=
      List.perm_iff_count.mpr hcount
    have hlength : (items.filter kept).length = items.length := by
      have hlength := hperm.length_eq
      rwa [List.length_map, List.length_map] at hlength
    have hkept : ∀ item ∈ items, kept item = true := List.length_filter_eq_length_iff.mp hlength
    have hall : items.filter kept = items := List.filter_eq_self.mpr hkept
    rw [hall] at hperm
    exact fun item hitem => ⟨hkept item hitem, eq_of_sum_map_eq hle hperm.sum_eq.symm item hitem⟩
  · intro hsame bucket
    have hall : items.filter kept = items :=
      List.filter_eq_self.mpr fun item hitem => (hsame item hitem).1
    rw [hall, List.map_congr_left fun item hitem => (hsame item hitem).2.symm]

end Moves

end Buckets
