import Mathlib.Data.List.Sort

/-!
# Stable sorts

A stable sort of a list already sorted by a second order is the sort by both, and what it puts first
of the elements with some property is the first in the list of those that no other comes before.
-/

namespace StableSort

open scoped List

variable {α : Type*} {r s : α → α → Prop}

/-- By the first relation, and by the second where the first does not tell. -/
def Then (r s : α → α → Prop) (first second : α) : Prop :=
  r first second ∧ (r second first → s first second)

instance decidableThen [DecidableRel r] [DecidableRel s] : DecidableRel (Then r s) :=
  fun _ _ => inferInstanceAs (Decidable (_ ∧ (_ → _)))

instance total_then [Std.Total r] [Std.Total s] : Std.Total (Then r s) where
  total := by
    intro first second
    by_cases hfirst : r first second
    · by_cases hsecond : r second first
      · rcases total_of s first second with hs | hs
        · exact Or.inl ⟨hfirst, fun _ => hs⟩
        · exact Or.inr ⟨hsecond, fun _ => hs⟩
      · exact Or.inl ⟨hfirst, fun hr => absurd hr hsecond⟩
    · have hsecond : r second first := (Std.Total.total first second).resolve_left hfirst
      exact Or.inr ⟨hsecond, fun hr => absurd hr hfirst⟩

instance trans_then [IsTrans α r] [IsTrans α s] : IsTrans α (Then r s) where
  trans := by
    intro first second third hfirst hsecond
    have hr : r first third := IsTrans.trans first second third hfirst.1 hsecond.1
    refine ⟨hr, ?_⟩
    intro hback
    have hforth : r second first := IsTrans.trans second third first hsecond.1 hback
    have hback' : r third second := IsTrans.trans third first second hback hfirst.1
    exact IsTrans.trans first second third (hfirst.2 hforth) (hsecond.2 hback')

instance antisymm_then [Std.Antisymm s] : Std.Antisymm (Then r s) where
  antisymm := by
    intro first second hfirst hsecond
    exact Std.Antisymm.antisymm first second (hfirst.2 hsecond.1) (hsecond.2 hfirst.1)

variable [DecidableRel r]

/-- An element that comes first in the second order goes before those it ties with. -/
theorem pairwise_then_orderedInsert [Std.Total r] [IsTrans α r] {item : α} {items : List α}
    (hitems : items.Pairwise (Then r s)) (hfirst : ∀ other ∈ items, s item other) :
    (items.orderedInsert r item).Pairwise (Then r s) := by
  induction items with
  | nil => exact List.pairwise_singleton _ _
  | cons head items ih =>
      obtain ⟨hhead, hitems⟩ := List.pairwise_cons.mp hitems
      obtain ⟨hs, hfirst⟩ := List.forall_mem_cons.mp hfirst
      rw [List.orderedInsert_cons]
      by_cases hr : r item head
      · rw [if_pos hr]
        refine List.pairwise_cons.mpr ⟨List.forall_mem_cons.mpr ⟨⟨hr, fun _ => hs⟩, ?_⟩,
          List.pairwise_cons.mpr ⟨hhead, hitems⟩⟩
        intro other hother
        exact ⟨IsTrans.trans item head other hr (hhead other hother).1,
          fun _ => hfirst other hother⟩
      · rw [if_neg hr]
        refine List.pairwise_cons.mpr ⟨?_, ih hitems hfirst⟩
        intro other hother
        rcases (List.mem_orderedInsert r).mp hother with rfl | hother
        · have hback : r head other := (Std.Total.total other head).resolve_left hr
          exact ⟨hback, fun hforth => absurd hforth hr⟩
        · exact hhead other hother

theorem pairwise_then_insertionSort [Std.Total r] [IsTrans α r] {items : List α}
    (hitems : items.Pairwise s) : (items.insertionSort r).Pairwise (Then r s) := by
  induction items with
  | nil => exact List.Pairwise.nil
  | cons item items ih =>
      obtain ⟨hfirst, hitems⟩ := List.pairwise_cons.mp hitems
      rw [List.insertionSort_cons]
      apply pairwise_then_orderedInsert (ih hitems)
      intro other hother
      exact hfirst other ((List.mem_insertionSort r).mp hother)

/-- The stable sort of a sorted list is the sort by both orders of any list of its elements. -/
theorem insertionSort_eq_then [Std.Total r] [IsTrans α r] [DecidableRel s] [Std.Total s]
    [IsTrans α s] [Std.Antisymm s] {items others : List α} (hitems : items.Pairwise s)
    (hperm : items.Perm others) :
    items.insertionSort r = others.insertionSort (Then r s) := by
  apply List.Perm.eq_of_pairwise' (pairwise_then_insertionSort hitems)
    (List.pairwise_insertionSort (Then r s) others)
  calc
    items.insertionSort r ~ items := List.perm_insertionSort r items
    _ ~ others := hperm
    _ ~ others.insertionSort (Then r s) := (List.perm_insertionSort _ others).symm

/-! ### The first elements -/

section Take

/-- An element that few come before is among the first of a sorted list. -/
theorem mem_take_of_pairwise {sorted : List α} {item : α} {count : ℕ} (hsorted : sorted.Pairwise s)
    (hself : s item item) [DecidableRel s] (hmem : item ∈ sorted)
    (hcount : (sorted.filter (s · item)).length ≤ count) : item ∈ sorted.take count := by
  rw [← List.take_append_drop count sorted] at hmem hsorted
  rcases List.mem_append.mp hmem with htake | hdrop
  · exact htake
  · exfalso
    have hbefore := (List.pairwise_append.mp hsorted).2.2
    have hall : (sorted.take count).filter (s · item) = sorted.take count := by
      apply List.filter_eq_self.mpr
      intro other hother
      exact decide_eq_true (hbefore other hother item hdrop)
    have hlast : 0 < ((sorted.drop count).filter (s · item)).length :=
      List.length_pos_of_mem (List.mem_filter.mpr ⟨hdrop, decide_eq_true hself⟩)
    have hlong : count < sorted.length := by
      by_contra hshort
      rw [List.drop_eq_nil_of_le (Nat.le_of_not_lt hshort)] at hdrop
      cases hdrop
    have hlength : (sorted.filter (s · item)).length =
        count + ((sorted.drop count).filter (s · item)).length := by
      calc
        (sorted.filter (s · item)).length =
            ((sorted.take count).filter (s · item)).length +
              ((sorted.drop count).filter (s · item)).length := by
          rw [← List.length_append, ← List.filter_append, List.take_append_drop]
        _ = _ := by rw [hall, List.length_take_of_le hlong.le]
    omega

theorem mem_take_insertionSort [Std.Total r] [IsTrans α r] {items : List α} {item : α} {count : ℕ}
    (hmem : item ∈ items) (hcount : (items.filter (r · item)).length ≤ count) :
    item ∈ (items.insertionSort r).take count := by
  have hperm := List.perm_insertionSort r items
  apply mem_take_of_pairwise (List.pairwise_insertionSort r items)
    ((Std.Total.total item item).elim id id) (hperm.mem_iff.mpr hmem)
  rwa [(hperm.filter _).length_eq]

/-- Inserting keeps what stands before an element before it. -/
theorem orderedInsert_append {item last : α} (before after : List α) :
    ∃ before' after', (before ++ last :: after).orderedInsert r item = before' ++ last :: after' ∧
      (∀ other ∈ before', other = item ∨ other ∈ before) ∧
      before.length + (if r item last then 1 else 0) ≤ before'.length := by
  induction before with
  | nil =>
      rw [List.nil_append, List.orderedInsert_cons]
      by_cases hlast : r item last
      · rw [if_pos hlast]
        refine ⟨[item], after, rfl, ?_, ?_⟩
        · intro other hother
          exact Or.inl (List.mem_singleton.mp hother)
        · rw [if_pos hlast]
          exact le_rfl
      · rw [if_neg hlast]
        refine ⟨[], after.orderedInsert r item, rfl, fun _ hother => (by cases hother), ?_⟩
        rw [if_neg hlast]
        exact le_rfl
  | cons head before ih =>
      rw [List.cons_append, List.orderedInsert_cons]
      by_cases hhead : r item head
      · rw [if_pos hhead]
        refine ⟨item :: head :: before, after, rfl, ?_, ?_⟩
        · intro other hother
          exact List.mem_cons.mp hother
        · rw [@List.length_cons _ item]
          split_ifs <;> omega
      · rw [if_neg hhead]
        obtain ⟨before', after', heq, hmem, hlength⟩ := ih
        refine ⟨head :: before', after', by rw [heq, List.cons_append], ?_, ?_⟩
        · intro other hother
          rcases List.mem_cons.mp hother with rfl | hother
          · exact Or.inr List.mem_cons_self
          · exact (hmem other hother).imp_right (List.mem_cons_of_mem _)
        · rw [List.length_cons, List.length_cons]
          omega

/-- The last element of a list goes after all it ties with. -/
theorem not_mem_take_insertionSort {items : List α} {last : α} {count : ℕ}
    (hmem : last ∉ items) (hcount : count ≤ (items.filter (r · last)).length) :
    last ∉ ((items ++ [last]).insertionSort r).take count := by
  have hsplit : ∃ before after, (items ++ [last]).insertionSort r = before ++ last :: after ∧
      (∀ other ∈ before, other ∈ items) ∧
      (items.filter (r · last)).length ≤ before.length := by
    clear hmem hcount
    induction items with
    | nil => exact ⟨[], [], rfl, fun _ hother => (by cases hother), le_rfl⟩
    | cons item items ih =>
        obtain ⟨before, after, heq, hbefore, hlength⟩ := ih
        rw [List.cons_append, List.insertionSort_cons, heq]
        obtain ⟨before', after', heq', hbefore', hlength'⟩ :=
          @orderedInsert_append _ r _ item last before after
        refine ⟨before', after', heq', ?_, ?_⟩
        · intro other hother
          rcases hbefore' other hother with rfl | hother
          · exact List.mem_cons_self
          · exact List.mem_cons_of_mem _ (hbefore other hother)
        · rw [List.filter_cons]
          by_cases hlast : r item last
          · rw [if_pos (decide_eq_true hlast), List.length_cons]
            rw [if_pos hlast] at hlength'
            omega
          · rw [if_neg (by rw [decide_eq_true_eq]; exact hlast)]
            omega
  obtain ⟨before, after, heq, hbefore, hlength⟩ := hsplit
  rw [heq, List.take_append_of_le_length (hcount.trans hlength)]
  intro htake
  exact hmem (hbefore last (List.mem_of_mem_take htake))

end Take

/-! ### The first that has a property -/

section First

variable {α : Type*} {r : α → α → Prop} {p : α → Bool} {item : α}

/-- The element is one of a list with a property before which, by the relation, there is no other
such, and the first in the list of those it ties with. -/
def IsFirst (r : α → α → Prop) (p : α → Bool) (items : List α) (item : α) : Prop :=
  ∃ before after, items = before ++ item :: after ∧ p item = true ∧
    (∀ other ∈ before, p other = true → ¬ r other item) ∧
    ∀ other ∈ after, p other = true → r item other

theorem isFirst_cons_iff {head : α} {items : List α} : IsFirst r p (head :: items) item ↔
    (head = item ∧ p item = true ∧ ∀ other ∈ items, p other = true → r item other) ∨
      IsFirst r p items item ∧ (p head = true → ¬ r head item) := by
  constructor
  · rintro ⟨_ | ⟨other, before⟩, after, heq, hitem, hbefore, hafter⟩
    · obtain ⟨rfl, rfl⟩ := List.cons.inj heq
      exact .inl ⟨rfl, hitem, hafter⟩
    · obtain ⟨rfl, rfl⟩ := List.cons.inj heq
      obtain ⟨hhead, hbefore⟩ := List.forall_mem_cons.mp hbefore
      exact .inr ⟨⟨before, after, rfl, hitem, hbefore, hafter⟩, hhead⟩
  · rintro (⟨rfl, hitem, hafter⟩ | ⟨⟨before, after, rfl, hitem, hbefore, hafter⟩, hhead⟩)
    · exact ⟨[], items, rfl, hitem, List.forall_mem_nil _, hafter⟩
    · exact ⟨head :: before, after, rfl, hitem, List.forall_mem_cons.mpr ⟨hhead, hbefore⟩, hafter⟩

theorem IsFirst.le [Std.Total r] {items : List α} (hfirst : IsFirst r p items item) :
    ∀ other ∈ items, p other = true → r item other := by
  obtain ⟨before, after, rfl, -, hbefore, hafter⟩ := hfirst
  intro other hother hp
  obtain hother | hother := List.mem_append.mp hother
  · exact (Std.Total.total item other).resolve_right (hbefore other hother hp)
  · obtain rfl | hother := List.mem_cons.mp hother
    · exact (Std.Total.total other other).elim id id
    · exact hafter other hother hp

theorem IsFirst.mem {items : List α} (hfirst : IsFirst r p items item) : item ∈ items := by
  obtain ⟨before, after, rfl, -⟩ := hfirst
  exact List.mem_append_right _ List.mem_cons_self

theorem IsFirst.holds {items : List α} (hfirst : IsFirst r p items item) : p item = true := by
  obtain ⟨before, after, -, hitem, -⟩ := hfirst
  exact hitem

theorem IsFirst.unique {items : List α} {other : α} (hitem : IsFirst r p items item)
    (hother : IsFirst r p items other) : item = other := by
  induction items with
  | nil => cases hitem.mem
  | cons head items ih =>
      obtain ⟨rfl, hp, hitems⟩ | ⟨hitem, hhead⟩ := isFirst_cons_iff.mp hitem
      · obtain ⟨rfl, -⟩ | ⟨hother, hhead⟩ := isFirst_cons_iff.mp hother
        · rfl
        · exact absurd (hitems other hother.mem hother.holds) (hhead hp)
      · obtain ⟨rfl, hp, hitems⟩ | ⟨hother, -⟩ := isFirst_cons_iff.mp hother
        · exact absurd (hitems item hitem.mem hitem.holds) (hhead hp)
        · exact ih hitem hother

variable [DecidableRel r]

theorem find?_orderedInsert_of_neg (items : List α) (hitem : p item = false) :
    (items.orderedInsert r item).find? p = items.find? p := by
  induction items with
  | nil => simp [List.orderedInsert, hitem]
  | cons head items ih =>
      rw [List.orderedInsert_cons]
      split_ifs with hr
      · rw [List.find?_cons_of_neg (by simp [hitem])]
      · rw [List.find?_cons, List.find?_cons, ih]

theorem find?_orderedInsert_of_pos [IsTrans α r] {items : List α} (hitems : items.Pairwise r)
    (hitem : p item = true) : (items.orderedInsert r item).find? p =
      match items.find? p with
      | none => some item
      | some first => if r item first then some item else some first := by
  induction items with
  | nil => simp [List.orderedInsert, hitem]
  | cons head items ih =>
      obtain ⟨hhead, hitems⟩ := List.pairwise_cons.mp hitems
      rw [List.orderedInsert_cons]
      split_ifs with hr
      · rw [List.find?_cons_of_pos hitem]
        cases hfind : (head :: items).find? p with
        | none => rfl
        | some first =>
            have hfirst : r item first := by
              obtain rfl | hmem := List.mem_cons.mp (List.mem_of_find?_eq_some hfind)
              · exact hr
              · exact IsTrans.trans item head first hr (hhead first hmem)
            exact (if_pos hfirst).symm
      · rw [List.find?_cons, List.find?_cons, ih hitems]
        cases hp : p head with
        | true => exact (if_neg hr).symm
        | false => rfl

/-- What a stable sort puts first of those with a property. -/
theorem find?_insertionSort_eq_some_iff [Std.Total r] [IsTrans α r] {items : List α} :
    (items.insertionSort r).find? p = some item ↔ IsFirst r p items item := by
  induction items generalizing item with
  | nil =>
      refine iff_of_false (by simp) ?_
      rintro ⟨before, after, heq, -⟩
      simp at heq
  | cons head items ih =>
      rw [List.insertionSort_cons, isFirst_cons_iff]
      cases hhead : p head with
      | false =>
          rw [find?_orderedInsert_of_neg _ hhead, ih]
          constructor
          · intro hfirst
            exact .inr ⟨hfirst, by simp⟩
          · rintro (⟨rfl, hitem, -⟩ | ⟨hfirst, -⟩)
            · simp [hhead] at hitem
            · exact hfirst
      | true =>
          rw [find?_orderedInsert_of_pos (List.pairwise_insertionSort r items) hhead]
          cases hfind : (items.insertionSort r).find? p with
          | none =>
              have hnone : ∀ other ∈ items, p other ≠ true := by
                intro other hother
                exact List.find?_eq_none.mp hfind other ((List.mem_insertionSort r).mpr hother)
              constructor
              · rintro ⟨⟩
                exact .inl ⟨rfl, hhead, fun other hother hp => absurd hp (hnone other hother)⟩
              · rintro (⟨rfl, -⟩ | ⟨hfirst, -⟩)
                · rfl
                · rw [ih.mpr hfirst] at hfind
                  cases hfind
          | some first =>
              have hfirst := ih.mp hfind
              dsimp only
              split_ifs with hr
              · constructor
                · rintro ⟨⟩
                  exact .inl ⟨rfl, hhead, fun other hother hp =>
                    IsTrans.trans head first other hr (hfirst.le other hother hp)⟩
                · rintro (⟨rfl, -⟩ | ⟨hitem, hnot⟩)
                  · rfl
                  · rw [ih.mpr hitem] at hfind
                    cases hfind
                    exact absurd hr (hnot rfl)
              · constructor
                · rintro ⟨⟩
                  exact .inr ⟨hfirst, fun _ => hr⟩
                · rintro (⟨rfl, -, hle⟩ | ⟨hitem, -⟩)
                  · have hp := List.find?_some hfind
                    exact absurd (hle first hfirst.mem hp) hr
                  · rw [ih.mpr hitem] at hfind
                    exact hfind.symm

end First

end StableSort
