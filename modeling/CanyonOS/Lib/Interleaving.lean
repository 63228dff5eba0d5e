import Mathlib.Data.List.Count
import Mathlib.Data.List.Perm.Basic

/-!
# Interleavings

Any number of sources, each a list, merged into one. Each place of the merged list comes from one
source, and the places of a source hold its items in its own order.
-/

namespace Interleaving

open scoped List

variable {Source α : Type*} [DecidableEq Source]

/-- What a list of items, each with its source, has of one source. -/
def itemsOf (source : Source) (tagged : List (Source × α)) : List α :=
  (tagged.filter fun item => item.1 = source).map Prod.snd

/-- The merged list holds each item of each source exactly once, those of a source in order. -/
def Merges (sources : Source → List α) (merged : List α) : Prop :=
  ∃ tagged : List (Source × α),
    tagged.map Prod.snd = merged ∧ ∀ source, itemsOf source tagged = sources source

@[simp]
theorem itemsOf_nil (source : Source) : itemsOf source ([] : List (Source × α)) = [] := rfl

theorem itemsOf_append (source : Source) (before after : List (Source × α)) :
    itemsOf source (before ++ after) = itemsOf source before ++ itemsOf source after := by
  simp only [itemsOf, List.filter_append, List.map_append]

theorem itemsOf_tag_self (source : Source) (items : List α) :
    itemsOf source (items.map fun item => (source, item)) = items := by
  induction items with
  | nil => rfl
  | cons item items ih =>
      rw [itemsOf] at ih
      simp [itemsOf, ih]

theorem itemsOf_tag_of_ne {source other : Source} (hne : source ≠ other) (items : List α) :
    itemsOf other (items.map fun item => (source, item)) = [] := by
  simp [itemsOf, List.filter_eq_nil_iff, hne]

theorem mem_itemsOf {source : Source} {item : α} {tagged : List (Source × α)} :
    item ∈ itemsOf source tagged ↔ (source, item) ∈ tagged := by
  simp [itemsOf]

theorem count_itemsOf [DecidableEq α] (source : Source) (item : α)
    (tagged : List (Source × α)) :
    (itemsOf source tagged).count item = tagged.count (source, item) := by
  induction tagged with
  | nil => rfl
  | cons head tagged ih =>
      obtain ⟨other, value⟩ := head
      rw [itemsOf] at ih ⊢
      by_cases hsource : other = source
      · simp [hsource, List.count_cons, ih]
      · simp [hsource, ih]

/-- What each source has determines the items, up to their order. -/
theorem perm_of_itemsOf_eq {left right : List (Source × α)}
    (heq : ∀ source, itemsOf source left = itemsOf source right) : left ~ right := by
  classical
  refine List.perm_iff_count.mpr fun pair => ?_
  obtain ⟨source, item⟩ := pair
  rw [← count_itemsOf, ← count_itemsOf, heq source]

namespace Merges

variable {sources others : Source → List α} {merged other : List α}

theorem nil : Merges (fun _ : Source => ([] : List α)) [] :=
  ⟨[], rfl, fun _ => rfl⟩

/-- All that merges the same sources has the same items. -/
theorem perm (hmerges : Merges sources merged) (hother : Merges sources other) :
    merged ~ other := by
  obtain ⟨tagged, rfl, htagged⟩ := hmerges
  obtain ⟨retagged, rfl, hretagged⟩ := hother
  have hperm : tagged ~ retagged := by
    apply perm_of_itemsOf_eq
    intro source
    rw [htagged, hretagged]
  exact hperm.map Prod.snd

/-- An item of a source is in what merges it. -/
theorem mem {source : Source} {item : α} (hmerges : Merges sources merged)
    (hitem : item ∈ sources source) : item ∈ merged := by
  obtain ⟨tagged, rfl, htagged⟩ := hmerges
  rw [← htagged source] at hitem
  exact List.mem_map.mpr ⟨(source, item), mem_itemsOf.mp hitem, rfl⟩

/-- One source gives its next items. -/
theorem append (hmerges : Merges sources merged) (source : Source) (items : List α) :
    Merges (Function.update sources source (sources source ++ items)) (merged ++ items) := by
  obtain ⟨tagged, rfl, htagged⟩ := hmerges
  refine ⟨tagged ++ items.map fun item => (source, item), ?_, fun other => ?_⟩
  · simp [Function.comp_def]
  · rw [itemsOf_append, htagged other]
    by_cases hother : other = source
    · rw [hother, itemsOf_tag_self, Function.update_self]
    · rw [itemsOf_tag_of_ne (Ne.symm hother), List.append_nil, Function.update_of_ne hother]

theorem length_append {source : Source} {items : List α} (hmerges : Merges sources merged)
    (hother : Merges (Function.update sources source (sources source ++ items)) other) :
    other.length = merged.length + items.length := by
  rw [((hmerges.append source items).perm hother).length_eq.symm, List.length_append]

end Merges

end Interleaving
