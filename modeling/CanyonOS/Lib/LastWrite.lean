import Mathlib.Data.List.Basic

/-!
# The last write wins

Writes of whole values to cells, in order. What a cell holds in the end is the value last written to
it, and all written cells end with one value exactly when every write of another value is followed,
at its cell, by a write of that one.
-/

namespace LastWrite

variable {Cell Value : Type*} [DecidableEq Cell]

/-- What the cell holds after the writes; `none` when none is to it. -/
def lastWrite : List (Cell × Value) → Cell → Option Value
  | [], _ => none
  | (written, value) :: writes, cell =>
      (lastWrite writes cell).or (if written = cell then some value else none)

/-- A write of a value other than `value` is followed by one of `value` to the same cell. -/
def Yields (value : Value) : List (Cell × Value) → Prop
  | [] => True
  | (cell, written) :: writes => (written = value ∨ (cell, value) ∈ writes) ∧ Yields value writes

theorem lastWrite_append (first second : List (Cell × Value)) (cell : Cell) :
    lastWrite (first ++ second) cell = (lastWrite second cell).or (lastWrite first cell) := by
  induction first with
  | nil => simp [lastWrite]
  | cons write first ih =>
      obtain ⟨written, value⟩ := write
      rw [List.cons_append, lastWrite, ih, Option.or_assoc, lastWrite]

theorem lastWrite_concat (writes : List (Cell × Value)) (written : Cell) (value : Value)
    (cell : Cell) :
    lastWrite (writes ++ [(written, value)]) cell =
      if written = cell then some value else lastWrite writes cell := by
  rw [lastWrite_append, lastWrite, lastWrite, Option.none_or]
  split <;> simp

theorem mem_of_lastWrite {writes : List (Cell × Value)} {cell : Cell} {value : Value}
    (hlast : lastWrite writes cell = some value) : (cell, value) ∈ writes := by
  induction writes with
  | nil => cases hlast
  | cons write writes ih =>
      obtain ⟨written, other⟩ := write
      rw [lastWrite, Option.or_eq_some_iff] at hlast
      rcases hlast with hlater | ⟨-, hhere⟩
      · exact List.mem_cons_of_mem _ (ih hlater)
      · split_ifs at hhere with heq
        cases hhere
        rw [heq]
        exact List.mem_cons_self

/-- A cell that was written holds something. -/
theorem lastWrite_isSome {writes : List (Cell × Value)} {cell : Cell} {value : Value}
    (hmem : (cell, value) ∈ writes) : (lastWrite writes cell).isSome := by
  induction writes with
  | nil => cases hmem
  | cons write writes ih =>
      obtain ⟨written, other⟩ := write
      rw [lastWrite, Option.isSome_or, Bool.or_eq_true]
      rcases List.mem_cons.mp hmem with heq | hlater
      · cases heq
        exact Or.inr (by simp)
      · exact Or.inl (ih hlater)

theorem yields_iff {value : Value} {writes : List (Cell × Value)} :
    Yields value writes ↔ ∀ cell last, lastWrite writes cell = some last → last = value := by
  induction writes with
  | nil =>
      refine ⟨?_, fun _ => trivial⟩
      intro _ cell last hlast
      cases hlast
  | cons write writes ih =>
      obtain ⟨written, other⟩ := write
      rw [Yields, ih]
      constructor
      · rintro ⟨hhere, hlater⟩ cell last hlast
        rw [lastWrite, Option.or_eq_some_iff] at hlast
        rcases hlast with hlast | ⟨hnone, hlast⟩
        · exact hlater cell last hlast
        · split_ifs at hlast with heq
          cases hlast
          refine hhere.resolve_right fun hmem => ?_
          have hsome := lastWrite_isSome hmem
          rw [heq, hnone] at hsome
          cases hsome
      · intro hall
        have hlater : ∀ cell last, lastWrite writes cell = some last → last = value := by
          intro cell last hlast
          refine hall cell last ?_
          rw [lastWrite, hlast, Option.some_or]
        refine ⟨?_, hlater⟩
        cases hlast : lastWrite writes written with
        | none =>
            left
            refine hall written other ?_
            rw [lastWrite, hlast, Option.none_or, if_pos rfl]
        | some last =>
            right
            rw [← hlater written last hlast]
            exact mem_of_lastWrite hlast

theorem lastWrite_eq_none_iff {writes : List (Cell × Value)} {cell : Cell} :
    lastWrite writes cell = none ↔ cell ∉ writes.map Prod.fst := by
  constructor
  · intro hnone hmem
    obtain ⟨⟨written, value⟩, hwrite, rfl⟩ := List.mem_map.mp hmem
    have hsome := lastWrite_isSome hwrite
    rw [hnone] at hsome
    cases hsome
  · intro hfresh
    rw [Option.eq_none_iff_forall_ne_some]
    intro value hlast
    exact hfresh (List.mem_map.mpr ⟨_, mem_of_lastWrite hlast, rfl⟩)

/-- Cells that hold something before the writes agree after them exactly when the writes yield the
one value that the cells left alone hold. -/
theorem agree_iff [Nonempty Value] {writes : List (Cell × Value)} {initial : Cell → Option Value} :
    (∀ cell cell' last last', (lastWrite writes cell).or (initial cell) = some last →
        (lastWrite writes cell').or (initial cell') = some last' → last = last') ↔
      ∃ value, Yields value writes ∧
        ∀ cell, cell ∉ writes.map Prod.fst → ∀ before, initial cell = some before →
          before = value := by
  constructor
  · intro hagree
    suffices hvalue : ∃ value, ∀ cell last,
        (lastWrite writes cell).or (initial cell) = some last → last = value by
      obtain ⟨value, hall⟩ := hvalue
      refine ⟨value, yields_iff.mpr ?_, ?_⟩
      · intro cell last hlast
        refine hall cell last ?_
        rw [hlast, Option.some_or]
      · intro cell hfresh before hbefore
        refine hall cell before ?_
        rw [lastWrite_eq_none_iff.mpr hfresh, Option.none_or, hbefore]
    by_cases hwritten : ∃ cell last, (lastWrite writes cell).or (initial cell) = some last
    · obtain ⟨cell, last, hlast⟩ := hwritten
      refine ⟨last, ?_⟩
      intro cell' last' hlast'
      exact hagree cell' cell last' last hlast' hlast
    · obtain ⟨value⟩ := ‹Nonempty Value›
      refine ⟨value, ?_⟩
      intro cell last hlast
      exact absurd ⟨cell, last, hlast⟩ hwritten
  · rintro ⟨value, hyields, huntouched⟩
    have hall : ∀ cell last, (lastWrite writes cell).or (initial cell) = some last →
        last = value := by
      intro cell last hlast
      rcases Option.or_eq_some_iff.mp hlast with hlast | ⟨hnone, hbefore⟩
      · exact yields_iff.mp hyields cell last hlast
      · exact huntouched cell (lastWrite_eq_none_iff.mp hnone) last hbefore
    intro cell cell' last last' hlast hlast'
    calc last = value := hall cell last hlast
      _ = last' := (hall cell' last' hlast').symm

theorem yields_of_forall {value : Value} {writes : List (Cell × Value)}
    (hall : ∀ write ∈ writes, write.2 = value) : Yields value writes := by
  rw [yields_iff]
  intro cell last hlast
  exact hall (cell, last) (mem_of_lastWrite hlast)

end LastWrite
