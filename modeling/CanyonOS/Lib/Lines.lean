import Mathlib.Data.List.Basic

/-!
# Lines

A text cut at its separators: the lines that one ends, and the rest. Cutting a text as it arrives,
from the rest of what came before, gives the lines of the whole.
-/

namespace Lines

variable {α : Type*} [DecidableEq α] (separator : α)

/-- The lines that a separator ends, and what follows the last one. -/
def split : List α → List (List α) × List α
  | [] => ([], [])
  | symbol :: text =>
      let (lines, rest) := split text
      if symbol = separator then ([] :: lines, rest)
      else
        match lines with
        | [] => ([], symbol :: rest)
        | line :: lines => ((symbol :: line) :: lines, rest)

variable {separator} {line text rest : List α} {lines : List (List α)}

theorem split_of_notMem (hrest : separator ∉ rest) : split separator rest = ([], rest) := by
  induction rest with
  | nil => rfl
  | cons symbol rest ih =>
      obtain ⟨hsymbol, hrest⟩ := List.ne_and_not_mem_of_not_mem_cons hrest
      rw [split, ih hrest]
      simp [Ne.symm hsymbol]

theorem split_line_append (hline : separator ∉ line) (text : List α) :
    split separator (line ++ separator :: text) =
      (line :: (split separator text).1, (split separator text).2) := by
  induction line with
  | nil => simp [split]
  | cons symbol line ih =>
      obtain ⟨hsymbol, hline⟩ := List.ne_and_not_mem_of_not_mem_cons hline
      rw [List.cons_append, split, ih hline]
      simp [Ne.symm hsymbol]

theorem split_spec (separator : α) (text : List α) :
    (split separator text).1.flatMap (· ++ [separator]) ++ (split separator text).2 = text ∧
      (∀ line ∈ (split separator text).1, separator ∉ line) ∧
        separator ∉ (split separator text).2 := by
  induction text with
  | nil => simp [split]
  | cons symbol text ih =>
      rw [split]
      generalize split separator text = cut at ih ⊢
      obtain ⟨lines, rest⟩ := cut
      obtain ⟨hjoin, hlines, hrest⟩ := ih
      by_cases hsymbol : symbol = separator
      · subst hsymbol
        simp only [if_true]
        refine ⟨?_, ?_, hrest⟩
        · rw [List.flatMap_cons, List.append_assoc, hjoin]
          rfl
        · exact List.forall_mem_cons.mpr ⟨List.not_mem_nil, hlines⟩
      · simp only [if_neg hsymbol]
        cases lines with
        | nil =>
            refine ⟨?_, fun line hmem => (by cases hmem), ?_⟩
            · exact congrArg (symbol :: ·) hjoin
            · exact List.not_mem_cons_of_ne_of_not_mem (Ne.symm hsymbol) hrest
        | cons line lines =>
            obtain ⟨hline, hlines⟩ := List.forall_mem_cons.mp hlines
            refine ⟨?_, List.forall_mem_cons.mpr ⟨?_, hlines⟩, hrest⟩
            · exact congrArg (symbol :: ·) hjoin
            · exact List.not_mem_cons_of_ne_of_not_mem (Ne.symm hsymbol) hline

theorem split_flatMap_append (hlines : ∀ line ∈ lines, separator ∉ line) (text : List α) :
    split separator (lines.flatMap (· ++ [separator]) ++ text) =
      (lines ++ (split separator text).1, (split separator text).2) := by
  induction lines with
  | nil => rfl
  | cons line lines ih =>
      obtain ⟨hline, hlines⟩ := List.forall_mem_cons.mp hlines
      have hcons : (line :: lines).flatMap (· ++ [separator]) ++ text =
          line ++ separator :: (lines.flatMap (· ++ [separator]) ++ text) := by
        simp
      rw [hcons, split_line_append hline, ih hlines]
      rfl

/-- The next piece of a text is cut together with the rest of the pieces before it. -/
theorem split_append (separator : α) (text next : List α) :
    split separator (text ++ next) =
      ((split separator text).1 ++ (split separator ((split separator text).2 ++ next)).1,
        (split separator ((split separator text).2 ++ next)).2) := by
  obtain ⟨hjoin, hlines, -⟩ := split_spec separator text
  calc split separator (text ++ next)
      = split separator ((split separator text).1.flatMap (· ++ [separator]) ++
          ((split separator text).2 ++ next)) := by rw [← List.append_assoc, hjoin]
    _ = _ := split_flatMap_append hlines _

end Lines
