import Mathlib

/-!
# Fields and their owners

Objects several managers write to, each field with the managers that own it. An apply states a
manager's fields: it takes over those it names, whoever owned them, and gives up those it names no
longer, which go when nobody else owns them.
-/

namespace FieldOwnership

variable {Field Value Manager : Type} [DecidableEq Value] [DecidableEq Manager]

structure Entry (Value Manager : Type) where
  value : Value
  owners : Finset Manager

abbrev Object (Field Value Manager : Type) := Field → Option (Entry Value Manager)

def values (object : Object Field Value Manager) (field : Field) : Option Value :=
  (object field).map Entry.value

def applyField (manager : Manager) (wanted : Option Value) (entry : Option (Entry Value Manager)) :
    Option (Entry Value Manager) :=
  match wanted, entry with
  | some value, none => some ⟨value, {manager}⟩
  | some value, some entry =>
      if entry.value = value then some { entry with owners := insert manager entry.owners }
      else some ⟨value, {manager}⟩
  | none, none => none
  | none, some entry =>
      if manager ∈ entry.owners ∧ entry.owners.erase manager = ∅ then none
      else some { entry with owners := entry.owners.erase manager }

/-- An apply that takes over what is in conflict. -/
def apply (manager : Manager) (wanted : Field → Option Value)
    (object : Object Field Value Manager) : Object Field Value Manager :=
  fun field => applyField manager (wanted field) (object field)

variable {manager : Manager} {wanted : Field → Option Value}
  {object : Object Field Value Manager} {field : Field} {value : Value}

/-- A field an apply names has the value it names. -/
theorem values_apply_of_some (hwanted : wanted field = some value) :
    values (apply manager wanted object) field = some value := by
  unfold values apply
  rw [hwanted]
  cases hentry : object field with
  | none => rfl
  | some entry =>
      rw [applyField]
      split_ifs with hsame
      · exact congrArg some hsame
      · rfl

/-- A field that only this manager owned, and an apply names no longer, is gone. -/
theorem values_apply_of_none (hwanted : wanted field = none)
    (howned : ∀ entry ∈ object field, entry.owners = {manager}) :
    values (apply manager wanted object) field = none := by
  unfold values apply
  rw [hwanted]
  cases hentry : object field with
  | none => rfl
  | some entry =>
      rw [applyField, if_pos]
      · rfl
      · simp [howned entry hentry]

/-- What one manager owns alone stays its own. -/
theorem owners_apply (howned : ∀ entry ∈ object field, entry.owners = {manager}) :
    ∀ entry ∈ apply manager wanted object field, entry.owners = {manager} := by
  intro entry hentry
  rw [Option.mem_def, apply] at hentry
  cases hwanted : wanted field with
  | none =>
      have hnone := values_apply_of_none hwanted howned
      rw [values, apply, hentry] at hnone
      cases hnone
  | some value =>
      rw [hwanted] at hentry
      cases hbefore : object field with
      | none =>
          rw [hbefore] at hentry
          cases hentry
          rfl
      | some before =>
          rw [hbefore, applyField] at hentry
          split_ifs at hentry <;> cases hentry
          · simp [howned before hbefore]
          · rfl

/-- The same apply once more changes nothing. -/
theorem apply_apply : apply manager wanted (apply manager wanted object) =
    apply manager wanted object := by
  funext field
  unfold apply
  cases hwanted : wanted field with
  | some value =>
      cases hentry : object field with
      | none => simp [applyField]
      | some entry =>
          by_cases hsame : entry.value = value
          · simp [applyField, hsame]
          · simp [applyField, hsame]
  | none =>
      cases hentry : object field with
      | none => rfl
      | some entry =>
          rw [applyField]
          split_ifs with howned
          · rfl
          · simp [applyField]

end FieldOwnership
