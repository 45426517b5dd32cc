import Mathlib.Logic.Function.Basic

/-! # Tables of optional slots

A table gives every key at most one value. The rules below read a table back
after one slot was written. -/

namespace Raphael.Foundation

variable {Key : Type u} {Value : Type v} [DecidableEq Key]

/-- A value found after a write is the written one, or it stood in another slot
before. -/
theorem update_eq_some {table : Key → Option Value} {key other : Key}
    {slot : Option Value} {value : Value}
    (found : Function.update table key slot other = some value) :
    (other = key ∧ slot = some value) ∨ (other ≠ key ∧ table other = some value) := by
  by_cases same : other = key
  · subst same
    exact .inl ⟨rfl, by simpa using found⟩
  · exact .inr ⟨same, by simpa [Function.update_of_ne same] using found⟩

/-- The value of a slot is changed, behind a default where there is none. -/
def amendSlot (table : Key → Option Value) (key : Key) (default : Value)
    (change : Value → Value) : Key → Option Value :=
  Function.update table key (some (change ((table key).getD default)))

/-- The value of a slot is changed where there is one. -/
def reviseSlot (table : Key → Option Value) (key : Key) (change : Value → Value) :
    Key → Option Value :=
  Function.update table key ((table key).map change)

theorem amendSlot_apply (table : Key → Option Value) (key : Key) (default : Value)
    (change : Value → Value) (other : Key) :
    amendSlot table key default change other =
      if other = key then some (change ((table other).getD default)) else table other := by
  unfold amendSlot
  by_cases same : other = key
  · subst same
    rw [Function.update_self, if_pos rfl]
  · rw [Function.update_of_ne same, if_neg same]

theorem reviseSlot_apply (table : Key → Option Value) (key : Key) (change : Value → Value)
    (other : Key) :
    reviseSlot table key change other =
      if other = key then (table other).map change else table other := by
  unfold reviseSlot
  by_cases same : other = key
  · subst same
    rw [Function.update_self, if_pos rfl]
  · rw [Function.update_of_ne same, if_neg same]

end Raphael.Foundation
