import Mathlib.Data.Multiset.Lattice

/-! # Escalation

Work that raises a level of its state by an amount of its own. Such works compose, a loop of
them raises by all their amounts, and neither order nor repetition matters. -/

namespace Raphael.Foundation

variable {State : Type u} {Level : Type v} [SemilatticeSup Level]

/-- Whatever the level is, it becomes the least one above it and the amount. -/
def Raises (level : State → Level) (work : State → State) (amount : Level) : Prop :=
  ∀ state, level (work state) = level state ⊔ amount

namespace Raises

variable {level : State → Level} {work other : State → State} {amount more : Level}

/-- One work behind the other. -/
theorem comp (first : Raises level work amount) (second : Raises level other more) :
    Raises level (fun state => other (work state)) (amount ⊔ more) := by
  intro state
  rw [second, first, sup_assoc]

theorem le (raises : Raises level work amount) (state : State) :
    level state ≤ level (work state) := by
  rw [raises]
  exact le_sup_left

/-- More work on more comes to more. -/
theorem mono (raises : Raises level work amount) (raisesMore : Raises level other more)
    (amounts : amount ≤ more) {state above : State} (below : level state ≤ level above) :
    level (work state) ≤ level (other above) := by
  rw [raises, raisesMore]
  exact sup_le_sup below amounts

variable [OrderBot Level]

theorem of_same (same : ∀ state, level (work state) = level state) : Raises level work ⊥ :=
  fun state => (same state).trans (sup_bot_eq _).symm

theorem id : Raises level (fun state => state) ⊥ := of_same fun _ => rfl

theorem ite {condition : Prop} [Decidable condition] (raises : Raises level work amount) :
    Raises level (fun state => if condition then work state else state)
      (if condition then amount else ⊥) := by
  by_cases holds : condition
  · simpa only [if_pos holds] using raises
  · simpa only [if_neg holds] using id

variable {Item : Type w} {body : State → Item → State} {amounts : Item → Level}

theorem foldl (each : ∀ item, Raises level (fun state => body state item) (amounts item))
    (items : List Item) :
    Raises level (fun state => items.foldl body state)
      (Multiset.sup (items.map amounts : Multiset Level)) := by
  induction items with
  | nil => exact id
  | cons item rest induction =>
      rw [List.map_cons, ← Multiset.cons_coe, Multiset.sup_cons]
      exact comp (each item) induction

end Raises

end Raphael.Foundation
