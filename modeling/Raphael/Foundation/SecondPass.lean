import Mathlib.Data.List.Basic

/-! # Second passes

When a fold that is gone through a second time, from where the first pass has ended, leaves
its result alone. An item that resets the state makes what was before it forgotten. -/

namespace Raphael.Foundation

variable {Item : Type u} {State : Type v} {step : Item → State → State}
  {items : List Item} {start : State}

/-- The state behind all items. -/
def pass (step : Item → State → State) (items : List Item) (start : State) : State :=
  items.foldl (fun state item => step item state) start

theorem pass_nil (step : Item → State → State) (start : State) : pass step [] start = start :=
  rfl

theorem pass_cons (step : Item → State → State) (item : Item) (items : List Item)
    (start : State) : pass step (item :: items) start = pass step items (step item start) := rfl

theorem pass_append (step : Item → State → State) (front back : List Item) (start : State) :
    pass step (front ++ back) start = pass step back (pass step front start) :=
  List.foldl_append

theorem pass_concat (step : Item → State → State) (items : List Item) (item : Item)
    (start : State) : pass step (items ++ [item]) start = step item (pass step items start) :=
  pass_append ..

theorem pass_fixed (fixed : ∀ item ∈ items, step item start = start) :
    pass step items start = start := by
  induction items with
  | nil => rfl
  | cons item rest induction =>
      rw [List.forall_mem_cons] at fixed
      rw [pass_cons, fixed.1]
      exact induction fixed.2

theorem pass_congr {other : Item → State → State}
    (same : ∀ item ∈ items, ∀ state, step item state = other item state) (start : State) :
    pass step items start = pass other items start := by
  induction items generalizing start with
  | nil => rfl
  | cons item rest induction =>
      rw [List.forall_mem_cons] at same
      rw [pass_cons, pass_cons, same.1, induction same.2]

/-- What is read of the state, where it moves with a label of the items by itself. -/
theorem pass_reads {Label : Type w} {View : Type x} {move : Label → View → View}
    {label : Item → Label} (reads : State → View)
    (follows : ∀ item state, reads (step item state) = move (label item) (reads state))
    (items : List Item) (start : State) :
    reads (pass step items start) = pass move (items.map label) (reads start) := by
  induction items generalizing start with
  | nil => rfl
  | cons item rest induction => rw [pass_cons, induction, follows, List.map_cons, pass_cons]

/-- Items that do nothing may be left out. -/
theorem pass_filter (reads : Item → Bool)
    (idle : ∀ item ∈ items, reads item = false → ∀ state, step item state = state) :
    pass step items start = pass step (items.filter reads) start := by
  induction items generalizing start with
  | nil => rfl
  | cons item rest induction =>
      rw [List.forall_mem_cons] at idle
      rw [pass_cons, List.filter_cons]
      cases looks : reads item with
      | true => exact induction idle.2
      | false =>
          rw [idle.1 looks]
          exact induction idle.2

/-- The item makes the same of every state. -/
def Resets (step : Item → State → State) (item : Item) : Prop :=
  ∀ state other, step item state = step item other

theorem pass_eq_of_reset {item : Item} (member : item ∈ items) (resets : Resets step item)
    (state other : State) : pass step items state = pass step items other := by
  induction items generalizing state other with
  | nil => cases member
  | cons first rest induction =>
      rcases List.mem_cons.mp member with rfl | later
      · exact congrArg (pass step rest) (resets state other)
      · exact induction later (step first state) (step first other)

/-- A second pass changes nothing where every item resets the state or leaves the start
alone. -/
theorem pass_pass (each : ∀ item ∈ items, Resets step item ∨ step item start = start) :
    pass step items (pass step items start) = pass step items start := by
  by_cases reset : ∃ item ∈ items, Resets step item
  · rcases reset with ⟨item, member, resets⟩
    exact pass_eq_of_reset member resets _ _
  · have still : pass step items start = start := pass_fixed fun item member =>
      (each item member).resolve_left fun resets => reset ⟨item, member, resets⟩
    rw [still, still]

end Raphael.Foundation
