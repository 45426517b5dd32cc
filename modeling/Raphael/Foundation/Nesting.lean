import Mathlib.Data.List.Basic
import Mathlib.Logic.Relation

/-! # Nesting

Things enclose one another, one level at a time, and some of them are marked. Whether the
marks that are found one level up are all that matter, of a relation that may dangle and
cycle. -/

namespace Raphael.Foundation

/-! ## Marked enclosures -/

section

variable {Item : Type u} (Encloses : Item → Item → Prop) (Marked : Item → Prop)

/-- Something marked encloses the item directly. -/
def MarkedAbove (item : Item) : Prop := ∃ outer, Encloses outer item ∧ Marked outer

/-- Something marked encloses the item at some distance. -/
def MarkedAround (item : Item) : Prop :=
  ∃ outer, Relation.TransGen Encloses outer item ∧ Marked outer

variable {Encloses Marked}

theorem MarkedAbove.around {item : Item} (above : MarkedAbove Encloses Marked item) :
    MarkedAround Encloses Marked item := by
  rcases above with ⟨outer, encloses, marked⟩
  exact ⟨outer, .single encloses, marked⟩

/-- Where the marks are handed down to whatever encloses something, one level is enough. -/
theorem MarkedAround.above
    (handed : ∀ outer middle inner, Encloses outer middle → Encloses middle inner →
      Marked outer → Marked middle)
    {item : Item} (around : MarkedAround Encloses Marked item) :
    MarkedAbove Encloses Marked item := by
  rcases around with ⟨outer, path, marked⟩
  induction path with
  | single encloses => exact ⟨outer, encloses, marked⟩
  | tail _ encloses induction =>
      rcases induction with ⟨middle, enclosesMiddle, markedMiddle⟩
      exact ⟨_, encloses, handed middle _ _ enclosesMiddle encloses markedMiddle⟩

/-- Where an item is in one thing at most, one level tells all exactly when the marks are
handed down. -/
theorem above_iff_around
    (unique : ∀ {outer other inner}, Encloses outer inner → Encloses other inner →
      outer = other) :
    (∀ item, MarkedAbove Encloses Marked item ↔ MarkedAround Encloses Marked item) ↔
      ∀ outer middle inner, Encloses outer middle → Encloses middle inner →
        Marked outer → Marked middle := by
  constructor
  · intro agree outer middle inner enclosesMiddle enclosesInner marked
    have around : MarkedAround Encloses Marked inner :=
      ⟨outer, .tail (.single enclosesMiddle) enclosesInner, marked⟩
    rcases (agree inner).mpr around with ⟨other, encloses, markedOther⟩
    rwa [unique enclosesInner encloses]
  · exact fun handed item => ⟨MarkedAbove.around, MarkedAround.above handed⟩

end

/-! ## Selections -/

/-- A selection that is contained in another one gives the same list exactly when both
select the same. -/
theorem map_filter_eq_iff {Item : Type u} {Image : Type v} {image : Item → Image}
    {wide narrow : Item → Bool} {items : List Item}
    (contained : ∀ item ∈ items, narrow item = true → wide item = true) :
    (items.filter wide).map image = (items.filter narrow).map image ↔
      ∀ item ∈ items, wide item = narrow item := by
  constructor
  · intro same
    have again : (items.filter wide).filter narrow = items.filter narrow := by
      rw [List.filter_filter]
      apply List.filter_congr
      intro item member
      cases selected : narrow item with
      | false => rfl
      | true => exact contained item member selected
    have sublist : (items.filter narrow).Sublist (items.filter wide) :=
      again ▸ List.filter_sublist
    have lengths := congrArg List.length same
    rw [List.length_map, List.length_map] at lengths
    have equal := sublist.eq_of_length lengths.symm
    intro item member
    apply Bool.eq_iff_iff.mpr
    constructor
    · intro selected
      have left : item ∈ items.filter wide := List.mem_filter.mpr ⟨member, selected⟩
      rw [← equal] at left
      exact (List.mem_filter.mp left).2
    · exact contained item member
  · intro agree
    rw [List.filter_congr agree]

end Raphael.Foundation
