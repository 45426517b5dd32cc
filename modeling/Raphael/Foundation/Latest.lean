import Mathlib.Data.List.Sort
import Mathlib.Data.Prod.Lex

/-! # The latest of a list

The last item of a list that is sorted by a key, read off the unsorted one: of the items
with the greatest key it is the last. A list that was sorted by another key before is as
one that is sorted by both. -/

namespace Raphael.Foundation

variable {Item : Type u} {Key : Type v} {Other : Type w} [LinearOrder Key]
  [LinearOrder Other] {key : Item → Key} {other : Item → Other} {items : List Item}
  {item best : Item}

/-- The item with the greatest key, and of several the last. -/
def latest (key : Item → Key) : List Item → Option Item
  | [] => none
  | item :: rest =>
      match latest key rest with
      | none => some item
      | some best => if key item ≤ key best then some best else some item

theorem latest_eq_none_iff : latest key items = none ↔ items = [] := by
  cases items with
  | nil => exact iff_of_true rfl rfl
  | cons item rest =>
      refine iff_of_false ?_ (List.cons_ne_nil item rest)
      rw [latest]
      split
      · exact Option.some_ne_none item
      · split <;> exact Option.some_ne_none _

theorem latest_mem (found : latest key items = some best) : best ∈ items := by
  induction items with
  | nil => cases found
  | cons item rest induction =>
      rw [latest] at found
      split at found
      · cases found
        exact List.mem_cons_self
      · next known =>
          split at found
          · cases found
            exact List.mem_cons_of_mem item (induction known)
          · cases found
            exact List.mem_cons_self

theorem le_latest (found : latest key items = some best) (member : item ∈ items) :
    key item ≤ key best := by
  induction items generalizing best with
  | nil => cases member
  | cons first rest induction =>
      rw [latest] at found
      split at found
      · next none =>
          cases found
          rw [latest_eq_none_iff] at none
          subst none
          rw [List.mem_singleton.mp member]
      · next known =>
          split at found
          · next least =>
              cases found
              rcases List.mem_cons.mp member with rfl | member
              · exact least
              · exact induction known member
          · next greater =>
              cases found
              rcases List.mem_cons.mp member with rfl | member
              · exact le_refl _
              · exact (induction known member).trans (le_of_not_ge greater)

/-- An item behind the others is the latest, unless one of them has a greater key. -/
theorem latest_append (items : List Item) (item : Item) :
    latest key (items ++ [item]) =
      match latest key items with
      | none => some item
      | some best => if key best ≤ key item then some item else some best := by
  induction items with
  | nil => rfl
  | cons first rest induction =>
      rw [List.cons_append, latest, latest, induction]
      cases latest key rest with
      | none => rfl
      | some best =>
          dsimp only
          by_cases firstLeast : key first ≤ key best
          · rw [if_pos firstLeast]
            by_cases least : key best ≤ key item
            · simp only [if_pos least, if_pos (firstLeast.trans least)]
            · simp only [if_neg least, if_pos firstLeast]
          · rw [if_neg firstLeast]
            by_cases least : key best ≤ key item
            · simp only [if_pos least]
            · have greater : ¬ key first ≤ key item := fun le =>
                least ((le_of_not_ge firstLeast).trans le)
              simp only [if_neg least, if_neg firstLeast, if_neg greater]

theorem latest_append_of_le (least : ∀ other ∈ items, key other ≤ key item) :
    latest key (items ++ [item]) = some item := by
  rw [latest_append]
  cases found : latest key items with
  | none => rfl
  | some best => exact if_pos (least best (latest_mem found))

/-- Where a sorted list ends when an item is inserted. -/
theorem getLast?_orderedInsert (item : Item) {sorted : List Item}
    (order : sorted.Pairwise fun left right => key left ≤ key right) :
    (sorted.orderedInsert (fun left right => key left ≤ key right) item).getLast? =
      match sorted.getLast? with
      | none => some item
      | some best => if key item ≤ key best then some best else some item := by
  induction sorted with
  | nil => rfl
  | cons first rest induction =>
      rcases List.pairwise_cons.mp order with ⟨least, order⟩
      rw [List.orderedInsert_cons]
      by_cases before : key item ≤ key first
      · rw [if_pos before, List.getLast?_cons]
        cases last : (first :: rest).getLast? with
        | none => cases List.getLast?_eq_none_iff.mp last
        | some best =>
            have member := List.mem_of_getLast? last
            have le : key item ≤ key best := by
              rcases List.mem_cons.mp member with rfl | member
              · exact before
              · exact before.trans (least best member)
            simp only [if_pos le]
            rfl
      · rw [if_neg before, List.getLast?_cons, List.getLast?_cons, induction order]
        cases rest.getLast? with
        | none => simp only [Option.getD_none, if_neg before, Option.getD_some]
        | some best =>
            simp only [Option.getD_some]
            split <;> rfl

/-- `sorted(items, key=key)[-1]`. -/
theorem getLast?_insertionSort (items : List Item) :
    (items.insertionSort fun left right => key left ≤ key right).getLast? =
      latest key items := by
  induction items with
  | nil => rfl
  | cons item rest induction =>
      rw [List.insertionSort_cons, getLast?_orderedInsert item
        (List.pairwise_insertionSort _ rest), induction]
      rfl

theorem orderedInsert_of_least (least : ∀ other ∈ items, key item ≤ key other) :
    items.orderedInsert (fun left right => key left ≤ key right) item = item :: items := by
  cases items with
  | nil => rfl
  | cons first rest => exact if_pos (least first List.mem_cons_self)

/-- Selecting and inserting. -/
theorem filter_orderedInsert (keep : Item → Bool) (item : Item) {sorted : List Item}
    (order : sorted.Pairwise fun left right => key left ≤ key right) :
    (sorted.orderedInsert (fun left right => key left ≤ key right) item).filter keep =
      if keep item then
        (sorted.filter keep).orderedInsert (fun left right => key left ≤ key right) item
      else sorted.filter keep := by
  induction sorted with
  | nil => cases kept : keep item <;> simp [kept]
  | cons first rest induction =>
      rcases List.pairwise_cons.mp order with ⟨least, order⟩
      rw [List.orderedInsert_cons]
      by_cases before : key item ≤ key first
      · rw [if_pos before, List.filter_cons]
        split
        · refine (orderedInsert_of_least fun other member => ?_).symm
          rcases List.mem_cons.mp (List.mem_of_mem_filter member) with rfl | member
          · exact before
          · exact before.trans (least other member)
        · rfl
      · rw [if_neg before, List.filter_cons, List.filter_cons, induction order]
        by_cases kept : keep item = true
        · by_cases first : keep first = true
          · simp only [if_pos kept, if_pos first, List.orderedInsert_cons, if_neg before]
          · simp only [if_pos kept, if_neg first]
        · simp only [if_neg kept]

/-- Selecting and sorting. -/
theorem filter_insertionSort (keep : Item → Bool) (items : List Item) :
    (items.insertionSort fun left right => key left ≤ key right).filter keep =
      (items.filter keep).insertionSort fun left right => key left ≤ key right := by
  induction items with
  | nil => rfl
  | cons item rest induction =>
      rw [List.insertionSort_cons, filter_orderedInsert keep item
        (List.pairwise_insertionSort _ rest), induction, List.filter_cons]
      split
      · rw [List.insertionSort_cons]
      · rfl

/-- The item of a sorted list that is latest by another key, when one is inserted. -/
theorem latest_orderedInsert (item : Item) {sorted : List Item}
    (order : sorted.Pairwise fun left right => key left ≤ key right) :
    latest other (sorted.orderedInsert (fun left right => key left ≤ key right) item) =
      match latest other sorted with
      | none => some item
      | some best =>
          if toLex (other item, key item) ≤ toLex (other best, key best) then some best
          else some item := by
  induction sorted with
  | nil => rfl
  | cons first rest induction =>
      rcases List.pairwise_cons.mp order with ⟨least, order⟩
      rw [List.orderedInsert_cons]
      by_cases before : key item ≤ key first
      · rw [if_pos before, latest]
        cases found : latest other (first :: rest) with
        | none => rfl
        | some best =>
            have le : key item ≤ key best := by
              rcases List.mem_cons.mp (latest_mem found) with rfl | member
              · exact before
              · exact before.trans (least best member)
            have lex : toLex (other item, key item) ≤ toLex (other best, key best) ↔
                other item ≤ other best := by
              rw [Prod.Lex.toLex_le_toLex, and_iff_left le, ← le_iff_lt_or_eq]
            simp only [lex]
      · rw [if_neg before, latest, induction order, latest]
        have lexFirst : toLex (other item, key item) ≤ toLex (other first, key first) ↔
            other item < other first := by
          rw [Prod.Lex.toLex_le_toLex]
          simp only [before, and_false, or_false]
        have one : (if other first ≤ other item then some item else some first) =
            if toLex (other item, key item) ≤ toLex (other first, key first) then some first
            else some item := by
          by_cases less : other item < other first
          · rw [if_neg (not_le_of_gt less), if_pos (lexFirst.mpr less)]
          · rw [if_pos (le_of_not_gt less), if_neg (less ∘ lexFirst.mp)]
        cases latest other rest with
        | none => exact one
        | some best =>
            dsimp only
            by_cases lex : toLex (other item, key item) ≤ toLex (other best, key best)
            · have le := Prod.Lex.monotone_fst _ _ lex
              by_cases firstLeast : other first ≤ other best
              · simp only [if_pos lex, if_pos firstLeast]
              · simp only [if_pos lex, if_neg firstLeast,
                  if_pos (lexFirst.mpr (le.trans_lt (lt_of_not_ge firstLeast)))]
            · have ge := Prod.Lex.monotone_fst _ _ (le_of_not_ge lex)
              by_cases firstLeast : other first ≤ other best
              · have le : other first ≤ other item := firstLeast.trans ge
                simp only [if_neg lex, if_pos firstLeast, if_pos le]
              · simp only [if_neg lex, if_neg firstLeast]
                exact one

/-- Of a list that is sorted by one key, the item that is latest by another. -/
theorem latest_insertionSort (items : List Item) :
    latest other (items.insertionSort fun left right => key left ≤ key right) =
      latest (fun item => toLex (other item, key item)) items := by
  induction items with
  | nil => rfl
  | cons item rest induction =>
      rw [List.insertionSort_cons, latest_orderedInsert item
        (List.pairwise_insertionSort _ rest), induction]
      rfl

end Raphael.Foundation
