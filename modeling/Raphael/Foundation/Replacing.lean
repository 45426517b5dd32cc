import Mathlib.Data.List.Infix

/-! # Replacing matches

A list is read from left to right. Where a pattern matches, the items that it takes are
replaced as a whole and reading goes on behind them. -/

namespace Raphael.Foundation

variable {Item : Type u}

/-- A match at an item: how many items it takes behind that one, and what replaces them all. -/
structure Replaced (Item : Type u) where
  more : Nat
  replacement : List Item

/-- Replace all matches, behind a number of items that have been replaced already. -/
def replaceMatches (matchAt : List Item → Option (Replaced Item)) : Nat → List Item → List Item
  | _, [] => []
  | replaced + 1, _ :: rest => replaceMatches matchAt replaced rest
  | 0, item :: rest =>
      match matchAt (item :: rest) with
      | some found => found.replacement ++ replaceMatches matchAt found.more rest
      | none => item :: replaceMatches matchAt 0 rest

/-- Nothing changes where every match is replaced by itself. -/
theorem replaceMatches_eq_drop {matchAt : List Item → Option (Replaced Item)}
    {items : List Item}
    (own : ∀ suffix, suffix <:+ items → ∀ found, matchAt suffix = some found →
      found.replacement = suffix.take (found.more + 1))
    (replaced : Nat) : replaceMatches matchAt replaced items = items.drop replaced := by
  induction items generalizing replaced with
  | nil => rw [replaceMatches, List.drop_nil]
  | cons item rest induction =>
      have later : ∀ suffix, suffix <:+ rest → ∀ found, matchAt suffix = some found →
          found.replacement = suffix.take (found.more + 1) :=
        fun suffix behind => own suffix (behind.trans (List.suffix_cons item rest))
      cases replaced with
      | succ replaced => exact induction later replaced
      | zero =>
          unfold replaceMatches
          split
          · next found isMatch =>
              rw [own _ List.suffix_rfl found isMatch, induction later, List.take_succ_cons,
                List.cons_append, List.take_append_drop, List.drop_zero]
          · rw [induction later, List.drop_zero, List.drop_zero]

end Raphael.Foundation
