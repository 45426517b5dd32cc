import Mathlib.Algebra.Order.Group.Defs
import Mathlib.Data.List.Basic

/-! # Sliding windows

A limiter admits a time while there is room among the recent ones, and drops those that are
a whole span old only when it is asked. Of the difference of two times nothing is used but
that it is monotone, as it also is where differences are rounded. -/

namespace Raphael.Foundation

/-- A later end and an earlier beginning do not make a difference smaller. -/
class MonotoneDifference (Time : Type u) [LinearOrder Time] [Sub Time] : Prop where
  sub_mono : ∀ {first second earlier later : Time}, first ≤ second → earlier ≤ later →
    earlier - second ≤ later - first

instance {Time : Type u} [AddCommGroup Time] [LinearOrder Time] [AddLeftMono Time] :
    MonotoneDifference Time where
  sub_mono begins ends := sub_le_sub ends begins

namespace SlidingWindow

variable {Time : Type u} [LinearOrder Time] [Sub Time]

/-- The times that are less than a span ago. -/
def recent (span now : Time) (times : List Time) : List Time :=
  times.filter fun time => decide (now - time < span)

/-- The times from one to another. -/
def between (first last : Time) (times : List Time) : List Time :=
  times.filter fun time => decide (first ≤ time ∧ time ≤ last)

/-- What is kept tells of all times, at any reading from the given one on, which are recent. -/
def Keeps (span clock : Time) (kept all : List Time) : Prop :=
  ∀ now, clock ≤ now → recent span now kept = recent span now all

/-- A window shorter than the span has no more times than the limit. -/
def Limited (span : Time) (limit : Nat) (all : List Time) : Prop :=
  ∀ first last, last - first < span → (between first last all).length ≤ limit

theorem keeps_nil (span clock : Time) : Keeps span clock [] [] := fun _ _ => rfl

theorem limited_nil (span : Time) (limit : Nat) : Limited span limit [] :=
  fun _ _ _ => Nat.zero_le limit

section Steps

variable {span clock now : Time} {kept all : List Time} {limit : Nat}

theorem Keeps.later (keeps : Keeps span clock kept all) (later : clock ≤ now) :
    Keeps span now kept all :=
  fun last after => keeps last (later.trans after)

theorem Keeps.admit (keeps : Keeps span clock kept all) (time : Time) :
    Keeps span clock (kept ++ [time]) (all ++ [time]) := by
  intro now later
  unfold recent
  rw [List.filter_append, List.filter_append]
  exact congrArg (· ++ _) (keeps now later)

variable [MonotoneDifference Time]

/-- What is recent later is recent now. -/
theorem recent_recent {later : Time} (after : now ≤ later) (times : List Time) :
    recent span later (recent span now times) = recent span later times := by
  unfold recent
  rw [List.filter_filter]
  apply List.filter_congr
  intro time _
  rw [Bool.and_eq_left_iff_imp]
  intro isRecent
  have grows : now - time ≤ later - time :=
    MonotoneDifference.sub_mono (le_refl time) after
  exact decide_eq_true (grows.trans_lt (of_decide_eq_true isRecent))

theorem Keeps.prune (keeps : Keeps span clock kept all) (later : clock ≤ now) :
    Keeps span now (recent span now kept) all := by
  intro last after
  rw [recent_recent after]
  exact keeps last (later.trans after)

/-- A time is admitted where there is room among the recent ones. -/
theorem Limited.admit (limited : Limited span limit all)
    (room : (recent span now all).length < limit) : Limited span limit (all ++ [now]) := by
  intro first last short
  unfold between
  rw [List.filter_append]
  by_cases inside : first ≤ now ∧ now ≤ last
  · have fewer : (between first last all).length ≤ (recent span now all).length := by
      apply List.Sublist.length_le
      apply List.monotone_filter_right
      intro time isInside
      have begins : first ≤ time := (of_decide_eq_true isInside).1
      exact decide_eq_true ((MonotoneDifference.sub_mono begins inside.2).trans_lt short)
    have single : [now].filter (fun time => decide (first ≤ time ∧ time ≤ last)) = [now] :=
      List.filter_eq_self.mpr (by simpa using inside)
    rw [single, List.length_append, List.length_singleton]
    exact Nat.lt_of_le_of_lt fewer room
  · have none : [now].filter (fun time => decide (first ≤ time ∧ time ≤ last)) = [] :=
      List.filter_eq_nil_iff.mpr (by simpa using inside)
    rw [none, List.append_nil]
    exact limited first last short

end Steps

end SlidingWindow

end Raphael.Foundation
