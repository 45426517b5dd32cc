import Mathlib.Data.Finset.Card
import Raphael.Persistence.Database

/-! # Several threads on one database

Each thread has at most one open `transaction()` block here, known by its local
`outermost` flag. The counter and the connection agree with these flags in every
order in which the threads enter and leave. -/

namespace Raphael.Persistence

variable {Thread : Type u} {Content : Type v}

/-- The depth counts the open blocks, a transaction is open exactly when an
outermost block is, and at most one block is outermost. -/
structure Coherent (database : Database Content) (flags : Thread → Option Bool) :
    Prop where
  counted : ∃ holders : Finset Thread,
    (∀ thread, thread ∈ holders ↔ flags thread ≠ none) ∧
      holders.card = database.txDepth
  transaction : (∃ thread, flags thread = some true) ↔
    database.connection.working ≠ none
  unique : ∀ first second, flags first = some true → flags second = some true →
    first = second

namespace Coherent

theorem closed (committed : Content) :
    Coherent (Database.closed committed) (fun _ : Thread => none) where
  counted := ⟨∅, by simp, rfl⟩
  transaction := by simp [Database.closed]
  unique := by simp

theorem write {database : Database Content} {flags : Thread → Option Bool}
    (coherent : Coherent database flags) (update : Content → Content) :
    Coherent (database.write update) flags where
  counted := coherent.counted
  transaction := by
    rw [coherent.transaction, Database.write_connection, Connection.write]
    cases database.connection.working <;> simp
  unique := coherent.unique

theorem idle_of_depth_zero {database : Database Content} {flags : Thread → Option Bool}
    (coherent : Coherent database flags) (zero : database.txDepth = 0)
    (thread : Thread) : flags thread = none := by
  rcases coherent.counted with ⟨holders, holds, card⟩
  rw [zero, Finset.card_eq_zero] at card
  by_contra held
  have member := (holds thread).mpr held
  simp [card] at member

theorem depth_pos {database : Database Content} {flags : Thread → Option Bool}
    (coherent : Coherent database flags) {thread : Thread}
    (held : flags thread ≠ none) : 0 < database.txDepth := by
  by_contra notPositive
  exact held (coherent.idle_of_depth_zero (by omega) thread)

theorem closed_of_depth_zero {database : Database Content}
    {flags : Thread → Option Bool} (coherent : Coherent database flags)
    (zero : database.txDepth = 0) : database.connection.working = none := by
  by_contra running
  rcases coherent.transaction.mpr running with ⟨thread, owner⟩
  simp [coherent.idle_of_depth_zero zero thread] at owner

section Updates

variable [DecidableEq Thread]

private theorem counted_insert {database : Database Content}
    {flags : Thread → Option Bool} (coherent : Coherent database flags)
    {thread : Thread} (idle : flags thread = none) (flag : Bool) :
    ∃ holders : Finset Thread,
      (∀ other, other ∈ holders ↔
        Function.update flags thread (some flag) other ≠ none) ∧
      holders.card = database.txDepth + 1 := by
  rcases coherent.counted with ⟨holders, holds, card⟩
  have outside : thread ∉ holders := by simp [holds, idle]
  refine ⟨insert thread holders, ?_, ?_⟩
  · intro other
    by_cases same : other = thread
    · simp [same]
    · simp [same, holds]
  · rw [Finset.card_insert_of_notMem outside, card]

private theorem counted_erase {database : Database Content}
    {flags : Thread → Option Bool} (coherent : Coherent database flags)
    {thread : Thread} (held : flags thread ≠ none) :
    ∃ holders : Finset Thread,
      (∀ other, other ∈ holders ↔ Function.update flags thread none other ≠ none) ∧
      holders.card = database.txDepth - 1 := by
  rcases coherent.counted with ⟨holders, holds, card⟩
  refine ⟨holders.erase thread, ?_, ?_⟩
  · intro other
    by_cases same : other = thread
    · simp [same]
    · simp [same, holds]
  · rw [Finset.card_erase_of_mem ((holds thread).mpr held), card]

private theorem owner_update {flags : Thread → Option Bool} {thread : Thread}
    (value : Option Bool) (before : flags thread ≠ some true)
    (after : value ≠ some true) (other : Thread) :
    Function.update flags thread value other = some true ↔
      flags other = some true := by
  by_cases same : other = thread
  · subst same
    simp [before, after]
  · rw [Function.update_of_ne same]

/-- Entry never raises. At depth zero the block opens the transaction; at any
other depth it joins whatever the connection is doing. -/
theorem enter {database : Database Content} {flags : Thread → Option Bool}
    (coherent : Coherent database flags) {thread : Thread}
    (idle : flags thread = none) :
    ∃ outermost entered, database.enter = .ok (outermost, entered) ∧
      Coherent entered (Function.update flags thread (some outermost)) ∧
      (outermost = true →
        database.connection.working = none ∧
        entered.connection =
          { committed := database.connection.committed
            working := some database.connection.committed }) ∧
      (outermost = false → entered.connection = database.connection) := by
  by_cases zero : database.txDepth = 0
  · have quiet := coherent.closed_of_depth_zero zero
    rcases database with ⟨⟨committed, working⟩, depth⟩
    simp only at zero quiet
    subst zero quiet
    refine ⟨true, _, Database.enter_outermost committed, ⟨?_, ?_, ?_⟩, ?_, ?_⟩
    · exact coherent.counted_insert idle true
    · simp only [ne_eq, reduceCtorEq, not_false_eq_true, iff_true]
      exact ⟨thread, Function.update_self ..⟩
    · have others : ∀ other,
          Function.update flags thread (some true) other = some true →
            other = thread := by
        intro other owner
        by_contra different
        rw [Function.update_of_ne different,
          coherent.idle_of_depth_zero rfl other] at owner
        cases owner
      intro first second firstOwner secondOwner
      rw [others first firstOwner, others second secondOwner]
    · intro _
      exact ⟨rfl, rfl⟩
    · intro impossible
      cases impossible
  · rcases database with ⟨connection, depth⟩
    cases depth with
    | zero => exact absurd rfl zero
    | succ depth =>
        have owners := owner_update (some false)
          (show flags thread ≠ some true by simp [idle]) (by simp)
        refine ⟨false, _, Database.enter_nested connection depth, ⟨?_, ?_, ?_⟩, ?_, ?_⟩
        · exact coherent.counted_insert idle false
        · rw [← coherent.transaction]
          simp only [owners]
        · intro first second firstOwner secondOwner
          exact coherent.unique first second
            ((owners first).mp firstOwner) ((owners second).mp secondOwner)
        · intro impossible
          cases impossible
        · intro _
          rfl

/-- Exit never raises. Only an outermost block ends the transaction. -/
theorem leave {database : Database Content} {flags : Thread → Option Bool}
    (coherent : Coherent database flags) {thread : Thread} {outermost : Bool}
    (held : flags thread = some outermost) (raised : Bool) :
    ∃ left, database.leave raised outermost = (left, none) ∧
      Coherent left (Function.update flags thread none) ∧
      (outermost = true → ∃ content, database.connection.working = some content ∧
        left.connection =
          { committed := if raised then database.connection.committed else content
            working := none }) ∧
      (outermost = false → left.connection = database.connection) := by
  have holding : flags thread ≠ none := by simp [held]
  have positive := coherent.depth_pos holding
  have counted := coherent.counted_erase holding
  rcases database with ⟨⟨committed, working⟩, depth⟩
  rcases Nat.exists_eq_succ_of_ne_zero (Nat.ne_of_gt positive) with ⟨lower, rfl⟩
  cases outermost with
  | true =>
      have running := coherent.transaction.mp ⟨thread, held⟩
      simp only at running
      cases working with
      | none => exact absurd rfl running
      | some content =>
          refine ⟨_, Database.leave_outermost raised committed content lower,
            ⟨counted, ?_, ?_⟩, ?_, ?_⟩
          · simp only [ne_eq, not_true_eq_false, iff_false, not_exists]
            intro other owner
            by_cases same : other = thread
            · simp [same] at owner
            · rw [Function.update_of_ne same] at owner
              exact same (coherent.unique other thread owner held)
          · intro first second firstOwner secondOwner
            have firstDifferent : first ≠ thread := by rintro rfl; simp at firstOwner
            rw [Function.update_of_ne firstDifferent] at firstOwner
            exact absurd (coherent.unique first thread firstOwner held) firstDifferent
          · intro _
            exact ⟨content, rfl, rfl⟩
          · intro impossible
            cases impossible
  | false =>
      have owners := owner_update none
        (show flags thread ≠ some true by simp [held]) (by simp)
      refine ⟨_, Database.leave_nested raised ⟨committed, working⟩ lower,
        ⟨counted, ?_, ?_⟩, ?_, ?_⟩
      · rw [← coherent.transaction]
        simp only [owners]
      · intro first second firstOwner secondOwner
        exact coherent.unique first second
          ((owners first).mp firstOwner) ((owners second).mp secondOwner)
      · intro impossible
        cases impossible
      · intro _
        rfl

end Updates

end Coherent

end Raphael.Persistence
