import Raphael.Foundation.SlotTable
import Raphael.Foundation.StepSystem
import Raphael.Persistence.NestedTransaction
import Raphael.Persistence.SharedDatabase

/-! # Blocks of concurrent threads

Every thread runs a sequence of `transaction()` blocks of writes on the one
connection, some of which raise. BEGIN, each write, and COMMIT or ROLLBACK are
atomic; the lock allows every order of them. -/

namespace Raphael.Persistence

open Foundation

/-- An open block. `serial` numbers the blocks in the order of their entries. -/
structure OpenBlock (Write : Type u) where
  serial : Nat
  outermost : Bool
  rows : List Write

structure FinishedBlock (Write : Type u) where
  serial : Nat
  rows : List Write
  exit : Exit
  deriving DecidableEq

/-- The database content is the journal of the rows written since the start,
each with the serial of the block that wrote it. -/
structure Sharing (Thread : Type u) (Write : Type v) where
  database : Database (List (Nat × Write))
  current : Thread → Option (OpenBlock Write)
  finished : List (FinishedBlock Write)
  entered : Nat

inductive BlockAction (Thread : Type u) (Write : Type v)
  | enter (thread : Thread)
  | write (thread : Thread) (row : Write)
  | leave (thread : Thread) (exit : Exit)

namespace Sharing

variable {Thread : Type u} {Write : Type v} [DecidableEq Thread]

def start : Sharing Thread Write where
  database := .closed []
  current := fun _ => none
  finished := []
  entered := 0

def step : StepFunction (Sharing Thread Write) (BlockAction Thread Write)
  | state, .enter thread =>
      match state.current thread with
      | some _ => none
      | none =>
          match state.database.enter with
          | .error _ => some state
          | .ok (outermost, database) => some { state with
              database
              current := Function.update state.current thread
                (some { serial := state.entered, outermost, rows := [] })
              entered := state.entered + 1 }
  | state, .write thread row =>
      match state.current thread with
      | none => none
      | some block => some { state with
          database := state.database.write (· ++ [(block.serial, row)])
          current := Function.update state.current thread
            (some { block with rows := block.rows ++ [row] }) }
  | state, .leave thread exit =>
      match state.current thread with
      | none => none
      | some block =>
          let (database, error) := state.database.leave (exit == .raised) block.outermost
          some { state with
            database
            current := Function.update state.current thread none
            finished := state.finished ++
              [{ serial := block.serial, rows := block.rows,
                 exit := if error.isSome then .raised else exit }] }

/-- All rows of the blocks that exited normally are committed, and no row of a
block that exited with an exception is. -/
def Isolated (state : Sharing Thread Write) : Prop :=
  ∀ block ∈ state.finished,
    (block.exit = .normally → ∀ row ∈ block.rows,
      (block.serial, row) ∈ state.database.connection.committed) ∧
    (block.exit = .raised → ∀ row,
      (block.serial, row) ∉ state.database.connection.committed)

/-- A write is made only by the block that opened the connection's transaction. -/
def WritesOwnTransaction (state : Sharing Thread Write) :
    BlockAction Thread Write → Prop
  | .write thread _ => ∀ block ∈ state.current thread, block.outermost = true
  | .enter _ => True
  | .leave _ _ => True

instance (state : Sharing Thread Write) (action : BlockAction Thread Write) :
    Decidable (state.WritesOwnTransaction action) := by
  unfold WritesOwnTransaction
  split <;> infer_instance

def flags (current : Thread → Option (OpenBlock Write)) : Thread → Option Bool :=
  Option.map OpenBlock.outermost ∘ current

theorem flags_update (current : Thread → Option (OpenBlock Write)) (thread : Thread)
    (block : Option (OpenBlock Write)) :
    flags (Function.update current thread block) =
      Function.update (flags current) thread (block.map OpenBlock.outermost) :=
  Function.comp_update ..

/-- The journal inside the open transaction is the committed one followed by the
rows of the block that opened it; nested blocks have written nothing. -/
structure Orderly (state : Sharing Thread Write) : Prop where
  coherent : Coherent state.database (flags state.current)
  owner : ∀ thread block, state.current thread = some block → block.outermost = true →
    state.database.connection.working =
      some (state.database.connection.committed ++
        block.rows.map fun row => (block.serial, row))
  nested : ∀ thread block, state.current thread = some block →
    block.outermost = false → block.rows = []
  openSerial : ∀ thread block, state.current thread = some block →
    block.serial < state.entered ∧
      ∀ row, (block.serial, row) ∉ state.database.connection.committed
  finishedSerial : ∀ block ∈ state.finished, block.serial < state.entered ∧
    ∀ thread other, state.current thread = some other → other.serial ≠ block.serial
  committedSerial : ∀ entry ∈ state.database.connection.committed,
    entry.1 < state.entered
  isolated : state.Isolated
  distinct : ∀ first second firstBlock secondBlock,
    state.current first = some firstBlock → state.current second = some secondBlock →
    firstBlock.serial = secondBlock.serial → first = second

omit [DecidableEq Thread] in
theorem orderly_start : (start : Sharing Thread Write).Orderly where
  coherent := Coherent.closed []
  owner := by simp [start]
  nested := by simp [start]
  openSerial := by simp [start]
  finishedSerial := by simp [start]
  committedSerial := by simp [start, Database.closed]
  isolated := by simp [start, Isolated]
  distinct := by simp [start]

theorem Orderly.enter {state next : Sharing Thread Write} {thread : Thread}
    (orderly : state.Orderly) (stepped : step state (.enter thread) = some next) :
    next.Orderly := by
  simp only [step] at stepped
  cases held : state.current thread with
  | some block => simp [held] at stepped
  | none =>
      have idle : flags state.current thread = none := by simp [flags, held]
      rcases orderly.coherent.enter idle with
        ⟨outermost, entered, entry, coherent, opens, joins⟩
      simp only [held, entry, Option.some.injEq] at stepped
      subst stepped
      have committed : entered.connection.committed =
          state.database.connection.committed := by
        cases outermost with
        | true => rw [(opens rfl).2]
        | false => rw [joins rfl]
      constructor
      · rw [flags_update]
        exact coherent
      · intro other block occupied isOuter
        rcases update_eq_some occupied with ⟨_, written⟩ | ⟨_, before⟩
        · cases written
          simp [(opens isOuter).2]
        · have running := orderly.owner other block before isOuter
          cases outermost with
          | true =>
              rw [(opens rfl).1] at running
              cases running
          | false => simpa only [joins rfl] using running
      · intro other block occupied isNested
        rcases update_eq_some occupied with ⟨_, written⟩ | ⟨_, before⟩
        · cases written
          rfl
        · exact orderly.nested other block before isNested
      · intro other block occupied
        simp only [committed]
        rcases update_eq_some occupied with ⟨_, written⟩ | ⟨_, before⟩
        · cases written
          refine ⟨Nat.lt_succ_self _, fun row member => ?_⟩
          exact absurd (orderly.committedSerial _ member) (Nat.lt_irrefl _)
        · have holds := orderly.openSerial other block before
          exact ⟨Nat.lt_succ_of_lt holds.1, holds.2⟩
      · intro block member
        have holds := orderly.finishedSerial block member
        refine ⟨Nat.lt_succ_of_lt holds.1, ?_⟩
        intro other opened occupied
        rcases update_eq_some occupied with ⟨_, written⟩ | ⟨_, before⟩
        · cases written
          exact Nat.ne_of_gt holds.1
        · exact holds.2 other opened before
      · intro entry member
        simp only [committed] at member
        exact Nat.lt_succ_of_lt (orderly.committedSerial entry member)
      · intro block member
        simp only [committed]
        exact orderly.isolated block member
      · intro first second firstBlock secondBlock firstHolds secondHolds equal
        rcases update_eq_some firstHolds with ⟨firstSame, written⟩ | ⟨_, firstBefore⟩
        · rcases update_eq_some secondHolds with ⟨secondSame, _⟩ | ⟨_, secondBefore⟩
          · rw [firstSame, secondSame]
          · cases written
            exact absurd equal (Nat.ne_of_gt (orderly.openSerial _ _ secondBefore).1)
        · rcases update_eq_some secondHolds with ⟨_, written⟩ | ⟨_, secondBefore⟩
          · cases written
            exact absurd equal (Nat.ne_of_lt (orderly.openSerial _ _ firstBefore).1)
          · exact orderly.distinct _ _ _ _ firstBefore secondBefore equal

theorem Orderly.write {state next : Sharing Thread Write} {thread : Thread}
    {row : Write} (orderly : state.Orderly)
    (own : state.WritesOwnTransaction (.write thread row))
    (stepped : step state (.write thread row) = some next) : next.Orderly := by
  simp only [step] at stepped
  cases held : state.current thread with
  | none => simp [held] at stepped
  | some block =>
      simp only [held, Option.some.injEq] at stepped
      subst stepped
      have isOuter := own block held
      have running := orderly.owner thread block held isOuter
      have committed :
          (state.database.write (· ++ [(block.serial, row)])).connection.committed =
            state.database.connection.committed := by
        simp [Connection.write, running]
      -- A block open after the write was open before, under the same serial.
      have serials : ∀ other opened,
          Function.update state.current thread
            (some { block with rows := block.rows ++ [row] }) other = some opened →
          ∃ before, state.current other = some before ∧
            before.serial = opened.serial := by
        intro other opened occupied
        rcases update_eq_some occupied with ⟨same, written⟩ | ⟨_, before⟩
        · cases written
          exact ⟨block, same ▸ held, rfl⟩
        · exact ⟨opened, before, rfl⟩
      constructor
      · have sameFlags : Function.update (flags state.current) thread
            (some block.outermost) = flags state.current :=
          Function.update_eq_self_iff.mpr (by simp [flags, held])
        simpa only [flags_update, Option.map_some, sameFlags] using
          orderly.coherent.write (· ++ [(block.serial, row)])
      · intro other opened occupied outer
        rcases update_eq_some occupied with ⟨_, written⟩ | ⟨different, before⟩
        · cases written
          simp [Connection.write, running]
        · have sharedOwner := orderly.coherent.unique other thread
            (by simp [flags, before, outer]) (by simp [flags, held, isOuter])
          exact absurd sharedOwner different
      · intro other opened occupied isNested
        rcases update_eq_some occupied with ⟨_, written⟩ | ⟨_, before⟩
        · cases written
          simp [isOuter] at isNested
        · exact orderly.nested other opened before isNested
      · intro other opened occupied
        rcases serials other opened occupied with ⟨before, present, same⟩
        simp only [committed, ← same]
        exact orderly.openSerial other before present
      · intro finished member
        have holds := orderly.finishedSerial finished member
        refine ⟨holds.1, fun other opened occupied => ?_⟩
        rcases serials other opened occupied with ⟨before, present, same⟩
        rw [← same]
        exact holds.2 other before present
      · simp only [committed]
        exact orderly.committedSerial
      · intro finished member
        simp only [committed]
        exact orderly.isolated finished member
      · intro first second firstBlock secondBlock firstHolds secondHolds equal
        rcases serials first firstBlock firstHolds with ⟨_, firstBefore, firstSame⟩
        rcases serials second secondBlock secondHolds with ⟨_, secondBefore, secondSame⟩
        exact orderly.distinct _ _ _ _ firstBefore secondBefore
          (firstSame.trans (equal.trans secondSame.symm))

/-- What the exit of a block commits: an outermost block that exits normally adds
its own rows, and no other exit adds anything. -/
private theorem leave_effect {state : Sharing Thread Write} {thread : Thread}
    {block : OpenBlock Write} (exit : Exit) (orderly : state.Orderly)
    (held : state.current thread = some block) :
    ∃ left, state.database.leave (exit == .raised) block.outermost = (left, none) ∧
      Coherent left (Function.update (flags state.current) thread none) ∧
      (block.outermost = false → left.connection = state.database.connection) ∧
      left.connection.committed = state.database.connection.committed ++
        if exit = .normally then block.rows.map fun row => (block.serial, row) else [] := by
  have flag : flags state.current thread = some block.outermost := by simp [flags, held]
  rcases orderly.coherent.leave flag (exit == .raised) with
    ⟨left, exited, coherent, ends, counts⟩
  refine ⟨left, exited, coherent, counts, ?_⟩
  cases outer : block.outermost with
  | true =>
      rcases ends outer with ⟨content, running, connection⟩
      rw [orderly.owner thread block held outer, Option.some.injEq] at running
      subst running
      rw [connection]
      cases exit <;> simp
  | false =>
      rw [counts outer, orderly.nested thread block held outer]
      simp

theorem Orderly.leave {state next : Sharing Thread Write} {thread : Thread}
    {exit : Exit} (orderly : state.Orderly)
    (stepped : step state (.leave thread exit) = some next) : next.Orderly := by
  simp only [step] at stepped
  cases held : state.current thread with
  | none => simp [held] at stepped
  | some block =>
      rcases leave_effect exit orderly held with
        ⟨left, exited, coherent, counts, committed⟩
      simp only [held, exited, Option.isSome_none, Bool.false_eq_true, if_false,
        Option.some.injEq] at stepped
      subst stepped
      have blockSerial := orderly.openSerial thread block held
      -- A row of another serial is committed afterwards exactly if it was before.
      have unchanged : ∀ serial, serial ≠ block.serial → ∀ row,
          (serial, row) ∈ left.connection.committed ↔
            (serial, row) ∈ state.database.connection.committed := by
        intro serial different row
        rw [committed]
        cases exit <;> simp [Ne.symm different]
      have others : ∀ other opened,
          Function.update state.current thread none other = some opened →
          state.current other = some opened ∧ opened.serial ≠ block.serial := by
        intro other opened occupied
        rcases update_eq_some occupied with ⟨_, impossible⟩ | ⟨different, before⟩
        · cases impossible
        · exact ⟨before, fun equal =>
            different (orderly.distinct other thread opened block before held equal)⟩
      constructor
      · rw [flags_update]
        exact coherent
      · intro other opened occupied outer
        have before := (others other opened occupied).1
        cases ownOuter : block.outermost with
        | true =>
            have sharedOwner := orderly.coherent.unique other thread
              (by simp [flags, before, outer]) (by simp [flags, held, ownOuter])
            subst sharedOwner
            simp at occupied
        | false => simpa only [counts ownOuter] using orderly.owner other opened before outer
      · intro other opened occupied isNested
        exact orderly.nested other opened (others other opened occupied).1 isNested
      · intro other opened occupied
        rcases others other opened occupied with ⟨before, different⟩
        have holds := orderly.openSerial other opened before
        exact ⟨holds.1, fun row => (unchanged _ different row).not.mpr (holds.2 row)⟩
      · intro finished member
        rcases List.mem_append.mp member with earlier | latest
        · have holds := orderly.finishedSerial finished earlier
          exact ⟨holds.1, fun other opened occupied =>
            holds.2 other opened (others other opened occupied).1⟩
        · rw [List.mem_singleton] at latest
          subst latest
          exact ⟨blockSerial.1, fun other opened occupied =>
            (others other opened occupied).2⟩
      · intro entry member
        simp only [committed, List.mem_append] at member
        rcases member with earlier | latest
        · exact orderly.committedSerial entry earlier
        · cases exit with
          | normally =>
              simp only [if_true, List.mem_map] at latest
              rcases latest with ⟨row, _, rfl⟩
              exact blockSerial.1
          | raised => simp at latest
      · intro finished member
        rcases List.mem_append.mp member with earlier | latest
        · have different : finished.serial ≠ block.serial :=
            ((orderly.finishedSerial finished earlier).2 thread block held).symm
          have holds := orderly.isolated finished earlier
          exact ⟨fun normal row inside =>
              (unchanged _ different row).mpr (holds.1 normal row inside),
            fun failed row => (unchanged _ different row).not.mpr (holds.2 failed row)⟩
        · rw [List.mem_singleton] at latest
          subst latest
          constructor
          · intro normal row inside
            simp only at normal
            simp [committed, normal, inside]
          · intro failed row
            simp only at failed
            simp [committed, failed, blockSerial.2 row]
      · intro first second firstBlock secondBlock firstHolds secondHolds equal
        exact orderly.distinct _ _ _ _ (others _ _ firstHolds).1
          (others _ _ secondHolds).1 equal

theorem Orderly.step {state next : Sharing Thread Write}
    {action : BlockAction Thread Write} (orderly : state.Orderly)
    (own : state.WritesOwnTransaction action)
    (stepped : step state action = some next) : next.Orderly := by
  cases action with
  | enter thread => exact orderly.enter stepped
  | write thread row => exact orderly.write own stepped
  | leave thread exit => exact orderly.leave stepped

/-- Blocks are isolated in every state that is reached while each write is made
by the block that opened the transaction. -/
theorem isolated_of_writesOwnTransaction {actions : List (BlockAction Thread Write)}
    {state : Sharing Thread Write}
    (own : StepFunction.Meets step WritesOwnTransaction start actions)
    (reached : StepFunction.run step start actions = some state) : state.Isolated :=
  (StepFunction.invariant_of_meets
    (fun _ _ _ orderly meets stepped => Orderly.step orderly meets stepped)
    orderly_start own reached).isolated

/-- One thread's block commits while the other thread's block, entered after it,
is rolled back with the first: the second exited normally and its row is lost. -/
def rolledBackWithOther : List (BlockAction Bool Nat) :=
  [.enter false, .enter true, .write true 1, .leave true .normally, .leave false .raised]

theorem rolledBackWithOther_loses_row :
    ∃ state, StepFunction.run step start rolledBackWithOther = some state ∧
      ¬state.Isolated := by
  refine ⟨_, rfl, fun isolated => ?_⟩
  have kept := (isolated { serial := 1, rows := [1], exit := .normally } (by decide)).1
    rfl 1 (by decide)
  exact absurd kept (by decide)

/-- Two blocks one after the other meet the condition, and the failed one leaves
nothing. -/
theorem isolated_of_separate_blocks :
    ∃ state, StepFunction.run step (start : Sharing Bool Nat)
        [.enter false, .write false 1, .leave false .raised,
          .enter true, .write true 2, .leave true .normally] = some state ∧
      state.Isolated :=
  ⟨_, rfl, @isolated_of_writesOwnTransaction _ _ _
    [.enter false, .write false 1, .leave false .raised,
      .enter true, .write true 2, .leave true .normally] _ (by decide) rfl⟩

end Sharing

end Raphael.Persistence
