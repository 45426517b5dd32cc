import Raphael.Persistence.Database

/-! # Nested transaction blocks in one thread

A program is any well-nested arrangement of `transaction()` blocks, writes,
raises and `try` statements. The content of the database is the journal of the
writes applied to it, so every occurrence of a write can be followed. -/

namespace Raphael.Persistence

/-- How a program or a block ends. `raised` stands for an `Exception`, the class
that the block's handler names. -/
inductive Exit
  | normally
  | raised
  deriving DecidableEq, Repr

/-- Programs over one `Database`. `attempt` is a `try` statement that catches
what its body raises. -/
inductive Program (Write : Type u)
  | skip
  | write (row : Write)
  | raise
  | sequence (first second : Program Write)
  | block (body : Program Write)
  | attempt (body handler : Program Write)
  deriving Repr

namespace Program

variable {Write : Type u}

def execute : Program Write → Database (List Write) → Exit × Database (List Write)
  | .skip, database => (.normally, database)
  | .write row, database => (.normally, database.write (· ++ [row]))
  | .raise, database => (.raised, database)
  | .sequence first second, database =>
      match execute first database with
      | (.normally, middle) => execute second middle
      | (.raised, middle) => (.raised, middle)
  | .block body, database =>
      match database.enter with
      | .error _ => (.raised, database)
      | .ok (outermost, opened) =>
          match execute body opened with
          | (exit, finished) =>
              match finished.leave (exit == .raised) outermost with
              | (left, none) => (exit, left)
              | (left, some _) => (.raised, left)
  | .attempt body handler, database =>
      match execute body database with
      | (.raised, middle) => execute handler middle
      | (.normally, middle) => (.normally, middle)

/-! ## What a program does, read off its text

How a program ends depends on its raises and catches alone. The writes that
matter to a property are collected along the path the program takes, with one
rule for a write and one for a block. -/

def exits : Program Write → Exit
  | .skip => .normally
  | .write _ => .normally
  | .raise => .raised
  | .sequence first second => if first.exits = .normally then second.exits else .raised
  | .block body => body.exits
  | .attempt body handler => if body.exits = .raised then handler.exits else .normally

def collect (onWrite : Write → List Write)
    (onBlock : Program Write → List Write → List Write) : Program Write → List Write
  | .skip => []
  | .write row => onWrite row
  | .raise => []
  | .sequence first second =>
      first.collect onWrite onBlock ++
        if first.exits = .normally then second.collect onWrite onBlock else []
  | .block body => onBlock body (body.collect onWrite onBlock)
  | .attempt body handler =>
      body.collect onWrite onBlock ++
        if body.exits = .raised then handler.collect onWrite onBlock else []

/-- All writes the program makes, in order. -/
def executed : Program Write → List Write :=
  collect (fun row => [row]) fun _ inside => inside

/-- The writes made outside every block that exits by an exception. -/
def surviving : Program Write → List Write :=
  collect (fun row => [row]) fun body inside =>
    if body.exits = .normally then inside else []

/-- The writes made inside some block that exits by an exception. -/
def discarded : Program Write → List Write :=
  collect (fun _ => []) fun body inside =>
    if body.exits = .normally then inside else body.executed

/-- The writes made inside an inner block that exits by an exception, while the
outermost block around it exits normally. -/
def swallowed : Program Write → List Write :=
  collect (fun _ => []) fun body _ =>
    if body.exits = .normally then body.discarded else []

/-- The writes whose outermost block exits normally, or that stand in no block. -/
def durable : Program Write → List Write :=
  collect (fun row => [row]) fun body _ =>
    if body.exits = .normally then body.executed else []

theorem collect_sublist {leftWrite rightWrite : Write → List Write}
    {leftBlock rightBlock : Program Write → List Write → List Write}
    (atWrite : ∀ row, (leftWrite row).Sublist (rightWrite row))
    (atBlock : ∀ body : Program Write,
      (body.collect leftWrite leftBlock).Sublist (body.collect rightWrite rightBlock) →
      (leftBlock body (body.collect leftWrite leftBlock)).Sublist
        (rightBlock body (body.collect rightWrite rightBlock)))
    (program : Program Write) :
    (program.collect leftWrite leftBlock).Sublist
      (program.collect rightWrite rightBlock) := by
  induction program with
  | skip => exact .slnil
  | write row => exact atWrite row
  | raise => exact .slnil
  | sequence first second firstInduction secondInduction =>
      simp only [collect]
      apply firstInduction.append
      split
      · exact secondInduction
      · exact .slnil
  | block body induction => exact atBlock body induction
  | attempt body handler bodyInduction handlerInduction =>
      simp only [collect]
      apply bodyInduction.append
      split
      · exact handlerInduction
      · exact .slnil

theorem collect_length_add {wholeWrite leftWrite rightWrite : Write → List Write}
    {wholeBlock leftBlock rightBlock : Program Write → List Write → List Write}
    (atWrite : ∀ row, (wholeWrite row).length =
      (leftWrite row).length + (rightWrite row).length)
    (atBlock : ∀ body : Program Write,
      (body.collect wholeWrite wholeBlock).length =
        (body.collect leftWrite leftBlock).length +
          (body.collect rightWrite rightBlock).length →
      (wholeBlock body (body.collect wholeWrite wholeBlock)).length =
        (leftBlock body (body.collect leftWrite leftBlock)).length +
          (rightBlock body (body.collect rightWrite rightBlock)).length)
    (program : Program Write) :
    (program.collect wholeWrite wholeBlock).length =
      (program.collect leftWrite leftBlock).length +
        (program.collect rightWrite rightBlock).length := by
  induction program with
  | skip => rfl
  | write row => exact atWrite row
  | raise => rfl
  | sequence first second firstInduction secondInduction =>
      simp only [collect, List.length_append]
      split
      · omega
      · simpa using firstInduction
  | block body induction => exact atBlock body induction
  | attempt body handler bodyInduction handlerInduction =>
      simp only [collect, List.length_append]
      split
      · omega
      · simpa using bodyInduction

theorem executed_length (program : Program Write) :
    program.executed.length = program.surviving.length + program.discarded.length := by
  apply collect_length_add
  · intro row
    rfl
  · intro body whole
    split
    · exact whole
    · simp [executed]

theorem surviving_sublist_executed (program : Program Write) :
    program.surviving.Sublist program.executed := by
  apply collect_sublist
  · intro row
    exact List.Sublist.refl _
  · intro body inside
    split
    · exact inside
    · exact List.nil_sublist _

theorem surviving_sublist_durable (program : Program Write) :
    program.surviving.Sublist program.durable := by
  apply collect_sublist
  · intro row
    exact List.Sublist.refl _
  · intro body _
    split
    · exact body.surviving_sublist_executed
    · exact List.Sublist.refl _

theorem durable_length (program : Program Write) :
    program.durable.length = program.surviving.length + program.swallowed.length := by
  apply collect_length_add
  · intro row
    rfl
  · intro body _
    split
    · exact body.executed_length
    · rfl

/-! ## What the database keeps -/

/-- Inside an open transaction every write joins it, whatever the blocks around
the write do. -/
theorem execute_inside (program : Program Write) (committed content : List Write)
    (depth : Nat) :
    program.execute
        { connection := { committed, working := some content }, txDepth := depth + 1 } =
      (program.exits, {
        connection := { committed, working := some (content ++ program.executed) }
        txDepth := depth + 1 }) := by
  induction program generalizing content depth with
  | skip => simp [execute, exits, executed, collect]
  | write row =>
      simp [execute, exits, executed, collect, Database.write, Connection.write]
  | raise => simp [execute, exits, executed, collect]
  | sequence first second firstInduction secondInduction =>
      simp only [execute, firstInduction, exits, executed, collect]
      cases ending : first.exits with
      | normally =>
          simp [secondInduction, executed, List.append_assoc]
      | raised => simp
  | block body induction =>
      simp only [execute, Database.enter_nested, induction, Database.leave_nested]
      rfl
  | attempt body handler bodyInduction handlerInduction =>
      simp only [execute, bodyInduction, exits, executed, collect]
      cases ending : body.exits with
      | normally => simp
      | raised =>
          simp [handlerInduction, executed, List.append_assoc]

/-- From a database at rest a program ends at rest, with exactly the durable
writes added. -/
theorem execute_closed (program : Program Write) (committed : List Write) :
    program.execute (.closed committed) =
      (program.exits, .closed (committed ++ program.durable)) := by
  induction program generalizing committed with
  | skip => simp [execute, exits, durable, collect]
  | write row =>
      simp [execute, exits, durable, collect, Database.write, Connection.write,
        Database.closed]
  | raise => simp [execute, exits, durable, collect]
  | sequence first second firstInduction secondInduction =>
      simp only [execute, firstInduction, exits, durable, collect]
      cases ending : first.exits with
      | normally =>
          simp [secondInduction, durable, List.append_assoc]
      | raised => simp
  | block body _ =>
      simp only [execute, Database.closed, Database.enter_outermost,
        execute_inside body, Database.leave_outermost, exits, durable, collect]
      cases body.exits <;> simp
  | attempt body handler bodyInduction handlerInduction =>
      simp only [execute, bodyInduction, exits, durable, collect]
      cases ending : body.exits with
      | normally => simp
      | raised =>
          simp [handlerInduction, durable, List.append_assoc]

/-- The rollback law of nested blocks: after the program the committed database
holds, beside what it held before, the writes outside every block that exited by
an exception and no other write. -/
def RollsBackFailedBlocks (program : Program Write) : Prop :=
  ∀ committed : List Write,
    (program.execute (.closed committed)).2.connection.committed =
      committed ++ program.surviving

/-- The code keeps the rollback law exactly for the programs that swallow no
write: a block that only counts the depth has no savepoint to roll back to. -/
theorem rollsBackFailedBlocks_iff (program : Program Write) :
    program.RollsBackFailedBlocks ↔ program.swallowed = [] := by
  have lengths := program.durable_length
  have committedAfter : ∀ committed : List Write,
      (program.execute (.closed committed)).2.connection.committed =
        committed ++ program.durable := by
    intro committed
    rw [execute_closed]
    rfl
  constructor
  · intro holds
    have kept : program.durable = program.surviving :=
      List.append_cancel_left ((committedAfter []).symm.trans (holds []))
    rw [kept] at lengths
    exact List.eq_nil_of_length_eq_zero (by omega)
  · intro nothing committed
    have sameLength : program.surviving.length = program.durable.length := by
      rw [lengths, nothing, List.length_nil, Nat.add_zero]
    rw [committedAfter, program.surviving_sublist_durable.eq_of_length sameLength]

/-- The outer block catches what the inner block raises and exits normally. -/
def caughtInnerFailure : Program Nat :=
  .block (.sequence (.attempt (.block (.sequence (.write 1) .raise)) .skip) (.write 2))

theorem caughtInnerFailure_keeps_write :
    ¬caughtInnerFailure.RollsBackFailedBlocks := by
  intro holds
  exact absurd (holds []) (by decide)

end Program

end Raphael.Persistence
