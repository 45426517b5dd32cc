import Mathlib.Data.List.Basic

/-! # The shared SQLite connection

`Database` owns one connection in autocommit mode and a depth counter. The lock
is held for single statements only, so each operation below is one atomic step
and the body of a `transaction()` block runs between two of them. -/

namespace Raphael.Persistence

/-- What the connection raises when a transaction statement does not fit its
state. -/
inductive SqliteError
  | transactionWithinTransaction
  | noTransactionActive
  deriving DecidableEq, Repr

/-- One connection: the committed content, and the content seen inside the open
transaction if there is one. -/
structure Connection (Content : Type u) where
  committed : Content
  working : Option Content
  deriving DecidableEq, Repr

namespace Connection

variable {Content : Type u}

/-- What a statement on this connection reads. -/
def visible (connection : Connection Content) : Content :=
  connection.working.getD connection.committed

def beginImmediate (connection : Connection Content) :
    Except SqliteError (Connection Content) :=
  match connection.working with
  | none => .ok { connection with working := some connection.committed }
  | some _ => .error .transactionWithinTransaction

def commit (connection : Connection Content) :
    Except SqliteError (Connection Content) :=
  match connection.working with
  | some content => .ok { committed := content, working := none }
  | none => .error .noTransactionActive

def rollback (connection : Connection Content) :
    Except SqliteError (Connection Content) :=
  match connection.working with
  | some _ => .ok { connection with working := none }
  | none => .error .noTransactionActive

/-- A writing statement: it joins the open transaction, and commits at once when
there is none. -/
def write (connection : Connection Content) (update : Content → Content) :
    Connection Content :=
  match connection.working with
  | some content => { connection with working := some (update content) }
  | none => { connection with committed := update connection.committed }

@[simp] theorem visible_of_closed (committed : Content) :
    visible { committed, working := none } = committed := rfl

@[simp] theorem visible_write (connection : Connection Content)
    (update : Content → Content) :
    (connection.write update).visible = update connection.visible := by
  rcases connection with ⟨committed, working⟩
  cases working <;> rfl

end Connection

/-- The connection and `_tx_depth`. -/
structure Database (Content : Type u) where
  connection : Connection Content
  txDepth : Nat
  deriving DecidableEq, Repr

namespace Database

variable {Content : Type u}

/-- A database at rest: no block is open. -/
def closed (committed : Content) : Database Content where
  connection := { committed, working := none }
  txDepth := 0

/-- Entry of a `transaction()` block. The flag is the block's local
`outermost`. -/
def enter (database : Database Content) :
    Except SqliteError (Bool × Database Content) :=
  if database.txDepth = 0 then
    match database.connection.beginImmediate with
    | .ok connection => .ok (true, { connection, txDepth := database.txDepth + 1 })
    | .error error => .error error
  else
    .ok (false, { database with txDepth := database.txDepth + 1 })

/-- Exit of a `transaction()` block. The depth is decremented first, so it stays
decremented when the statement after it raises. -/
def leave (raised outermost : Bool) (database : Database Content) :
    Database Content × Option SqliteError :=
  let lowered := { database with txDepth := database.txDepth - 1 }
  if outermost then
    match if raised then lowered.connection.rollback else lowered.connection.commit with
    | .ok connection => ({ lowered with connection }, none)
    | .error error => (lowered, some error)
  else
    (lowered, none)

def write (database : Database Content) (update : Content → Content) :
    Database Content :=
  { database with connection := database.connection.write update }

/-- Entering at depth zero without an open transaction begins one. -/
theorem enter_outermost (committed : Content) :
    enter { connection := { committed, working := none }, txDepth := 0 } =
      .ok (true, {
        connection := { committed, working := some committed }
        txDepth := 1 }) := rfl

/-- Entering at a positive depth only counts. -/
theorem enter_nested (connection : Connection Content) (depth : Nat) :
    enter { connection, txDepth := depth + 1 } =
      .ok (false, { connection, txDepth := depth + 1 + 1 }) := by
  simp [enter]

/-- Leaving a nested block only counts, whether or not it raised. -/
theorem leave_nested (raised : Bool) (connection : Connection Content) (depth : Nat) :
    leave raised false { connection, txDepth := depth + 1 } =
      ({ connection, txDepth := depth }, none) := by
  simp [leave]

theorem leave_outermost (raised : Bool) (committed content : Content) (depth : Nat) :
    leave raised true
        { connection := { committed, working := some content }, txDepth := depth + 1 } =
      ({
        connection :=
          { committed := if raised then committed else content, working := none }
        txDepth := depth }, none) := by
  cases raised <;> rfl

/-- Entering changes nothing that a statement reads. -/
theorem enter_visible {database entered : Database Content} {outermost : Bool}
    (entry : database.enter = .ok (outermost, entered)) :
    entered.connection.visible = database.connection.visible := by
  rcases database with ⟨⟨committed, working⟩, depth⟩
  cases depth with
  | zero =>
      cases working with
      | none =>
          cases entry
          rfl
      | some _ => cases entry
  | succ depth =>
      rw [enter_nested] at entry
      cases entry
      rfl

/-- Only a ROLLBACK changes what a statement reads. -/
theorem leave_visible (database : Database Content) {raised outermost : Bool}
    (kept : ¬ (raised = true ∧ outermost = true)) :
    (database.leave raised outermost).1.connection.visible = database.connection.visible := by
  rcases database with ⟨⟨committed, working⟩, depth⟩
  cases outermost with
  | false => rfl
  | true =>
      cases raised with
      | false => cases working <;> rfl
      | true => exact absurd ⟨rfl, rfl⟩ kept

theorem leave_rolledBack (database : Database Content) :
    (database.leave true true).1.connection.visible = database.connection.committed := by
  rcases database with ⟨⟨committed, working⟩, depth⟩
  cases working <;> rfl

@[simp] theorem write_txDepth (database : Database Content)
    (update : Content → Content) :
    (database.write update).txDepth = database.txDepth := rfl

@[simp] theorem write_connection (database : Database Content)
    (update : Content → Content) :
    (database.write update).connection = database.connection.write update := rfl

end Database

end Raphael.Persistence
