import Raphael.Core.Enums
import Raphael.Core.Events
import Raphael.Foundation.Dict
import Raphael.Persistence.Database

/-! # `TaskManager.create_task`

The rows of a new task and the event that tells of it. Any statement may fail, and a
subscriber may raise. -/

namespace Raphael.Runtime

open Core Foundation Persistence

structure TaskRow where
  title : String
  state : TaskState := .created
  deriving DecidableEq, Repr

structure ContextRow where
  goal : String
  currentState : TaskState := .created
  deriving DecidableEq, Repr

structure TaskStore where
  tasks : Dict String TaskRow := Dict.empty
  contexts : Dict String ContextRow := Dict.empty

/-- The row and the context of a task are there. -/
def TaskStore.Holds (store : TaskStore) (taskId : String) : Prop :=
  (store.tasks.get taskId).isSome ∧ (store.contexts.get taskId).isSome

/-- A handler with what it does to the database, whether it returns or raises. No handler
deletes a task. -/
structure Subscriber where
  handle : Event → Database TaskStore → Except String Unit × Database TaskStore
  keeps : ∀ event database taskId, database.connection.committed.Holds taskId →
    (handle event database).2.connection.committed.Holds taskId

/-- A handler is called with an event while the database is as it is. -/
structure Delivery where
  event : Event
  database : Database TaskStore

/-- `EventBus.publish` to the handlers of the event, in order. -/
def publish (event : Event) : List Subscriber → Database TaskStore →
    List Delivery × Database TaskStore
  | [], database => ([], database)
  | subscriber :: rest, database =>
      -- A raising handler is isolated: delivery goes on.
      let (observed, after) := publish event rest (subscriber.handle event database).2
      ({ event, database } :: observed, after)

/-- The statements that fail. -/
structure Faults where
  begins : Bool := false
  insertsTask : Bool := false
  savesContext : Bool := false
  commits : Bool := false

inductive CreationError
  | sqlite (error : SqliteError)
  /-- A PersistenceError or a sqlite3.Error. -/
  | database
  deriving DecidableEq, Repr

/-- How a call ends, and what was observed meanwhile. -/
structure Creation where
  result : Except CreationError Unit
  observed : List Delivery
  database : Database TaskStore

structure TaskCreator where
  /-- A database was given to the manager. -/
  hasDatabase : Bool := true
  subscribers : List Subscriber

namespace TaskCreator

def created (taskId title goal : String) : Event where
  eventType := .taskCreated
  taskId := taskId
  payload := [("title", .str title), ("goal", .str (if goal = "" then title else goal))]

def insertTask (taskId title : String) (store : TaskStore) : TaskStore :=
  { store with tasks := store.tasks.set taskId { title } }

def saveContext (taskId title goal : String) (store : TaskStore) : TaskStore :=
  { store with
    contexts := store.contexts.set taskId { goal := if goal = "" then title else goal } }

/-- `_create_task`, for a task with a new id. -/
def createRows (creator : TaskCreator) (faults : Faults) (taskId title goal : String)
    (database : Database TaskStore) : Creation :=
  if faults.insertsTask then ⟨.error .database, [], database⟩
  else
    let inserted := database.write (insertTask taskId title)
    if faults.savesContext then ⟨.error .database, [], inserted⟩
    else
      let (observed, after) := publish (created taskId title goal) creator.subscribers
        (inserted.write (saveContext taskId title goal))
      ⟨.ok (), observed, after⟩

/-- Entry of the block; BEGIN may fail. -/
def enter (faults : Faults) (database : Database TaskStore) :
    Except CreationError (Bool × Database TaskStore) :=
  if database.txDepth = 0 ∧ faults.begins = true then .error .database
  else database.enter.mapError .sqlite

/-- Exit of the block; a COMMIT that fails leaves the transaction open. -/
def leave (faults : Faults) (raised outermost : Bool) (database : Database TaskStore) :
    Database TaskStore × Option CreationError :=
  if outermost && !raised && faults.commits then
    ({ database with txDepth := database.txDepth - 1 }, some .database)
  else
    let (left, failure) := database.leave raised outermost
    (left, failure.map .sqlite)

def createTask (creator : TaskCreator) (faults : Faults) (taskId title goal : String)
    (database : Database TaskStore) : Creation :=
  if creator.hasDatabase then
    match enter faults database with
    | .error error => ⟨.error error, [], database⟩
    | .ok (outermost, opened) =>
        let body := creator.createRows faults taskId title goal opened
        match body.result with
        | .error error =>
            let (left, failure) := leave faults true outermost body.database
            ⟨.error (failure.getD error), body.observed, left⟩
        | .ok () =>
            let (left, failure) := leave faults false outermost body.database
            match failure with
            | some error => ⟨.error error, body.observed, left⟩
            | none => ⟨.ok (), body.observed, left⟩
  else creator.createRows faults taskId title goal database

/-! ## When the event is observed -/

/-- The task is committed whenever a handler is called. -/
def CommittedWhenObserved (taskId : String) (observed : List Delivery) : Prop :=
  ∀ delivery ∈ observed, delivery.database.connection.committed.Holds taskId

/-- The handlers see the task committed from the first of them on, or there is none. -/
theorem committedWhenObserved_publish_iff (taskId : String) (event : Event)
    (subscribers : List Subscriber) (database : Database TaskStore) :
    CommittedWhenObserved taskId (publish event subscribers database).1 ↔
      subscribers = [] ∨ database.connection.committed.Holds taskId := by
  induction subscribers generalizing database with
  | nil => simp [publish, CommittedWhenObserved]
  | cons subscriber rest induction =>
      have later := induction (subscriber.handle event database).2
      unfold CommittedWhenObserved at later ⊢
      simp only [publish, List.forall_mem_cons, later, reduceCtorEq, false_or]
      constructor
      · exact fun both => both.1
      · intro holds
        exact ⟨holds, .inr (subscriber.keeps event database taskId holds)⟩

private theorem holds_rows (taskId title goal : String) (store : TaskStore) :
    (saveContext taskId title goal (insertTask taskId title store)).Holds taskId := by
  constructor <;> simp [saveContext, insertTask, Dict.get_set]

/-- The rows are committed at once when no transaction is open, and not at all
otherwise. -/
private theorem committedWhenObserved_createRows_iff (creator : TaskCreator)
    (faults : Faults) (taskId title goal : String) {database : Database TaskStore}
    (new : database.connection.committed.tasks.get taskId = none) :
    CommittedWhenObserved taskId
        (creator.createRows faults taskId title goal database).observed ↔
      creator.subscribers = [] ∨ faults.insertsTask = true ∨ faults.savesContext = true ∨
        database.connection.working = none := by
  unfold createRows
  by_cases unwritten : faults.insertsTask = true
  · simp [unwritten, CommittedWhenObserved]
  · by_cases unsaved : faults.savesContext = true
    · simp [unwritten, unsaved, CommittedWhenObserved]
    · rw [if_neg unwritten, if_neg unsaved]
      dsimp only
      rw [committedWhenObserved_publish_iff]
      simp only [unwritten, unsaved, Database.write_connection, Connection.write]
      rcases database with ⟨⟨committed, working⟩, depth⟩
      cases working with
      | none => simp [holds_rows]
      | some content =>
          have absent : ¬ committed.Holds taskId := by
            rintro ⟨present, _⟩
            rw [show committed.tasks.get taskId = none from new] at present
            cases present
          simp [absent]

/-- The call fails before it publishes: a write fails, or BEGIN does. -/
def FailsBefore (creator : TaskCreator) (faults : Faults)
    (database : Database TaskStore) : Prop :=
  faults.insertsTask = true ∨ faults.savesContext = true ∨
    creator.hasDatabase = true ∧ database.txDepth = 0 ∧
      (faults.begins = true ∨ database.connection.working ≠ none)

/-- The rows are written in autocommit mode: no transaction is open, and the call opens
none. -/
def WritesThrough (creator : TaskCreator) (database : Database TaskStore) : Prop :=
  database.connection.working = none ∧
    (creator.hasDatabase = true → database.txDepth ≠ 0)

/-- What was observed in a block was observed in its body. -/
private theorem observed_of_entered (creator : TaskCreator) {faults : Faults}
    (taskId title goal : String) {database opened : Database TaskStore} {outermost : Bool}
    (has : creator.hasDatabase = true)
    (entered : enter faults database = .ok (outermost, opened)) :
    (creator.createTask faults taskId title goal database).observed =
      (creator.createRows faults taskId title goal opened).observed := by
  unfold createTask
  rw [if_pos has, entered]
  dsimp only
  cases (creator.createRows faults taskId title goal opened).result with
  | error error => rfl
  | ok _ =>
      dsimp only
      cases (leave faults false outermost
        (creator.createRows faults taskId title goal opened).database).2 <;> rfl

private theorem observed_of_refused (creator : TaskCreator) {faults : Faults}
    (taskId title goal : String) {database : Database TaskStore} {error : CreationError}
    (has : creator.hasDatabase = true) (refused : enter faults database = .error error) :
    (creator.createTask faults taskId title goal database).observed = [] := by
  unfold createTask
  rw [if_pos has, refused]

/-- BEGIN fails, or a transaction is open that the block does not know of. -/
private theorem enter_of_depth_zero (faults : Faults) {database : Database TaskStore}
    (depth : database.txDepth = 0) :
    (∃ error, enter faults database = .error error ∧
      (faults.begins = true ∨ database.connection.working ≠ none)) ∨
    ∃ opened, enter faults database = .ok (true, opened) ∧
      faults.begins = false ∧ database.connection.working = none ∧
      opened.connection =
        { database.connection with working := some database.connection.committed } := by
  rcases database with ⟨⟨committed, working⟩, txDepth⟩
  cases depth
  unfold enter
  cases begins : faults.begins with
  | true => exact .inl ⟨_, if_pos ⟨rfl, rfl⟩, .inl rfl⟩
  | false =>
      rw [if_neg (by simp)]
      cases working with
      | none => exact .inr ⟨_, rfl, rfl, rfl, rfl⟩
      | some content => exact .inl ⟨_, rfl, .inr (by simp)⟩

/-- A new task is committed whenever its event is observed, if and only if there is no
handler, or the call fails before it publishes, or the rows are written in autocommit
mode. -/
theorem committedWhenObserved_iff (creator : TaskCreator) (faults : Faults)
    (taskId title goal : String) {database : Database TaskStore}
    (new : database.connection.committed.tasks.get taskId = none) :
    CommittedWhenObserved taskId
        (creator.createTask faults taskId title goal database).observed ↔
      creator.subscribers = [] ∨ creator.FailsBefore faults database ∨
        creator.WritesThrough database := by
  unfold FailsBefore WritesThrough
  cases has : creator.hasDatabase with
  | false =>
      have same : (creator.createTask faults taskId title goal database).observed =
          (creator.createRows faults taskId title goal database).observed := by
        unfold createTask
        rw [if_neg (by simp [has])]
      rw [same, committedWhenObserved_createRows_iff creator faults taskId title goal new]
      simp [or_assoc]
  | true =>
      by_cases depth : database.txDepth = 0
      · rcases enter_of_depth_zero faults depth with
          ⟨error, refused, why⟩ | ⟨opened, entered, begins, working, connection⟩
        · rw [observed_of_refused creator taskId title goal has refused]
          simp [CommittedWhenObserved, depth, why]
        · rw [observed_of_entered creator taskId title goal has entered,
            committedWhenObserved_createRows_iff creator faults taskId title goal
              (by rw [connection]; exact new), connection]
          simp [depth, begins, working]
      · have entered : enter faults database =
            .ok (false, { database with txDepth := database.txDepth + 1 }) := by
          unfold enter Database.enter
          rw [if_neg (fun both => depth both.1), if_neg depth]
          rfl
        rw [observed_of_entered creator taskId title goal has entered,
          @committedWhenObserved_createRows_iff creator faults taskId title goal
            { database with txDepth := database.txDepth + 1 } new]
        simp [depth, or_assoc]

/-- A handler that only looks. -/
def watcher : Subscriber where
  handle _ database := (.ok (), database)
  keeps _ _ _ holds := holds

theorem committedWhenObserved_iff_of_watcher :
    CommittedWhenObserved "task-1"
        (createTask { subscribers := [watcher] } {} "task-1" "title" ""
          (.closed {})).observed ↔
      [watcher] = [] ∨ FailsBefore { subscribers := [watcher] } {} (.closed {}) ∨
        WritesThrough { subscribers := [watcher] } (.closed {}) :=
  committedWhenObserved_iff { subscribers := [watcher] } {} "task-1" "title" "" rfl

/-- The handler is called inside the transaction of the call. -/
theorem published_before_commit :
    ¬ ∀ (creator : TaskCreator) (faults : Faults) (taskId title goal : String)
      (database : Database TaskStore),
      database.connection.committed.tasks.get taskId = none →
      CommittedWhenObserved taskId
        (creator.createTask faults taskId title goal database).observed := by
  intro commits
  have holds := commits { subscribers := [watcher] } {} "task-1" "title" "" (.closed {}) rfl
    _ List.mem_cons_self
  exact absurd holds.1 (by decide +kernel)

end TaskCreator

end Raphael.Runtime
