import Raphael.Core.Errors
import Raphael.Core.EventStore
import Raphael.Foundation.StepSystem

/-! # Polling the events of a task

A client asks the API for the events of a task since the last number that it has seen. The API
hands `since - 1` to a store whose answer begins behind the number it is given, so that the
last event seen is answered again. -/

namespace Raphael.Interface

open Core Foundation

inductive RequestError
  /-- An `ApiError`. -/
  | api (code message : String)
  /-- A `ResourceNotFoundError`. -/
  | notFound (resource resourceId : String)
  deriving DecidableEq

/-- One entry of an answer. -/
structure TaskEvent where
  seq : Int
  type : EventType
  taskId : String
  payload : List (String × Json)
  createdAt : Int

/-- What the API reads: the tasks that are stored, the event store, and the redactor. -/
structure EventApi where
  stored : String → Bool
  redact : List (String × Json) → Except Error (List (String × Json))

namespace EventApi

variable (api : EventApi)

/-- `_require`. -/
def require (taskId : String) : Except RequestError Unit :=
  if taskId = "" then
    .error (.api "malformed_request" "task_id must be a non-empty string")
  else if api.stored taskId then .ok ()
  else .error (.notFound "Task" taskId)

/-- `_redacted`. -/
def redacted (event : Event) : List (String × Json) :=
  match api.redact event.payload with
  | .ok payload => payload
  | .error _ => [("redacted", .bool true)]

def view (entry : Int × Event) : TaskEvent where
  seq := entry.1
  type := entry.2.eventType
  taskId := entry.2.taskId
  payload := api.redacted entry.2
  createdAt := entry.2.createdAt

end EventApi

/-- `_events_for_since`. -/
def eventsForSince (eventStore : Option EventStore) (taskId : String) (since : Int) :
    Numbered :=
  match eventStore with
  | none => []
  | some (.inMemory store) =>
      (store.eventsSince (since - 1)).filter fun entry => entry.2.taskId == taskId
  | some (.durable store) =>
      (store.eventsSince (since - 1)).filter fun entry => entry.2.taskId == taskId
  | some (.listed events) =>
      (enumerate events).filter fun entry =>
        entry.2.taskId == taskId && decide (since ≤ entry.1)

def EventApi.getTaskEvents (api : EventApi) (eventStore : Option EventStore)
    (taskId : String) (since : Int) : Except RequestError (List TaskEvent) :=
  (api.require taskId).map fun _ => (eventsForSince eventStore taskId since).map api.view

/-- The log, what a client of one task has received, and the log as it was at the last poll
that was answered. -/
structure Polling where
  store : Option EventStore
  received : List TaskEvent := []
  read : Numbered := []

inductive PollingAction
  | append (event : Event)
  | poll

namespace Polling

def log (state : Polling) : Numbered :=
  (state.store.map EventStore.entries).getD []

/-- The last number that the client has seen, zero before it has seen any. -/
def since (state : Polling) : Int :=
  (state.received.getLast?.map TaskEvent.seq).getD 0

def step (api : EventApi) (taskId : String) : StepFunction Polling PollingAction
  | state, .append event =>
      some { state with store := state.store.map (EventStore.append event) }
  | state, .poll =>
      match api.getTaskEvents state.store taskId state.since with
      | .error _ => some state
      | .ok events => some { state with
          received := state.received ++ events
          read := state.log }

/-- The events of a task in a log. -/
def eventsOf (taskId : String) (log : Numbered) : Numbered :=
  log.filter fun entry => entry.2.taskId == taskId

/-- The client has received the events of the task that the log held at its last poll, each
once and in their order. -/
def Exact (api : EventApi) (taskId : String) (state : Polling) : Prop :=
  state.received = (eventsOf taskId state.read).map api.view

/-- The client polls when its last poll has found no event of the task. -/
def PollsUnseen (taskId : String) (state : Polling) : PollingAction → Prop
  | .append _ => True
  | .poll => eventsOf taskId state.read = []

/-- The log has only grown since the last poll that was answered, and there was none if the
task is not stored. -/
structure Logged (api : EventApi) (taskId : String) (state : Polling) : Prop where
  grows : state.read <+: state.log
  answered : ∀ error, api.require taskId = .error error → state.read = []

variable {api : EventApi} {taskId : String} {state next : Polling}

theorem rising_log (state : Polling) : EventStore.Rising state.log := by
  cases stored : state.store with
  | none =>
      simp only [log, stored]
      exact ⟨fun _ held => absurd held List.not_mem_nil, .nil⟩
  | some store =>
      simp only [log, stored]
      exact EventStore.rising_entries store

/-- Every store answers with the events from the given number on, that one included. -/
theorem eventsForSince_eq (state : Polling) (since : Int) :
    eventsForSince state.store taskId since =
      (eventsOf taskId state.log).filter fun entry => decide (since ≤ entry.1) := by
  cases stored : state.store with
  | none => simp [eventsForSince, log, stored, eventsOf]
  | some store =>
      cases store with
      | inMemory store =>
          simp [eventsForSince, log, stored, eventsOf, EventStore.entries,
            InMemoryEventStore.eventsSince, Int.sub_one_lt_iff, List.filter_filter,
            Bool.and_comm]
      | durable store =>
          simp [eventsForSince, log, stored, eventsOf, EventStore.entries,
            SqliteEventStore.eventsSince, Int.sub_one_lt_iff, List.filter_filter,
            Bool.and_comm]
      | listed events =>
          simp [eventsForSince, log, stored, eventsOf, EventStore.entries,
            List.filter_filter, Bool.and_comm]

/-- A first poll is answered with every event of the task. -/
theorem eventsForSince_zero (state : Polling) :
    eventsForSince state.store taskId 0 = eventsOf taskId state.log := by
  rw [eventsForSince_eq]
  refine List.filter_eq_self.mpr fun entry held => decide_eq_true ?_
  exact (rising_log state).natural entry (List.mem_of_mem_filter held)

/-- A poll behind a received event is answered with that event and all later ones. -/
theorem eventsForSince_last {front later : Numbered} {last : Int × Event}
    (held : eventsOf taskId state.log = front ++ [last] ++ later) :
    (eventsForSince state.store taskId last.1).length ≥ later.length + 1 := by
  have rising : (front ++ [last] ++ later).Pairwise fun before after => before.1 < after.1 :=
    held ▸ (rising_log state).ordered.sublist List.filter_sublist
  have behind (entry : Int × Event) (found : entry ∈ later) :
      decide (last.1 ≤ entry.1) = true :=
    decide_eq_true ((List.pairwise_append.mp rising).2.2 last (by simp) entry found).le
  rw [eventsForSince_eq, held, List.filter_append, List.filter_append,
    List.filter_eq_self.mpr behind, List.filter_singleton]
  simp only [Int.le_refl, decide_true, cond_true, List.length_append, List.length_singleton]
  omega

theorem getTaskEvents_cases (api : EventApi) (eventStore : Option EventStore)
    (taskId : String) (since : Int) :
    (∃ error, api.require taskId = .error error ∧
        api.getTaskEvents eventStore taskId since = .error error) ∨
      api.getTaskEvents eventStore taskId since =
        .ok ((eventsForSince eventStore taskId since).map api.view) := by
  simp only [EventApi.getTaskEvents]
  cases api.require taskId with
  | error error => exact .inl ⟨error, rfl, rfl⟩
  | ok found => exact .inr rfl

/-- An answered poll leaves the client with exactly the events of the task if and only if no
event of the task was there at its last poll. -/
theorem exact_poll (grows : state.read <+: state.log) (holds : state.Exact api taskId)
    (received : next.received = state.received ++
      (eventsForSince state.store taskId state.since).map api.view)
    (read : next.read = state.log) :
    next.Exact api taskId ↔ eventsOf taskId state.read = [] := by
  rcases grows with ⟨appended, log⟩
  have split : eventsOf taskId state.log =
      eventsOf taskId state.read ++ eventsOf taskId appended := by
    rw [← log, eventsOf, List.filter_append]
    rfl
  rw [Exact, received, read, split]
  unfold Exact at holds
  rcases List.eq_nil_or_concat (eventsOf taskId state.read) with unread | ⟨front, last, seen⟩
  · have first : state.since = 0 := by simp [since, holds, unread]
    rw [holds, first, eventsForSince_zero, split, unread]
    simp
  · rw [List.concat_eq_append] at seen
    have cursor : state.since = last.1 := by
      simp [since, holds, seen, EventApi.view]
    have more := eventsForSince_last (split.trans (congrArg (· ++ _) seen))
    rw [seen] at holds ⊢
    refine iff_of_false (fun same => ?_) (by simp)
    have lengths := congrArg List.length same
    rw [holds, cursor] at lengths
    simp only [List.length_append, List.length_map, List.length_singleton] at lengths
    omega

theorem exact_step {action : PollingAction} (logged : state.Logged api taskId)
    (holds : state.Exact api taskId) (stepped : step api taskId state action = some next) :
    next.Logged api taskId ∧ (next.Exact api taskId ↔ state.PollsUnseen taskId action) := by
  cases action with
  | append event =>
      cases stepped
      refine ⟨⟨?_, logged.answered⟩, iff_of_true holds trivial⟩
      have grows := logged.grows
      cases stored : state.store with
      | none => simpa [log, stored] using grows
      | some store =>
          rcases EventStore.entries_append store event with ⟨seq, appended⟩
          have before : state.read <+: store.entries := by simpa [log, stored] using grows
          simpa [log, stored, appended] using before.trans (List.prefix_append _ _)
  | poll =>
      simp only [step] at stepped
      rcases getTaskEvents_cases api state.store taskId state.since with
        ⟨error, refused, raised⟩ | answered
      · rw [raised] at stepped
        cases stepped
        have unread : eventsOf taskId state.read = [] := by
          rw [logged.answered error refused]
          rfl
        exact ⟨logged, iff_of_true holds unread⟩
      · rw [answered] at stepped
        cases stepped
        refine ⟨⟨List.prefix_rfl, fun error refused => ?_⟩, exact_poll logged.grows holds rfl rfl⟩
        rw [EventApi.getTaskEvents, refused] at answered
        cases answered

/-- Whatever is appended between the polls, the client has received exactly the events of the
task after each of them if and only if no poll comes after one that found an event of it. -/
theorem exact_throughout_iff (api : EventApi) (taskId : String) (store : Option EventStore)
    (actions : List PollingAction) :
    StepFunction.Throughout (step api taskId) (Exact api taskId) { store := store } actions ↔
      StepFunction.Meets (step api taskId) (PollsUnseen taskId) { store := store } actions := by
  apply StepFunction.throughout_iff_meets
    (fun state action next logged holds stepped => exact_step logged holds stepped)
  · intro state action disabled
    cases action with
    | append event => cases disabled
    | poll =>
        simp only [step] at disabled
        split at disabled <;> cases disabled
  · exact ⟨List.nil_prefix, fun _ _ => rfl⟩
  · rfl

/-- Every task is stored, and nothing is redacted. -/
def openApi : EventApi where
  stored _ := true
  redact payload := .ok payload

/-- One event and two polls: the second one answers the event again. -/
theorem event_polled_twice : ¬ ∀ (store : EventStore) (actions : List PollingAction),
    StepFunction.Throughout (step openApi "t") (Exact openApi "t") { store := store }
      actions := by
  intro all
  have holds := all (.durable .empty)
    [.append { eventType := .taskCreated, taskId := "t" }, .poll, .poll] _ _ List.prefix_rfl rfl
  have lengths : 2 = 1 := congrArg List.length holds
  cases lengths

end Polling

end Raphael.Interface
