import Mathlib.Data.List.Enum
import Raphael.Core.Events

/-! # Event stores

The ordered logs of the published events. A store numbers what it appends: the one in memory
from zero, the durable one from one. -/

namespace Raphael.Core

/-- Sequence numbers with their events. -/
abbrev Numbered := List (Int × Event)

/-- `enumerate(events)`. -/
def enumerate (events : List Event) : Numbered :=
  events.zipIdx.map fun entry => ((entry.2 : Int), entry.1)

structure InMemoryEventStore where
  events : List Event := []

namespace InMemoryEventStore

def append (store : InMemoryEventStore) (event : Event) : InMemoryEventStore :=
  ⟨store.events ++ [event]⟩

def eventsSince (store : InMemoryEventStore) (seq : Int) : Numbered :=
  (enumerate store.events).filter fun entry => decide (seq < entry.1)

end InMemoryEventStore

/-- The rows of the table, and the last number that it has given out. -/
structure SqliteEventStore where
  rows : Numbered
  last : Int
  positive : ∀ row ∈ rows, 0 < row.1
  given : ∀ row ∈ rows, row.1 ≤ last
  started : 0 ≤ last
  ordered : rows.Pairwise fun before after => before.1 < after.1

namespace SqliteEventStore

def empty : SqliteEventStore where
  rows := []
  last := 0
  positive _ held := absurd held List.not_mem_nil
  given _ held := absurd held List.not_mem_nil
  started := Int.le_refl 0
  ordered := .nil

/-- `INSERT`, under the next number. -/
def append (store : SqliteEventStore) (event : Event) : SqliteEventStore where
  rows := store.rows ++ [(store.last + 1, event)]
  last := store.last + 1
  positive row held := by
    rcases List.mem_append.mp held with before | new
    · exact store.positive row before
    · rw [List.mem_singleton.mp new]
      exact Int.lt_add_one_of_le store.started
  given row held := by
    rcases List.mem_append.mp held with before | new
    · exact Int.le_add_one (store.given row before)
    · rw [List.mem_singleton.mp new]
  started := Int.le_add_one store.started
  ordered := by
    refine List.pairwise_append.mpr ⟨store.ordered, List.pairwise_singleton .., ?_⟩
    intro before held row new
    rw [List.mem_singleton.mp new]
    exact Int.lt_add_one_of_le (store.given before held)

/-- `WHERE seq > ? ORDER BY seq`. -/
def eventsSince (store : SqliteEventStore) (seq : Int) : Numbered :=
  store.rows.filter fun row => decide (seq < row.1)

end SqliteEventStore

/-- The stores that the API may be given. `listed` has no `events_since`. -/
inductive EventStore
  | inMemory (store : InMemoryEventStore)
  | durable (store : SqliteEventStore)
  | listed (events : List Event)

namespace EventStore

def append (event : Event) : EventStore → EventStore
  | .inMemory store => .inMemory (store.append event)
  | .durable store => .durable (store.append event)
  | .listed events => .listed (events ++ [event])

/-- The events under their numbers; without `events_since`, numbered by their places. -/
def entries : EventStore → Numbered
  | .inMemory store => enumerate store.events
  | .durable store => store.rows
  | .listed events => enumerate events

/-! ## The numbers of a log -/

theorem enumerate_append (events : List Event) (event : Event) :
    enumerate (events ++ [event]) = enumerate events ++ [((events.length : Int), event)] := by
  simp [enumerate, List.zipIdx_append]

/-- The numbers of a log are not negative, and they rise. -/
structure Rising (entries : Numbered) : Prop where
  natural : ∀ entry ∈ entries, 0 ≤ entry.1
  ordered : entries.Pairwise fun before after => before.1 < after.1

theorem enumerate_below (events : List Event) :
    ∀ entry ∈ enumerate events, 0 ≤ entry.1 ∧ entry.1 < events.length := by
  intro entry held
  rcases List.mem_map.mp held with ⟨⟨event, index⟩, place, rfl⟩
  have bound := List.snd_lt_of_mem_zipIdx place
  simp only at bound ⊢
  omega

theorem rising_enumerate (events : List Event) : Rising (enumerate events) := by
  constructor
  · exact fun entry held => (enumerate_below events entry held).1
  · induction events using List.reverseRecOn with
    | nil => exact .nil
    | append_singleton events event induction =>
        rw [enumerate_append]
        refine List.pairwise_append.mpr ⟨induction, List.pairwise_singleton .., ?_⟩
        intro before held entry new
        rw [List.mem_singleton.mp new]
        exact (enumerate_below events before held).2

theorem rising_entries (store : EventStore) : Rising store.entries := by
  cases store with
  | inMemory store => exact rising_enumerate store.events
  | durable store => exact ⟨fun row held => (store.positive row held).le, store.ordered⟩
  | listed events => exact rising_enumerate events

/-- What is appended goes behind what is there. -/
theorem entries_append (store : EventStore) (event : Event) :
    ∃ seq, (store.append event).entries = store.entries ++ [(seq, event)] := by
  cases store with
  | inMemory store => exact ⟨_, enumerate_append store.events event⟩
  | durable store => exact ⟨_, rfl⟩
  | listed events => exact ⟨_, enumerate_append events event⟩

end EventStore

end Raphael.Core
