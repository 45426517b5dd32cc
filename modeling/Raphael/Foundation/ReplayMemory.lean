import Mathlib.Data.Finset.Card
import Raphael.Foundation.Dict
import Raphael.Foundation.StepSystem

/-! # Replay memories

A receiver remembers the keys of what it has accepted, and turns away what it remembers. The
memory is bounded: where it holds too many keys, the oldest go. What was accepted can be
accepted again exactly from the first time on that a key had to go. -/

namespace Raphael.Foundation

variable {Key : Type u} {Time : Type v} [DecidableEq Key] [LT Time] [DecidableLT Time]

/-! ## The memory -/

/-- The first of the entries with the least time. -/
def oldest : List (Key × Time) → Option (Key × Time)
  | [] => none
  | entry :: rest =>
      match oldest rest with
      | none => some entry
      | some other => if other.2 < entry.2 then some other else some entry

def dropOldest (memory : Dict Key Time) : Dict Key Time :=
  match oldest memory.entries with
  | none => memory
  | some entry => memory.erase entry.1

/-- The oldest entries go while there are too many; each turn drops one. -/
def trim (capacity : Nat) : Nat → Dict Key Time → Dict Key Time
  | 0, memory => memory
  | turns + 1, memory =>
      if capacity < memory.entries.length then trim capacity turns (dropOldest memory)
      else memory

/-- A key is remembered, and the oldest go. -/
def remember (capacity : Nat) (memory : Dict Key Time) (key : Key) (now : Time) :
    Dict Key Time :=
  let memory := memory.set key now
  trim capacity memory.entries.length memory

omit [DecidableEq Key] in
theorem oldest_mem {entries : List (Key × Time)} {entry : Key × Time}
    (first : oldest entries = some entry) : entry ∈ entries := by
  induction entries generalizing entry with
  | nil => cases first
  | cons head rest induction =>
      simp only [oldest] at first
      split at first
      · cases first
        exact List.mem_cons_self
      · next other found =>
          split at first
          · cases first
            exact List.mem_cons_of_mem _ (induction found)
          · cases first
            exact List.mem_cons_self

omit [DecidableEq Key] in
theorem oldest_isSome {entries : List (Key × Time)} (nonempty : entries ≠ []) :
    ∃ entry, oldest entries = some entry := by
  cases entries with
  | nil => exact absurd rfl nonempty
  | cons head rest =>
      simp only [oldest]
      split
      · exact ⟨head, rfl⟩
      · split <;> exact ⟨_, rfl⟩

theorem dropOldest_of_oldest {memory : Dict Key Time} {entry : Key × Time}
    (first : oldest memory.entries = some entry) :
    dropOldest memory = memory.erase entry.1 := by
  simp only [dropOldest, first]

theorem dropOldest_sublist (memory : Dict Key Time) :
    (dropOldest memory).entries.Sublist memory.entries := by
  unfold dropOldest
  split
  · exact .refl _
  · exact List.filter_sublist

theorem dropOldest_length {memory : Dict Key Time} (nonempty : memory.entries ≠ []) :
    (dropOldest memory).entries.length < memory.entries.length := by
  rcases oldest_isSome nonempty with ⟨entry, found⟩
  have held := oldest_mem found
  rw [dropOldest_of_oldest found]
  apply List.length_filter_lt_length_iff_exists.mpr
  exact ⟨entry, held, by simp⟩

theorem trim_sublist (capacity turns : Nat) (memory : Dict Key Time) :
    (trim capacity turns memory).entries.Sublist memory.entries := by
  induction turns generalizing memory with
  | zero => exact .refl _
  | succ turns induction =>
      simp only [trim]
      split
      · exact (induction (dropOldest memory)).trans (dropOldest_sublist memory)
      · exact .refl _

theorem trim_length {capacity turns : Nat} {memory : Dict Key Time}
    (enough : memory.entries.length ≤ capacity + turns) :
    (trim capacity turns memory).entries.length ≤ capacity := by
  induction turns generalizing memory with
  | zero => exact enough
  | succ turns induction =>
      simp only [trim]
      split
      · next tooMany =>
          have nonempty : memory.entries ≠ [] := by
            rintro empty
            simp [empty] at tooMany
          have shorter := dropOldest_length nonempty
          exact induction (by omega)
      · omega

theorem trim_of_le {capacity turns : Nat} {memory : Dict Key Time}
    (fits : memory.entries.length ≤ capacity) : trim capacity turns memory = memory := by
  cases turns with
  | zero => rfl
  | succ turns => exact if_neg (Nat.not_lt.mpr fits)

/-- The keys of a memory. -/
def Dict.keys (memory : Dict Key Time) : List Key := memory.entries.map Prod.fst

omit [LT Time] [DecidableLT Time] in
theorem keys_set_of_unknown {memory : Dict Key Time} {key : Key} (now : Time)
    (unknown : memory.get key = none) :
    (memory.set key now).entries = memory.entries ++ [(key, now)] := by
  have absent : key ∉ memory.entries.map Prod.fst := by
    rw [← Dict.get_isSome, unknown]
    exact Bool.false_ne_true
  exact if_neg absent

omit [LT Time] [DecidableLT Time] in
theorem mem_keys {memory : Dict Key Time} {key : Key} :
    key ∈ memory.keys ↔ memory.get key ≠ none := by
  rw [Dict.keys, ← Dict.get_isSome, Option.isSome_iff_ne_none]

section Remember

variable {capacity : Nat} {memory : Dict Key Time} {key : Key} {now : Time}

theorem remember_length :
    (remember capacity memory key now).entries.length ≤ capacity :=
  trim_length (Nat.le_add_left _ _)

/-- Behind a new key, only it and what was remembered before is remembered. -/
theorem mem_keys_remember (unknown : memory.get key = none) {other : Key}
    (member : other ∈ (remember capacity memory key now).keys) :
    other ∈ memory.keys ∨ other = key := by
  have kept := ((trim_sublist capacity _ (memory.set key now)).map Prod.fst).subset member
  rw [keys_set_of_unknown now unknown, List.map_append, List.mem_append] at kept
  exact kept.imp_right List.mem_singleton.mp

/-- While there is room, everything stays remembered. -/
theorem keys_remember_of_room (unknown : memory.get key = none)
    (room : memory.entries.length < capacity) :
    (remember capacity memory key now).keys = memory.keys ++ [key] := by
  have length : (memory.set key now).entries.length ≤ capacity := by
    rw [keys_set_of_unknown now unknown, List.length_append]
    exact room
  simp only [remember, trim_of_le length, Dict.keys, keys_set_of_unknown now unknown,
    List.map_append, List.map_singleton]

omit [DecidableEq Key] in
/-- Of entries with equal times the first is the oldest. -/
theorem oldest_of_level {first : Key × Time} {rest : List (Key × Time)}
    (level : ∀ entry ∈ rest, ¬ entry.2 < first.2) : oldest (first :: rest) = some first := by
  simp only [oldest]
  split
  · rfl
  · next other found => exact if_neg (level other (oldest_mem found))

/-- In a full memory a new key takes the place of the first, where the times are equal. -/
theorem entries_remember_of_full {first : Key × Time} {rest : List (Key × Time)}
    (entries : memory.entries = first :: rest) (full : memory.entries.length = capacity)
    (unknown : memory.get key = none) (level : ∀ entry ∈ rest, ¬ entry.2 < first.2)
    (later : ¬ now < first.2) :
    (remember capacity memory key now).entries = rest ++ [(key, now)] := by
  have written : (memory.set key now).entries = first :: (rest ++ [(key, now)]) := by
    rw [keys_set_of_unknown now unknown, entries, List.cons_append]
  have distinct := (memory.set key now).distinct
  rw [written, List.map_cons, List.nodup_cons] at distinct
  have old : oldest (memory.set key now).entries = some first := by
    rw [written]
    apply oldest_of_level
    intro entry member
    rcases List.mem_append.mp member with before | new
    · exact level entry before
    · rw [List.mem_singleton.mp new]
      exact later
  have dropped : (dropOldest (memory.set key now)).entries = rest ++ [(key, now)] := by
    rw [dropOldest_of_oldest old]
    simp only [Dict.erase, Dict.filter, written]
    rw [List.filter_cons_of_neg (by simp), List.filter_eq_self]
    intro entry member
    have other : entry.1 ≠ first.1 := fun same =>
      distinct.1 (same ▸ List.mem_map_of_mem member)
    simpa using other
  have length : (memory.set key now).entries.length = capacity + 1 := by
    rw [keys_set_of_unknown now unknown, List.length_append, full, List.length_singleton]
  have fits : (dropOldest (memory.set key now)).entries.length ≤ capacity := by
    rw [dropped, ← full, entries]
    simp
  simp only [remember, length, trim]
  rw [if_pos (Nat.lt_succ_self capacity), trim_of_le fits, dropped]

end Remember

/-! ## Receivers -/

/-- What a receiver makes of a packet, but for its memory: the message, if it has no other
objection, and the key under which it remembers it. -/
structure Receiver (Packet : Type u) (Reading : Type v) (Message : Type w) (Key : Type x)
    (Time : Type y) where
  capacity : Nat
  admits : Packet → Reading → Option Message
  key : Message → Key
  now : Reading → Time

/-- The memory, and what was accepted. -/
structure Reception (Message : Type w) (Key : Type x) (Time : Type y) where
  memory : Dict Key Time := .empty
  accepted : List Message := []

namespace Receiver

variable {Packet : Type u} {Reading : Type v} {Message : Type w} {Key : Type x} {Time : Type y}
  [DecidableEq Key] [LT Time] [DecidableLT Time]

/-- The message that is accepted of a packet, if it is. -/
def accepts (receiver : Receiver Packet Reading Message Key Time)
    (state : Reception Message Key Time) (packet : Packet × Reading) : Option Message :=
  match receiver.admits packet.1 packet.2 with
  | none => none
  | some message =>
      match state.memory.get (receiver.key message) with
      | none => some message
      | some _ => none

/-- A packet is presented. -/
def receive (receiver : Receiver Packet Reading Message Key Time)
    (state : Reception Message Key Time) (packet : Packet × Reading) :
    Reception Message Key Time :=
  match receiver.accepts state packet with
  | none => state
  | some message => {
      memory := remember receiver.capacity state.memory (receiver.key message)
        (receiver.now packet.2)
      accepted := state.accepted ++ [message] }

def step (receiver : Receiver Packet Reading Message Key Time) :
    StepFunction (Reception Message Key Time) (Packet × Reading) :=
  fun state packet => some (receiver.receive state packet)

/-- No key has to go for the packet: there is room for it, if it is admitted and new. -/
def HasRoom (receiver : Receiver Packet Reading Message Key Time)
    (state : Reception Message Key Time) (packet : Packet × Reading) : Prop :=
  ∀ message, receiver.admits packet.1 packet.2 = some message →
    state.memory.get (receiver.key message) = none →
      state.memory.entries.length < receiver.capacity

variable {receiver : Receiver Packet Reading Message Key Time}
  {state : Reception Message Key Time} {packet : Packet × Reading} {message : Message}

omit [LT Time] [DecidableLT Time] in
theorem accepts_eq_some :
    receiver.accepts state packet = some message ↔
      receiver.admits packet.1 packet.2 = some message ∧
        state.memory.get (receiver.key message) = none := by
  unfold accepts
  split
  · next refused => simp [refused]
  · next admitted found =>
      rw [found, Option.some.injEq]
      split
      · next unknown =>
          rw [Option.some.injEq]
          constructor
          · rintro rfl
            exact ⟨rfl, unknown⟩
          · exact And.left
      · next known =>
          constructor
          · intro impossible
            cases impossible
          · rintro ⟨rfl, unknown⟩
            rw [unknown] at known
            cases known

/-- Only what was accepted is remembered, in a memory that is not too large; and what was
accepted was admitted once. -/
structure Sound (receiver : Receiver Packet Reading Message Key Time)
    (state : Reception Message Key Time) : Prop where
  known : ∀ key ∈ state.memory.keys, key ∈ state.accepted.map receiver.key
  fits : state.memory.entries.length ≤ receiver.capacity
  admitted : ∀ message ∈ state.accepted, ∃ packet : Packet × Reading,
    receiver.admits packet.1 packet.2 = some message

omit [DecidableEq Key] [LT Time] [DecidableLT Time] in
theorem sound_start (receiver : Receiver Packet Reading Message Key Time) :
    receiver.Sound ({} : Reception Message Key Time) where
  known _ member := absurd member List.not_mem_nil
  fits := Nat.zero_le _
  admitted _ member := absurd member List.not_mem_nil

theorem receive_of_accepts (accepted : receiver.accepts state packet = some message) :
    receiver.receive state packet = {
      memory := remember receiver.capacity state.memory (receiver.key message)
        (receiver.now packet.2)
      accepted := state.accepted ++ [message] } := by
  simp only [receive, accepted]

theorem receive_of_refused (refused : receiver.accepts state packet = none) :
    receiver.receive state packet = state := by
  simp only [receive, refused]

theorem Sound.receive (sound : receiver.Sound state) (packet : Packet × Reading) :
    receiver.Sound (receiver.receive state packet) := by
  cases result : receiver.accepts state packet with
  | none =>
      rw [receive_of_refused result]
      exact sound
  | some message =>
      rcases accepts_eq_some.mp result with ⟨admitted, unknown⟩
      rw [receive_of_accepts result]
      constructor
      · intro key member
        rw [List.map_append, List.mem_append, List.map_singleton, List.mem_singleton]
        exact (mem_keys_remember unknown member).imp_left (sound.known key)
      · exact remember_length
      · intro other member
        rcases List.mem_append.mp member with before | new
        · exact sound.admitted other before
        · exact ⟨packet, List.mem_singleton.mp new ▸ admitted⟩

/-! ## With room for everything -/

/-- Everything that was accepted is remembered, and nothing was accepted twice. -/
structure Complete (receiver : Receiver Packet Reading Message Key Time)
    (state : Reception Message Key Time) : Prop where
  remembered : ∀ message ∈ state.accepted, receiver.key message ∈ state.memory.keys
  once : (state.accepted.map receiver.key).Nodup

theorem Complete.once_receive (complete : receiver.Complete state)
    (packet : Packet × Reading) :
    ((receiver.receive state packet).accepted.map receiver.key).Nodup := by
  cases result : receiver.accepts state packet with
  | none =>
      rw [receive_of_refused result]
      exact complete.once
  | some message =>
      rcases accepts_eq_some.mp result with ⟨_, unknown⟩
      rw [receive_of_accepts result, List.map_append]
      apply complete.once.append (List.nodup_singleton _)
      intro key before new
      rw [List.mem_singleton] at new
      rcases List.mem_map.mp before with ⟨other, member, same⟩
      have known := complete.remembered other member
      rw [same, new, mem_keys] at known
      exact known unknown

theorem Complete.receive (complete : receiver.Complete state)
    (room : receiver.HasRoom state packet) :
    receiver.Complete (receiver.receive state packet) := by
  refine ⟨?_, complete.once_receive packet⟩
  cases result : receiver.accepts state packet with
  | none =>
      rw [receive_of_refused result]
      exact complete.remembered
  | some message =>
      rcases accepts_eq_some.mp result with ⟨admitted, unknown⟩
      rw [receive_of_accepts result]
      intro other member
      rw [keys_remember_of_room unknown (room message admitted unknown)]
      rcases List.mem_append.mp member with before | new
      · exact List.mem_append_left _ (complete.remembered other before)
      · rw [List.mem_singleton.mp new]
        exact List.mem_append_right _ (List.mem_singleton_self _)

theorem complete_of_room {packets : List (Packet × Reading)}
    {final : Reception Message Key Time}
    (room : StepFunction.Meets receiver.step receiver.HasRoom {} packets)
    (reached : StepFunction.run receiver.step {} packets = some final) :
    receiver.Complete final := by
  have start : receiver.Complete ({} : Reception Message Key Time) :=
    ⟨fun _ member => absurd member List.not_mem_nil, List.nodup_nil⟩
  refine StepFunction.invariant_of_meets ?_ start room reached
  rintro state packet next complete room stepped
  cases stepped
  exact complete.receive room

/-! ## Once a key had to go -/

/-- More keys were accepted than can be remembered. -/
def Overfull (receiver : Receiver Packet Reading Message Key Time)
    (state : Reception Message Key Time) : Prop :=
  receiver.capacity < (state.accepted.map receiver.key).toFinset.card

theorem Overfull.receive (overfull : receiver.Overfull state) (packet : Packet × Reading) :
    receiver.Overfull (receiver.receive state packet) := by
  cases result : receiver.accepts state packet with
  | none =>
      rw [receive_of_refused result]
      exact overfull
  | some message =>
      rw [receive_of_accepts result]
      refine Nat.lt_of_lt_of_le overfull (Finset.card_le_card ?_)
      intro key member
      rw [List.mem_toFinset] at member ⊢
      rw [List.map_append]
      exact List.mem_append_left _ member

/-- A key goes only where there are more than can be remembered. -/
theorem Sound.overfull (sound : receiver.Sound state)
    (crowded : ¬ receiver.HasRoom state packet) :
    receiver.Overfull (receiver.receive state packet) := by
  simp only [HasRoom, not_forall, Nat.not_lt] at crowded
  rcases crowded with ⟨message, admitted, unknown, full⟩
  have result := accepts_eq_some.mpr ⟨admitted, unknown⟩
  have distinct : (state.memory.keys ++ [receiver.key message]).Nodup := by
    apply state.memory.distinct.append (List.nodup_singleton _)
    intro key member new
    rw [List.mem_singleton.mp new] at member
    exact mem_keys.mp member unknown
  have card := List.toFinset_card_of_nodup distinct
  rw [receive_of_accepts result, Overfull]
  calc
    receiver.capacity ≤ state.memory.entries.length := full
    _ < (state.memory.keys ++ [receiver.key message]).length := by
      simp [Dict.keys]
    _ = (state.memory.keys ++ [receiver.key message]).toFinset.card := card.symm
    _ ≤ _ := by
      apply Finset.card_le_card
      intro key member
      rw [List.mem_toFinset] at member ⊢
      rw [List.map_append]
      exact List.mem_append.mpr ((List.mem_append.mp member).imp_left (sound.known key))

/-- What is no longer remembered is accepted once more. -/
theorem Sound.exists_again (sound : receiver.Sound state) (overfull : receiver.Overfull state) :
    ∃ message ∈ state.accepted, ∃ packet : Packet × Reading,
      (receiver.receive state packet).accepted = state.accepted ++ [message] := by
  have forgotten : ∃ message ∈ state.accepted, receiver.key message ∉ state.memory.keys := by
    by_contra all
    have kept : (state.accepted.map receiver.key).toFinset ⊆ state.memory.keys.toFinset := by
      intro key member
      rw [List.mem_toFinset] at member ⊢
      rcases List.mem_map.mp member with ⟨message, accepted, rfl⟩
      by_contra unknown
      exact all ⟨message, accepted, unknown⟩
    have few : (state.accepted.map receiver.key).toFinset.card ≤ receiver.capacity := by
      calc
        _ ≤ state.memory.keys.toFinset.card := Finset.card_le_card kept
        _ ≤ state.memory.keys.length := List.toFinset_card_le _
        _ = state.memory.entries.length := List.length_map _
        _ ≤ receiver.capacity := sound.fits
    exact absurd overfull (Nat.not_lt.mpr few)
  rcases forgotten with ⟨message, accepted, unknown⟩
  rcases sound.admitted message accepted with ⟨packet, admitted⟩
  refine ⟨message, accepted, packet, ?_⟩
  rw [mem_keys, not_not] at unknown
  rw [receive_of_accepts (accepts_eq_some.mpr ⟨admitted, unknown⟩)]

theorem overfull_of_crowded {packets : List (Packet × Reading)}
    {final : Reception Message Key Time} (sound : receiver.Sound state)
    (reached : StepFunction.run receiver.step state packets = some final)
    (crowded : ¬ StepFunction.Meets receiver.step receiver.HasRoom state packets) :
    receiver.Overfull final := by
  induction packets generalizing state with
  | nil => exact absurd trivial crowded
  | cons packet rest induction =>
      rcases StepFunction.run_cons_eq_some.mp reached with ⟨next, stepped, remaining⟩
      cases stepped
      by_cases room : receiver.HasRoom state packet
      · refine induction (sound.receive packet) remaining fun later => crowded ⟨room, ?_⟩
        intro next stepped
        cases stepped
        exact later
      · have overfull := sound.overfull room
        exact StepFunction.invariant_of_run
          (fun _ packet _ overfull stepped => by
            cases stepped
            exact Overfull.receive overfull packet)
          overfull remaining

theorem sound_of_run {packets : List (Packet × Reading)} {final : Reception Message Key Time}
    (reached : StepFunction.run receiver.step {} packets = some final) :
    receiver.Sound final := by
  refine StepFunction.invariant_of_run ?_ (sound_start receiver) reached
  rintro state packet next sound stepped
  cases stepped
  exact sound.receive packet

theorem exists_run (receiver : Receiver Packet Reading Message Key Time)
    (state : Reception Message Key Time) (packets : List (Packet × Reading)) :
    ∃ final, StepFunction.run receiver.step state packets = some final := by
  induction packets generalizing state with
  | nil => exact ⟨state, rfl⟩
  | cons packet rest induction => exact induction (receiver.receive state packet)

theorem run_concat {packets : List (Packet × Reading)} {middle : Reception Message Key Time}
    (reached : StepFunction.run receiver.step {} packets = some middle)
    (packet : Packet × Reading) :
    StepFunction.run receiver.step {} (packets ++ [packet]) =
      some (receiver.receive middle packet) := by
  rw [StepFunction.run_append, reached]
  rfl

/-- Nothing was accepted twice, whatever came next, exactly if there was room for all that
was accepted before. The messages are told apart by more than their keys. -/
theorem once_iff_room (receiver : Receiver Packet Reading Message Key Time)
    {Identity : Type z} {identity : Message → Identity}
    (keyed : ∀ left right, identity left = identity right →
      receiver.key left = receiver.key right)
    (packets : List (Packet × Reading)) :
    (∀ packet final, StepFunction.run receiver.step {} (packets ++ [packet]) = some final →
      (final.accepted.map identity).Nodup) ↔
        StepFunction.Meets receiver.step receiver.HasRoom {} packets := by
  rcases exists_run receiver {} packets with ⟨middle, reached⟩
  constructor
  · intro once
    by_contra crowded
    have overfull := overfull_of_crowded (sound_start receiver) reached crowded
    rcases (sound_of_run reached).exists_again overfull with
      ⟨message, accepted, packet, again⟩
    have twice := once packet _ (run_concat reached packet)
    rw [again, List.map_append] at twice
    exact List.disjoint_of_nodup_append twice (List.mem_map_of_mem accepted)
      (List.mem_singleton_self _)
  · intro room packet final ended
    cases (run_concat reached packet).symm.trans ended
    have once := (complete_of_room room reached).once_receive packet
    rw [List.Nodup, List.pairwise_map] at once ⊢
    exact once.imp fun differs same => differs (keyed _ _ same)

/-! ## A flood -/

section Flood

variable (receiver : Receiver Packet Reading Message Key Time) (messages : Nat → Message)
  (packets : Nat → Packet × Reading) {now : Time}

/-- While there is room, packets with new keys are all accepted and remembered in their
order. -/
theorem run_of_distinct (count : Nat) (room : count ≤ receiver.capacity)
    (admitted : ∀ index ≤ receiver.capacity,
      receiver.admits (packets index).1 (packets index).2 = some (messages index))
    (moment : ∀ index, receiver.now (packets index).2 = now)
    (distinct : ∀ left ≤ receiver.capacity, ∀ right ≤ receiver.capacity,
      receiver.key (messages left) = receiver.key (messages right) → left = right) :
    ∃ state, StepFunction.run receiver.step {} ((List.range count).map packets) = some state ∧
      state.accepted = (List.range count).map messages ∧
      state.memory.entries =
        (List.range count).map fun index => (receiver.key (messages index), now) := by
  induction count with
  | zero => exact ⟨{}, rfl, rfl, rfl⟩
  | succ count induction =>
      rcases induction (Nat.le_of_succ_le room) with ⟨state, reached, accepted, entries⟩
      have unknown : state.memory.get (receiver.key (messages count)) = none := by
        by_contra known
        rw [← ne_eq, ← mem_keys, Dict.keys, entries, List.map_map] at known
        rcases List.mem_map.mp known with ⟨index, member, same⟩
        have before := List.mem_range.mp member
        have equal := distinct index (by omega) count (by omega) same
        omega
      have accepts : receiver.accepts state (packets count) = some (messages count) :=
        accepts_eq_some.mpr ⟨admitted count (by omega), unknown⟩
      have length : state.memory.entries.length = count := by
        rw [entries, List.length_map, List.length_range]
      refine ⟨receiver.receive state (packets count), ?_, ?_, ?_⟩
      · rw [List.range_succ, List.map_append, StepFunction.run_append_eq_some]
        exact ⟨state, reached, rfl⟩
      · rw [receive_of_accepts accepts, List.range_succ, List.map_append, ← accepted]
        rfl
      · have written := keys_set_of_unknown now unknown
        have fits : (state.memory.set (receiver.key (messages count)) now).entries.length ≤
            receiver.capacity := by
          rw [written, List.length_append, length]
          exact room
        rw [receive_of_accepts accepts, moment]
        simp only [remember]
        rw [trim_of_le fits, written, entries, List.range_succ, List.map_append]
        rfl

/-- Behind more packets with new keys than can be remembered, all at one time, the first is
accepted again. -/
theorem accepts_again_of_flood (positive : 0 < receiver.capacity) (level : ¬ now < now)
    (admitted : ∀ index ≤ receiver.capacity,
      receiver.admits (packets index).1 (packets index).2 = some (messages index))
    (moment : ∀ index, receiver.now (packets index).2 = now)
    (distinct : ∀ left ≤ receiver.capacity, ∀ right ≤ receiver.capacity,
      receiver.key (messages left) = receiver.key (messages right) → left = right) :
    ∃ state, StepFunction.run receiver.step {}
        ((List.range (receiver.capacity + 1)).map packets ++ [packets 0]) = some state ∧
      state.accepted =
        (List.range (receiver.capacity + 1)).map messages ++ [messages 0] := by
  rcases run_of_distinct receiver messages packets receiver.capacity le_rfl admitted moment
    distinct with ⟨state, reached, accepted, entries⟩
  rcases Nat.exists_eq_succ_of_ne_zero (Nat.ne_of_gt positive) with ⟨size, capacity⟩
  have key : ∀ index ∈ List.range receiver.capacity,
      receiver.key (messages index) ≠ receiver.key (messages receiver.capacity) := by
    intro index member same
    have before := List.mem_range.mp member
    have equal := distinct index (by omega) receiver.capacity (by omega) same
    omega
  have unknown : state.memory.get (receiver.key (messages receiver.capacity)) = none := by
    by_contra known
    rw [← ne_eq, ← mem_keys, Dict.keys, entries, List.map_map] at known
    rcases List.mem_map.mp known with ⟨index, member, same⟩
    exact key index member same
  have accepts : receiver.accepts state (packets receiver.capacity) =
      some (messages receiver.capacity) :=
    accepts_eq_some.mpr ⟨admitted _ le_rfl, unknown⟩
  have shape : state.memory.entries = (receiver.key (messages 0), now) ::
      (List.range size).map fun index => (receiver.key (messages (index + 1)), now) := by
    rw [entries, capacity, List.range_succ_eq_map, List.map_cons, List.map_map]
    rfl
  have full : state.memory.entries.length = receiver.capacity := by
    rw [entries, List.length_map, List.length_range]
  have left := entries_remember_of_full shape full unknown
    (by
      intro entry member
      rcases List.mem_map.mp member with ⟨index, _, rfl⟩
      exact level)
    level
  let crowded := receiver.receive state (packets receiver.capacity)
  have accepted' : crowded.accepted =
      (List.range (receiver.capacity + 1)).map messages := by
    rw [show crowded = _ from receive_of_accepts accepts, List.range_succ, List.map_append,
      ← accepted]
    rfl
  have forgotten : crowded.memory.get (receiver.key (messages 0)) = none := by
    by_contra known
    rw [← ne_eq, ← mem_keys, show crowded = _ from receive_of_accepts accepts, moment,
      Dict.keys, left, List.map_append, List.map_map] at known
    rcases List.mem_append.mp known with before | new
    · rcases List.mem_map.mp before with ⟨index, member, same⟩
      have inside := List.mem_range.mp member
      have equal := distinct (index + 1) (by omega) 0 (by omega) same
      omega
    · have equal := distinct 0 (by omega) receiver.capacity le_rfl (List.mem_singleton.mp new)
      omega
  have again : receiver.accepts crowded (packets 0) = some (messages 0) :=
    accepts_eq_some.mpr ⟨admitted 0 (Nat.zero_le _), forgotten⟩
  refine ⟨receiver.receive crowded (packets 0), ?_, ?_⟩
  · rw [List.range_succ, List.map_append, List.append_assoc, StepFunction.run_append_eq_some]
    exact ⟨state, reached, rfl⟩
  · rw [receive_of_accepts again, accepted']

end Flood

end Receiver

end Raphael.Foundation
