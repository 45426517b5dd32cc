import Raphael.Agent.Multi.MessageBus

/-! # The delivery of messages

What holds of a bus without a repository after any calls: no message is enqueued twice to one
recipient, every inbox is a queue of bounded length that loses what has expired only, and the
relays of a message are bounded. A message that is sent with a negative number of hops may
be relayed more often. -/

namespace Raphael.Agent.Multi

open Core
open Foundation

/-- A message that `receive` took from an inbox, and the reading of the clock it was held
against. -/
structure Taking where
  agent : String
  message : AgentMessage
  reading : Int
  returned : Bool

/-- The calls, with the readings of the clock during each. -/
inductive BusCall
  | register (agentId : String)
  | send (clock : Nat → Int) (message : AgentMessage)
  | forward (clock : Nat → Int) (message : AgentMessage) (recipient : String)
  | receive (clock : Nat → Int) (agentId : String)

/-- A bus and what its calls have returned: what `send` accepted, what `forward` made of the
message it was given, both in the order in which they were enqueued, and what `receive`
returned to each agent. `taken` are the messages that `receive` looked at. -/
structure Correspondence (Store : Type u) where
  bus : MessageBus Store
  sent : List AgentMessage := []
  relays : List (AgentMessage × AgentMessage) := []
  enqueued : List AgentMessage := []
  returned : List (String × AgentMessage) := []
  taken : List Taking := []

/-- What an accepted call answers. -/
def accepted (answer : Except Error α) : List α := answer.toOption.toList

/-- What `receive` looks at, in an inbox: all that has expired, and the message behind it. -/
def takings (agentId : String) : List AgentMessage → (Nat → Int) → List Taking
  | [], _ => []
  | message :: rest, clock =>
      if message.expired (clock 0) then
        ⟨agentId, message, clock 0, false⟩ ::
          takings agentId rest fun reading => clock (reading + 1)
      else [⟨agentId, message, clock 0, true⟩]

namespace Correspondence

variable {Store : Type u}

def step (externals : BusExternals Store) :
    StepFunction (Correspondence Store) BusCall
  | state, .register agentId => some { state with bus := state.bus.register agentId }
  | state, .send clock message =>
      let (answer, bus) := state.bus.send externals clock message
      some { state with
        bus := bus
        sent := state.sent ++ accepted answer
        enqueued := state.enqueued ++ accepted answer }
  | state, .forward clock message recipient =>
      let (answer, bus) := state.bus.forward externals clock message recipient
      some { state with
        bus := bus
        relays := state.relays ++ (accepted answer).map fun relayed => (message, relayed)
        enqueued := state.enqueued ++ accepted answer }
  | state, .receive clock agentId =>
      let (answer, bus) := state.bus.receive clock agentId
      some { state with
        bus := bus
        returned := state.returned ++
          (accepted answer).flatMap fun message => message.toList.map fun held => (agentId, held)
        taken := state.taken ++
          if agentId ∈ state.bus.registered then
            takings agentId (state.bus.inboxes agentId) clock
          else [] }

/-- A new bus without a repository. -/
def start (events : Option (List Event)) (maxPayload maxInbox maxHops : Int) :
    Correspondence Store where
  bus := { events := events, maxPayload := maxPayload, maxInbox := maxInbox,
           maxHops := maxHops }

/-! What the history holds for one agent, in the order of time. -/

def enqueuedTo (state : Correspondence Store) (agentId : String) : List AgentMessage :=
  state.enqueued.filter (·.recipient == agentId)

def takenFrom (state : Correspondence Store) (agentId : String) : List Taking :=
  state.taken.filter (·.agent == agentId)

def returnedTo (state : Correspondence Store) (agentId : String) : List AgentMessage :=
  (state.returned.filter (·.1 == agentId)).map Prod.snd

end Correspondence

/-- The message was made from the origin by so many relays, each of the message that the one
before it made. -/
inductive Chain (relays : List (AgentMessage × AgentMessage)) (origin : AgentMessage) :
    AgentMessage → Nat → Prop
  | first {relayed} : (origin, relayed) ∈ relays → Chain relays origin relayed 1
  | more {last relayed count} : Chain relays origin last count →
      (last, relayed) ∈ relays → Chain relays origin relayed (count + 1)

namespace Correspondence

variable {Store : Type u}

/-- An inbox that holds anything is within the bound, and what an agent was sent is, in the
order in which it was enqueued, what `receive` took from its inbox, followed by the inbox:
what was taken was returned, or had expired. -/
structure Delivers (state : Correspondence Store) : Prop where
  once : (state.enqueued.map AgentMessage.pair).Nodup
  bounded : ∀ agentId, state.bus.inboxes agentId ≠ [] →
    ((state.bus.inboxes agentId).length : Int) ≤ state.bus.maxInbox
  ordered : ∀ agentId, state.enqueuedTo agentId =
    (state.takenFrom agentId).map Taking.message ++ state.bus.inboxes agentId
  returned : ∀ agentId, state.returnedTo agentId =
    ((state.takenFrom agentId).filter Taking.returned).map Taking.message
  dropped : ∀ taking ∈ state.taken, taking.returned = false →
    taking.message.expired taking.reading = true
  relayed : ∀ relay ∈ state.relays,
    relay.2.hops = relay.1.hops + 1 ∧ relay.2.ttlHops = relay.1.ttlHops - 1
  chains : ∀ origin ∈ state.sent, ∀ last count, Chain state.relays origin last count →
    (count : Int) ≤ state.bus.maxHops

/-- A message is sent with a hop count that was not set back, or with too little time to live
for it to matter. -/
def CountsHops (state : Correspondence Store) : BusCall → Prop
  | .send _ message => 0 ≤ message.hops ∨ message.ttlHops ≤ state.bus.maxHops + 1
  | _ => True

instance CountsHops.decidable (state : Correspondence Store) :
    (call : BusCall) → Decidable (state.CountsHops call)
  | .send _ message =>
      inferInstanceAs (Decidable (0 ≤ message.hops ∨ message.ttlHops ≤ state.bus.maxHops + 1))
  | .register _ | .forward _ _ _ | .receive _ _ => isTrue trivial

/-- What is kept of the inboxes. -/
structure Queues (state : Correspondence Store) : Prop where
  unstored : state.bus.repository = none
  seen : ∀ message ∈ state.enqueued, message.pair ∈ state.bus.seenPairs
  once : (state.enqueued.map AgentMessage.pair).Nodup
  bounded : ∀ agentId, state.bus.inboxes agentId ≠ [] →
    ((state.bus.inboxes agentId).length : Int) ≤ state.bus.maxInbox
  ordered : ∀ agentId, state.enqueuedTo agentId =
    (state.takenFrom agentId).map Taking.message ++ state.bus.inboxes agentId
  returned : ∀ agentId, state.returnedTo agentId =
    ((state.takenFrom agentId).filter Taking.returned).map Taking.message
  dropped : ∀ taking ∈ state.taken, taking.returned = false →
    taking.message.expired taking.reading = true

/-- What is kept of the relays. -/
structure CountedRelays (state : Correspondence Store) : Prop where
  relayed : ∀ relay ∈ state.relays,
    relay.2.hops = relay.1.hops + 1 ∧ relay.2.ttlHops = relay.1.ttlHops - 1
  within : ∀ relay ∈ state.relays,
    relay.2.hops ≤ state.bus.maxHops ∧ 1 ≤ relay.2.ttlHops
  sent : ∀ message ∈ state.sent,
    0 ≤ message.hops ∨ message.ttlHops ≤ state.bus.maxHops + 1

variable {externals : BusExternals Store} {state next : Correspondence Store}

/-! ## Relays -/

/-- Every relay of a chain adds a hop and takes one from the time to live, within the bounds
of the bus. -/
theorem chain_hops (counted : state.CountedRelays) {origin last : AgentMessage} {count : Nat}
    (chain : Chain state.relays origin last count) :
    last.hops = origin.hops + count ∧ last.ttlHops = origin.ttlHops - count ∧
      last.hops ≤ state.bus.maxHops ∧ 1 ≤ last.ttlHops := by
  induction chain with
  | first relay =>
      have copies := counted.relayed _ relay
      have bounds := counted.within _ relay
      simp only at copies bounds
      omega
  | more chain relay induction =>
      have copies := counted.relayed _ relay
      have bounds := counted.within _ relay
      simp only at copies bounds
      omega

theorem chain_bounded (counted : state.CountedRelays) {origin last : AgentMessage}
    {count : Nat} (sent : origin ∈ state.sent)
    (chain : Chain state.relays origin last count) : (count : Int) ≤ state.bus.maxHops := by
  have bounds := chain_hops counted chain
  rcases counted.sent origin sent with forwards | short <;> omega

/-- What is kept of the relays stays as long as no more of them are there. -/
theorem CountedRelays.of_same (counted : state.CountedRelays)
    (bound : next.bus.maxHops = state.bus.maxHops) (sent : next.sent = state.sent)
    (relays : next.relays = state.relays) : next.CountedRelays where
  relayed := relays ▸ counted.relayed
  within := by
    rw [relays, bound]
    exact counted.within
  sent := by
    rw [sent, bound]
    exact counted.sent

/-- One more message is sent. -/
theorem CountedRelays.send (counted : state.CountedRelays) {message : AgentMessage}
    (counts : 0 ≤ message.hops ∨ message.ttlHops ≤ state.bus.maxHops + 1) :
    CountedRelays { state with sent := state.sent ++ [message] } where
  relayed := counted.relayed
  within := counted.within
  sent := List.forall_mem_append.mpr ⟨counted.sent, List.forall_mem_singleton.mpr counts⟩

/-- One more message is relayed. -/
theorem CountedRelays.relay (counted : state.CountedRelays) {message : AgentMessage}
    (relayable : state.bus.Relayable message) (recipient : String) :
    CountedRelays { state with
      relays := state.relays ++ [(message, message.relayed recipient)] } where
  relayed := List.forall_mem_append.mpr
    ⟨counted.relayed, List.forall_mem_singleton.mpr ⟨rfl, rfl⟩⟩
  within := List.forall_mem_append.mpr ⟨counted.within, List.forall_mem_singleton.mpr
    ⟨relayable.hops, Int.le_sub_one_of_lt relayable.ttl⟩⟩
  sent := counted.sent

/-! ## Queues -/

/-- What is kept of the inboxes stays as long as they and the history do. -/
theorem Queues.of_same (queues : state.Queues) (unstored : next.bus.repository = none)
    (seen : next.bus.seenPairs = state.bus.seenPairs)
    (bound : next.bus.maxInbox = state.bus.maxInbox)
    (inboxes : next.bus.inboxes = state.bus.inboxes)
    (enqueued : next.enqueued = state.enqueued) (returned : next.returned = state.returned)
    (taken : next.taken = state.taken) : next.Queues where
  unstored := unstored
  seen := by
    rw [enqueued, seen]
    exact queues.seen
  once := enqueued ▸ queues.once
  bounded := by
    rw [inboxes, bound]
    exact queues.bounded
  ordered := by
    simp only [enqueuedTo, takenFrom, enqueued, taken, inboxes]
    exact queues.ordered
  returned := by
    simp only [returnedTo, takenFrom, returned, taken]
    exact queues.returned
  dropped := taken ▸ queues.dropped

/-- An admitted message goes behind what its recipient was sent. -/
theorem Queues.enqueue (queues : state.Queues) {now : Int} {message : AgentMessage}
    (admitted : state.bus.Admits externals now message) (events : Option (List Event)) :
    Queues { state with
      bus := { state.bus.enqueue message message with events := events }
      enqueued := state.enqueued ++ [message] } where
  unstored := queues.unstored
  seen held enqueued := by
    rcases List.mem_append.mp enqueued with before | now
    · exact Finset.mem_insert_of_mem (queues.seen held before)
    · rw [List.mem_singleton.mp now]
      exact Finset.mem_insert_self _ _
  once := by
    rw [List.map_append, List.map_singleton]
    refine queues.once.append (List.nodup_singleton _) ?_
    intro pair before now
    rcases List.mem_map.mp before with ⟨held, enqueued, rfl⟩
    rw [List.mem_singleton] at now
    exact admitted.fresh (now ▸ queues.seen held enqueued)
  bounded agentId filled := by
    have room := admitted.room
    simp only [MessageBus.enqueue, MessageBus.setInbox, Function.update_apply] at filled ⊢
    split
    · next same =>
        simp only [List.length_append, List.length_singleton]
        omega
    · next differs =>
        rw [if_neg differs] at filled
        exact queues.bounded agentId filled
  ordered agentId := by
    have before := queues.ordered agentId
    simp only [enqueuedTo, takenFrom, MessageBus.enqueue, MessageBus.setInbox,
      Function.update_apply, List.filter_append] at before ⊢
    by_cases same : agentId = message.recipient
    · subst same
      simp [before]
    · simp [before, same, Ne.symm same]
  returned := queues.returned
  dropped := queues.dropped

/-- What `receive` looks at is the front of the inbox, and it returns what it does not
drop. -/
theorem takings_spec (agentId : String) (inbox : List AgentMessage) (clock : Nat → Int)
    {bus : MessageBus Store} (holds : bus.inboxes agentId = inbox) :
    ∃ events rest, inbox = (takings agentId inbox clock).map Taking.message ++ rest ∧
      (bus.receiveFrom agentId inbox clock).2 =
        { bus.setInbox agentId rest with events := events } ∧
      (bus.receiveFrom agentId inbox clock).1.toList =
        ((takings agentId inbox clock).filter Taking.returned).map Taking.message := by
  induction inbox generalizing clock bus with
  | nil =>
      refine ⟨bus.events, [], rfl, ?_, rfl⟩
      simp only [MessageBus.receiveFrom, MessageBus.setInbox, ← holds, Function.update_eq_self]
  | cons message rest induction =>
      by_cases expired : message.expired (clock 0) = true
      · have emptied : ((bus.setInbox agentId rest).reject message
            "expired on receive").inboxes agentId = rest := Function.update_self ..
        rcases induction (fun reading => clock (reading + 1)) emptied with
          ⟨events, later, front, left, returned⟩
        refine ⟨events, later, ?_, ?_, ?_⟩
        · simp only [takings, if_pos expired, List.map_cons, List.cons_append, ← front]
        · simp only [MessageBus.receiveFrom, if_pos expired, left]
          simp only [MessageBus.setInbox, MessageBus.reject, MessageBus.emit,
            Function.update_idem]
        · simpa only [MessageBus.receiveFrom, takings, if_pos expired, List.filter_cons,
            Bool.false_eq_true, if_false] using returned
      · simp only [MessageBus.receiveFrom, takings, if_neg expired]
        exact ⟨_, rest, rfl, rfl, rfl⟩

theorem agent_of_takings {agentId : String} {inbox : List AgentMessage} {clock : Nat → Int}
    {taking : Taking} (looked : taking ∈ takings agentId inbox clock) :
    taking.agent = agentId ∧
      (taking.returned = false → taking.message.expired taking.reading = true) := by
  induction inbox generalizing clock with
  | nil => cases looked
  | cons message rest induction =>
      simp only [takings] at looked
      split at looked
      · next expired =>
          rcases List.mem_cons.mp looked with rfl | later
          · exact ⟨rfl, fun _ => expired⟩
          · exact induction later
      · rw [List.mem_singleton] at looked
        subst looked
        exact ⟨rfl, fun dropped => by cases dropped⟩

/-- An agent takes from its own inbox only. -/
theorem filter_takings (agentId other : String) (inbox : List AgentMessage)
    (clock : Nat → Int) :
    (takings agentId inbox clock).filter (·.agent == other) =
      if other = agentId then takings agentId inbox clock else [] := by
  split
  · next same =>
      subst same
      exact List.filter_eq_self.mpr fun taking looked =>
        beq_iff_eq.mpr (agent_of_takings looked).1
  · next differs =>
      refine List.filter_eq_nil_iff.mpr fun taking looked matched => ?_
      exact differs ((beq_iff_eq.mp matched).symm.trans (agent_of_takings looked).1)

/-- A registered agent takes from the front of its inbox. -/
theorem Queues.take (queues : state.Queues) {clock : Nat → Int} {agentId : String}
    {events : Option (List Event)} {rest : List AgentMessage}
    (front : state.bus.inboxes agentId =
      (takings agentId (state.bus.inboxes agentId) clock).map Taking.message ++ rest) :
    Queues { state with
      bus := { state.bus.setInbox agentId rest with events := events }
      returned := state.returned ++
        (((takings agentId (state.bus.inboxes agentId) clock).filter Taking.returned).map
          Taking.message).map fun held => (agentId, held)
      taken := state.taken ++ takings agentId (state.bus.inboxes agentId) clock } where
  unstored := queues.unstored
  seen := queues.seen
  once := queues.once
  bounded other filled := by
    have before := queues.bounded other
    simp only [MessageBus.setInbox, Function.update_apply] at filled ⊢
    split
    · next same =>
        subst same
        rw [if_pos rfl] at filled
        have longer := congrArg List.length front
        rw [List.length_append, List.length_map] at longer
        have held : state.bus.inboxes other ≠ [] := fun empty =>
          filled (List.append_eq_nil_iff.mp (front.symm.trans empty)).2
        have within := before held
        omega
    · next differs =>
        rw [if_neg differs] at filled
        exact before filled
  ordered other := by
    have before := queues.ordered other
    simp only [enqueuedTo, takenFrom, MessageBus.setInbox, Function.update_apply,
      List.filter_append, filter_takings] at before ⊢
    by_cases same : other = agentId
    · subst same
      rw [before, if_pos rfl, if_pos rfl, List.map_append, List.append_assoc, ← front]
    · rw [before, if_neg same, if_neg same, List.append_nil]
  returned other := by
    have before := queues.returned other
    simp only [returnedTo, takenFrom, List.filter_append, filter_takings,
      List.map_append] at before ⊢
    rw [before]
    by_cases same : other = agentId
    · subst same
      simp [List.filter_map, Function.comp_def]
    · simp [List.filter_map, Function.comp_def, same, Ne.symm same]
  dropped taking looked := by
    rcases List.mem_append.mp looked with before | now
    · exact queues.dropped taking before
    · exact (agent_of_takings now).2

/-! ## Steps -/

theorem kept_register (queues : state.Queues) (counted : state.CountedRelays)
    (agentId : String) :
    let next : Correspondence Store := { state with bus := state.bus.register agentId }
    next.Queues ∧ next.CountedRelays :=
  ⟨queues.of_same queues.unstored rfl rfl rfl rfl rfl rfl, counted.of_same rfl rfl rfl⟩

theorem kept_receive (queues : state.Queues) (counted : state.CountedRelays)
    {clock : Nat → Int} {agentId : String}
    (stepped : step externals state (.receive clock agentId) = some next) :
    next.Queues ∧ next.CountedRelays := by
  simp only [step, MessageBus.receive] at stepped
  by_cases registered : agentId ∈ state.bus.registered
  · rcases takings_spec agentId (state.bus.inboxes agentId) clock rfl with
      ⟨events, rest, front, left, returned⟩
    simp only [if_pos registered, left, accepted, Except.toOption, Option.toList_some,
      List.flatMap_cons, List.flatMap_nil, List.append_nil, returned] at stepped
    cases stepped
    exact ⟨queues.take front, counted.of_same rfl rfl rfl⟩
  · simp only [if_neg registered, accepted, Except.toOption, Option.toList_none,
      List.flatMap_nil, List.append_nil] at stepped
    cases stepped
    exact ⟨queues, counted⟩

theorem kept_send (queues : state.Queues) (counted : state.CountedRelays)
    {clock : Nat → Int} {message : AgentMessage}
    (counts : state.CountsHops (.send clock message))
    (stepped : step externals state (.send clock message) = some next) :
    next.Queues ∧ next.CountedRelays := by
  simp only [step] at stepped
  rcases MessageBus.send_unstored externals clock message queues.unstored with
    ⟨error, events, refused⟩ | ⟨admitted, events, sent⟩
  · simp only [refused, accepted, Except.toOption, Option.toList_none,
      List.append_nil] at stepped
    cases stepped
    exact ⟨queues.of_same queues.unstored rfl rfl rfl rfl rfl rfl, counted.of_same rfl rfl rfl⟩
  · simp only [sent, accepted, Except.toOption, Option.toList_some] at stepped
    cases stepped
    have queued := queues.enqueue admitted events
    have sending : CountedRelays { state with sent := state.sent ++ [message] } :=
      counted.send counts
    exact ⟨queued.of_same queued.unstored rfl rfl rfl rfl rfl rfl, sending.of_same rfl rfl rfl⟩

theorem kept_forward (queues : state.Queues) (counted : state.CountedRelays)
    {clock : Nat → Int} {message : AgentMessage} {recipient : String}
    (stepped : step externals state (.forward clock message recipient) = some next) :
    next.Queues ∧ next.CountedRelays := by
  simp only [step] at stepped
  by_cases relayable : state.bus.Relayable message
  · have recounted : Queues { state with bus := state.bus.counted message recipient } :=
      queues.of_same queues.unstored rfl rfl rfl rfl rfl rfl
    rcases MessageBus.forward_of_relayable externals clock recipient relayable with
      ⟨_, error, loops⟩ | ⟨_, sends⟩
    · simp only [loops, accepted, Except.toOption, Option.toList_none, List.map_nil,
        List.append_nil] at stepped
      cases stepped
      exact ⟨recounted, counted.of_same rfl rfl rfl⟩
    · rw [sends] at stepped
      rcases MessageBus.send_unstored externals clock (message.relayed recipient)
        recounted.unstored with ⟨error, events, refused⟩ | ⟨admitted, events, sent⟩
      · simp only [refused, accepted, Except.toOption, Option.toList_none, List.map_nil,
          List.append_nil] at stepped
        cases stepped
        exact ⟨queues.of_same queues.unstored rfl rfl rfl rfl rfl rfl, counted.of_same rfl rfl rfl⟩
      · simp only [sent, accepted, Except.toOption, Option.toList_some, List.map_cons,
          List.map_nil] at stepped
        cases stepped
        have queued := recounted.enqueue admitted events
        exact ⟨queued.of_same queued.unstored rfl rfl rfl rfl rfl rfl,
          (counted.relay relayable recipient).of_same rfl rfl rfl⟩
  · rcases MessageBus.forward_of_not_relayable externals clock recipient relayable with
      ⟨error, refused⟩
    simp only [refused, accepted, Except.toOption, Option.toList_none, List.map_nil,
      List.append_nil] at stepped
    cases stepped
    exact ⟨queues, counted⟩

theorem kept_step {call : BusCall} (kept : state.Queues ∧ state.CountedRelays)
    (counts : state.CountsHops call) (stepped : step externals state call = some next) :
    next.Queues ∧ next.CountedRelays := by
  rcases kept with ⟨queues, counted⟩
  cases call with
  | register agentId =>
      cases stepped
      exact kept_register queues counted agentId
  | send clock message => exact kept_send queues counted counts stepped
  | forward clock message recipient => exact kept_forward queues counted stepped
  | receive clock agentId => exact kept_receive queues counted stepped

theorem delivers_of_kept (queues : state.Queues) (counted : state.CountedRelays) :
    state.Delivers where
  once := queues.once
  bounded := queues.bounded
  ordered := queues.ordered
  returned := queues.returned
  dropped := queues.dropped
  relayed := counted.relayed
  chains _ sent _ _ chain := chain_bounded counted sent chain

/-- Whatever calls are made of a new bus without a repository, they keep to the delivery of
messages as long as no message with time to live for too many relays is sent with a negative
number of hops. -/
theorem delivers_of_countsHops (events : Option (List Event))
    (maxPayload maxInbox maxHops : Int) (calls : List BusCall) (final : Correspondence Store)
    (counts : StepFunction.Meets (step externals) CountsHops
      (start events maxPayload maxInbox maxHops) calls)
    (reached : StepFunction.run (step externals)
      (start events maxPayload maxInbox maxHops) calls = some final) :
    final.Delivers := by
  have fresh : (start events maxPayload maxInbox maxHops : Correspondence Store).Queues ∧
      (start events maxPayload maxInbox maxHops : Correspondence Store).CountedRelays := by
    refine ⟨⟨rfl, ?_, .nil, fun _ filled => absurd rfl filled, fun _ => rfl, fun _ => rfl, ?_⟩,
      ⟨?_, ?_, ?_⟩⟩ <;> exact fun _ held => absurd held List.not_mem_nil
  have kept := StepFunction.invariant_of_meets
    (fun state call next kept counts stepped => kept_step kept counts stepped)
    fresh counts reached
  exact delivers_of_kept kept.1 kept.2

/-! ## Concrete calls -/

/-- A bus that is built on nothing else: every message is of size zero. -/
def weightless : BusExternals Unit where
  size _ := .ok 0
  create _ message store := (message, .ok store)

/-- A message from `a` to `b` of task `t`. -/
def letter (hops : Int) : AgentMessage where
  id := "m"
  createdAt := 0
  updatedAt := 0
  sender := "a"
  recipient := "b"
  taskId := "t"
  hops := hops

/-- The agents join, and the letter is sent to `b` and relayed to `c`. -/
def relayedOnce (hops : Int) : List BusCall :=
  ["a", "b", "c", "d"].map BusCall.register ++
    [.send (fun _ => 0) (letter hops), .forward (fun _ => 0) (letter hops) "c"]

theorem delivers_letter : ∃ final : Correspondence Unit,
    StepFunction.run (step weightless) (start none 64000 100 8)
      (relayedOnce 0 ++ [.receive (fun _ => 0) "c"]) = some final ∧
      final.Delivers ∧ final.returned.map Prod.fst = ["c"] := by
  have counts : StepFunction.Meets (step weightless) CountsHops (start none 64000 100 8)
      (relayedOnce 0 ++ [.receive (fun _ => 0) "c"]) := by
    decide
  exact ⟨_, rfl, delivers_of_countsHops none 64000 100 8 _ _ counts rfl, rfl⟩

/-- Sent with `hops = -1` over a bus of one hop, the letter is relayed twice. -/
theorem relayed_beyond_maxHops : ¬ ∀ (calls : List BusCall) (final : Correspondence Unit),
    StepFunction.run (step weightless) (start none 64000 100 1) calls = some final →
      final.Delivers := by
  intro all
  have delivers := all (relayedOnce (-1) ++
    [.forward (fun _ => 0) ((letter (-1)).relayed "c") "d"]) _ rfl
  have twice := delivers.chains (letter (-1)) (.head _) (((letter (-1)).relayed "c").relayed "d")
    2 (.more (.first (.head _)) (.tail _ (.head _)))
  exact absurd twice (by decide)

end Correspondence

end Raphael.Agent.Multi
