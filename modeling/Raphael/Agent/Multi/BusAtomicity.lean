import Raphael.Agent.Multi.MessageDelivery

/-! # Calls of the bus that raise

A call that raises after it has changed the bus leaves the change behind: a message whose
repository fails stays in the inbox, and a relay that is refused stays counted. A relay keeps
the id of its message, under which the table of the messages holds it already. -/

namespace Raphael.Agent.Multi

open Core
open Foundation
open Persistence

namespace MessageBus

variable {Store : Type u} {Other : Type v}

/-- The bus with another repository, or with none. -/
def withStore (repository : Option Other) (bus : MessageBus Store) : MessageBus Other :=
  { bus with repository := repository }

/-- A call that raises leaves the inboxes, the seen pairs and the counts of the relays. -/
def LeavesRouting (bus : MessageBus Store)
    (called : Except Error AgentMessage × MessageBus Store) : Prop :=
  ∀ error, called.1 = .error error → called.2.routing = bus.routing

/-- A relay that the bus accepts without a repository, it accepts with the table. -/
def StoresRelay (externals : BusExternals Store) (clock : Nat → Int) (message : AgentMessage)
    (recipient : String) (table : SnapshotTable AgentMessage) (bus : MessageBus Store) : Prop :=
  ∀ relayed, ((bus.withStore none).forward externals clock message recipient).1 =
      .ok relayed →
    ∃ stored, ((bus.withStore (some table)).forward (.sqlite externals.size) clock message
      recipient).1 = .ok stored

/-- The calls for a message are all or nothing, and the table takes what the bus takes. -/
structure Atomic (externals : BusExternals Store) (clock : Nat → Int) (message : AgentMessage)
    (recipient : String) (table : SnapshotTable AgentMessage) (bus : MessageBus Store) :
    Prop where
  send : bus.LeavesRouting (bus.send externals clock message)
  forward : bus.LeavesRouting (bus.forward externals clock message recipient)
  stores : bus.StoresRelay externals clock message recipient table

/-- The repository takes the message. -/
def Written (externals : BusExternals Store) (now : Int) (message : AgentMessage)
    (bus : MessageBus Store) : Prop :=
  ∃ repository, (bus.persist externals now message).2 = .ok repository

/-- The relay passes every check behind the two that come before it is counted. -/
structure Forwards (externals : BusExternals Store) (now : Int) (message : AgentMessage)
    (recipient : String) (bus : MessageBus Store) : Prop where
  count : (bus.relayCount message recipient : Int) ≤ bus.maxHops
  admitted : bus.Admits externals now (message.relayed recipient)

/-- The repository takes what is admitted, what is counted is relayed, and the table holds no
message under the id of a relay. -/
structure Undisturbed (externals : BusExternals Store) (clock : Nat → Int)
    (message : AgentMessage) (recipient : String) (table : SnapshotTable AgentMessage)
    (bus : MessageBus Store) : Prop where
  send : bus.Admits externals (clock 0) message → bus.Written externals (clock 1) message
  forward : bus.Relayable message → bus.Forwards externals (clock 0) message recipient ∧
    bus.Written externals (clock 1) (message.relayed recipient)
  stores : bus.Relayable message → bus.Forwards externals (clock 0) message recipient →
    table.get message.id = none

variable {externals : BusExternals Store} {clock : Nat → Int} {message : AgentMessage}
  {recipient : String} {table : SnapshotTable AgentMessage} {bus : MessageBus Store}

/-! ## What the checks read -/

theorem admits_congr {others : BusExternals Other} {now : Int} {other : MessageBus Other}
    (size : others.size = externals.size) (registered : other.registered = bus.registered)
    (payload : other.maxPayload = bus.maxPayload) (inbox : other.maxInbox = bus.maxInbox)
    (seen : other.seenPairs = bus.seenPairs) (inboxes : other.inboxes = bus.inboxes) :
    other.Admits others now message ↔ bus.Admits externals now message := by
  have faults : other.fault others now message = bus.fault externals now message := by
    simp only [fault, size, registered, payload]
  constructor
  · rintro ⟨valid, fresh, room⟩
    exact ⟨faults ▸ valid, seen ▸ fresh, inboxes ▸ inbox ▸ room⟩
  · rintro ⟨valid, fresh, room⟩
    exact ⟨faults ▸ valid, seen ▸ fresh, inboxes ▸ inbox ▸ room⟩

theorem admits_counted {now : Int} {other : AgentMessage} :
    (bus.counted message recipient).Admits externals now other ↔
      bus.Admits externals now other :=
  admits_congr rfl rfl rfl rfl rfl rfl

/-! ## Calls that raise -/

/-- An admitted message is seen. -/
theorem routing_enqueue_ne (fresh : message.pair ∉ bus.seenPairs) (held : AgentMessage) :
    (bus.enqueue message held).routing ≠ bus.routing := by
  intro same
  have seen : insert message.pair bus.seenPairs = bus.seenPairs :=
    congrArg (fun routing => routing.2.1) same
  exact fresh (seen ▸ Finset.mem_insert_self _ _)

/-- A counted relay shows in the counts. -/
theorem counted_forwarded_ne : (bus.counted message recipient).forwarded ≠ bus.forwarded := by
  intro same
  have count := congrArg (fun counts => counts.get (message.route recipient)) same
  simp only [counted, Dict.get_set, if_true] at count
  have recount : bus.relayCount message recipient =
      (bus.forwarded.get (message.route recipient)).getD 0 + 1 := rfl
  rw [← count] at recount
  simp at recount

theorem forwarded_send :
    (bus.send externals clock message).2.forwarded = bus.forwarded := by
  by_cases admitted : bus.Admits externals (clock 0) message
  · cases written : (bus.persist externals (clock 1) message).2 with
    | error error =>
        rw [(send_of_admits admitted).1 error written]
        rfl
    | ok repository =>
        rcases (send_of_admits admitted).2 repository written with ⟨events, sent⟩
        rw [sent]
        rfl
  · rcases send_of_not_admits admitted with ⟨error, events, refused⟩
    rw [refused]

/-- Exactly the messages that are admitted and written are accepted. -/
theorem send_ok_iff : (∃ sent, (bus.send externals clock message).1 = .ok sent) ↔
    bus.Admits externals (clock 0) message ∧ bus.Written externals (clock 1) message := by
  constructor
  · rintro ⟨sent, accepts⟩
    by_cases admitted : bus.Admits externals (clock 0) message
    · refine ⟨admitted, ?_⟩
      cases written : (bus.persist externals (clock 1) message).2 with
      | error error =>
          rw [(send_of_admits admitted).1 error written] at accepts
          cases accepts
      | ok repository => exact ⟨repository, written⟩
    · rcases send_of_not_admits admitted with ⟨error, events, refused⟩
      rw [refused] at accepts
      cases accepts
  · rintro ⟨admitted, repository, written⟩
    rcases (send_of_admits admitted).2 repository written with ⟨events, sent⟩
    exact ⟨_, congrArg Prod.fst sent⟩

theorem forward_ok_iff :
    (∃ sent, (bus.forward externals clock message recipient).1 = .ok sent) ↔
      bus.Relayable message ∧ bus.Forwards externals (clock 0) message recipient ∧
        bus.Written externals (clock 1) (message.relayed recipient) := by
  constructor
  · rintro ⟨sent, accepts⟩
    by_cases relayable : bus.Relayable message
    · rcases forward_of_relayable externals clock recipient relayable with
        ⟨_, error, loops⟩ | ⟨count, sends⟩
      · rw [loops] at accepts
        cases accepts
      · rw [sends] at accepts
        have sendable := send_ok_iff.mp ⟨sent, accepts⟩
        exact ⟨relayable, ⟨count, admits_counted.mp sendable.1⟩, sendable.2⟩
    · rcases forward_of_not_relayable externals clock recipient relayable with ⟨error, refused⟩
      rw [refused] at accepts
      cases accepts
  · rintro ⟨relayable, forwards, written⟩
    rcases forward_of_relayable externals clock recipient relayable with ⟨loops, _⟩ | ⟨_, sends⟩
    · exact absurd loops (not_lt.mpr forwards.count)
    · rw [sends]
      exact send_ok_iff.mpr ⟨admits_counted.mpr forwards.admitted, written⟩

/-- A call that raises while the repository would not have done so leaves no trace. -/
theorem leavesRouting_send_iff : bus.LeavesRouting (bus.send externals clock message) ↔
    (bus.Admits externals (clock 0) message → bus.Written externals (clock 1) message) := by
  constructor
  · intro leaves admitted
    cases written : (bus.persist externals (clock 1) message).2 with
    | ok repository => exact ⟨repository, written⟩
    | error error =>
        have raised := leaves error
        rw [(send_of_admits admitted).1 error written] at raised
        exact absurd (raised rfl) (routing_enqueue_ne admitted.fresh _)
  · intro writes error raised
    by_cases admitted : bus.Admits externals (clock 0) message
    · rcases send_ok_iff.mpr ⟨admitted, writes admitted⟩ with ⟨sent, accepts⟩
      rw [accepts] at raised
      cases raised
    · rcases send_of_not_admits admitted with ⟨_, events, refused⟩
      rw [refused]
      rfl

/-- A relay leaves no trace exactly where it is refused before it is counted, or accepted. -/
theorem leavesRouting_forward_iff :
    bus.LeavesRouting (bus.forward externals clock message recipient) ↔
      (bus.Relayable message → bus.Forwards externals (clock 0) message recipient ∧
        bus.Written externals (clock 1) (message.relayed recipient)) := by
  constructor
  · intro leaves relayable
    cases answer : (bus.forward externals clock message recipient).1 with
    | ok sent => exact (forward_ok_iff.mp ⟨sent, answer⟩).2
    | error error =>
        have counts : (bus.forward externals clock message recipient).2.forwarded =
            (bus.counted message recipient).forwarded := by
          rcases forward_of_relayable externals clock recipient relayable with
            ⟨_, _, loops⟩ | ⟨_, sends⟩
          · rw [loops]
          · rw [sends, forwarded_send]
        have same := congrArg (fun routing => routing.2.2) (leaves error answer)
        exact absurd (counts.symm.trans same) counted_forwarded_ne
  · intro forwards error raised
    by_cases relayable : bus.Relayable message
    · rcases forward_ok_iff.mpr ⟨relayable, forwards relayable⟩ with ⟨sent, accepts⟩
      rw [accepts] at raised
      cases raised
    · rcases forward_of_not_relayable externals clock recipient relayable with ⟨_, refused⟩
      rw [refused]

/-! ## The table of the messages -/

theorem written_sqlite (message : AgentMessage) {size : AgentMessage → Except Error Nat}
    {now : Int} {bus : MessageBus (SnapshotTable AgentMessage)}
    (stored : bus.repository = some table) :
    bus.Written (.sqlite size) now message ↔ table.get message.id = none := by
  have created : (∃ created, table.create now message = .ok created) ↔
      table.get message.id = none := SnapshotTable.create_ok_iff
  simp only [Written, persist, stored, BusExternals.sqlite]
  cases made : table.create now message with
  | ok stored => exact iff_of_true ⟨_, rfl⟩ (created.mp ⟨stored, made⟩)
  | error error =>
      refine iff_of_false ?_ fun unused => ?_
      · rintro ⟨repository, written⟩
        cases written
      · rcases created.mpr unused with ⟨_, written⟩
        rw [made] at written
        cases written

/-- The table takes every relay that the bus takes exactly where it holds no message under
the id of the relay. -/
theorem storesRelay_iff : bus.StoresRelay externals clock message recipient table ↔
    (bus.Relayable message → bus.Forwards externals (clock 0) message recipient →
      table.get message.id = none) := by
  have unstored : (bus.withStore (none : Option Store)).Admits externals (clock 0)
      (message.relayed recipient) ↔
        bus.Admits externals (clock 0) (message.relayed recipient) :=
    admits_congr rfl rfl rfl rfl rfl rfl
  have stored : (bus.withStore (some table)).Admits (.sqlite externals.size) (clock 0)
      (message.relayed recipient) ↔
        bus.Admits externals (clock 0) (message.relayed recipient) :=
    admits_congr rfl rfl rfl rfl rfl rfl
  constructor
  · intro stores relayable forwards
    have without : ∃ relayed, ((bus.withStore (none : Option Store)).forward externals clock
        message recipient).1 = .ok relayed :=
      forward_ok_iff.mpr ⟨⟨relayable.hops, relayable.ttl⟩,
        ⟨forwards.count, unstored.mpr forwards.admitted⟩, none, rfl⟩
    rcases without with ⟨relayed, accepts⟩
    have written := (forward_ok_iff.mp (stores relayed accepts)).2.2
    exact (written_sqlite (message.relayed recipient) rfl).mp written
  · intro unused relayed accepts
    rcases forward_ok_iff.mp ⟨relayed, accepts⟩ with ⟨relayable, forwards, _⟩
    have forwarded : bus.Forwards externals (clock 0) message recipient :=
      ⟨forwards.count, unstored.mp forwards.admitted⟩
    exact forward_ok_iff.mpr ⟨⟨relayable.hops, relayable.ttl⟩,
      ⟨forwards.count, stored.mpr forwarded.admitted⟩,
      (written_sqlite (message.relayed recipient) rfl).mpr
        (unused ⟨relayable.hops, relayable.ttl⟩ forwarded)⟩

/-- The calls for a message are all or nothing, and the table takes what the bus takes,
exactly where the repository takes what is admitted, what is counted is relayed, and the table
holds no message under the id of a relay. -/
theorem atomic_iff_undisturbed : bus.Atomic externals clock message recipient table ↔
    bus.Undisturbed externals clock message recipient table := by
  constructor
  · rintro ⟨sends, forwards, stores⟩
    exact ⟨leavesRouting_send_iff.mp sends, leavesRouting_forward_iff.mp forwards,
      storesRelay_iff.mp stores⟩
  · rintro ⟨sends, forwards, stores⟩
    exact ⟨leavesRouting_send_iff.mpr sends, leavesRouting_forward_iff.mpr forwards,
      storesRelay_iff.mpr stores⟩

/-- A message of `a` was sent to `b` over a bus with the table of the messages. -/
def afterSend : MessageBus (SnapshotTable AgentMessage) :=
  (send (.sqlite fun _ => .ok 0) (fun _ => 0) (Correspondence.letter 0)
    { repository := some (.empty "agent_messages"), registered := {"a", "b", "c"} }).2

/-- Its relay to `c` raises, and stays in the inbox of `c`. -/
theorem relay_left_behind : ¬ ∀ (message : AgentMessage) (recipient : String)
    (table : SnapshotTable AgentMessage) (bus : MessageBus (SnapshotTable AgentMessage)),
    bus.Atomic (.sqlite fun _ => .ok 0) (fun _ => 0) message recipient table := by
  intro all
  have leaves :=
    (all (Correspondence.letter 0) "c" (.empty "agent_messages") afterSend).forward _ rfl
  have inboxes := congrArg (fun routing => (routing.1 "c").length) leaves
  exact absurd inboxes (by decide)

end MessageBus

namespace Correspondence

/-! ## Relays over the table -/

/-- The bus has the table of the messages, which holds one under the id. -/
def Holds (messageId : String) (state : Correspondence (SnapshotTable AgentMessage)) : Prop :=
  ∃ table, state.bus.repository = some table ∧ ∃ row, table.get messageId = some row

variable {size : AgentMessage → Except Error Nat} {clock : Nat → Int}
  {message : AgentMessage} {messageId : String}
  {state next : Correspondence (SnapshotTable AgentMessage)}

/-- Sending adds a row at most. -/
theorem holds_send (size : AgentMessage → Except Error Nat) (clock : Nat → Int)
    (message : AgentMessage) (messageId : String) {bus : MessageBus (SnapshotTable AgentMessage)}
    {table : SnapshotTable AgentMessage} (stored : bus.repository = some table) :
    ∃ later, (bus.send (.sqlite size) clock message).2.repository = some later ∧
      (∀ row, table.get messageId = some row → ∃ row, later.get messageId = some row) ∧
      ∀ sent, (bus.send (.sqlite size) clock message).1 = .ok sent →
        ∃ row, later.get message.id = some row := by
  by_cases admitted : bus.Admits (.sqlite size) (clock 0) message
  · have persisted : (bus.persist (.sqlite size) (clock 1) message).2 =
        ((table.create (clock 1) message).map Prod.fst).map some := by
      simp only [MessageBus.persist, stored, BusExternals.sqlite]
    cases made : table.create (clock 1) message with
    | error error =>
        rw [made] at persisted
        rw [(MessageBus.send_of_admits admitted).1 error persisted]
        exact ⟨table, stored, fun row held => ⟨row, held⟩, fun sent accepts => by cases accepts⟩
    | ok created =>
        rw [made] at persisted
        rcases (MessageBus.send_of_admits admitted).2 _ persisted with ⟨events, sent⟩
        have reads := SnapshotTable.get_create made
        rw [sent]
        refine ⟨created.1, rfl, fun row held => ?_, fun _ _ => ⟨created.2, ?_⟩⟩
        · rw [reads]
          split
          · exact ⟨_, rfl⟩
          · exact ⟨row, held⟩
        · rw [reads]
          exact if_pos rfl
  · rcases MessageBus.send_of_not_admits admitted with ⟨error, events, refused⟩
    rw [refused]
    exact ⟨table, stored, fun row held => ⟨row, held⟩, fun sent accepts => by cases accepts⟩

theorem holds_step {call : BusCall} (holds : state.Holds messageId)
    (stepped : step (.sqlite size) state call = some next) : next.Holds messageId := by
  rcases holds with ⟨table, stored, row, held⟩
  cases call with
  | register agentId =>
      cases stepped
      exact ⟨table, stored, row, held⟩
  | send clock message =>
      cases stepped
      rcases holds_send size clock message messageId stored with ⟨later, kept, rows, _⟩
      exact ⟨later, kept, rows row held⟩
  | forward clock message recipient =>
      simp only [step] at stepped
      by_cases relayable : state.bus.Relayable message
      · rcases MessageBus.forward_of_relayable (.sqlite size) clock recipient relayable with
          ⟨_, error, loops⟩ | ⟨_, sends⟩
        · rw [loops] at stepped
          cases stepped
          exact ⟨table, stored, row, held⟩
        · rw [sends] at stepped
          cases stepped
          have counted : (state.bus.counted message recipient).repository = some table := stored
          rcases holds_send size clock (message.relayed recipient) messageId counted with
            ⟨later, kept, rows, _⟩
          exact ⟨later, kept, rows row held⟩
      · rcases MessageBus.forward_of_not_relayable (.sqlite size) clock recipient relayable with
          ⟨error, refused⟩
        rw [refused] at stepped
        cases stepped
        exact ⟨table, stored, row, held⟩
  | receive clock agentId =>
      simp only [step, MessageBus.receive] at stepped
      rcases takings_spec agentId (state.bus.inboxes agentId) clock rfl with
        ⟨events, rest, _, left, _⟩
      by_cases registered : agentId ∈ state.bus.registered
      · rw [if_pos registered, left] at stepped
        cases stepped
        exact ⟨table, stored, row, held⟩
      · rw [if_neg registered] at stepped
        cases stepped
        exact ⟨table, stored, row, held⟩

/-- Over the table of the messages, no message that was sent is ever relayed. -/
theorem relay_refused_of_sent {calls : List BusCall} {sent : AgentMessage}
    {table : SnapshotTable AgentMessage} (stored : state.bus.repository = some table)
    (accepted : (state.bus.send (.sqlite size) clock message).1 = .ok sent)
    (reached : StepFunction.run (step (.sqlite size)) state (.send clock message :: calls) =
      some next) (later : Nat → Int) (copy : AgentMessage) (same : copy.id = message.id)
    (recipient : String) :
    ∃ error, (next.bus.forward (.sqlite size) later copy recipient).1 = .error error := by
  rcases StepFunction.run_cons_eq_some.mp reached with ⟨middle, stepped, remaining⟩
  have holds : middle.Holds message.id := by
    cases stepped
    rcases holds_send size clock message message.id stored with ⟨written, kept, _, rows⟩
    exact ⟨written, kept, rows sent accepted⟩
  rcases StepFunction.invariant_of_run
    (fun _ _ _ holds stepped => holds_step holds stepped) holds remaining with
    ⟨last, repository, row, held⟩
  cases answer : (next.bus.forward (.sqlite size) later copy recipient).1 with
  | error error => exact ⟨error, rfl⟩
  | ok relayed =>
      have written := (MessageBus.forward_ok_iff.mp ⟨relayed, answer⟩).2.2
      have unused := (MessageBus.written_sqlite (copy.relayed recipient) repository).mp written
      have used : last.get copy.id = some row := same ▸ held
      cases unused.symm.trans used

/-- Three agents over an empty table. -/
def beforeLetter : Correspondence (SnapshotTable AgentMessage) where
  bus := { repository := some (.empty "agent_messages"), registered := {"a", "b", "c"} }

/-- When `b` has received the letter, it is not relayed to `c`. -/
theorem relay_refused_of_letter : ∃ next : Correspondence (SnapshotTable AgentMessage),
    StepFunction.run (step (.sqlite fun _ => .ok 0)) beforeLetter
      [.send (fun _ => 0) (letter 0), .receive (fun _ => 0) "b"] = some next ∧
    ∃ error, (next.bus.forward (.sqlite fun _ => .ok 0) (fun _ => 0) (letter 0) "c").1 =
      .error error := by
  obtain ⟨next, reached⟩ : ∃ next, StepFunction.run (step (.sqlite fun _ => .ok 0)) beforeLetter
      [.send (fun _ => 0) (letter 0), .receive (fun _ => 0) "b"] = some next := ⟨_, rfl⟩
  exact ⟨next, reached, relay_refused_of_sent (by rfl) (by rfl) reached (fun _ => 0) (letter 0)
    rfl "c"⟩

end Correspondence

end Raphael.Agent.Multi
