import Mathlib.Data.Finset.Insert
import Raphael.Core.Events
import Raphael.Foundation.Dict
import Raphael.Foundation.StepSystem
import Raphael.Persistence.SnapshotTable

/-! # The message bus

Messages between agents: shape, size, scope, age, hops and duplicates are checked before a
message is put into the inbox of its recipient. -/

namespace Raphael.Agent.Multi

open Core
open Foundation
open Persistence

inductive MessageType
  | taskRequest
  | taskAccepted
  | taskProgress
  | taskResult
  | taskFailure
  | informationRequest
  | informationResponse
  | handoff
  | verificationRequest
  | verificationResult
  | cancelRequest
  deriving DecidableEq, Repr

def MessageType.value : MessageType → String
  | .taskRequest => "TASK_REQUEST"
  | .taskAccepted => "TASK_ACCEPTED"
  | .taskProgress => "TASK_PROGRESS"
  | .taskResult => "TASK_RESULT"
  | .taskFailure => "TASK_FAILURE"
  | .informationRequest => "INFORMATION_REQUEST"
  | .informationResponse => "INFORMATION_RESPONSE"
  | .handoff => "HANDOFF"
  | .verificationRequest => "VERIFICATION_REQUEST"
  | .verificationResult => "VERIFICATION_RESULT"
  | .cancelRequest => "CANCEL_REQUEST"

/-- Times are microseconds of UTC. -/
structure AgentMessage where
  id : String
  createdAt : Int
  updatedAt : Int
  sender : String := ""
  recipient : String := ""
  taskId : String := ""
  messageType : MessageType := .informationResponse
  payload : List (String × Json) := []
  priority : Int := 0
  correlationId : String := ""
  ttlHops : Int := 8
  hops : Int := 0
  expiresAt : Option Int := none

instance : Entity AgentMessage where
  id := AgentMessage.id
  updatedAt := AgentMessage.updatedAt
  touch now message := { message with updatedAt := now }
  id_touch _ _ := rfl

namespace AgentMessage

/-- What the bus tells duplicates by. -/
def pair (message : AgentMessage) : String × String := (message.id, message.recipient)

/-- `_expired`, at a reading of the clock. -/
def expired (message : AgentMessage) (now : Int) : Bool :=
  match message.expiresAt with
  | none => false
  | some expiresAt => decide (expiresAt < now)

/-- What the relays of a message to a recipient are counted under. -/
def route (message : AgentMessage) (recipient : String) : String × String × String :=
  (if message.correlationId = "" then message.id else message.correlationId,
    message.sender, recipient)

/-- The copy of a message that is relayed. -/
def relayed (message : AgentMessage) (recipient : String) : AgentMessage :=
  { message with
    recipient := recipient
    hops := message.hops + 1
    ttlHops := message.ttlHops - 1 }

end AgentMessage

/-- What the bus is built on: the size of a message in JSON, and the repository, whose
`create` leaves the message as it has changed it and may fail. -/
structure BusExternals (Store : Type u) where
  size : AgentMessage → Except Error Nat
  create : Int → AgentMessage → Store → AgentMessage × Except Error Store

/-- The repository is the table of the messages. -/
def BusExternals.sqlite (size : AgentMessage → Except Error Nat) :
    BusExternals (SnapshotTable AgentMessage) where
  size := size
  create now message table :=
    (Entity.touch now message, (table.create now message).map Prod.fst)

/-- `events` are those published on the event bus, if there is one. An inbox that was never
asked for is empty. -/
structure MessageBus (Store : Type u) where
  events : Option (List Event) := none
  repository : Option Store := none
  maxPayload : Int := 64000
  maxInbox : Int := 100
  maxHops : Int := 8
  inboxes : String → List AgentMessage := fun _ => []
  registered : Finset String := ∅
  seenPairs : Finset (String × String) := ∅
  forwarded : Dict (String × String × String) Nat := .empty

namespace MessageBus

variable {Store : Type u}

/-- `_emit`. -/
def emit (bus : MessageBus Store) (eventType : EventType) (taskId : String)
    (payload : List (String × Json)) : MessageBus Store :=
  { bus with
    events := bus.events.map fun events =>
      events ++ [{ eventType := eventType, taskId := taskId, payload := payload }] }

/-- `_reject`. -/
def reject (bus : MessageBus Store) (message : AgentMessage) (reason : String) :
    MessageBus Store :=
  bus.emit .agentMessageRejected message.taskId
    [("message_id", .str message.id), ("reason", .str reason)]

def register (bus : MessageBus Store) (agentId : String) : MessageBus Store :=
  { bus with registered := insert agentId bus.registered }

def setInbox (bus : MessageBus Store) (agentId : String) (inbox : List AgentMessage) :
    MessageBus Store :=
  { bus with inboxes := Function.update bus.inboxes agentId inbox }

/-- The first check of `_validate` that a message fails: the reason of its rejection and the
text of the error. Taking the size may itself raise. -/
def fault (externals : BusExternals Store) (now : Int) (message : AgentMessage)
    (bus : MessageBus Store) : Except Error (Option (String × String)) := do
  if message.sender = "" ∨ message.sender ∉ bus.registered then
    let text := "unknown sender " ++ Text.repr message.sender
    return some (text, text)
  if message.recipient = "" ∨ message.recipient ∉ bus.registered then
    let text := "unknown recipient " ++ Text.repr message.recipient
    return some (text, text)
  if message.taskId = "" then
    return some ("missing task scope", "message has no task scope")
  let size ← externals.size message
  if bus.maxPayload < size then
    return some ("payload " ++ toString size ++ " bytes exceeds limit",
      "message exceeds size limit")
  if message.ttlHops < 1 then
    return some ("ttl exhausted", "message ttl exhausted")
  if message.expired now then
    return some ("message expired", "message expired")
  return none

/-- `_validate`. -/
def validate (externals : BusExternals Store) (now : Int) (message : AgentMessage)
    (bus : MessageBus Store) : Except Error Unit × MessageBus Store :=
  match bus.fault externals now message with
  | .error error => (.error error, bus)
  | .ok (some (reason, text)) => (.error (.domainValidation text), bus.reject message reason)
  | .ok none => (.ok (), bus)

/-- `create` of the repository, where there is one. -/
def persist (externals : BusExternals Store) (now : Int) (message : AgentMessage)
    (bus : MessageBus Store) : AgentMessage × Except Error (Option Store) :=
  match bus.repository with
  | none => (message, .ok none)
  | some store =>
      let (message, written) := externals.create now message store
      (message, written.map some)

/-- The pair of a message is seen, and what the repository made of it is in the inbox. -/
def enqueue (message held : AgentMessage) (bus : MessageBus Store) : MessageBus Store :=
  { bus with seenPairs := insert message.pair bus.seenPairs }.setInbox message.recipient
    (bus.inboxes message.recipient ++ [held])

/-- `clock` gives the readings of the clock during the call. The message is in the inbox
before the repository is asked, which then touches the very message that is there. -/
def send (externals : BusExternals Store) (clock : Nat → Int) (message : AgentMessage)
    (bus : MessageBus Store) : Except Error AgentMessage × MessageBus Store :=
  match bus.validate externals (clock 0) message with
  | (.error error, bus) => (.error error, bus)
  | (.ok (), bus) =>
      if message.pair ∈ bus.seenPairs then
        (.error (.domainValidation ("duplicate message " ++ Text.repr message.id ++ " to " ++
          Text.repr message.recipient)), bus)
      else if bus.maxInbox ≤ (bus.inboxes message.recipient).length then
        (.error (.domainValidation ("inbox for " ++ Text.repr message.recipient ++
          " is full (" ++ toString bus.maxInbox ++ ")")), bus)
      else
        let (held, written) := bus.persist externals (clock 1) message
        let bus := bus.enqueue message held
        match written with
        | .error error => (.error error, bus)
        | .ok repository =>
            (.ok held, { bus with repository := repository }.emit .agentMessageSent
              message.taskId
              [("message_id", .str message.id), ("sender", .str message.sender),
                ("recipient", .str message.recipient),
                ("type", .str message.messageType.value)])

/-- The rest of `receive` for a registered agent with this inbox: what has expired by the
next reading of the clock is dropped. -/
def receiveFrom (agentId : String) :
    List AgentMessage → (Nat → Int) → MessageBus Store →
      Option AgentMessage × MessageBus Store
  | [], _, bus => (none, bus)
  | message :: rest, clock, bus =>
      let bus := bus.setInbox agentId rest
      if message.expired (clock 0) then
        receiveFrom agentId rest (fun reading => clock (reading + 1))
          (bus.reject message "expired on receive")
      else
        (some message, bus.emit .agentMessageReceived message.taskId
          [("message_id", .str message.id), ("recipient", .str agentId)])

def receive (clock : Nat → Int) (agentId : String) (bus : MessageBus Store) :
    Except Error (Option AgentMessage) × MessageBus Store :=
  if agentId ∈ bus.registered then
    let (message, bus) := receiveFrom agentId (bus.inboxes agentId) clock bus
    (.ok message, bus)
  else (.error (.domainValidation ("unknown agent " ++ Text.repr agentId)), bus)

/-- How often messages of this route were relayed, one more included. -/
def relayCount (message : AgentMessage) (recipient : String) (bus : MessageBus Store) : Nat :=
  (bus.forwarded.get (message.route recipient)).getD 0 + 1

/-- The relay is counted. -/
def counted (message : AgentMessage) (recipient : String) (bus : MessageBus Store) :
    MessageBus Store :=
  { bus with
    forwarded := bus.forwarded.set (message.route recipient)
      (bus.relayCount message recipient) }

/-- The relay is counted before it is known whether it is one too many. -/
def forward (externals : BusExternals Store) (clock : Nat → Int) (message : AgentMessage)
    (recipient : String) (bus : MessageBus Store) :
    Except Error AgentMessage × MessageBus Store :=
  if bus.maxHops < message.hops + 1 then
    (.error (.domainValidation ("message " ++ Text.repr message.id ++ " exceeded " ++
      toString bus.maxHops ++ " hops")), bus)
  else if message.ttlHops ≤ 1 then
    (.error (.domainValidation ("message " ++ Text.repr message.id ++ " ttl exhausted")), bus)
  else
    let count := bus.relayCount message recipient
    let bus := bus.counted message recipient
    if bus.maxHops < (count : Int) then
      (.error (.domainValidation ("forwarding loop detected for " ++
        Text.repr message.correlationId)), bus)
    else bus.send externals clock (message.relayed recipient)

/-! ## What the calls leave -/

/-- What decides where messages are and which of them are taken. -/
def routing (bus : MessageBus Store) :
    (String → List AgentMessage) × Finset (String × String) ×
      Dict (String × String × String) Nat :=
  (bus.inboxes, bus.seenPairs, bus.forwarded)

/-- The message passes every check of `send` that is made before the repository is asked. -/
structure Admits (externals : BusExternals Store) (now : Int) (message : AgentMessage)
    (bus : MessageBus Store) : Prop where
  valid : bus.fault externals now message = .ok none
  fresh : message.pair ∉ bus.seenPairs
  room : ((bus.inboxes message.recipient).length : Int) < bus.maxInbox

variable {externals : BusExternals Store} {clock : Nat → Int} {message : AgentMessage}
  {bus : MessageBus Store}

/-- The bus is told of a rejection, and is otherwise as before. -/
theorem validate_snd (bus : MessageBus Store) (externals : BusExternals Store)
    (message : AgentMessage) (now : Int) : ∃ events,
    (bus.validate externals now message).2 = { bus with events := events } := by
  simp only [validate]
  cases bus.fault externals now message with
  | error error => exact ⟨_, rfl⟩
  | ok found =>
      cases found with
      | none => exact ⟨_, rfl⟩
      | some texts => exact ⟨_, rfl⟩

theorem validate_fst_ok {now : Int} : (bus.validate externals now message).1 = .ok () ↔
    bus.fault externals now message = .ok none := by
  simp only [validate]
  cases bus.fault externals now message with
  | error error => simp
  | ok found => cases found <;> simp

/-- A message that is not admitted is refused, and the bus is told of it at most. -/
theorem send_of_not_admits (refused : ¬ bus.Admits externals (clock 0) message) :
    ∃ error events, bus.send externals clock message =
      (.error error, { bus with events := events }) := by
  rcases validate_snd bus externals message (clock 0) with ⟨events, told⟩
  simp only [send]
  cases checked : bus.validate externals (clock 0) message with
  | mk answer after =>
      rw [checked] at told
      subst told
      cases answer with
      | error error => exact ⟨error, events, rfl⟩
      | ok nothing =>
          have valid : bus.fault externals (clock 0) message = .ok none :=
            validate_fst_ok.mp (congrArg Prod.fst checked)
          by_cases seen : message.pair ∈ bus.seenPairs
          · exact ⟨_, events, if_pos seen⟩
          · have full : bus.maxInbox ≤ (bus.inboxes message.recipient).length :=
              not_lt.mp fun room => refused ⟨valid, seen, room⟩
            exact ⟨_, events, (if_neg seen).trans (if_pos full)⟩

/-- An admitted message is in the inbox of its recipient, also where the repository fails. -/
theorem send_of_admits (admitted : bus.Admits externals (clock 0) message) :
    (∀ error, (bus.persist externals (clock 1) message).2 = .error error →
      bus.send externals clock message =
        (.error error, bus.enqueue message (bus.persist externals (clock 1) message).1)) ∧
      ∀ repository, (bus.persist externals (clock 1) message).2 = .ok repository →
        ∃ events, bus.send externals clock message =
          (.ok (bus.persist externals (clock 1) message).1,
            { bus.enqueue message (bus.persist externals (clock 1) message).1 with
              repository := repository
              events := events }) := by
  have passes : bus.validate externals (clock 0) message = (.ok (), bus) := by
    simp only [validate, admitted.valid]
  have room : ¬ bus.maxInbox ≤ ((bus.inboxes message.recipient).length : Int) :=
    not_le.mpr admitted.room
  constructor
  · intro error written
    simp only [send, passes, if_neg admitted.fresh, if_neg room, written]
  · intro repository written
    simp only [send, passes, if_neg admitted.fresh, if_neg room, written]
    exact ⟨_, rfl⟩

/-- Without a repository, a message is refused or enqueued as it is. -/
theorem send_unstored (externals : BusExternals Store) (clock : Nat → Int)
    (message : AgentMessage) (unstored : bus.repository = none) :
    (∃ error events, bus.send externals clock message =
        (.error error, { bus with events := events })) ∨
      bus.Admits externals (clock 0) message ∧ ∃ events,
        bus.send externals clock message =
          (.ok message, { bus.enqueue message message with events := events }) := by
  by_cases admitted : bus.Admits externals (clock 0) message
  · have written : bus.persist externals (clock 1) message = (message, .ok none) := by
      simp only [persist, unstored]
    rcases (send_of_admits admitted).2 none (by rw [written]) with ⟨events, sent⟩
    refine .inr ⟨admitted, events, ?_⟩
    rw [sent, written]
    simp only [enqueue, setInbox, unstored]
  · exact .inl (send_of_not_admits admitted)

/-- What the message is still allowed: a hop, and a hop of its time to live. -/
structure Relayable (message : AgentMessage) (bus : MessageBus Store) : Prop where
  hops : message.hops + 1 ≤ bus.maxHops
  ttl : 1 < message.ttlHops

theorem forward_of_not_relayable (externals : BusExternals Store) (clock : Nat → Int)
    (recipient : String) (refused : ¬ bus.Relayable message) :
    ∃ error, bus.forward externals clock message recipient = (.error error, bus) := by
  simp only [forward]
  by_cases spent : bus.maxHops < message.hops + 1
  · exact ⟨_, if_pos spent⟩
  · have exhausted : message.ttlHops ≤ 1 :=
      not_lt.mp fun ttl => refused ⟨not_lt.mp spent, ttl⟩
    exact ⟨_, (if_neg spent).trans (if_pos exhausted)⟩

/-- A relayable message is counted, and then sent if the count is within the bound. -/
theorem forward_of_relayable (externals : BusExternals Store) (clock : Nat → Int)
    (recipient : String) (relayable : bus.Relayable message) :
    (bus.maxHops < (bus.relayCount message recipient : Int) ∧
        ∃ error, bus.forward externals clock message recipient =
          (.error error, bus.counted message recipient)) ∨
      (bus.relayCount message recipient : Int) ≤ bus.maxHops ∧
        bus.forward externals clock message recipient =
          (bus.counted message recipient).send externals clock
            (message.relayed recipient) := by
  have spent : ¬ bus.maxHops < message.hops + 1 := not_lt.mpr relayable.hops
  have exhausted : ¬ message.ttlHops ≤ 1 := not_le.mpr relayable.ttl
  simp only [forward, if_neg spent, if_neg exhausted]
  by_cases loops : bus.maxHops < (bus.relayCount message recipient : Int)
  · exact .inl ⟨loops, _, if_pos loops⟩
  · exact .inr ⟨not_lt.mp loops, if_neg loops⟩

end MessageBus

end Raphael.Agent.Multi
