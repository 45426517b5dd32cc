import Mathlib.Algebra.Order.Ring.Int
import Raphael.Core.Errors
import Raphael.Core.Json
import Raphael.Foundation.ReplayMemory

/-! # Protocol envelopes

The validation of an envelope: its shape and version, its freshness, the memory of the ids
that were accepted, and its authorization. Times are microseconds. -/

namespace Raphael.Interface

open Core Foundation

def maxEnvelopeBytes : Nat := 262144

def skewTolerance : Nat := 300000000

def seenCacheSize : Nat := 10000

/-- Who sent an envelope. -/
structure AuthRef where
  scheme : String := ""
  keyId : String := ""

structure EcosystemEnvelope where
  id : String
  createdAt : Int
  updatedAt : Int
  protocolVersion : String := "1.0"
  sender : String := ""
  senderType : String := ""
  messageType : String := ""
  payload : List (String × Json) := []
  correlationId : String := ""
  auth : AuthRef := {}

/-- An envelope comes as bytes to decode, or as it is to validate. -/
inductive Delivery
  | decode (raw : List UInt8)
  | validate (envelope : EcosystemEnvelope)

/-- What the validator reads besides the envelope: the clock, and its authorizer. -/
structure ProtocolReading where
  now : Int
  authorize : EcosystemEnvelope → Except Error Bool

/-- The validation of an envelope's fields. -/
structure EnvelopeFormat where
  modelValidateJson : List UInt8 → Except String EcosystemEnvelope

/-- `ProtocolValidator.validate`. -/
def EcosystemEnvelope.validate (envelope : EcosystemEnvelope) (reading : ProtocolReading)
    (seen : Dict String Int) : Except Error EcosystemEnvelope × Dict String Int :=
  if envelope.sender = "" then (.error (.other "envelope has no sender"), seen)
  else if envelope.messageType = "" then
    (.error (.other "envelope has no message type"), seen)
  else if Text.splitFirst '.' envelope.protocolVersion ≠ "1" then
    (.error (.other ("protocol version " ++ Text.repr envelope.protocolVersion ++
      " incompatible")), seen)
  else if skewTolerance < (reading.now - envelope.createdAt).natAbs then
    (.error (.other "envelope outside freshness window"), seen)
  else if (seen.get envelope.id).isSome then
    (.error (.other "replayed envelope rejected"), seen)
  else if envelope.auth.scheme = "" ∨ envelope.auth.keyId = "" then
    (.error (.other "envelope carries no authorization context"), seen)
  else
    match reading.authorize envelope with
    | .error error => (.error error, seen)
    | .ok false => (.error (.other "sender not authorized for this message"), seen)
    | .ok true => (.ok envelope, remember seenCacheSize seen envelope.id reading.now)

namespace EnvelopeFormat

variable (format : EnvelopeFormat)

/-- What `ProtocolValidator.decode` makes of the bytes before it validates. -/
def parse (raw : List UInt8) : Except Error EcosystemEnvelope :=
  if maxEnvelopeBytes < raw.length then .error (.other "envelope exceeds size limit")
  else
    match format.modelValidateJson raw with
    | .error reason => .error (.other ("malformed envelope: " ++ reason))
    | .ok envelope => .ok envelope

/-- `decode` or `validate`. -/
def accept (delivery : Delivery × ProtocolReading) (seen : Dict String Int) :
    Except Error EcosystemEnvelope × Dict String Int :=
  match delivery.1 with
  | .validate envelope => envelope.validate delivery.2 seen
  | .decode raw =>
      match format.parse raw with
      | .error error => (.error error, seen)
      | .ok envelope => envelope.validate delivery.2 seen

/-- An envelope is delivered. -/
def deliver (state : Reception EcosystemEnvelope String Int)
    (delivery : Delivery × ProtocolReading) : Reception EcosystemEnvelope String Int :=
  match format.accept delivery state.memory with
  | (.error _, seen) => { state with memory := seen }
  | (.ok envelope, seen) => { memory := seen, accepted := state.accepted ++ [envelope] }

def step : StepFunction (Reception EcosystemEnvelope String Int)
    (Delivery × ProtocolReading) :=
  fun state delivery => some (format.deliver state delivery)

end EnvelopeFormat

/-! ## The validator as a receiver -/

/-- An envelope has no fault but that its id may be known. -/
structure EcosystemEnvelope.Faultless (envelope : EcosystemEnvelope)
    (reading : ProtocolReading) : Prop where
  sender : envelope.sender ≠ ""
  messageType : envelope.messageType ≠ ""
  version : Text.splitFirst '.' envelope.protocolVersion = "1"
  fresh : (reading.now - envelope.createdAt).natAbs ≤ skewTolerance
  scheme : envelope.auth.scheme ≠ ""
  keyId : envelope.auth.keyId ≠ ""
  authorized : (reading.authorize envelope).toOption = some true

namespace EcosystemEnvelope

variable {envelope : EcosystemEnvelope} {reading : ProtocolReading}

theorem faultless_iff :
    envelope.Faultless reading ↔
      (envelope.sender ≠ "" ∧ envelope.messageType ≠ "" ∧
        Text.splitFirst '.' envelope.protocolVersion = "1" ∧
        (reading.now - envelope.createdAt).natAbs ≤ skewTolerance ∧
        envelope.auth.scheme ≠ "" ∧ envelope.auth.keyId ≠ "" ∧
        (reading.authorize envelope).toOption = some true) :=
  ⟨fun faultless => ⟨faultless.sender, faultless.messageType, faultless.version,
      faultless.fresh, faultless.scheme, faultless.keyId, faultless.authorized⟩,
    fun ⟨sender, messageType, version, fresh, scheme, keyId, authorized⟩ =>
      ⟨sender, messageType, version, fresh, scheme, keyId, authorized⟩⟩

instance : Decidable (envelope.Faultless reading) := decidable_of_iff _ faultless_iff.symm

/-- A faultless envelope is accepted, unless its id is known. -/
theorem validate_of_faultless (faultless : envelope.Faultless reading)
    (seen : Dict String Int) :
    envelope.validate reading seen =
      if (seen.get envelope.id).isSome then (.error (.other "replayed envelope rejected"), seen)
      else (.ok envelope, remember seenCacheSize seen envelope.id reading.now) := by
  have authorized : reading.authorize envelope = .ok true := by
    have answer := faultless.authorized
    cases asked : reading.authorize envelope with
    | error error => simp [asked, Except.toOption] at answer
    | ok right => simpa [asked, Except.toOption] using answer
  unfold validate
  rw [if_neg faultless.sender, if_neg faultless.messageType,
    if_neg (not_not.mpr faultless.version), if_neg (Nat.not_lt.mpr faultless.fresh),
    if_neg (not_or.mpr ⟨faultless.scheme, faultless.keyId⟩), authorized]

/-- Any other leaves the memory as it is. -/
theorem validate_of_not_faultless (faulty : ¬ envelope.Faultless reading)
    (seen : Dict String Int) :
    ∃ error, envelope.validate reading seen = (.error error, seen) := by
  unfold validate
  split_ifs with sender messageType version stale known reference
  · exact ⟨_, rfl⟩
  · exact ⟨_, rfl⟩
  · exact ⟨_, rfl⟩
  · exact ⟨_, rfl⟩
  · exact ⟨_, rfl⟩
  · exact ⟨_, rfl⟩
  · rw [not_or] at reference
    split
    · exact ⟨_, rfl⟩
    · exact ⟨_, rfl⟩
    · next authorized =>
        refine absurd ?_ faulty
        exact ⟨sender, messageType, not_not.mp version, Nat.not_lt.mp stale, reference.1,
          reference.2, by rw [authorized]; rfl⟩

end EcosystemEnvelope

namespace EnvelopeFormat

variable {format : EnvelopeFormat}

/-- The envelope that a delivery carries, if it can be read. -/
def carried (format : EnvelopeFormat) : Delivery → Option EcosystemEnvelope
  | .validate envelope => some envelope
  | .decode raw => (format.parse raw).toOption

/-- A delivery is admitted by everything but the memory. -/
def admits (format : EnvelopeFormat) (delivery : Delivery) (reading : ProtocolReading) :
    Option EcosystemEnvelope :=
  match format.carried delivery with
  | none => none
  | some envelope => if envelope.Faultless reading then some envelope else none

def receiver (format : EnvelopeFormat) :
    Receiver Delivery ProtocolReading EcosystemEnvelope String Int where
  capacity := seenCacheSize
  admits := format.admits
  key := EcosystemEnvelope.id
  now := ProtocolReading.now

/-- What is accepted is what is carried, validated. -/
theorem accept_eq (format : EnvelopeFormat) (delivery : Delivery × ProtocolReading)
    (seen : Dict String Int) :
    (∃ envelope, format.carried delivery.1 = some envelope ∧
      format.accept delivery seen = envelope.validate delivery.2 seen) ∨
    (format.carried delivery.1 = none ∧
      ∃ error, format.accept delivery seen = (.error error, seen)) := by
  rcases delivery with ⟨raw | envelope, reading⟩
  · cases parsed : format.parse raw with
    | error error => exact .inr ⟨by simp [carried, parsed, Except.toOption],
        error, by simp [accept, parsed]⟩
    | ok envelope => exact .inl ⟨envelope, by simp [carried, parsed, Except.toOption],
        by simp [accept, parsed]⟩
  · exact .inl ⟨envelope, rfl, rfl⟩

theorem deliver_eq (state : Reception EcosystemEnvelope String Int)
    (delivery : Delivery × ProtocolReading) :
    format.deliver state delivery = format.receiver.receive state delivery := by
  rcases accept_eq format delivery state.memory with
    ⟨envelope, carried, validated⟩ | ⟨uncarried, error, failed⟩
  · by_cases faultless : envelope.Faultless delivery.2
    · have answer := EcosystemEnvelope.validate_of_faultless faultless state.memory
      cases found : state.memory.get envelope.id with
      | none =>
          have accepted : format.receiver.accepts state delivery = some envelope := by
            simp [Receiver.accepts, receiver, admits, carried, faultless, found]
          rw [Receiver.receive_of_accepts accepted]
          simp [deliver, validated, answer, found, receiver]
      | some moment =>
          have refused : format.receiver.accepts state delivery = none := by
            simp [Receiver.accepts, receiver, admits, carried, faultless, found]
          rw [Receiver.receive_of_refused refused]
          simp [deliver, validated, answer, found]
    · rcases EcosystemEnvelope.validate_of_not_faultless faultless state.memory with
        ⟨error, denied⟩
      have refused : format.receiver.accepts state delivery = none := by
        simp [Receiver.accepts, receiver, admits, carried, faultless]
      rw [Receiver.receive_of_refused refused]
      simp only [deliver, validated, denied]
  · have refused : format.receiver.accepts state delivery = none := by
      simp [Receiver.accepts, receiver, admits, uncarried]
    rw [Receiver.receive_of_refused refused]
    simp only [deliver, failed]

theorem step_eq (format : EnvelopeFormat) : format.step = format.receiver.step := by
  funext state delivery
  exact congrArg some (deliver_eq state delivery)

end EnvelopeFormat

end Raphael.Interface
