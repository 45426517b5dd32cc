import Mathlib.Algebra.Order.Ring.Int
import Raphael.Core.Json
import Raphael.Foundation.ReplayMemory
import Raphael.Interface.Gateway

/-! # Hardware packets

The verification of a signed packet: its shape, the device's signature, its freshness, and
the memory of the nonces that were accepted. -/

namespace Raphael.Interface

open Core Foundation

def maxPacketBytes : Nat := 4096

def hardwareCommands : List String :=
  ["status", "approve", "deny", "stop", "kill", "model-note", "project-note"]

/-- One wire packet. The timestamp is a float, given by its `repr`. -/
structure DevicePacket where
  protocolVersion : String := "1.0"
  deviceId : String := ""
  command : String := ""
  payload : List (String × Json) := []
  timestamp : String := "0.0"
  nonce : String := ""
  signature : String := ""

def DevicePacket.fields (message : DevicePacket) : List (String × Json) := [
  ("protocol_version", .str message.protocolVersion),
  ("device_id", .str message.deviceId),
  ("command", .str message.command),
  ("payload", .obj message.payload),
  ("timestamp", .float message.timestamp),
  ("nonce", .str message.nonce)]

/-- What the device signs. -/
def DevicePacket.body (message : DevicePacket) : Json := .obj message.fields

/-- The validation of a packet's fields, the signing function, and the value of a float in
microseconds, where it is a number. -/
structure PacketFormat where
  modelValidate : Json → Except String DevicePacket
  hmacSign : String → String → String
  microseconds : String → Option Int

/-- What the verifier reads besides the packet: the gateway, and the clock. -/
structure PacketReading where
  gateway : EcosystemGateway
  now : Int

namespace PacketFormat

variable (format : PacketFormat)

/-- `hmac_check`; signatures are compared as ASCII texts. -/
def hmacCheck (secret canonical signature : String) : Except Error Bool :=
  if signature.toList.all (·.toNat < 128) then
    .ok (format.hmacSign secret canonical == signature)
  else .error (.other "comparing strings with non-ASCII characters is not supported")

/-- `_parse`. -/
def parse (packet : Json) : Except Error DevicePacket :=
  match packet with
  | .obj _ =>
      if maxPacketBytes < packet.defaultText.length then
        .error (.domainValidation "packet exceeds size limit")
      else
        match format.modelValidate packet with
        | .error reason => .error (.domainValidation ("malformed packet: " ++ reason))
        | .ok message =>
            if Text.splitFirst '.' message.protocolVersion ≠ "1" then
              .error (.domainValidation ("protocol version " ++
                Text.repr message.protocolVersion ++ " unsupported"))
            else if !hardwareCommands.contains message.command then
              .error (.domainValidation ("unknown command " ++ Text.repr message.command))
            else .ok message
  | _ => .error (.domainValidation "packet must be a mapping")

/-- The timestamp is not within five minutes of the clock. What is no number never is out of
them. -/
def stale (now : Int) (timestamp : String) : Bool :=
  match format.microseconds timestamp with
  | none => false
  | some moment => 300000000 < (now - moment).natAbs

/-- `_authenticate`. -/
def authenticate (reading : PacketReading) (seen : Dict String Int) (message : DevicePacket) :
    Except Error Unit × Dict String Int :=
  match reading.gateway.deviceSecret message.deviceId with
  | none => (.error (.domainValidation "device is not paired"), seen)
  | some secret =>
      match format.hmacCheck secret message.body.canonicalText message.signature with
      | .error error => (.error error, seen)
      | .ok false => (.error (.domainValidation "bad packet signature"), seen)
      | .ok true =>
          if format.stale reading.now message.timestamp then
            (.error (.domainValidation "packet outside freshness window"), seen)
          else if (seen.get message.nonce).isSome then
            (.error (.domainValidation "replayed packet rejected"), seen)
          else (.ok (), remember 10000 seen message.nonce reading.now)

/-- `handle`, up to the command that the packet is mapped to. -/
def accept (packet : Json × PacketReading) (seen : Dict String Int) :
    Except Error DevicePacket × Dict String Int :=
  match format.parse packet.1 with
  | .error error => (.error error, seen)
  | .ok message =>
      match format.authenticate packet.2 seen message with
      | (.error error, seen) => (.error error, seen)
      | (.ok _, seen) => (.ok message, seen)

/-- A packet is handled. -/
def handle (state : Reception DevicePacket String Int) (packet : Json × PacketReading) :
    Reception DevicePacket String Int :=
  match format.accept packet state.memory with
  | (.error _, seen) => { state with memory := seen }
  | (.ok message, seen) => { memory := seen, accepted := state.accepted ++ [message] }

def step : StepFunction (Reception DevicePacket String Int) (Json × PacketReading) :=
  fun state packet => some (format.handle state packet)

/-! ## The verifier as a receiver -/

/-- The device is paired, and the signature is right and fresh. -/
def vouches (reading : PacketReading) (message : DevicePacket) : Bool :=
  match reading.gateway.deviceSecret message.deviceId with
  | none => false
  | some secret =>
      match format.hmacCheck secret message.body.canonicalText message.signature with
      | .ok true => !format.stale reading.now message.timestamp
      | _ => false

/-- A packet is admitted by everything but the memory. -/
def admits (packet : Json) (reading : PacketReading) : Option DevicePacket :=
  match format.parse packet with
  | .error _ => none
  | .ok message => if format.vouches reading message then some message else none

def receiver : Receiver Json PacketReading DevicePacket String Int where
  capacity := 10000
  admits := format.admits
  key := DevicePacket.nonce
  now := PacketReading.now

variable {format : PacketFormat} {reading : PacketReading} {message : DevicePacket}

theorem parse_of_fields {fields : List (String × Json)}
    (short : (Json.obj fields).defaultText.length ≤ maxPacketBytes)
    (read : format.modelValidate (.obj fields) = .ok message)
    (version : Text.splitFirst '.' message.protocolVersion = "1")
    (command : hardwareCommands.contains message.command = true) :
    format.parse (.obj fields) = .ok message := by
  simp only [parse, if_neg (Nat.not_lt.mpr short), read, version, command, ne_eq,
    not_true_eq_false, if_false, Bool.not_true, Bool.false_eq_true]

/-- What vouches for a message. -/
theorem vouches_iff :
    format.vouches reading message = true ↔
      ∃ secret, reading.gateway.deviceSecret message.deviceId = some secret ∧
        format.hmacCheck secret message.body.canonicalText message.signature = .ok true ∧
        format.stale reading.now message.timestamp = false := by
  unfold vouches
  cases reading.gateway.deviceSecret message.deviceId with
  | none => simp
  | some secret =>
      simp only [Option.some.injEq, exists_eq_left']
      split
      · next checked => simp [checked]
      · next unchecked =>
          constructor
          · rintro ⟨⟩
          · exact fun ⟨checked, _⟩ => absurd checked unchecked

/-- A message that is vouched for is remembered, unless its nonce is. -/
theorem authenticate_of_vouches (vouched : format.vouches reading message = true)
    (seen : Dict String Int) :
    format.authenticate reading seen message =
      if (seen.get message.nonce).isSome then
        (.error (.domainValidation "replayed packet rejected"), seen)
      else (.ok (), remember 10000 seen message.nonce reading.now) := by
  rcases vouches_iff.mp vouched with ⟨secret, found, checked, fresh⟩
  simp only [authenticate, found, checked, fresh, Bool.false_eq_true, if_false]

/-- Any other leaves the memory as it is. -/
theorem authenticate_of_not_vouches (unvouched : format.vouches reading message = false)
    (seen : Dict String Int) :
    ∃ error, format.authenticate reading seen message = (.error error, seen) := by
  cases found : reading.gateway.deviceSecret message.deviceId with
  | none => exact ⟨_, by simp only [authenticate, found]; rfl⟩
  | some secret =>
      cases checked :
          format.hmacCheck secret message.body.canonicalText message.signature with
      | error error => exact ⟨error, by simp only [authenticate, found, checked]⟩
      | ok right =>
          cases right with
          | false => exact ⟨_, by simp only [authenticate, found, checked]; rfl⟩
          | true =>
              have stale : format.stale reading.now message.timestamp = true := by
                by_contra fresh
                rw [Bool.not_eq_true] at fresh
                rw [vouches_iff.mpr ⟨secret, found, checked, fresh⟩] at unvouched
                cases unvouched
              exact ⟨_, by simp only [authenticate, found, checked, stale, if_true]; rfl⟩

theorem handle_eq (state : Reception DevicePacket String Int)
    (packet : Json × PacketReading) :
    format.handle state packet = format.receiver.receive state packet := by
  cases parsed : format.parse packet.1 with
  | error error =>
      have refused : format.receiver.accepts state packet = none := by
        simp only [Receiver.accepts, receiver, admits, parsed]
      rw [Receiver.receive_of_refused refused]
      simp only [handle, accept, parsed]
  | ok message =>
      cases vouched : format.vouches packet.2 message with
      | false =>
          rcases authenticate_of_not_vouches vouched state.memory with ⟨error, denied⟩
          have refused : format.receiver.accepts state packet = none := by
            simp [Receiver.accepts, receiver, admits, parsed, vouched]
          rw [Receiver.receive_of_refused refused]
          simp only [handle, accept, parsed, denied]
      | true =>
          have authenticated := authenticate_of_vouches vouched state.memory
          cases found : state.memory.get message.nonce with
          | none =>
              have accepted : format.receiver.accepts state packet = some message := by
                simp [Receiver.accepts, receiver, admits, parsed, vouched, found]
              rw [Receiver.receive_of_accepts accepted]
              simp [handle, accept, parsed, authenticated, found, receiver]
          | some moment =>
              have refused : format.receiver.accepts state packet = none := by
                simp [Receiver.accepts, receiver, admits, parsed, vouched, found]
              rw [Receiver.receive_of_refused refused]
              simp [handle, accept, parsed, authenticated, found]

theorem step_eq (format : PacketFormat) : format.step = format.receiver.step := by
  funext state packet
  exact congrArg some (handle_eq state packet)

end PacketFormat

/-- Packets that agree in what is signed have one nonce. -/
theorem DevicePacket.nonce_of_body {left right : DevicePacket} (same : left.body = right.body) :
    left.nonce = right.nonce := by
  simp only [body, fields, Json.obj.injEq, List.cons.injEq, Prod.mk.injEq, Json.str.injEq] at same
  exact same.2.2.2.2.2.1.2

end Raphael.Interface
