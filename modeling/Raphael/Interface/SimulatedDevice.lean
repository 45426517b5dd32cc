import Raphael.Core.JsonRoundTrip
import Raphael.Interface.PacketReplay

/-! # Packets of a device

A device signs what its clock shows; the verifier signs the float that its model makes of the
timestamp. -/

namespace Raphael.Interface

open Core Foundation JsonDecoder

/-- What a device's clock shows. -/
inductive ClockValue
  | int (seconds : Int)
  /-- A float, given by its `repr`. -/
  | float (text : String)

def ClockValue.toJson : ClockValue → Json
  | .int seconds => .int seconds
  | .float text => .float text

/-- The float that is made of the value, where `toFloat` has one for an integer. -/
def ClockValue.asFloat (toFloat : Int → Option String) : ClockValue → Option String
  | .int seconds => toFloat seconds
  | .float text => some text

structure SimulatedDevice where
  deviceId : String
  secret : String
  counter : Nat := 0

/-- The fields of a packet, with its timestamp as it stands. -/
def packetFields (protocolVersion deviceId command : String) (payload : List (String × Json))
    (timestamp : Json) (nonce : String) : List (String × Json) := [
  ("protocol_version", .str protocolVersion),
  ("device_id", .str deviceId),
  ("command", .str command),
  ("payload", .obj payload),
  ("timestamp", timestamp),
  ("nonce", .str nonce)]

namespace SimulatedDevice

variable (format : PacketFormat) (device : SimulatedDevice) (clock : ClockValue)
  (command : String) (payload : Option (List (String × Json)))

/-- The nonce of the next packet. -/
def nextNonce : String := device.deviceId ++ "-" ++ (device.counter + 1).repr

/-- `body`, before it is signed. -/
def body (protocolVersion : String) : List (String × Json) :=
  packetFields protocolVersion device.deviceId command (payload.getD []) clock.toJson
    device.nextNonce

/-- `packet`: the packet, and the device with its counter moved on. -/
def packet (protocolVersion : String := "1.0") :
    List (String × Json) × SimulatedDevice :=
  let body := device.body clock command payload protocolVersion
  let signature := format.hmacSign device.secret (Json.obj body).canonicalText
  (body ++ [("signature", .str signature)], { device with counter := device.counter + 1 })

end SimulatedDevice

/-- The packet arrives as text, is parsed and passes the verification. -/
def PacketFormat.Accepts (format : PacketFormat) (numerals : NumberReader) (reading : PacketReading)
    (seen : Dict String Int) (packet : List (String × Json)) : Prop :=
  ∃ received message, loads numerals (Json.obj packet).defaultText = some received ∧
    format.parse received = .ok message ∧
    (format.authenticate reading seen message).1 = .ok ()

/-- What validation does with the seven fields of a packet, and what a signature looks like. -/
structure PacketFormat.Documented (format : PacketFormat) (toFloat : Int → Option String) :
    Prop where
  validates (protocolVersion deviceId command : String) (payload : List (String × Json))
    (clock : ClockValue) (nonce signature timestamp : String) :
    clock.asFloat toFloat = some timestamp →
    format.modelValidate (.obj (packetFields protocolVersion deviceId command payload
        clock.toJson nonce ++ [("signature", .str signature)])) =
      .ok { protocolVersion, deviceId, command, payload, timestamp, nonce, signature }
  hexadecimal (secret canonical : String) :
    (format.hmacSign secret canonical).toList.all (·.toNat < 128)

/-! ## Verification -/

section

variable {format : PacketFormat} {toFloat : Int → Option String} {device : SimulatedDevice}
  {clock : ClockValue} {command timestamp : String} {payload : Option (List (String × Json))}
  {numerals : NumberReader} {reading : PacketReading} {seen : Dict String Int}

/-- What the verifier makes of the packet. -/
def receivedPacket (format : PacketFormat) (device : SimulatedDevice) (clock : ClockValue)
    (command timestamp : String) (payload : Option (List (String × Json))) : DevicePacket where
  protocolVersion := "1.0"
  deviceId := device.deviceId
  command := command
  payload := payload.getD []
  timestamp := timestamp
  nonce := device.nextNonce
  signature := format.hmacSign device.secret
    (Json.obj (device.body clock command payload "1.0")).canonicalText

theorem written_body (writtenPayload : Written numerals.floatText (.obj (payload.getD [])))
    (writtenClock : Written numerals.floatText clock.toJson) (signature : String) :
    Written numerals.floatText (.obj (device.body clock command payload "1.0")) ∧
      Written numerals.floatText (.obj (device.body clock command payload "1.0" ++
        [("signature", .str signature)])) := by
  simp only [SimulatedDevice.body, packetFields, Written, List.cons_append, List.nil_append,
    WrittenFields, List.map_cons, List.map_nil, true_and, and_true]
  rw [Written] at writtenPayload
  exact ⟨⟨by decide, writtenPayload, writtenClock⟩, by decide, writtenPayload, writtenClock⟩

theorem parse_packet (documented : format.Documented toFloat)
    (allowed : hardwareCommands.contains command)
    (converted : clock.asFloat toFloat = some timestamp)
    (small : (Json.obj (device.packet format clock command payload).1).defaultText.length ≤
      maxPacketBytes) :
    format.parse (.obj (device.packet format clock command payload).1) =
      .ok (receivedPacket format device clock command timestamp payload) := by
  apply PacketFormat.parse_of_fields small
  · exact documented.validates _ _ _ _ clock _ _ timestamp converted
  · show Text.splitFirst '.' "1.0" = "1"
    decide
  · exact allowed

/-- Sorted, a text for an integer timestamp is not one for a float. -/
theorem canonicalText_ne {floatText : String → String} {seconds : Int}
    (writtenPayload : Written floatText (.obj (payload.getD [])))
    (writtenTimestamp : Written floatText (.float timestamp)) :
    (receivedPacket format device (.int seconds) command timestamp payload).body.canonicalText ≠
      (Json.obj (device.body (.int seconds) command payload "1.0")).canonicalText := by
  intro same
  have isSigned := (@written_body device (.int seconds) command payload ⟨floatText, 0⟩
    writtenPayload (by trivial) "").1
  have isChecked := (@written_body device (.float timestamp) command payload ⟨floatText, 0⟩
    writtenPayload writtenTimestamp "").1
  have sorted := canonicalText_inj isChecked isSigned same
  rw [Json.sortKeys, Json.sortKeys, Json.obj.injEq] at sorted
  have member : ("timestamp", Json.float timestamp) ∈
      Json.sortFields (device.body (.float timestamp) command payload "1.0") := by
    simp [SimulatedDevice.body, packetFields, ClockValue.toJson, Json.sortFields, Json.sortKeys]
  rw [← List.mem_insertionSort (fun left right : String × Json => left.1 ≤ right.1), sorted,
    List.mem_insertionSort] at member
  simp [SimulatedDevice.body, packetFields, ClockValue.toJson, Json.sortFields,
    Json.sortKeys] at member

theorem hmacCheck_packet (documented : format.Documented toFloat) (canonical : String) :
    format.hmacCheck device.secret canonical
        (receivedPacket format device clock command timestamp payload).signature =
      .ok (format.hmacSign device.secret canonical ==
        format.hmacSign device.secret
          (Json.obj (device.body clock command payload "1.0")).canonicalText) := by
  rw [PacketFormat.hmacCheck]
  exact if_pos (documented.hexadecimal _ _)

/-- A signature over a float is verified; what remains is whether the nonce is remembered. -/
theorem authenticate_float (documented : format.Documented toFloat)
    (paired : reading.gateway.deviceSecret device.deviceId = some device.secret)
    (fresh : format.stale reading.now timestamp = false) :
    (format.authenticate reading seen
        (receivedPacket format device (.float timestamp) command timestamp payload)).1 = .ok () ↔
      seen.get device.nextNonce = none := by
  have vouched : format.vouches reading
      (receivedPacket format device (.float timestamp) command timestamp payload) = true := by
    refine PacketFormat.vouches_iff.mpr ⟨device.secret, paired, ?_, fresh⟩
    rw [hmacCheck_packet documented]
    exact congrArg Except.ok (beq_self_eq_true _)
  rw [PacketFormat.authenticate_of_vouches vouched]
  cases remembered : seen.get device.nextNonce with
  | none => simp [receivedPacket, remembered]
  | some moment => simp [receivedPacket, remembered]

/-- A signature over an integer is not. -/
theorem authenticate_int (documented : format.Documented toFloat) {seconds : Int}
    (paired : reading.gateway.deviceSecret device.deviceId = some device.secret)
    (differs : format.hmacSign device.secret (receivedPacket format device (.int seconds) command
        timestamp payload).body.canonicalText ≠
      format.hmacSign device.secret
        (Json.obj (device.body (.int seconds) command payload "1.0")).canonicalText) :
    (format.authenticate reading seen
      (receivedPacket format device (.int seconds) command timestamp payload)).1 =
        .error (.domainValidation "bad packet signature") := by
  have found : reading.gateway.deviceSecret (receivedPacket format device (.int seconds) command
      timestamp payload).deviceId = some device.secret := paired
  simp only [PacketFormat.authenticate, found, hmacCheck_packet documented,
    beq_eq_false_iff_ne.mpr differs]

/-- The packet arrives as it was sent, so that only the authentication is left. -/
theorem accepts_iff (documented : format.Documented toFloat)
    (allowed : hardwareCommands.contains command)
    (writtenPayload : Written numerals.floatText (.obj (payload.getD [])))
    (small : (Json.obj (device.packet format clock command payload).1).defaultText.length ≤
      maxPacketBytes)
    (digits : maxPacketBytes ≤ numerals.maxDigits)
    (converted : clock.asFloat toFloat = some timestamp)
    (writtenTimestamp : Written numerals.floatText (.float timestamp)) :
    format.Accepts numerals reading seen (device.packet format clock command payload).1 ↔
      (format.authenticate reading seen
        (receivedPacket format device clock command timestamp payload)).1 = .ok () := by
  have writtenClock : Written numerals.floatText clock.toJson := by
    cases clock with
    | int seconds => trivial
    | float text =>
        cases converted
        exact writtenTimestamp
  have arrives := loads_defaultText
    (@written_body device clock command payload numerals writtenPayload writtenClock
      (format.hmacSign device.secret
        (Json.obj (device.body clock command payload "1.0")).canonicalText)).2
    (small.trans digits)
  have parsed := parse_packet documented allowed converted small
  constructor
  · rintro ⟨received, message, read, isMessage, accepted⟩
    cases arrives.symm.trans read
    cases parsed.symm.trans isMessage
    exact accepted
  · exact fun accepted => ⟨_, _, arrives, parsed, accepted⟩

/-- The next packet of a paired device is accepted if and only if its clock shows a float and
its nonce is not remembered. -/
theorem packet_accepted_iff (documented : format.Documented toFloat)
    (paired : reading.gateway.deviceSecret device.deviceId = some device.secret)
    (allowed : hardwareCommands.contains command)
    (writtenPayload : Written numerals.floatText (.obj (payload.getD [])))
    (small : (Json.obj (device.packet format clock command payload).1).defaultText.length ≤
      maxPacketBytes)
    (digits : maxPacketBytes ≤ numerals.maxDigits)
    (converted : clock.asFloat toFloat = some timestamp)
    (writtenTimestamp : Written numerals.floatText (.float timestamp))
    (fresh : format.stale reading.now timestamp = false)
    (noCollision : format.hmacSign device.secret
        (receivedPacket format device clock command timestamp payload).body.canonicalText =
      format.hmacSign device.secret
        (Json.obj (device.body clock command payload "1.0")).canonicalText →
      (receivedPacket format device clock command timestamp payload).body.canonicalText =
        (Json.obj (device.body clock command payload "1.0")).canonicalText) :
    format.Accepts numerals reading seen (device.packet format clock command payload).1 ↔
      (∃ text, clock = .float text) ∧ seen.get device.nextNonce = none := by
  rw [accepts_iff documented allowed writtenPayload small digits converted writtenTimestamp]
  cases clock with
  | float text =>
      cases converted
      rw [authenticate_float documented paired fresh]
      exact ⟨fun unseen => ⟨⟨timestamp, rfl⟩, unseen⟩, fun both => both.2⟩
  | int seconds =>
      rw [authenticate_int documented paired fun same =>
        canonicalText_ne writtenPayload writtenTimestamp (noCollision same)]
      exact ⟨nofun, fun both => nomatch both.1⟩

end

/-! ## A device whose clock counts whole seconds -/

/-- The integers that a float holds exactly. -/
def wholeFloat (seconds : Int) : Option String :=
  if seconds.natAbs < 9007199254740992 then some (toString seconds ++ ".0") else none

/-- An integer timestamp becomes a float. -/
def floatTimestamp (field : String × Json) : String × Json :=
  match field with
  | ("timestamp", .int seconds) =>
      match wholeFloat seconds with
      | some text => ("timestamp", .float text)
      | none => field
  | _ => field

/-- A validation that converts the timestamp, and signatures of 64 hexadecimal digits. -/
def clockFormat : PacketFormat where
  modelValidate packet :=
    match packet with
    | .obj fields => readPacket (.obj (fields.map floatTimestamp))
    | _ => readPacket packet
  hmacSign _ canonical :=
    Text.hex 64 (canonical.toList.foldl (fun sum character => sum * 257 + character.toNat) 0)
  microseconds text := if text = "1700000000.0" then some 1700000000000000 else none

theorem clockFormat_documented : clockFormat.Documented wholeFloat where
  validates protocolVersion deviceId command payload clock nonce signature timestamp
    converted := by
    cases clock with
    | int seconds =>
        have asFloat : wholeFloat seconds = some timestamp := converted
        have stamped : floatTimestamp ("timestamp", .int seconds) =
            ("timestamp", .float timestamp) := by
          simp only [floatTimestamp, asFloat]
        simp only [clockFormat, packetFields, ClockValue.toJson, List.cons_append,
          List.nil_append, List.map_cons, List.map_nil, stamped]
        rfl
    | float text =>
        cases converted
        rfl
  hexadecimal secret canonical := ascii_hex 64 _

def clockDevice : SimulatedDevice where
  deviceId := "esp32-1"
  secret := "fedcba9876543210"

def clockReading : PacketReading where
  gateway := { secrets := Dict.empty.set "esp32-1" "fedcba9876543210" }
  now := 1700000000000000

theorem written_clock : Written id (.float "1700000000.0") := by
  simp [Written, scanNumber, scanSign, scanWhole, scanFraction, scanExponent,
    List.takeWhile, List.dropWhile]

theorem clockPacket_small (clock : ClockValue) (short : clock.toJson.defaultText.length ≤ 12) :
    (Json.obj (clockDevice.packet clockFormat clock "status" none).1).defaultText.length ≤
      maxPacketBytes := by
  have signature : (clockFormat.hmacSign "fedcba9876543210" (Json.obj (clockDevice.body clock
      "status" none "1.0")).canonicalText).length = 64 := by
    simp [clockFormat, Text.hex]
  have others : "1.0".length = 3 ∧ "esp32-1".length = 7 ∧ "status".length = 6 ∧
      clockDevice.nextNonce.length = 9 ∧ maxPacketBytes = 4096 := by decide
  have bound := length_packet "1.0" "esp32-1" "status" clockDevice.nextNonce
    (clockFormat.hmacSign "fedcba9876543210" (Json.obj (clockDevice.body clock "status" none
      "1.0")).canonicalText) clock.toJson
  refine bound.trans ?_
  omega

/-- The clock shows 1700000000, and the signed packet is refused. -/
theorem packet_refused_int :
    clockReading.gateway.deviceSecret clockDevice.deviceId = some clockDevice.secret ∧
      hardwareCommands.contains "status" ∧
      clockFormat.stale clockReading.now "1700000000.0" = false ∧
      (Json.obj (clockDevice.packet clockFormat (.int 1700000000) "status" none).1
        ).defaultText.length ≤ maxPacketBytes ∧
      ¬ clockFormat.Accepts ⟨id, 4300⟩ clockReading Dict.empty
        (clockDevice.packet clockFormat (.int 1700000000) "status" none).1 := by
  have small := clockPacket_small (.int 1700000000) (by decide)
  refine ⟨by decide, by decide, by decide, small, ?_⟩
  rw [accepts_iff clockFormat_documented (by decide) (by trivial) small (by decide)
    (by decide) written_clock]
  rw [authenticate_int clockFormat_documented (by decide) (by decide +kernel)]
  nofun

/-- The clock shows 1700000000.0, and the packet is accepted. -/
theorem packet_accepted_float :
    clockFormat.Accepts ⟨id, 4300⟩ clockReading Dict.empty
      (clockDevice.packet clockFormat (.float "1700000000.0") "status" none).1 :=
  (@packet_accepted_iff clockFormat wholeFloat clockDevice (.float "1700000000.0") "status"
    "1700000000.0" none ⟨id, 4300⟩ clockReading Dict.empty clockFormat_documented (by decide)
    (by decide) (by trivial) (clockPacket_small _ (by decide)) (by decide) (by decide)
    written_clock (by decide) fun _ => rfl).mpr ⟨⟨_, rfl⟩, rfl⟩

end Raphael.Interface
