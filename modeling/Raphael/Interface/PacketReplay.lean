import Raphael.Interface.Hardware
import Raphael.Interface.Protocol

/-! # Replays of packets and envelopes

The nonces and ids that were accepted are remembered up to a number of them, and however
fresh the oldest is, it goes. Nothing is accepted twice while none has to go, and from then
on something can be. -/

namespace Raphael.Interface

open Core Foundation

/-- No signed packet was accepted twice. -/
def NoPacketReplay (state : Reception DevicePacket String Int) : Prop :=
  (state.accepted.map DevicePacket.body).Nodup

/-- No envelope id was accepted twice. -/
def NoEnvelopeReplay (state : Reception EcosystemEnvelope String Int) : Prop :=
  (state.accepted.map EcosystemEnvelope.id).Nodup

/-- Whatever comes next, no packet is accepted twice exactly if each one that was accepted
found room in the memory; and the same of the envelopes. -/
theorem acceptedOnce_iff (format : PacketFormat) (envelopes : EnvelopeFormat)
    (packets : List (Json × PacketReading)) (deliveries : List (Delivery × ProtocolReading)) :
    ((∀ packet final, StepFunction.run format.step {} (packets ++ [packet]) = some final →
        NoPacketReplay final) ↔
      StepFunction.Meets format.step format.receiver.HasRoom {} packets) ∧
    ((∀ delivery final,
        StepFunction.run envelopes.step {} (deliveries ++ [delivery]) = some final →
          NoEnvelopeReplay final) ↔
      StepFunction.Meets envelopes.step envelopes.receiver.HasRoom {} deliveries) := by
  rw [format.step_eq, envelopes.step_eq]
  constructor
  · have keyed : ∀ left right : DevicePacket, left.body = right.body →
        left.nonce = right.nonce := fun _ _ same => DevicePacket.nonce_of_body same
    exact format.receiver.once_iff_room keyed packets
  · exact envelopes.receiver.once_iff_room (fun _ _ same => same) deliveries

/-! ## Floods -/

private theorem length_escapeCharacter (character : Char) :
    (Json.escapeCharacter character).length ≤ 12 := by
  have prefixed : "\\u".length = 2 := rfl
  have unicode : ∀ unit, (Json.unicodeEscape unit).length = 6 := by
    intro unit
    simp [Json.unicodeEscape, Text.hex, prefixed]
  have either {condition : Prop} [Decidable condition] {left right : String}
      (short : left.length ≤ 12) (other : right.length ≤ 12) :
      (if condition then left else right).length ≤ 12 := by
    split
    · exact short
    · exact other
  unfold Json.escapeCharacter
  dsimp only
  iterate 7 refine either (by decide) ?_
  refine either ?_ (either ?_ ?_)
  · simp
  · rw [unicode]
    decide
  · rw [String.length_append, unicode, unicode]

private theorem length_quote (text : String) : (Json.quote text).length ≤ 12 * text.length + 2 := by
  have marks : "\"".length = 1 := rfl
  have escaped : ∀ characters : List Char,
      ((characters.map Json.escapeCharacter).map String.length).sum ≤
        12 * characters.length := by
    intro characters
    induction characters with
    | nil => exact Nat.zero_le _
    | cons character rest induction =>
        have first := length_escapeCharacter character
        simp only [List.map_cons, List.sum_cons, List.length_cons]
        omega
  have whole := escaped text.toList
  rw [String.length_toList] at whole
  simp only [Json.quote, String.length_append, String.length_join, marks]
  omega

/-- The packet as a device sends it. -/
def DevicePacket.wire (message : DevicePacket) : Json :=
  .obj (message.fields ++ [("signature", .str message.signature)])

/-- The text under a key, as it stands. -/
def textField (fields : List (String × Json)) (key default : String) : Except String String :=
  match Json.lookup key fields with
  | none => .ok default
  | some (.str text) => .ok text
  | some _ => .error ("Input should be a valid string: " ++ key)

/-- The fields of a packet as they stand. -/
def readPacket : Json → Except String DevicePacket
  | .obj fields => do
      let protocolVersion ← textField fields "protocol_version" "1.0"
      let deviceId ← textField fields "device_id" ""
      let command ← textField fields "command" ""
      let payload ← match Json.lookup "payload" fields with
        | none => .ok []
        | some (.obj members) => .ok members
        | some _ => .error "Input should be a valid dictionary: payload"
      let timestamp ← match Json.lookup "timestamp" fields with
        | none => .ok "0.0"
        | some (.float text) => .ok text
        | some _ => .error "Input should be a valid number: timestamp"
      let nonce ← textField fields "nonce" ""
      let signature ← textField fields "signature" ""
      .ok { protocolVersion, deviceId, command, payload, timestamp, nonce, signature }
  | _ => .error "Input should be a valid dictionary"

private theorem readPacket_wire (message : DevicePacket) :
    readPacket message.wire = .ok message := by
  rfl

/-- A signing function with 64 hexadecimal digits. -/
def HexDigest (sign : String → String → String) : Prop :=
  ∀ secret canonical, ∃ number, sign secret canonical = Text.hex 64 number

def deviceFormat (sign : String → String → String) : PacketFormat where
  modelValidate := readPacket
  hmacSign := sign
  microseconds text := if text = "1000.0" then some 1000000000 else none

/-- The packet that a device signs under its counter. -/
def floodPacket (sign : String → String → String) (index : Nat) : DevicePacket :=
  let message : DevicePacket := {
    deviceId := "esp32-1"
    command := "status"
    timestamp := "1000.0"
    nonce := "esp32-1-" ++ index.repr }
  { message with signature := sign "fedcba9876543210" message.body.canonicalText }

def floodReading : PacketReading where
  gateway := { secrets := Dict.empty.set "esp32-1" "fedcba9876543210" }
  now := 1000000000

/-- How long a packet without payload is at most. -/
theorem length_packet (protocolVersion deviceId command nonce signature : String)
    (timestamp : Json) :
    (Json.obj [("protocol_version", .str protocolVersion), ("device_id", .str deviceId),
      ("command", .str command), ("payload", .obj []), ("timestamp", timestamp),
      ("nonce", .str nonce), ("signature", .str signature)]).defaultText.length ≤
      148 + timestamp.defaultText.length + 12 * (protocolVersion.length + deviceId.length +
        command.length + nonce.length + signature.length) := by
  have marks : "\x7b".length = 1 ∧ "\x7d".length = 1 ∧ ", ".length = 2 ∧ ": ".length = 2 ∧
      "".length = 0 := by decide
  have keys : (Json.quote "protocol_version").length = 18 ∧
      (Json.quote "device_id").length = 11 ∧ (Json.quote "command").length = 9 ∧
      (Json.quote "payload").length = 9 ∧ (Json.quote "timestamp").length = 11 ∧
      (Json.quote "nonce").length = 7 ∧ (Json.quote "signature").length = 11 := by decide
  have protocolVersion := length_quote protocolVersion
  have deviceId := length_quote deviceId
  have command := length_quote command
  have nonce := length_quote nonce
  have signature := length_quote signature
  simp only [Json.defaultText, Json.dumps, Json.dumpFields, Text.join, String.intercalate_nil,
    String.intercalate_cons_cons, String.intercalate_singleton, String.length_append]
  omega

private theorem length_wire (message : DevicePacket) (empty : message.payload = []) :
    message.wire.defaultText.length ≤ 148 + message.timestamp.length +
      12 * (message.protocolVersion.length + message.deviceId.length +
        message.command.length + message.nonce.length + message.signature.length) := by
  have bound := length_packet message.protocolVersion message.deviceId message.command
    message.nonce message.signature (.float message.timestamp)
  have float : (Json.float message.timestamp).defaultText = message.timestamp := by
    rw [Json.defaultText, Json.dumps]
  rw [float] at bound
  rw [DevicePacket.wire, DevicePacket.fields, empty]
  exact bound

section Flood

variable {sign : String → String → String}

private theorem parse_flood (digest : HexDigest sign) {index : Nat} (bound : index ≤ 10000) :
    (deviceFormat sign).parse (floodPacket sign index).wire = .ok (floodPacket sign index) := by
  have short : (floodPacket sign index).wire.defaultText.length ≤ maxPacketBytes := by
    have digits : index.repr.length ≤ 5 := (Nat.length_repr_le_iff (by omega)).mpr (by omega)
    have nonce : (floodPacket sign index).nonce.length = "esp32-1-".length + index.repr.length :=
      String.length_append _ _
    have signature : (floodPacket sign index).signature.length = 64 := by
      rcases digest "fedcba9876543210" (floodPacket sign index).body.canonicalText with
        ⟨number, same⟩
      rw [show (floodPacket sign index).signature = _ from same]
      simp [Text.hex]
    have others : "1000.0".length = 6 ∧ "1.0".length = 3 ∧ "esp32-1".length = 7 ∧
        "status".length = 6 ∧ "esp32-1-".length = 8 := by decide
    have length : _ ≤ 148 + "1000.0".length + 12 * ("1.0".length + "esp32-1".length +
      "status".length + (floodPacket sign index).nonce.length +
      (floodPacket sign index).signature.length) := length_wire (floodPacket sign index) rfl
    unfold maxPacketBytes
    omega
  have version : Text.splitFirst '.' (floodPacket sign index).protocolVersion = "1" := by
    show Text.splitFirst '.' "1.0" = "1"
    decide
  have command : hardwareCommands.contains (floodPacket sign index).command = true := by
    show hardwareCommands.contains "status" = true
    decide
  exact PacketFormat.parse_of_fields short (readPacket_wire _) version command

theorem ascii_hex (width number : Nat) :
    (Text.hex width number).toList.all (·.toNat < 128) = true := by
  have ascii : ∀ digit < 16, (Text.hexDigit digit).toNat < 128 := by decide
  simp only [Text.hex, String.toList_ofList, List.all_map, List.all_eq_true,
    Function.comp_apply, decide_eq_true_iff]
  exact fun place _ => ascii _ (Nat.mod_lt _ (by decide))

private theorem vouches_flood (digest : HexDigest sign) (index : Nat) :
    (deviceFormat sign).vouches floodReading (floodPacket sign index) = true := by
  have secret : floodReading.gateway.deviceSecret "esp32-1" = some "fedcba9876543210" := by
    decide
  have fresh : (deviceFormat sign).stale floodReading.now "1000.0" = false := by
    simp [PacketFormat.stale, deviceFormat, floodReading]
  have ascii : (floodPacket sign index).signature.toList.all (·.toNat < 128) = true := by
    rcases digest "fedcba9876543210" (floodPacket sign index).body.canonicalText with
      ⟨number, same⟩
    rw [show (floodPacket sign index).signature = _ from same]
    exact ascii_hex 64 number
  refine PacketFormat.vouches_iff.mpr ⟨"fedcba9876543210", secret, ?_, fresh⟩
  rw [PacketFormat.hmacCheck, if_pos ascii]
  exact congrArg Except.ok (beq_self_eq_true _)

private theorem nonce_flood (sign : String → String → String) {left right : Nat}
    (same : (floodPacket sign left).nonce = (floodPacket sign right).nonce) :
    left = right := by
  have texts : ("esp32-1-" ++ left.repr).toList = ("esp32-1-" ++ right.repr).toList :=
    congrArg String.toList same
  rw [String.toList_append, String.toList_append] at texts
  exact Text.decimal_inj (String.toList_inj.mp (List.append_cancel_left texts))

private theorem packet_accepted_again (digest : HexDigest sign) : ∃ final,
    StepFunction.run (deviceFormat sign).step {}
      ((List.range 10001).map (fun index => ((floodPacket sign index).wire, floodReading)) ++
        [((floodPacket sign 0).wire, floodReading)]) = some final ∧ ¬ NoPacketReplay final := by
  have admitted : ∀ index ≤ (deviceFormat sign).receiver.capacity,
      (deviceFormat sign).receiver.admits (floodPacket sign index).wire floodReading =
        some (floodPacket sign index) := by
    intro index bound
    simp only [PacketFormat.receiver, PacketFormat.admits, parse_flood digest bound,
      vouches_flood digest index, if_true]
  rcases (deviceFormat sign).receiver.accepts_again_of_flood (floodPacket sign)
      (fun index => ((floodPacket sign index).wire, floodReading)) (Nat.succ_pos 9999)
      (Int.lt_irrefl _) admitted (fun _ => rfl) (fun _ _ _ _ same => nonce_flood sign same) with
    ⟨final, reached, accepted⟩
  have capacity : (deviceFormat sign).receiver.capacity = 10000 := rfl
  rw [← (deviceFormat sign).step_eq, capacity] at reached
  rw [capacity] at accepted
  refine ⟨final, reached, fun once => ?_⟩
  rw [NoPacketReplay, accepted, List.map_append] at once
  exact List.disjoint_of_nodup_append once
    (List.mem_map_of_mem (List.mem_map_of_mem (List.mem_range.mpr (Nat.succ_pos _))))
    (List.mem_map_of_mem (List.mem_singleton_self _))

end Flood

def floodEnvelope (index : Nat) : EcosystemEnvelope where
  id := index.repr
  createdAt := 0
  updatedAt := 0
  sender := "phone-1"
  messageType := "status"
  auth := { scheme := "hmac", keyId := "key-1" }

/-- No bytes are decoded. -/
def directFormat : EnvelopeFormat where
  modelValidateJson _ := .error "Invalid JSON"

def openReading : ProtocolReading where
  now := 0
  authorize _ := .ok true

private theorem envelope_accepted_again (envelopes : EnvelopeFormat) : ∃ final,
    StepFunction.run envelopes.step {}
      ((List.range 10001).map (fun index => (.validate (floodEnvelope index), openReading)) ++
        [(.validate (floodEnvelope 0), openReading)]) = some final ∧
      ¬ NoEnvelopeReplay final := by
  have admitted : ∀ index ≤ envelopes.receiver.capacity,
      envelopes.receiver.admits (.validate (floodEnvelope index)) openReading =
        some (floodEnvelope index) := by
    intro index _
    have faultless : (floodEnvelope index).Faultless openReading := by
      refine ⟨by simp [floodEnvelope], by simp [floodEnvelope], ?_, Nat.zero_le _,
        by simp [floodEnvelope], by simp [floodEnvelope], rfl⟩
      show Text.splitFirst '.' "1.0" = "1"
      decide
    simp only [EnvelopeFormat.receiver, EnvelopeFormat.admits, EnvelopeFormat.carried,
      faultless, if_true]
  rcases envelopes.receiver.accepts_again_of_flood floodEnvelope
      (fun index => (.validate (floodEnvelope index), openReading)) (Nat.succ_pos 9999)
      (Int.lt_irrefl _) admitted (fun _ => rfl) (fun _ _ _ _ same => Text.decimal_inj same) with
    ⟨final, reached, accepted⟩
  have capacity : envelopes.receiver.capacity = 10000 := rfl
  rw [← envelopes.step_eq, capacity] at reached
  rw [capacity] at accepted
  refine ⟨final, reached, fun once => ?_⟩
  rw [NoEnvelopeReplay, accepted, List.map_append] at once
  exact List.disjoint_of_nodup_append once
    (List.mem_map_of_mem (List.mem_map_of_mem (List.mem_range.mpr (Nat.succ_pos _))))
    (List.mem_map_of_mem (List.mem_singleton_self _))

/-- Behind 10,001 packets of one device within a second, the first of them is accepted again,
whatever the device signs with; and the same of envelopes. -/
theorem accepted_again_behind_flood :
    (∀ sign, HexDigest sign → ∃ final, StepFunction.run (deviceFormat sign).step {}
      ((List.range 10001).map (fun index => ((floodPacket sign index).wire, floodReading)) ++
        [((floodPacket sign 0).wire, floodReading)]) = some final ∧ ¬ NoPacketReplay final) ∧
    ∃ final, StepFunction.run directFormat.step {}
      ((List.range 10001).map (fun index => (.validate (floodEnvelope index), openReading)) ++
        [(.validate (floodEnvelope 0), openReading)]) = some final ∧
      ¬ NoEnvelopeReplay final :=
  ⟨fun _ digest => packet_accepted_again digest, envelope_accepted_again _⟩

end Raphael.Interface
