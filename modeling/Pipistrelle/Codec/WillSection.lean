import Pipistrelle.Codec.RoundTrip

set_option autoImplicit false

/- encode_packet never writes a will. A CONNECT with one is made here by editing
   an encoded frame: the section is inserted behind the client id, the flags
   byte gets its bits and the remaining length is written anew. -/
namespace Pipistrelle.Codec

open Outcome

-- The length of the properties may be any varint that decode_varint accepts.
structure WillSection where
  propsHeader : Bytes
  propsLen : UInt32
  properties : Bytes
  topic : Bytes
  payload : Bytes
  qos : UInt8
  retain : Bool
  headerDecodes : decodeVarint propsHeader = .ok (propsLen, propsHeader.length)
  propertiesLength : properties.length = propsLen.toNat
  topicFits : topic.length ≤ 65535
  payloadFits : payload.length ≤ 65535

def WillSection.bytes (self : WillSection) : Bytes :=
  self.propsHeader ++ (self.properties ++ (writeBytes self.topic ++ writeBytes self.payload))

def WillSection.setBits (self : WillSection) (connectFlags : UInt8) : UInt8 :=
  setFlag self.retain 0x20 (connectFlags ||| (0x04 ||| (self.qos &&& 0x03) <<< (3 : UInt8)))

-- The connect flags follow the protocol name and the protocol level.
def connectFlagsAt : Nat := (writeStr "MQTT").length + 1

def clientIdEnd (pkt : Connect) : Nat :=
  connectFlagsAt + 1 + (writeU16 pkt.keepAlive).length + pkt.properties.encode.length + (writeStr pkt.clientId).length

def WillSection.insert (self : WillSection) (pkt : Connect) : Bytes :=
  let encoded := (encodePayload (.connect pkt)).2
  (encoded.take (clientIdEnd pkt)).modify connectFlagsAt self.setBits ++ (self.bytes ++ encoded.drop (clientIdEnd pkt))

def WillSection.frame (self : WillSection) (pkt : Connect) : Bytes :=
  (encodePayload (.connect pkt)).1 ::
    (encodeVarint (UInt32.ofNat (self.insert pkt).length) ++ self.insert pkt)

theorem will_insert_bytes (will : WillSection) (pkt : Connect) :
    will.insert pkt = writeStr "MQTT" ++ (5 :: will.setBits (setFlag pkt.password.isSome 0x40
        (setFlag pkt.username.isSome 0x80 (setFlag pkt.cleanStart 0x02 0))) :: (writeU16 pkt.keepAlive ++
          (pkt.properties.encode ++ (writeStr pkt.clientId ++ (will.bytes ++
            (optionalBytes writeStr pkt.username ++ optionalBytes writeBytes pkt.password)))))) := by
  have name : writeStr "MQTT" = [0, 4, 77, 81, 84, 84] := by decide
  generalize flagged : setFlag pkt.password.isSome 0x40
    (setFlag pkt.username.isSome 0x80 (setFlag pkt.cleanStart 0x02 0)) = connectFlags
  have parts : (encodePayload (.connect pkt)).2 =
      (writeStr "MQTT" ++ (5 :: connectFlags :: (writeU16 pkt.keepAlive ++ (pkt.properties.encode ++
        writeStr pkt.clientId)))) ++ (optionalBytes writeStr pkt.username ++ optionalBytes writeBytes pkt.password) := by
    rw [← flagged]
    simp only [encodePayload, List.append_assoc, List.cons_append, List.nil_append]
  have upTo : clientIdEnd pkt = (writeStr "MQTT" ++ (5 :: connectFlags :: (writeU16 pkt.keepAlive ++
      (pkt.properties.encode ++ writeStr pkt.clientId)))).length := by
    simp only [clientIdEnd, connectFlagsAt, List.length_append, List.length_cons]
    omega
  rw [WillSection.insert, parts, upTo, List.take_left, List.drop_left, connectFlagsAt, name]
  simp [List.modify_succ_cons]

theorem will_bits (will : WillSection) (cleanStart hasUsername hasPassword : Bool) :
    let connectFlags := will.setBits (setFlag hasPassword 0x40 (setFlag hasUsername 0x80 (setFlag cleanStart 0x02 0)))
    (connectFlags &&& 0x02 != 0) = cleanStart ∧ (connectFlags &&& 0x04 != 0) = true ∧
      (connectFlags &&& 0x80 != 0) = hasUsername ∧ (connectFlags &&& 0x40 != 0) = hasPassword := by
  have qosBits : will.qos &&& 0x03 = 0 ∨ will.qos &&& 0x03 = 1 ∨ will.qos &&& 0x03 = 2 ∨ will.qos &&& 0x03 = 3 := by
    have low := Nat.and_le_right (n := will.qos.toNat) (m := 3)
    rw [← UInt8.toNat_inj, ← UInt8.toNat_inj, ← UInt8.toNat_inj, ← UInt8.toNat_inj, UInt8.toNat_and]
    simp only [UInt8.reduceToNat]
    omega
  unfold WillSection.setBits
  rcases qosBits with bits | bits | bits | bits <;> rw [bits] <;> cases will.retain <;> cases cleanStart <;>
    cases hasUsername <;> cases hasPassword <;> decide

theorem skip_will_section (will : WillSection) (rest : Bytes) : skipWill (will.bytes ++ rest) = .ok rest := by
  have bounds := decode_varint_ok _ _ _ will.headerDecodes
  have topicLen : (UInt16.ofNat will.topic.length).toNat = will.topic.length := by
    rw [UInt16.toNat_ofNat']
    exact Nat.mod_eq_of_lt (Nat.lt_succ_of_le will.topicFits)
  have payloadLen : (UInt16.ofNat will.payload.length).toNat = will.payload.length := by
    rw [UInt16.toNat_ofNat']
    exact Nat.mod_eq_of_lt (Nat.lt_succ_of_le will.payloadFits)
  have header : decodeVarint (will.bytes ++ rest) = .ok (will.propsLen, will.propsHeader.length) := by
    rw [WillSection.bytes, List.append_assoc, decode_varint_append _ _ (by simp [will.headerDecodes]), will.headerDecodes]
  have props : will.bytes ++ rest = (will.propsHeader ++ will.properties) ++
      (writeU16 (UInt16.ofNat will.topic.length) ++ (will.topic ++
        (writeU16 (UInt16.ofNat will.payload.length) ++ (will.payload ++ rest)))) := by
    simp only [WillSection.bytes, writeBytes, List.append_assoc]
  have total : will.propsHeader.length + will.properties.length = (will.propsHeader ++ will.properties).length :=
    List.length_append.symm
  rw [skipWill, header, ok_bind]
  dsimp only
  rw [← will.propertiesLength, add_word_fits _ _ _ (by have := will.propertiesLength; omega), ok_bind, props, total]
  simp only [slice_from_append, ok_bind, read_write_u16, topicLen, payloadLen]

theorem connect_with_will_decoded (pkt : Connect) (will : WillSection) (suffix : Bytes)
    (encodable : (Packet.connect pkt).Encodable) (bound : (will.insert pkt).length < 2 ^ 28) :
    decodePacket (will.frame pkt ++ suffix) = .ok (.connect pkt, (will.frame pkt).length) := by
  obtain ⟨fits, whole⟩ := encodable
  have propsBound : pkt.properties.encode.length < 2 ^ 28 := by
    simp only [encodePayload, List.length_append] at whole
    omega
  obtain ⟨cleanBit, willBit, userBit, passBit⟩ :=
    will_bits will pkt.cleanStart pkt.username.isSome pkt.password.isSome
  have decoded := decode_connect_around pkt _ will.bytes fits propsBound cleanBit userBit passBit
    (fun rest => by rw [willBit]; exact skip_will_section will rest)
  have kind : (encodePayload (.connect pkt)).1 = fixedHeader 1 := rfl
  rw [WillSection.frame, decode_written_frame _ _ suffix bound, kind, (fixed_header_nibbles 1 (by decide)).1,
    (fixed_header_nibbles 1 (by decide)).2, decodePayload, will_insert_bytes, decoded]
  rfl

def lastWords : WillSection where
  propsHeader := [0x82, 0x00]
  propsLen := 2
  properties := [0x01, 0x01]
  topic := [0x61]
  payload := [1, 2, 3]
  qos := 1
  retain := true
  headerDecodes := by decide
  propertiesLength := rfl
  topicFits := by decide
  payloadFits := by decide

def loginPacket : Connect where
  clientId := "sensor"
  keepAlive := 30
  cleanStart := true
  username := some "u"
  password := some [0x70]
  properties := {}

theorem login_with_last_words : decodePacket (lastWords.frame loginPacket ++ [0xC0, 0x00]) =
    .ok (.connect loginPacket, (lastWords.frame loginPacket).length) :=
  connect_with_will_decoded loginPacket lastWords [0xC0, 0x00]
    ⟨⟨by decide, fun s present => by cases present; decide,
      fun data present => by cases present; exact Nat.le_of_ble_eq_true rfl, ⟨by decide, nofun, nofun⟩⟩,
      by decide +kernel⟩
    (by decide +kernel)

end Pipistrelle.Codec
