import Pipistrelle.Codec.Framing
import Pipistrelle.Codec.PropertyRoundTrip

set_option autoImplicit false

namespace Pipistrelle.Codec

open Outcome

-- What the format can carry: two-byte lengths, varint identifiers, the QoS and
-- packet id of PUBLISH in step, and at least one filter in SUBSCRIBE.
def Packet.Fits : Packet → Prop
  | .connect pkt => StrFits pkt.clientId ∧ (∀ s, pkt.username = some s → StrFits s) ∧
      (∀ data, pkt.password = some data → BytesFit data) ∧ pkt.properties.Fits
  | .connAck pkt => pkt.properties.Fits
  | .publish pkt => pkt.qos ≤ 2 ∧ (pkt.packetId.isSome = true ↔ 0 < pkt.qos) ∧ StrFits pkt.topic ∧ pkt.properties.Fits
  | .pubAck pkt => pkt.properties.Fits
  | .subscribe pkt => pkt.subscriptions ≠ [] ∧ (∀ sub ∈ pkt.subscriptions, StrFits sub.topicFilter) ∧
      pkt.properties.Fits
  | .subAck pkt => pkt.properties.Fits
  | .pingReq | .pingResp => True
  | .disconnect pkt => pkt.properties.Fits

def Packet.Encodable (packet : Packet) : Prop := packet.Fits ∧ (encodePayload packet).2.length < 2 ^ 28

theorem read_optional_written {α : Type} (read : Bytes → Decoded (α × Bytes)) (write : α → Bytes) (field : Option α)
    (rest : Bytes) (reads : ∀ val, field = some val → read (write val ++ rest) = .ok (val, rest)) :
    readOptional field.isSome read (optionalBytes write field ++ rest) = .ok (field, rest) := by
  cases field with
  | none => rfl
  | some val => simp [readOptional, optionalBytes, reads val rfl]

theorem connect_flags_bits (cleanStart hasUsername hasPassword : Bool) :
    let connectFlags := setFlag hasPassword 0x40 (setFlag hasUsername 0x80 (setFlag cleanStart 0x02 0))
    (connectFlags &&& 0x02 != 0) = cleanStart ∧ (connectFlags &&& 0x04 != 0) = false ∧
      (connectFlags &&& 0x80 != 0) = hasUsername ∧ (connectFlags &&& 0x40 != 0) = hasPassword := by
  cases cleanStart <;> cases hasUsername <;> cases hasPassword <;> decide

theorem decode_connect_around (pkt : Connect) (connectFlags : UInt8) (between : Bytes) (fits : (Packet.connect pkt).Fits)
    (propsBound : pkt.properties.encode.length < 2 ^ 28) (cleanBit : (connectFlags &&& 0x02 != 0) = pkt.cleanStart)
    (userBit : (connectFlags &&& 0x80 != 0) = pkt.username.isSome)
    (passBit : (connectFlags &&& 0x40 != 0) = pkt.password.isSome)
    (skipped : ∀ rest, readWill (connectFlags &&& 0x04 != 0) (between ++ rest) = .ok rest) :
    decodeConnect 0 (writeStr "MQTT" ++ (5 :: connectFlags :: (writeU16 pkt.keepAlive ++ (pkt.properties.encode ++
      (writeStr pkt.clientId ++ (between ++
        (optionalBytes writeStr pkt.username ++ optionalBytes writeBytes pkt.password))))))) = .ok (.connect pkt) := by
  obtain ⟨idFits, userFits, passFits, propsFit⟩ := fits
  have mqttFits : (strBytes "MQTT").length ≤ 65535 := by decide
  have readUser := read_optional_written readStr writeStr pkt.username
    (optionalBytes writeBytes pkt.password ++ []) (fun s present => read_write_str s _ (userFits s present))
  have readPass := read_optional_written readBytes writeBytes pkt.password []
    (fun data present => read_write_bytes data _ (passFits data present))
  rw [List.append_nil] at readUser readPass
  simp only [decodeConnect, read_write_str "MQTT" _ mqttFits, read_u8_cons, ok_bind, read_write_u16,
    connect_properties_round_trip pkt.properties _ propsFit propsBound, read_write_str pkt.clientId _ idFits,
    ne_eq, not_true_eq_false, if_false, decodeConnectTail, skipped, cleanBit, userBit, passBit, readUser, readPass,
    pure_eq]

theorem decode_encode_connect (pkt : Connect) (encodable : (Packet.connect pkt).Encodable) :
    decodeConnect 0 (encodePayload (.connect pkt)).2 = .ok (.connect pkt) := by
  obtain ⟨fits, bound⟩ := encodable
  have propsBound : pkt.properties.encode.length < 2 ^ 28 := by
    simp only [encodePayload, List.length_append] at bound
    omega
  obtain ⟨cleanBit, willBit, userBit, passBit⟩ :=
    connect_flags_bits pkt.cleanStart pkt.username.isSome pkt.password.isSome
  have decoded := decode_connect_around pkt _ [] fits propsBound cleanBit userBit passBit
    (fun rest => by rw [willBit]; rfl)
  simpa only [encodePayload, List.append_assoc, List.cons_append, List.nil_append] using decoded

theorem decode_encode_conn_ack (pkt : ConnAck) (encodable : (Packet.connAck pkt).Encodable) :
    decodeConnAck (encodePayload (.connAck pkt)).2 = .ok (.connAck pkt) := by
  obtain ⟨propsFit, bound⟩ := encodable
  have propsBound : pkt.properties.encode.length < 2 ^ 28 := by
    simp only [encodePayload, List.length_append] at bound
    omega
  have present : ((if pkt.sessionPresent then 1 else 0 : UInt8) &&& 0x01 != 0) = pkt.sessionPresent := by
    cases pkt.sessionPresent <;> decide
  have readProps := conn_ack_properties_round_trip pkt.properties [] propsFit propsBound
  rw [List.append_nil] at readProps
  simp only [decodeConnAck, encodePayload, List.cons_append, List.nil_append, read_u8_cons, ok_bind,
    readProps, present, pure_eq]

theorem publish_flag_bits (qos : UInt8) (dup retain : Bool) (low : qos ≤ 2) :
    let header := setFlag retain 0x01 (setFlag dup 0x08 (fixedHeader 3) ||| (qos &&& 0x03) <<< 1)
    header >>> 4 = 3 ∧ (header &&& 0x0F &&& 0x08 != 0) = dup ∧ (header &&& 0x0F &&& 0x06) >>> 1 = qos ∧
      (header &&& 0x0F &&& 0x01 != 0) = retain := by
  have cases : qos = 0 ∨ qos = 1 ∨ qos = 2 := by
    have bound := UInt8.le_iff_toNat_le.mp low
    simp only [UInt8.reduceToNat, ← UInt8.toNat_inj] at bound ⊢
    omega
  rcases cases with rfl | rfl | rfl <;> cases dup <;> cases retain <;> decide

theorem decode_encode_publish (pkt : Publish) (encodable : (Packet.publish pkt).Encodable) :
    decodePublish ((encodePayload (.publish pkt)).1 &&& 0x0F) (encodePayload (.publish pkt)).2 = .ok (.publish pkt) := by
  obtain ⟨⟨qosLow, idPresent, topicFits, propsFit⟩, bound⟩ := encodable
  have propsBound : pkt.properties.encode.length < 2 ^ 28 := by
    simp only [encodePayload, List.length_append] at bound
    omega
  obtain ⟨_, dupBit, qosBits, retainBit⟩ := publish_flag_bits pkt.qos pkt.dup pkt.retain qosLow
  have hasId : decide (0 < pkt.qos) = pkt.packetId.isSome := by
    rw [Bool.eq_iff_iff, decide_eq_true_iff, idPresent]
  have readId := read_optional_written readU16 writeU16 pkt.packetId (pkt.properties.encode ++ pkt.payload)
    (fun val _ => read_write_u16 val _)
  simp only [decodePublish, encodePayload, List.append_assoc, dupBit, qosBits, retainBit,
    read_write_str pkt.topic _ topicFits, ok_bind, hasId, readId,
    publish_properties_round_trip pkt.properties pkt.payload propsFit propsBound, pure_eq]
  rw [if_neg (UInt8.not_lt.mpr qosLow)]

theorem read_reason_written {P : Type} (empty props : P) (decode : Bytes → Decoded (P × Bytes)) (hasProps : Bool)
    (reasonCode : UInt8) (block : Bytes) (someBytes : block ≠ []) (decoded : decode block = .ok (props, []))
    (absent : hasProps = false → props = empty) :
    readReason empty decode (encodeReason hasProps reasonCode block) = .ok (reasonCode, props) := by
  unfold encodeReason
  split
  · cases block with
    | nil => contradiction
    | cons head tail => simp [readReason, decoded]
  · rename_i short
    obtain ⟨noProps, zero⟩ : hasProps = false ∧ reasonCode = 0 := by simpa using short
    rw [absent noProps, zero]
    rfl

theorem encode_block_ne_nil (tempBuf : Bytes) : encodeBlock tempBuf ≠ [] := by
  obtain ⟨byte, tail, eq⟩ := encode_varint_cons (UInt32.ofNat tempBuf.length)
  simp [encodeBlock, eq]

-- In the long form the property block is part of the payload, in the short form it is empty.
theorem reason_block_bound (hasProps : Bool) (reasonCode : UInt8) (tempBuf : Bytes) (limit : Nat)
    (bound : (encodeReason hasProps reasonCode (encodeBlock tempBuf)).length < limit)
    (absent : hasProps = false → tempBuf = []) (room : 2 ≤ limit) : (encodeBlock tempBuf).length < limit := by
  unfold encodeReason at bound
  split at bound
  · rw [List.length_cons] at bound
    omega
  · rename_i short
    obtain ⟨noProps, _⟩ : hasProps = false ∧ reasonCode = 0 := by simpa using short
    rw [absent noProps, encodeBlock, encode_varint_last _ (by decide)]
    exact room

theorem decode_encode_pub_ack (pkt : PubAck) (encodable : (Packet.pubAck pkt).Encodable) :
    decodePubAck (encodePayload (.pubAck pkt)).2 = .ok (.pubAck pkt) := by
  obtain ⟨propsFit, bound⟩ := encodable
  have noProps : pkt.properties.present = false → pkt.properties = {} := by
    obtain ⟨_, _, ⟨reason, user⟩⟩ := pkt
    cases reason <;> cases user <;> simp [PubAckProperties.present]
  have propsBound : pkt.properties.encode.length < 2 ^ 28 := by
    apply reason_block_bound pkt.properties.present pkt.reasonCode _ _ _ _ (by decide)
    · simp only [encodePayload, List.length_append] at bound
      exact Nat.lt_of_le_of_lt (Nat.le_add_left _ _) bound
    · intro absent
      rw [noProps absent]
      rfl
  have readProps := pub_ack_properties_round_trip pkt.properties [] propsFit propsBound
  rw [List.append_nil] at readProps
  have readTail := read_reason_written {} pkt.properties PubAckProperties.decode pkt.properties.present pkt.reasonCode
    pkt.properties.encode (encode_block_ne_nil _) readProps noProps
  simp only [decodePubAck, encodePayload, read_write_u16, ok_bind, readTail, pure_eq]

theorem read_subscription_written (sub : Subscription) (rest : Bytes) (fits : StrFits sub.topicFilter) :
    readSubscription (writeStr sub.topicFilter ++ [sub.options] ++ rest) = .ok (sub, rest) := by
  simp only [readSubscription, List.append_assoc, read_write_str sub.topicFilter _ fits, ok_bind,
    List.singleton_append, read_u8_cons, pure_eq]

theorem subscription_loop_written (done subscriptions : List Subscription)
    (fits : ∀ sub ∈ subscriptions, StrFits sub.topicFilter) :
    subscriptionLoop done (subscriptions.flatMap fun sub => writeStr sub.topicFilter ++ [sub.options]) =
      .ok (done ++ subscriptions) := by
  induction subscriptions generalizing done with
  | nil => simp
  | cons sub tail ih =>
      rw [List.flatMap_cons, subscription_loop_item done sub _ _ (read_subscription_written sub _ (fits sub (by simp))),
        ih _ (fun sub member => fits sub (by simp [member])), List.append_assoc, List.singleton_append]

theorem decode_encode_subscribe (pkt : Subscribe) (encodable : (Packet.subscribe pkt).Encodable) :
    decodeSubscribe 0x02 (encodePayload (.subscribe pkt)).2 = .ok (.subscribe pkt) := by
  obtain ⟨⟨someFilter, filtersFit, propsFit⟩, bound⟩ := encodable
  have propsBound : pkt.properties.encode.length < 2 ^ 28 := by
    simp only [encodePayload, List.length_append] at bound
    omega
  simp only [decodeSubscribe, encodePayload, List.append_assoc, read_write_u16, ok_bind,
    subscribe_properties_round_trip pkt.properties _ propsFit propsBound,
    subscription_loop_written [] pkt.subscriptions filtersFit, List.nil_append]
  simp [someFilter]

theorem decode_encode_sub_ack (pkt : SubAck) (encodable : (Packet.subAck pkt).Encodable) :
    decodeSubAck (encodePayload (.subAck pkt)).2 = .ok (.subAck pkt) := by
  obtain ⟨propsFit, bound⟩ := encodable
  have propsBound : pkt.properties.encode.length < 2 ^ 28 := by
    simp only [encodePayload, List.length_append] at bound
    omega
  simp only [decodeSubAck, encodePayload, List.append_assoc, read_write_u16, ok_bind,
    sub_ack_properties_round_trip pkt.properties _ propsFit propsBound, reason_code_loop_all, List.nil_append, pure_eq]

theorem decode_encode_disconnect (pkt : Disconnect) (encodable : (Packet.disconnect pkt).Encodable) :
    decodeDisconnect (encodePayload (.disconnect pkt)).2 = .ok (.disconnect pkt) := by
  obtain ⟨propsFit, bound⟩ := encodable
  have noProps : pkt.properties.present = false → pkt.properties = {} := by
    obtain ⟨_, ⟨expiry, reason, user, reference⟩⟩ := pkt
    cases expiry <;> cases reason <;> cases user <;> cases reference <;> simp [DisconnectProperties.present]
  have propsBound : pkt.properties.encode.length < 2 ^ 28 := by
    apply reason_block_bound pkt.properties.present pkt.reasonCode _ _ bound _ (by decide)
    intro absent
    rw [noProps absent]
    rfl
  have readProps := disconnect_properties_round_trip pkt.properties [] propsFit propsBound
  rw [List.append_nil] at readProps
  have readTail := read_reason_written {} pkt.properties DisconnectProperties.decode pkt.properties.present
    pkt.reasonCode pkt.properties.encode (encode_block_ne_nil _) readProps noProps
  simp only [decodeDisconnect, encodePayload, readTail, ok_bind, pure_eq]

theorem fixed_header_nibbles (packetType : UInt8) (low : packetType < 16) :
    fixedHeader packetType >>> 4 = packetType ∧ fixedHeader packetType &&& 0x0F = 0 := by
  revert low
  exact every_byte (by decide +kernel) packetType

theorem decode_encode_payload (packet : Packet) (encodable : packet.Encodable) :
    decodePayload ((encodePayload packet).1 >>> 4) ((encodePayload packet).1 &&& 0x0F) (encodePayload packet).2 =
      .ok packet := by
  cases packet with
  | connect pkt =>
      have decoded := decode_encode_connect pkt encodable
      simp only [encodePayload, fixed_header_nibbles 1 (by decide)] at decoded ⊢
      exact decoded
  | connAck pkt =>
      have decoded := decode_encode_conn_ack pkt encodable
      simp only [encodePayload, fixed_header_nibbles 2 (by decide)] at decoded ⊢
      exact decoded
  | publish pkt =>
      have kind := (publish_flag_bits pkt.qos pkt.dup pkt.retain encodable.1.1).1
      have decoded := decode_encode_publish pkt encodable
      simp only [encodePayload] at decoded ⊢
      rw [kind]
      exact decoded
  | pubAck pkt =>
      have decoded := decode_encode_pub_ack pkt encodable
      simp only [encodePayload, fixed_header_nibbles 4 (by decide)] at decoded ⊢
      exact decoded
  | subscribe pkt =>
      have decoded := decode_encode_subscribe pkt encodable
      have kind : (fixedHeader 8 ||| 0x02) >>> 4 = 8 ∧ (fixedHeader 8 ||| 0x02) &&& 0x0F = 0x02 := by decide
      simp only [encodePayload, kind] at decoded ⊢
      exact decoded
  | subAck pkt =>
      have decoded := decode_encode_sub_ack pkt encodable
      simp only [encodePayload, fixed_header_nibbles 9 (by decide)] at decoded ⊢
      exact decoded
  | pingReq => decide
  | pingResp => decide
  | disconnect pkt =>
      have decoded := decode_encode_disconnect pkt encodable
      simp only [encodePayload, fixed_header_nibbles 14 (by decide)] at decoded ⊢
      exact decoded

theorem decode_written_frame (header : UInt8) (payload suffix : Bytes) (bound : payload.length < 2 ^ 28) :
    decodePacket (header :: (encodeVarint (UInt32.ofNat payload.length) ++ payload) ++ suffix) =
      (decodePayload (header >>> 4) (header &&& 0x0F) payload >>= fun decoded =>
        pure (decoded, (header :: (encodeVarint (UInt32.ofNat payload.length) ++ payload)).length)) := by
  have len : (UInt32.ofNat payload.length).toNat = payload.length := by
    rw [UInt32.toNat_ofNat']
    exact Nat.mod_eq_of_lt (Nat.lt_trans bound (by decide))
  have headed : HeaderAt (header :: (encodeVarint (UInt32.ofNat payload.length) ++ payload) ++ suffix) header
      (UInt32.ofNat payload.length) (encodeVarint (UInt32.ofNat payload.length)).length (payload ++ suffix) :=
    ⟨_, by rw [List.cons_append, List.append_assoc], decode_encode_varint _ _ (len.symm ▸ bound : _ < 2 ^ 28),
      by rw [List.drop_left]⟩
  have total : 1 + (encodeVarint (UInt32.ofNat payload.length)).length + payload.length =
      (header :: (encodeVarint (UInt32.ofNat payload.length) ++ payload)).length := by
    simp only [List.length_cons, List.length_append]
    omega
  rw [decode_packet_frame _ _ _ _ _ headed (by rw [len]; simp), len, List.take_left, total]

theorem decode_encoded_frame (packet : Packet) (suffix : Bytes) (bound : (encodePayload packet).2.length < 2 ^ 28) :
    decodePacket (encodePacket packet ++ suffix) =
      (decodePayload ((encodePayload packet).1 >>> 4) ((encodePayload packet).1 &&& 0x0F) (encodePayload packet).2 >>=
        fun decoded => pure (decoded, (encodePacket packet).length)) := by
  unfold encodePacket
  generalize encodePayload packet = encoded at bound ⊢
  exact decode_written_frame encoded.1 encoded.2 suffix bound

theorem encoded_decodes (packet : Packet) (encodable : packet.Encodable) :
    decodePacket (encodePacket packet) = .ok (packet, (encodePacket packet).length) := by
  have decoded := decode_encoded_frame packet [] encodable.2
  rwa [decode_encode_payload packet encodable, List.append_nil, ok_bind, pure_eq] at decoded

theorem decode_encode_packet (packet : Packet) (suffix : Bytes) (encodable : packet.Encodable) :
    decodePacket (encodePacket packet ++ suffix) = .ok (packet, (encodePacket packet).length) := by
  rw [decode_encoded_frame packet suffix encodable.2, decode_encode_payload packet encodable, ok_bind, pure_eq]

def sensorReading : Packet := .publish {
  dup := false, qos := 1, retain := true, topic := "a/b", packetId := some 7,
  properties := { topicAlias := some 2, userProperties := [("k", "v")] },
  payload := [0x31] }

theorem decode_encode_sensor_reading :
    decodePacket (encodePacket sensorReading ++ [0xC0, 0x00]) = .ok (sensorReading, (encodePacket sensorReading).length) :=
  decode_encode_packet sensorReading [0xC0, 0x00]
    ⟨⟨by decide, by decide, by decide, by decide, by simp, by simp, by simp, by simp⟩, by decide +kernel⟩

end Pipistrelle.Codec
