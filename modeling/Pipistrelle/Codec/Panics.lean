import Pipistrelle.Codec.Framing
import Pipistrelle.Codec.Loops

set_option autoImplicit false

/- Which network input makes decode_packet panic. Every reader checks the length
   of its slice before it indexes; only the will section of CONNECT does not. -/
namespace Pipistrelle.Codec

open Outcome

theorem read_u8_no_panic (buf : Bytes) : readU8 buf ≠ .panic := by
  cases buf <;> simp

theorem read_u16_no_panic (buf : Bytes) : readU16 buf ≠ .panic := by
  rcases two_bytes buf with short | ⟨b0, b1, tail, rfl⟩
  · simp [read_u16_short buf short]
  · simp

theorem read_u32_no_panic (buf : Bytes) : readU32 buf ≠ .panic := by
  rcases four_bytes buf with short | ⟨b0, b1, b2, b3, tail, rfl⟩
  · simp [read_u32_short buf short]
  · simp

theorem read_bytes_no_panic (buf : Bytes) : readBytes buf ≠ .panic := by
  rcases two_bytes buf with short | ⟨b0, b1, tail, rfl⟩
  · simp [read_bytes_short buf short]
  · rw [read_bytes_cons]
    split <;> simp

theorem read_str_no_panic (buf : Bytes) : readStr buf ≠ .panic := by
  rcases two_bytes buf with short | ⟨b0, b1, tail, rfl⟩
  · simp [read_str_short buf short]
  · rw [read_str_cons]
    split
    · simp
    · split <;> simp

section Properties

variable {P : Type} (table : PropertyTable P)

theorem read_property_no_panic (value : PropertyValue P) (props : P) (propSlice : Bytes) :
    readProperty value props propSlice ≠ .panic := by
  cases value with
  | u8 store => exact bind_no_panic _ _ (read_u8_no_panic _) (fun _ _ => by simp)
  | u16 store => exact bind_no_panic _ _ (read_u16_no_panic _) (fun _ _ => by simp)
  | u32 store => exact bind_no_panic _ _ (read_u32_no_panic _) (fun _ _ => by simp)
  | str store => exact bind_no_panic _ _ (read_str_no_panic _) (fun _ _ => by simp)
  | bytes store => exact bind_no_panic _ _ (read_bytes_no_panic _) (fun _ _ => by simp)
  | varint store =>
      apply bind_no_panic _ _ (decode_varint_no_panic _)
      rintro ⟨val, read⟩ decoded
      simp [slice_from_within _ _ (decode_varint_ok _ _ _ decoded).2.2.1]
  | userProperty push current =>
      apply bind_no_panic _ _ (read_str_no_panic _)
      intro _ _
      exact bind_no_panic _ _ (read_str_no_panic _) (fun _ _ => by simp)

theorem read_item_no_panic (props : P) (propSlice : Bytes) : readItem table props propSlice ≠ .panic := by
  apply bind_no_panic _ _ (read_u8_no_panic _)
  rintro ⟨propId, rest⟩ _
  cases found : table propId with
  | none => simp [found]
  | some value => simpa [found] using read_property_no_panic value props rest

theorem property_loop_no_panic (props : P) (propSlice : Bytes) : propertyLoop table props propSlice ≠ .panic := by
  cases propSlice with
  | nil => simp
  | cons propId tail =>
      rw [property_loop_cons]
      apply bind_no_panic _ _ (read_item_no_panic table props _)
      rintro ⟨next, rest⟩ item
      have shorter := read_item_length table props next _ rest item
      exact property_loop_no_panic next rest
termination_by propSlice.length
decreasing_by
  all_goals exact shorter

theorem decode_properties_no_panic (empty : P) (buf : Bytes) : decodeProperties table empty buf ≠ .panic := by
  unfold decodeProperties
  split
  · simp
  · apply bind_no_panic _ _ (decode_varint_no_panic _)
    rintro ⟨propLen, read⟩ decoded
    simp only [slice_from_within _ _ (decode_varint_ok _ _ _ decoded).2.2.1, ok_bind]
    split
    · simp
    · rename_i whole
      rw [slice_to_within _ _ (Nat.not_lt.mp whole), slice_from_within _ _ (Nat.not_lt.mp whole), ok_bind, ok_bind]
      exact bind_no_panic _ _ (property_loop_no_panic table empty _) (fun _ _ => by simp)

end Properties

theorem read_optional_no_panic {α : Type} (present : Bool) (read : Bytes → Decoded (α × Bytes)) (payload : Bytes)
    (safe : ∀ buf, read buf ≠ .panic) : readOptional present read payload ≠ .panic := by
  cases present with
  | false => simp [readOptional]
  | true => exact bind_no_panic _ _ (safe payload) (fun _ _ => by simp)

theorem read_reason_no_panic {P : Type} (empty : P) (decode : Bytes → Decoded (P × Bytes)) (payload : Bytes)
    (safe : ∀ buf, decode buf ≠ .panic) : readReason empty decode payload ≠ .panic := by
  unfold readReason
  split
  · simp
  · apply bind_no_panic _ _ (read_u8_no_panic _)
    rintro ⟨reasonCode, rest⟩ _
    dsimp only
    split
    · simp
    · exact bind_no_panic _ _ (safe rest) (fun _ _ => by simp)

theorem read_subscription_no_panic (payload : Bytes) : readSubscription payload ≠ .panic := by
  apply bind_no_panic _ _ (read_str_no_panic _)
  intro _ _
  exact bind_no_panic _ _ (read_u8_no_panic _) (fun _ _ => by simp)

theorem subscription_loop_no_panic (done : List Subscription) (payload : Bytes) :
    subscriptionLoop done payload ≠ .panic := by
  cases payload with
  | nil => simp
  | cons byte tail =>
      rw [subscription_loop_cons]
      apply bind_no_panic _ _ (read_subscription_no_panic _)
      rintro ⟨sub, rest⟩ read
      have shorter := read_subscription_length _ rest sub read
      exact subscription_loop_no_panic (done ++ [sub]) rest
termination_by payload.length
decreasing_by
  all_goals exact shorter

def WillOverruns (willSection : Bytes) : Prop :=
  ∃ propsLen read, decodeVarint willSection = .ok (propsLen, read) ∧
    (willSection.length < read + propsLen.toNat ∨
      ∃ topicLen afterTopicLen, willSection.drop (read + propsLen.toNat) = writeU16 topicLen ++ afterTopicLen ∧
        (afterTopicLen.length < topicLen.toNat ∨
          ∃ payloadLen afterPayloadLen, afterTopicLen.drop topicLen.toNat = writeU16 payloadLen ++ afterPayloadLen ∧
            afterPayloadLen.length < payloadLen.toNat))

theorem slice_from_cases (start : Nat) (buf : Bytes) :
    (buf.length < start ∧ (sliceFrom start buf : Decoded Bytes) = .panic) ∨
      (start ≤ buf.length ∧ (sliceFrom start buf : Decoded Bytes) = .ok (buf.drop start)) := by
  by_cases within : start ≤ buf.length
  · exact .inr ⟨within, slice_from_within start buf within⟩
  · exact .inl ⟨Nat.not_le.mp within, (slice_from_panic_iff start buf).mpr (Nat.not_le.mp within)⟩

theorem skip_will_panic_iff (willSection : Bytes) : skipWill willSection = .panic ↔ WillOverruns willSection := by
  unfold skipWill WillOverruns
  rw [bind_panic_iff]
  constructor
  · rintro (never | ⟨⟨propsLen, read⟩, decoded, panics⟩)
    · exact absurd never (decode_varint_no_panic _)
    · have bounds := decode_varint_ok _ _ _ decoded
      refine ⟨propsLen, read, decoded, ?_⟩
      simp only [add_word_fits 64 read propsLen.toNat (by omega), ok_bind] at panics
      rcases slice_from_cases (read + propsLen.toNat) willSection with ⟨overruns, _⟩ | ⟨_, sliced⟩
      · exact .inl overruns
      · rw [sliced, ok_bind] at panics
        rcases (bind_panic_iff _ _).mp panics with never | ⟨⟨topicLen, afterTopicLen⟩, readTopic, panics⟩
        · exact absurd never (read_u16_no_panic _)
        · refine .inr ⟨topicLen, afterTopicLen, (read_u16_ok_iff _ _ _).mp readTopic, ?_⟩
          dsimp only at panics
          rcases slice_from_cases topicLen.toNat afterTopicLen with ⟨overruns, _⟩ | ⟨_, sliced⟩
          · exact .inl overruns
          · rw [sliced, ok_bind] at panics
            rcases (bind_panic_iff _ _).mp panics with never | ⟨⟨payloadLen, afterPayloadLen⟩, readPayload, panics⟩
            · exact absurd never (read_u16_no_panic _)
            · exact .inr ⟨payloadLen, afterPayloadLen, (read_u16_ok_iff _ _ _).mp readPayload,
                (slice_from_panic_iff _ _).mp panics⟩
  · rintro ⟨propsLen, read, decoded, overruns⟩
    have bounds := decode_varint_ok _ _ _ decoded
    refine .inr ⟨(propsLen, read), decoded, ?_⟩
    simp only [add_word_fits 64 read propsLen.toNat (by omega), ok_bind]
    rcases slice_from_cases (read + propsLen.toNat) willSection with ⟨_, sliced⟩ | ⟨within, sliced⟩
    · rw [sliced, panic_bind]
    · rw [sliced, ok_bind]
      obtain ⟨topicLen, afterTopicLen, topicBytes, overruns⟩ := overruns.resolve_left (Nat.not_lt.mpr within)
      rw [topicBytes, read_write_u16, ok_bind]
      dsimp only
      rcases slice_from_cases topicLen.toNat afterTopicLen with ⟨_, sliced⟩ | ⟨within, sliced⟩
      · rw [sliced, panic_bind]
      · rw [sliced, ok_bind]
        obtain ⟨payloadLen, afterPayloadLen, payloadBytes, overruns⟩ := overruns.resolve_left (Nat.not_lt.mpr within)
        rw [payloadBytes, read_write_u16, ok_bind]
        exact (slice_from_panic_iff _ _).mpr overruns

structure ConnectHead (payload : Bytes) (connectFlags : UInt8) (keepAlive : UInt16) (properties : ConnectProperties)
    (clientId : String) (rest : Bytes) : Prop where
  idFits : (strBytes clientId).length ≤ 65535
  bytes : ∃ tail, payload = writeStr "MQTT" ++ 5 :: connectFlags :: (writeU16 keepAlive ++ tail) ∧
    ConnectProperties.decode tail = .ok (properties, writeStr clientId ++ rest)

theorem decode_connect_head (payload : Bytes) (connectFlags : UInt8) (keepAlive : UInt16)
    (properties : ConnectProperties) (clientId : String) (rest : Bytes)
    (head : ConnectHead payload connectFlags keepAlive properties clientId rest) :
    decodeConnect 0 payload = decodeConnectTail connectFlags keepAlive properties clientId rest := by
  obtain ⟨tail, rfl, decoded⟩ := head.bytes
  have mqttFits : (strBytes "MQTT").length ≤ 65535 := by decide
  simp only [decodeConnect, read_write_str "MQTT" _ mqttFits, ok_bind, read_u8_cons, read_write_u16, decoded,
    read_write_str clientId rest head.idFits, decodeConnectTail]
  rfl

theorem decode_connect_tail_panic_iff (connectFlags : UInt8) (keepAlive : UInt16) (properties : ConnectProperties)
    (clientId : String) (rest : Bytes) :
    decodeConnectTail connectFlags keepAlive properties clientId rest = .panic ↔
      connectFlags &&& 0x04 ≠ 0 ∧ WillOverruns rest := by
  have credentials : ∀ payload, ((readOptional (connectFlags &&& 0x80 != 0) readStr payload) >>= fun username =>
      (readOptional (connectFlags &&& 0x40 != 0) readBytes username.2) >>= fun password =>
        (Outcome.ok (Packet.connect ⟨clientId, keepAlive, connectFlags &&& 0x02 != 0, username.1, password.1,
          properties⟩) : Decoded Packet)) ≠ .panic := by
    intro payload
    apply bind_no_panic _ _ (read_optional_no_panic _ _ _ read_str_no_panic)
    intro _ _
    exact bind_no_panic _ _ (read_optional_no_panic _ _ _ read_bytes_no_panic) (fun _ _ => by simp)
  unfold decodeConnectTail readWill
  rw [bind_panic_iff]
  by_cases noWill : connectFlags &&& 0x04 = 0
  · simp [noWill, credentials]
  · simp [noWill, credentials, skip_will_panic_iff]

theorem decode_connect_panics (flags : UInt8) (payload : Bytes) (panics : decodeConnect flags payload = .panic) :
    flags = 0 ∧ ∃ connectFlags keepAlive properties clientId rest,
      ConnectHead payload connectFlags keepAlive properties clientId rest := by
  unfold decodeConnect at panics
  split at panics
  · simp at panics
  rename_i flagsZero
  rcases (bind_panic_iff _ _).mp panics with never | ⟨⟨protocolName, afterName⟩, readName, panics⟩
  · exact absurd never (read_str_no_panic _)
  dsimp only at panics
  split at panics
  · simp at panics
  rename_i mqtt
  rcases (bind_panic_iff _ _).mp panics with never | ⟨⟨protocolLevel, afterLevel⟩, readLevel, panics⟩
  · exact absurd never (read_u8_no_panic _)
  dsimp only at panics
  split at panics
  · simp at panics
  rename_i five
  rcases (bind_panic_iff _ _).mp panics with never | ⟨⟨connectFlags, afterFlags⟩, readFlags, panics⟩
  · exact absurd never (read_u8_no_panic _)
  dsimp only at panics
  rcases (bind_panic_iff _ _).mp panics with never | ⟨⟨keepAlive, afterKeepAlive⟩, readKeepAlive, panics⟩
  · exact absurd never (read_u16_no_panic _)
  dsimp only at panics
  rcases (bind_panic_iff _ _).mp panics with never | ⟨⟨properties, afterProps⟩, readProps, panics⟩
  · exact absurd never (decode_properties_no_panic _ _ _)
  dsimp only at panics
  rcases (bind_panic_iff _ _).mp panics with never | ⟨⟨clientId, rest⟩, readId, _⟩
  · exact absurd never (read_str_no_panic _)
  obtain ⟨_, nameBytes⟩ := (read_str_ok_iff _ _ _).mp readName
  obtain ⟨idFits, idBytes⟩ := (read_str_ok_iff _ _ _).mp readId
  refine ⟨not_not.mp flagsZero, connectFlags, keepAlive, properties, clientId, rest, idFits, afterKeepAlive, ?_, ?_⟩
  · rw [nameBytes, (read_u8_ok_iff _ _ _).mp readLevel, (read_u8_ok_iff _ _ _).mp readFlags,
      (read_u16_ok_iff _ _ _).mp readKeepAlive, not_not.mp mqtt, not_not.mp five]
  · rw [← idBytes]
    exact readProps

theorem decode_connect_panic_iff (flags : UInt8) (payload : Bytes) :
    decodeConnect flags payload = .panic ↔
      flags = 0 ∧ ∃ connectFlags keepAlive properties clientId willSection,
        ConnectHead payload connectFlags keepAlive properties clientId willSection ∧
          connectFlags &&& 0x04 ≠ 0 ∧ WillOverruns willSection := by
  constructor
  · intro panics
    obtain ⟨rfl, connectFlags, keepAlive, properties, clientId, willSection, head⟩ := decode_connect_panics _ _ panics
    rw [decode_connect_head _ _ _ _ _ _ head, decode_connect_tail_panic_iff] at panics
    exact ⟨rfl, connectFlags, keepAlive, properties, clientId, willSection, head, panics⟩
  · rintro ⟨rfl, connectFlags, keepAlive, properties, clientId, willSection, head, overruns⟩
    rw [decode_connect_head _ _ _ _ _ _ head]
    exact (decode_connect_tail_panic_iff _ _ _ _ _).mpr overruns

theorem decode_conn_ack_no_panic (payload : Bytes) : decodeConnAck payload ≠ .panic := by
  apply bind_no_panic _ _ (read_u8_no_panic _)
  intro _ _
  apply bind_no_panic _ _ (read_u8_no_panic _)
  intro _ _
  exact bind_no_panic _ _ (decode_properties_no_panic _ _ _) (fun _ _ => by simp)

theorem decode_publish_no_panic (flags : UInt8) (payload : Bytes) : decodePublish flags payload ≠ .panic := by
  unfold decodePublish
  dsimp only
  split
  · simp
  · apply bind_no_panic _ _ (read_str_no_panic _)
    intro _ _
    apply bind_no_panic _ _ (read_optional_no_panic _ _ _ read_u16_no_panic)
    intro _ _
    exact bind_no_panic _ _ (decode_properties_no_panic _ _ _) (fun _ _ => by simp)

theorem decode_pub_ack_no_panic (payload : Bytes) : decodePubAck payload ≠ .panic := by
  apply bind_no_panic _ _ (read_u16_no_panic _)
  intro _ _
  exact bind_no_panic _ _ (read_reason_no_panic _ _ _ (decode_properties_no_panic _ _)) (fun _ _ => by simp)

theorem decode_subscribe_no_panic (flags : UInt8) (payload : Bytes) : decodeSubscribe flags payload ≠ .panic := by
  unfold decodeSubscribe
  split
  · simp
  · apply bind_no_panic _ _ (read_u16_no_panic _)
    intro _ _
    apply bind_no_panic _ _ (decode_properties_no_panic _ _ _)
    intro _ _
    apply bind_no_panic _ _ (subscription_loop_no_panic _ _)
    intro subscriptions _
    split <;> simp

theorem decode_sub_ack_no_panic (payload : Bytes) : decodeSubAck payload ≠ .panic := by
  apply bind_no_panic _ _ (read_u16_no_panic _)
  intro _ _
  apply bind_no_panic _ _ (decode_properties_no_panic _ _ _)
  intro _ _
  exact bind_no_panic _ _ (by simp [reason_code_loop_all]) (fun _ _ => by simp)

theorem decode_ping_no_panic (packet : Packet) (flags : UInt8) (payload : Bytes) :
    decodePing packet flags payload ≠ .panic := by
  unfold decodePing
  split <;> simp

theorem decode_disconnect_no_panic (payload : Bytes) : decodeDisconnect payload ≠ .panic :=
  bind_no_panic _ _ (read_reason_no_panic _ _ _ (decode_properties_no_panic _ _)) (fun _ _ => by simp)

theorem decode_payload_no_panic (packetType flags : UInt8) (payload : Bytes) (notConnect : packetType ≠ 1) :
    decodePayload packetType flags payload ≠ .panic := by
  unfold decodePayload
  split
  · exact absurd rfl notConnect
  · exact decode_conn_ack_no_panic payload
  · exact decode_publish_no_panic flags payload
  · exact decode_pub_ack_no_panic payload
  · exact decode_subscribe_no_panic flags payload
  · exact decode_sub_ack_no_panic payload
  · exact decode_ping_no_panic _ flags payload
  · exact decode_ping_no_panic _ flags payload
  · exact decode_disconnect_no_panic payload
  · simp

theorem connect_header (header : UInt8) (kind : header >>> 4 = 1) (flags : header &&& 0x0F = 0) : header = 0x10 := by
  have all : header >>> 4 = 1 → header &&& 0x0F = 0 → header = 0x10 := every_byte (by decide +kernel) header
  exact all kind flags

def OverrunningWill (buf : Bytes) : Prop :=
  ∃ remainingLen read body connectFlags keepAlive properties clientId willSection,
    HeaderAt buf 0x10 remainingLen read body ∧ remainingLen.toNat ≤ body.length ∧
      ConnectHead (body.take remainingLen.toNat) connectFlags keepAlive properties clientId willSection ∧
        connectFlags &&& 0x04 ≠ 0 ∧ WillOverruns willSection

theorem decode_packet_no_panic_iff (buf : Bytes) : decodePacket buf ≠ .panic ↔ ¬OverrunningWill buf := by
  rw [not_iff_not]
  constructor
  · intro panics
    cases framing_cases buf with
    | empty nil => simp [nil, decode_packet_nil] at panics
    | badVarint header tail error eq failed => simp [eq, decode_packet_bad_varint header tail error failed] at panics
    | short header val read body headed cut => simp [decode_packet_short buf header val read body headed cut] at panics
    | frame header val read body headed whole =>
        rw [decode_packet_frame buf header val read body headed whole] at panics
        have payloadPanics := ((bind_panic_iff _ _).mp panics).resolve_right (by simp)
        by_cases kind : header >>> 4 = 1
        · rw [kind] at payloadPanics
          obtain ⟨flags, connectFlags, keepAlive, properties, clientId, willSection, overruns⟩ :=
            (decode_connect_panic_iff _ _).mp payloadPanics
          have connect := connect_header header kind flags
          subst connect
          exact ⟨val, read, body, connectFlags, keepAlive, properties, clientId, willSection, headed, whole, overruns⟩
        · exact absurd payloadPanics (decode_payload_no_panic _ _ _ kind)
  · rintro ⟨val, read, body, connectFlags, keepAlive, properties, clientId, willSection, headed, whole, overruns⟩
    have kind : (0x10 : UInt8) >>> 4 = 1 ∧ (0x10 : UInt8) &&& 0x0F = 0 := by decide
    rw [decode_packet_frame buf _ val read body headed whole, bind_panic_iff, kind.1, kind.2]
    exact .inl ((decode_connect_panic_iff _ _).mpr
      ⟨rfl, connectFlags, keepAlive, properties, clientId, willSection, overruns⟩)

theorem will_topic_past_frame_panics :
    decodePacket [0x10, 0x10, 0x00, 0x04, 0x4D, 0x51, 0x54, 0x54, 0x05, 0x04, 0x00, 0x00, 0x00, 0x00, 0x00,
      0x00, 0x00, 0x05] = .panic := by
  decide +kernel

end Pipistrelle.Codec
