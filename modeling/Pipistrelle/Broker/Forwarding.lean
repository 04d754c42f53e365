import Pipistrelle.Broker.Delivery
import Pipistrelle.Broker.Network
import Pipistrelle.Codec.Reencode

set_option autoImplicit false

/- The frame that a received PUBLISH becomes for a subscriber. It leaves the
   sender's properties behind and takes on the subscription's identifier, so that
   it can be longer than what was received. -/
namespace Pipistrelle.Broker

open Codec Router Auth Outcome

-- What the SUBSCRIBE handler registers for a packet that came out of decode_packet.
def FromSubscribe (sub : SubscriptionInfo) : Prop :=
  ∃ buf pkt bytesRead, decodePacket buf = .ok (.subscribe pkt, bytesRead) ∧
    ∃ broker ref, ∃ acceptance ∈ acceptances broker ref (.subscribe pkt),
      sub = ⟨acceptance.clientId, acceptance.qos, acceptance.subscriptionIdentifier⟩

structure StaysDecodable (pkt : Publish) (frame : Bytes) : Prop where
  remaining : ∃ header val read body, HeaderAt frame header val read body ∧ val.toNat ≤ 268435455 ∧ read ≤ 4
  decodes : ∃ forwarded, decodePacket frame = .ok (.publish forwarded, frame.length) ∧ forwarded.topic = pkt.topic ∧
    forwarded.payload = pkt.payload

def identifierLength : Option UInt32 → Nat
  | none => 0
  | some val => 1 + (encodeVarint val).length

-- Topic, packet id, one byte of property length, the identifier, and the payload.
def forwardedLength (pkt : Publish) (subscriptionIdentifier : Option UInt32) : Nat :=
  2 + (strBytes pkt.topic).length + (if 0 < pkt.qos then 2 else 0) + (1 + identifierLength subscriptionIdentifier) +
    pkt.payload.length

def forwardedPacket (pkt : Publish) (packetId : Option UInt16) (subscriptionIdentifier : Option UInt32) : Publish :=
  { dup := false, qos := pkt.qos, retain := pkt.retain, topic := pkt.topic, packetId,
    properties := { subscriptionIdentifier }, payload := pkt.payload }

theorem identifier_length_bound (subscriptionIdentifier : Option UInt32)
    (fits : ∀ val, subscriptionIdentifier = some val → VarintFits val) : identifierLength subscriptionIdentifier ≤ 5 := by
  cases subscriptionIdentifier with
  | none => exact Nat.zero_le 5
  | some val =>
      have short := encode_varint_length 3 val (fits val rfl)
      change 1 + (encodeVarint val).length ≤ 5
      omega

theorem identifier_block_length (subscriptionIdentifier : Option UInt32)
    (fits : ∀ val, subscriptionIdentifier = some val → VarintFits val) :
    ({ subscriptionIdentifier } : PublishProperties).encode.length = 1 + identifierLength subscriptionIdentifier := by
  have bound := identifier_length_bound subscriptionIdentifier fits
  have written : (pushField 0x0B encodeVarint subscriptionIdentifier).length = identifierLength subscriptionIdentifier := by
    cases subscriptionIdentifier with
    | none => rfl
    | some val => exact Nat.add_comm _ 1
  have block : ({ subscriptionIdentifier } : PublishProperties).encode =
      encodeBlock (pushField 0x0B encodeVarint subscriptionIdentifier) := by
    simp [PublishProperties.encode, pushField, pushUserProperties]
  have len : (UInt32.ofNat (pushField 0x0B encodeVarint subscriptionIdentifier).length).toNat < 128 := by
    rw [written, UInt32.toNat_ofNat']
    omega
  rw [block, encodeBlock, List.length_append, encode_varint_last _ len, written]
  rfl

theorem packet_id_length (qos : UInt8) (packetId : Option UInt16) (present : packetId.isSome = true ↔ 0 < qos) :
    (optionalBytes writeU16 packetId).length = if 0 < qos then 2 else 0 := by
  cases packetId with
  | none => rw [if_neg fun positive => by simpa using present.mpr positive, optionalBytes, List.length_nil]
  | some pid => rw [if_pos (present.mp rfl)]; rfl

section Forwarded

variable (pkt : Publish) (packetId : Option UInt16) (subscriptionIdentifier : Option UInt32)

theorem forwarded_payload_length (present : packetId.isSome = true ↔ 0 < pkt.qos)
    (fits : ∀ val, subscriptionIdentifier = some val → VarintFits val) :
    (encodePayload (.publish (forwardedPacket pkt packetId subscriptionIdentifier))).2.length =
      forwardedLength pkt subscriptionIdentifier := by
  simp only [encodePayload, forwardedPacket, List.length_append, write_str_length, packet_id_length pkt.qos packetId present,
    identifier_block_length subscriptionIdentifier fits, forwardedLength]

theorem forwarded_length_bound (encodable : (Packet.publish pkt).Encodable)
    (fits : ∀ val, subscriptionIdentifier = some val → VarintFits val) :
    forwardedLength pkt subscriptionIdentifier < 2 ^ 28 + 5 := by
  obtain ⟨⟨_, present, _, _⟩, bound⟩ := encodable
  have block : 0 < pkt.properties.encode.length := List.length_pos_of_ne_nil (encode_block_ne_nil _)
  have identifier := identifier_length_bound subscriptionIdentifier fits
  simp only [encodePayload, List.length_append, write_str_length, packet_id_length pkt.qos pkt.packetId present] at bound
  unfold forwardedLength
  omega

theorem forwarded_fits (encodable : (Packet.publish pkt).Encodable) (present : packetId.isSome = true ↔ 0 < pkt.qos)
    (fits : ∀ val, subscriptionIdentifier = some val → VarintFits val) :
    (Packet.publish (forwardedPacket pkt packetId subscriptionIdentifier)).Fits :=
  ⟨encodable.1.1, present, encodable.1.2.2.1, by
    simpa [PublishProperties.Fits, forwardedPacket, UserPropertiesFit] using fits⟩

theorem forwarded_encodable (encodable : (Packet.publish pkt).Encodable) (present : packetId.isSome = true ↔ 0 < pkt.qos)
    (fits : ∀ val, subscriptionIdentifier = some val → VarintFits val)
    (short : forwardedLength pkt subscriptionIdentifier ≤ 268435455) :
    (Packet.publish (forwardedPacket pkt packetId subscriptionIdentifier)).Encodable := by
  have length := forwarded_payload_length pkt packetId subscriptionIdentifier present fits
  exact ⟨forwarded_fits pkt packetId subscriptionIdentifier encodable present fits, by omega⟩

theorem forwarded_decodable_iff (encodable : (Packet.publish pkt).Encodable)
    (present : packetId.isSome = true ↔ 0 < pkt.qos)
    (fits : ∀ val, subscriptionIdentifier = some val → VarintFits val) :
    StaysDecodable pkt (encodePacket (.publish (forwardedPacket pkt packetId subscriptionIdentifier))) ↔
      forwardedLength pkt subscriptionIdentifier ≤ 268435455 := by
  have length := forwarded_payload_length pkt packetId subscriptionIdentifier present fits
  have bound := forwarded_length_bound pkt subscriptionIdentifier encodable fits
  constructor
  · rintro ⟨_, forwarded, decoded, _⟩
    by_contra long
    have tooLong : 2 ^ 28 ≤ (UInt32.ofNat (encodePayload
        (.publish (forwardedPacket pkt packetId subscriptionIdentifier))).2.length).toNat := by
      rw [UInt32.toNat_ofNat', length]
      omega
    rw [encodePacket, decode_packet_bad_varint _ _ _ (encode_varint_overlong _ _ tooLong)] at decoded
    cases decoded
  · intro short
    have decoded := encoded_decodes _
      (forwarded_encodable pkt packetId subscriptionIdentifier encodable present fits short)
    obtain ⟨header, val, read, body, headed, _⟩ := (decode_packet_ok_iff _ _ _).mp decoded
    have bounds := header_at_bounds _ _ _ _ _ headed
    exact ⟨⟨header, val, read, body, headed, by omega, bounds.2.1⟩, _, decoded, rfl, rfl⟩

end Forwarded

theorem from_subscribe_identifier (sub : SubscriptionInfo) (registered : FromSubscribe sub) (val : UInt32)
    (held : sub.subscriptionIdentifier = some val) : VarintFits val := by
  obtain ⟨buf, pkt, bytesRead, decoded, broker, ref, acceptance, accepted, rfl⟩ := registered
  obtain ⟨_, _, _, propsFit⟩ := (decoded_encodable buf _ bytesRead decoded).1
  unfold acceptances at accepted
  split at accepted
  · rename_i subscribed _ same
    cases same
    obtain ⟨_, _, rfl⟩ := List.mem_map.mp accepted
    exact propsFit val held
  · simp at accepted

def ForwardsDecodably (state : BrokerState) (pkt : Publish) (sub : SubscriptionInfo) (ref : SessionRef)
    (session : ClientSession) : Prop :=
  ∃ later frame, (state.sendPublishToClient sub.clientId pkt.topic pkt.payload pkt.qos pkt.retain
      sub.subscriptionIdentifier).heap[ref]? = some later ∧ later.sent = session.sent ++ [frame] ∧
    StaysDecodable pkt frame

theorem forwards_within_iff (state : BrokerState) (pkt : Publish) (sub : SubscriptionInfo) (ref : SessionRef)
    (session : ClientSession) (encodable : (Packet.publish pkt).Encodable)
    (fits : ∀ val, sub.subscriptionIdentifier = some val → VarintFits val)
    (held : state.sessions.get sub.clientId = some ref) (inHeap : state.heap[ref]? = some session)
    (isOpen : session.receiverOpen = true) :
    ForwardsDecodably state pkt sub ref session ↔ forwardedLength pkt sub.subscriptionIdentifier ≤ 268435455 := by
  have delivered := deliver_heap pkt.topic pkt.payload pkt.qos pkt.retain state ⟨none, sub⟩ ref
  have reaches : Delivery.reaches state.sessions ref ⟨none, sub⟩ = true := by simp [Delivery.reaches, held]
  rw [if_pos reaches, inHeap, Option.map_some] at delivered
  have sent := receive_sent pkt.topic pkt.payload pkt.qos pkt.retain session sub.subscriptionIdentifier
  rw [if_pos isOpen] at sent
  generalize numbered : (if 0 < pkt.qos then some session.getNextPacketId.1 else none) = packetId at sent
  have present : packetId.isSome = true ↔ 0 < pkt.qos := by
    rw [← numbered]
    by_cases acknowledged : 0 < pkt.qos <;> simp [acknowledged]
  rw [← forwarded_decodable_iff pkt packetId sub.subscriptionIdentifier encodable present fits]
  constructor
  · rintro ⟨later, frame, found, appended, decodable⟩
    cases delivered.symm.trans found
    rw [sent, List.append_cancel_left_eq, List.singleton_inj] at appended
    rw [← appended] at decodable
    exact decodable
  · exact fun decodable => ⟨_, _, delivered, sent, decodable⟩

theorem forwards_decodably_iff (state : BrokerState) (buf : Bytes) (pkt : Publish) (bytesRead : Nat)
    (sub : SubscriptionInfo) (ref : SessionRef) (session : ClientSession)
    (decoded : decodePacket buf = .ok (.publish pkt, bytesRead)) (registered : FromSubscribe sub)
    (held : state.sessions.get sub.clientId = some ref) (inHeap : state.heap[ref]? = some session)
    (isOpen : session.receiverOpen = true) :
    ForwardsDecodably state pkt sub ref session ↔ forwardedLength pkt sub.subscriptionIdentifier ≤ 268435455 :=
  forwards_within_iff state pkt sub ref session (decoded_encodable buf _ bytesRead decoded)
    (from_subscribe_identifier sub registered) held inHeap isOpen

def withSubscriber : BrokerState :=
  (BrokerState.openConnection { auth := ⟨none⟩ } ⟨"c", 60, true, none, none, {}⟩).1

def identified : Subscribe := ⟨1, { subscriptionIdentifier := some 1 }, [⟨"t", 0⟩]⟩

theorem identified_registers : FromSubscribe ⟨"c", 0, some 1⟩ :=
  ⟨encodePacket (.subscribe identified), identified, 11, by decide +kernel, withSubscriber, 0,
    ⟨0, "c", "t", 0, some 1⟩, by decide +kernel, rfl⟩

theorem with_subscriber_open :
    withSubscriber.heap[0]? = some ((newSession ⟨"c", 60, true, none, none, {}⟩).send (encodePacket (connAckReply 0))) := rfl

def oneByte : Publish := ⟨false, 1, false, "t", some 9, {}, [7]⟩

theorem one_byte_forwarded : ForwardsDecodably withSubscriber oneByte ⟨"c", 0, some 1⟩ 0
    ((newSession ⟨"c", 60, true, none, none, {}⟩).send (encodePacket (connAckReply 0))) :=
  (forwards_decodably_iff withSubscriber (encodePacket (.publish oneByte)) oneByte 9 ⟨"c", 0, some 1⟩ 0 _
    (by decide +kernel) identified_registers (by decide +kernel) with_subscriber_open rfl).mpr (by decide +kernel)

-- With 268435451 bytes the largest PUBLISH there is: topic, an empty property block, and the payload.
def withPayload (payload : Bytes) : Publish := ⟨false, 0, false, "t", none, {}, payload⟩

theorem largest_encodable (payload : Bytes) (length : payload.length = 268435451) :
    (Packet.publish (withPayload payload)).Encodable := by
  have topic : (writeStr "t").length = 3 := by decide
  have block := identifier_block_length none nofun
  have fits : (Packet.publish (withPayload payload)).Fits :=
    ⟨by simp [withPayload], by simp [withPayload], (by decide : StrFits "t"), by simp [withPayload, UserPropertiesFit],
      nofun, nofun, nofun, nofun⟩
  refine ⟨fits, ?_⟩
  simp only [encodePayload, withPayload, List.length_append, topic, block, length, optionalBytes, identifierLength,
    List.length_nil]
  decide

theorem largest_not_forwarded :
    ¬∀ (state : BrokerState) (buf : Bytes) (pkt : Publish) (bytesRead : Nat) (sub : SubscriptionInfo) (ref : SessionRef)
      (session : ClientSession), decodePacket buf = .ok (.publish pkt, bytesRead) → FromSubscribe sub →
        state.sessions.get sub.clientId = some ref → state.heap[ref]? = some session → session.receiverOpen = true →
          ForwardsDecodably state pkt sub ref session := by
  intro all
  obtain ⟨payload, length⟩ : ∃ payload : Bytes, payload.length = 268435451 :=
    ⟨List.replicate 268435451 0, List.length_replicate⟩
  have encodable := largest_encodable payload length
  have decoded := decode_encode_packet _ [] encodable
  rw [List.append_nil] at decoded
  have forwarded := all withSubscriber _ (withPayload payload) _ ⟨"c", 0, some 1⟩ 0 _ decoded identified_registers
    (by decide +kernel) with_subscriber_open rfl
  have within := (forwards_within_iff withSubscriber (withPayload payload) ⟨"c", 0, some 1⟩ 0 _ encodable
    (from_subscribe_identifier _ identified_registers) (by decide +kernel) with_subscriber_open rfl).mp forwarded
  have topic : (strBytes "t").length = 1 := by decide
  have identifier : identifierLength (some 1) = 2 := by decide +kernel
  have unacknowledged : ¬0 < (withPayload payload).qos := by simp [withPayload]
  rw [forwardedLength, if_neg unacknowledged, identifier] at within
  simp only [withPayload, topic, length] at within
  omega

end Pipistrelle.Broker
