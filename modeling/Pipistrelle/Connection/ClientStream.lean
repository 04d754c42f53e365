import Pipistrelle.Broker.Forwarding
import Pipistrelle.Broker.GrantedQos
import Pipistrelle.Broker.Outbox
import Pipistrelle.Connection.MainLoop

set_option autoImplicit false

/- The other end of a connection. All that the broker puts into the channel of a session,
   one event after another, is one stream of whole packets, so that a client with a receive
   loop like the broker's own gets them however the bytes arrive. -/
namespace Pipistrelle.Connection

open Codec Router Auth ChunkedDecode Broker

def clientReads (reads : List Bytes) : LoopState Unit Unit :=
  reads.foldl (feed packetDecoder fun _ _ => ((), none)) ⟨(), [], .waiting []⟩

theorem drain_encoded (packets : List Packet) (encodable : ∀ packet ∈ packets, packet.Encodable) :
    drain (packetDecoder : Decoder UInt8 Packet (Exit Unit)) (fun _ _ => ((), none)) () []
      (packets.map encodePacket).flatten = ⟨(), packets, .waiting []⟩ := by
  have drained := drain_items (packetDecoder : Decoder UInt8 Packet (Exit Unit)) (fun _ _ => ((), none)) () []
    (packets.map fun packet => (packet, encodePacket packet)) (decide_packet_more [] decode_packet_nil)
    (by
      intro item member
      obtain ⟨packet, inside, rfl⟩ := List.mem_map.mp member
      exact (decide_packet_item_iff _ _ _).mpr (encoded_decodes packet (encodable packet inside)))
    (fun _ _ _ => rfl)
  simpa [List.flatMap_map, List.flatMap_def, Function.comp_def] using drained

theorem client_reads_unfinished (packets : List Packet) (encodable : ∀ packet ∈ packets, packet.Encodable) (cut : Bytes)
    (unfinished : decodePacket cut = .err .incomplete) (reads : List Bytes)
    (delivered : reads.flatten = (packets.map encodePacket).flatten ++ cut) :
    clientReads reads = ⟨(), packets, .waiting cut⟩ := by
  have drained : drain (packetDecoder : Decoder UInt8 Packet (Exit Unit)) (fun _ _ => ((), none)) () []
      ((packets.map encodePacket).flatten ++ cut) = ⟨(), packets, .waiting cut⟩ := by
    rw [drain_append, drain_encoded packets encodable, feed]
    exact drain_more _ _ _ _ _ (decide_packet_more _ unfinished)
  unfold clientReads
  cases reads with
  | nil =>
      have blank : (packets.map encodePacket).flatten ++ cut = [] := delivered.symm
      rw [blank, drain_more _ _ _ _ _ (decide_packet_more [] decode_packet_nil)] at drained
      have empty := (List.append_eq_nil_iff.mp blank).2
      rw [empty] at drained ⊢
      exact drained
  | cons read rest =>
      rw [feed_chunks, delivered, feed]
      exact drained

theorem client_reads_packets (packets : List Packet) (encodable : ∀ packet ∈ packets, packet.Encodable)
    (reads : List Bytes) (delivered : reads.flatten = (packets.map encodePacket).flatten) :
    clientReads reads = ⟨(), packets, .waiting []⟩ :=
  client_reads_unfinished packets encodable [] decode_packet_nil reads (delivered.trans (List.append_nil _).symm)

theorem incomplete_prefix (front whole : Bytes) (begins : front <+: whole) (unfinished : decodePacket whole = .err .incomplete) :
    decodePacket front = .err .incomplete := by
  obtain ⟨back, rfl⟩ := begins
  by_contra decided
  exact decided ((decode_packet_append front back decided).symm.trans unfinished)

theorem client_reads_prefix (packets : List Packet) (encodable : ∀ packet ∈ packets, packet.Encodable) (cut : Bytes)
    (unfinished : decodePacket cut = .err .incomplete) (reads : List Bytes)
    (arrived : reads.flatten <+: (packets.map encodePacket).flatten ++ cut) :
    ∃ n unread, clientReads reads = ⟨(), packets.take n, .waiting unread⟩ := by
  rcases List.prefix_or_prefix_of_prefix arrived (List.prefix_append _ cut) with inside | behind
  · have bytes : ∀ sent : List Packet, (sent.map fun packet => (packet, encodePacket packet)).flatMap Prod.snd =
        (sent.map encodePacket).flatten := by
      intro sent
      rw [List.flatMap_map, List.flatMap_def]
    rw [← bytes packets] at inside
    obtain ⟨n, rest, same, waits⟩ := prefix_items (packetDecoder : Decoder UInt8 Packet (Exit Unit)) _
      (decide_packet_more [] decode_packet_nil)
      (by
        intro item member
        obtain ⟨packet, held, rfl⟩ := List.mem_map.mp member
        exact (decide_packet_item_iff _ _ _).mpr (encoded_decodes packet (encodable packet held)))
      reads.flatten inside
    rw [← List.map_take, bytes (packets.take n)] at same
    have waiting : decodePacket rest = .err .incomplete := by
      simp only [packetDecoder, decidePacket] at waits
      split at waits
      · cases waits
      · assumption
      · cases waits
      · cases waits
    exact ⟨n, rest, client_reads_unfinished _ (fun packet member => encodable packet (List.mem_of_mem_take member)) rest
      waiting reads same⟩
  · obtain ⟨unread, same⟩ := behind
    rw [← same] at arrived
    have waiting := incomplete_prefix unread cut ((List.prefix_append_right_inj _).mp arrived) unfinished
    refine ⟨packets.length, unread, ?_⟩
    rw [List.take_length]
    exact client_reads_unfinished packets encodable unread waiting reads same.symm

theorem stream_prefix_iff (first second : List Packet) (encodable : ∀ packet ∈ first ++ second, packet.Encodable) :
    (first.map encodePacket).flatten <+: (second.map encodePacket).flatten ↔ first <+: second := by
  obtain ⟨encodableFirst, encodableSecond⟩ := List.forall_mem_append.mp encodable
  constructor
  · rintro ⟨rest, same⟩
    have drained := drain_encoded second encodableSecond
    rw [← same, drain_append, drain_encoded first encodableFirst, feed] at drained
    have grows := drain_handed (packetDecoder : Decoder UInt8 Packet (Exit Unit)) (fun _ _ => ((), none)) () first ([] ++ rest)
    dsimp only at drained
    rw [drained] at grows
    exact grows
  · rintro ⟨rest, rfl⟩
    rw [List.map_append, List.flatten_append]
    exact List.prefix_append _ _

theorem ping_before_pings : ([Packet.pingReq].map encodePacket).flatten <+: ([.pingReq, .pingReq].map encodePacket).flatten ↔
    [Packet.pingReq] <+: [.pingReq, .pingReq] :=
  stream_prefix_iff [.pingReq] [.pingReq, .pingReq] fun packet member => by
    have same : packet = .pingReq := by simpa using member
    rw [same]
    exact ⟨trivial, by decide⟩

theorem conn_ack_encodable (reasonCode : UInt8) : (connAckReply reasonCode).Encodable := by
  refine ⟨?_, ?_⟩
  · simp [Packet.Fits, connAckReply, ConnAckProperties.Fits, UserPropertiesFit]
  · have blank : ({} : ConnAckProperties).encode = [0] := by decide +kernel
    simp [connAckReply, encodePayload, blank]

theorem pub_ack_encodable (packetId : UInt16) (reasonCode : UInt8) :
    (Packet.pubAck ⟨packetId, reasonCode, {}⟩).Encodable := by
  refine ⟨by simp [Packet.Fits, PubAckProperties.Fits, UserPropertiesFit], ?_⟩
  have blank : ({} : PubAckProperties).encode = [0] := by decide +kernel
  have short : (encodeReason ({} : PubAckProperties).present reasonCode ({} : PubAckProperties).encode).length ≤ 2 := by
    unfold encodeReason
    split <;> simp [blank]
  have total : (encodePayload (.pubAck ⟨packetId, reasonCode, {}⟩)).2.length =
      2 + (encodeReason ({} : PubAckProperties).present reasonCode ({} : PubAckProperties).encode).length :=
    List.length_append
  omega

theorem sub_ack_encodable (state : BrokerState) (session : ClientSession) (pkt : Subscribe)
    (encodable : (Packet.subscribe pkt).Encodable) : (state.subAck session pkt).Encodable := by
  refine ⟨by simp [Packet.Fits, BrokerState.subAck, SubAckProperties.Fits, UserPropertiesFit], ?_⟩
  have blank : ({} : SubAckProperties).encode = [0] := by decide +kernel
  have block : 0 < pkt.properties.encode.length := List.length_pos_of_ne_nil (encode_block_ne_nil _)
  have filters : pkt.subscriptions.length ≤
      (pkt.subscriptions.flatMap fun sub => writeStr sub.topicFilter ++ [sub.options]).length := by
    induction pkt.subscriptions with
    | nil => exact Nat.le_refl 0
    | cons sub rest ih =>
        simp only [List.flatMap_cons, List.length_cons, List.length_append]
        omega
  have bound := encodable.2
  have total : (encodePayload (.subscribe pkt)).2.length = 2 + pkt.properties.encode.length +
      (pkt.subscriptions.flatMap fun sub => writeStr sub.topicFilter ++ [sub.options]).length := by
    simp only [encodePayload, List.length_append]
    rfl
  have codes : (encodePayload (state.subAck session pkt)).2.length = 2 + 1 + pkt.subscriptions.length := by
    simp only [BrokerState.subAck, encodePayload, List.length_append, List.length_map, blank]
    rfl
  omega

theorem answer_encodable (state : BrokerState) (session : ClientSession) (packet answer : Packet)
    (decodable : Decodable packet) (answered : state.answer session packet = some answer) : answer.Encodable := by
  obtain ⟨buf, bytesRead, decoded⟩ := decodable
  unfold BrokerState.answer at answered
  split at answered
  · split at answered
    · cases answered
      exact pub_ack_encodable _ _
    · cases answered
  · cases answered
    exact sub_ack_encodable state session _ (decoded_encodable buf _ bytesRead decoded)
  · cases answered
    exact ⟨trivial, by decide⟩
  · cases answered

theorem publication_received (net : Network) (event : Event) (decoded : event.Decoded) (publication : Publication)
    (found : net.publication event = some publication) :
    ∃ dup packetId properties, (Packet.publish ⟨dup, publication.qos, publication.retain, publication.topic, packetId,
      properties, publication.payload⟩).Encodable := by
  cases event with
  | packet k packet =>
      cases packet with
      | publish pkt =>
          obtain ⟨buf, bytesRead, received⟩ := decoded
          obtain ⟨connection, _, reading⟩ := Option.bind_eq_some_iff.mp found
          split at reading
          · obtain ⟨session, _, authorized⟩ := Option.bind_eq_some_iff.mp reading
            split at authorized
            · cases authorized
              exact ⟨pkt.dup, pkt.packetId, pkt.properties, decoded_encodable buf _ bytesRead received⟩
            · cases authorized
          · cases reading
      | connect _ | connAck _ | pubAck _ | subscribe _ | subAck _ | pingReq | pingResp | disconnect _ => cases found
  | remotePublish topic payload qos retain =>
      obtain ⟨dup, packetId, properties, buf, bytesRead, received⟩ := decoded
      cases found
      exact ⟨dup, packetId, properties, decoded_encodable buf _ bytesRead received⟩
  | connect _ | close _ | panic _ | writerEnds _ => cases found

def asPublish (publication : Publication) : Publish :=
  ⟨false, publication.qos, publication.retain, publication.topic, none, {}, publication.payload⟩

def Roomy (ref : SessionRef) (net : Network) (event : Event) : Prop :=
  ∀ publication ∈ net.publication event, ∀ delivery ∈ net.broker.served publication.topic ref,
    forwardedLength (asPublish publication) delivery.sub.subscriptionIdentifier ≤ 268435455

instance (ref : SessionRef) (net : Network) (event : Event) : Decidable (Roomy ref net event) :=
  inferInstanceAs (Decidable (∀ _ ∈ _, _))

structure Writable (net : Network) : Prop where
  refines : Refines net.broker.router (tableOf net.accepted)
  identifiers : ∀ acceptance ∈ net.accepted, ∀ val, acceptance.subscriptionIdentifier = some val → VarintFits val

theorem published_encodable (net : Network) (writable : Writable net) (event : Event) (decoded : event.Decoded)
    (ref : SessionRef) (roomy : Roomy ref net event) (publication : Publication)
    (found : net.publication event = some publication) (n : Nat) :
    ∀ mail ∈ net.broker.published publication ref, (mail.packet n).Encodable := by
  intro mail member
  obtain ⟨delivery, served, rfl⟩ := List.mem_map.mp member
  obtain ⟨dup, packetId, properties, received⟩ := publication_received net event decoded publication found
  obtain ⟨acceptance, serves⟩ := delivery_serves net writable.refines publication.topic delivery
    (List.mem_filter.mp served).1
  have recorded : acceptance ∈ net.accepted :=
    ledger_rows (fun _ acceptance => acceptance ∈ net.accepted) [] net.accepted (fun _ _ nothing => by cases nothing)
      (fun _ member => member) acceptance.key acceptance serves.row
  have fits : ∀ val, delivery.sub.subscriptionIdentifier = some val → VarintFits val := by
    rw [serves.sub]
    exact writable.identifiers acceptance recorded
  have present : (if 0 < publication.qos then some (idOf n) else none).isSome = true ↔ 0 < publication.qos := by
    split <;> simp [*]
  exact forwarded_encodable _ _ _ received present fits (roomy publication found delivery served)

theorem mail_encodable (net : Network) (writable : Writable net) (event : Event) (decoded : event.Decoded)
    (ref : SessionRef) (roomy : Roomy ref net event) (n : Nat) : ∀ mail ∈ net.mail ref event, (mail.packet n).Encodable := by
  have published := published_encodable net writable event decoded ref roomy
  cases event with
  | packet k packet =>
      intro mail member
      rcases List.mem_append.mp member with delivered | answered
      · cases found : net.publication (.packet k packet) with
        | none => simp [found] at delivered
        | some publication =>
            rw [found] at delivered
            exact published publication found n mail delivered
      · split at answered
        · obtain ⟨answer, reply, rfl⟩ := List.mem_map.mp answered
          obtain ⟨session, _, made⟩ := Option.bind_eq_some_iff.mp (Option.mem_toList.mp reply)
          exact answer_encodable net.broker session packet answer decoded made
        · cases answered
  | remotePublish topic payload qos retain => exact published _ rfl n
  | connect _ | close _ | panic _ | writerEnds _ => exact fun mail member => by cases member

theorem numbered_encodable (mails : List Mail) (each : ∀ n, ∀ mail ∈ mails, (mail.packet n).Encodable) (n : Nat) :
    ∀ packet ∈ numbered n mails, packet.Encodable := by
  induction mails generalizing n with
  | nil => exact fun packet member => by cases member
  | cons mail rest ih =>
      rw [numbered, List.forall_mem_cons]
      exact ⟨each n mail (by simp), ih (fun n other member => each n other (by simp [member])) _⟩

theorem acceptances_identifiers (broker : BrokerState) (ref : SessionRef) (packet : Packet) (decodable : Decodable packet) :
    ∀ acceptance ∈ acceptances broker ref packet, ∀ val, acceptance.subscriptionIdentifier = some val → VarintFits val := by
  intro acceptance accepted
  cases packet with
  | subscribe pkt =>
      obtain ⟨buf, bytesRead, decoded⟩ := decodable
      exact from_subscribe_identifier ⟨acceptance.clientId, acceptance.qos, acceptance.subscriptionIdentifier⟩
        ⟨buf, pkt, bytesRead, decoded, broker, ref, acceptance, accepted, rfl⟩
  | connect _ | connAck _ | publish _ | pubAck _ | subAck _ | pingReq | pingResp | disconnect _ =>
      simp [acceptances] at accepted

section Run

variable (verifyPassword : String → String → Bool)

theorem step_accepted (net : Network) (event : Event) :
    (net.step verifyPassword event).accepted = net.accepted ∨ ∃ k connection packet, event = .packet k packet ∧
      (net.step verifyPassword event).accepted = net.accepted ++ acceptances net.broker connection packet := by
  cases event with
  | connect pkt =>
      rw [Network.step]
      split
      · exact .inl rfl
      · exact .inl rfl
  | packet k packet =>
      refine on_connection_rule (fun after => after.accepted = net.accepted ∨ ∃ j connection other,
        Event.packet k packet = .packet j other ∧
          after.accepted = net.accepted ++ acceptances net.broker connection other) net k _ (.inl rfl) ?_
      intro connection _
      split
      · exact .inr ⟨k, connection.session, packet, rfl, receive_accepted net k connection packet⟩
      · exact .inl rfl
  | close k => exact on_connection_rule (fun after => after.accepted = net.accepted ∨ _) net k _ (.inl rfl) fun _ _ => .inl rfl
  | panic k => exact on_connection_rule (fun after => after.accepted = net.accepted ∨ _) net k _ (.inl rfl) fun _ _ => .inl rfl
  | writerEnds k =>
      exact on_connection_rule (fun after => after.accepted = net.accepted ∨ _) net k _ (.inl rfl) fun _ _ => .inl rfl
  | remotePublish topic payload qos retain => exact .inl rfl

theorem step_writable (net : Network) (event : Event) (decoded : event.Decoded) (writable : Writable net) :
    Writable (net.step verifyPassword event) := by
  refine ⟨step_refines verifyPassword net event writable.refines, ?_⟩
  rcases step_accepted verifyPassword net event with same | ⟨k, ref, packet, rfl, more⟩
  · rw [same]
    exact writable.identifiers
  · rw [more]
    intro acceptance member
    rcases List.mem_append.mp member with old | new
    · exact writable.identifiers acceptance old
    · exact acceptances_identifiers net.broker ref packet decoded acceptance new

theorem outbox_encodable (ref : SessionRef) (net : Network) (events : List Event)
    (decoded : ∀ event ∈ events, event.Decoded) (writable : Writable net)
    (roomy : Run.Throughout (Network.step verifyPassword) (Roomy ref) net events) (n : Nat) :
    ∀ mail ∈ net.outbox verifyPassword ref events, (mail.packet n).Encodable := by
  induction events generalizing net with
  | nil => exact fun mail member => by cases member
  | cons event rest ih =>
      obtain ⟨here, more⟩ := List.forall_mem_cons.mp decoded
      intro mail member
      rcases List.mem_append.mp member with now | later
      · unfold Network.arrivals at now
        split at now
        · exact mail_encodable net writable event here ref roomy.1 n mail now
        · cases now
      · exact ih (net.step verifyPassword event) more (step_writable verifyPassword net event here writable) roomy.2 mail later

theorem run_writable (net : Network) (events : List Event) (decoded : ∀ event ∈ events, event.Decoded)
    (writable : Writable net) : Writable (events.foldl (Network.step verifyPassword) net) := by
  induction events generalizing net with
  | nil => exact writable
  | cons event rest ih =>
      obtain ⟨here, more⟩ := List.forall_mem_cons.mp decoded
      exact ih _ more (step_writable verifyPassword net event here writable)

end Run

-- The identifiers of stored subscriptions came with a SUBSCRIBE of an earlier run.
def StoredWritable (db : Database) : Prop :=
  ∀ row ∈ db.subscriptions.entries, ∀ val, row.2.subId = some val → VarintFits val

theorem boot_writable (auth : AuthConfig) (db : Database) (bridgeSender : Option (List (String × Bytes)))
    (stored : StoredWritable db) : Writable (Network.boot auth db bridgeSender) := by
  refine ⟨(boot_recorded auth db bridgeSender).refines, ?_⟩
  intro acceptance member
  obtain ⟨row, held, rfl⟩ := List.mem_map.mp member
  exact stored row held

theorem stream_encodable (verifyPassword : String → String → Bool) (auth : AuthConfig) (db : Database)
    (bridgeSender : Option (List (String × Bytes))) (stored : StoredWritable db) (before after : List Event)
    (decoded : ∀ event ∈ before ++ after, event.Decoded) (net : Network)
    (reached : net = before.foldl (Network.step verifyPassword) (Network.boot auth db bridgeSender)) (pkt : Connect)
    (accepted : authenticated verifyPassword auth pkt = true)
    (roomy : Run.Throughout (Network.step verifyPassword) (Roomy net.broker.heap.length) (net.register pkt) after) :
    ((.connect pkt :: after).foldl (Network.step verifyPassword) net).broker.sentTo net.broker.heap.length =
        (connAckReply 0 :: numbered 0 ((net.register pkt).outbox verifyPassword net.broker.heap.length after)).map
          encodePacket ∧
      ∀ packet ∈ connAckReply 0 :: numbered 0 ((net.register pkt).outbox verifyPassword net.broker.heap.length after),
        packet.Encodable := by
  obtain ⟨early, late⟩ := List.forall_mem_append.mp decoded
  have writable := run_writable verifyPassword _ before early (boot_writable auth db bridgeSender stored)
  have started : (Network.boot auth db bridgeSender).broker.auth = auth := boot_auth auth db
  have sameAuth : net.broker.auth = auth := by rw [reached, run_auth, started]
  rw [← reached] at writable
  rw [← sameAuth] at accepted
  have connected : net.step verifyPassword (.connect pkt) = net.register pkt := by rw [Network.step, if_pos accepted]
  have registered : Writable (net.register pkt) := ⟨connected ▸ step_refines verifyPassword net (.connect pkt) writable.refines,
    writable.identifiers⟩
  rw [List.foldl_cons, connected]
  refine ⟨registered_channel verifyPassword net pkt after late, ?_⟩
  rw [List.forall_mem_cons]
  refine ⟨conn_ack_encodable 0, numbered_encodable _ (fun n => ?_) 0⟩
  exact outbox_encodable verifyPassword _ (net.register pkt) after late registered roomy n

def subscribedThenSent : List Event :=
  [.packet 0 (.subscribe ⟨7, {}, [⟨"t", 1⟩]⟩), .remotePublish "t" [1] 1 false]

theorem subscribed_then_sent_decoded : ∀ event ∈ subscribedThenSent, event.Decoded := by
  intro event member
  rcases List.mem_cons.mp member with rfl | member
  · refine ⟨encodePacket _, _, encoded_decodes _ ⟨?_, by decide +kernel⟩⟩
    simp [Packet.Fits, SubscribeProperties.Fits, UserPropertiesFit, StrFits]
    decide
  · have same : event = .remotePublish "t" [1] 1 false := by simpa using member
    rw [same]
    refine ⟨false, some 1, {}, encodePacket _, _, encoded_decodes _ ⟨?_, by decide +kernel⟩⟩
    simp [Packet.Fits, PublishProperties.Fits, UserPropertiesFit, StrFits]
    decide

end Pipistrelle.Connection
