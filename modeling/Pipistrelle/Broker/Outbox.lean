import Pipistrelle.Broker.InFlight
import Pipistrelle.Broker.PacketIds
import Pipistrelle.Broker.Replies

set_option autoImplicit false

/- What each event does to one session: it puts mail into the channel, and a PUBACK or
   the end of a connection does its part. Mail has no packet ids; the counter of the
   session numbers it. -/
namespace Pipistrelle.Broker

open Codec Router Auth

inductive Mail where
  | publish (publication : Publication) (subscriptionIdentifier : Option UInt32)
  | reply (packet : Packet)

def ClientSession.take (self : ClientSession) : Mail → ClientSession
  | .publish publication identifier =>
      self.receive publication.topic publication.payload publication.qos publication.retain identifier
  | .reply packet => self.send (encodePacket packet)

def Network.reads (self : Network) (k : Nat) (ref : SessionRef) : Bool :=
  (self.connections[k]?).any fun connection => connection.status = .reading ∧ connection.session = ref

def Network.holds (self : Network) (k : Nat) (ref : SessionRef) : Bool :=
  (self.connections[k]?).any fun connection => connection.status ≠ .closed ∧ connection.session = ref

def BrokerState.published (self : BrokerState) (publication : Publication) (ref : SessionRef) : List Mail :=
  (self.served publication.topic ref).map fun delivery => .publish publication delivery.sub.subscriptionIdentifier

def BrokerState.answers (self : BrokerState) (packet : Packet) (ref : SessionRef) : List Mail :=
  ((self.heap[ref]?).bind fun session => self.answer session packet).toList.map .reply

def BrokerState.publicationOf (self : BrokerState) (session : ClientSession) : Packet → Option Publication
  | .publish pkt =>
      if self.auth.authorize (session.username.getD "") pkt.topic "write" = true then
        some ⟨session.clientId, pkt.topic, pkt.payload, pkt.qos, pkt.retain⟩
      else none
  | _ => none

-- The deliveries of a publish to the session, and then the reply to its own packet.
def BrokerState.mail (self : BrokerState) (publication : Option Publication) (own : Bool) (packet : Packet)
    (ref : SessionRef) : List Mail :=
  (publication.map fun publication => self.published publication ref).getD [] ++
    if own then self.answers packet ref else []

def Network.mail (self : Network) (ref : SessionRef) (event : Event) : List Mail :=
  match event with
  | .packet k packet => self.broker.mail (self.publication event) (self.reads k ref) packet ref
  | .remotePublish topic payload qos retain => self.broker.published ⟨"bridge_client", topic, payload, qos, retain⟩ ref
  | _ => []

def ClientSession.acknowledge (packet : Packet) (self : ClientSession) : ClientSession :=
  match packet with
  | .pubAck pkt => self.removeInFlight pkt.packetId
  | _ => self

def Network.settle (self : Network) (ref : SessionRef) (event : Event) (session : ClientSession) : ClientSession :=
  match event with
  | .packet k packet => if self.reads k ref then session.acknowledge packet else session
  | .close k | .writerEnds k => if self.holds k ref then { session with receiverOpen := false } else session
  | _ => session

def Network.act (self : Network) (ref : SessionRef) (event : Event) (session : ClientSession) : ClientSession :=
  self.settle ref event ((self.mail ref event).foldl ClientSession.take session)

def Event.Decoded : Event → Prop
  | .packet _ received => Decodable received
  | .connect pkt => Decodable (.connect pkt)
  | .remotePublish topic payload qos retain =>
      ∃ dup packetId properties, Decodable (.publish ⟨dup, qos, retain, topic, packetId, properties, payload⟩)
  | _ => True

theorem take_published (publication : Publication) (deliveries : List Delivery) (session : ClientSession) :
    (deliveries.map fun delivery => Mail.publish publication delivery.sub.subscriptionIdentifier).foldl ClientSession.take
        session =
      (deliveries.map (·.sub.subscriptionIdentifier)).foldl
        (ClientSession.receive publication.topic publication.payload publication.qos publication.retain) session := by
  rw [List.foldl_map, List.foldl_map]
  rfl

theorem publish_heap (state : BrokerState) (publication : Publication) (ref : SessionRef) :
    (state.publish publication).heap[ref]? =
      state.heap[ref]?.map fun session => (state.published publication ref).foldl ClientSession.take session := by
  rw [BrokerState.publish, route_publish_heap]
  simp only [BrokerState.published, take_published]

theorem reply_heap (state : BrokerState) (ref other : SessionRef) (packet : Packet) :
    (state.reply ref packet).heap[other]? =
      state.heap[other]?.map fun session => if ref = other then session.take (.reply packet) else session := by
  rw [BrokerState.reply, modify_session_heap]
  by_cases own : ref = other
  · simp only [if_pos own]
    rfl
  · simp only [if_neg own, Option.map_id_fun', id_eq]

theorem reply_pub_ack_heap (state : BrokerState) (ref other : SessionRef) (pkt : Publish) (reasonCode : UInt8)
    (decodable : Decodable (.publish pkt)) :
    (state.replyPubAck ref pkt reasonCode).heap[other]? = state.heap[other]?.map fun session =>
      (if ref = other ∧ pkt.qos = 1 then [.reply (.pubAck ⟨pkt.packetId.getD 0, reasonCode, {}⟩)] else []).foldl
        ClientSession.take session := by
  unfold BrokerState.replyPubAck
  by_cases acknowledged : pkt.qos = 1
  · obtain ⟨pid, present⟩ := decodable_packet_id pkt decodable acknowledged
    rw [if_pos acknowledged, present]
    dsimp only
    rw [reply_heap]
    by_cases own : ref = other
    · simp [own, acknowledged]
    · simp [own]
  · simp [acknowledged]

theorem process_heap (state : BrokerState) (ref other : SessionRef) (packet : Packet) (session : ClientSession)
    (held : state.heap[ref]? = some session) (decodable : Decodable packet) :
    (processClientPacket state ref packet).1.heap[other]? = state.heap[other]?.map fun before =>
      (if ref = other then ClientSession.acknowledge packet else id)
        ((state.mail (state.publicationOf session packet) (ref = other) packet other).foldl ClientSession.take before) := by
  have mine : ref = other → state.answers packet other = (state.answer session packet).toList.map Mail.reply := by
    intro own
    rw [BrokerState.answers, ← own, held, Option.bind_some]
  unfold processClientPacket BrokerState.mail
  simp only [held]
  cases packet with
  | publish pkt =>
      dsimp only [BrokerState.processPublish, BrokerState.publicationOf]
      by_cases allowed : state.auth.authorize (session.username.getD "") pkt.topic "write" = true
      · have published := publish_heap state ⟨session.clientId, pkt.topic, pkt.payload, pkt.qos, pkt.retain⟩ other
        rw [BrokerState.publish] at published
        rw [if_pos allowed, if_pos allowed, reply_pub_ack_heap _ _ _ _ _ decodable, published, Option.map_map]
        by_cases own : ref = other
        · by_cases acknowledged : pkt.qos = 1
          · simp [own, mine own, BrokerState.answer, acknowledged, allowed, ClientSession.acknowledge, Function.comp_def]
          · simp [own, mine own, BrokerState.answer, acknowledged, ClientSession.acknowledge, Function.comp_def]
        · simp [own, Function.comp_def]
      · rw [if_neg allowed, if_neg allowed, reply_pub_ack_heap _ _ _ _ _ decodable]
        by_cases own : ref = other
        · by_cases acknowledged : pkt.qos = 1
          · simp [own, mine own, BrokerState.answer, acknowledged, allowed, ClientSession.acknowledge]
          · simp [own, mine own, BrokerState.answer, acknowledged, ClientSession.acknowledge]
        · simp [own]
  | subscribe pkt =>
      obtain ⟨heap, codes⟩ := process_filters_result state session pkt.properties.subscriptionIdentifier [] pkt.subscriptions
      dsimp only [BrokerState.processSubscribe]
      rw [reply_heap, heap, codes, List.nil_append]
      by_cases own : ref = other
      · simp [own, mine own, BrokerState.publicationOf, BrokerState.answer, BrokerState.subAck, ClientSession.acknowledge]
      · simp [own, BrokerState.publicationOf]
  | pubAck pkt =>
      dsimp only [BrokerState.spawn]
      rw [modify_session_heap]
      by_cases own : ref = other
      · simp [own, mine own, BrokerState.publicationOf, BrokerState.answer, ClientSession.acknowledge]
      · simp [own, BrokerState.publicationOf]
  | pingReq =>
      rw [reply_heap]
      by_cases own : ref = other
      · simp [own, mine own, BrokerState.publicationOf, BrokerState.answer, ClientSession.acknowledge]
      · simp [own, BrokerState.publicationOf]
  | connect _ | connAck _ | subAck _ | pingResp | disconnect _ =>
      by_cases own : ref = other
      · simp [own, mine own, BrokerState.publicationOf, BrokerState.answer, ClientSession.acknowledge]
      · simp [own, BrokerState.publicationOf]

theorem publication_reading (net : Network) (k : Nat) (connection : Connection) (session : ClientSession) (packet : Packet)
    (found : net.connections[k]? = some connection) (reading : connection.status = .reading)
    (held : net.broker.heap[connection.session]? = some session) :
    net.publication (.packet k packet) = net.broker.publicationOf session packet := by
  cases packet with
  | publish pkt => simp [Network.publication, found, reading, held, BrokerState.publicationOf]
  | connect _ | connAck _ | pubAck _ | subscribe _ | subAck _ | pingReq | pingResp | disconnect _ => rfl

theorem publication_unread (net : Network) (k : Nat) (packet : Packet)
    (unread : ∀ connection session, net.connections[k]? = some connection → connection.status = .reading →
      net.broker.heap[connection.session]? ≠ some session) : net.publication (.packet k packet) = none := by
  cases packet with
  | publish pkt =>
      rw [Network.publication, Option.bind_eq_none_iff]
      intro connection found
      split
      · rename_i reading
        rw [Option.bind_eq_none_iff]
        exact fun session held => absurd held (unread connection session found reading)
      · rfl
  | connect _ | connAck _ | pubAck _ | subscribe _ | subAck _ | pingReq | pingResp | disconnect _ => rfl

theorem act_unread (net : Network) (k : Nat) (packet : Packet) (ref : SessionRef) (session : ClientSession)
    (held : net.broker.heap[ref]? = some session)
    (unread : ∀ connection session, net.connections[k]? = some connection → connection.status = .reading →
      net.broker.heap[connection.session]? ≠ some session) : net.act ref (.packet k packet) session = session := by
  have nothing : net.reads k ref = false := by
    rw [Network.reads, Option.any_eq_false]
    intro connection found
    refine decide_eq_false ?_
    rintro ⟨reading, own⟩
    exact unread connection session found reading (own ▸ held)
  simp [Network.act, Network.mail, Network.settle, publication_unread net k packet unread, nothing, BrokerState.mail]

theorem holds_open (net : Network) (k : Nat) (connection : Connection) (isOpen : net.Open k connection) (ref : SessionRef) :
    net.holds k ref = decide (connection.session = ref) := by
  simp [Network.holds, isOpen.1, isOpen.2]

theorem holds_none (net : Network) (k : Nat) (ref : SessionRef) (never : ∀ connection, ¬net.Open k connection) :
    net.holds k ref = false := by
  rw [Network.holds, Option.any_eq_false]
  intro connection found
  exact decide_eq_false fun both => never connection ⟨found, both.1⟩

-- The channel of the connection's session loses its receiver, by the cleanup or by the writer.
theorem closed_session (net : Network) (k : Nat) (ref : SessionRef) (session : ClientSession)
    (held : net.broker.heap[ref]? = some session) (act : Connection → Network)
    (closes : ∀ connection, (act connection).broker.heap =
      net.broker.heap.modify connection.session fun session => { session with receiverOpen := false }) :
    (net.onConnection k act).broker.heap[ref]? =
      some (if net.holds k ref then { session with receiverOpen := false } else session) := by
  rcases on_connection_cases net k act with ⟨same, never⟩ | ⟨connection, isOpen, same⟩
  · rw [same, holds_none net k ref never, held]
    rfl
  · rw [same, closes, List.getElem?_modify, held, holds_open net k connection isOpen]
    by_cases own : connection.session = ref
    · simp [own]
    · simp [own]

section Run

variable (verifyPassword : String → String → Bool)

theorem packet_session (net : Network) (k : Nat) (packet : Packet) (decodable : Decodable packet) (ref : SessionRef)
    (session : ClientSession) (held : net.broker.heap[ref]? = some session) :
    (net.step verifyPassword (.packet k packet)).broker.heap[ref]? = some (net.act ref (.packet k packet) session) := by
  rw [Network.step]
  rcases on_connection_cases net k _ with ⟨same, never⟩ | ⟨connection, isOpen, same⟩
  · rw [same, act_unread net k packet ref session held ?_]
    · exact held
    · intro connection _ found reading _
      exact never connection ⟨found, by rw [reading]; decide⟩
  · rw [same]
    by_cases reading : connection.status = .reading
    · rw [if_pos reading, receive_broker]
      cases owner : net.broker.heap[connection.session]? with
      | none =>
          have idle : (processClientPacket net.broker connection.session packet).1 = net.broker := by
            rw [processClientPacket, owner]
          rw [idle, act_unread net k packet ref session held ?_]
          · exact held
          · intro other _ found _
            cases isOpen.1.symm.trans found
            rw [owner]
            simp
      | some current =>
          have reads : net.reads k ref = decide (connection.session = ref) := by
            simp [Network.reads, isOpen.1, reading]
          rw [process_heap net.broker connection.session ref packet current owner decodable, held, Option.map_some,
            Network.act, Network.mail, Network.settle, publication_reading net k connection current packet isOpen.1 reading
            owner, reads]
          by_cases own : connection.session = ref
          · simp [own]
          · simp [own]
    · rw [if_neg reading, act_unread net k packet ref session held ?_]
      · exact held
      · intro other _ found isReading
        cases isOpen.1.symm.trans found
        exact absurd isReading reading

theorem step_session (net : Network) (event : Event) (decoded : event.Decoded) (ref : SessionRef) (session : ClientSession)
    (held : net.broker.heap[ref]? = some session) :
    (net.step verifyPassword event).broker.heap[ref]? = some (net.act ref event session) := by
  cases event with
  | connect pkt =>
      rw [Network.step]
      split
      · exact register_heap_old net pkt ref session held
      · exact held
  | packet k packet => exact packet_session verifyPassword net k packet decoded ref session held
  | close k =>
      exact closed_session net k ref session held _ fun connection =>
        close_connection_heap net.broker connection.clientId connection.session
  | panic k => exact on_connection_rule (·.broker.heap[ref]? = some session) net k _ held fun _ _ => held
  | writerEnds k => exact closed_session net k ref session held _ fun _ => rfl
  | remotePublish topic payload qos retain =>
      have published := publish_heap net.broker ⟨"bridge_client", topic, payload, qos, retain⟩ ref
      rw [held] at published
      exact published

end Run

theorem open_connection_auth (state : BrokerState) (pkt : Connect) : (state.openConnection pkt).1.auth = state.auth := by
  simp only [BrokerState.openConnection, register_allocated]
  split <;> rfl

theorem close_connection_auth (state : BrokerState) (clientId : String) (session : SessionRef) :
    (state.closeConnection clientId session).auth = state.auth := by
  have removed : (state.closeConnection clientId session).auth = (state.removeSession clientId).auth := rfl
  rw [removed]
  unfold BrokerState.removeSession
  split
  · rfl
  · dsimp only
    split
    · rfl
    · split <;> rfl

-- The credentials are read once, at the start.
theorem step_auth (verifyPassword : String → String → Bool) (net : Network) (event : Event) :
    (net.step verifyPassword event).broker.auth = net.broker.auth := by
  cases event with
  | connect pkt =>
      rw [Network.step]
      split
      · exact open_connection_auth net.broker pkt
      · rfl
  | packet k packet =>
      refine on_connection_rule (·.broker.auth = net.broker.auth) net k _ rfl fun connection _ => ?_
      split
      · rw [receive_broker]
        exact (process_client_packet_evolves net.broker connection.session packet).auth
      · rfl
  | close k =>
      exact on_connection_rule (·.broker.auth = net.broker.auth) net k _ rfl fun connection _ =>
        close_connection_auth net.broker connection.clientId connection.session
  | panic k => exact on_connection_rule (·.broker.auth = net.broker.auth) net k _ rfl fun _ _ => rfl
  | writerEnds k => exact on_connection_rule (·.broker.auth = net.broker.auth) net k _ rfl fun _ _ => rfl
  | remotePublish topic payload qos retain =>
      exact (route_publish_evolves net.broker "bridge_client" topic payload qos retain).auth

theorem run_auth (verifyPassword : String → String → Bool) (net : Network) (events : List Event) :
    (events.foldl (Network.step verifyPassword) net).broker.auth = net.broker.auth := by
  induction events generalizing net with
  | nil => rfl
  | cons event rest ih => exact (ih _).trans (step_auth verifyPassword net event)

def Mail.takesId : Mail → Nat
  | .publish publication _ => if 0 < publication.qos then 1 else 0
  | .reply _ => 0

def Mail.packet (n : Nat) : Mail → Packet
  | .publish publication subscriptionIdentifier =>
      .publish {
        dup := false, qos := publication.qos, retain := publication.retain, topic := publication.topic
        packetId := if 0 < publication.qos then some (idOf n) else none
        properties := { subscriptionIdentifier }, payload := publication.payload }
  | .reply answer => answer

def numbered (n : Nat) : List Mail → List Packet
  | [] => []
  | mail :: rest => mail.packet n :: numbered (n + mail.takesId) rest

def idsTaken (mails : List Mail) : Nat := (mails.map Mail.takesId).sum

theorem numbered_append (n : Nat) (mails more : List Mail) :
    numbered n (mails ++ more) = numbered n mails ++ numbered (n + idsTaken mails) more := by
  induction mails generalizing n with
  | nil => rfl
  | cons mail rest ih =>
      rw [List.cons_append, numbered, ih, numbered, List.cons_append, Nat.add_assoc]
      rfl

theorem ids_append (mails more : List Mail) : idsTaken (mails ++ more) = idsTaken mails + idsTaken more := by
  rw [idsTaken, List.map_append, List.sum_append]
  rfl

theorem take_keeps (session : ClientSession) (mail : Mail) :
    (session.take mail).receiverOpen = session.receiverOpen ∧
      (session.receiverOpen = false → (session.take mail).sent = session.sent) := by
  cases mail with
  | publish publication identifier =>
      refine ⟨receive_open _ _ _ _ session identifier, fun closed => ?_⟩
      rw [ClientSession.take, receive_sent, closed]
      rfl
  | reply packet =>
      refine ⟨by rw [ClientSession.take, send_keeps], fun closed => ?_⟩
      rw [ClientSession.take, send_sent, closed]
      rfl

theorem take_numbers (session : ClientSession) (mail : Mail) (n : Nat) (current : session.getNextPacketId.1 = idOf n) :
    (session.take mail).getNextPacketId.1 = idOf (n + mail.takesId) ∧
      (session.receiverOpen = true → (session.take mail).sent = session.sent ++ [encodePacket (mail.packet n)]) := by
  cases mail with
  | publish publication identifier =>
      refine ⟨?_, fun isOpen => ?_⟩
      · have stepped := step_id session
          (.deliver publication.topic publication.payload publication.qos publication.retain identifier) n current
        simp only [SessionEvent.numbered, decide_eq_true_eq] at stepped
        exact stepped
      · rw [ClientSession.take, receive_sent, if_pos isOpen, current]
        rfl
  | reply packet =>
      refine ⟨?_, fun isOpen => ?_⟩
      · have counter : (session.take (.reply packet)).nextPacketId = session.nextPacketId := by
          rw [ClientSession.take, send_keeps]
        rw [(next_packet_id_value _).1, counter, ← (next_packet_id_value session).1]
        exact current
      · rw [ClientSession.take, send_sent, if_pos isOpen]
        rfl

-- By induction on the mail; each piece finds the counter where the one before it left it.
theorem take_all (session : ClientSession) (mails : List Mail) (n : Nat) (current : session.getNextPacketId.1 = idOf n)
    (isOpen : session.receiverOpen = true) :
    (mails.foldl ClientSession.take session).getNextPacketId.1 = idOf (n + idsTaken mails) ∧
      (mails.foldl ClientSession.take session).receiverOpen = true ∧
      (mails.foldl ClientSession.take session).sent = session.sent ++ (numbered n mails).map encodePacket := by
  induction mails generalizing session n with
  | nil => exact ⟨current, isOpen, (List.append_nil _).symm⟩
  | cons mail rest ih =>
      obtain ⟨next, sent⟩ := take_numbers session mail n current
      have stays := (take_keeps session mail).1.trans isOpen
      obtain ⟨later, laterOpen, laterSent⟩ := ih (session.take mail) (n + mail.takesId) next stays
      refine ⟨?_, laterOpen, ?_⟩
      · rw [List.foldl_cons, later, Nat.add_assoc]
        rfl
      · rw [List.foldl_cons, laterSent, sent isOpen, numbered, List.map_cons, List.append_assoc]
        rfl

theorem take_all_closed (session : ClientSession) (mails : List Mail) (closed : session.receiverOpen = false) :
    (mails.foldl ClientSession.take session).receiverOpen = false ∧
      (mails.foldl ClientSession.take session).sent = session.sent := by
  induction mails generalizing session with
  | nil => exact ⟨closed, rfl⟩
  | cons mail rest ih =>
      obtain ⟨stays, sent⟩ := take_keeps session mail
      obtain ⟨later, laterSent⟩ := ih (session.take mail) (stays.trans closed)
      exact ⟨later, laterSent.trans (sent closed)⟩

theorem settle_keeps (net : Network) (ref : SessionRef) (event : Event) (session : ClientSession) :
    (net.settle ref event session).sent = session.sent ∧
      (net.settle ref event session).nextPacketId = session.nextPacketId ∧
      (session.receiverOpen = false → (net.settle ref event session).receiverOpen = false) := by
  have same : ∀ packet, (session.acknowledge packet).sent = session.sent ∧
      (session.acknowledge packet).nextPacketId = session.nextPacketId ∧
      (session.acknowledge packet).receiverOpen = session.receiverOpen := by
    intro packet
    cases packet with
    | connect _ | connAck _ | publish _ | pubAck _ | subscribe _ | subAck _ | pingReq | pingResp | disconnect _ =>
        exact ⟨rfl, rfl, rfl⟩
  unfold Network.settle
  cases event with
  | packet k packet =>
      dsimp only
      split
      · exact ⟨(same packet).1, (same packet).2.1, fun closed => (same packet).2.2.trans closed⟩
      · exact ⟨rfl, rfl, id⟩
  | close k | writerEnds k =>
      dsimp only
      split
      · exact ⟨rfl, rfl, fun _ => rfl⟩
      · exact ⟨rfl, rfl, id⟩
  | connect _ | panic _ | remotePublish _ _ _ _ => exact ⟨rfl, rfl, id⟩

def Network.arrivals (ref : SessionRef) (self : Network) (event : Event) : List Mail :=
  if (self.broker.heap[ref]?).any (·.receiverOpen) then self.mail ref event else []

section Run

variable (verifyPassword : String → String → Bool)

def Network.outbox (ref : SessionRef) (self : Network) (events : List Event) : List Mail :=
  Run.outputs (Network.step verifyPassword) (Network.arrivals ref) self events

theorem closed_channel (net : Network) (events : List Event) (decoded : ∀ event ∈ events, event.Decoded)
    (ref : SessionRef) (session : ClientSession) (held : net.broker.heap[ref]? = some session)
    (closed : session.receiverOpen = false) :
    net.outbox verifyPassword ref events = [] ∧
      ∃ later, (events.foldl (Network.step verifyPassword) net).broker.heap[ref]? = some later ∧
        later.sent = session.sent ∧ later.receiverOpen = false := by
  induction events generalizing net session with
  | nil => exact ⟨rfl, session, held, rfl, closed⟩
  | cons event rest ih =>
      obtain ⟨here, more⟩ := List.forall_mem_cons.mp decoded
      obtain ⟨stays, sent⟩ := take_all_closed session (net.mail ref event) closed
      obtain ⟨kept, _, closes⟩ := settle_keeps net ref event ((net.mail ref event).foldl ClientSession.take session)
      have stepped := step_session verifyPassword net event here ref session held
      obtain ⟨nothing, later, heldLater, same, shut⟩ := ih (net.step verifyPassword event) more (net.act ref event session)
        stepped (closes stays)
      refine ⟨?_, later, heldLater, same.trans (kept.trans sent), shut⟩
      have silent : net.arrivals ref event = [] := by simp [Network.arrivals, held, closed]
      exact (congrArg₂ (· ++ ·) silent nothing)

theorem channel_numbered (net : Network) (events : List Event) (decoded : ∀ event ∈ events, event.Decoded)
    (ref : SessionRef) (session : ClientSession) (held : net.broker.heap[ref]? = some session)
    (isOpen : session.receiverOpen = true) (n : Nat) (current : session.getNextPacketId.1 = idOf n) :
    ∃ later, (events.foldl (Network.step verifyPassword) net).broker.heap[ref]? = some later ∧
      later.sent = session.sent ++ (numbered n (net.outbox verifyPassword ref events)).map encodePacket ∧
      (later.receiverOpen = true →
        later.getNextPacketId.1 = idOf (n + idsTaken (net.outbox verifyPassword ref events))) := by
  induction events generalizing net session n with
  | nil => exact ⟨session, held, (List.append_nil _).symm, fun _ => current⟩
  | cons event rest ih =>
      obtain ⟨here, more⟩ := List.forall_mem_cons.mp decoded
      have stepped := step_session verifyPassword net event here ref session held
      have arrives : net.arrivals ref event = net.mail ref event := by simp [Network.arrivals, held, isOpen]
      have outbox : net.outbox verifyPassword ref (event :: rest) =
          net.mail ref event ++ (net.step verifyPassword event).outbox verifyPassword ref rest :=
        congrArg (· ++ _) arrives
      obtain ⟨counter, _, sent⟩ := take_all session (net.mail ref event) n current isOpen
      obtain ⟨kept, keptCounter, _⟩ := settle_keeps net ref event ((net.mail ref event).foldl ClientSession.take session)
      rw [outbox, numbered_append, ids_append, List.map_append, ← List.append_assoc, ← sent, ← kept, ← Nat.add_assoc]
      cases still : (net.act ref event session).receiverOpen with
      | true =>
          have next : (net.act ref event session).getNextPacketId.1 = idOf (n + idsTaken (net.mail ref event)) := by
            rw [(next_packet_id_value _).1, Network.act, keptCounter, ← (next_packet_id_value _).1]
            exact counter
          exact ih (net.step verifyPassword event) more (net.act ref event session) stepped still _ next
      | false =>
          obtain ⟨nothing, later, heldLater, same, shut⟩ := closed_channel verifyPassword (net.step verifyPassword event)
            rest more ref _ stepped still
          refine ⟨later, heldLater, ?_, fun still => absurd (still.symm.trans shut) (by decide)⟩
          rw [nothing, same]
          exact (List.append_nil _).symm

theorem registered_later (net : Network) (pkt : Connect) (events : List Event)
    (decoded : ∀ event ∈ events, event.Decoded) :
    ∃ later, (events.foldl (Network.step verifyPassword) (net.register pkt)).broker.heap[net.broker.heap.length]? =
        some later ∧
      later.sent = (connAckReply 0 ::
        numbered 0 ((net.register pkt).outbox verifyPassword net.broker.heap.length events)).map encodePacket ∧
      (later.receiverOpen = true → later.getNextPacketId.1 =
        idOf (idsTaken ((net.register pkt).outbox verifyPassword net.broker.heap.length events))) := by
  have fresh : (net.register pkt).broker.heap[net.broker.heap.length]? =
      some ((newSession pkt).send (encodePacket (connAckReply 0))) := by
    rw [register_heap, List.getElem?_concat_length]
  have counter : ((newSession pkt).send (encodePacket (connAckReply 0))).getNextPacketId.1 = idOf 0 :=
    first_id _ (by rw [send_keeps]; rfl)
  obtain ⟨later, held, sent, next⟩ := channel_numbered verifyPassword (net.register pkt) events decoded _ _ fresh
    (by rw [send_keeps]; rfl) 0 counter
  rw [Nat.zero_add] at next
  refine ⟨later, held, sent.trans ?_, next⟩
  rw [send_sent]
  rfl

theorem registered_channel (net : Network) (pkt : Connect) (events : List Event) (decoded : ∀ event ∈ events, event.Decoded) :
    (events.foldl (Network.step verifyPassword) (net.register pkt)).broker.sentTo net.broker.heap.length =
      (connAckReply 0 :: numbered 0 ((net.register pkt).outbox verifyPassword net.broker.heap.length events)).map
        encodePacket := by
  obtain ⟨later, held, sent, _⟩ := registered_later verifyPassword net pkt events decoded
  rw [BrokerState.sentTo, held, Option.map_some, Option.getD_some, sent]

end Run

end Pipistrelle.Broker
