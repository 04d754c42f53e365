import Pipistrelle.Broker.Provenance
import Pipistrelle.Broker.Recovery
import Pipistrelle.Broker.SharedGroups
import Pipistrelle.Broker.Takeover

set_option autoImplicit false

/- The unacknowledged messages of one client, over connections, publishes, PUBACKs and
   restarts of the broker. A message is in the in-flight map of the session that it was
   sent to, and a new connection starts with a map of its own. -/
namespace Pipistrelle.Broker

open Codec Router Auth

def Quiet (before after : BrokerState) : Prop :=
  ∀ (ref : SessionRef) (session : ClientSession), before.heap[ref]? = some session → ∃ later, after.heap[ref]? = some later ∧
    later.clientId = session.clientId ∧ later.inFlight = session.inFlight

theorem quiet_same (before after : BrokerState) (same : after.heap = before.heap) : Quiet before after :=
  fun _ session held => ⟨session, same ▸ held, rfl, rfl⟩

theorem quiet_trans (first second third : BrokerState) (early : Quiet first second) (late : Quiet second third) :
    Quiet first third := by
  intro ref session held
  obtain ⟨middle, heldMiddle, sameId, sameMap⟩ := early ref session held
  obtain ⟨later, heldLater, sameIdLater, sameMapLater⟩ := late ref middle heldMiddle
  exact ⟨later, heldLater, sameIdLater.trans sameId, sameMapLater.trans sameMap⟩

theorem modify_quiet (state : BrokerState) (target : SessionRef) (change : ClientSession → ClientSession)
    (sameId : ∀ session, (change session).clientId = session.clientId)
    (sameMap : ∀ session, (change session).inFlight = session.inFlight) : Quiet state (state.modifySession target change) := by
  intro ref session held
  refine ⟨if target = ref then change session else session, ?_, ?_, ?_⟩
  · rw [BrokerState.modifySession, List.getElem?_modify, held]
    rfl
  · split
    · exact sameId session
    · rfl
  · split
    · exact sameMap session
    · rfl

theorem reply_quiet (state : BrokerState) (target : SessionRef) (packet : Packet) : Quiet state (state.reply target packet) := by
  refine modify_quiet state target _ ?_ ?_ <;>
    · intro session
      rw [send_keeps]

theorem reply_pub_ack_quiet (state : BrokerState) (target : SessionRef) (pkt : Publish) (reasonCode : UInt8) :
    Quiet state (state.replyPubAck target pkt reasonCode) := by
  unfold BrokerState.replyPubAck
  split
  · cases pkt.packetId with
    | none => exact quiet_same _ _ rfl
    | some pid => exact reply_quiet _ _ _
  · exact quiet_same _ _ rfl

theorem process_filters_heap (state : BrokerState) (session : ClientSession) (subscriptionIdentifier : Option UInt32)
    (reasonCodes : List UInt8) (subs : List Subscription) :
    (state.processFilters session subscriptionIdentifier reasonCodes subs).1.heap = state.heap :=
  process_filters_keep (·.heap) (fun state _ _ _ _ => (subscribe_keeps state _ _ _ _).1) session subscriptionIdentifier
    subs state reasonCodes

theorem process_quiet (state : BrokerState) (ref : SessionRef) (packet : Packet) (noAck : ∀ pkt, packet ≠ .pubAck pkt)
    (silent : ∀ session pkt, state.heap[ref]? = some session → packet = .publish pkt →
      ¬state.auth.authorize (session.username.getD "") pkt.topic "write" = true) :
    Quiet state (processClientPacket state ref packet).1 := by
  unfold processClientPacket
  cases held : state.heap[ref]? with
  | none => exact quiet_same _ _ rfl
  | some session =>
      dsimp only
      cases packet with
      | publish pkt =>
          dsimp only [BrokerState.processPublish]
          rw [if_neg (silent session pkt held rfl)]
          exact reply_pub_ack_quiet _ _ _ _
      | subscribe pkt =>
          dsimp only [BrokerState.processSubscribe]
          exact quiet_trans _ _ _ (quiet_same _ _ (process_filters_heap state session _ _ _)) (reply_quiet _ _ _)
      | pubAck pkt => exact absurd rfl (noAck pkt)
      | pingReq => exact reply_quiet _ _ _
      | connect _ | connAck _ | subAck _ | pingResp | disconnect _ => exact quiet_same _ _ rfl

variable (verifyPassword : String → String → Bool)

theorem step_quiet (net : Network) (event : Event) (noConnect : ∀ pkt, event ≠ .connect pkt)
    (noAck : ∀ k pkt, event ≠ .packet k (.pubAck pkt)) (silent : net.publication event = none) :
    Quiet net.broker (net.step verifyPassword event).broker := by
  cases event with
  | connect pkt => exact absurd rfl (noConnect pkt)
  | packet k packet =>
      rw [Network.step]
      rcases on_connection_cases net k _ with ⟨same, _⟩ | ⟨connection, isOpen, same⟩
      · rw [same]
        exact quiet_same _ _ rfl
      · rw [same]
        split
        · rename_i reading
          rw [receive_broker]
          refine process_quiet _ _ _ (fun pkt same => noAck k pkt (by rw [same])) ?_
          rintro session pkt held rfl authorized
          simp [Network.publication, isOpen.1, reading, held, authorized] at silent
        · exact quiet_same _ _ rfl
  | close k =>
      refine on_connection_rule (fun after => Quiet net.broker after.broker) net k _ (quiet_same _ _ rfl) ?_
      intro connection _
      have closed := close_connection_heap net.broker connection.clientId connection.session
      refine quiet_trans _ (net.broker.modifySession connection.session fun session => { session with receiverOpen := false })
        _ (modify_quiet _ _ _ (fun _ => rfl) (fun _ => rfl)) (quiet_same _ _ closed)
  | panic k =>
      exact on_connection_rule (fun after => Quiet net.broker after.broker) net k _ (quiet_same _ _ rfl)
        fun _ _ => quiet_same _ _ rfl
  | writerEnds k =>
      exact on_connection_rule (fun after => Quiet net.broker after.broker) net k _ (quiet_same _ _ rfl)
        fun _ _ => modify_quiet _ _ _ (fun _ => rfl) (fun _ => rfl)
  | remotePublish topic payload qos retain => cases silent

theorem step_unmoved (net : Network) (event : Event) (noConnect : ∀ pkt, event ≠ .connect pkt) :
    Unmoved net (net.step verifyPassword event) := by
  have same := unmoved_refl net net rfl
  cases event with
  | connect pkt => exact absurd rfl (noConnect pkt)
  | packet k packet =>
      refine on_connection_rule (Unmoved net) net k _ same fun connection isOpen => ?_
      split
      · unfold Network.receive
        dsimp only
        split
        · exact set_status_unmoved net _ (by rfl) k .ending connection isOpen
        · exact unmoved_refl net _ rfl
      · exact same
  | close k =>
      refine on_connection_rule (Unmoved net) net k _ same fun connection isOpen => ?_
      exact set_status_unmoved net _ (by rfl) k .closed connection isOpen
  | panic k =>
      refine on_connection_rule (Unmoved net) net k _ same fun connection isOpen => ?_
      exact set_status_unmoved net net rfl k .closed connection isOpen
  | writerEnds k => exact on_connection_rule (Unmoved net) net k _ same fun _ _ => unmoved_refl net _ rfl
  | remotePublish topic payload qos retain => exact unmoved_refl net _ rfl

theorem step_sessions (net : Network) (event : Event) (noConnect : ∀ pkt, event ≠ .connect pkt) (clientId : String)
    (ref : SessionRef) (get : (net.step verifyPassword event).broker.sessions.get clientId = some ref) :
    net.broker.sessions.get clientId = some ref := by
  revert get
  cases event with
  | connect pkt => exact absurd rfl (noConnect pkt)
  | packet k packet =>
      refine on_connection_rule (fun after => after.broker.sessions.get clientId = some ref → _) net k _ id ?_
      intro connection _
      split
      · rw [receive_broker, (process_client_packet_evolves net.broker connection.session packet).sessions]
        exact id
      · exact id
  | close k =>
      refine on_connection_rule (fun after => after.broker.sessions.get clientId = some ref → _) net k _ id ?_
      intro connection _ get
      have closed : (net.broker.closeConnection connection.clientId connection.session).sessions.get clientId = some ref := get
      rw [close_connection_sessions] at closed
      split at closed
      · cases closed
      · exact closed
  | panic k => exact on_connection_rule (fun after => after.broker.sessions.get clientId = some ref → _) net k _ id fun _ _ => id
  | writerEnds k =>
      exact on_connection_rule (fun after => after.broker.sessions.get clientId = some ref → _) net k _ id fun _ _ => id
  | remotePublish topic payload qos retain =>
      intro get
      rw [← (route_publish_keeps topic payload qos retain net.broker "bridge_client").1]
      exact get

structure Unacked where
  packetId : UInt16
  topic : String
  payload : Bytes
deriving DecidableEq, Repr

def Network.enqueues (self : Network) (clientId : String) (event : Event) : List Unacked :=
  match self.publication event, self.broker.sessions.get clientId with
  | some publication, some ref =>
      match self.broker.heap[ref]? with
      | some session =>
          if publication.qos = 1 ∧ session.receiverOpen = true then
            (session.packetIds (self.broker.served publication.topic ref).length).map
              (⟨·, publication.topic, publication.payload⟩)
          else []
      | none => []
  | _, _ => []

def Network.acknowledges (self : Network) (clientId : String) : Event → Option UInt16
  | .packet k (.pubAck pkt) => self.connections[k]?.bind fun connection =>
      if connection.clientId = clientId ∧ connection.status = .reading then some pkt.packetId else none
  | _ => none

def Network.history (self : Network) (clientId : String) (event : Event) (unacked : List Unacked) : List Unacked :=
  (unacked.filter fun message => self.acknowledges clientId event ≠ some message.packetId) ++
    self.enqueues clientId event

-- The client's newest connection, if it is open, has all of its unacknowledged messages.
def Network.Remembers (self : Network) (clientId : String) (unacked : List Unacked) : Prop :=
  ∀ k connection, self.Open k connection → connection.clientId = clientId → self.Newest k clientId →
    ∃ session, self.broker.heap[connection.session]? = some session ∧ ∀ message ∈ unacked,
      session.inFlight.get message.packetId = some ⟨message.packetId, message.topic, message.payload, 1⟩

-- The client connects with nothing to remember, and no delivery to its session takes the
-- packet id of another unacknowledged message.
structure KeepsUnacked (net : Network) (clientId : String) (unacked : List Unacked) (event : Event) : Prop where
  connects : ∀ pkt, event = .connect pkt → pkt.clientId = clientId →
    authenticated verifyPassword net.broker.auth pkt = true → unacked = []
  publishes : ∀ publication, net.publication event = some publication → 0 < publication.qos →
    ∀ k connection session, net.Open k connection → connection.clientId = clientId → net.Newest k clientId →
      net.broker.heap[connection.session]? = some session → ∀ message ∈ unacked,
        message.packetId ∈ session.packetIds (net.broker.served publication.topic connection.session).length →
          message.topic = publication.topic ∧ message.payload = publication.payload ∧ publication.qos = 1

structure Seated (net : Network) (clientId : String) : Prop where
  seats : ∀ k connection, net.Open k connection →
    ∃ session, net.broker.heap[connection.session]? = some session ∧ session.clientId = connection.clientId
  registered : ∀ k connection ref, net.Open k connection → connection.clientId = clientId → net.Newest k clientId →
    net.broker.sessions.get clientId = some ref → ref = connection.session

theorem enqueues_silent (net : Network) (clientId : String) (event : Event) (silent : net.publication event = none) :
    net.enqueues clientId event = [] := by
  unfold Network.enqueues
  rw [silent]

theorem history_subset (net : Network) (clientId : String) (event : Event) (silent : net.publication event = none)
    (unacked : List Unacked) : net.history clientId event unacked ⊆ unacked := by
  rw [Network.history, enqueues_silent net clientId event silent, List.append_nil]
  exact List.filter_subset_self _

theorem mem_enqueues (net : Network) (clientId : String) (event : Event) (publication : Publication)
    (found : net.publication event = some publication) (message : Unacked) (member : message ∈ net.enqueues clientId event) :
    ∃ ref session, net.broker.sessions.get clientId = some ref ∧ net.broker.heap[ref]? = some session ∧
      publication.qos = 1 ∧ message.packetId ∈ session.packetIds (net.broker.served publication.topic ref).length ∧
      message.topic = publication.topic ∧ message.payload = publication.payload := by
  unfold Network.enqueues at member
  rw [found] at member
  cases get : net.broker.sessions.get clientId with
  | none => simp [get] at member
  | some ref =>
      simp only [get] at member
      cases held : net.broker.heap[ref]? with
      | none => simp [held] at member
      | some session =>
          simp only [held] at member
          split at member
          · rename_i both
            obtain ⟨pid, taken, rfl⟩ := List.mem_map.mp member
            exact ⟨ref, session, rfl, held, both.1, taken, rfl, rfl⟩
          · cases member

theorem enqueues_sent (net : Network) (clientId : String) (event : Event) (publication : Publication)
    (found : net.publication event = some publication) (qos : publication.qos = 1) (ref : SessionRef)
    (session : ClientSession) (get : net.broker.sessions.get clientId = some ref)
    (held : net.broker.heap[ref]? = some session) (isOpen : session.receiverOpen = true) :
    ∃ later, (net.broker.publish publication).heap[ref]? = some later ∧
      later.sent = session.sent ++ frames publication.topic publication.payload publication.qos publication.retain
        ((net.enqueues clientId event).map fun message => some message.packetId)
        ((net.broker.served publication.topic ref).map (·.sub.subscriptionIdentifier)) := by
  have ids : (net.enqueues clientId event).map (fun message => some message.packetId) =
      session.frameIds publication.qos ((net.broker.served publication.topic ref).map
        (·.sub.subscriptionIdentifier)).length := by
    rw [Network.enqueues, found, get]
    simp only [held, qos, isOpen, and_self, if_true, List.length_map, ClientSession.frameIds]
    rw [if_pos (by decide), List.map_map]
    rfl
  have heap := route_publish_heap publication.topic publication.payload publication.qos publication.retain net.broker
    publication.fromClient ref
  rw [held] at heap
  refine ⟨_, heap, ?_⟩
  rw [receive_all_sent, if_pos isOpen, ids]

theorem acknowledges_publication (net : Network) (clientId : String) (event : Event) (publication : Publication)
    (found : net.publication event = some publication) : net.acknowledges clientId event = none := by
  cases event with
  | packet k packet =>
      cases packet with
      | pubAck pkt => cases found
      | _ => rfl
  | _ => rfl

theorem history_publication (net : Network) (clientId : String) (event : Event) (publication : Publication)
    (found : net.publication event = some publication) (unacked : List Unacked) :
    net.history clientId event unacked = unacked ++ net.enqueues clientId event := by
  rw [Network.history, acknowledges_publication net clientId event publication found]
  simp

theorem publication_connections (net : Network) (event : Event) (publication : Publication)
    (found : net.publication event = some publication) :
    (net.step verifyPassword event).connections = net.connections := by
  cases event with
  | packet k packet =>
      cases packet with
      | publish pkt =>
          refine on_connection_rule (fun after => after.connections = net.connections) net k _ rfl fun connection _ => ?_
          split
          · have fine : (processClientPacket net.broker connection.session (.publish pkt)).2 = none := by
              unfold processClientPacket
              cases net.broker.heap[connection.session]? <;> rfl
            unfold Network.receive
            dsimp only
            rw [fine]
            rfl
          · rfl
      | _ => cases found
  | remotePublish topic payload qos retain => rfl
  | _ => cases found

theorem publication_in_flight (net : Network) (event : Event) (publication : Publication)
    (found : net.publication event = some publication) (ref : SessionRef) (session : ClientSession)
    (held : net.broker.heap[ref]? = some session) :
    ∃ later, (net.step verifyPassword event).broker.heap[ref]? = some later ∧ later.clientId = session.clientId ∧
      ∀ pid, later.inFlight.get pid =
        if 0 < publication.qos ∧ pid ∈ session.packetIds (net.broker.served publication.topic ref).length then
          some ⟨pid, publication.topic, publication.payload, publication.qos⟩
        else session.inFlight.get pid := by
  have heap := route_publish_heap publication.topic publication.payload publication.qos publication.retain net.broker
    publication.fromClient ref
  rw [held, Option.map_some] at heap
  obtain ⟨same, heldSame, identity, _⟩ := (route_publish_evolves net.broker publication.fromClient publication.topic
    publication.payload publication.qos publication.retain).heap ref session held
  rw [heap] at heldSame
  have quiet : Quiet (net.broker.publish publication) (net.step verifyPassword event).broker := by
    rcases publication_step verifyPassword net event publication found with same | ⟨target, pkt, same⟩
    · rw [same]
      exact quiet_same _ _ rfl
    · rw [same]
      exact reply_pub_ack_quiet _ _ _ _
  obtain ⟨later, heldLater, sameId, sameMap⟩ := quiet ref _ heap
  refine ⟨later, heldLater, ?_, fun pid => ?_⟩
  · rw [sameId, Option.some.inj heldSame]
    exact congrArg Identity.clientId identity
  · rw [sameMap, receive_all_in_flight, ClientSession.frameIds, List.length_map]
    by_cases acknowledged : 0 < publication.qos
    · simp [acknowledged]
    · have absent : ∀ n, some pid ∉ List.replicate n (none : Option UInt16) := by
        intro n member
        cases (List.mem_replicate.mp member).2
      rw [if_neg acknowledged, if_neg (absent _), if_neg (fun both => acknowledged both.1)]

theorem open_same (before after : Network) (same : after.connections = before.connections) (k : Nat)
    (connection : Connection) : after.Open k connection ↔ before.Open k connection := by
  rw [Network.Open, Network.Open, same]

theorem newest_same (before after : Network)
    (same : after.connections.map (·.clientId) = before.connections.map (·.clientId)) (k : Nat) (clientId : String) :
    after.Newest k clientId ↔ before.Newest k clientId := by
  rw [Network.Newest, Network.Newest, same]

theorem publication_remembers_iff (net : Network) (clientId : String) (unacked : List Unacked) (event : Event)
    (publication : Publication) (found : net.publication event = some publication) (seated : Seated net clientId)
    (remembers : net.Remembers clientId unacked) :
    (net.step verifyPassword event).Remembers clientId (net.history clientId event unacked) ↔
      KeepsUnacked verifyPassword net clientId unacked event := by
  have connections := publication_connections verifyPassword net event publication found
  have sameOpen := open_same net _ connections
  have sameNewest := newest_same net _ (congrArg (List.map fun connection => connection.clientId) connections)
  have after := publication_in_flight verifyPassword net event publication found
  rw [history_publication net clientId event publication found]
  constructor
  · intro remembersAfter
    constructor
    · intro pkt same
      rw [same] at found
      cases found
    intro other foundOther acknowledged k connection session isOpen ours newest held message member taken
    rw [found] at foundOther
    cases foundOther
    obtain ⟨_, heldLater, all⟩ := remembersAfter k connection ((sameOpen k connection).mpr isOpen) ours
      ((sameNewest k clientId).mpr newest)
    obtain ⟨later, heldAfter, _, values⟩ := after connection.session session held
    rw [heldAfter] at heldLater
    cases heldLater
    have value := all message (List.mem_append_left _ member)
    rw [values, if_pos ⟨acknowledged, taken⟩, Option.some.injEq, InFlightMessage.mk.injEq] at value
    exact ⟨value.2.1.symm, value.2.2.1.symm, value.2.2.2⟩
  · intro keeps k connection isOpen ours newest
    rw [sameOpen] at isOpen
    rw [sameNewest] at newest
    obtain ⟨session, held, all⟩ := remembers k connection isOpen ours newest
    obtain ⟨later, heldAfter, _, values⟩ := after connection.session session held
    refine ⟨later, heldAfter, fun message member => ?_⟩
    rw [values]
    rcases List.mem_append.mp member with old | new
    · by_cases taken : 0 < publication.qos ∧
          message.packetId ∈ session.packetIds (net.broker.served publication.topic connection.session).length
      · obtain ⟨topic, payload, qos⟩ := keeps.publishes publication found taken.1 k connection session isOpen ours newest
          held message old taken.2
        rw [if_pos taken, topic, payload, qos]
      · rw [if_neg taken]
        exact all message old
    · obtain ⟨ref, target, get, heldRef, qos, taken, topic, payload⟩ := mem_enqueues net clientId event publication found
        message new
      have here := seated.registered k connection ref isOpen ours newest get
      subst here
      rw [held] at heldRef
      cases heldRef
      have acknowledged : 0 < publication.qos := by
        rw [qos]
        decide
      rw [if_pos ⟨acknowledged, taken⟩, topic, payload, qos]

theorem register_open (net : Network) (pkt : Connect) (k : Nat) (connection : Connection)
    (isOpen : (net.register pkt).Open k connection) :
    (k < net.connections.length ∧ net.Open k connection) ∨
      (k = net.connections.length ∧ connection.clientId = pkt.clientId ∧ connection.session = net.broker.heap.length) := by
  obtain ⟨held, notClosed⟩ := isOpen
  simp only [Network.register] at held
  by_cases old : k < net.connections.length
  · rw [List.getElem?_append_left old] at held
    exact .inl ⟨old, held, notClosed⟩
  · rw [List.getElem?_append_right (Nat.not_lt.mp old), List.getElem?_singleton] at held
    split at held
    · rename_i last
      cases held
      exact .inr ⟨by omega, rfl, rfl⟩
    · cases held

theorem register_newest (net : Network) (pkt : Connect) (k : Nat) (clientId : String) (old : k < net.connections.length) :
    (net.register pkt).Newest k clientId ↔ net.Newest k clientId ∧ pkt.clientId ≠ clientId := by
  have ids : (net.register pkt).connections.map (·.clientId) = net.connections.map (·.clientId) ++ [pkt.clientId] := by
    simp [Network.register]
  have width : (net.connections.map (·.clientId)).length = net.connections.length := List.length_map _
  rw [Network.Newest, Network.Newest, ids]
  constructor
  · intro newest
    constructor
    · intro j later same
      exact newest j later (held_append _ _ _ _ same)
    · intro same
      refine newest net.connections.length old ?_
      rw [List.getElem?_append_right (Nat.le_of_eq width), width, Nat.sub_self, same]
      rfl
  · intro both j later same
    obtain ⟨newest, other⟩ := both
    by_cases inside : j < (net.connections.map (·.clientId)).length
    · rw [List.getElem?_append_left inside] at same
      exact newest j later same
    · rw [List.getElem?_append_right (Nat.not_lt.mp inside), List.getElem?_singleton] at same
      split at same
      · exact other (Option.some.inj same)
      · cases same

theorem register_heap (net : Network) (pkt : Connect) : (net.register pkt).broker.heap =
    net.broker.heap ++ [(newSession pkt).send (encodePacket (connAckReply 0))] := open_connection_heap net.broker pkt

theorem register_heap_old (net : Network) (pkt : Connect) (ref : SessionRef) (session : ClientSession)
    (held : net.broker.heap[ref]? = some session) : (net.register pkt).broker.heap[ref]? = some session := by
  rw [register_heap]
  exact held_append _ _ _ _ held

theorem register_heap_new (net : Network) (pkt : Connect) :
    ∃ session, (net.register pkt).broker.heap[net.broker.heap.length]? = some session ∧
      session.clientId = pkt.clientId ∧ session.inFlight = {} := by
  refine ⟨_, by rw [register_heap, List.getElem?_concat_length], ?_, ?_⟩
  · rw [send_keeps]
    rfl
  · rw [send_keeps]
    rfl

theorem register_remembers_iff (net : Network) (pkt : Connect) (clientId : String) (unacked : List Unacked)
    (remembers : net.Remembers clientId unacked) :
    (net.register pkt).Remembers clientId unacked ↔ (pkt.clientId = clientId → unacked = []) := by
  obtain ⟨fresh, heldFresh, named, empty⟩ := register_heap_new net pkt
  constructor
  · intro after same
    have isOpen : (net.register pkt).Open net.connections.length
        ⟨pkt.clientId, net.broker.heap.length, .reading, net.broker.issued.length⟩ :=
      ⟨List.getElem?_concat_length, fun closed => by cases closed⟩
    have newest : (net.register pkt).Newest net.connections.length clientId := by
      intro j later held
      have below := (List.getElem?_eq_some_iff.mp held).1
      rw [List.length_map, Network.register, List.length_append, List.length_singleton] at below
      omega
    obtain ⟨session, held, all⟩ := after _ _ isOpen same newest
    rw [heldFresh] at held
    cases held
    rw [List.eq_nil_iff_forall_not_mem]
    intro message member
    have value := all message member
    rw [empty] at value
    cases value
  · intro nothing k connection isOpen ours newest
    rcases register_open net pkt k connection isOpen with ⟨old, wasOpen⟩ | ⟨_, sameId, sameSession⟩
    · obtain ⟨session, held, all⟩ := remembers k connection wasOpen ours
        ((register_newest net pkt k clientId old).mp newest).1
      exact ⟨session, register_heap_old net pkt _ _ held, all⟩
    · rw [nothing (sameId.symm.trans ours), sameSession]
      exact ⟨fresh, heldFresh, by simp⟩

theorem quiet_remembers (before after : Network) (unmoved : Unmoved before after) (quiet : Quiet before.broker after.broker)
    (clientId : String) (unacked fewer : List Unacked) (subset : fewer ⊆ unacked)
    (remembers : before.Remembers clientId unacked) : after.Remembers clientId fewer := by
  intro k later isOpen ours newest
  obtain ⟨earlier, wasOpen, sameId, sameSession, _⟩ := unmoved.connections k later isOpen
  obtain ⟨session, held, all⟩ := remembers k earlier wasOpen (sameId.symm.trans ours)
    ((newest_same before after unmoved.clientIds k clientId).mp newest)
  obtain ⟨kept, heldKept, _, sameMap⟩ := quiet earlier.session session held
  rw [sameSession]
  refine ⟨kept, heldKept, fun message member => ?_⟩
  rw [sameMap]
  exact all message (subset member)

theorem pub_ack_in_flight (state : BrokerState) (target : SessionRef) (pkt : PubAck) (ref : SessionRef)
    (session : ClientSession) (held : state.heap[ref]? = some session) :
    ∃ later, (processClientPacket state target (.pubAck pkt)).1.heap[ref]? = some later ∧
      later.clientId = session.clientId ∧
      later.inFlight = if target = ref then session.inFlight.remove pkt.packetId else session.inFlight := by
  unfold processClientPacket
  cases heldTarget : state.heap[target]? with
  | none =>
      have different : target ≠ ref := by
        intro same
        rw [same, held] at heldTarget
        cases heldTarget
      exact ⟨session, held, rfl, (if_neg different).symm⟩
  | some acknowledging =>
      dsimp only [BrokerState.spawn, BrokerState.modifySession]
      rw [List.getElem?_modify, held]
      by_cases here : target = ref
      · exact ⟨session.removeInFlight pkt.packetId, by simp [here], rfl, (if_pos here).symm⟩
      · exact ⟨session, by simp [here], rfl, (if_neg here).symm⟩

-- A PUBACK of another client is for another session; one of this client takes the message off the list.
theorem pub_ack_remembers (net : Network) (k : Nat) (pkt : PubAck) (clientId : String) (unacked : List Unacked)
    (seated : Seated net clientId) (remembers : net.Remembers clientId unacked) :
    (net.step verifyPassword (.packet k (.pubAck pkt))).Remembers clientId
      (net.history clientId (.packet k (.pubAck pkt)) unacked) := by
  have unmoved := step_unmoved verifyPassword net (.packet k (.pubAck pkt)) (by simp)
  have history := history_subset net clientId (.packet k (.pubAck pkt)) rfl unacked
  rw [Network.step] at unmoved ⊢
  rcases on_connection_cases net k _ with ⟨same, _⟩ | ⟨connection, isOpen, same⟩
  · rw [same]
    exact quiet_remembers net net (unmoved_refl net net rfl) (quiet_same _ _ rfl) clientId unacked _ history remembers
  · rw [same] at unmoved ⊢
    split
    · rename_i reading
      rw [if_pos reading] at unmoved
      intro j later laterOpen ours newest
      obtain ⟨earlier, wasOpen, sameId, sameSession, _⟩ := unmoved.connections j later laterOpen
      have oursBefore := sameId.symm.trans ours
      obtain ⟨session, held, all⟩ := remembers j earlier wasOpen oursBefore
        ((newest_same net _ unmoved.clientIds j clientId).mp newest)
      obtain ⟨kept, heldKept, _, map⟩ := pub_ack_in_flight net.broker connection.session pkt earlier.session session held
      rw [receive_broker, sameSession]
      refine ⟨kept, heldKept, fun message member => ?_⟩
      have value := all message (history member)
      rw [map]
      by_cases here : connection.session = earlier.session
      · have mine : connection.clientId = clientId := by
          obtain ⟨first, heldFirst, named⟩ := seated.seats k connection isOpen
          obtain ⟨second, heldSecond, namedSecond⟩ := seated.seats j earlier wasOpen
          rw [here, heldSecond] at heldFirst
          cases heldFirst
          exact named.symm.trans (namedSecond.trans oursBefore)
        have other : pkt.packetId ≠ message.packetId := by
          rw [Network.history, enqueues_silent net clientId _ rfl, List.append_nil] at member
          have acknowledged := (List.mem_filter.mp member).2
          simp only [Network.acknowledges, isOpen.1, Option.bind_some, if_pos (And.intro mine reading)] at acknowledged
          simpa using acknowledged
        rw [if_pos here, Assoc.get_remove, if_neg other]
        exact value
      · rw [if_neg here]
        exact value
    · exact quiet_remembers net net (unmoved_refl net net rfl) (quiet_same _ _ rfl) clientId unacked _ history remembers

theorem step_kinds (net : Network) (event : Event) (noConnect : ∀ pkt, event ≠ .connect pkt) :
    (∃ publication, net.publication event = some publication) ∨ (∃ k pkt, event = .packet k (.pubAck pkt)) ∨
      (net.publication event = none ∧ Quiet net.broker (net.step verifyPassword event).broker) := by
  cases found : net.publication event with
  | some publication => exact .inl ⟨publication, rfl⟩
  | none =>
      by_cases acknowledging : ∃ k pkt, event = .packet k (.pubAck pkt)
      · exact .inr (.inl acknowledging)
      · exact .inr (.inr ⟨rfl, step_quiet verifyPassword net event noConnect
          (fun k pkt same => acknowledging ⟨k, pkt, same⟩) found⟩)

theorem keeps_idle (net : Network) (clientId : String) (unacked : List Unacked) (event : Event)
    (noConnect : ∀ pkt, event ≠ .connect pkt) (silent : net.publication event = none) :
    KeepsUnacked verifyPassword net clientId unacked event := by
  constructor
  · exact fun pkt same => absurd same (noConnect pkt)
  · intro publication found
    rw [silent] at found
    cases found

theorem step_remembers_iff (net : Network) (clientId : String) (unacked : List Unacked) (event : Event)
    (seated : Seated net clientId) (remembers : net.Remembers clientId unacked) :
    (net.step verifyPassword event).Remembers clientId (net.history clientId event unacked) ↔
      KeepsUnacked verifyPassword net clientId unacked event := by
  by_cases connecting : ∃ pkt, event = .connect pkt
  · obtain ⟨pkt, rfl⟩ := connecting
    have history : net.history clientId (.connect pkt) unacked = unacked := by
      rw [Network.history, enqueues_silent net clientId _ rfl, List.append_nil]
      simp [Network.acknowledges]
    have keeps : KeepsUnacked verifyPassword net clientId unacked (.connect pkt) ↔
        (pkt.clientId = clientId → authenticated verifyPassword net.broker.auth pkt = true → unacked = []) := by
      constructor
      · exact fun keeps => keeps.connects pkt rfl
      · intro nothing
        refine ⟨fun other same => ?_, fun publication found => by cases found⟩
        cases same
        exact nothing
    rw [history, keeps, Network.step]
    by_cases accepted : authenticated verifyPassword net.broker.auth pkt = true
    · rw [if_pos accepted, register_remembers_iff net pkt clientId unacked remembers]
      simp [accepted]
    · rw [if_neg accepted]
      exact iff_of_true remembers fun _ yes => absurd yes accepted
  · have noConnect : ∀ pkt, event ≠ .connect pkt := fun pkt same => connecting ⟨pkt, same⟩
    rcases step_kinds verifyPassword net event noConnect with ⟨publication, found⟩ | ⟨k, pkt, rfl⟩ | ⟨found, quiet⟩
    · exact publication_remembers_iff verifyPassword net clientId unacked event publication found seated remembers
    · exact iff_of_true (pub_ack_remembers verifyPassword net k pkt clientId unacked seated remembers)
        (keeps_idle verifyPassword net clientId unacked _ noConnect rfl)
    · refine iff_of_true ?_ (keeps_idle verifyPassword net clientId unacked event noConnect found)
      refine quiet_remembers net _ (step_unmoved verifyPassword net event noConnect) quiet clientId unacked _ ?_ remembers
      exact history_subset net clientId event found unacked

theorem step_client_ids (net : Network) (event : Event) (noConnect : ∀ pkt, event ≠ .connect pkt) (ref : SessionRef)
    (session : ClientSession) (held : net.broker.heap[ref]? = some session) :
    ∃ later, (net.step verifyPassword event).broker.heap[ref]? = some later ∧ later.clientId = session.clientId := by
  rcases step_kinds verifyPassword net event noConnect with ⟨publication, found⟩ | ⟨k, pkt, rfl⟩ | ⟨_, quiet⟩
  · obtain ⟨later, heldLater, same, _⟩ := publication_in_flight verifyPassword net event publication found ref session held
    exact ⟨later, heldLater, same⟩
  · refine on_connection_rule (fun after => ∃ later, after.broker.heap[ref]? = some later ∧
      later.clientId = session.clientId) net k _ ⟨session, held, rfl⟩ ?_
    intro connection _
    split
    · obtain ⟨later, heldLater, same, _⟩ := pub_ack_in_flight net.broker connection.session pkt ref session held
      rw [receive_broker]
      exact ⟨later, heldLater, same⟩
    · exact ⟨session, held, rfl⟩
  · obtain ⟨later, heldLater, same, _⟩ := quiet ref session held
    exact ⟨later, heldLater, same⟩

theorem register_seated (net : Network) (pkt : Connect) (clientId : String) (seated : Seated net clientId) :
    Seated (net.register pkt) clientId := by
  constructor
  · intro k connection isOpen
    rcases register_open net pkt k connection isOpen with ⟨_, wasOpen⟩ | ⟨_, sameId, sameSession⟩
    · obtain ⟨session, held, named⟩ := seated.seats k connection wasOpen
      exact ⟨session, register_heap_old net pkt _ _ held, named⟩
    · obtain ⟨fresh, held, named, _⟩ := register_heap_new net pkt
      rw [sameSession, sameId]
      exact ⟨fresh, held, named⟩
  · intro k connection ref isOpen ours newest get
    rw [register_sessions, Assoc.get_insert] at get
    rcases register_open net pkt k connection isOpen with ⟨old, wasOpen⟩ | ⟨_, sameId, sameSession⟩
    · obtain ⟨newestBefore, other⟩ := (register_newest net pkt k clientId old).mp newest
      rw [if_neg other] at get
      exact seated.registered k connection ref wasOpen ours newestBefore get
    · rw [if_pos (sameId.symm.trans ours)] at get
      rw [sameSession]
      exact (Option.some.inj get).symm

theorem step_seated (net : Network) (event : Event) (clientId : String) (seated : Seated net clientId) :
    Seated (net.step verifyPassword event) clientId := by
  by_cases connecting : ∃ pkt, event = .connect pkt
  · obtain ⟨pkt, rfl⟩ := connecting
    rw [Network.step]
    split
    · exact register_seated net pkt clientId seated
    · exact seated
  · have noConnect : ∀ pkt, event ≠ .connect pkt := fun pkt same => connecting ⟨pkt, same⟩
    have unmoved := step_unmoved verifyPassword net event noConnect
    constructor
    · intro k later isOpen
      obtain ⟨earlier, wasOpen, sameId, sameSession, _⟩ := unmoved.connections k later isOpen
      obtain ⟨session, held, named⟩ := seated.seats k earlier wasOpen
      obtain ⟨kept, heldKept, same⟩ := step_client_ids verifyPassword net event noConnect _ session held
      rw [sameSession, sameId]
      exact ⟨kept, heldKept, same.trans named⟩
    · intro k later ref isOpen ours newest get
      obtain ⟨earlier, wasOpen, sameId, sameSession, _⟩ := unmoved.connections k later isOpen
      rw [sameSession]
      exact seated.registered k earlier ref wasOpen (sameId.symm.trans ours)
        ((newest_same net _ unmoved.clientIds k clientId).mp newest)
        (step_sessions verifyPassword net event noConnect clientId ref get)

-- The broker over its restarts, and what one client has been sent at QoS 1 and has not acknowledged.
structure Deployment where
  network : Network
  stored : Database
  unacked : List Unacked := []

inductive Incident where
  | event (event : Event)
  -- The broker ends when that many statements of its writes have been executed, and starts again.
  | restart (executed : Nat)

def Deployment.boot (auth : AuthConfig) (db : Database) : Deployment := ⟨{ broker := (Host.boot auth db).broker }, db, []⟩

def Deployment.step (clientId : String) (self : Deployment) : Incident → Deployment
  | .event event =>
      { self with
        network := self.network.step verifyPassword event
        unacked := self.network.history clientId event self.unacked }
  | .restart executed =>
      let host := Host.step ⟨self.network.broker, self.stored⟩ (.crash executed)
      ⟨{ broker := host.broker }, host.stored, self.unacked⟩

def Deployment.Remembers (clientId : String) (self : Deployment) : Prop := self.network.Remembers clientId self.unacked

def Deployment.Keeps (clientId : String) (self : Deployment) : Incident → Prop
  | .event event => KeepsUnacked verifyPassword self.network clientId self.unacked event
  | .restart _ => True

theorem nobody_open (broker : BrokerState) (k : Nat) (connection : Connection) : ¬Network.Open { broker } k connection := by
  simp [Network.Open]

theorem unacked_remembered_iff (auth : AuthConfig) (db : Database) (clientId : String) (incidents : List Incident) :
    Run.Always (Deployment.step verifyPassword clientId) (Deployment.Remembers clientId) (Deployment.boot auth db)
        incidents ↔
      Run.Throughout (Deployment.step verifyPassword clientId) (Deployment.Keeps verifyPassword clientId)
        (Deployment.boot auth db) incidents := by
  have unseated : ∀ broker : BrokerState, Seated { broker } clientId := fun broker =>
    ⟨fun k connection isOpen => absurd isOpen (nobody_open broker k connection),
      fun k connection _ isOpen => absurd isOpen (nobody_open broker k connection)⟩
  have idle : ∀ (broker : BrokerState) (unacked : List Unacked), Network.Remembers { broker } clientId unacked :=
    fun broker _ k connection isOpen => absurd isOpen (nobody_open broker k connection)
  refine Run.always_iff_throughout_under _ (fun state => Seated state.network clientId) _ _ ?_ ?_ _ incidents
    (unseated _) (idle _ _)
  · intro state incident seated
    cases incident with
    | event event => exact step_seated verifyPassword state.network event clientId seated
    | restart executed => exact unseated _
  · intro state incident seated remembers
    cases incident with
    | event event => exact step_remembers_iff verifyPassword state.network clientId state.unacked event seated remembers
    | restart executed => exact iff_of_true (idle _ _) trivial

def keptSession : Connect := ⟨"c", 60, false, none, none, { sessionExpiryInterval := some 3600 }⟩

def comesBack : List Incident :=
  [.event (.connect keptSession), .event (.packet 0 (.subscribe ⟨1, {}, [⟨"t", 1⟩]⟩)),
    .event (.remotePublish "t" [1] 1 false), .event (.close 0), .event (.connect keptSession)]

def backAgain : Deployment := comesBack.foldl (Deployment.step (fun _ _ => true) "c") (Deployment.boot ⟨none⟩ {})

theorem message_lost_on_reconnect :
    ¬∀ (verifyPassword : String → String → Bool) (auth : AuthConfig) (db : Database) (clientId : String)
        (incidents : List Incident),
      (∀ pkt, .event (.connect pkt) ∈ incidents → pkt.clientId = clientId →
        pkt.cleanStart = false ∧ 0 < pkt.properties.sessionExpiryInterval.getD 0) →
      Run.Always (Deployment.step verifyPassword clientId) (Deployment.Remembers clientId) (Deployment.boot auth db)
        incidents := by
  intro all
  obtain ⟨_, _, _, _, _, after⟩ := all (fun _ _ => true) ⟨none⟩ {} "c" comesBack (by
    intro pkt member _
    have same : pkt = keptSession := by
      simpa [comesBack] using member
    rw [same]
    decide)
  have remembers : backAgain.network.Remembers "c" backAgain.unacked := after
  have connection : backAgain.network.connections[1]? = some ⟨"c", 1, .reading, 3⟩ := by decide +kernel
  have newest : backAgain.network.Newest 1 "c" := by
    intro j later held
    have below := (List.getElem?_eq_some_iff.mp held).1
    have two : (backAgain.network.connections.map (·.clientId)).length = 2 := by decide +kernel
    omega
  obtain ⟨session, held, kept⟩ := remembers 1 _ ⟨connection, by decide⟩ rfl newest
  have inFlight := kept ⟨1, "t", [1]⟩ (by decide +kernel)
  have empty : (backAgain.network.broker.heap[1]?).map (fun session => (session.inFlight.get 1).isSome) = some false := by
    decide +kernel
  rw [held, Option.map_some, inFlight] at empty
  cases empty

end Pipistrelle.Broker
