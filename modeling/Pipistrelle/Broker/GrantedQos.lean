import Pipistrelle.Broker.InFlight
import Pipistrelle.Codec.RoundTrip

set_option autoImplicit false

/- The QoS that a subscription was granted. It stands in the SUBACK, in the router and
   in the database, and every delivery comes with it, but send_publish_to_client is
   given the publisher's QoS. -/
namespace Pipistrelle.Broker

open Codec Router Auth LevelPattern

structure Network.Serves (net : Network) (topic : String) (delivery : Delivery) (acceptance : Acceptance) : Prop where
  row : net.ledger.get acceptance.key = some acceptance
  group : acceptance.key.group = delivery.group
  matching : matchesLevels acceptance.key.levels (splitLevels topic) = true
  sub : delivery.sub = ⟨acceptance.clientId, acceptance.qos, acceptance.subscriptionIdentifier⟩

-- The QoS bits of the first byte, as decode_publish reads them.
def frameQos (frame : Bytes) : UInt8 := (frame.headD 0 &&& 0x0F &&& 0x06) >>> 1

theorem publish_frame_qos (topic : String) (payload : Bytes) (qos : UInt8) (retain : Bool) (packetId : Option UInt16)
    (subscriptionIdentifier : Option UInt32) (low : qos ≤ 2) :
    frameQos (publishFrame topic payload qos retain packetId subscriptionIdentifier) = qos :=
  (publish_flag_bits qos false retain low).2.2.1

theorem lower_qos_iff (first second : UInt8) : min first second = first ↔ first ≤ second := by
  have lower : min first second = if first ≤ second then first else second := rfl
  rw [lower]
  constructor
  · intro same
    by_contra above
    rw [if_neg above] at same
    exact above (same ▸ UInt8.le_refl _)
  · exact fun bounded => if_pos bounded

theorem ledger_key (accepted : List Acceptance) (key : Key) (acceptance : Acceptance)
    (get : (ledgerOf accepted).get key = some acceptance) : acceptance.key = key :=
  ledger_rows (fun key acceptance => acceptance.key = key) [] accepted (fun _ _ nothing => by cases nothing)
    (fun _ _ => rfl) key acceptance get

theorem delivery_row (state : BrokerState) (table : Table) (refines : Refines state.router table) (topic : String)
    (delivery : Delivery) (delivered : delivery ∈ state.deliveries topic) :
    delivery.sub ∈ table.matching delivery.group topic := by
  rcases List.mem_append.mp delivered with normal | shared
  · obtain ⟨sub, found, rfl⟩ := List.mem_map.mp normal
    exact (match_topic_normal _ _ refines topic).mem_iff.mp found
  · obtain ⟨⟨group, subs⟩, entry, picked⟩ := List.mem_filterMap.mp shared
    obtain ⟨sub, itsTurn, rfl⟩ := Option.map_eq_some_iff.mp picked
    have members : state.members topic group = subs := by
      rw [BrokerState.members, (Assoc.mem_entries_iff _ _ _).mp entry]
      rfl
    have perm := members_perm state table refines topic group
    rw [members] at perm
    exact perm.mem_iff.mp (turn_mem _ _ _ _ itsTurn)

theorem delivery_serves (net : Network) (refines : Refines net.broker.router (tableOf net.accepted)) (topic : String)
    (delivery : Delivery) (delivered : delivery ∈ net.broker.deliveries topic) :
    ∃ acceptance, net.Serves topic delivery acceptance := by
  have row := delivery_row net.broker _ refines topic delivery delivered
  obtain ⟨key, granted, get, group, same, matching⟩ := (mem_matching_iff _ _ _ _).mp row
  rw [table_of_ledger, Option.map_eq_some_iff] at get
  obtain ⟨acceptance, held, rfl⟩ := get
  have named := ledger_key net.accepted key acceptance held
  subst named
  exact ⟨acceptance, held, group, matching, same⟩

def Network.OnlyQos0 (self : Network) (clientId : String) : Prop :=
  ∀ key acceptance, self.ledger.get key = some acceptance → acceptance.clientId = clientId → acceptance.qos = 0

structure NothingPublished (before after : BrokerState) : Prop where
  frames : ∀ ref, ∀ frame ∈ (after.sentTo ref).drop (before.sentTo ref).length, ¬IsPublishFrame frame
  inFlight : ∀ (ref : SessionRef) (session : ClientSession), before.heap[ref]? = some session →
    ∃ later, after.heap[ref]? = some later ∧
      ∀ pid message, later.inFlight.get pid = some message → session.inFlight.get pid = some message

-- The frames that a publish enqueues are those of the deliveries to the session, in
-- order, each with the lower of the two QoS. A client granted only QoS 0 gains no
-- in-flight message, neither in its session nor in the database.
structure Network.PublishesGranted (net : Network) (publication : Publication) (after : BrokerState) : Prop where
  served : ∀ delivery ∈ net.broker.deliveries publication.topic,
    ∃ acceptance, net.Serves publication.topic delivery acceptance
  frames : ∀ (ref : SessionRef) (session : ClientSession), net.broker.heap[ref]? = some session →
    session.receiverOpen = true → ∃ published others, after.sentTo ref = session.sent ++ (published ++ others) ∧
      (∀ frame ∈ others, ¬IsPublishFrame frame) ∧
      List.Forall₂ (fun delivery frame => IsPublishFrame frame ∧ ∀ acceptance,
        net.Serves publication.topic delivery acceptance → frameQos frame = min publication.qos acceptance.qos)
        (net.broker.served publication.topic ref) published
  inFlight : ∀ (ref : SessionRef) (session : ClientSession), net.broker.heap[ref]? = some session →
    net.OnlyQos0 session.clientId → ∃ later, after.heap[ref]? = some later ∧
      ∀ pid message, later.inFlight.get pid = some message → session.inFlight.get pid = some message
  saved : ∃ writes, after.issued = net.broker.issued ++ writes ∧ ∀ clientId pid topic payload qos,
    net.OnlyQos0 clientId → .saveInFlight clientId pid topic payload qos ∉ writes

-- A PUBLISH has QoS 2 at most: the decoder accepts no other.
structure Network.RespectsGrants (verifyPassword : String → String → Bool) (net : Network) (event : Event) : Prop where
  publishes : ∀ publication, net.publication event = some publication → publication.qos ≤ 2 →
    net.PublishesGranted publication (net.step verifyPassword event).broker
  otherwise : net.publication event = none → NothingPublished net.broker (net.step verifyPassword event).broker

-- The publisher's QoS is not above the granted QoS of a delivery into a channel that is
-- read, or to a session of a client granted only QoS 0.
def Network.WithinGrants (self : Network) (event : Event) : Prop :=
  ∀ publication, self.publication event = some publication → publication.qos ≤ 2 →
    ∀ delivery ∈ self.broker.deliveries publication.topic, ∀ acceptance,
      self.Serves publication.topic delivery acceptance → ∀ session,
        self.broker.registered delivery.sub.clientId = some session →
          session.receiverOpen = true ∨ self.OnlyQos0 acceptance.clientId → publication.qos ≤ acceptance.qos

def BrokerState.Named (self : BrokerState) : Prop :=
  ∀ clientId ref, self.sessions.get clientId = some ref →
    ∃ session, self.heap[ref]? = some session ∧ session.clientId = clientId

structure Network.Recorded (net : Network) : Prop where
  refines : Refines net.broker.router (tableOf net.accepted)
  named : net.broker.Named

theorem evolves_named (allowed : SessionRef → Bytes → Prop) (before after : BrokerState)
    (evolved : Evolves allowed before after) (named : before.Named) : after.Named := by
  intro clientId ref get
  rw [evolved.sessions] at get
  obtain ⟨session, held, owned⟩ := named clientId ref get
  obtain ⟨later, heldLater, grown⟩ := evolved.heap ref session held
  exact ⟨later, heldLater, (congrArg Identity.clientId grown.identity).trans owned⟩

section Run

variable (verifyPassword : String → String → Bool)

theorem receive_accepted (net : Network) (k : Nat) (connection : Connection) (packet : Packet) :
    (net.receive k connection packet).accepted =
      net.accepted ++ acceptances net.broker connection.session packet := by
  unfold Network.receive
  dsimp only
  split <;> rfl

theorem step_refines (net : Network) (event : Event) (refines : Refines net.broker.router (tableOf net.accepted)) :
    Refines (net.step verifyPassword event).broker.router (tableOf (net.step verifyPassword event).accepted) := by
  cases event with
  | connect pkt =>
      rw [Network.step]
      split
      · rw [Network.register]
        dsimp only
        rw [open_connection_router]
        exact refines
      · exact refines
  | packet k packet =>
      refine on_connection_rule (fun after => Refines after.broker.router (tableOf after.accepted)) net k _ refines ?_
      intro connection _
      split
      · rw [receive_broker, receive_accepted, process_client_packet_router]
        exact subscribe_all_refines _ _ _ refines
      · exact refines
  | close k =>
      refine on_connection_rule (fun after => Refines after.broker.router (tableOf after.accepted)) net k _ refines ?_
      intro connection _
      have router := close_connection_router net.broker connection.clientId connection.session
      have same : Refines (net.broker.closeConnection connection.clientId connection.session).router
          (tableOf net.accepted) := router ▸ refines
      exact same
  | panic k =>
      exact on_connection_rule (fun after => Refines after.broker.router (tableOf after.accepted)) net k _ refines
        fun _ _ => refines
  | writerEnds k =>
      exact on_connection_rule (fun after => Refines after.broker.router (tableOf after.accepted)) net k _ refines
        fun _ _ => refines
  | remotePublish topic payload qos retain =>
      have router := route_publish_router net.broker "bridge_client" topic payload qos retain
      have same : Refines (net.broker.routePublish "bridge_client" topic payload qos retain).router
          (tableOf net.accepted) := router ▸ refines
      exact same

theorem step_recorded (net : Network) (event : Event) (recorded : net.Recorded) :
    (net.step verifyPassword event).Recorded := by
  refine ⟨step_refines verifyPassword net event recorded.refines, ?_⟩
  by_cases connecting : ∃ pkt, event = .connect pkt
  · obtain ⟨pkt, rfl⟩ := connecting
    rw [Network.step]
    split
    · intro clientId ref get
      rw [register_sessions, Assoc.get_insert] at get
      by_cases same : pkt.clientId = clientId
      · rw [if_pos same] at get
        cases get
        obtain ⟨fresh, held, named, _⟩ := register_heap_new net pkt
        exact ⟨fresh, held, named.trans same⟩
      · rw [if_neg same] at get
        obtain ⟨session, held, named⟩ := recorded.named clientId ref get
        exact ⟨session, register_heap_old net pkt ref session held, named⟩
    · exact recorded.named
  · have noConnect : ∀ pkt, event ≠ .connect pkt := fun pkt same => connecting ⟨pkt, same⟩
    intro clientId ref get
    obtain ⟨session, held, named⟩ := recorded.named clientId ref
      (step_sessions verifyPassword net event noConnect clientId ref get)
    obtain ⟨later, heldLater, same⟩ := step_client_ids verifyPassword net event noConnect ref session held
    exact ⟨later, heldLater, same.trans named⟩

theorem run_recorded (net : Network) (events : List Event) (recorded : net.Recorded) :
    (events.foldl (Network.step verifyPassword) net).Recorded :=
  List.foldlRecOn _ _ recorded fun net recorded event _ => step_recorded verifyPassword net event recorded

theorem publication_rest (net : Network) (event : Event) (publication : Publication)
    (found : net.publication event = some publication) :
    Evolves (fun _ frame => ¬IsPublishFrame frame) (net.broker.publish publication)
        (net.step verifyPassword event).broker ∧
      (net.step verifyPassword event).broker.issued = (net.broker.publish publication).issued := by
  rcases publication_step verifyPassword net event publication found with same | ⟨ref, pkt, same⟩
  · rw [same]
    exact ⟨evolves_refl _ _, rfl⟩
  · rw [same]
    refine ⟨reply_pub_ack_evolves _ _ _ _ _ ?_, reply_pub_ack_keeps (·.issued) (fun _ _ _ => rfl) _ _ _ _⟩
    exact fun packetId => pub_ack_no_publish packetId 0

theorem publication_saves (net : Network) (event : Event) (publication : Publication)
    (found : net.publication event = some publication) :
    ∃ writes, (net.step verifyPassword event).broker.issued = net.broker.issued ++ writes ∧
      (∀ write ∈ writes, ∃ delivery ∈ net.broker.deliveries publication.topic,
        net.broker.savedFor publication.qos delivery ∧ ∃ pid,
          write = .saveInFlight delivery.sub.clientId pid publication.topic publication.payload publication.qos) ∧
      ∀ delivery ∈ net.broker.deliveries publication.topic, net.broker.savedFor publication.qos delivery →
        ∃ pid, .saveInFlight delivery.sub.clientId pid publication.topic publication.payload publication.qos ∈ writes := by
  rw [(publication_rest verifyPassword net event publication found).2, BrokerState.publish, route_publish_delivers,
    account_issued]
  exact deliver_all_issued publication.topic publication.payload publication.qos publication.retain
    (net.broker.deliveries publication.topic) net.broker

theorem publication_sent (net : Network) (event : Event) (publication : Publication)
    (found : net.publication event = some publication) (ref : SessionRef) (session : ClientSession)
    (held : net.broker.heap[ref]? = some session) (isOpen : session.receiverOpen = true) :
    ∃ ids others, ids.length = (net.broker.served publication.topic ref).length ∧
      (net.step verifyPassword event).broker.sentTo ref = session.sent ++
        (frames publication.topic publication.payload publication.qos publication.retain ids
          ((net.broker.served publication.topic ref).map (·.sub.subscriptionIdentifier)) ++ others) ∧
      ∀ frame ∈ others, ¬IsPublishFrame frame := by
  have heap := route_publish_heap publication.topic publication.payload publication.qos publication.retain net.broker
    publication.fromClient ref
  rw [held, Option.map_some] at heap
  obtain ⟨later, heldLater, _, others, appended, quiet⟩ :=
    (publication_rest verifyPassword net event publication found).1.heap ref _ heap
  refine ⟨session.frameIds publication.qos (net.broker.served publication.topic ref).length, others,
    frame_ids_length _ _ _, ?_, quiet⟩
  rw [receive_all_sent, if_pos isOpen, List.length_map, List.append_assoc] at appended
  rw [BrokerState.sentTo, heldLater, Option.map_some, Option.getD_some, appended]

theorem frames_forall (property : Delivery → Bytes → Prop) (topic : String) (payload : Bytes) (qos : UInt8)
    (retain : Bool) (deliveries : List Delivery) (ids : List (Option UInt16)) (count : ids.length = deliveries.length)
    (each : ∀ delivery ∈ deliveries, ∀ pid,
      property delivery (publishFrame topic payload qos retain pid delivery.sub.subscriptionIdentifier)) :
    List.Forall₂ property deliveries
      (frames topic payload qos retain ids (deliveries.map (·.sub.subscriptionIdentifier))) := by
  induction deliveries generalizing ids with
  | nil =>
      rw [List.map_nil, frames, List.zipWith_nil_right]
      exact .nil
  | cons delivery rest ih =>
      cases ids with
      | nil => cases count
      | cons pid later =>
          rw [List.map_cons, frames, List.zipWith_cons_cons]
          refine .cons (each delivery (by simp) pid) (ih later (Nat.succ.inj count) ?_)
          exact fun other member => each other (by simp [member])

theorem related_of_mem {α β : Type} {related : α → β → Prop} {items : List α} {others : List β}
    (along : List.Forall₂ related items others) (item : α) (member : item ∈ items) :
    ∃ other ∈ others, related item other := by
  induction along with
  | nil => cases member
  | cons here _ ih =>
      rcases List.mem_cons.mp member with rfl | inRest
      · exact ⟨_, by simp, here⟩
      · obtain ⟨other, inOthers, rest⟩ := ih inRest
        exact ⟨other, by simp [inOthers], rest⟩

theorem served_of_registered (state : BrokerState) (topic : String) (delivery : Delivery)
    (delivered : delivery ∈ state.deliveries topic) (session : ClientSession)
    (registered : state.registered delivery.sub.clientId = some session) :
    ∃ ref, state.heap[ref]? = some session ∧ delivery ∈ state.served topic ref := by
  obtain ⟨ref, get, held⟩ := Option.bind_eq_some_iff.mp registered
  exact ⟨ref, held, List.mem_filter.mpr ⟨delivered, decide_eq_true get⟩⟩

theorem served_registered (net : Network) (recorded : net.Recorded) (topic : String) (ref : SessionRef)
    (session : ClientSession) (held : net.broker.heap[ref]? = some session) (delivery : Delivery)
    (served : delivery ∈ net.broker.served topic ref) :
    delivery ∈ net.broker.deliveries topic ∧ net.broker.registered delivery.sub.clientId = some session ∧
      session.clientId = delivery.sub.clientId := by
  obtain ⟨delivered, reaches⟩ := List.mem_filter.mp served
  have get : net.broker.sessions.get delivery.sub.clientId = some ref := of_decide_eq_true reaches
  refine ⟨delivered, by rw [BrokerState.registered, get, Option.bind_some, held], ?_⟩
  obtain ⟨same, heldSame, named⟩ := recorded.named _ ref get
  rw [held] at heldSame
  cases heldSame
  exact named

theorem serves_client {net : Network} {topic : String} {delivery : Delivery} {acceptance : Acceptance}
    (serves : net.Serves topic delivery acceptance) : delivery.sub.clientId = acceptance.clientId := by
  rw [serves.sub]

theorem no_message_saved (net : Network) (recorded : net.Recorded) (event : Event) (publication : Publication)
    (found : net.publication event = some publication) (low : publication.qos ≤ 2) (within : net.WithinGrants event)
    (delivery : Delivery) (delivered : delivery ∈ net.broker.deliveries publication.topic) (session : ClientSession)
    (registered : net.broker.registered delivery.sub.clientId = some session)
    (only : net.OnlyQos0 delivery.sub.clientId) : ¬0 < publication.qos := by
  obtain ⟨acceptance, serves⟩ := delivery_serves net recorded.refines publication.topic delivery delivered
  rw [serves_client serves] at only
  have bounded := within publication found low delivery delivered acceptance serves session registered (.inr only)
  rw [only _ acceptance serves.row rfl] at bounded
  exact UInt8.not_lt.mpr bounded

theorem publishes_granted (net : Network) (recorded : net.Recorded) (event : Event) (publication : Publication)
    (found : net.publication event = some publication) (low : publication.qos ≤ 2) (within : net.WithinGrants event) :
    net.PublishesGranted publication (net.step verifyPassword event).broker := by
  refine ⟨delivery_serves net recorded.refines publication.topic, ?_, ?_, ?_⟩
  · intro ref session held isOpen
    obtain ⟨ids, others, count, sent, quiet⟩ :=
      publication_sent verifyPassword net event publication found ref session held isOpen
    refine ⟨_, others, sent, quiet, frames_forall _ _ _ _ _ _ ids count ?_⟩
    intro delivery served pid
    refine ⟨publish_frame_is_publish _ _ _ _ _ _, fun acceptance serves => ?_⟩
    obtain ⟨delivered, registered, _⟩ := served_registered net recorded _ ref session held delivery served
    have bounded := within publication found low delivery delivered acceptance serves session registered (.inl isOpen)
    rw [publish_frame_qos _ _ _ _ _ _ low, (lower_qos_iff _ _).mpr bounded]
  · intro ref session held only
    obtain ⟨later, heldLater, _, map⟩ :=
      publication_in_flight verifyPassword net event publication found ref session held
    refine ⟨later, heldLater, fun pid message get => ?_⟩
    rw [map] at get
    split at get
    · rename_i taken
      have nonempty : net.broker.served publication.topic ref ≠ [] := by
        intro nothing
        rw [nothing] at taken
        cases taken.2
      obtain ⟨delivery, served⟩ := List.exists_mem_of_ne_nil _ nonempty
      obtain ⟨delivered, registered, named⟩ := served_registered net recorded _ ref session held delivery served
      exact absurd taken.1 (no_message_saved net recorded event publication found low within delivery delivered session
        registered (named ▸ only))
    · exact get
  · obtain ⟨writes, issued, saves, _⟩ := publication_saves verifyPassword net event publication found
    refine ⟨writes, issued, fun clientId pid topic payload qos only member => ?_⟩
    obtain ⟨delivery, delivered, ⟨acknowledged, kept⟩, _, same⟩ := saves _ member
    cases same
    obtain ⟨session, registered⟩ := Option.isSome_iff_exists.mp kept
    exact no_message_saved net recorded event publication found low within delivery delivered session registered only
      acknowledged

theorem granted_within (net : Network) (event : Event) (publication : Publication)
    (found : net.publication event = some publication) (low : publication.qos ≤ 2)
    (granted : net.PublishesGranted publication (net.step verifyPassword event).broker) (delivery : Delivery)
    (delivered : delivery ∈ net.broker.deliveries publication.topic) (acceptance : Acceptance)
    (serves : net.Serves publication.topic delivery acceptance) (session : ClientSession)
    (registered : net.broker.registered delivery.sub.clientId = some session)
    (either : session.receiverOpen = true ∨ net.OnlyQos0 acceptance.clientId) :
    publication.qos ≤ acceptance.qos := by
  rcases either with isOpen | only
  · obtain ⟨ref, held, served⟩ := served_of_registered net.broker publication.topic delivery delivered session registered
    obtain ⟨ids, others, count, sent, _⟩ :=
      publication_sent verifyPassword net event publication found ref session held isOpen
    obtain ⟨published, more, sentSame, _, along⟩ := granted.frames ref session held isOpen
    have width := along.length_eq
    have same : published = frames publication.topic publication.payload publication.qos publication.retain ids
        ((net.broker.served publication.topic ref).map (·.sub.subscriptionIdentifier)) := by
      rw [sent, List.append_cancel_left_eq] at sentSame
      refine (List.append_inj sentSame.symm ?_).1
      rw [frames, List.length_zipWith, List.length_map, count, Nat.min_self, width]
    have eachQos : List.Forall₂ (fun (_ : Delivery) frame => frameQos frame = publication.qos)
        (net.broker.served publication.topic ref) published := by
      rw [same]
      exact frames_forall _ _ _ _ _ _ ids count fun _ _ pid => publish_frame_qos _ _ _ _ _ _ low
    have both := eachQos.mp (fun _ _ qos granted => And.intro qos granted.2) along
    obtain ⟨frame, _, qos, lower⟩ := related_of_mem both delivery served
    exact (lower_qos_iff _ _).mp ((lower acceptance serves).symm.trans qos)
  · by_contra above
    have acknowledged : 0 < publication.qos := by
      rw [only _ acceptance serves.row rfl] at above
      exact UInt8.not_le.mp above
    obtain ⟨writes, issued, _, saves⟩ := publication_saves verifyPassword net event publication found
    obtain ⟨pid, member⟩ := saves delivery delivered ⟨acknowledged, by rw [registered]; rfl⟩
    obtain ⟨others, issuedSame, never⟩ := granted.saved
    rw [issued, List.append_cancel_left_eq] at issuedSame
    rw [serves_client serves, issuedSame] at member
    exact never _ _ _ _ _ only member

theorem silent_sends_no_publish (net : Network) (event : Event) (silent : net.publication event = none)
    (ref : SessionRef) (frame : Bytes)
    (member : frame ∈ ((net.step verifyPassword event).broker.sentTo ref).drop (net.broker.sentTo ref).length) :
    ¬IsPublishFrame frame := by
  intro kind
  obtain ⟨topic, payload, qos, retain, _, publishes, _⟩ := new_publish_frame verifyPassword net event ref frame member kind
  cases event with
  | packet k packet =>
      cases packet with
      | publish pkt =>
          -- The client may not publish on this topic.
          have refused : Evolves (fun _ frame => ¬IsPublishFrame frame) net.broker
              (net.step verifyPassword (.packet k (.publish pkt))).broker := by
            rw [Network.step]
            rcases on_connection_cases net k _ with ⟨same, _⟩ | ⟨connection, isOpen, same⟩
            · rw [same]
              exact evolves_refl _ _
            · rw [same]
              split
              · rename_i reading
                rw [receive_broker, processClientPacket]
                cases held : net.broker.heap[connection.session]? with
                | none => exact evolves_refl _ _
                | some session =>
                    dsimp only
                    have unauthorized : ¬net.broker.auth.authorize (session.username.getD "") pkt.topic "write" = true := by
                      intro authorized
                      simp [Network.publication, isOpen.1, reading, held, authorized] at silent
                    rw [BrokerState.processPublish, if_neg unauthorized]
                    exact reply_pub_ack_evolves _ _ _ _ _ fun packetId => pub_ack_no_publish packetId 0x87
              · exact evolves_refl _ _
          exact sent_evolves _ _ _ refused ref frame member kind
      | _ => cases publishes
  | remotePublish topic payload qos retain => cases silent
  | connect _ | close _ | panic _ | writerEnds _ => cases publishes

theorem silent_adds_no_message (net : Network) (event : Event) (silent : net.publication event = none)
    (ref : SessionRef) (session : ClientSession) (held : net.broker.heap[ref]? = some session) :
    ∃ later, (net.step verifyPassword event).broker.heap[ref]? = some later ∧
      ∀ pid message, later.inFlight.get pid = some message → session.inFlight.get pid = some message := by
  by_cases connecting : ∃ pkt, event = .connect pkt
  · obtain ⟨pkt, rfl⟩ := connecting
    refine ⟨session, ?_, fun _ _ => id⟩
    rw [Network.step]
    split
    · exact register_heap_old net pkt ref session held
    · exact held
  · rcases step_kinds verifyPassword net event (fun pkt same => connecting ⟨pkt, same⟩) with
      ⟨publication, found⟩ | ⟨k, pkt, rfl⟩ | ⟨_, quiet⟩
    · rw [silent] at found
      cases found
    · refine on_connection_rule (fun after => ∃ later, after.broker.heap[ref]? = some later ∧ ∀ pid message,
        later.inFlight.get pid = some message → session.inFlight.get pid = some message) net k _
        ⟨session, held, fun _ _ => id⟩ ?_
      intro connection _
      split
      · obtain ⟨later, heldLater, _, map⟩ := pub_ack_in_flight net.broker connection.session pkt ref session held
        rw [receive_broker]
        refine ⟨later, heldLater, fun pid message get => ?_⟩
        rw [map] at get
        split at get
        · rw [Assoc.get_remove] at get
          split at get
          · cases get
          · exact get
        · exact get
      · exact ⟨session, held, fun _ _ => id⟩
    · obtain ⟨later, heldLater, _, map⟩ := quiet ref session held
      exact ⟨later, heldLater, fun _ _ get => map ▸ get⟩

theorem respects_grants_iff (net : Network) (recorded : net.Recorded) (event : Event) :
    net.RespectsGrants verifyPassword event ↔ net.WithinGrants event := by
  constructor
  · intro respects publication found low delivery delivered acceptance serves session registered either
    exact granted_within verifyPassword net event publication found low (respects.publishes publication found low)
      delivery delivered acceptance serves session registered either
  · intro within
    constructor
    · intro publication found low
      exact publishes_granted verifyPassword net recorded event publication found low within
    · intro silent
      exact ⟨silent_sends_no_publish verifyPassword net event silent,
        silent_adds_no_message verifyPassword net event silent⟩

end Run

def storedAcceptance (row : (String × String) × SubscriptionRow) : Acceptance :=
  ⟨0, row.1.1, row.1.2, row.2.qos, row.2.subId⟩

def Network.boot (auth : AuthConfig) (db : Database) (bridgeSender : Option (List (String × Bytes))) : Network where
  broker := { (Host.boot auth db).broker with bridgeSender }
  accepted := db.subscriptions.entries.map storedAcceptance

theorem boot_named (auth : AuthConfig) (db : Database) : (Host.boot auth db).broker.Named := by
  have sessions : (db.sessions.entries.foldl BrokerState.restoreSession { auth }).Named := by
    refine List.foldlRecOn _ _ (fun clientId ref get => by cases get) ?_
    intro state named row _ clientId ref get
    have inserted : (state.sessions.insert row.1 state.heap.length).get clientId = some ref := get
    rw [Assoc.get_insert] at inserted
    by_cases same : row.1 = clientId
    · rw [if_pos same] at inserted
      cases inserted
      exact ⟨offlineSession row.1 row.2, List.getElem?_concat_length, same⟩
    · rw [if_neg same] at inserted
      obtain ⟨session, held, owned⟩ := named clientId ref inserted
      exact ⟨session, held_append _ _ _ _ held, owned⟩
  have subscriptions : ((db.subscriptions.entries.foldl BrokerState.restoreSubscription
      (db.sessions.entries.foldl BrokerState.restoreSession { auth }))).Named := by
    rw [restore_rows]
    exact sessions
  rw [Host.boot, BrokerState.restoreSessionsFromDb]
  dsimp only
  refine List.foldlRecOn _ _ subscriptions ?_
  intro state named row _
  unfold BrokerState.restoreInFlight
  split
  · rename_i ref _
    refine evolves_named (fun _ _ => True) state _ (modify_session_evolves _ state ref _ ?_) named
    exact fun session _ => grows_same _ _ _ rfl rfl
  · exact named

theorem boot_recorded (auth : AuthConfig) (db : Database) (bridgeSender : Option (List (String × Bytes))) :
    (Network.boot auth db bridgeSender).Recorded := by
  refine ⟨?_, boot_named auth db⟩
  have router : (Network.boot auth db bridgeSender).broker.router = fill (db.subscriptions.entries.map rowCall) :=
    boot_router auth db
  have table : tableOf (db.subscriptions.entries.map storedAcceptance) =
      fillTable (db.subscriptions.entries.map rowCall) := by
    rw [tableOf, fillTable, List.foldl_map, List.foldl_map]
    rfl
  rw [router, Network.boot]
  dsimp only
  rw [table]
  exact fill_refines _

theorem granted_qos_iff (verifyPassword : String → String → Bool) (auth : AuthConfig) (db : Database)
    (bridgeSender : Option (List (String × Bytes))) (events : List Event) :
    Run.Throughout (Network.step verifyPassword) (Network.RespectsGrants verifyPassword)
        (Network.boot auth db bridgeSender) events ↔
      Run.Throughout (Network.step verifyPassword) Network.WithinGrants (Network.boot auth db bridgeSender) events :=
  Run.throughout_congr_under _ Network.Recorded _ _ (step_recorded verifyPassword)
    (fun net event recorded => respects_grants_iff verifyPassword net recorded event) _ events
    (boot_recorded auth db bridgeSender)

def grantedQos0 : List Event :=
  [.connect ⟨"c", 60, true, none, none, {}⟩, .connect ⟨"p", 60, true, none, none, {}⟩,
    .packet 0 (.subscribe ⟨1, {}, [⟨"t", 0⟩]⟩)]

def afterGrant (db : Database) : Network := grantedQos0.foldl (Network.step fun _ _ => true) (Network.boot ⟨none⟩ db none)

def atQos1 : Event := .packet 1 (.publish ⟨false, 1, false, "t", some 7, {}, [1]⟩)

theorem message_above_the_grant :
    ¬∀ (verifyPassword : String → String → Bool) (auth : AuthConfig) (db : Database)
        (bridgeSender : Option (List (String × Bytes))) (events : List Event),
      Run.Throughout (Network.step verifyPassword) (Network.RespectsGrants verifyPassword)
        (Network.boot auth db bridgeSender) events := by
  intro all
  have last : (afterGrant {}).RespectsGrants (fun _ _ => true) atQos1 :=
    Run.throughout_last _ _ _ _ _ (all (fun _ _ => true) ⟨none⟩ {} none (grantedQos0 ++ [atQos1]))
  have published : (afterGrant {}).publication atQos1 = some ⟨"p", "t", [1], 1, false⟩ := by decide +kernel
  have granted := last.publishes _ published (by decide)
  have delivered : (⟨none, ⟨"c", 0, none⟩⟩ : Delivery) ∈ (afterGrant {}).broker.deliveries "t" := by decide +kernel
  have serves : (afterGrant {}).Serves "t" ⟨none, ⟨"c", 0, none⟩⟩ ⟨0, "c", "t", 0, none⟩ :=
    ⟨by decide +kernel, by decide +kernel, by decide +kernel, rfl⟩
  have online : ((afterGrant {}).broker.registered "c").map (·.receiverOpen) = some true := by decide +kernel
  obtain ⟨session, registered, isOpen⟩ := Option.map_eq_some_iff.mp online
  have bounded := granted_within (fun _ _ => true) (afterGrant {}) atQos1 _ published (by decide) granted _ delivered _ serves
    session registered (.inl isOpen)
  exact absurd bounded (by decide)

end Pipistrelle.Broker
