import Pipistrelle.Broker.ClientPacket
import Pipistrelle.Router.Matching

set_option autoImplicit false

/- What processing packets leaves alone: the sessions map, the credentials, who the
   sessions are, and the stored session rows. Everything it does to a session is to
   enqueue frames and to change the in-flight data. -/
namespace Pipistrelle.Broker

open Codec Router

structure Identity where
  clientId : String
  username : Option String
  cleanStart : Bool
  keepAlive : UInt16
  sessionExpiryInterval : UInt32
deriving DecidableEq, Repr

def ClientSession.identity (self : ClientSession) : Identity :=
  ⟨self.clientId, self.username, self.cleanStart, self.keepAlive, self.sessionExpiryInterval⟩

structure Grows (allowed : Bytes → Prop) (session later : ClientSession) : Prop where
  identity : later.identity = session.identity
  sent : ∃ frames, later.sent = session.sent ++ frames ∧ ∀ frame ∈ frames, allowed frame

theorem grows_same (allowed : Bytes → Prop) (session later : ClientSession) (identity : later.identity = session.identity)
    (sent : later.sent = session.sent) : Grows allowed session later :=
  ⟨identity, [], by rw [sent, List.append_nil], by simp⟩

theorem grows_refl (allowed : Bytes → Prop) (session : ClientSession) : Grows allowed session session :=
  grows_same allowed session session rfl rfl

theorem grows_trans (allowed : Bytes → Prop) (first second third : ClientSession) (early : Grows allowed first second)
    (late : Grows allowed second third) : Grows allowed first third := by
  obtain ⟨frames, appended, fine⟩ := early.sent
  obtain ⟨more, appendedMore, fineMore⟩ := late.sent
  refine ⟨late.identity.trans early.identity, frames ++ more, ?_, ?_⟩
  · rw [appendedMore, appended, List.append_assoc]
  · intro frame member
    rcases List.mem_append.mp member with old | new
    · exact fine frame old
    · exact fineMore frame new

theorem send_grows (allowed : Bytes → Prop) (session later : ClientSession) (buf : Bytes) (fine : allowed buf)
    (grown : Grows allowed session later) : Grows allowed session (later.send buf) := by
  apply grows_trans allowed session later _ grown
  unfold ClientSession.send
  split
  · exact ⟨rfl, [buf], rfl, fun frame member => (List.mem_singleton.mp member) ▸ fine⟩
  · exact grows_refl allowed later

theorem next_packet_id_identity (session : ClientSession) :
    session.getNextPacketId.2.identity = session.identity ∧ session.getNextPacketId.2.sent = session.sent := by
  unfold ClientSession.getNextPacketId
  dsimp only
  split <;> exact ⟨rfl, rfl⟩

structure Evolves (allowed : SessionRef → Bytes → Prop) (before after : BrokerState) : Prop where
  sessions : after.sessions = before.sessions
  auth : after.auth = before.auth
  size : after.heap.length = before.heap.length
  heap : ∀ ref session, before.heap[ref]? = some session →
    ∃ later, after.heap[ref]? = some later ∧ Grows (allowed ref) session later
  issued : ∃ writes, after.issued = before.issued ++ writes ∧
    ∀ write ∈ writes, ∀ clientId, write ≠ .deleteSession clientId

variable (allowed : SessionRef → Bytes → Prop)

theorem evolves_refl (state : BrokerState) : Evolves allowed state state :=
  ⟨rfl, rfl, rfl, fun _ session held => ⟨session, held, grows_refl _ session⟩, [], by simp, by simp⟩

theorem evolves_trans (first second third : BrokerState) (early : Evolves allowed first second)
    (late : Evolves allowed second third) : Evolves allowed first third := by
  obtain ⟨writes, appended, kept⟩ := early.issued
  obtain ⟨more, appendedMore, keptMore⟩ := late.issued
  refine ⟨late.sessions.trans early.sessions, late.auth.trans early.auth, late.size.trans early.size, ?_, ?_⟩
  · intro ref session held
    obtain ⟨middle, heldMiddle, grown⟩ := early.heap ref session held
    obtain ⟨later, heldLater, grownLater⟩ := late.heap ref middle heldMiddle
    exact ⟨later, heldLater, grows_trans _ session middle later grown grownLater⟩
  · refine ⟨writes ++ more, by rw [appendedMore, appended, List.append_assoc], ?_⟩
    intro write member
    rcases List.mem_append.mp member with old | new
    · exact kept write old
    · exact keptMore write new

theorem evolves_mono (wider : SessionRef → Bytes → Prop) (before after : BrokerState)
    (weaker : ∀ ref frame, allowed ref frame → wider ref frame) (evolved : Evolves allowed before after) :
    Evolves wider before after := by
  refine ⟨evolved.sessions, evolved.auth, evolved.size, ?_, evolved.issued⟩
  intro ref session held
  obtain ⟨later, heldLater, same, frames, appended, fine⟩ := evolved.heap ref session held
  exact ⟨later, heldLater, same, frames, appended, fun frame member => weaker ref frame (fine frame member)⟩

-- The counters, the router and the bridge channel are no part of the frame.
theorem evolves_of_same (before after : BrokerState) (sessions : after.sessions = before.sessions)
    (auth : after.auth = before.auth) (heap : after.heap = before.heap) (issued : after.issued = before.issued) :
    Evolves allowed before after :=
  ⟨sessions, auth, congrArg List.length heap, fun _ session held => ⟨session, heap ▸ held, grows_refl _ session⟩, [],
    by simp [issued], by simp⟩

theorem evolves_foldl {α : Type} (step : BrokerState → α → BrokerState) (items : List α) (keep : BrokerState → Prop)
    (kept : ∀ state item, item ∈ items → keep state → keep (step state item))
    (evolves : ∀ state item, item ∈ items → keep state → Evolves allowed state (step state item))
    (state : BrokerState) (start : keep state) : Evolves allowed state (items.foldl step state) := by
  induction items generalizing state with
  | nil => exact evolves_refl allowed state
  | cons item rest ih =>
      have first := evolves state item (by simp) start
      refine evolves_trans allowed _ _ _ first ?_
      exact ih (fun state other member => kept state other (by simp [member]))
        (fun state other member => evolves state other (by simp [member])) _ (kept state item (by simp) start)

theorem spawn_evolves (state : BrokerState) (write : StoredWrite) (kept : ∀ clientId, write ≠ .deleteSession clientId) :
    Evolves allowed state (state.spawn write) :=
  ⟨rfl, rfl, rfl, fun _ session held => ⟨session, held, grows_refl _ session⟩, [write], rfl,
    fun _ member => (List.mem_singleton.mp member) ▸ kept⟩

theorem modify_session_evolves (state : BrokerState) (target : SessionRef) (change : ClientSession → ClientSession)
    (grows : ∀ session, state.heap[target]? = some session → Grows (allowed target) session (change session)) :
    Evolves allowed state (state.modifySession target change) := by
  refine ⟨rfl, rfl, List.length_modify _ _ _, ?_, [], by simp [BrokerState.modifySession], by simp⟩
  intro ref session held
  unfold BrokerState.modifySession
  by_cases here : target = ref
  · subst here
    exact ⟨change session, by simp [held], grows session held⟩
  · exact ⟨session, by simp [here, held], grows_refl _ session⟩

def FrameFor (sessions : Assoc String SessionRef) (topic : String) (payload : Bytes) (qos : UInt8) (retain : Bool)
    (subInfo : SubscriptionInfo) (ref : SessionRef) (frame : Bytes) : Prop :=
  sessions.get subInfo.clientId = some ref ∧
    ∃ packetId, frame = publishFrame topic payload qos retain packetId subInfo.subscriptionIdentifier

theorem send_publish_evolves (state : BrokerState) (topic : String) (payload : Bytes) (qos : UInt8) (retain : Bool)
    (subInfo : SubscriptionInfo) :
    Evolves (FrameFor state.sessions topic payload qos retain subInfo) state
      (state.sendPublishToClient subInfo.clientId topic payload qos retain subInfo.subscriptionIdentifier) := by
  unfold BrokerState.sendPublishToClient
  cases get : state.sessions.get subInfo.clientId with
  | none => exact evolves_refl _ state
  | some ref =>
      dsimp only
      cases held : state.heap[ref]? with
      | none => exact evolves_refl _ state
      | some session =>
          dsimp only
          by_cases acknowledged : 0 < qos
          · rw [if_pos acknowledged]
            obtain ⟨same, sentSame⟩ := next_packet_id_identity session
            generalize session.getNextPacketId = allocated at same sentSame
            obtain ⟨pid, next⟩ := allocated
            refine evolves_trans _ _ _ _ (modify_session_evolves _ state ref _ ?_) (spawn_evolves _ _ _ (by simp))
            intro found foundHere
            rw [held] at foundHere
            cases foundHere
            exact send_grows _ _ _ _ ⟨get, some pid, rfl⟩ (grows_same _ _ _ same sentSame)
          · rw [if_neg acknowledged]
            refine modify_session_evolves _ state ref _ ?_
            intro found _
            exact send_grows _ _ _ _ ⟨get, none, rfl⟩ (grows_refl _ found)

theorem deliver_shared_evolves (state : BrokerState) (topic : String) (payload : Bytes) (qos : UInt8) (retain : Bool)
    (group : String) (subs : List SubscriptionInfo) :
    Evolves (fun ref frame => ∃ subInfo ∈ subs, FrameFor state.sessions topic payload qos retain subInfo ref frame)
      state (state.deliverShared topic payload qos retain group subs) := by
  unfold BrokerState.deliverShared
  dsimp only
  split
  · exact evolves_refl _ state
  · rename_i selected picked
    generalize turn : ({ state with sharedGroupCounters := _ } : BrokerState) = counted
    have same : counted.sessions = state.sessions := by rw [← turn]
    refine evolves_trans _ _ counted _ (by rw [← turn]; exact evolves_of_same _ _ _ rfl rfl rfl rfl) ?_
    refine evolves_mono _ _ _ _ ?_ (send_publish_evolves counted topic payload qos retain selected)
    exact fun ref frame sent => ⟨selected, List.mem_of_getElem? picked, same ▸ sent⟩

theorem forward_to_bridge_evolves (state : BrokerState) (fromClient topic : String) (payload : Bytes) :
    Evolves allowed state (state.forwardToBridge fromClient topic payload) := by
  unfold BrokerState.forwardToBridge
  split
  · exact evolves_refl _ state
  · exact evolves_of_same _ _ _ rfl rfl rfl rfl

theorem forward_to_bridge_router (state : BrokerState) (fromClient topic : String) (payload : Bytes) :
    (state.forwardToBridge fromClient topic payload).router = state.router := by
  unfold BrokerState.forwardToBridge
  split <;> rfl

theorem route_publish_evolves (state : BrokerState) (fromClient topic : String) (payload : Bytes) (qos : UInt8)
    (retain : Bool) :
    Evolves (fun ref frame => ∃ subInfo, Returned state.router topic subInfo ∧
        FrameFor state.sessions topic payload qos retain subInfo ref frame)
      state (state.routePublish fromClient topic payload qos retain) := by
  unfold BrokerState.routePublish
  dsimp only
  have counted : Evolves (fun ref frame => ∃ subInfo, Returned state.router topic subInfo ∧
      FrameFor state.sessions topic payload qos retain subInfo ref frame) state
      { state with metricsMessagesPublished := state.metricsMessagesPublished + 1 } :=
    evolves_of_same _ _ _ rfl rfl rfl rfl
  have forwarded := evolves_trans _ _ _ _ counted (forward_to_bridge_evolves _ _ fromClient topic payload)
  rw [forward_to_bridge_router]
  generalize BrokerState.forwardToBridge _ fromClient topic payload = started at forwarded ⊢
  refine evolves_trans _ _ _ _ forwarded (evolves_trans _ _ _ _ (evolves_foldl _ _ _
    (fun now => now.sessions = state.sessions) ?_ ?_ _ forwarded.sessions) (evolves_foldl _ _ _
    (fun now => now.sessions = state.sessions) ?_ ?_ _ ?_))
  · exact fun now subInfo _ same => (send_publish_evolves now topic payload qos retain subInfo).sessions.trans same
  · intro now subInfo member same
    refine evolves_mono _ _ _ _ ?_ (send_publish_evolves now topic payload qos retain subInfo)
    exact fun ref frame sent => ⟨subInfo, .inl member, same ▸ sent⟩
  · exact fun now entry _ same => (deliver_shared_evolves now topic payload qos retain entry.1 entry.2).sessions.trans same
  · intro now entry member same
    refine evolves_mono _ _ _ _ ?_ (deliver_shared_evolves now topic payload qos retain entry.1 entry.2)
    intro ref frame ⟨subInfo, chosen, sent⟩
    have held := (Assoc.mem_entries_iff _ entry.1 entry.2).mp member
    exact ⟨subInfo, .inr ⟨entry.1, entry.2, held, chosen⟩, same ▸ sent⟩
  · have normal := evolves_foldl (fun _ _ => True) (BrokerState.deliverNormal topic payload qos retain)
      (matchTopic state.router topic).normal (fun _ => True) (fun _ _ _ _ => trivial)
      (fun now subInfo _ _ => evolves_mono _ _ _ _ (fun _ _ _ => trivial)
        (send_publish_evolves now topic payload qos retain subInfo)) started trivial
    exact normal.sessions.trans forwarded.sessions

def IsPublishFrame (frame : Bytes) : Prop := (frame.head?.map fun (header : UInt8) => header >>> 4) = some 3

instance (frame : Bytes) : Decidable (IsPublishFrame frame) := inferInstanceAs (Decidable (_ = _))

theorem publish_frame_kind (packet : Packet) (kind : IsPublishFrame (encodePacket packet)) :
    ∃ pkt, packet = .publish pkt := by
  cases packet with
  | publish pkt => exact ⟨pkt, rfl⟩
  | connect _ | connAck _ | pubAck _ | subscribe _ | subAck _ | pingReq | pingResp | disconnect _ =>
      exact absurd kind (by simp only [IsPublishFrame, encodePacket, encodePayload, List.head?_cons]; decide)

theorem publish_frame_is_publish (topic : String) (payload : Bytes) (qos : UInt8) (retain : Bool)
    (packetId : Option UInt16) (subscriptionIdentifier : Option UInt32) :
    IsPublishFrame (publishFrame topic payload qos retain packetId subscriptionIdentifier) := by
  have all : ∀ retain : Bool, setFlag retain 0x01 (setFlag false 0x08 (fixedHeader 3) ||| (qos &&& 0x03) <<< 1) >>> 4 =
      3 := every_byte (by decide +kernel) qos
  exact congrArg some (all retain)

theorem reply_evolves (state : BrokerState) (target : SessionRef) (packet : Packet)
    (fine : allowed target (encodePacket packet)) : Evolves allowed state (state.reply target packet) :=
  modify_session_evolves allowed state target _ fun session _ =>
    send_grows _ session session _ fine (grows_refl _ session)

theorem reply_pub_ack_evolves (state : BrokerState) (target : SessionRef) (pkt : Publish) (reasonCode : UInt8)
    (fine : ∀ packetId, allowed target (encodePacket (.pubAck ⟨packetId, reasonCode, {}⟩))) :
    Evolves allowed state (state.replyPubAck target pkt reasonCode) := by
  unfold BrokerState.replyPubAck
  split
  · cases pkt.packetId with
    | none => exact evolves_refl _ state
    | some pid => exact reply_evolves allowed state target _ (fine pid)
  · exact evolves_refl _ state

def DeliveredBy (state : BrokerState) (packet : Packet) (ref : SessionRef) (frame : Bytes) : Prop :=
  IsPublishFrame frame → ∃ pkt subInfo, packet = .publish pkt ∧ Returned state.router pkt.topic subInfo ∧
    FrameFor state.sessions pkt.topic pkt.payload pkt.qos pkt.retain subInfo ref frame

theorem pub_ack_no_publish (packetId : UInt16) (reasonCode : UInt8) :
    ¬IsPublishFrame (encodePacket (.pubAck ⟨packetId, reasonCode, {}⟩)) := by
  intro kind
  obtain ⟨pkt, same⟩ := publish_frame_kind _ kind
  cases same

theorem reply_delivered (before state : BrokerState) (packet : Packet) (target : SessionRef) (answer : Packet)
    (other : ∀ pkt, answer ≠ .publish pkt) :
    Evolves (DeliveredBy before packet) state (state.reply target answer) := by
  refine reply_evolves _ state target answer ?_
  intro kind
  obtain ⟨pkt, same⟩ := publish_frame_kind answer kind
  exact absurd same (other pkt)

theorem reply_pub_ack_delivered (before state : BrokerState) (packet : Packet) (target : SessionRef) (pkt : Publish)
    (reasonCode : UInt8) : Evolves (DeliveredBy before packet) state (state.replyPubAck target pkt reasonCode) :=
  reply_pub_ack_evolves _ state target pkt reasonCode fun packetId kind =>
    absurd kind (pub_ack_no_publish packetId reasonCode)

theorem subscribe_evolves (state : BrokerState) (clientId topicFilter : String) (qos : UInt8)
    (subscriptionIdentifier : Option UInt32) :
    Evolves allowed state (state.subscribe clientId topicFilter qos subscriptionIdentifier) := by
  unfold BrokerState.subscribe
  dsimp only
  refine evolves_trans _ _ _ _ ?_
    (spawn_evolves _ _ (.saveSubscription clientId topicFilter qos subscriptionIdentifier) (by simp))
  exact evolves_of_same _ _ _ rfl rfl rfl rfl

theorem process_filters_evolves (state : BrokerState) (session : ClientSession) (subscriptionIdentifier : Option UInt32)
    (reasonCodes : List UInt8) (subs : List Subscription) :
    Evolves allowed state (state.processFilters session subscriptionIdentifier reasonCodes subs).1 := by
  induction subs generalizing state reasonCodes with
  | nil => exact evolves_refl _ state
  | cons sub rest ih =>
      rw [BrokerState.processFilters]
      refine evolves_trans _ _ _ _ ?_ (ih _ _)
      unfold BrokerState.processFilter
      split
      · exact subscribe_evolves allowed state _ _ _ _
      · exact evolves_refl _ state

theorem process_publish_evolves (state : BrokerState) (ref : SessionRef) (session : ClientSession) (pkt : Publish) :
    Evolves (DeliveredBy state (.publish pkt)) state (state.processPublish ref session pkt) := by
  unfold BrokerState.processPublish
  split
  · refine evolves_trans _ _ _ _ ?_ (reply_pub_ack_delivered state _ _ ref pkt 0)
    refine evolves_mono _ _ _ _ ?_ (route_publish_evolves state session.clientId pkt.topic pkt.payload pkt.qos pkt.retain)
    exact fun target frame ⟨subInfo, returned, sent⟩ _ => ⟨pkt, subInfo, rfl, returned, sent⟩
  · exact reply_pub_ack_delivered state state _ ref pkt 0x87

theorem process_client_packet_evolves (state : BrokerState) (ref : SessionRef) (packet : Packet) :
    Evolves (DeliveredBy state packet) state (processClientPacket state ref packet).1 := by
  unfold processClientPacket
  cases held : state.heap[ref]? with
  | none => exact evolves_refl _ state
  | some session =>
      dsimp only
      cases packet with
      | publish pkt => exact process_publish_evolves state ref session pkt
      | subscribe pkt =>
          dsimp only [BrokerState.processSubscribe]
          exact evolves_trans _ _ _ _ (process_filters_evolves _ state session _ _ _)
            (reply_delivered state _ _ ref _ (by simp))
      | pubAck pkt =>
          refine evolves_trans _ _ _ _ (modify_session_evolves _ state ref _ ?_) (spawn_evolves _ _ _ (by simp))
          exact fun found _ => grows_same _ _ _ rfl rfl
      | pingReq => exact reply_delivered state state _ ref _ (by simp)
      | connect _ | connAck _ | subAck _ | pingResp | disconnect _ => exact evolves_refl _ state

end Pipistrelle.Broker
