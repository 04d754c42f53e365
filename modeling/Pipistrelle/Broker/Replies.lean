import Mathlib.Logic.Function.Basic
import Pipistrelle.Broker.Delivery
import Pipistrelle.Broker.Ledger
import Pipistrelle.Codec.Reencode
import Pipistrelle.Lib.Run

set_option autoImplicit false

/- What a client gets for its requests. Replies and deliveries share the channel of
   a session, and a reply that finds no receiver is dropped like any other send. -/
namespace Pipistrelle.Broker

open Codec Router Auth

section Subscribe

variable (state : BrokerState) (session : ClientSession)

def BrokerState.mayRead (self : BrokerState) (session : ClientSession) (sub : Subscription) : Bool :=
  self.auth.authorize (session.username.getD "") sub.topicFilter "read"

def BrokerState.reasonCode (self : BrokerState) (session : ClientSession) (sub : Subscription) : UInt8 :=
  if self.mayRead session sub then sub.options &&& 0x03 else 0x87

def BrokerState.subAck (self : BrokerState) (session : ClientSession) (pkt : Subscribe) : Packet :=
  .subAck { packetId := pkt.packetId, properties := {}, reasonCodes := pkt.subscriptions.map (self.reasonCode session) }

theorem reason_code_refused_iff (sub : Subscription) :
    state.reasonCode session sub = 0x87 ↔ state.mayRead session sub = false := by
  have all : ∀ options : UInt8, options &&& 0x03 ≠ 0x87 := fun options => every_byte (by decide +kernel) options
  have granted := all sub.options
  unfold BrokerState.reasonCode
  cases state.mayRead session sub with
  | true => simpa using granted
  | false => simp

theorem reason_code_congr (now : BrokerState) (current : ClientSession) (auth : now.auth = state.auth)
    (username : current.username = session.username) : now.reasonCode current = state.reasonCode session := by
  funext sub
  rw [BrokerState.reasonCode, BrokerState.mayRead, auth, username]
  rfl

theorem process_filter_result (subscriptionIdentifier : Option UInt32) (sub : Subscription) :
    (state.processFilter session subscriptionIdentifier sub).1.heap = state.heap ∧
      (state.processFilter session subscriptionIdentifier sub).1.auth = state.auth ∧
      (state.processFilter session subscriptionIdentifier sub).2 = state.reasonCode session sub := by
  unfold BrokerState.processFilter BrokerState.reasonCode BrokerState.mayRead
  split
  · obtain ⟨heap, auth, _⟩ := subscribe_keeps state session.clientId sub.topicFilter (sub.options &&& 0x03)
      subscriptionIdentifier
    exact ⟨heap, auth, rfl⟩
  · exact ⟨rfl, rfl, rfl⟩

theorem process_filters_result (subscriptionIdentifier : Option UInt32) (codes : List UInt8) (subs : List Subscription) :
    (state.processFilters session subscriptionIdentifier codes subs).1.heap = state.heap ∧
      (state.processFilters session subscriptionIdentifier codes subs).2 = codes ++ subs.map (state.reasonCode session) := by
  induction subs generalizing state codes with
  | nil => exact ⟨rfl, (List.append_nil codes).symm⟩
  | cons sub rest ih =>
      obtain ⟨heap, auth, code⟩ := process_filter_result state session subscriptionIdentifier sub
      obtain ⟨later, laterCodes⟩ := ih (state.processFilter session subscriptionIdentifier sub).1
        (codes ++ [(state.processFilter session subscriptionIdentifier sub).2])
      have same := reason_code_congr state session (state.processFilter session subscriptionIdentifier sub).1 session auth rfl
      rw [BrokerState.processFilters]
      refine ⟨later.trans heap, ?_⟩
      rw [laterCodes, same, code, List.map_cons, List.append_assoc, List.singleton_append]

end Subscribe

def subscriptionAt (root : TrieNode) (key : Key) : Option SubscriptionInfo :=
  (trieShape.valueAt key.levels root).entry key.clientId key.group

def accept (clientId : String) (subscriptionIdentifier : Option UInt32) (held : Key → Option SubscriptionInfo)
    (sub : Subscription) : Key → Option SubscriptionInfo :=
  Function.update held (keyOf clientId sub.topicFilter) (some ⟨clientId, sub.options &&& 0x03, subscriptionIdentifier⟩)

theorem subscribe_plants (root : TrieNode) (clientId topicFilter : String) (qos : UInt8)
    (subscriptionIdentifier : Option UInt32) :
    Router.subscribe root clientId topicFilter qos subscriptionIdentifier =
      trieShape.plant (Held.store (keyOf clientId topicFilter).group ⟨clientId, qos, subscriptionIdentifier⟩)
        (keyOf clientId topicFilter).levels root := by
  rw [Router.subscribe, keyOf, filterLevels]
  generalize parseSharedSubscription topicFilter = parsed
  exact subscribe_at_plant parsed.1 _ _ root

theorem subscription_at_subscribe (root : TrieNode) (clientId topicFilter : String) (qos : UInt8)
    (subscriptionIdentifier : Option UInt32) :
    subscriptionAt (Router.subscribe root clientId topicFilter qos subscriptionIdentifier) =
      Function.update (subscriptionAt root) (keyOf clientId topicFilter) (some ⟨clientId, qos, subscriptionIdentifier⟩) := by
  have named : (keyOf clientId topicFilter).clientId = clientId := rfl
  rw [subscribe_plants]
  generalize keyOf clientId topicFilter = target at named ⊢
  funext key
  rw [Function.update_apply, subscriptionAt, subscriptionAt, trieShape.value_at_plant]
  by_cases here : key.levels = target.levels
  · rw [if_pos here, entry_store, ← here]
    dsimp only
    by_cases same : key.clientId = clientId ∧ key.group = target.group
    · have whole : key = target := by
        obtain ⟨client, group, levels⟩ := key
        obtain ⟨client', group', levels'⟩ := target
        simp_all
      rw [if_pos same, if_pos whole]
    · have apart : key ≠ target := by
        rintro rfl
        exact same ⟨named, rfl⟩
      rw [if_neg same, if_neg apart]
  · rw [if_neg here, if_neg fun whole => here (congrArg Key.levels whole)]

section Accepted

variable (clientId : String) (subscriptionIdentifier : Option UInt32)

theorem accept_all_other (subs : List Subscription) (held : Key → Option SubscriptionInfo) (key : Key)
    (others : ∀ sub ∈ subs, keyOf clientId sub.topicFilter ≠ key) :
    subs.foldl (accept clientId subscriptionIdentifier) held key = held key := by
  induction subs generalizing held with
  | nil => rfl
  | cons sub rest ih =>
      obtain ⟨here, later⟩ := List.forall_mem_cons.mp others
      rw [List.foldl_cons, ih _ later, accept, Function.update_of_ne (Ne.symm here)]

theorem accept_all_last (before later : List Subscription) (sub : Subscription) (held : Key → Option SubscriptionInfo)
    (last : ∀ other ∈ later, keyOf clientId other.topicFilter ≠ keyOf clientId sub.topicFilter) :
    (before ++ sub :: later).foldl (accept clientId subscriptionIdentifier) held (keyOf clientId sub.topicFilter) =
      some ⟨clientId, sub.options &&& 0x03, subscriptionIdentifier⟩ := by
  rw [List.foldl_append, List.foldl_cons, accept_all_other clientId subscriptionIdentifier later _ _ last, accept,
    Function.update_self]

theorem subscription_at_accepted (ref : SessionRef) (root : TrieNode) (subs : List Subscription) :
    subscriptionAt ((subs.map fun sub => (⟨ref, clientId, sub.topicFilter, sub.options &&& 0x03, subscriptionIdentifier⟩ :
        Acceptance)).foldl subscribeAccepted root) =
      subs.foldl (accept clientId subscriptionIdentifier) (subscriptionAt root) := by
  induction subs generalizing root with
  | nil => rfl
  | cons sub rest ih =>
      rw [List.map_cons, List.foldl_cons, List.foldl_cons, ih, subscribeAccepted, subscription_at_subscribe, accept]

end Accepted

-- The SUBACK goes into the session's channel if that has a receiver, and nothing else
-- goes anywhere. The authorized filters, and only they, are in the router then.
structure Subscribed (state : BrokerState) (ref : SessionRef) (session : ClientSession) (pkt : Subscribe)
    (after : BrokerState) : Prop where
  acknowledged : ∃ later, after.heap[ref]? = some later ∧ later.sent = session.sent ++
    if session.receiverOpen then [encodePacket (state.subAck session pkt)] else []
  others : ∀ other, other ≠ ref → after.heap[other]? = state.heap[other]?
  inOrder : subscriptionAt after.router = (pkt.subscriptions.filter (state.mayRead session)).foldl
    (accept session.clientId pkt.properties.subscriptionIdentifier) (subscriptionAt state.router)
  refused : ∀ key, (∀ sub ∈ pkt.subscriptions, state.mayRead session sub = true → keyOf session.clientId sub.topicFilter ≠ key) →
    subscriptionAt after.router key = subscriptionAt state.router key
  otherClients : ∀ key, key.clientId ≠ session.clientId → subscriptionAt after.router key = subscriptionAt state.router key
  lastWins : ∀ before sub later, pkt.subscriptions = before ++ sub :: later → state.mayRead session sub = true →
    (∀ other ∈ later, state.mayRead session other = true →
      keyOf session.clientId other.topicFilter ≠ keyOf session.clientId sub.topicFilter) →
    subscriptionAt after.router (keyOf session.clientId sub.topicFilter) =
      some ⟨session.clientId, sub.options &&& 0x03, pkt.properties.subscriptionIdentifier⟩
  table : ∀ accepted, Refines state.router (tableOf accepted) →
    Refines after.router (tableOf (accepted ++ acceptances state ref (.subscribe pkt)))

theorem subscribe_answered (state : BrokerState) (ref : SessionRef) (session : ClientSession) (pkt : Subscribe)
    (held : state.heap[ref]? = some session) :
    Subscribed state ref session pkt (processClientPacket state ref (.subscribe pkt)).1 := by
  have routed := process_client_packet_router state ref (.subscribe pkt)
  have accepted : acceptances state ref (.subscribe pkt) = (pkt.subscriptions.filter (state.mayRead session)).map fun sub =>
      ⟨ref, session.clientId, sub.topicFilter, sub.options &&& 0x03, pkt.properties.subscriptionIdentifier⟩ := by
    unfold acceptances
    simp only [held]
    rfl
  obtain ⟨heap, codes⟩ := process_filters_result state session pkt.properties.subscriptionIdentifier [] pkt.subscriptions
  rw [List.nil_append] at codes
  have answered : ∀ other, (processClientPacket state ref (.subscribe pkt)).1.heap[other]? =
      if ref = other then (state.heap[other]?).map (·.send (encodePacket (state.subAck session pkt)))
      else state.heap[other]? := by
    intro other
    rw [processClientPacket, held]
    dsimp only [BrokerState.processSubscribe, BrokerState.reply]
    rw [modify_session_heap, heap, codes]
    rfl
  have inOrder := subscription_at_accepted session.clientId pkt.properties.subscriptionIdentifier ref state.router
    (pkt.subscriptions.filter (state.mayRead session))
  rw [← accepted, ← routed] at inOrder
  refine ⟨?_, ?_, inOrder, ?_, ?_, ?_, ?_⟩
  · refine ⟨_, by rw [answered, if_pos rfl, held, Option.map_some], ?_⟩
    rw [send_sent]
    split
    · rfl
    · rw [List.append_nil]
  · exact fun other different => (answered other).trans (if_neg different.symm)
  · intro key absent
    rw [inOrder]
    apply accept_all_other
    intro sub member
    obtain ⟨requested, allowed⟩ := List.mem_filter.mp member
    exact absent sub requested allowed
  · intro key different
    rw [inOrder]
    apply accept_all_other
    rintro sub - rfl
    exact different rfl
  · intro before sub later parts allowed last
    rw [inOrder, parts, List.filter_append, List.filter_cons_of_pos allowed]
    apply accept_all_last
    intro other member
    obtain ⟨requested, allowed⟩ := List.mem_filter.mp member
    exact last other requested allowed
  · intro rows refines
    rw [routed]
    exact subscribe_all_refines state.router rows _ refines

theorem subscribe_processed (state : BrokerState) (ref : SessionRef) (session : ClientSession) (pkt : Subscribe)
    (held : state.heap[ref]? = some session) :
    Subscribed state ref session pkt (processClientPacket state ref (.subscribe pkt)).1 ∧
      (processClientPacket state ref (.subscribe pkt)).2 = none ∧
      ∀ sub, (state.reasonCode session sub = 0x87 ↔ state.mayRead session sub = false) ∧
        (state.mayRead session sub = true → state.reasonCode session sub = sub.options &&& 0x03) := by
  refine ⟨subscribe_answered state ref session pkt held, ?_, ?_⟩
  · simp only [processClientPacket, held]
  · exact fun sub => ⟨reason_code_refused_iff state session sub, fun allowed => if_pos allowed⟩

def connected : BrokerState := (BrokerState.openConnection { auth := ⟨none⟩ } ⟨"c", 60, true, none, none, {}⟩).1

theorem connected_session :
    connected.heap[0]? = some ((newSession ⟨"c", 60, true, none, none, {}⟩).send (encodePacket (connAckReply 0))) := rfl

def twice : Subscribe := ⟨7, {}, [⟨"t", 0⟩, ⟨"t", 1⟩]⟩

theorem twice_processed : subscriptionAt (processClientPacket connected 0 (.subscribe twice)).1.router (keyOf "c" "t") =
    some ⟨"c", 1, none⟩ :=
  (subscribe_processed connected 0 _ twice connected_session).1.lastWins [⟨"t", 0⟩] ⟨"t", 1⟩ [] rfl (by decide +kernel) nofun

def afterWriterEnds : BrokerState :=
  ([.connect ⟨"c", 60, true, none, none, {}⟩, .writerEnds 0].foldl (Network.step fun _ _ => true)
    { broker := { auth := ⟨none⟩ } }).broker

theorem after_writer_ends_session : ∃ session, afterWriterEnds.heap[0]? = some session ∧ session.receiverOpen = false := by
  have closed : (afterWriterEnds.heap[0]?).map (·.receiverOpen) = some false := by decide +kernel
  exact Option.map_eq_some_iff.mp closed

theorem gone_writer_gets_no_sub_ack :
    ¬∀ (state : BrokerState) (ref : SessionRef) (session : ClientSession) (pkt : Subscribe),
      state.heap[ref]? = some session → ∃ later,
        (processClientPacket state ref (.subscribe pkt)).1.heap[ref]? = some later ∧
          later.sent = session.sent ++ [encodePacket (state.subAck session pkt)] := by
  intro all
  obtain ⟨session, held, closed⟩ := after_writer_ends_session
  obtain ⟨later, found, sent⟩ := all afterWriterEnds 0 session twice held
  obtain ⟨other, same, nothing⟩ := (subscribe_answered afterWriterEnds 0 session twice held).acknowledged
  cases found.symm.trans same
  rw [sent, closed] at nothing
  simp at nothing

section Answers

def BrokerState.answer (self : BrokerState) (session : ClientSession) : Packet → Option Packet
  | .publish pkt =>
      if pkt.qos = 1 then
        some (.pubAck {
          packetId := pkt.packetId.getD 0
          reasonCode := if self.auth.authorize (session.username.getD "") pkt.topic "write" then 0 else 0x87
          properties := {} })
      else none
  | .subscribe pkt => some (self.subAck session pkt)
  | .pingReq => some .pingResp
  | _ => none

def Decodable (packet : Packet) : Prop := ∃ buf bytesRead, decodePacket buf = .ok (packet, bytesRead)

theorem decodable_packet_id (pkt : Publish) (decodable : Decodable (.publish pkt)) (qos : pkt.qos = 1) :
    ∃ pid, pkt.packetId = some pid := by
  obtain ⟨buf, bytesRead, decoded⟩ := decodable
  obtain ⟨_, present, _⟩ := (decoded_encodable buf _ bytesRead decoded).1
  exact Option.isSome_iff_exists.mp (present.mpr (by rw [qos]; decide))

theorem answer_not_publish (state : BrokerState) (session : ClientSession) (packet answer : Packet)
    (answered : state.answer session packet = some answer) : ¬IsPublishFrame (encodePacket answer) := by
  intro kind
  obtain ⟨pkt, rfl⟩ := publish_frame_kind answer kind
  unfold BrokerState.answer at answered
  split at answered
  · split at answered <;> cases answered
  · cases answered
  · cases answered
  · cases answered

end Answers

-- What came into the channel besides PUBLISH frames; nothing comes to a dropped receiver.
structure Answered (replies : List Bytes) (session later : ClientSession) : Prop where
  identity : later.identity = session.identity
  isOpen : later.receiverOpen = session.receiverOpen
  sent : ∃ frames, later.sent = session.sent ++ frames ∧
    frames.filter (fun frame => ¬IsPublishFrame frame) = if session.receiverOpen then replies else []
  gone : session.receiverOpen = false → later.sent = session.sent

theorem answered_same (session later : ClientSession) (identity : later.identity = session.identity)
    (isOpen : later.receiverOpen = session.receiverOpen) (sent : later.sent = session.sent) : Answered [] session later :=
  ⟨identity, isOpen, ⟨[], by rw [sent, List.append_nil], by simp⟩, fun _ => sent⟩

theorem answered_trans (replies more : List Bytes) (first second third : ClientSession)
    (early : Answered replies first second) (late : Answered more second third) : Answered (replies ++ more) first third := by
  obtain ⟨frames, appended, kept⟩ := early.sent
  obtain ⟨frames', appended', kept'⟩ := late.sent
  refine ⟨late.identity.trans early.identity, late.isOpen.trans early.isOpen, ⟨frames ++ frames', ?_, ?_⟩, fun closed => ?_⟩
  · rw [appended', appended, List.append_assoc]
  · rw [List.filter_append, kept, kept', early.isOpen]
    split <;> rfl
  · exact (late.gone (early.isOpen.trans closed)).trans (early.gone closed)

theorem answered_send (session : ClientSession) (frame : Bytes) (reply : ¬IsPublishFrame frame) :
    Answered [frame] session (session.send frame) := by
  have sent := send_sent session frame
  refine ⟨by rw [send_keeps]; rfl, by rw [send_keeps], ?_, fun closed => by simpa [closed] using sent⟩
  rw [sent]
  cases session.receiverOpen with
  | true => exact ⟨[frame], rfl, by simp [reply]⟩
  | false => exact ⟨[], (List.append_nil _).symm, rfl⟩

def AnsweredAll (ref : SessionRef) (replies : List Bytes) (before after : BrokerState) : Prop :=
  ∀ other session, before.heap[other]? = some session →
    ∃ later, after.heap[other]? = some later ∧ Answered (if other = ref then replies else []) session later

theorem answered_all_heap (ref : SessionRef) (before after : BrokerState) (same : after.heap = before.heap) :
    AnsweredAll ref [] before after := by
  intro other session held
  refine ⟨session, by rw [same]; exact held, ?_⟩
  rw [ite_self]
  exact answered_same session session rfl rfl rfl

theorem answered_all_trans (ref : SessionRef) (replies more : List Bytes) (first second third : BrokerState)
    (early : AnsweredAll ref replies first second) (late : AnsweredAll ref more second third) :
    AnsweredAll ref (replies ++ more) first third := by
  intro other session held
  obtain ⟨middle, heldMiddle, answered⟩ := early other session held
  obtain ⟨later, heldLater, answeredLater⟩ := late other middle heldMiddle
  refine ⟨later, heldLater, ?_⟩
  have both := answered_trans _ _ session middle later answered answeredLater
  by_cases own : other = ref
  · simpa only [if_pos own] using both
  · simpa only [if_neg own, List.append_nil] using both

theorem reply_answers (state : BrokerState) (ref : SessionRef) (answer : Packet)
    (reply : ¬IsPublishFrame (encodePacket answer)) :
    AnsweredAll ref [encodePacket answer] state (state.reply ref answer) := by
  intro other session held
  rw [BrokerState.reply, modify_session_heap]
  by_cases own : ref = other
  · rw [if_pos own, if_pos own.symm, held]
    exact ⟨_, rfl, answered_send session _ reply⟩
  · rw [if_neg own, if_neg (Ne.symm own), held]
    exact ⟨session, rfl, answered_same session session rfl rfl rfl⟩

theorem modify_answers (state : BrokerState) (ref target : SessionRef) (change : ClientSession → ClientSession)
    (silent : ∀ session, Answered [] session (change session)) : AnsweredAll ref [] state (state.modifySession target change) := by
  intro other session held
  rw [modify_session_heap, ite_self]
  split
  · rw [held]
    exact ⟨_, rfl, silent session⟩
  · exact ⟨session, held, answered_same session session rfl rfl rfl⟩

theorem route_publish_answers (ref : SessionRef) (state : BrokerState) (fromClient topic : String) (payload : Bytes)
    (qos : UInt8) (retain : Bool) : AnsweredAll ref [] state (state.routePublish fromClient topic payload qos retain) := by
  intro other session held
  obtain ⟨later, heldLater, identity, frames, appended, sentFor⟩ :=
    (route_publish_evolves state fromClient topic payload qos retain).heap other session held
  have delivered := route_publish_heap topic payload qos retain state fromClient other
  rw [heldLater, held] at delivered
  refine ⟨later, heldLater, identity, ?_, ⟨frames, appended, ?_⟩, fun closed => ?_⟩
  · rw [Option.some.inj delivered]
    exact receive_all_open topic payload qos retain session _
  · have deliveries : frames.filter (fun frame => ¬IsPublishFrame frame) = [] := by
      rw [List.filter_eq_nil_iff]
      intro frame member
      obtain ⟨_, _, _, packetId, rfl⟩ := sentFor frame member
      simpa using publish_frame_is_publish topic payload qos retain packetId _
    rw [deliveries, ite_self, ite_self]
  · rw [Option.some.inj delivered, receive_all_sent, closed]
    rfl

theorem pub_ack_answers (state : BrokerState) (ref : SessionRef) (pkt : Publish) (reasonCode : UInt8)
    (decodable : Decodable (.publish pkt)) :
    AnsweredAll ref (if pkt.qos = 1 then [encodePacket (.pubAck ⟨pkt.packetId.getD 0, reasonCode, {}⟩)] else []) state
      (state.replyPubAck ref pkt reasonCode) := by
  unfold BrokerState.replyPubAck
  by_cases acknowledged : pkt.qos = 1
  · obtain ⟨pid, present⟩ := decodable_packet_id pkt decodable acknowledged
    rw [if_pos acknowledged, if_pos acknowledged, present]
    exact reply_answers state ref _ (pub_ack_no_publish pid reasonCode)
  · rw [if_neg acknowledged, if_neg acknowledged]
    exact answered_all_heap ref state state rfl

theorem packet_answered (state : BrokerState) (ref : SessionRef) (session : ClientSession) (packet : Packet)
    (held : state.heap[ref]? = some session) (decodable : Decodable packet) :
    AnsweredAll ref ((state.answer session packet).toList.map encodePacket) state (processClientPacket state ref packet).1 := by
  unfold processClientPacket
  simp only [held]
  cases packet with
  | publish pkt =>
      dsimp only [BrokerState.processPublish, BrokerState.answer]
      by_cases allowed : state.auth.authorize (session.username.getD "") pkt.topic "write" = true
      · rw [if_pos allowed]
        have routed := route_publish_answers ref state session.clientId pkt.topic pkt.payload pkt.qos pkt.retain
        have acked := pub_ack_answers (state.routePublish session.clientId pkt.topic pkt.payload pkt.qos pkt.retain) ref pkt 0
          decodable
        have both := answered_all_trans ref _ _ _ _ _ routed acked
        rw [if_pos allowed]
        split at both <;> rename_i acknowledged
        · rwa [if_pos acknowledged]
        · rwa [if_neg acknowledged]
      · rw [if_neg allowed, if_neg allowed]
        have acked := pub_ack_answers state ref pkt 0x87 decodable
        split at acked <;> rename_i acknowledged
        · rwa [if_pos acknowledged]
        · rwa [if_neg acknowledged]
  | subscribe pkt =>
      obtain ⟨heap, codes⟩ := process_filters_result state session pkt.properties.subscriptionIdentifier [] pkt.subscriptions
      dsimp only [BrokerState.processSubscribe]
      rw [codes, List.nil_append]
      have filtered := answered_all_heap ref state _ heap
      exact answered_all_trans ref [] _ _ _ _ filtered (reply_answers _ ref (state.subAck session pkt)
        (answer_not_publish state session (.subscribe pkt) _ rfl))
  | pubAck pkt => exact modify_answers state ref ref _ fun session => answered_same session _ rfl rfl rfl
  | pingReq => exact reply_answers state ref .pingResp (answer_not_publish state session .pingReq _ rfl)
  | connect _ | connAck _ | subAck _ | pingResp | disconnect _ => exact answered_all_heap ref state state rfl

-- The packets of one session, up to the first error. The packets that were handed to
-- process_client_packet are returned beside the state.
def processPackets (ref : SessionRef) (state : BrokerState) : List Packet → BrokerState × List Packet
  | [] => (state, [])
  | packet :: rest =>
      let result := processClientPacket state ref packet
      if result.2.isSome then (result.1, [packet])
      else
        let later := processPackets ref result.1 rest
        (later.1, packet :: later.2)

-- A refused PUBLISH puts no PUBLISH frame into any channel. Of an accepted one with
-- QoS 1, every delivery is in its channel before the PUBACK is sent.
structure InOrder (ref : SessionRef) (session : ClientSession) (now : BrokerState) (packet : Packet) : Prop where
  refused : ∀ pkt, packet = .publish pkt → now.auth.authorize (session.username.getD "") pkt.topic "write" = false →
    ∀ (other : SessionRef) (before : ClientSession), now.heap[other]? = some before →
      ∃ (later : ClientSession) (frames : List Bytes), (processClientPacket now ref packet).1.heap[other]? = some later ∧
        later.sent = before.sent ++ frames ∧ ∀ frame ∈ frames, ¬IsPublishFrame frame
  accepted : ∀ pkt, packet = .publish pkt → now.auth.authorize (session.username.getD "") pkt.topic "write" = true →
    pkt.qos = 1 → ∃ (pid : UInt16) (delivered : BrokerState), pkt.packetId = some pid ∧
      (∀ (other : SessionRef) (before : ClientSession), now.heap[other]? = some before →
        ∃ later : ClientSession, delivered.heap[other]? = some later ∧
          later.sent = if before.receiverOpen then before.sent ++ frames pkt.topic pkt.payload pkt.qos pkt.retain
            (before.frameIds pkt.qos (now.served pkt.topic other).length)
              ((now.served pkt.topic other).map (·.sub.subscriptionIdentifier)) else before.sent) ∧
      (processClientPacket now ref packet).1 = delivered.reply ref (.pubAck ⟨pid, 0, {}⟩)

theorem packet_in_order (ref : SessionRef) (session current : ClientSession) (now : BrokerState) (packet : Packet)
    (held : now.heap[ref]? = some current) (same : current.username = session.username) (decodable : Decodable packet) :
    InOrder ref session now packet where
  refused pkt eq unauthorized other before heldBefore := by
    subst eq
    have refused : ¬now.auth.authorize (current.username.getD "") pkt.topic "write" = true := by
      rw [same, unauthorized]
      decide
    have evolved := reply_pub_ack_evolves (fun _ frame => ¬IsPublishFrame frame) now ref pkt 0x87
      fun packetId => pub_ack_no_publish packetId 0x87
    obtain ⟨later, found, _, frames, appended, fine⟩ := evolved.heap other before heldBefore
    refine ⟨later, frames, ?_, appended, fine⟩
    simp only [processClientPacket, held, BrokerState.processPublish, if_neg refused]
    exact found
  accepted pkt eq allowed acknowledged := by
    subst eq
    rw [← same] at allowed
    obtain ⟨pid, present⟩ := decodable_packet_id pkt decodable acknowledged
    refine ⟨pid, now.routePublish current.clientId pkt.topic pkt.payload pkt.qos pkt.retain, present, ?_, ?_⟩
    · intro other before heldBefore
      refine ⟨_, by rw [route_publish_heap, heldBefore, Option.map_some], ?_⟩
      rw [receive_all_sent, List.length_map]
    · simp only [processClientPacket, held, BrokerState.processPublish, if_pos allowed, BrokerState.replyPubAck,
        if_pos acknowledged, present]

theorem answer_congr (state now : BrokerState) (session current : ClientSession) (auth : now.auth = state.auth)
    (username : current.username = session.username) : now.answer current = state.answer session := by
  funext packet
  simp only [BrokerState.answer, BrokerState.subAck, auth, username, reason_code_congr state session now current auth username]

-- By induction on the packets: neither the permissions nor the user of the session change.
theorem packets_answered (ref : SessionRef) (session current : ClientSession) (state now : BrokerState)
    (packets : List Packet) (held : now.heap[ref]? = some current) (username : current.username = session.username)
    (auth : now.auth = state.auth) (decodable : ∀ packet ∈ packets, Decodable packet) :
    AnsweredAll ref (((processPackets ref now packets).2.filterMap (state.answer session)).map encodePacket) now
        (processPackets ref now packets).1 ∧
      Run.Throughout (fun now packet => (processClientPacket now ref packet).1) (InOrder ref session) now
        (processPackets ref now packets).2 := by
  induction packets generalizing now current with
  | nil => exact ⟨answered_all_heap ref now now rfl, trivial⟩
  | cons packet rest ih =>
      obtain ⟨here, later⟩ := List.forall_mem_cons.mp decodable
      have answered := packet_answered now ref current packet held here
      rw [answer_congr state now session current auth username] at answered
      have ordered := packet_in_order ref session current now packet held username here
      have evolved := process_client_packet_evolves now ref packet
      obtain ⟨next, heldNext, grown⟩ := evolved.heap ref current held
      have sameUser : next.username = session.username := (congrArg Identity.username grown.identity).trans username
      rw [processPackets]
      dsimp only
      split
      · refine ⟨?_, ordered, trivial⟩
        rw [List.filterMap_cons]
        cases reply : state.answer session packet with
        | none => simpa [reply] using answered
        | some answer => simpa [reply] using answered
      · obtain ⟨restAnswered, restOrdered⟩ := ih next _ heldNext sameUser (evolved.auth.trans auth) later
        have both := answered_all_trans ref _ _ _ _ _ answered restAnswered
        refine ⟨?_, ordered, restOrdered⟩
        rw [List.filterMap_cons]
        cases reply : state.answer session packet with
        | none => simpa [reply] using both
        | some answer => simpa [reply] using both

theorem requests_answered_in_order (state : BrokerState) (ref : SessionRef) (session : ClientSession)
    (packets : List Packet) (held : state.heap[ref]? = some session) (decodable : ∀ packet ∈ packets, Decodable packet) :
    (∃ later frames, (processPackets ref state packets).1.heap[ref]? = some later ∧ later.sent = session.sent ++ frames ∧
        (frames.filter (fun frame => ¬IsPublishFrame frame) = if session.receiverOpen then
          ((processPackets ref state packets).2.filterMap (state.answer session)).map encodePacket else []) ∧
        (session.receiverOpen = false → later.sent = session.sent)) ∧
      (∀ other before, other ≠ ref → state.heap[other]? = some before → ∃ (later : ClientSession) (frames : List Bytes),
        (processPackets ref state packets).1.heap[other]? = some later ∧ later.sent = before.sent ++ frames ∧
          ∀ frame ∈ frames, IsPublishFrame frame) ∧
      Run.Throughout (fun now packet => (processClientPacket now ref packet).1) (InOrder ref session) state
        (processPackets ref state packets).2 := by
  obtain ⟨answered, ordered⟩ := packets_answered ref session session state state packets held rfl rfl decodable
  refine ⟨?_, ?_, ordered⟩
  · obtain ⟨later, found, _, _, ⟨frames, appended, kept⟩, gone⟩ := answered ref session held
    rw [if_pos rfl] at kept
    exact ⟨later, frames, found, appended, kept, gone⟩
  · intro other before different heldBefore
    obtain ⟨later, found, _, _, ⟨frames, appended, kept⟩, _⟩ := answered other before heldBefore
    rw [if_neg different, ite_self, List.filter_eq_nil_iff] at kept
    exact ⟨later, frames, found, appended, fun frame member => by simpa using kept frame member⟩

def shortSession : List Packet :=
  [.pingReq, .publish ⟨false, 1, false, "t", some 9, {}, [1]⟩, .connect ⟨"c", 60, true, none, none, {}⟩, .pingReq]

theorem short_session_decodable : ∀ packet ∈ shortSession, Decodable packet := by
  have encodes : ∀ packet ∈ shortSession, decodePacket (encodePacket packet) = .ok (packet, (encodePacket packet).length) := by
    decide +kernel
  exact fun packet member => ⟨_, _, encodes packet member⟩

theorem short_session_answered : ∃ later frames, (processPackets 0 connected shortSession).1.heap[0]? = some later ∧
    later.sent = [encodePacket (connAckReply 0)] ++ frames ∧ frames.filter (fun frame => ¬IsPublishFrame frame) =
      [encodePacket .pingResp, encodePacket (.pubAck ⟨9, 0, {}⟩)] := by
  obtain ⟨later, frames, found, appended, kept, _⟩ :=
    (requests_answered_in_order connected 0 _ shortSession connected_session short_session_decodable).1
  exact ⟨later, frames, found, appended, kept⟩

theorem gone_writer_gets_no_replies :
    ¬∀ (state : BrokerState) (ref : SessionRef) (session : ClientSession) (packets : List Packet),
      state.heap[ref]? = some session → (∀ packet ∈ packets, Decodable packet) → ∃ later frames,
        (processPackets ref state packets).1.heap[ref]? = some later ∧ later.sent = session.sent ++ frames ∧
          frames.filter (fun frame => ¬IsPublishFrame frame) =
            ((processPackets ref state packets).2.filterMap (state.answer session)).map encodePacket := by
  intro all
  obtain ⟨session, held, closed⟩ := after_writer_ends_session
  have decodable : ∀ packet ∈ [Packet.pingReq], Decodable packet := fun packet member =>
    ⟨[0xC0, 0x00], 2, by rw [List.mem_singleton.mp member]; decide⟩
  obtain ⟨later, frames, found, appended, kept⟩ := all afterWriterEnds 0 session [.pingReq] held decodable
  obtain ⟨other, same, _, _, ⟨rest, nothing, dropped⟩, _⟩ := (packets_answered 0 session session afterWriterEnds afterWriterEnds
    [.pingReq] held rfl rfl decodable).1 0 session held
  have handed : (processPackets 0 afterWriterEnds [.pingReq]).2 = [.pingReq] := by
    simp [processPackets, processClientPacket, held]
  cases found.symm.trans same
  rw [appended, List.append_cancel_left_eq] at nothing
  rw [nothing, dropped, closed, handed] at kept
  exact absurd kept (by simp [BrokerState.answer])

end Pipistrelle.Broker
