import Pipistrelle.Broker.Bridge
import Pipistrelle.Lib.LockThreads

set_option autoImplicit false

/- The operations of src/session.rs and src/main.rs as threads run them: one step is one
   atomic access or the taking or giving back of one lock, where Network takes a whole
   packet at once. The mutex of the database, under which no other lock is taken, is left
   out with its tasks. -/
namespace Pipistrelle.Broker

open Codec Router Auth LockThreads

inductive Lock where
  | bridgeSender
  | router
  | sharedGroupCounters
  | sessions
  | inFlight (session : SessionRef)
deriving DecidableEq, Repr

abbrev Program := Prog BrokerState Lock

namespace Program

-- next_packet_id.fetch_add(1), and what it returns in the state before.
def fetchAdd (ref : SessionRef) (state : BrokerState) : BrokerState :=
  state.modifySession ref fun session => { session with nextPacketId := session.nextPacketId + 1 }

def counterAt (ref : SessionRef) (state : BrokerState) : UInt16 := ((state.heap[ref]?).map (·.nextPacketId)).getD 0

def getNextPacketId (ref : SessionRef) (next : UInt16 → Program) : Program :=
  .act (fetchAdd ref) fun state =>
    if counterAt ref state = 0 then .act (fetchAdd ref) fun state => next (counterAt ref state)
    else next (counterAt ref state)

def addInFlight (ref : SessionRef) (packetId : UInt16) (topic : String) (payload : Bytes) (qos : UInt8) (next : Program) :
    Program :=
  .acquire (.inFlight ref) .write <|
    .act (·.modifySession ref (·.addInFlight packetId topic payload qos)) fun _ => .release (.inFlight ref) next

def removeInFlight (ref : SessionRef) (packetId : UInt16) (next : Program) : Program :=
  .acquire (.inFlight ref) .write <|
    .act (·.modifySession ref (·.removeInFlight packetId)) fun _ => .release (.inFlight ref) next

def spawn (write : StoredWrite) (next : Program) : Program := .act (·.spawn write) fun _ => next

-- sender.send(buf)
def send (ref : SessionRef) (buf : Bytes) (next : Program) : Program :=
  .act (·.modifySession ref (·.send buf)) fun _ => next

section Publish

variable (topic : String) (payload : Bytes) (qos : UInt8) (retain : Bool)

def deliver (clientId : String) (subscriptionIdentifier : Option UInt32) (ref : SessionRef) (next : Program) : Program :=
  if 0 < qos then
    getNextPacketId ref fun pid =>
      addInFlight ref pid topic payload qos <|
        spawn (.saveInFlight clientId pid topic payload qos) <|
          send ref (publishFrame topic payload qos retain (some pid) subscriptionIdentifier) next
  else send ref (publishFrame topic payload qos retain none subscriptionIdentifier) next

-- The read guard on the sessions lives until the frame is sent.
def sendPublishToClient (clientId : String) (subscriptionIdentifier : Option UInt32) (next : Program) : Program :=
  .acquire .sessions .read <| .act id fun state =>
    match state.sessions.get clientId with
    | none => .release .sessions next
    | some ref =>
        match state.heap[ref]? with
        | none => .release .sessions next
        | some _ => deliver topic payload qos retain clientId subscriptionIdentifier ref (.release .sessions next)

def forwardToBridge (fromClient : String) (next : Program) : Program :=
  if fromClient = "bridge_client" then next
  else .acquire .bridgeSender .read <| .act (·.forwardToBridge fromClient topic payload) fun _ => .release .bridgeSender next

def deliverNormal (sub : SubscriptionInfo) (next : Program) : Program :=
  sendPublishToClient topic payload qos retain sub.clientId sub.subscriptionIdentifier next

-- The write guard on the counters lives until the selected member has its frame.
def deliverShared (group : String) (subs : List SubscriptionInfo) (next : Program) : Program :=
  if subs.isEmpty then next
  else
    .acquire .sharedGroupCounters .write <|
      .act (fun state => { state with
          sharedGroupCounters := state.sharedGroupCounters.insert group
            ((state.sharedGroupCounters.get group).getD 0 + 1) }) fun state =>
        match subs[((state.sharedGroupCounters.get group).getD 0).toNat % subs.length]? with
        | none => .release .sharedGroupCounters next
        | some selectedSub =>
            sendPublishToClient topic payload qos retain selectedSub.clientId selectedSub.subscriptionIdentifier <|
              .release .sharedGroupCounters next

def routePublish (fromClient : String) (next : Program) : Program :=
  .act (fun state => { state with metricsMessagesPublished := state.metricsMessagesPublished + 1 }) fun _ =>
    forwardToBridge topic payload fromClient <| .acquire .router .read <| .act id fun state =>
      .release .router <|
        (matchTopic state.router topic).normal.foldr (deliverNormal topic payload qos retain) <|
          (matchTopic state.router topic).shared.entries.foldr
            (fun entry => deliverShared topic payload qos retain entry.1 entry.2) next

end Publish

def subscribe (clientId topicFilter : String) (qos : UInt8) (subscriptionIdentifier : Option UInt32) (next : Program) :
    Program :=
  .act (fun state => { state with metricsSubscriptions := state.metricsSubscriptions + 1 }) fun _ =>
    .acquire .router .write <|
      .act (fun state => { state with
          router := Router.subscribe state.router clientId topicFilter qos subscriptionIdentifier }) fun _ =>
        .release .router <| spawn (.saveSubscription clientId topicFilter qos subscriptionIdentifier) next

def registerSession (ref : SessionRef) (session : ClientSession) (next : Program) : Program :=
  .acquire .sessions .write <|
    .act (fun state => { state with sessions := state.sessions.insert session.clientId ref }) fun _ =>
      if 0 < session.sessionExpiryInterval then
        spawn (.saveSession session.clientId session.username session.cleanStart session.sessionExpiryInterval) <|
          .release .sessions next
      else .release .sessions next

def removeSession (clientId : String) (next : Program) : Program :=
  .acquire .sessions .write <|
    .act (fun state => { state with sessions := state.sessions.remove clientId }) fun state =>
      match (state.sessions.get clientId).bind fun ref => state.heap[ref]? with
      | none => .release .sessions next
      | some session =>
          if session.cleanStart || session.sessionExpiryInterval == 0 then
            spawn (.deleteSession clientId) <| .release .sessions next
          else .release .sessions next

def replyPubAck (ref : SessionRef) (pkt : Publish) (reasonCode : UInt8) (next : Program) : Program :=
  if pkt.qos = 1 then
    match pkt.packetId with
    | some pid => send ref (encodePacket (.pubAck { packetId := pid, reasonCode, properties := {} })) next
    | none => next
  else next

section Connection

variable (ref : SessionRef) (clientId : String) (username : Option String)

def processPublish (pkt : Publish) (next : Program) : Program :=
  .act id fun state =>
    if state.auth.authorize (username.getD "") pkt.topic "write" then
      routePublish pkt.topic pkt.payload pkt.qos pkt.retain clientId (replyPubAck ref pkt 0 next)
    else replyPubAck ref pkt 0x87 next

def processFilters (subscriptionIdentifier : Option UInt32) (reasonCodes : List UInt8) (next : List UInt8 → Program) :
    List Subscription → Program
  | [] => next reasonCodes
  | sub :: rest =>
      .act id fun state =>
        if state.auth.authorize (username.getD "") sub.topicFilter "read" then
          subscribe clientId sub.topicFilter (sub.options &&& 0x03) subscriptionIdentifier <|
            processFilters subscriptionIdentifier (reasonCodes ++ [sub.options &&& 0x03]) next rest
        else processFilters subscriptionIdentifier (reasonCodes ++ [0x87]) next rest

def processSubscribe (pkt : Subscribe) (next : Program) : Program :=
  processFilters clientId username pkt.properties.subscriptionIdentifier []
    (fun reasonCodes =>
      send ref (encodePacket (.subAck { packetId := pkt.packetId, properties := {}, reasonCodes })) next)
    pkt.subscriptions

-- failed is what comes after an error.
def processClientPacket (packet : Packet) (next failed : Program) : Program :=
  match packet with
  | .publish pkt => processPublish ref clientId username pkt next
  | .subscribe pkt => processSubscribe ref clientId username pkt next
  | .pubAck pkt => removeInFlight ref pkt.packetId <| spawn (.deleteInFlight clientId pkt.packetId) next
  | .pingReq => send ref (encodePacket .pingResp) next
  | .disconnect _ => next
  | .connect _ => failed
  | _ => next

def processPackets (next : Program) : List Packet → Program
  | [] => next
  | packet :: rest => processClientPacket ref clientId username packet (processPackets next rest) next

end Connection

-- remove_session, and the abort of the writer task.
def cleanup (clientId : String) (ref : SessionRef) (next : Program) : Program :=
  removeSession clientId <| .act (·.modifySession ref fun session => { session with receiverOpen := false }) fun _ => next

-- handle_connection from its CONNECT on, with the packets that come out of its reads.
def handleConnection (verifyPassword : String → String → Bool) (pkt : Connect) (packets : List Packet) : Program :=
  .act id fun state =>
    if authenticated verifyPassword state.auth pkt then
      .act (fun state => (state.allocate (newSession pkt)).1) fun state =>
        registerSession state.heap.length (newSession pkt) <|
          send state.heap.length (encodePacket (connAckReply 0)) <|
            processPackets state.heap.length pkt.clientId pkt.username
              (cleanup pkt.clientId state.heap.length .done) packets
    else .done

-- The read guard on the sessions lives to the end of the function.
def gracefulShutdown : Program :=
  .acquire .sessions .read <| .act id fun state =>
    state.sessions.entries.foldr (fun entry => send entry.2 (encodePacket (.disconnect ⟨0, {}⟩))) (.release .sessions .done)

def activeConnections : Program := .acquire .sessions .read <| .act id fun _ => .release .sessions .done

end Program

section Alone

-- A thread that runs alone does what the functions on the whole state do.
namespace Program

theorem modify_twice (state : BrokerState) (ref : SessionRef) (first second : ClientSession → ClientSession) :
    (state.modifySession ref first).modifySession ref second = state.modifySession ref (second ∘ first) := by
  rw [BrokerState.modifySession, BrokerState.modifySession, BrokerState.modifySession, List.modify_modify_eq]

theorem modify_held (state : BrokerState) (ref : SessionRef) (session : ClientSession) (held : state.heap[ref]? = some session)
    (change : ClientSession → ClientSession) :
    state.modifySession ref change = state.modifySession ref fun _ => change session := by
  have same : (state.modifySession ref change).heap = (state.modifySession ref fun _ => change session).heap := by
    apply List.ext_getElem?
    intro other
    rw [modify_session_heap, modify_session_heap]
    by_cases here : ref = other
    · rw [if_pos here, if_pos here, ← here, held]
      rfl
    · rw [if_neg here, if_neg here]
  exact congrArg (fun heap => { state with heap }) same

theorem get_next_packet_id_alone (ref : SessionRef) (next : UInt16 → Program) (state : BrokerState) (session : ClientSession)
    (held : state.heap[ref]? = some session) :
    (getNextPacketId ref next).alone state =
      (next session.getNextPacketId.1).alone (state.modifySession ref fun _ => session.getNextPacketId.2) := by
  have counter : counterAt ref state = session.nextPacketId := by
    rw [counterAt, held]
    rfl
  rw [getNextPacketId, Prog.alone, counter, ClientSession.getNextPacketId]
  by_cases wrapped : session.nextPacketId = 0
  · rw [if_pos wrapped, if_pos wrapped, Prog.alone, fetchAdd, fetchAdd, modify_twice, counterAt, modify_session_heap,
      if_pos rfl, held, modify_held state ref session held]
    rfl
  · rw [if_neg wrapped, if_neg wrapped, fetchAdd, modify_held state ref session held]

theorem send_publish_alone (topic : String) (payload : Bytes) (qos : UInt8) (retain : Bool) (clientId : String)
    (identifier : Option UInt32) (next : Program) (state : BrokerState) :
    (sendPublishToClient topic payload qos retain clientId identifier next).alone state =
      next.alone (state.sendPublishToClient clientId topic payload qos retain identifier) := by
  rw [sendPublishToClient, Prog.alone, Prog.alone, BrokerState.sendPublishToClient, id]
  cases state.sessions.get clientId with
  | none => rfl
  | some ref =>
      cases held : state.heap[ref]? with
      | none => simp only [held, Prog.alone]
      | some session =>
          simp only [held, deliver]
          by_cases atQos : 0 < qos
          · rw [if_pos atQos, if_pos atQos, get_next_packet_id_alone ref _ state session held]
            simp only [addInFlight, spawn, send, Prog.alone]
            refine congrArg next.alone ?_
            let numbered : ClientSession → ClientSession := fun _ => session.getNextPacketId.2
            let stored : ClientSession → ClientSession := (·.addInFlight session.getNextPacketId.1 topic payload qos)
            let sends : ClientSession → ClientSession :=
              (·.send (publishFrame topic payload qos retain (some session.getNextPacketId.1) identifier))
            have merged : ((state.modifySession ref numbered).modifySession ref stored).modifySession ref sends =
                state.modifySession ref ((sends ∘ stored) ∘ numbered) := by
              rw [modify_twice, modify_twice]
            exact congrArg (·.spawn (.saveInFlight clientId session.getNextPacketId.1 topic payload qos)) merged
          · rw [if_neg atQos, if_neg atQos]
            rfl

theorem foldr_alone {α : Type} (step : α → Program → Program) (effect : BrokerState → α → BrokerState)
    (alone : ∀ item next state, (step item next).alone state = next.alone (effect state item)) (items : List α)
    (next : Program) (state : BrokerState) : (items.foldr step next).alone state = next.alone (items.foldl effect state) := by
  induction items generalizing state with
  | nil => rfl
  | cons item rest ih => rw [List.foldr_cons, alone, ih, List.foldl_cons]

theorem deliver_shared_alone (topic : String) (payload : Bytes) (qos : UInt8) (retain : Bool) (group : String)
    (subs : List SubscriptionInfo) (next : Program) (state : BrokerState) :
    (deliverShared topic payload qos retain group subs next).alone state =
      next.alone (state.deliverShared topic payload qos retain group subs) := by
  unfold deliverShared BrokerState.deliverShared
  cases subs with
  | nil => rfl
  | cons first rest =>
      rw [if_neg (by simp), Prog.alone, Prog.alone]
      dsimp only
      cases selected : (first :: rest)[((state.sharedGroupCounters.get group).getD 0).toNat % (first :: rest).length]? with
      | none =>
          have inside := Nat.mod_lt ((state.sharedGroupCounters.get group).getD 0).toNat (List.length_pos_of_ne_nil
            (List.cons_ne_nil first rest))
          exact absurd (List.getElem?_eq_none_iff.mp selected) (Nat.not_le.mpr inside)
      | some selectedSub =>
          dsimp only
          rw [send_publish_alone]
          rfl

theorem route_publish_alone (topic : String) (payload : Bytes) (qos : UInt8) (retain : Bool) (fromClient : String)
    (next : Program) (state : BrokerState) :
    (routePublish topic payload qos retain fromClient next).alone state =
      next.alone (state.routePublish fromClient topic payload qos retain) := by
  have forwards : ∀ (next : Program) (state : BrokerState), (forwardToBridge topic payload fromClient next).alone state =
      next.alone (state.forwardToBridge fromClient topic payload) := by
    intro next state
    unfold forwardToBridge
    split
    · rw [BrokerState.forwardToBridge, if_pos ‹_›]
    · rfl
  rw [routePublish, Prog.alone, forwards, Prog.alone, Prog.alone, Prog.alone,
    foldr_alone (deliverNormal topic payload qos retain) (BrokerState.deliverNormal topic payload qos retain)
      (fun sub next state => send_publish_alone topic payload qos retain sub.clientId sub.subscriptionIdentifier next state),
    foldr_alone (fun entry : String × List SubscriptionInfo => deliverShared topic payload qos retain entry.1 entry.2)
      (fun state entry => state.deliverShared topic payload qos retain entry.1 entry.2)
      (fun entry next state => deliver_shared_alone topic payload qos retain entry.1 entry.2 next state)]
  rfl

theorem reply_pub_ack_alone (ref : SessionRef) (pkt : Publish) (reasonCode : UInt8) (next : Program) (state : BrokerState) :
    (replyPubAck ref pkt reasonCode next).alone state = next.alone (state.replyPubAck ref pkt reasonCode) := by
  unfold replyPubAck BrokerState.replyPubAck
  by_cases atQos1 : pkt.qos = 1
  · rw [if_pos atQos1, if_pos atQos1]
    cases pkt.packetId with
    | none => rfl
    | some pid => rfl
  · rw [if_neg atQos1, if_neg atQos1]

theorem process_filters_alone (session : ClientSession) (identifier : Option UInt32) (next : List UInt8 → Program)
    (subscriptions : List Subscription) (reasonCodes : List UInt8) (state : BrokerState) :
    (processFilters session.clientId session.username identifier reasonCodes next subscriptions).alone state =
      (next (state.processFilters session identifier reasonCodes subscriptions).2).alone
        (state.processFilters session identifier reasonCodes subscriptions).1 := by
  induction subscriptions generalizing reasonCodes state with
  | nil => rfl
  | cons sub rest ih =>
      rw [processFilters, Prog.alone, BrokerState.processFilters, BrokerState.processFilter]
      split
      · exact ih _ _
      · exact ih _ _

theorem process_client_packet_alone (ref : SessionRef) (session : ClientSession) (packet : Packet) (next failed : Program)
    (state : BrokerState) (held : state.heap[ref]? = some session) :
    (processClientPacket ref session.clientId session.username packet next failed).alone state =
      (if (Broker.processClientPacket state ref packet).2.isSome then failed else next).alone
        (Broker.processClientPacket state ref packet).1 := by
  unfold Broker.processClientPacket
  rw [held]
  cases packet with
  | publish pkt =>
      rw [processClientPacket, processPublish, Prog.alone, id]
      dsimp only
      rw [BrokerState.processPublish]
      split
      · rw [route_publish_alone, reply_pub_ack_alone]
        rfl
      · exact reply_pub_ack_alone ref pkt 0x87 next state
  | subscribe pkt =>
      rw [processClientPacket, processSubscribe, process_filters_alone]
      rfl
  | connect _ | connAck _ | pubAck _ | subAck _ | pingReq | pingResp | disconnect _ => rfl

theorem register_session_alone (ref : SessionRef) (session : ClientSession) (next : Program) (state : BrokerState)
    (held : state.heap[ref]? = some session) :
    (registerSession ref session next).alone state = next.alone (state.registerSession ref) := by
  rw [registerSession, Prog.alone, Prog.alone, BrokerState.registerSession, held]
  dsimp only
  split
  · rfl
  · rfl

theorem remove_session_alone (clientId : String) (next : Program) (state : BrokerState) :
    (removeSession clientId next).alone state = next.alone (state.removeSession clientId) := by
  rw [removeSession, Prog.alone, Prog.alone, BrokerState.removeSession]
  cases found : state.sessions.get clientId with
  | none =>
      have same : state.sessions.remove clientId = state.sessions := Assoc.remove_absent state.sessions clientId found
      rw [same]
      rfl
  | some ref =>
      rw [Option.bind_some]
      cases held : state.heap[ref]? with
      | none =>
          dsimp only
          rw [held]
          rfl
      | some session =>
          dsimp only
          rw [held]
          dsimp only
          split
          · rfl
          · rfl

theorem cleanup_alone (clientId : String) (ref : SessionRef) (next : Program) (state : BrokerState) :
    (cleanup clientId ref next).alone state = next.alone (state.closeConnection clientId ref) := by
  rw [cleanup, remove_session_alone]
  rfl

section Run

variable (verifyPassword : String → String → Bool)

theorem ended_packets (net : Network) (k : Nat) (connection : Connection) (held : net.connections[k]? = some connection)
    (ended : connection.status = .ending) (packets : List Packet) :
    (packets.map (Event.packet k)).foldl (Network.step verifyPassword) net = net := by
  have idle : ∀ packet, net.step verifyPassword (.packet k packet) = net := by
    intro packet
    rw [Network.step, Network.onConnection, held]
    simp [ended]
  induction packets with
  | nil => rfl
  | cons packet rest ih => rw [List.map_cons, List.foldl_cons, idle, ih]

theorem process_packets_alone (ref : SessionRef) (clientId : String) (username : Option String) (next : Program)
    (packets : List Packet) (net : Network) (k : Nat) (connection : Connection)
    (held : net.connections[k]? = some connection) (reading : connection.status = .reading) (owns : connection.session = ref)
    (session : ClientSession) (stored : net.broker.heap[ref]? = some session)
    (named : session.clientId = clientId ∧ session.username = username) :
    (processPackets ref clientId username next packets).alone net.broker =
        next.alone ((packets.map (Event.packet k)).foldl (Network.step verifyPassword) net).broker ∧
      ∃ status, status ≠ .closed ∧ ((packets.map (Event.packet k)).foldl (Network.step verifyPassword) net).connections[k]? =
        some { connection with status } := by
  induction packets generalizing net connection session with
  | nil =>
      refine ⟨rfl, .reading, by simp, ?_⟩
      rw [List.map_nil, List.foldl_nil, held, ← reading]
  | cons packet rest ih =>
      have stepped : net.step verifyPassword (.packet k packet) = net.receive k connection packet := by
        rw [Network.step, Network.onConnection, held]
        simp [reading]
      obtain ⟨heard, hears⟩ : ∃ heard : Network, heard = { net with
          broker := (Broker.processClientPacket net.broker ref packet).1
          accepted := net.accepted ++ acceptances net.broker ref packet } := ⟨_, rfl⟩
      have received : net.receive k connection packet =
          if (Broker.processClientPacket net.broker ref packet).2.isSome then heard.setStatus k .ending else heard := by
        rw [hears, ← owns]
        rfl
      have broker : heard.broker = (Broker.processClientPacket net.broker ref packet).1 := by rw [hears]
      have connections : heard.connections[k]? = some connection := by rw [hears]; exact held
      rw [List.map_cons, List.foldl_cons, stepped, processPackets, ← named.1, ← named.2,
        process_client_packet_alone ref session packet _ _ net.broker stored, named.1, named.2, received, ← broker]
      cases failed : (Broker.processClientPacket net.broker ref packet).2.isSome with
      | true =>
          rw [if_pos rfl, if_pos rfl]
          have ending : (heard.setStatus k .ending).connections[k]? = some { connection with status := .ending } := by
            rw [Network.setStatus, List.getElem?_modify, connections]
            simp
          rw [ended_packets verifyPassword _ k _ ending rfl]
          exact ⟨rfl, .ending, by simp, ending⟩
      | false =>
          rw [if_neg Bool.false_ne_true, if_neg Bool.false_ne_true]
          obtain ⟨later, heldLater, grown⟩ := (process_client_packet_evolves net.broker ref packet).heap ref session stored
          rw [← broker] at heldLater
          refine ih heard connection connections reading owns later heldLater ⟨?_, ?_⟩
          · exact (congrArg Identity.clientId grown.identity).trans named.1
          · exact (congrArg Identity.username grown.identity).trans named.2

theorem handle_connection_alone (net : Network) (pkt : Connect) (packets : List Packet) :
    (handleConnection verifyPassword pkt packets).alone net.broker =
      ((Event.connect pkt :: packets.map (Event.packet net.connections.length) ++
        [Event.close net.connections.length]).foldl (Network.step verifyPassword) net).broker := by
  have connects : net.step verifyPassword (.connect pkt) =
      if authenticated verifyPassword net.broker.auth pkt then net.register pkt else net := rfl
  rw [List.cons_append, List.foldl_cons, List.foldl_append, handleConnection, Prog.alone, connects, id]
  by_cases accepted : authenticated verifyPassword net.broker.auth pkt = true
  · rw [if_pos accepted, if_pos accepted, Prog.alone,
      register_session_alone _ _ _ _ List.getElem?_concat_length, send, Prog.alone]
    have stored : (net.register pkt).broker.heap[net.broker.heap.length]? =
        some ((newSession pkt).send (encodePacket (connAckReply 0))) := by
      have heap : (net.register pkt).broker.heap = _ := open_connection_heap net.broker pkt
      rw [heap, List.getElem?_concat_length]
    have connection : (net.register pkt).connections[net.connections.length]? =
        some ⟨pkt.clientId, net.broker.heap.length, .reading, net.broker.issued.length⟩ := List.getElem?_concat_length
    obtain ⟨ran, status, isOpen, found⟩ := process_packets_alone verifyPassword net.broker.heap.length pkt.clientId
      pkt.username (cleanup pkt.clientId net.broker.heap.length .done) packets (net.register pkt) net.connections.length _
      connection rfl rfl _ stored (by rw [send_keeps]; exact ⟨rfl, rfl⟩)
    refine ran.trans ?_
    rw [cleanup_alone, List.foldl_cons, List.foldl_nil, Network.step, Network.onConnection, found]
    dsimp only
    rw [if_neg isOpen]
    rfl
  · have nobody : net.connections[net.connections.length]? = none := List.getElem?_eq_none_iff.mpr (Nat.le_refl _)
    have idle : ∀ act, net.onConnection net.connections.length act = net := fun act => by rw [Network.onConnection, nobody]
    have unread : (packets.map (Event.packet net.connections.length)).foldl (Network.step verifyPassword) net = net := by
      induction packets with
      | nil => rfl
      | cons packet rest ih => rw [List.map_cons, List.foldl_cons, Network.step, idle, ih]
    rw [if_neg accepted, if_neg accepted, unread, List.foldl_cons, List.foldl_nil, Network.step, idle]
    rfl

end Run

end Program

end Alone

-- What the tasks of the runtime do with the state. The broker has one of each kind but the
-- connections, and none of them is limited to that here.
inductive Task where
  | connection (pkt : Connect) (packets : List Packet)
  | remotePublish (topic : String) (payload : Bytes) (qos : UInt8) (retain : Bool)
  | startBridge
  | writerEnds (session : SessionRef)
  | metrics
  | shutdown

def Task.program (verifyPassword : String → String → Bool) : Task → Program
  | .connection pkt packets => .handleConnection verifyPassword pkt packets
  | .remotePublish topic payload qos retain => .routePublish topic payload qos retain "bridge_client" .done
  | .startBridge =>
      .acquire .bridgeSender .write <| .act (fun state => { state with bridgeSender := some [] }) fun _ =>
        .release .bridgeSender .done
  | .writerEnds session => .act (·.modifySession session fun session => { session with receiverOpen := false }) fun _ => .done
  | .metrics => .activeConnections
  | .shutdown => .gracefulShutdown

end Pipistrelle.Broker
