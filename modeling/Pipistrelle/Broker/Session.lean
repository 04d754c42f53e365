import Pipistrelle.Auth.AuthConfig
import Pipistrelle.Codec.PacketCodec

set_option autoImplicit false

/- src/session.rs: the client sessions and the shared state of the broker. An
   Arc<ClientSession> is an index into a heap that only grows, so that a connection
   and the sessions map can hold the same object. Clock values (last_activity,
   sent_at), which nothing reads back, and the topic aliases, which nothing uses,
   are left out. A write to the database is spawned as a task of its own: here it
   is the next entry of issued, and what the tasks do is another module. -/
namespace Pipistrelle.Broker

open Codec Router Auth

inductive StoredWrite where
  | saveSession (clientId : String) (username : Option String) (cleanStart : Bool) (sessionExpiryInterval : UInt32)
  | deleteSession (clientId : String)
  | saveSubscription (clientId topicFilter : String) (qos : UInt8) (subId : Option UInt32)
  | deleteSubscription (clientId topicFilter : String)
  | saveInFlight (clientId : String) (packetId : UInt16) (topic : String) (payload : Bytes) (qos : UInt8)
  | deleteInFlight (clientId : String) (packetId : UInt16)
deriving DecidableEq, Repr

structure InFlightMessage where
  packetId : UInt16
  topic : String
  payload : Bytes
  qos : UInt8
deriving DecidableEq, Repr

-- sent is everything that went into the unbounded channel to the writer task, oldest
-- first; a send fails once the receiving end is dropped.
structure ClientSession where
  clientId : String
  username : Option String
  cleanStart : Bool
  keepAlive : UInt16
  sessionExpiryInterval : UInt32
  sent : List Bytes := []
  receiverOpen : Bool := true
  nextPacketId : UInt16 := 1
  inFlight : Assoc UInt16 InFlightMessage := {}

abbrev SessionRef := Nat

-- fetch_add, and once more past the reserved 0.
def ClientSession.getNextPacketId (self : ClientSession) : UInt16 × ClientSession :=
  let id := self.nextPacketId
  let self := { self with nextPacketId := self.nextPacketId + 1 }
  if id = 0 then (self.nextPacketId, { self with nextPacketId := self.nextPacketId + 1 }) else (id, self)

def ClientSession.addInFlight (self : ClientSession) (packetId : UInt16) (topic : String) (payload : Bytes)
    (qos : UInt8) : ClientSession :=
  { self with inFlight := self.inFlight.insert packetId ⟨packetId, topic, payload, qos⟩ }

def ClientSession.removeInFlight (self : ClientSession) (packetId : UInt16) : ClientSession :=
  { self with inFlight := self.inFlight.remove packetId }

-- sender.send(buf), whose error is at most logged.
def ClientSession.send (self : ClientSession) (buf : Bytes) : ClientSession :=
  if self.receiverOpen then { self with sent := self.sent ++ [buf] } else self

structure BrokerState where
  router : TrieNode := {}
  sessions : Assoc String SessionRef := {}
  heap : List ClientSession := []
  auth : AuthConfig
  sharedGroupCounters : Assoc String UInt64 := {}
  metricsMessagesPublished : UInt64 := 0
  metricsSubscriptions : UInt64 := 0
  bridgeSender : Option (List (String × Bytes)) := none
  issued : List StoredWrite := []

-- tokio::spawn(async move { db.… })
def BrokerState.spawn (self : BrokerState) (write : StoredWrite) : BrokerState :=
  { self with issued := self.issued ++ [write] }

def BrokerState.modifySession (self : BrokerState) (session : SessionRef) (change : ClientSession → ClientSession) :
    BrokerState :=
  { self with heap := self.heap.modify session change }

theorem modify_session_heap (state : BrokerState) (ref other : SessionRef) (change : ClientSession → ClientSession) :
    (state.modifySession ref change).heap[other]? =
      if ref = other then (state.heap[other]?).map change else state.heap[other]? := by
  rw [BrokerState.modifySession, List.getElem?_modify]
  by_cases here : ref = other
  · simp [here]
  · simp [here]

-- Arc::new(ClientSession::new(…))
def BrokerState.allocate (self : BrokerState) (session : ClientSession) : BrokerState × SessionRef :=
  ({ self with heap := self.heap ++ [session] }, self.heap.length)

-- sessions.read().get(client_id)
def BrokerState.registered (self : BrokerState) (clientId : String) : Option ClientSession :=
  (self.sessions.get clientId).bind fun ref => self.heap[ref]?

def BrokerState.registerSession (self : BrokerState) (ref : SessionRef) : BrokerState :=
  match self.heap[ref]? with
  | none => self
  | some session =>
      let self := { self with sessions := self.sessions.insert session.clientId ref }
      if 0 < session.sessionExpiryInterval then
        self.spawn (.saveSession session.clientId session.username session.cleanStart session.sessionExpiryInterval)
      else self

def BrokerState.removeSession (self : BrokerState) (clientId : String) : BrokerState :=
  match self.sessions.get clientId with
  | none => self
  | some ref =>
      let self := { self with sessions := self.sessions.remove clientId }
      match self.heap[ref]? with
      | none => self
      | some session =>
          if session.cleanStart || session.sessionExpiryInterval == 0 then self.spawn (.deleteSession clientId)
          else self

def BrokerState.subscribe (self : BrokerState) (clientId topicFilter : String) (qos : UInt8)
    (subscriptionIdentifier : Option UInt32) : BrokerState :=
  let self := { self with
    metricsSubscriptions := self.metricsSubscriptions + 1
    router := Router.subscribe self.router clientId topicFilter qos subscriptionIdentifier }
  self.spawn (.saveSubscription clientId topicFilter qos subscriptionIdentifier)

theorem subscribe_router (state : BrokerState) (clientId topicFilter : String) (qos : UInt8)
    (subscriptionIdentifier : Option UInt32) :
    (state.subscribe clientId topicFilter qos subscriptionIdentifier).router =
      Router.subscribe state.router clientId topicFilter qos subscriptionIdentifier := by
  rw [BrokerState.subscribe, BrokerState.spawn]

theorem subscribe_keeps (state : BrokerState) (clientId topicFilter : String) (qos : UInt8)
    (subscriptionIdentifier : Option UInt32) :
    (state.subscribe clientId topicFilter qos subscriptionIdentifier).heap = state.heap ∧
      (state.subscribe clientId topicFilter qos subscriptionIdentifier).auth = state.auth ∧
      (state.subscribe clientId topicFilter qos subscriptionIdentifier).bridgeSender = state.bridgeSender := by
  rw [BrokerState.subscribe, BrokerState.spawn]
  exact ⟨rfl, rfl, rfl⟩

def BrokerState.unsubscribe (self : BrokerState) (clientId topicFilter : String) : BrokerState × Bool :=
  let result := Router.unsubscribe self.router clientId topicFilter
  let self := { self with router := result.1 }
  (if result.2 then self.spawn (.deleteSubscription clientId topicFilter) else self, result.2)

def publishFrame (topic : String) (payload : Bytes) (qos : UInt8) (retain : Bool) (packetId : Option UInt16)
    (subscriptionIdentifier : Option UInt32) : Bytes :=
  encodePacket (.publish {
    dup := false, qos, retain, topic, packetId, properties := { subscriptionIdentifier }, payload })

def BrokerState.sendPublishToClient (self : BrokerState) (clientId topic : String) (payload : Bytes) (qos : UInt8)
    (retain : Bool) (subscriptionIdentifier : Option UInt32) : BrokerState :=
  match self.sessions.get clientId with
  | none => self
  | some ref =>
      match self.heap[ref]? with
      | none => self
      | some session =>
          if 0 < qos then
            let (pid, session) := session.getNextPacketId
            let session := (session.addInFlight pid topic payload qos).send
              (publishFrame topic payload qos retain (some pid) subscriptionIdentifier)
            (self.modifySession ref fun _ => session).spawn (.saveInFlight clientId pid topic payload qos)
          else
            self.modifySession ref fun session =>
              session.send (publishFrame topic payload qos retain none subscriptionIdentifier)

def BrokerState.deliverShared (topic : String) (payload : Bytes) (qos : UInt8) (retain : Bool) (self : BrokerState)
    (group : String) (subs : List SubscriptionInfo) : BrokerState :=
  let index := (self.sharedGroupCounters.get group).getD 0
  match subs[index.toNat % subs.length]? with
  | none => self
  | some selectedSub =>
      let self := { self with sharedGroupCounters := self.sharedGroupCounters.insert group (index + 1) }
      self.sendPublishToClient selectedSub.clientId topic payload qos retain selectedSub.subscriptionIdentifier

def BrokerState.deliverNormal (topic : String) (payload : Bytes) (qos : UInt8) (retain : Bool) (self : BrokerState)
    (sub : SubscriptionInfo) : BrokerState :=
  self.sendPublishToClient sub.clientId topic payload qos retain sub.subscriptionIdentifier

def BrokerState.forwardToBridge (self : BrokerState) (fromClient topic : String) (payload : Bytes) : BrokerState :=
  if fromClient = "bridge_client" then self
  else { self with bridgeSender := self.bridgeSender.map (· ++ [(topic, payload)]) }

def BrokerState.routePublish (self : BrokerState) (fromClient topic : String) (payload : Bytes) (qos : UInt8)
    (retain : Bool) : BrokerState :=
  let self := { self with metricsMessagesPublished := self.metricsMessagesPublished + 1 }
  let self := self.forwardToBridge fromClient topic payload
  let route := matchTopic self.router topic
  let self := route.normal.foldl (deliverNormal topic payload qos retain) self
  route.shared.entries.foldl (fun self (group, subs) => self.deliverShared topic payload qos retain group subs) self

end Pipistrelle.Broker
