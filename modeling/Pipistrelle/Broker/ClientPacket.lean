import Pipistrelle.Broker.Session

set_option autoImplicit false

/- process_client_packet of src/main.rs, with the text of its one error. -/
namespace Pipistrelle.Broker

open Codec Router Auth

def BrokerState.reply (self : BrokerState) (session : SessionRef) (packet : Packet) : BrokerState :=
  self.modifySession session (·.send (encodePacket packet))

def BrokerState.replyPubAck (self : BrokerState) (session : SessionRef) (pkt : Publish) (reasonCode : UInt8) :
    BrokerState :=
  if pkt.qos = 1 then
    match pkt.packetId with
    | some pid => self.reply session (.pubAck { packetId := pid, reasonCode, properties := {} })
    | none => self
  else self

theorem reply_pub_ack_keeps {α : Type} (field : BrokerState → α)
    (kept : ∀ (state : BrokerState) (ref : SessionRef) (change : ClientSession → ClientSession),
      field (state.modifySession ref change) = field state)
    (state : BrokerState) (ref : SessionRef) (pkt : Publish) (reasonCode : UInt8) :
    field (state.replyPubAck ref pkt reasonCode) = field state := by
  unfold BrokerState.replyPubAck
  split
  · split
    · exact kept _ _ _
    · rfl
  · rfl

def BrokerState.processPublish (self : BrokerState) (ref : SessionRef) (session : ClientSession) (pkt : Publish) :
    BrokerState :=
  if self.auth.authorize (session.username.getD "") pkt.topic "write" then
    (self.routePublish session.clientId pkt.topic pkt.payload pkt.qos pkt.retain).replyPubAck ref pkt 0
  else self.replyPubAck ref pkt 0x87

def BrokerState.processFilter (self : BrokerState) (session : ClientSession) (subscriptionIdentifier : Option UInt32)
    (sub : Subscription) : BrokerState × UInt8 :=
  if self.auth.authorize (session.username.getD "") sub.topicFilter "read" then
    (self.subscribe session.clientId sub.topicFilter (sub.options &&& 0x03) subscriptionIdentifier, sub.options &&& 0x03)
  else (self, 0x87)

def BrokerState.processFilters (self : BrokerState) (session : ClientSession) (subscriptionIdentifier : Option UInt32)
    (reasonCodes : List UInt8) : List Subscription → BrokerState × List UInt8
  | [] => (self, reasonCodes)
  | sub :: rest =>
      let result := self.processFilter session subscriptionIdentifier sub
      result.1.processFilters session subscriptionIdentifier (reasonCodes ++ [result.2]) rest

theorem process_filters_keep {α : Type} (field : BrokerState → α)
    (kept : ∀ (state : BrokerState) (clientId topicFilter : String) (qos : UInt8) (identifier : Option UInt32),
      field (state.subscribe clientId topicFilter qos identifier) = field state)
    (session : ClientSession) (identifier : Option UInt32) (subscriptions : List Subscription) (state : BrokerState)
    (reasonCodes : List UInt8) :
    field (state.processFilters session identifier reasonCodes subscriptions).1 = field state := by
  induction subscriptions generalizing state reasonCodes with
  | nil => rfl
  | cons sub rest ih =>
      rw [BrokerState.processFilters, ih, BrokerState.processFilter]
      split
      · exact kept _ _ _ _ _
      · rfl

def BrokerState.processSubscribe (self : BrokerState) (ref : SessionRef) (session : ClientSession) (pkt : Subscribe) :
    BrokerState :=
  let result := self.processFilters session pkt.properties.subscriptionIdentifier [] pkt.subscriptions
  result.1.reply ref (.subAck { packetId := pkt.packetId, properties := {}, reasonCodes := result.2 })

def processClientPacket (state : BrokerState) (ref : SessionRef) (packet : Packet) : BrokerState × Option String :=
  match state.heap[ref]? with
  | none => (state, none)
  | some session =>
      match packet with
      | .publish pkt => (state.processPublish ref session pkt, none)
      | .subscribe pkt => (state.processSubscribe ref session pkt, none)
      | .pubAck pkt =>
          ((state.modifySession ref (·.removeInFlight pkt.packetId)).spawn
            (.deleteInFlight session.clientId pkt.packetId), none)
      | .pingReq => (state.reply ref .pingResp, none)
      | .disconnect _ => (state, none)
      | .connect _ => (state, some "Protocol violation: duplicate CONNECT")
      | _ => (state, none)

end Pipistrelle.Broker
