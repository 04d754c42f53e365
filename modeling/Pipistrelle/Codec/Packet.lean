import Pipistrelle.Codec.Reader

set_option autoImplicit false

/- The packet structures of src/codec.rs. A field keeps its Rust width; borrowed
   strings and slices are the values they borrow. -/
namespace Pipistrelle.Codec

structure ConnectProperties where
  sessionExpiryInterval : Option UInt32 := none
  receiveMaximum : Option UInt16 := none
  maxPacketSize : Option UInt32 := none
  topicAliasMaximum : Option UInt16 := none
  requestResponseInfo : Option UInt8 := none
  requestProblemInfo : Option UInt8 := none
  userProperties : List (String × String) := []
  authMethod : Option String := none
  authData : Option Bytes := none
deriving DecidableEq, Repr, Inhabited

structure ConnAckProperties where
  sessionExpiryInterval : Option UInt32 := none
  receiveMaximum : Option UInt16 := none
  maxQos : Option UInt8 := none
  retainAvailable : Option UInt8 := none
  maximumPacketSize : Option UInt32 := none
  assignedClientIdentifier : Option String := none
  topicAliasMaximum : Option UInt16 := none
  reasonString : Option String := none
  userProperties : List (String × String) := []
  wildcardSubscriptionAvailable : Option UInt8 := none
  subscriptionIdentifiersAvailable : Option UInt8 := none
  sharedSubscriptionAvailable : Option UInt8 := none
  serverKeepAlive : Option UInt16 := none
  responseInformation : Option String := none
  serverReference : Option String := none
  authenticationMethod : Option String := none
  authenticationData : Option Bytes := none
deriving DecidableEq, Repr, Inhabited

structure PublishProperties where
  payloadFormatIndicator : Option UInt8 := none
  messageExpiryInterval : Option UInt32 := none
  contentType : Option String := none
  responseTopic : Option String := none
  correlationData : Option Bytes := none
  subscriptionIdentifier : Option UInt32 := none
  topicAlias : Option UInt16 := none
  userProperties : List (String × String) := []
deriving DecidableEq, Repr, Inhabited

structure PubAckProperties where
  reasonString : Option String := none
  userProperties : List (String × String) := []
deriving DecidableEq, Repr, Inhabited

structure SubscribeProperties where
  subscriptionIdentifier : Option UInt32 := none
  userProperties : List (String × String) := []
deriving DecidableEq, Repr, Inhabited

structure SubAckProperties where
  reasonString : Option String := none
  userProperties : List (String × String) := []
deriving DecidableEq, Repr, Inhabited

structure DisconnectProperties where
  sessionExpiryInterval : Option UInt32 := none
  reasonString : Option String := none
  userProperties : List (String × String) := []
  serverReference : Option String := none
deriving DecidableEq, Repr, Inhabited

structure Connect where
  clientId : String
  keepAlive : UInt16
  cleanStart : Bool
  username : Option String
  password : Option Bytes
  properties : ConnectProperties
deriving DecidableEq, Repr

structure ConnAck where
  sessionPresent : Bool
  reasonCode : UInt8
  properties : ConnAckProperties
deriving DecidableEq, Repr

structure Publish where
  dup : Bool
  qos : UInt8
  retain : Bool
  topic : String
  packetId : Option UInt16
  properties : PublishProperties
  payload : Bytes
deriving DecidableEq, Repr

structure PubAck where
  packetId : UInt16
  reasonCode : UInt8
  properties : PubAckProperties
deriving DecidableEq, Repr

structure Subscription where
  topicFilter : String
  options : UInt8
deriving DecidableEq, Repr

structure Subscribe where
  packetId : UInt16
  properties : SubscribeProperties
  subscriptions : List Subscription
deriving DecidableEq, Repr

structure SubAck where
  packetId : UInt16
  properties : SubAckProperties
  reasonCodes : Bytes
deriving DecidableEq, Repr

structure Disconnect where
  reasonCode : UInt8
  properties : DisconnectProperties
deriving DecidableEq, Repr

inductive Packet where
  | connect (pkt : Connect)
  | connAck (pkt : ConnAck)
  | publish (pkt : Publish)
  | pubAck (pkt : PubAck)
  | subscribe (pkt : Subscribe)
  | subAck (pkt : SubAck)
  | pingReq
  | pingResp
  | disconnect (pkt : Disconnect)
deriving DecidableEq, Repr

end Pipistrelle.Codec
