import Pipistrelle.Codec.Properties

set_option autoImplicit false

/- decode_packet and encode_packet. Each arm of the source's match on the packet
   type is a definition of its own, over the payload slice of the frame. -/
namespace Pipistrelle.Codec

open Outcome

-- The will section of CONNECT is stepped over, not parsed: the three lengths are
-- read and the slice is advanced past them with unchecked ranges.
def skipWill (payload : Bytes) : Decoded Bytes := do
  let (willPropsLen, read) ← decodeVarint payload
  let skipped ← addWord 64 read willPropsLen.toNat
  let payload ← sliceFrom skipped payload
  let (willTopicLen, payload) ← readU16 payload
  let payload ← sliceFrom willTopicLen.toNat payload
  let (willPayloadLen, payload) ← readU16 payload
  sliceFrom willPayloadLen.toNat payload

def readWill (hasWill : Bool) (payload : Bytes) : Decoded Bytes :=
  if hasWill then skipWill payload else pure payload

def readOptional {α : Type} (present : Bool) (read : Bytes → Decoded (α × Bytes)) (payload : Bytes) :
    Decoded (Option α × Bytes) :=
  if present then do
    let (val, payload) ← read payload
    pure (some val, payload)
  else pure (none, payload)

-- CONNECT from the will section on, which the connect flags govern.
def decodeConnectTail (connectFlags : UInt8) (keepAlive : UInt16) (properties : ConnectProperties) (clientId : String)
    (payload : Bytes) : Decoded Packet := do
  let cleanStart := connectFlags &&& 0x02 != 0
  let hasWill := connectFlags &&& 0x04 != 0
  let hasUsername := connectFlags &&& 0x80 != 0
  let hasPassword := connectFlags &&& 0x40 != 0
  let payload ← readWill hasWill payload
  let (username, payload) ← readOptional hasUsername readStr payload
  let (password, _) ← readOptional hasPassword readBytes payload
  pure (.connect { clientId, keepAlive, cleanStart, username, password, properties })

def decodeConnect (flags : UInt8) (payload : Bytes) : Decoded Packet :=
  if flags ≠ 0 then .err .malformedPacket
  else do
    let (protocolName, payload) ← readStr payload
    if protocolName ≠ "MQTT" then .err .malformedPacket
    else do
      let (protocolLevel, payload) ← readU8 payload
      if protocolLevel ≠ 5 then .err (.unsupportedProtocolVersion protocolLevel)
      else do
        let (connectFlags, payload) ← readU8 payload
        let (keepAlive, payload) ← readU16 payload
        let (properties, payload) ← ConnectProperties.decode payload
        let (clientId, payload) ← readStr payload
        decodeConnectTail connectFlags keepAlive properties clientId payload

def decodeConnAck (payload : Bytes) : Decoded Packet := do
  let (connackFlags, payload) ← readU8 payload
  let sessionPresent := connackFlags &&& 0x01 != 0
  let (reasonCode, payload) ← readU8 payload
  let (properties, _) ← ConnAckProperties.decode payload
  pure (.connAck { sessionPresent, reasonCode, properties })

def decodePublish (flags : UInt8) (payload : Bytes) : Decoded Packet :=
  let dup := flags &&& 0x08 != 0
  let qos := (flags &&& 0x06) >>> 1
  let retain := flags &&& 0x01 != 0
  if 2 < qos then .err .malformedPacket
  else do
    let (topic, payload) ← readStr payload
    let (packetId, payload) ← readOptional (decide (0 < qos)) readU16 payload
    let (properties, payload) ← PublishProperties.decode payload
    pure (.publish { dup, qos, retain, topic, packetId, properties, payload })

def readReason {P : Type} (empty : P) (decode : Bytes → Decoded (P × Bytes)) (payload : Bytes) :
    Decoded (UInt8 × P) :=
  if payload.isEmpty then pure (0, empty)
  else do
    let (reasonCode, payload) ← readU8 payload
    if payload.isEmpty then pure (reasonCode, empty)
    else do
      let (properties, _) ← decode payload
      pure (reasonCode, properties)

def decodePubAck (payload : Bytes) : Decoded Packet := do
  let (packetId, payload) ← readU16 payload
  let (reasonCode, properties) ← readReason {} PubAckProperties.decode payload
  pure (.pubAck { packetId, reasonCode, properties })

def readSubscription (payload : Bytes) : Decoded (Subscription × Bytes) := do
  let (topicFilter, payload) ← readStr payload
  let (options, payload) ← readU8 payload
  pure ({ topicFilter, options }, payload)

theorem read_subscription_length (payload rest : Bytes) (sub : Subscription)
    (completed : readSubscription payload = .ok (sub, rest)) : rest.length < payload.length := by
  obtain ⟨⟨topicFilter, tail⟩, readFilter, completed⟩ := (bind_ok_iff _ _ _).mp completed
  obtain ⟨⟨options, afterOptions⟩, readOptions, eq⟩ := (bind_ok_iff _ _ _).mp completed
  cases eq
  have shorter := read_str_length _ _ _ readFilter
  rw [(read_u8_ok_iff _ _ _).mp readOptions, List.length_cons] at shorter
  omega

-- while !payload.is_empty(): the filters of SUBSCRIBE.
def subscriptionLoop (subscriptions : List Subscription) (payload : Bytes) : Decoded (List Subscription) :=
  if payload.isEmpty then .ok subscriptions
  else
    match _sub : readSubscription payload with
    | .ok (sub, rest) => subscriptionLoop (subscriptions ++ [sub]) rest
    | .err error => .err error
    | .panic => .panic
termination_by payload.length
decreasing_by exact read_subscription_length payload rest sub _sub

def decodeSubscribe (flags : UInt8) (payload : Bytes) : Decoded Packet :=
  if flags ≠ 0x02 then .err .malformedPacket
  else do
    let (packetId, payload) ← readU16 payload
    let (properties, payload) ← SubscribeProperties.decode payload
    let subscriptions ← subscriptionLoop [] payload
    if subscriptions.isEmpty then .err .malformedPacket
    else pure (.subscribe { packetId, properties, subscriptions })

-- while !payload.is_empty(): one read_u8 a turn, which succeeds on a non-empty slice.
def reasonCodeLoop (reasonCodes : Bytes) : Bytes → Decoded Bytes
  | [] => .ok reasonCodes
  | byte :: rest => reasonCodeLoop (reasonCodes ++ [byte]) rest

def decodeSubAck (payload : Bytes) : Decoded Packet := do
  let (packetId, payload) ← readU16 payload
  let (properties, payload) ← SubAckProperties.decode payload
  let reasonCodes ← reasonCodeLoop [] payload
  pure (.subAck { packetId, properties, reasonCodes })

def decodePing (packet : Packet) (flags : UInt8) (payload : Bytes) : Decoded Packet :=
  if flags ≠ 0 ∨ payload.length ≠ 0 then .err .malformedPacket else pure packet

def decodeDisconnect (payload : Bytes) : Decoded Packet := do
  let (reasonCode, properties) ← readReason {} DisconnectProperties.decode payload
  pure (.disconnect { reasonCode, properties })

-- The match on packet_type, over the payload slice of one whole frame.
def decodePayload (packetType flags : UInt8) (payload : Bytes) : Decoded Packet :=
  match packetType with
  | 1 => decodeConnect flags payload
  | 2 => decodeConnAck payload
  | 3 => decodePublish flags payload
  | 4 => decodePubAck payload
  | 8 => decodeSubscribe flags payload
  | 9 => decodeSubAck payload
  | 12 => decodePing .pingReq flags payload
  | 13 => decodePing .pingResp flags payload
  | 14 => decodeDisconnect payload
  | _ => .err .malformedPacket

def decodePacket (rawBuf : Bytes) : Decoded (Packet × Nat) := do
  let originalLen := rawBuf.length
  let (fixedHeaderByte, rawBuf) ← readU8 rawBuf
  let packetType := fixedHeaderByte >>> 4
  let flags := fixedHeaderByte &&& 0x0F
  let (remainingLen, read) ← decodeVarint rawBuf
  let rawBuf ← sliceFrom read rawBuf
  if rawBuf.length < remainingLen.toNat then .err .incomplete
  else do
    let payload ← sliceTo remainingLen.toNat rawBuf
    let consumed ← subWord originalLen rawBuf.length
    let totalRead ← addWord 64 consumed remainingLen.toNat
    let packet ← decodePayload packetType flags payload
    pure (packet, totalRead)

def setFlag (present : Bool) (mask flags : UInt8) : UInt8 := if present then flags ||| mask else flags

def encodeReason (hasProps : Bool) (reasonCode : UInt8) (properties : Bytes) : Bytes :=
  if hasProps || reasonCode != 0 then reasonCode :: properties else []

def PubAckProperties.present (self : PubAckProperties) : Bool :=
  self.reasonString.isSome || !self.userProperties.isEmpty

def DisconnectProperties.present (self : DisconnectProperties) : Bool :=
  self.sessionExpiryInterval.isSome || self.reasonString.isSome || self.serverReference.isSome ||
    !self.userProperties.isEmpty

def optionalBytes {α : Type} (write : α → Bytes) : Option α → Bytes
  | none => []
  | some val => write val

def fixedHeader (packetType : UInt8) : UInt8 := packetType <<< 4

def encodePayload : Packet → UInt8 × Bytes
  | .connect pkt =>
      let connectFlags := setFlag pkt.password.isSome 0x40
        (setFlag pkt.username.isSome 0x80 (setFlag pkt.cleanStart 0x02 0))
      (fixedHeader 1, writeStr "MQTT" ++ [5] ++ [connectFlags] ++ writeU16 pkt.keepAlive ++ pkt.properties.encode ++
        writeStr pkt.clientId ++ optionalBytes writeStr pkt.username ++ optionalBytes writeBytes pkt.password)
  | .connAck pkt =>
      (fixedHeader 2, [if pkt.sessionPresent then 1 else 0] ++ [pkt.reasonCode] ++ pkt.properties.encode)
  | .publish pkt =>
      (setFlag pkt.retain 0x01 (setFlag pkt.dup 0x08 (fixedHeader 3) ||| (pkt.qos &&& 0x03) <<< 1),
        writeStr pkt.topic ++ optionalBytes writeU16 pkt.packetId ++ pkt.properties.encode ++ pkt.payload)
  | .pubAck pkt =>
      (fixedHeader 4, writeU16 pkt.packetId ++ encodeReason pkt.properties.present pkt.reasonCode pkt.properties.encode)
  | .subscribe pkt =>
      (fixedHeader 8 ||| 0x02, writeU16 pkt.packetId ++ pkt.properties.encode ++
        pkt.subscriptions.flatMap fun sub => writeStr sub.topicFilter ++ [sub.options])
  | .subAck pkt => (fixedHeader 9, writeU16 pkt.packetId ++ pkt.properties.encode ++ pkt.reasonCodes)
  | .pingReq => (fixedHeader 12, [])
  | .pingResp => (fixedHeader 13, [])
  | .disconnect pkt =>
      (fixedHeader 14, encodeReason pkt.properties.present pkt.reasonCode pkt.properties.encode)

def encodePacket (packet : Packet) : Bytes :=
  let (fixedHeaderByte, payload) := encodePayload packet
  fixedHeaderByte :: (encodeVarint (UInt32.ofNat payload.length) ++ payload)

example : decodePacket [0x30, 0x06, 0, 1, 97, 0, 7, 8, 99] =
    .ok (.publish ⟨false, 0, false, "a", none, {}, [7, 8]⟩, 8) := by decide +kernel

end Pipistrelle.Codec
