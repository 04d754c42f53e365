import Pipistrelle.Codec.Packet
import Pipistrelle.Codec.Varint

set_option autoImplicit false

/- The seven property decoders of the source are one loop over seven tables,
   copied by hand. Here the loop is written once; each table keeps its own
   identifiers and fields, and each encoder its own field order. -/
namespace Pipistrelle.Codec

open Outcome

-- The type of the value after a property identifier, and the field of the
-- property record that receives it.
inductive PropertyValue (P : Type) where
  | u8 (store : P → Option UInt8 → P)
  | u16 (store : P → Option UInt16 → P)
  | u32 (store : P → Option UInt32 → P)
  | str (store : P → Option String → P)
  | bytes (store : P → Option Bytes → P)
  | varint (store : P → Option UInt32 → P)
  | userProperty (push : P → List (String × String) → P) (current : P → List (String × String))

abbrev PropertyTable (P : Type) := UInt8 → Option (PropertyValue P)

section Decode

variable {P : Type}

-- One arm of the match on prop_id.
def readProperty (value : PropertyValue P) (props : P) (propSlice : Bytes) : Decoded (P × Bytes) :=
  match value with
  | .u8 store => do
      let (val, propSlice) ← readU8 propSlice
      pure (store props (some val), propSlice)
  | .u16 store => do
      let (val, propSlice) ← readU16 propSlice
      pure (store props (some val), propSlice)
  | .u32 store => do
      let (val, propSlice) ← readU32 propSlice
      pure (store props (some val), propSlice)
  | .str store => do
      let (val, propSlice) ← readStr propSlice
      pure (store props (some val), propSlice)
  | .bytes store => do
      let (val, propSlice) ← readBytes propSlice
      pure (store props (some val), propSlice)
  | .varint store => do
      let (val, read) ← decodeVarint propSlice
      let propSlice ← sliceFrom read propSlice
      pure (store props (some val), propSlice)
  | .userProperty push current => do
      let (key, propSlice) ← readStr propSlice
      let (val, propSlice) ← readStr propSlice
      pure (push props (current props ++ [(key, val)]), propSlice)

-- One turn of the while loop.
def readItem (table : PropertyTable P) (props : P) (propSlice : Bytes) : Decoded (P × Bytes) := do
  let (propId, propSlice) ← readU8 propSlice
  match table propId with
  | none => .err .malformedPacket
  | some value => readProperty value props propSlice

theorem read_str_length (buf : Bytes) (s : String) (rest : Bytes) (completed : readStr buf = .ok (s, rest)) :
    rest.length < buf.length := by
  obtain ⟨_, rfl⟩ := (read_str_ok_iff buf s rest).mp completed
  simp only [writeStr, writeU16, u16ToBeBytes, List.length_append, List.length_cons]
  omega

theorem read_property_length (value : PropertyValue P) (props next : P) (propSlice rest : Bytes)
    (completed : readProperty value props propSlice = .ok (next, rest)) : rest.length ≤ propSlice.length := by
  cases value with
  | u8 store =>
      obtain ⟨⟨val, tail⟩, read, eq⟩ := (bind_ok_iff _ _ _).mp completed
      cases eq
      simp [(read_u8_ok_iff _ _ _).mp read]
  | u16 store =>
      obtain ⟨⟨val, tail⟩, read, eq⟩ := (bind_ok_iff _ _ _).mp completed
      cases eq
      simp [(read_u16_ok_iff _ _ _).mp read]
  | u32 store =>
      obtain ⟨⟨val, tail⟩, read, eq⟩ := (bind_ok_iff _ _ _).mp completed
      cases eq
      simp [(read_u32_ok_iff _ _ _).mp read]
  | str store =>
      obtain ⟨⟨val, tail⟩, read, eq⟩ := (bind_ok_iff _ _ _).mp completed
      cases eq
      exact Nat.le_of_lt (read_str_length _ _ _ read)
  | bytes store =>
      obtain ⟨⟨val, tail⟩, read, eq⟩ := (bind_ok_iff _ _ _).mp completed
      cases eq
      simp [((read_bytes_ok_iff _ _ _).mp read).2]
  | varint store =>
      obtain ⟨⟨val, read⟩, decoded, completed⟩ := (bind_ok_iff _ _ _).mp completed
      simp only [slice_from_within _ _ (decode_varint_ok _ _ _ decoded).2.2.1, ok_bind, pure_eq] at completed
      cases completed
      simp
  | userProperty push current =>
      obtain ⟨⟨key, afterKey⟩, readKey, completed⟩ := (bind_ok_iff _ _ _).mp completed
      obtain ⟨⟨val, afterVal⟩, readVal, eq⟩ := (bind_ok_iff _ _ _).mp completed
      cases eq
      exact Nat.le_of_lt (Nat.lt_trans (read_str_length _ _ _ readVal) (read_str_length _ _ _ readKey))

theorem read_item_length (table : PropertyTable P) (props next : P) (propSlice rest : Bytes)
    (completed : readItem table props propSlice = .ok (next, rest)) : rest.length < propSlice.length := by
  obtain ⟨⟨propId, tail⟩, read, completed⟩ := (bind_ok_iff _ _ _).mp completed
  rw [(read_u8_ok_iff _ _ _).mp read]
  cases found : table propId with
  | none => simp [found] at completed
  | some value =>
      rw [List.length_cons]
      exact Nat.lt_succ_of_le (read_property_length value props next tail rest (by simpa [found] using completed))

-- while !prop_slice.is_empty(): every turn consumes at least the identifier.
def propertyLoop (table : PropertyTable P) (props : P) (propSlice : Bytes) : Decoded P :=
  if propSlice.isEmpty then .ok props
  else
    match _item : readItem table props propSlice with
    | .ok (next, rest) => propertyLoop table next rest
    | .err error => .err error
    | .panic => .panic
termination_by propSlice.length
decreasing_by exact read_item_length table props next propSlice rest _item

def decodeProperties (table : PropertyTable P) (empty : P) (buf : Bytes) : Decoded (P × Bytes) :=
  if buf.isEmpty then pure (empty, buf)
  else do
    let (propLen, read) ← decodeVarint buf
    let buf ← sliceFrom read buf
    if buf.length < propLen.toNat then .err .incomplete
    else do
      let propSlice ← sliceTo propLen.toNat buf
      let buf ← sliceFrom propLen.toNat buf
      let props ← propertyLoop table empty propSlice
      pure (props, buf)

end Decode

-- if let Some(val) = field { temp_buf.push(id); temp_buf.extend(val) }
def pushField {α : Type} (propId : UInt8) (write : α → Bytes) : Option α → Bytes
  | none => []
  | some val => propId :: write val

def pushUserProperties (userProperties : List (String × String)) : Bytes :=
  userProperties.flatMap fun (k, v) => 0x26 :: (writeStr k ++ writeStr v)

def encodeBlock (tempBuf : Bytes) : Bytes := encodeVarint (UInt32.ofNat tempBuf.length) ++ tempBuf

def pushU8 (val : UInt8) : Bytes := [val]

def ConnectProperties.table : PropertyTable ConnectProperties
  | 0x11 => some (.u32 fun props val => { props with sessionExpiryInterval := val })
  | 0x21 => some (.u16 fun props val => { props with receiveMaximum := val })
  | 0x27 => some (.u32 fun props val => { props with maxPacketSize := val })
  | 0x22 => some (.u16 fun props val => { props with topicAliasMaximum := val })
  | 0x19 => some (.u8 fun props val => { props with requestResponseInfo := val })
  | 0x17 => some (.u8 fun props val => { props with requestProblemInfo := val })
  | 0x26 => some (.userProperty (fun props list => { props with userProperties := list }) (·.userProperties))
  | 0x15 => some (.str fun props val => { props with authMethod := val })
  | 0x16 => some (.bytes fun props val => { props with authData := val })
  | _ => none

def ConnectProperties.decode (buf : Bytes) : Decoded (ConnectProperties × Bytes) :=
  decodeProperties ConnectProperties.table {} buf

def ConnectProperties.encode (self : ConnectProperties) : Bytes :=
  encodeBlock (pushField 0x11 writeU32 self.sessionExpiryInterval ++
    pushField 0x21 writeU16 self.receiveMaximum ++
    pushField 0x27 writeU32 self.maxPacketSize ++
    pushField 0x22 writeU16 self.topicAliasMaximum ++
    pushField 0x19 pushU8 self.requestResponseInfo ++
    pushField 0x17 pushU8 self.requestProblemInfo ++
    pushUserProperties self.userProperties ++
    pushField 0x15 writeStr self.authMethod ++
    pushField 0x16 writeBytes self.authData)

def ConnAckProperties.table : PropertyTable ConnAckProperties
  | 0x11 => some (.u32 fun props val => { props with sessionExpiryInterval := val })
  | 0x21 => some (.u16 fun props val => { props with receiveMaximum := val })
  | 0x24 => some (.u8 fun props val => { props with maxQos := val })
  | 0x25 => some (.u8 fun props val => { props with retainAvailable := val })
  | 0x27 => some (.u32 fun props val => { props with maximumPacketSize := val })
  | 0x12 => some (.str fun props val => { props with assignedClientIdentifier := val })
  | 0x22 => some (.u16 fun props val => { props with topicAliasMaximum := val })
  | 0x1F => some (.str fun props val => { props with reasonString := val })
  | 0x26 => some (.userProperty (fun props list => { props with userProperties := list }) (·.userProperties))
  | 0x28 => some (.u8 fun props val => { props with wildcardSubscriptionAvailable := val })
  | 0x29 => some (.u8 fun props val => { props with subscriptionIdentifiersAvailable := val })
  | 0x2A => some (.u8 fun props val => { props with sharedSubscriptionAvailable := val })
  | 0x13 => some (.u16 fun props val => { props with serverKeepAlive := val })
  | 0x1A => some (.str fun props val => { props with responseInformation := val })
  | 0x1C => some (.str fun props val => { props with serverReference := val })
  | 0x15 => some (.str fun props val => { props with authenticationMethod := val })
  | 0x16 => some (.bytes fun props val => { props with authenticationData := val })
  | _ => none

def ConnAckProperties.decode (buf : Bytes) : Decoded (ConnAckProperties × Bytes) :=
  decodeProperties ConnAckProperties.table {} buf

def ConnAckProperties.encode (self : ConnAckProperties) : Bytes :=
  encodeBlock (pushField 0x11 writeU32 self.sessionExpiryInterval ++
    pushField 0x21 writeU16 self.receiveMaximum ++
    pushField 0x24 pushU8 self.maxQos ++
    pushField 0x25 pushU8 self.retainAvailable ++
    pushField 0x27 writeU32 self.maximumPacketSize ++
    pushField 0x12 writeStr self.assignedClientIdentifier ++
    pushField 0x22 writeU16 self.topicAliasMaximum ++
    pushField 0x1F writeStr self.reasonString ++
    pushUserProperties self.userProperties ++
    pushField 0x28 pushU8 self.wildcardSubscriptionAvailable ++
    pushField 0x29 pushU8 self.subscriptionIdentifiersAvailable ++
    pushField 0x2A pushU8 self.sharedSubscriptionAvailable ++
    pushField 0x13 writeU16 self.serverKeepAlive ++
    pushField 0x1A writeStr self.responseInformation ++
    pushField 0x1C writeStr self.serverReference ++
    pushField 0x15 writeStr self.authenticationMethod ++
    pushField 0x16 writeBytes self.authenticationData)

def PublishProperties.table : PropertyTable PublishProperties
  | 0x01 => some (.u8 fun props val => { props with payloadFormatIndicator := val })
  | 0x02 => some (.u32 fun props val => { props with messageExpiryInterval := val })
  | 0x03 => some (.str fun props val => { props with contentType := val })
  | 0x08 => some (.str fun props val => { props with responseTopic := val })
  | 0x09 => some (.bytes fun props val => { props with correlationData := val })
  | 0x0B => some (.varint fun props val => { props with subscriptionIdentifier := val })
  | 0x23 => some (.u16 fun props val => { props with topicAlias := val })
  | 0x26 => some (.userProperty (fun props list => { props with userProperties := list }) (·.userProperties))
  | _ => none

def PublishProperties.decode (buf : Bytes) : Decoded (PublishProperties × Bytes) :=
  decodeProperties PublishProperties.table {} buf

def PublishProperties.encode (self : PublishProperties) : Bytes :=
  encodeBlock (pushField 0x01 pushU8 self.payloadFormatIndicator ++
    pushField 0x02 writeU32 self.messageExpiryInterval ++
    pushField 0x03 writeStr self.contentType ++
    pushField 0x08 writeStr self.responseTopic ++
    pushField 0x09 writeBytes self.correlationData ++
    pushField 0x0B encodeVarint self.subscriptionIdentifier ++
    pushField 0x23 writeU16 self.topicAlias ++
    pushUserProperties self.userProperties)

def PubAckProperties.table : PropertyTable PubAckProperties
  | 0x1F => some (.str fun props val => { props with reasonString := val })
  | 0x26 => some (.userProperty (fun props list => { props with userProperties := list }) (·.userProperties))
  | _ => none

def PubAckProperties.decode (buf : Bytes) : Decoded (PubAckProperties × Bytes) :=
  decodeProperties PubAckProperties.table {} buf

def PubAckProperties.encode (self : PubAckProperties) : Bytes :=
  encodeBlock (pushField 0x1F writeStr self.reasonString ++ pushUserProperties self.userProperties)

def SubscribeProperties.table : PropertyTable SubscribeProperties
  | 0x0B => some (.varint fun props val => { props with subscriptionIdentifier := val })
  | 0x26 => some (.userProperty (fun props list => { props with userProperties := list }) (·.userProperties))
  | _ => none

def SubscribeProperties.decode (buf : Bytes) : Decoded (SubscribeProperties × Bytes) :=
  decodeProperties SubscribeProperties.table {} buf

def SubscribeProperties.encode (self : SubscribeProperties) : Bytes :=
  encodeBlock (pushField 0x0B encodeVarint self.subscriptionIdentifier ++ pushUserProperties self.userProperties)

def SubAckProperties.table : PropertyTable SubAckProperties
  | 0x1F => some (.str fun props val => { props with reasonString := val })
  | 0x26 => some (.userProperty (fun props list => { props with userProperties := list }) (·.userProperties))
  | _ => none

def SubAckProperties.decode (buf : Bytes) : Decoded (SubAckProperties × Bytes) :=
  decodeProperties SubAckProperties.table {} buf

def SubAckProperties.encode (self : SubAckProperties) : Bytes :=
  encodeBlock (pushField 0x1F writeStr self.reasonString ++ pushUserProperties self.userProperties)

def DisconnectProperties.table : PropertyTable DisconnectProperties
  | 0x11 => some (.u32 fun props val => { props with sessionExpiryInterval := val })
  | 0x1F => some (.str fun props val => { props with reasonString := val })
  | 0x26 => some (.userProperty (fun props list => { props with userProperties := list }) (·.userProperties))
  | 0x1C => some (.str fun props val => { props with serverReference := val })
  | _ => none

def DisconnectProperties.decode (buf : Bytes) : Decoded (DisconnectProperties × Bytes) :=
  decodeProperties DisconnectProperties.table {} buf

def DisconnectProperties.encode (self : DisconnectProperties) : Bytes :=
  encodeBlock (pushField 0x11 writeU32 self.sessionExpiryInterval ++
    pushField 0x1F writeStr self.reasonString ++
    pushUserProperties self.userProperties ++
    pushField 0x1C writeStr self.serverReference)

end Pipistrelle.Codec
