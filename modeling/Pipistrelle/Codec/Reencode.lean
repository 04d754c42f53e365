import Pipistrelle.Codec.RoundTrip

set_option autoImplicit false

/- What the decoder accepts, the encoder can write again. A value that was read takes
   no more bytes to write than it took to read, so no length outgrows its field. -/
namespace Pipistrelle.Codec

open Outcome

section Properties

variable {P : Type} (table : PropertyTable P) (tempBuf : P → Bytes) (Fits : P → Prop)

-- What storing one value may do to what the encoder writes: a first value adds its
-- bytes, one that replaces another adds less.
def StoresWithin (before after : P) (written : Nat) : Prop :=
  (tempBuf after).length ≤ (tempBuf before).length + 1 + written ∧ (Fits before → Fits after)

def Stores : PropertyValue P → Prop
  | .u8 store => ∀ props val, StoresWithin tempBuf Fits props (store props (some val)) (pushU8 val).length
  | .u16 store => ∀ props val, StoresWithin tempBuf Fits props (store props (some val)) (writeU16 val).length
  | .u32 store => ∀ props val, StoresWithin tempBuf Fits props (store props (some val)) (writeU32 val).length
  | .str store => ∀ props s, StrFits s → StoresWithin tempBuf Fits props (store props (some s)) (writeStr s).length
  | .bytes store => ∀ props data, BytesFit data →
      StoresWithin tempBuf Fits props (store props (some data)) (writeBytes data).length
  | .varint store => ∀ props val, VarintFits val →
      StoresWithin tempBuf Fits props (store props (some val)) (encodeVarint val).length
  | .userProperty push current => ∀ props key val, StrFits key → StrFits val →
      StoresWithin tempBuf Fits props (push props (current props ++ [(key, val)]))
        ((writeStr key).length + (writeStr val).length)

theorem read_property_stores (value : PropertyValue P) (stores : Stores tempBuf Fits value) (props next : P)
    (propSlice rest : Bytes) (completed : readProperty value props propSlice = .ok (next, rest)) :
    ∃ written, StoresWithin tempBuf Fits props next written ∧ written + rest.length ≤ propSlice.length := by
  cases value with
  | u8 store =>
      obtain ⟨⟨val, tail⟩, read, eq⟩ := (bind_ok_iff _ _ _).mp completed
      cases eq
      refine ⟨_, stores props val, ?_⟩
      exact Nat.le_of_eq (by rw [(read_u8_ok_iff _ _ _).mp read, List.length_cons, Nat.add_comm]; rfl)
  | u16 store =>
      obtain ⟨⟨val, tail⟩, read, eq⟩ := (bind_ok_iff _ _ _).mp completed
      cases eq
      refine ⟨_, stores props val, ?_⟩
      exact Nat.le_of_eq (by rw [(read_u16_ok_iff _ _ _).mp read, List.length_append])
  | u32 store =>
      obtain ⟨⟨val, tail⟩, read, eq⟩ := (bind_ok_iff _ _ _).mp completed
      cases eq
      refine ⟨_, stores props val, ?_⟩
      exact Nat.le_of_eq (by rw [(read_u32_ok_iff _ _ _).mp read, List.length_append])
  | str store =>
      obtain ⟨⟨s, tail⟩, read, eq⟩ := (bind_ok_iff _ _ _).mp completed
      cases eq
      obtain ⟨fits, rfl⟩ := (read_str_ok_iff _ _ _).mp read
      exact ⟨(writeStr s).length, stores props s fits, Nat.le_of_eq List.length_append.symm⟩
  | bytes store =>
      obtain ⟨⟨data, tail⟩, read, eq⟩ := (bind_ok_iff _ _ _).mp completed
      cases eq
      obtain ⟨fits, rfl⟩ := (read_bytes_ok_iff _ _ _).mp read
      exact ⟨(writeBytes data).length, stores props data fits, Nat.le_of_eq List.length_append.symm⟩
  | varint store =>
      obtain ⟨⟨val, read⟩, decoded, completed⟩ := (bind_ok_iff _ _ _).mp completed
      obtain ⟨_, _, within, fits⟩ := decode_varint_ok _ _ _ decoded
      simp only [slice_from_within _ _ within, ok_bind, pure_eq] at completed
      cases completed
      refine ⟨(encodeVarint val).length, stores props val fits, ?_⟩
      have short := decoded_varint_length _ _ val _ decoded (Nat.le_refl _)
      rw [List.length_drop]
      omega
  | userProperty push current =>
      obtain ⟨⟨key, afterKey⟩, readKey, completed⟩ := (bind_ok_iff _ _ _).mp completed
      obtain ⟨⟨val, afterVal⟩, readVal, eq⟩ := (bind_ok_iff _ _ _).mp completed
      cases eq
      obtain ⟨keyFits, rfl⟩ := (read_str_ok_iff _ _ _).mp readKey
      obtain ⟨valFits, rfl⟩ := (read_str_ok_iff _ _ _).mp readVal
      refine ⟨_, stores props key val keyFits valFits, ?_⟩
      exact Nat.le_of_eq (by rw [List.length_append, List.length_append, Nat.add_assoc])

variable {table} (all : ∀ propId value, table propId = some value → Stores tempBuf Fits value)

include all in
theorem read_item_stores (props next : P) (propSlice rest : Bytes)
    (completed : readItem table props propSlice = .ok (next, rest)) (fits : Fits props) :
    Fits next ∧ (tempBuf next).length + rest.length ≤ (tempBuf props).length + propSlice.length := by
  obtain ⟨⟨propId, tail⟩, read, completed⟩ := (bind_ok_iff _ _ _).mp completed
  rw [(read_u8_ok_iff _ _ _).mp read, List.length_cons]
  cases found : table propId with
  | none => simp [found] at completed
  | some value =>
      simp only [found] at completed
      obtain ⟨written, ⟨grown, kept⟩, consumed⟩ :=
        read_property_stores tempBuf Fits value (all propId value found) props next tail rest completed
      exact ⟨kept fits, by omega⟩

include all in
theorem property_loop_stores (props final : P) (propSlice : Bytes) (fits : Fits props) :
    propertyLoop table props propSlice = .ok final →
      Fits final ∧ (tempBuf final).length ≤ (tempBuf props).length + propSlice.length := by
  cases propSlice with
  | nil =>
      intro completed
      rw [property_loop_nil] at completed
      cases completed
      exact ⟨fits, Nat.le_refl _⟩
  | cons propId tail =>
      intro completed
      rw [property_loop_cons] at completed
      obtain ⟨⟨next, rest⟩, item, later⟩ := (bind_ok_iff _ _ _).mp completed
      have shorter := read_item_length table props next _ rest item
      obtain ⟨nextFits, grown⟩ := read_item_stores tempBuf Fits all props next _ rest item fits
      obtain ⟨finalFits, bound⟩ := property_loop_stores next final rest nextFits later
      exact ⟨finalFits, by omega⟩
termination_by propSlice.length
decreasing_by
  all_goals exact shorter

end Properties

def Rewrites {P : Type} (table : PropertyTable P) (encode : P → Bytes) (Fits : P → Prop) (empty : P) : Prop :=
  ∃ tempBuf : P → Bytes, (∀ props, encode props = encodeBlock (tempBuf props)) ∧ tempBuf empty = [] ∧ Fits empty ∧
    ∀ propId value, table propId = some value → Stores tempBuf Fits value

-- A property block that was left out is written as one zero byte.
theorem decode_properties_rewrites {P : Type} {table : PropertyTable P} {encode : P → Bytes} {Fits : P → Prop} {empty : P}
    (rewrites : Rewrites table encode Fits empty) (props : P) (buf rest : Bytes)
    (completed : decodeProperties table empty buf = .ok (props, rest)) :
    Fits props ∧ ((encode props).length + rest.length ≤ buf.length ∨ (buf = [] ∧ rest = [] ∧ (encode props).length = 1)) := by
  obtain ⟨tempBuf, block, nothing, fits, all⟩ := rewrites
  rw [block]
  unfold decodeProperties at completed
  cases buf with
  | nil =>
      cases completed
      exact ⟨fits, .inr ⟨rfl, rfl, by rw [nothing, encodeBlock, encode_varint_last _ (by decide)]; rfl⟩⟩
  | cons byte more =>
      simp only [List.isEmpty_cons, Bool.false_eq_true, if_false] at completed
      generalize byte :: more = buf at completed ⊢
      obtain ⟨⟨propLen, read⟩, decoded, completed⟩ := (bind_ok_iff _ _ _).mp completed
      obtain ⟨_, _, within, _⟩ := decode_varint_ok _ _ _ decoded
      simp only [slice_from_within _ _ within, ok_bind] at completed
      by_cases short : (buf.drop read).length < propLen.toNat
      · rw [if_pos short] at completed
        cases completed
      · have whole := Nat.not_lt.mp short
        rw [if_neg short] at completed
        simp only [slice_to_within _ _ whole, slice_from_within _ _ whole, ok_bind] at completed
        obtain ⟨final, loop, eq⟩ := (bind_ok_iff _ _ _).mp completed
        cases eq
        obtain ⟨finalFits, size⟩ := property_loop_stores tempBuf Fits all empty props _ fits loop
        rw [nothing, List.length_nil, Nat.zero_add, List.length_take_of_le whole] at size
        have written : (encodeVarint (UInt32.ofNat (tempBuf props).length)).length ≤ read := by
          refine decoded_varint_length _ _ _ _ decoded ?_
          rw [UInt32.toNat_ofNat']
          exact Nat.le_trans (Nat.mod_le _ _) size
        refine ⟨finalFits, .inl ?_⟩
        rw [encodeBlock, List.length_append, List.length_drop]
        rw [List.length_drop] at whole ⊢
        omega

theorem push_field_length {α : Type} (propId : UInt8) (write : α → Bytes) (val : α) :
    (pushField propId write (some val)).length = (write val).length + 1 := rfl

theorem push_user_length (list : List (String × String)) (key val : String) :
    (pushUserProperties (list ++ [(key, val)])).length =
      (pushUserProperties list).length + ((writeStr key).length + (writeStr val).length + 1) := by
  simp [pushUserProperties]

theorem user_properties_fit_append (list : List (String × String)) (key val : String) (fits : UserPropertiesFit list)
    (keyFits : StrFits key) (valFits : StrFits val) : UserPropertiesFit (list ++ [(key, val)]) := by
  intro pair member
  rcases List.mem_append.mp member with old | new
  · exact fits pair old
  · cases List.mem_singleton.mp new
    exact ⟨keyFits, valFits⟩

theorem connect_properties_rewrites :
    Rewrites ConnectProperties.table ConnectProperties.encode ConnectProperties.Fits {} := by
  refine ⟨_, fun _ => rfl, rfl, by simp [ConnectProperties.Fits, UserPropertiesFit], ?_⟩
  intro propId value
  fun_cases ConnectProperties.table propId
  all_goals
    intro found
    cases found
  all_goals
    simp only [Stores, StoresWithin, ConnectProperties.Fits, List.length_append, push_field_length, push_user_length]
    intros
    refine ⟨by omega, ?_⟩
    first
    | exact id
    | simp_all [user_properties_fit_append]

theorem conn_ack_properties_rewrites :
    Rewrites ConnAckProperties.table ConnAckProperties.encode ConnAckProperties.Fits {} := by
  refine ⟨_, fun _ => rfl, rfl, by simp [ConnAckProperties.Fits, UserPropertiesFit], ?_⟩
  intro propId value
  fun_cases ConnAckProperties.table propId
  all_goals
    intro found
    cases found
  all_goals
    simp only [Stores, StoresWithin, ConnAckProperties.Fits, List.length_append, push_field_length, push_user_length]
    intros
    refine ⟨by omega, ?_⟩
    first
    | exact id
    | simp_all [user_properties_fit_append]

theorem publish_properties_rewrites :
    Rewrites PublishProperties.table PublishProperties.encode PublishProperties.Fits {} := by
  refine ⟨_, fun _ => rfl, rfl, by simp [PublishProperties.Fits, UserPropertiesFit], ?_⟩
  intro propId value
  fun_cases PublishProperties.table propId
  all_goals
    intro found
    cases found
  all_goals
    simp only [Stores, StoresWithin, PublishProperties.Fits, List.length_append, push_field_length, push_user_length]
    intros
    refine ⟨by omega, ?_⟩
    first
    | exact id
    | simp_all [user_properties_fit_append]

theorem pub_ack_properties_rewrites :
    Rewrites PubAckProperties.table PubAckProperties.encode PubAckProperties.Fits {} := by
  refine ⟨_, fun _ => rfl, rfl, by simp [PubAckProperties.Fits, UserPropertiesFit], ?_⟩
  intro propId value
  fun_cases PubAckProperties.table propId
  all_goals
    intro found
    cases found
  all_goals
    simp only [Stores, StoresWithin, PubAckProperties.Fits, List.length_append, push_field_length, push_user_length]
    intros
    refine ⟨by omega, ?_⟩
    first
    | exact id
    | simp_all [user_properties_fit_append]

theorem subscribe_properties_rewrites :
    Rewrites SubscribeProperties.table SubscribeProperties.encode SubscribeProperties.Fits {} := by
  refine ⟨_, fun _ => rfl, rfl, by simp [SubscribeProperties.Fits, UserPropertiesFit], ?_⟩
  intro propId value
  fun_cases SubscribeProperties.table propId
  all_goals
    intro found
    cases found
  all_goals
    simp only [Stores, StoresWithin, SubscribeProperties.Fits, List.length_append, push_field_length, push_user_length]
    intros
    refine ⟨by omega, ?_⟩
    first
    | exact id
    | simp_all [user_properties_fit_append]

theorem sub_ack_properties_rewrites :
    Rewrites SubAckProperties.table SubAckProperties.encode SubAckProperties.Fits {} := by
  refine ⟨_, fun _ => rfl, rfl, by simp [SubAckProperties.Fits, UserPropertiesFit], ?_⟩
  intro propId value
  fun_cases SubAckProperties.table propId
  all_goals
    intro found
    cases found
  all_goals
    simp only [Stores, StoresWithin, SubAckProperties.Fits, List.length_append, push_field_length, push_user_length]
    intros
    refine ⟨by omega, ?_⟩
    first
    | exact id
    | simp_all [user_properties_fit_append]

theorem disconnect_properties_rewrites :
    Rewrites DisconnectProperties.table DisconnectProperties.encode DisconnectProperties.Fits {} := by
  refine ⟨_, fun _ => rfl, rfl, by simp [DisconnectProperties.Fits, UserPropertiesFit], ?_⟩
  intro propId value
  fun_cases DisconnectProperties.table propId
  all_goals
    intro found
    cases found
  all_goals
    simp only [Stores, StoresWithin, DisconnectProperties.Fits, List.length_append, push_field_length, push_user_length]
    intros
    refine ⟨by omega, ?_⟩
    first
    | exact id
    | simp_all [user_properties_fit_append]

theorem read_str_within (buf : Bytes) (s : String) (rest : Bytes) (read : readStr buf = .ok (s, rest)) :
    StrFits s ∧ (writeStr s).length + rest.length ≤ buf.length := by
  obtain ⟨fits, rfl⟩ := (read_str_ok_iff _ _ _).mp read
  exact ⟨fits, Nat.le_of_eq List.length_append.symm⟩

theorem read_u16_within (buf : Bytes) (val : UInt16) (rest : Bytes) (read : readU16 buf = .ok (val, rest)) :
    (writeU16 val).length + rest.length ≤ buf.length := by
  exact Nat.le_of_eq (by rw [(read_u16_ok_iff _ _ _).mp read, List.length_append])

theorem read_u8_within (buf : Bytes) (val : UInt8) (rest : Bytes) (read : readU8 buf = .ok (val, rest)) :
    1 + rest.length ≤ buf.length := by
  exact Nat.le_of_eq (by rw [(read_u8_ok_iff _ _ _).mp read, List.length_cons, Nat.add_comm])

theorem read_optional_ok {α : Type} (present : Bool) (read : Bytes → Decoded (α × Bytes)) (write : α → Bytes)
    (Fits : α → Prop) (exactly : ∀ buf val rest, read buf = .ok (val, rest) ↔ Fits val ∧ buf = write val ++ rest)
    (payload rest : Bytes) (field : Option α) (completed : readOptional present read payload = .ok (field, rest)) :
    field.isSome = present ∧ (∀ val, field = some val → Fits val) ∧ payload = optionalBytes write field ++ rest := by
  cases present with
  | false =>
      cases completed
      exact ⟨rfl, nofun, rfl⟩
  | true =>
      obtain ⟨⟨val, tail⟩, readVal, eq⟩ := (bind_ok_iff _ _ _).mp completed
      cases eq
      obtain ⟨fits, bytes⟩ := (exactly _ _ _).mp readVal
      exact ⟨rfl, fun _ same => Option.some.inj same ▸ fits, bytes⟩

theorem read_optional_within {α : Type} (present : Bool) (read : Bytes → Decoded (α × Bytes)) (write : α → Bytes)
    (Fits : α → Prop) (exactly : ∀ buf val rest, read buf = .ok (val, rest) ↔ Fits val ∧ buf = write val ++ rest)
    (payload rest : Bytes) (field : Option α) (completed : readOptional present read payload = .ok (field, rest)) :
    field.isSome = present ∧ (∀ val, field = some val → Fits val) ∧
      (optionalBytes write field).length + rest.length ≤ payload.length := by
  obtain ⟨there, fits, bytes⟩ := read_optional_ok present read write Fits exactly payload rest field completed
  exact ⟨there, fits, Nat.le_of_eq (by rw [bytes, List.length_append])⟩

theorem slice_from_shorter (start : Nat) (buf rest : Bytes) (completed : sliceFrom start buf = (.ok rest : Decoded Bytes)) :
    rest.length ≤ buf.length := by
  obtain ⟨taken, rfl, _⟩ := slice_from_ok _ _ _ completed
  simp

theorem read_will_within (hasWill : Bool) (payload rest : Bytes) (completed : readWill hasWill payload = .ok rest) :
    rest.length ≤ payload.length := by
  cases hasWill with
  | false =>
      cases completed
      exact Nat.le_refl _
  | true =>
      obtain ⟨⟨willPropsLen, read⟩, _, completed⟩ := (bind_ok_iff _ _ _).mp completed
      obtain ⟨skipped, _, completed⟩ := (bind_ok_iff _ _ _).mp completed
      obtain ⟨afterProps, propsSliced, completed⟩ := (bind_ok_iff _ _ _).mp completed
      obtain ⟨⟨willTopicLen, topic⟩, readTopic, completed⟩ := (bind_ok_iff _ _ _).mp completed
      obtain ⟨afterTopic, topicSliced, completed⟩ := (bind_ok_iff _ _ _).mp completed
      obtain ⟨⟨willPayloadLen, content⟩, readContent, sliced⟩ := (bind_ok_iff _ _ _).mp completed
      have first := slice_from_shorter _ _ _ propsSliced
      have second := slice_from_shorter _ _ _ topicSliced
      have third := slice_from_shorter _ _ _ sliced
      have topicRead := read_u16_within _ _ _ readTopic
      have contentRead := read_u16_within _ _ _ readContent
      omega

theorem decode_connect_tail_encodes (connectFlags : UInt8) (keepAlive : UInt16) (properties : ConnectProperties)
    (clientId : String) (payload : Bytes) (packet : Packet) (fits : properties.Fits) (idFits : StrFits clientId)
    (completed : decodeConnectTail connectFlags keepAlive properties clientId payload = .ok packet) :
    packet.Fits ∧ (encodePayload packet).2.length ≤
      (writeStr "MQTT").length + 4 + properties.encode.length + (writeStr clientId).length + payload.length := by
  obtain ⟨afterWill, will, completed⟩ := (bind_ok_iff _ _ _).mp completed
  obtain ⟨⟨username, afterUser⟩, user, completed⟩ := (bind_ok_iff _ _ _).mp completed
  obtain ⟨⟨password, rest⟩, pass, eq⟩ := (bind_ok_iff _ _ _).mp completed
  cases eq
  have willShorter := read_will_within _ _ _ will
  obtain ⟨_, userFits, userBound⟩ := read_optional_within _ readStr writeStr StrFits read_str_ok_iff _ _ _ user
  obtain ⟨_, passFits, passBound⟩ :=
    read_optional_within _ readBytes writeBytes BytesFit read_bytes_ok_iff _ _ _ pass
  refine ⟨⟨idFits, userFits, passFits, fits⟩, ?_⟩
  simp only [encodePayload, List.length_append, List.length_singleton]
  have keepAliveLength : (writeU16 keepAlive).length = 2 := rfl
  omega

theorem decode_connect_encodes (flags : UInt8) (payload : Bytes) (packet : Packet)
    (completed : decodeConnect flags payload = .ok packet) :
    packet.Fits ∧ (encodePayload packet).2.length ≤ payload.length := by
  unfold decodeConnect at completed
  split at completed
  · cases completed
  · obtain ⟨⟨protocolName, afterName⟩, readName, completed⟩ := (bind_ok_iff _ _ _).mp completed
    dsimp only at completed
    split at completed
    · cases completed
    · rename_i named
      rw [ne_eq, not_not] at named
      subst named
      obtain ⟨⟨protocolLevel, afterLevel⟩, readLevel, completed⟩ := (bind_ok_iff _ _ _).mp completed
      dsimp only at completed
      split at completed
      · cases completed
      · obtain ⟨⟨connectFlags, afterFlags⟩, readFlags, completed⟩ := (bind_ok_iff _ _ _).mp completed
        obtain ⟨⟨keepAlive, afterKeepAlive⟩, readKeepAlive, completed⟩ := (bind_ok_iff _ _ _).mp completed
        obtain ⟨⟨properties, afterProps⟩, readProps, completed⟩ := (bind_ok_iff _ _ _).mp completed
        obtain ⟨⟨clientId, afterId⟩, readId, completed⟩ := (bind_ok_iff _ _ _).mp completed
        dsimp only at readProps readId completed
        obtain ⟨propsFit, propsBound⟩ := decode_properties_rewrites connect_properties_rewrites _ _ _ readProps
        obtain ⟨idFits, idBound⟩ := read_str_within _ _ _ readId
        obtain ⟨packetFits, bound⟩ := decode_connect_tail_encodes _ _ _ _ _ _ propsFit idFits completed
        have nameBound := (read_str_within _ _ _ readName).2
        have levelBound := read_u8_within _ _ _ readLevel
        have flagsBound := read_u8_within _ _ _ readFlags
        have keepAliveBound : 2 + afterKeepAlive.length ≤ afterFlags.length := read_u16_within _ _ _ readKeepAlive
        refine ⟨packetFits, ?_⟩
        rcases propsBound with fitted | ⟨rfl, rfl, _⟩
        · omega
        · simp [writeStr, writeU16, u16ToBeBytes] at idBound

-- The room a packet takes that is not longer than the payload it was read from: a
-- property block or a reason code that was left out is written.
def shortForm : Nat := 65540

theorem decode_conn_ack_encodes (payload : Bytes) (packet : Packet) (completed : decodeConnAck payload = .ok packet) :
    packet.Fits ∧ (encodePayload packet).2.length ≤ max payload.length shortForm := by
  obtain ⟨⟨connackFlags, afterFlags⟩, readFlags, completed⟩ := (bind_ok_iff _ _ _).mp completed
  obtain ⟨⟨reasonCode, afterReason⟩, readReason, completed⟩ := (bind_ok_iff _ _ _).mp completed
  obtain ⟨⟨properties, rest⟩, readProps, eq⟩ := (bind_ok_iff _ _ _).mp completed
  cases eq
  obtain ⟨propsFit, propsBound⟩ := decode_properties_rewrites conn_ack_properties_rewrites _ _ _ readProps
  have flagsBound := read_u8_within _ _ _ readFlags
  have reasonBound := read_u8_within _ _ _ readReason
  refine ⟨propsFit, ?_⟩
  simp only [encodePayload, List.length_append, List.length_singleton, shortForm]
  omega

theorem decode_publish_encodes (flags : UInt8) (payload : Bytes) (packet : Packet)
    (completed : decodePublish flags payload = .ok packet) :
    packet.Fits ∧ (encodePayload packet).2.length ≤ max payload.length shortForm := by
  unfold decodePublish at completed
  dsimp only at completed
  split at completed
  · cases completed
  · rename_i low
    obtain ⟨⟨topic, afterTopic⟩, readTopic, completed⟩ := (bind_ok_iff _ _ _).mp completed
    obtain ⟨⟨packetId, afterId⟩, readId, completed⟩ := (bind_ok_iff _ _ _).mp completed
    obtain ⟨⟨properties, content⟩, readProps, eq⟩ := (bind_ok_iff _ _ _).mp completed
    cases eq
    dsimp only at readId readProps
    obtain ⟨topicFits, topicBound⟩ := read_str_within _ _ _ readTopic
    obtain ⟨present, _, idBound⟩ := read_optional_within _ readU16 writeU16 (fun _ => True)
      (fun buf val rest => by rw [read_u16_ok_iff, true_and]) _ _ _ readId
    obtain ⟨propsFit, propsBound⟩ := decode_properties_rewrites publish_properties_rewrites _ _ _ readProps
    refine ⟨⟨UInt8.not_lt.mp low, by rw [present, decide_eq_true_iff], topicFits, propsFit⟩, ?_⟩
    simp only [encodePayload, List.length_append]
    rcases propsBound with fitted | ⟨rfl, rfl, one⟩
    · omega
    · have idLength : (optionalBytes writeU16 packetId).length ≤ 2 := by
        cases packetId with
        | none => exact Nat.zero_le _
        | some val => exact Nat.le_refl 2
      unfold StrFits at topicFits
      rw [write_str_length, one, List.length_nil, shortForm]
      omega

theorem read_reason_encodes {P : Type} {table : PropertyTable P} {encode : P → Bytes} {Fits : P → Prop} {empty : P}
    (rewrites : Rewrites table encode Fits empty) (hasProps : P → Bool) (payload : Bytes) (reasonCode : UInt8) (props : P)
    (completed : readReason empty (decodeProperties table empty) payload = .ok (reasonCode, props)) :
    Fits props ∧ (encodeReason (hasProps props) reasonCode (encode props)).length ≤ max payload.length 2 := by
  have written (length : (encode props).length + 1 ≤ max payload.length 2) :
      (encodeReason (hasProps props) reasonCode (encode props)).length ≤ max payload.length 2 := by
    unfold encodeReason
    split
    · exact length
    · exact Nat.zero_le _
  have short : (encode empty).length = 1 ∧ Fits empty := by
    obtain ⟨fits, bound⟩ := decode_properties_rewrites rewrites empty [] [] rfl
    simp only [List.length_nil, Nat.add_zero, true_and] at bound
    refine ⟨?_, fits⟩
    obtain ⟨tempBuf, block, nothing, _⟩ := rewrites
    rw [block, nothing, encodeBlock, encode_varint_last _ (by decide)]
    rfl
  unfold readReason at completed
  split at completed
  · cases completed
    exact ⟨short.2, written (by rw [short.1]; exact Nat.le_max_right _ _)⟩
  · obtain ⟨⟨code, afterCode⟩, readCode, completed⟩ := (bind_ok_iff _ _ _).mp completed
    dsimp only at completed
    have codeBound := read_u8_within _ _ _ readCode
    split at completed
    · cases completed
      exact ⟨short.2, written (by rw [short.1]; exact Nat.le_max_right _ _)⟩
    · obtain ⟨⟨properties, rest⟩, readProps, eq⟩ := (bind_ok_iff _ _ _).mp completed
      cases eq
      obtain ⟨fits, bound⟩ := decode_properties_rewrites rewrites properties afterCode rest readProps
      have room : (encode properties).length + 1 ≤ max payload.length 2 := by omega
      exact ⟨fits, written room⟩

theorem decode_pub_ack_encodes (payload : Bytes) (packet : Packet) (completed : decodePubAck payload = .ok packet) :
    packet.Fits ∧ (encodePayload packet).2.length ≤ max payload.length shortForm := by
  obtain ⟨⟨packetId, afterId⟩, readId, completed⟩ := (bind_ok_iff _ _ _).mp completed
  obtain ⟨⟨reasonCode, properties⟩, reason, eq⟩ := (bind_ok_iff _ _ _).mp completed
  cases eq
  have idBound : 2 + afterId.length ≤ payload.length := read_u16_within _ _ _ readId
  obtain ⟨fits, bound⟩ :=
    read_reason_encodes pub_ack_properties_rewrites PubAckProperties.present afterId reasonCode properties reason
  refine ⟨fits, ?_⟩
  have idLength : (writeU16 packetId).length = 2 := rfl
  simp only [encodePayload, List.length_append, shortForm]
  omega

theorem decode_disconnect_encodes (payload : Bytes) (packet : Packet) (completed : decodeDisconnect payload = .ok packet) :
    packet.Fits ∧ (encodePayload packet).2.length ≤ max payload.length shortForm := by
  obtain ⟨⟨reasonCode, properties⟩, reason, eq⟩ := (bind_ok_iff _ _ _).mp completed
  cases eq
  obtain ⟨fits, bound⟩ :=
    read_reason_encodes disconnect_properties_rewrites DisconnectProperties.present payload reasonCode properties reason
  refine ⟨fits, ?_⟩
  simp only [encodePayload, shortForm]
  omega

def filterBytes (subscriptions : List Subscription) : Bytes :=
  subscriptions.flatMap fun sub => writeStr sub.topicFilter ++ [sub.options]

theorem subscription_loop_encodes (done : List Subscription) (payload : Bytes) (subscriptions : List Subscription)
    (doneFit : ∀ sub ∈ done, StrFits sub.topicFilter) :
    subscriptionLoop done payload = .ok subscriptions →
      (∀ sub ∈ subscriptions, StrFits sub.topicFilter) ∧
        (filterBytes subscriptions).length ≤ (filterBytes done).length + payload.length := by
  cases payload with
  | nil =>
      intro completed
      rw [subscription_loop_nil] at completed
      cases completed
      exact ⟨doneFit, Nat.le_add_right _ _⟩
  | cons byte tail =>
      intro completed
      rw [subscription_loop_cons] at completed
      obtain ⟨⟨sub, rest⟩, read, later⟩ := (bind_ok_iff _ _ _).mp completed
      have shorter := read_subscription_length _ _ _ read
      obtain ⟨⟨topicFilter, afterFilter⟩, readFilter, read⟩ := (bind_ok_iff _ _ _).mp read
      obtain ⟨⟨options, afterOptions⟩, readOptions, eq⟩ := (bind_ok_iff _ _ _).mp read
      cases eq
      obtain ⟨filterFits, filterBound⟩ := read_str_within _ _ _ readFilter
      have optionsBound := read_u8_within _ _ _ readOptions
      have nextFit : ∀ sub ∈ done ++ [Subscription.mk topicFilter options], StrFits sub.topicFilter := by
        intro sub member
        rcases List.mem_append.mp member with old | new
        · exact doneFit sub old
        · rw [List.mem_singleton.mp new]
          exact filterFits
      obtain ⟨fits, bound⟩ := subscription_loop_encodes _ rest subscriptions nextFit later
      have added : (filterBytes (done ++ [⟨topicFilter, options⟩])).length =
          (filterBytes done).length + ((writeStr topicFilter).length + 1) := by
        simp [filterBytes]
      exact ⟨fits, by omega⟩
termination_by payload.length
decreasing_by
  all_goals exact shorter

theorem decode_subscribe_encodes (flags : UInt8) (payload : Bytes) (packet : Packet)
    (completed : decodeSubscribe flags payload = .ok packet) :
    packet.Fits ∧ (encodePayload packet).2.length ≤ max payload.length shortForm := by
  unfold decodeSubscribe at completed
  split at completed
  · cases completed
  · obtain ⟨⟨packetId, afterId⟩, readId, completed⟩ := (bind_ok_iff _ _ _).mp completed
    obtain ⟨⟨properties, afterProps⟩, readProps, completed⟩ := (bind_ok_iff _ _ _).mp completed
    obtain ⟨subscriptions, loop, completed⟩ := (bind_ok_iff _ _ _).mp completed
    split at completed
    · cases completed
    · rename_i nonempty
      cases completed
      have idBound : 2 + afterId.length ≤ payload.length := read_u16_within _ _ _ readId
      obtain ⟨propsFit, propsBound⟩ := decode_properties_rewrites subscribe_properties_rewrites _ _ _ readProps
      obtain ⟨filtersFit, filtersBound⟩ := subscription_loop_encodes [] afterProps subscriptions (by simp) loop
      refine ⟨⟨by simpa using nonempty, filtersFit, propsFit⟩, ?_⟩
      have idLength : (writeU16 packetId).length = 2 := rfl
      have nothing : (filterBytes []).length = 0 := rfl
      have same : (subscriptions.flatMap fun sub => writeStr sub.topicFilter ++ [sub.options]).length =
          (filterBytes subscriptions).length := rfl
      simp only [encodePayload, List.length_append, shortForm, same]
      rcases propsBound with fitted | ⟨rfl, rfl, one⟩
      · omega
      · rw [List.length_nil] at filtersBound
        omega

theorem decode_sub_ack_encodes (payload : Bytes) (packet : Packet) (completed : decodeSubAck payload = .ok packet) :
    packet.Fits ∧ (encodePayload packet).2.length ≤ max payload.length shortForm := by
  obtain ⟨⟨packetId, afterId⟩, readId, completed⟩ := (bind_ok_iff _ _ _).mp completed
  obtain ⟨⟨properties, afterProps⟩, readProps, completed⟩ := (bind_ok_iff _ _ _).mp completed
  obtain ⟨reasonCodes, loop, eq⟩ := (bind_ok_iff _ _ _).mp completed
  cases eq
  rw [reason_code_loop_all, List.nil_append] at loop
  cases loop
  have idBound : 2 + afterId.length ≤ payload.length := read_u16_within _ _ _ readId
  obtain ⟨propsFit, propsBound⟩ := decode_properties_rewrites sub_ack_properties_rewrites _ _ _ readProps
  refine ⟨propsFit, ?_⟩
  have idLength : (writeU16 packetId).length = 2 := rfl
  simp only [encodePayload, List.length_append, shortForm]
  rcases propsBound with fitted | ⟨rfl, rfl, one⟩
  · omega
  · rw [one, List.length_nil]
    omega

theorem decode_ping_encodes (ping packet : Packet) (flags : UInt8) (payload : Bytes)
    (completed : decodePing ping flags payload = .ok packet) : packet = ping := by
  unfold decodePing at completed
  split at completed
  · cases completed
  · cases completed
    rfl

theorem decode_payload_encodes (packetType flags : UInt8) (payload : Bytes) (packet : Packet)
    (completed : decodePayload packetType flags payload = .ok packet) :
    packet.Fits ∧ (encodePayload packet).2.length ≤ max payload.length shortForm := by
  unfold decodePayload at completed
  split at completed
  · obtain ⟨fits, bound⟩ := decode_connect_encodes flags payload packet completed
    exact ⟨fits, Nat.le_trans bound (Nat.le_max_left _ _)⟩
  · exact decode_conn_ack_encodes payload packet completed
  · exact decode_publish_encodes flags payload packet completed
  · exact decode_pub_ack_encodes payload packet completed
  · exact decode_subscribe_encodes flags payload packet completed
  · exact decode_sub_ack_encodes payload packet completed
  · rw [decode_ping_encodes _ packet flags payload completed]
    exact ⟨trivial, Nat.zero_le _⟩
  · rw [decode_ping_encodes _ packet flags payload completed]
    exact ⟨trivial, Nat.zero_le _⟩
  · exact decode_disconnect_encodes payload packet completed
  · cases completed

theorem decoded_encodable (buf : Bytes) (packet : Packet) (bytesRead : Nat)
    (decoded : decodePacket buf = .ok (packet, bytesRead)) : packet.Encodable := by
  obtain ⟨header, val, read, body, headed, whole, completed, _⟩ := (decode_packet_ok_iff buf packet bytesRead).mp decoded
  obtain ⟨fits, bound⟩ := decode_payload_encodes _ _ _ packet completed
  have limit := (header_at_bounds buf header val read body headed).2.2.1
  rw [List.length_take_of_le whole] at bound
  have room : shortForm < 2 ^ 28 := by decide
  exact ⟨fits, by omega⟩

theorem decoded_packet_reencodes (buf suffix : Bytes) (packet : Packet) (bytesRead : Nat)
    (decoded : decodePacket buf = .ok (packet, bytesRead)) :
    decodePacket (encodePacket packet ++ suffix) = .ok (packet, (encodePacket packet).length) := by
  have encodable := decoded_encodable buf packet bytesRead decoded
  rw [decode_encoded_frame packet suffix encodable.2, decode_encode_payload packet encodable, ok_bind, pure_eq]

-- An overlong remaining length, a topic alias given twice and an overlong block length.
def untidyPublish : Bytes := [0x31, 0x8C, 0x00, 0, 1, 97, 0x86, 0x00, 0x23, 0, 1, 0x23, 0, 2, 0x31]

theorem untidy_publish_reencodes :
    decodePacket (encodePacket (.publish ⟨false, 0, true, "a", none, { topicAlias := some 2 }, [0x31]⟩) ++ [0xC0]) =
      .ok (.publish ⟨false, 0, true, "a", none, { topicAlias := some 2 }, [0x31]⟩,
        (encodePacket (.publish ⟨false, 0, true, "a", none, { topicAlias := some 2 }, [0x31]⟩)).length) :=
  decoded_packet_reencodes untidyPublish [0xC0] _ 15 (by decide +kernel)

end Pipistrelle.Codec
