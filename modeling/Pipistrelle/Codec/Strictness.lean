import Pipistrelle.Codec.PropertyBlock
import Pipistrelle.Codec.Reencode
import Pipistrelle.Codec.WillSection

set_option autoImplicit false

/- What decode_packet lets through besides the fields that it reads. Where every
   field ends is stated by the lengths in the payload itself, and the decoder
   compares the end of the last field with that of the frame for no packet that
   ends in properties or in a password. -/
namespace Pipistrelle.Codec

open Outcome

structure ConnectFields (pkt : Connect) (connectFlags : UInt8) (block will : Bytes) (payload : Bytes) : Prop where
  bytes : payload = writeStr "MQTT" ++ (5 :: connectFlags :: (writeU16 pkt.keepAlive ++ (block ++
    (writeStr pkt.clientId ++ (will ++ (optionalBytes writeStr pkt.username ++ optionalBytes writeBytes pkt.password))))))
  block : block ≠ [] ∧ ConnectProperties.decode block = .ok (pkt.properties, [])
  will : if connectFlags &&& 0x04 != 0 then ∃ skipped : WillSection, will = skipped.bytes else will = []
  username : pkt.username.isSome = (connectFlags &&& 0x80 != 0) ∧ ∀ s, pkt.username = some s → StrFits s
  password : pkt.password.isSome = (connectFlags &&& 0x40 != 0) ∧ ∀ data, pkt.password = some data → BytesFit data
  clientId : StrFits pkt.clientId

def ReasonFields {P : Type} (decode : Bytes → Decoded (P × Bytes)) (reasonCode : UInt8) (props : P) (tail : Bytes) : Prop :=
  tail = [] ∨ ∃ block, tail = reasonCode :: block ∧ decode block = .ok (props, [])

def Packet.Fields (payload : Bytes) : Packet → Prop
  | .connect pkt => ∃ connectFlags block will, ConnectFields pkt connectFlags block will payload
  | .connAck pkt => ∃ connackFlags block, payload = connackFlags :: pkt.reasonCode :: block ∧
      ConnAckProperties.decode block = .ok (pkt.properties, [])
  | .publish pkt => ∃ block, payload = writeStr pkt.topic ++ (optionalBytes writeU16 pkt.packetId ++ (block ++ pkt.payload)) ∧
      PublishProperties.decode block = .ok (pkt.properties, [])
  | .pubAck pkt => ∃ tail, payload = writeU16 pkt.packetId ++ tail ∧
      ReasonFields PubAckProperties.decode pkt.reasonCode pkt.properties tail
  | .subscribe pkt => ∃ block, payload = writeU16 pkt.packetId ++ (block ++ filterBytes pkt.subscriptions) ∧
      SubscribeProperties.decode block = .ok (pkt.properties, [])
  | .subAck pkt => ∃ block, payload = writeU16 pkt.packetId ++ (block ++ pkt.reasonCodes) ∧
      SubAckProperties.decode block = .ok (pkt.properties, [])
  | .pingReq | .pingResp => payload = []
  | .disconnect pkt => ReasonFields DisconnectProperties.decode pkt.reasonCode pkt.properties payload

structure Strict (header : UInt8) (payload : Bytes) (packet : Packet) : Prop where
  firstByte : (encodePacket packet).head? = some header
  fields : packet.Fields payload
  qos : ∀ pkt, packet = .subscribe pkt → ∀ sub ∈ pkt.subscriptions, sub.options &&& 0x03 ≤ 2

def blockSpan (payload : Bytes) : Nat :=
  match decodeVarint payload with
  | .ok (len, read) => read + len.toNat
  | _ => 0

def fieldSpan : Bytes → Nat
  | b0 :: b1 :: _ => 2 + (u16FromBeBytes b0 b1).toNat
  | _ => 0

def bytesSpan (n : Nat) (_payload : Bytes) : Nat := n

def reasonSpan (payload : Bytes) : Nat := min 1 payload.length

def statedLength : List (Bytes → Nat) → Bytes → Nat
  | [], _ => 0
  | span :: rest, payload => span payload + statedLength rest (payload.drop (span payload))

def spansIf (present : Bool) (spans : List (Bytes → Nat)) : List (Bytes → Nat) := if present then spans else []

-- The fields of the four packets whose last field need not be the last of the frame.
def spansOf (packetType : UInt8) (payload : Bytes) : List (Bytes → Nat) :=
  let connectFlags := (payload[7]?).getD 0
  match packetType with
  | 1 => [bytesSpan 10, blockSpan, fieldSpan] ++ (spansIf (connectFlags &&& 0x04 != 0) [blockSpan, fieldSpan, fieldSpan] ++
      (spansIf (connectFlags &&& 0x80 != 0) [fieldSpan] ++ spansIf (connectFlags &&& 0x40 != 0) [fieldSpan]))
  | 2 => [bytesSpan 2, blockSpan]
  | 4 => [bytesSpan 2, reasonSpan, blockSpan]
  | 14 => [reasonSpan, blockSpan]
  | _ => [List.length]

-- The byte behind each filter of SUBSCRIBE. No filter is shorter than its option byte.
def optionBytes : Nat → Bytes → List UInt8
  | 0, _ => []
  | turns + 1, payload =>
      match payload.drop (fieldSpan payload) with
      | [] => []
      | options :: rest => options :: optionBytes turns rest

structure Tidy (header : UInt8) (payload : Bytes) : Prop where
  flags : header >>> 4 = 2 ∨ header >>> 4 = 4 ∨ header >>> 4 = 9 ∨ header >>> 4 = 14 → header &&& 0x0F = 0
  length : statedLength (spansOf (header >>> 4) payload) payload = payload.length
  options : header >>> 4 = 8 → ∀ options ∈ optionBytes payload.length (payload.drop (2 + blockSpan (payload.drop 2))),
    options &&& 0x03 ≠ 3

inductive Spans : List (Bytes → Nat) → Bytes → Bytes → Prop where
  | nil (payload : Bytes) : Spans [] payload payload
  | cons (span : Bytes → Nat) (spans : List (Bytes → Nat)) (field payload rest : Bytes)
      (here : span (field ++ payload) = field.length) (later : Spans spans payload rest) :
      Spans (span :: spans) (field ++ payload) rest

theorem spans_append (spans more : List (Bytes → Nat)) (payload middle rest : Bytes) (early : Spans spans payload middle)
    (late : Spans more middle rest) : Spans (spans ++ more) payload rest := by
  induction early with
  | nil => exact late
  | cons span spans field payload middle here _ ih => exact .cons span (spans ++ more) field payload rest here (ih late)

theorem spans_length (spans : List (Bytes → Nat)) (payload rest : Bytes) (goes : Spans spans payload rest) :
    statedLength spans payload + rest.length = payload.length := by
  induction goes with
  | nil payload => rw [statedLength, Nat.zero_add]
  | cons span spans field payload rest here _ ih =>
      rw [statedLength, here, List.drop_left, List.length_append, Nat.add_assoc, ih]

theorem spans_whole_iff (spans : List (Bytes → Nat)) (payload rest : Bytes) (goes : Spans spans payload rest) :
    statedLength spans payload = payload.length ↔ rest = [] := by
  have total := spans_length spans payload rest goes
  rw [← List.length_eq_zero_iff]
  omega

theorem field_span_bytes (data rest : Bytes) (fits : BytesFit data) :
    fieldSpan (writeBytes data ++ rest) = (writeBytes data).length := by
  have len : (UInt16.ofNat data.length).toNat = data.length := by
    rw [UInt16.toNat_ofNat']
    exact Nat.mod_eq_of_lt (Nat.lt_succ_of_le fits)
  rw [writeBytes]
  generalize UInt16.ofNat data.length = val at len ⊢
  simp only [writeU16, u16ToBeBytes, List.cons_append, List.nil_append, fieldSpan, List.length_cons]
  rw [u16_from_to_be_bytes, len]
  omega

theorem field_span_str (s : String) (rest : Bytes) (fits : StrFits s) :
    fieldSpan (writeStr s ++ rest) = (writeStr s).length := field_span_bytes (strBytes s) rest fits

section Block

variable {P : Type} (table : PropertyTable P) (empty props : P)

theorem block_span_whole (header items rest : Bytes) (len : UInt32) (alone : decodeVarint header = .ok (len, header.length))
    (length : items.length = len.toNat) : blockSpan (header ++ (items ++ rest)) = (header ++ items).length := by
  have decoded : decodeVarint (header ++ (items ++ rest)) = .ok (len, header.length) := by
    rw [decode_varint_append _ _ (by simp [alone]), alone]
  rw [blockSpan, decoded]
  dsimp only
  rw [List.length_append, length]

theorem decode_block_split (buf rest : Bytes) (decoded : decodeProperties table empty buf = .ok (props, rest)) :
    ∃ block, buf = block ++ rest ∧ decodeProperties table empty block = .ok (props, []) ∧
      blockSpan (block ++ rest) = block.length ∧ (buf ≠ [] → block ≠ []) := by
  rcases (decode_properties_iff table empty props buf rest).mp decoded with
    ⟨rfl, same, rfl⟩ | ⟨header, len, items, alone, bytes, length, complete, folded⟩
  · exact ⟨[], rfl, decoded, rfl, id⟩
  · refine ⟨header ++ items.flatMap Item.encoded, by rw [bytes, List.append_assoc], ?_, ?_, ?_⟩
    · refine (decode_properties_iff table empty props _ []).mpr (.inr ⟨header, len, items, alone, ?_, length, complete, folded⟩)
      rw [List.append_nil]
    · rw [List.append_assoc]
      exact block_span_whole header _ rest len alone length
    · rintro - nothing
      rw [List.append_eq_nil_iff] at nothing
      simp [nothing.1, decodeVarint, varintLoop] at alone

theorem block_span_decoded (block rest : Bytes) (decoded : decodeProperties table empty block = .ok (props, []))
    (last : block = [] → rest = []) : blockSpan (block ++ rest) = block.length := by
  rcases (decode_properties_iff table empty props block []).mp decoded with
    ⟨nothing, _, _⟩ | ⟨header, len, items, alone, bytes, length, _⟩
  · rw [nothing, last nothing]
    rfl
  · rw [List.append_nil] at bytes
    rw [bytes, List.append_assoc]
    exact block_span_whole header _ rest len alone length

end Block

theorem will_spans (will : WillSection) (rest : Bytes) :
    Spans [blockSpan, fieldSpan, fieldSpan] (will.bytes ++ rest) rest := by
  have parts : will.bytes ++ rest = (will.propsHeader ++ will.properties) ++
      (writeBytes will.topic ++ (writeBytes will.payload ++ rest)) := by
    simp only [WillSection.bytes, List.append_assoc]
  rw [parts]
  refine .cons _ _ _ _ _ ?_ (.cons _ _ _ _ _ (field_span_bytes _ _ will.topicFits)
    (.cons _ _ _ _ _ (field_span_bytes _ _ will.payloadFits) (.nil rest)))
  rw [List.append_assoc]
  exact block_span_whole _ _ _ will.propsLen will.headerDecodes will.propertiesLength

theorem skip_will_ok (payload rest : Bytes) (skipped : skipWill payload = .ok rest) :
    ∃ will : WillSection, payload = will.bytes ++ rest := by
  obtain ⟨⟨propsLen, read⟩, decoded, skipped⟩ := (bind_ok_iff _ _ _).mp skipped
  have bounds := decode_varint_ok _ _ _ decoded
  dsimp only at skipped
  rw [add_word_fits _ _ _ (by omega), ok_bind] at skipped
  obtain ⟨atTopic, props, skipped⟩ := (bind_ok_iff _ _ _).mp skipped
  obtain ⟨⟨topicLen, afterTopicLen⟩, readTopic, skipped⟩ := (bind_ok_iff _ _ _).mp skipped
  obtain ⟨atPayload, topic, skipped⟩ := (bind_ok_iff _ _ _).mp skipped
  obtain ⟨⟨payloadLen, afterPayloadLen⟩, readPayload, last⟩ := (bind_ok_iff _ _ _).mp skipped
  dsimp only at topic last
  obtain ⟨tail, propsBytes, propsTaken⟩ := slice_from_ok _ _ _ props
  obtain ⟨topicData, topicBytes, topicTaken⟩ := slice_from_ok _ _ _ topic
  obtain ⟨payloadData, payloadBytes, payloadTaken⟩ := slice_from_ok _ _ _ last
  rw [(read_u16_ok_iff _ _ _).mp readTopic, topicBytes, (read_u16_ok_iff _ _ _).mp readPayload, payloadBytes] at propsBytes
  have header : payload.take read = tail.take read := by
    rw [propsBytes, List.take_append_of_le_length (by omega)]
  have alone := decode_varint_take payload propsLen read decoded
  rw [header] at alone
  refine ⟨{
    propsHeader := tail.take read
    propsLen
    properties := tail.drop read
    topic := topicData
    payload := payloadData
    qos := 0
    retain := false
    headerDecodes := alone
    propertiesLength := by rw [List.length_drop]; omega
    topicFits := by have := topicLen.toNat_lt; omega
    payloadFits := by have := payloadLen.toNat_lt; omega }, ?_⟩
  refine propsBytes.trans ?_
  simp only [WillSection.bytes, writeBytes, topicTaken, payloadTaken, UInt16.ofNat_toNat, ← List.append_assoc,
    List.take_append_drop]

theorem fields_iff_length (spans : List (Bytes → Nat)) (payload rest : Bytes) (Fields : Prop)
    (goes : Spans spans payload rest) (whole : rest = [] → Fields) (all : Fields → Spans spans payload []) :
    Fields ↔ statedLength spans payload = payload.length := by
  constructor
  · exact fun fields => (spans_whole_iff spans payload [] (all fields)).mpr rfl
  · exact fun length => whole ((spans_whole_iff spans payload rest goes).mp length)

theorem conn_ack_fields_iff (payload : Bytes) (packet : Packet) (decoded : decodeConnAck payload = .ok packet) :
    ∃ pkt, packet = .connAck pkt ∧
      (packet.Fields payload ↔ statedLength (spansOf 2 payload) payload = payload.length) := by
  obtain ⟨⟨connackFlags, afterFlags⟩, readFlags, decoded⟩ := (bind_ok_iff _ _ _).mp decoded
  obtain ⟨⟨reasonCode, afterReason⟩, readReason, decoded⟩ := (bind_ok_iff _ _ _).mp decoded
  obtain ⟨⟨properties, rest⟩, readProps, eq⟩ := (bind_ok_iff _ _ _).mp decoded
  cases eq
  rw [(read_u8_ok_iff _ _ _).mp readFlags, (read_u8_ok_iff _ _ _).mp readReason]
  obtain ⟨block, bytes, alone, span, _⟩ := decode_block_split _ _ properties _ _ readProps
  refine ⟨_, rfl, fields_iff_length [bytesSpan 2, blockSpan] _ rest _ ?_ ?_ ?_⟩
  · rw [bytes]
    exact .cons _ _ [connackFlags, reasonCode] _ _ rfl (.cons _ _ _ _ _ span (.nil rest))
  · intro nothing
    rw [bytes, nothing, List.append_nil]
    exact ⟨connackFlags, block, rfl, alone⟩
  · intro ⟨otherFlags, whole, same, decoded⟩
    rw [same, ← List.append_nil whole]
    exact .cons _ _ [otherFlags, reasonCode] _ _ rfl
      (.cons _ _ _ _ _ (block_span_decoded _ _ _ whole [] decoded fun _ => rfl) (.nil []))

section Reason

variable {P : Type} (table : PropertyTable P) (empty props : P) (reasonCode : UInt8)

theorem reason_fields_spans (tail : Bytes) (fields : ReasonFields (decodeProperties table empty) reasonCode props tail) :
    Spans [reasonSpan, blockSpan] tail [] := by
  rcases fields with rfl | ⟨block, rfl, decoded⟩
  · exact .cons reasonSpan [blockSpan] [] [] [] rfl (.cons blockSpan [] [] [] [] rfl (.nil []))
  · refine .cons reasonSpan [blockSpan] [reasonCode] block [] ?_ ?_
    · simp [reasonSpan]
    · rw [← List.append_nil block]
      exact .cons blockSpan [] block [] [] (block_span_decoded table empty props block [] decoded fun _ => rfl) (.nil [])

theorem read_reason_spans (tail : Bytes)
    (decoded : readReason empty (decodeProperties table empty) tail = .ok (reasonCode, props)) :
    ∃ rest, Spans [reasonSpan, blockSpan] tail rest ∧
      (rest = [] → ReasonFields (decodeProperties table empty) reasonCode props tail) := by
  cases tail with
  | nil => exact ⟨[], reason_fields_spans table empty props reasonCode [] (.inl rfl), fun _ => .inl rfl⟩
  | cons code buf =>
      have read : code = reasonCode ∧ ∃ rest, decodeProperties table empty buf = .ok (props, rest) := by
        cases buf with
        | nil =>
            cases decoded
            exact ⟨rfl, [], rfl⟩
        | cons byte more =>
            simp only [readReason, List.isEmpty_cons, Bool.false_eq_true, if_false, read_u8_cons, ok_bind] at decoded
            obtain ⟨⟨properties, rest⟩, readProps, eq⟩ := (bind_ok_iff _ _ _).mp decoded
            cases eq
            exact ⟨rfl, rest, readProps⟩
      obtain ⟨rfl, rest, readProps⟩ := read
      obtain ⟨block, rfl, alone, span, _⟩ := decode_block_split table empty props buf rest readProps
      refine ⟨rest, .cons reasonSpan [blockSpan] [code] _ rest (by simp [reasonSpan])
        (.cons blockSpan [] block rest rest span (.nil rest)), ?_⟩
      rintro rfl
      rw [List.append_nil]
      exact .inr ⟨block, rfl, alone⟩

end Reason

theorem pub_ack_fields_iff (payload : Bytes) (packet : Packet) (decoded : decodePubAck payload = .ok packet) :
    ∃ pkt, packet = .pubAck pkt ∧
      (packet.Fields payload ↔ statedLength (spansOf 4 payload) payload = payload.length) := by
  obtain ⟨⟨packetId, afterId⟩, readId, decoded⟩ := (bind_ok_iff _ _ _).mp decoded
  obtain ⟨⟨reasonCode, properties⟩, readTail, eq⟩ := (bind_ok_iff _ _ _).mp decoded
  cases eq
  rw [(read_u16_ok_iff _ _ _).mp readId]
  obtain ⟨rest, goes, whole⟩ := read_reason_spans _ _ properties reasonCode afterId readTail
  refine ⟨_, rfl, fields_iff_length [bytesSpan 2, reasonSpan, blockSpan] _ rest _ ?_ ?_ ?_⟩
  · exact .cons _ _ (writeU16 packetId) _ _ rfl goes
  · exact fun nothing => ⟨afterId, rfl, whole nothing⟩
  · intro ⟨tail, same, fields⟩
    rw [same]
    exact .cons _ _ (writeU16 packetId) _ _ rfl (reason_fields_spans _ _ properties reasonCode tail fields)

theorem disconnect_fields_iff (payload : Bytes) (packet : Packet) (decoded : decodeDisconnect payload = .ok packet) :
    ∃ pkt, packet = .disconnect pkt ∧
      (packet.Fields payload ↔ statedLength (spansOf 14 payload) payload = payload.length) := by
  obtain ⟨⟨reasonCode, properties⟩, readTail, eq⟩ := (bind_ok_iff _ _ _).mp decoded
  cases eq
  obtain ⟨rest, goes, whole⟩ := read_reason_spans _ _ properties reasonCode payload readTail
  exact ⟨_, rfl, fields_iff_length [reasonSpan, blockSpan] payload rest _ goes whole
    (reason_fields_spans _ _ properties reasonCode payload)⟩

theorem optional_spans {α : Type} (present : Bool) (write : α → Bytes) (Fits : α → Prop) (field : Option α)
    (payload : Bytes) (there : field.isSome = present) (fits : ∀ val, field = some val → Fits val)
    (span : ∀ val rest, Fits val → fieldSpan (write val ++ rest) = (write val).length) :
    Spans (spansIf present [fieldSpan]) (optionalBytes write field ++ payload) payload := by
  cases field with
  | none =>
      cases there
      exact .nil payload
  | some val =>
      cases there
      exact .cons fieldSpan [] (write val) payload payload (span val payload (fits val rfl)) (.nil payload)

theorem read_will_ok (hasWill : Bool) (payload rest : Bytes) (completed : readWill hasWill payload = .ok rest) :
    ∃ will, payload = will ++ rest ∧ if hasWill then ∃ skipped : WillSection, will = skipped.bytes else will = [] := by
  cases hasWill with
  | false =>
      cases completed
      exact ⟨[], rfl, rfl⟩
  | true =>
      obtain ⟨will, bytes⟩ := skip_will_ok payload rest completed
      exact ⟨will.bytes, bytes, will, rfl⟩

theorem will_if_spans (hasWill : Bool) (will rest : Bytes)
    (willShape : if hasWill then ∃ skipped : WillSection, will = skipped.bytes else will = []) :
    Spans (spansIf hasWill [blockSpan, fieldSpan, fieldSpan]) (will ++ rest) rest := by
  cases hasWill with
  | false =>
      cases (willShape : will = [])
      exact .nil rest
  | true =>
      obtain ⟨skipped, rfl⟩ := (willShape : ∃ skipped : WillSection, will = skipped.bytes)
      exact will_spans skipped rest

theorem connect_fields_spans (pkt : Connect) (connectFlags : UInt8) (block will payload rest : Bytes)
    (fields : ConnectFields pkt connectFlags block will payload) :
    Spans (spansOf 1 (payload ++ rest)) (payload ++ rest) rest := by
  obtain ⟨rfl, ⟨nonempty, alone⟩, willShape, ⟨userThere, userFits⟩, ⟨passThere, passFits⟩, idFits⟩ := fields
  have name : writeStr "MQTT" = [0, 4, 77, 81, 84, 84] := by decide
  have spans : spansOf 1 (writeStr "MQTT" ++ (5 :: connectFlags :: (writeU16 pkt.keepAlive ++ (block ++
      (writeStr pkt.clientId ++ (will ++ (optionalBytes writeStr pkt.username ++ optionalBytes writeBytes pkt.password)))))) ++
        rest) = [bytesSpan 10, blockSpan, fieldSpan] ++
      (spansIf (connectFlags &&& 0x04 != 0) [blockSpan, fieldSpan, fieldSpan] ++
        (spansIf (connectFlags &&& 0x80 != 0) [fieldSpan] ++ spansIf (connectFlags &&& 0x40 != 0) [fieldSpan])) := by
    rw [name]
    rfl
  have parts : writeStr "MQTT" ++ (5 :: connectFlags :: (writeU16 pkt.keepAlive ++ (block ++
      (writeStr pkt.clientId ++ (will ++ (optionalBytes writeStr pkt.username ++ optionalBytes writeBytes pkt.password)))))) ++
        rest = (writeStr "MQTT" ++ (5 :: connectFlags :: writeU16 pkt.keepAlive)) ++ (block ++ (writeStr pkt.clientId ++
          (will ++ (optionalBytes writeStr pkt.username ++ (optionalBytes writeBytes pkt.password ++ rest))))) := by
    simp only [List.append_assoc, List.cons_append]
  rw [spans, parts]
  apply spans_append _ _ _ (will ++ (optionalBytes writeStr pkt.username ++ (optionalBytes writeBytes pkt.password ++ rest)))
  · refine .cons _ _ _ _ _ (by rw [name]; rfl) (.cons _ _ _ _ _ ?_ (.cons _ _ _ _ _ (field_span_str _ _ idFits) (.nil _)))
    exact block_span_decoded _ _ _ block _ alone fun nothing => absurd nothing nonempty
  · apply spans_append _ _ _ _ _ (will_if_spans _ will _ willShape)
    apply spans_append _ _ _ (optionalBytes writeBytes pkt.password ++ rest)
    · exact optional_spans _ writeStr StrFits _ _ userThere userFits field_span_str
    · exact optional_spans _ writeBytes BytesFit _ _ passThere passFits field_span_bytes

theorem decode_connect_fields (flags : UInt8) (payload : Bytes) (packet : Packet)
    (decoded : decodeConnect flags payload = .ok packet) :
    ∃ pkt connectFlags block will whole rest, packet = .connect pkt ∧ payload = whole ++ rest ∧
      ConnectFields pkt connectFlags block will whole := by
  unfold decodeConnect at decoded
  split at decoded
  · cases decoded
  obtain ⟨⟨protocolName, afterName⟩, readName, decoded⟩ := (bind_ok_iff _ _ _).mp decoded
  dsimp only at decoded
  split at decoded
  · cases decoded
  rename_i named
  rw [ne_eq, not_not] at named
  obtain ⟨⟨protocolLevel, afterLevel⟩, readLevel, decoded⟩ := (bind_ok_iff _ _ _).mp decoded
  dsimp only at decoded
  split at decoded
  · cases decoded
  rename_i level
  rw [ne_eq, not_not] at level
  obtain ⟨⟨connectFlags, afterFlags⟩, readFlags, decoded⟩ := (bind_ok_iff _ _ _).mp decoded
  obtain ⟨⟨keepAlive, afterKeepAlive⟩, readKeepAlive, decoded⟩ := (bind_ok_iff _ _ _).mp decoded
  obtain ⟨⟨properties, afterProps⟩, readProps, decoded⟩ := (bind_ok_iff _ _ _).mp decoded
  obtain ⟨⟨clientId, afterId⟩, readId, decoded⟩ := (bind_ok_iff _ _ _).mp decoded
  obtain ⟨afterWill, skipped, decoded⟩ := (bind_ok_iff _ _ _).mp decoded
  obtain ⟨⟨username, afterUser⟩, readUser, decoded⟩ := (bind_ok_iff _ _ _).mp decoded
  obtain ⟨⟨password, rest⟩, readPass, eq⟩ := (bind_ok_iff _ _ _).mp decoded
  cases eq
  dsimp only at readKeepAlive readProps readId skipped readUser readPass
  obtain ⟨block, propsBytes, alone, _, nonempty⟩ := decode_block_split _ _ properties _ _ readProps
  obtain ⟨idFits, idBytes⟩ := (read_str_ok_iff _ _ _).mp readId
  obtain ⟨will, willBytes, willShape⟩ := read_will_ok _ _ _ skipped
  obtain ⟨userThere, userFits, userBytes⟩ := read_optional_ok _ readStr writeStr StrFits read_str_ok_iff _ _ _ readUser
  obtain ⟨passThere, passFits, passBytes⟩ := read_optional_ok _ readBytes writeBytes BytesFit read_bytes_ok_iff _ _ _ readPass
  refine ⟨⟨clientId, keepAlive, _, username, password, properties⟩, connectFlags, block, will, _, rest, rfl, ?_,
    ⟨rfl, ⟨?_, alone⟩, willShape, ⟨userThere, userFits⟩, ⟨passThere, passFits⟩, idFits⟩⟩
  · rw [((read_str_ok_iff _ _ _).mp readName).2, named, (read_u8_ok_iff _ _ _).mp readLevel, level,
      (read_u8_ok_iff _ _ _).mp readFlags, (read_u16_ok_iff _ _ _).mp readKeepAlive, propsBytes, idBytes, willBytes,
      userBytes, passBytes]
    simp only [List.append_assoc, List.cons_append]
  · apply nonempty
    rintro rfl
    rw [idBytes] at propsBytes
    simp [writeStr, writeU16, u16ToBeBytes] at propsBytes

theorem connect_fields_iff (flags : UInt8) (payload : Bytes) (packet : Packet)
    (decoded : decodeConnect flags payload = .ok packet) :
    ∃ pkt, packet = .connect pkt ∧
      (packet.Fields payload ↔ statedLength (spansOf 1 payload) payload = payload.length) := by
  obtain ⟨pkt, connectFlags, block, will, whole, rest, rfl, rfl, fields⟩ := decode_connect_fields flags payload packet decoded
  refine ⟨pkt, rfl, fields_iff_length _ _ rest _ ?_ ?_ ?_⟩
  · exact connect_fields_spans pkt connectFlags block will whole rest fields
  · rintro rfl
    rw [List.append_nil]
    exact ⟨connectFlags, block, will, fields⟩
  · intro ⟨otherFlags, otherBlock, otherWill, all⟩
    have spans := connect_fields_spans pkt otherFlags otherBlock otherWill _ [] all
    rwa [List.append_nil] at spans

theorem decode_publish_fields (flags : UInt8) (payload : Bytes) (packet : Packet)
    (decoded : decodePublish flags payload = .ok packet) :
    packet.Fields payload ∧ ∃ pkt, packet = .publish pkt ∧ pkt.dup = (flags &&& 0x08 != 0) ∧
      pkt.qos = (flags &&& 0x06) >>> 1 ∧ pkt.retain = (flags &&& 0x01 != 0) := by
  unfold decodePublish at decoded
  dsimp only at decoded
  split at decoded
  · cases decoded
  · obtain ⟨⟨topic, afterTopic⟩, readTopic, decoded⟩ := (bind_ok_iff _ _ _).mp decoded
    obtain ⟨⟨packetId, afterId⟩, readId, decoded⟩ := (bind_ok_iff _ _ _).mp decoded
    obtain ⟨⟨properties, content⟩, readProps, eq⟩ := (bind_ok_iff _ _ _).mp decoded
    cases eq
    dsimp only at readId readProps
    obtain ⟨block, propsBytes, alone, _, _⟩ := decode_block_split _ _ properties _ _ readProps
    obtain ⟨_, _, idBytes⟩ := read_optional_ok _ readU16 writeU16 (fun _ => True)
      (fun buf val rest => by rw [read_u16_ok_iff, true_and]) _ _ _ readId
    refine ⟨⟨block, ?_, alone⟩, _, rfl, rfl, rfl, rfl⟩
    rw [((read_str_ok_iff _ _ _).mp readTopic).2, idBytes, propsBytes]

theorem subscription_loop_ok (done : List Subscription) (payload : Bytes) (subscriptions : List Subscription)
    (completed : subscriptionLoop done payload = .ok subscriptions) :
    ∃ more, subscriptions = done ++ more ∧ payload = filterBytes more ∧ ∀ sub ∈ more, StrFits sub.topicFilter := by
  cases payload with
  | nil =>
      rw [subscription_loop_nil] at completed
      cases completed
      exact ⟨[], (List.append_nil _).symm, rfl, by simp⟩
  | cons byte tail =>
      rw [subscription_loop_cons] at completed
      obtain ⟨⟨sub, rest⟩, read, later⟩ := (bind_ok_iff _ _ _).mp completed
      have shorter := read_subscription_length _ _ _ read
      obtain ⟨⟨topicFilter, afterFilter⟩, readFilter, read⟩ := (bind_ok_iff _ _ _).mp read
      obtain ⟨⟨options, afterOptions⟩, readOptions, eq⟩ := (bind_ok_iff _ _ _).mp read
      cases eq
      obtain ⟨more, same, bytes, fits⟩ := subscription_loop_ok _ rest subscriptions later
      obtain ⟨filterFits, filterLayout⟩ := (read_str_ok_iff _ _ _).mp readFilter
      refine ⟨⟨topicFilter, options⟩ :: more, by rw [same, List.append_assoc]; rfl, ?_,
        List.forall_mem_cons.mpr ⟨filterFits, fits⟩⟩
      rw [filterLayout, (read_u8_ok_iff _ _ _).mp readOptions, bytes]
      simp [filterBytes]
termination_by payload.length

theorem filter_bytes_cons (sub : Subscription) (rest : List Subscription) :
    filterBytes (sub :: rest) = writeStr sub.topicFilter ++ (sub.options :: filterBytes rest) := by
  simp [filterBytes]

theorem option_bytes_filters (turns : Nat) (subs : List Subscription) (fits : ∀ sub ∈ subs, StrFits sub.topicFilter)
    (enough : subs.length ≤ turns) : optionBytes turns (filterBytes subs) = subs.map Subscription.options := by
  induction subs generalizing turns with
  | nil =>
      cases turns with
      | zero => rfl
      | succ turns => simp [optionBytes, filterBytes]
  | cons sub rest ih =>
      obtain ⟨turns, rfl⟩ := Nat.exists_eq_add_of_le' (Nat.le_trans (Nat.le_add_left 1 _) enough)
      obtain ⟨here, later⟩ := List.forall_mem_cons.mp fits
      rw [optionBytes, filter_bytes_cons, field_span_str _ _ here, List.drop_left, List.map_cons]
      dsimp only
      rw [ih turns later (Nat.le_of_succ_le_succ enough)]

theorem filter_bytes_length (subs : List Subscription) : subs.length ≤ (filterBytes subs).length := by
  induction subs with
  | nil => exact Nat.zero_le _
  | cons sub rest ih =>
      rw [filter_bytes_cons, List.length_append, List.length_cons, List.length_cons]
      omega

theorem decode_subscribe_fields (flags : UInt8) (payload : Bytes) (packet : Packet)
    (decoded : decodeSubscribe flags payload = .ok packet) :
    ∃ pkt, packet = .subscribe pkt ∧ packet.Fields payload ∧ flags = 2 ∧
      optionBytes payload.length (payload.drop (2 + blockSpan (payload.drop 2))) = pkt.subscriptions.map Subscription.options := by
  unfold decodeSubscribe at decoded
  split at decoded
  · cases decoded
  rename_i tidy
  obtain ⟨⟨packetId, afterId⟩, readId, decoded⟩ := (bind_ok_iff _ _ _).mp decoded
  obtain ⟨⟨properties, afterProps⟩, readProps, decoded⟩ := (bind_ok_iff _ _ _).mp decoded
  obtain ⟨subscriptions, loop, decoded⟩ := (bind_ok_iff _ _ _).mp decoded
  split at decoded
  · cases decoded
  cases decoded
  obtain ⟨block, propsBytes, alone, span, _⟩ := decode_block_split _ _ properties _ _ readProps
  obtain ⟨more, same, bytes, fits⟩ := subscription_loop_ok _ _ _ loop
  rw [List.nil_append] at same
  subst same
  have whole : payload = writeU16 packetId ++ (block ++ filterBytes subscriptions) := by
    rw [(read_u16_ok_iff _ _ _).mp readId, propsBytes, bytes]
  refine ⟨_, rfl, ⟨block, whole, alone⟩, not_not.mp tidy, ?_⟩
  have behindId : payload.drop 2 = block ++ filterBytes subscriptions := by
    rw [whole]
    rfl
  have long := filter_bytes_length subscriptions
  rw [bytes] at span
  rw [← List.drop_drop, behindId, span, List.drop_left]
  apply option_bytes_filters _ _ fits
  rw [whole, List.length_append, List.length_append]
  omega

theorem decode_sub_ack_fields (payload : Bytes) (packet : Packet) (decoded : decodeSubAck payload = .ok packet) :
    ∃ pkt, packet = .subAck pkt ∧ packet.Fields payload := by
  obtain ⟨⟨packetId, afterId⟩, readId, decoded⟩ := (bind_ok_iff _ _ _).mp decoded
  obtain ⟨⟨properties, afterProps⟩, readProps, decoded⟩ := (bind_ok_iff _ _ _).mp decoded
  obtain ⟨reasonCodes, loop, eq⟩ := (bind_ok_iff _ _ _).mp decoded
  cases eq
  rw [reason_code_loop_all, List.nil_append] at loop
  cases loop
  obtain ⟨block, propsBytes, alone, _, _⟩ := decode_block_split _ _ properties _ _ readProps
  exact ⟨_, rfl, block, by rw [(read_u16_ok_iff _ _ _).mp readId]; exact congrArg _ propsBytes, alone⟩

theorem header_nibbles (header : UInt8) : header = fixedHeader (header >>> 4) ||| (header &&& 0x0F) :=
  every_byte (by decide +kernel) header

theorem clear_flags_iff (header packetType : UInt8) (kind : header >>> 4 = packetType) (low : packetType < 16) :
    fixedHeader packetType = header ↔ header &&& 0x0F = 0 := by
  constructor
  · rintro rfl
    exact (fixed_header_nibbles packetType low).2
  · intro clear
    have whole := header_nibbles header
    rw [kind, clear, UInt8.or_zero] at whole
    exact whole.symm

theorem publish_first_byte (header : UInt8) (kind : header >>> 4 = 3) :
    setFlag (header &&& 0x0F &&& 0x01 != 0) 0x01 (setFlag (header &&& 0x0F &&& 0x08 != 0) 0x08 (fixedHeader 3) |||
      ((header &&& 0x0F &&& 0x06) >>> 1 &&& 0x03) <<< 1) = header := by
  revert kind
  exact every_byte (by decide +kernel) header

theorem decode_ping_fields (ping packet : Packet) (flags : UInt8) (payload : Bytes)
    (decoded : decodePing ping flags payload = .ok packet) : packet = ping ∧ flags = 0 ∧ payload = [] := by
  unfold decodePing at decoded
  split at decoded
  · cases decoded
  · rename_i tidy
    rw [not_or, not_not, not_not, List.length_eq_zero_iff] at tidy
    cases decoded
    exact ⟨rfl, tidy⟩

theorem decode_connect_flags (flags : UInt8) (payload : Bytes) (packet : Packet)
    (decoded : decodeConnect flags payload = .ok packet) : flags = 0 := by
  unfold decodeConnect at decoded
  split at decoded
  · cases decoded
  · rename_i tidy
    exact not_not.mp tidy

section Assembled

variable (header : UInt8) (payload : Bytes) (packet : Packet)

theorem strict_iff_of (first : (encodePayload packet).1 = header ↔
      (header >>> 4 = 2 ∨ header >>> 4 = 4 ∨ header >>> 4 = 9 ∨ header >>> 4 = 14 → header &&& 0x0F = 0))
    (fields : packet.Fields payload ↔ statedLength (spansOf (header >>> 4) payload) payload = payload.length)
    (qos : (∀ pkt, packet = .subscribe pkt → ∀ sub ∈ pkt.subscriptions, sub.options &&& 0x03 ≤ 2) ↔
      (header >>> 4 = 8 → ∀ options ∈ optionBytes payload.length (payload.drop (2 + blockSpan (payload.drop 2))),
        options &&& 0x03 ≠ 3)) : Strict header payload packet ↔ Tidy header payload := by
  constructor
  · intro ⟨same, all, low⟩
    exact ⟨first.mp (Option.some.inj same), fields.mp all, qos.mp low⟩
  · intro ⟨clear, length, low⟩
    exact ⟨congrArg some (first.mpr clear), fields.mpr length, qos.mpr low⟩

-- Three kinds check the flags, PUBLISH reads all of them.
theorem strict_iff_checked (packetType : UInt8) (kind : header >>> 4 = packetType)
    (others : packetType ≠ 2 ∧ packetType ≠ 4 ∧ packetType ≠ 9 ∧ packetType ≠ 14 ∧ packetType ≠ 8)
    (noFilters : ∀ pkt, packet ≠ .subscribe pkt) (first : (encodePayload packet).1 = header)
    (fields : packet.Fields payload ↔ statedLength (spansOf packetType payload) payload = payload.length) :
    Strict header payload packet ↔ Tidy header payload := by
  subst kind
  apply strict_iff_of header payload packet _ fields
  · exact iff_of_true (fun pkt same => absurd same (noFilters pkt)) fun subscribes => absurd subscribes others.2.2.2.2
  · refine iff_of_true first fun unchecked => ?_
    rcases unchecked with two | four | nine | fourteen
    · exact absurd two others.1
    · exact absurd four others.2.1
    · exact absurd nine others.2.2.1
    · exact absurd fourteen others.2.2.2.1

theorem strict_iff_unchecked (packetType : UInt8) (kind : header >>> 4 = packetType)
    (unchecked : packetType = 2 ∨ packetType = 4 ∨ packetType = 9 ∨ packetType = 14)
    (noFilters : ∀ pkt, packet ≠ .subscribe pkt) (first : (encodePayload packet).1 = fixedHeader packetType)
    (fields : packet.Fields payload ↔ statedLength (spansOf packetType payload) payload = payload.length) :
    Strict header payload packet ↔ Tidy header payload := by
  have low : packetType < 16 ∧ packetType ≠ 8 := by
    rcases unchecked with rfl | rfl | rfl | rfl <;> decide
  have exactly := clear_flags_iff header packetType kind low.1
  subst kind
  apply strict_iff_of header payload packet _ fields
  · exact iff_of_true (fun pkt same => absurd same (noFilters pkt)) fun subscribes => absurd subscribes low.2
  · rw [first, exactly]
    exact ⟨fun clear _ => clear, fun clear => clear unchecked⟩

end Assembled

theorem low_qos_iff (options : UInt8) : options &&& 0x03 ≤ 2 ↔ options &&& 0x03 ≠ 3 :=
  every_byte (by decide +kernel) options

theorem length_stated (payload : Bytes) : statedLength [List.length] payload = payload.length := Nat.add_zero _

theorem payload_strict_iff (header : UInt8) (payload : Bytes) (packet : Packet)
    (decoded : decodePayload (header >>> 4) (header &&& 0x0F) payload = .ok packet) :
    Strict header payload packet ↔ Tidy header payload := by
  unfold decodePayload at decoded
  split at decoded
  · rename_i kind
    obtain ⟨pkt, rfl, fields⟩ := connect_fields_iff _ payload packet decoded
    exact strict_iff_checked header payload _ 1 kind (by decide) nofun
      ((clear_flags_iff header 1 kind (by decide)).mpr (decode_connect_flags _ _ _ decoded)) fields
  · rename_i kind
    obtain ⟨pkt, rfl, fields⟩ := conn_ack_fields_iff payload packet decoded
    exact strict_iff_unchecked header payload _ 2 kind (by decide) nofun rfl fields
  · rename_i kind
    obtain ⟨fields, pkt, rfl, dup, qos, retain⟩ := decode_publish_fields _ payload packet decoded
    refine strict_iff_checked header payload _ 3 kind (by decide) nofun ?_ (iff_of_true fields (length_stated payload))
    have first := publish_first_byte header kind
    rwa [← dup, ← qos, ← retain] at first
  · rename_i kind
    obtain ⟨pkt, rfl, fields⟩ := pub_ack_fields_iff payload packet decoded
    exact strict_iff_unchecked header payload _ 4 kind (by decide) nofun rfl fields
  · rename_i kind
    obtain ⟨pkt, rfl, fields, flags, filters⟩ := decode_subscribe_fields _ payload packet decoded
    have first := header_nibbles header
    rw [kind, flags] at first
    apply strict_iff_of header payload
    · refine iff_of_true first.symm fun unchecked => ?_
      rw [kind] at unchecked
      exact absurd unchecked (by decide)
    · rw [kind]
      exact iff_of_true fields (length_stated payload)
    · rw [filters]
      constructor
      · intro low _ options member
        obtain ⟨sub, requested, rfl⟩ := List.mem_map.mp member
        exact (low_qos_iff sub.options).mp (low pkt rfl sub requested)
      · intro low other same sub requested
        cases same
        exact (low_qos_iff sub.options).mpr (low kind sub.options (List.mem_map_of_mem requested))
  · rename_i kind
    obtain ⟨pkt, rfl, fields⟩ := decode_sub_ack_fields payload packet decoded
    exact strict_iff_unchecked header payload _ 9 kind (by decide) nofun rfl (iff_of_true fields (length_stated payload))
  · rename_i kind
    obtain ⟨rfl, flags, nothing⟩ := decode_ping_fields _ packet _ payload decoded
    exact strict_iff_checked header payload _ 12 kind (by decide) nofun
      ((clear_flags_iff header 12 kind (by decide)).mpr flags) (iff_of_true nothing (length_stated payload))
  · rename_i kind
    obtain ⟨rfl, flags, nothing⟩ := decode_ping_fields _ packet _ payload decoded
    exact strict_iff_checked header payload _ 13 kind (by decide) nofun
      ((clear_flags_iff header 13 kind (by decide)).mpr flags) (iff_of_true nothing (length_stated payload))
  · rename_i kind
    obtain ⟨pkt, rfl, fields⟩ := disconnect_fields_iff payload packet decoded
    exact strict_iff_unchecked header payload _ 14 kind (by decide) nofun rfl fields
  · cases decoded

theorem accepted_frame_strict_iff (buf : Bytes) (packet : Packet) (bytesRead : Nat) (header : UInt8) (val : UInt32)
    (read : Nat) (body : Bytes) (decoded : decodePacket buf = .ok (packet, bytesRead))
    (headed : HeaderAt buf header val read body) :
    Strict header (body.take val.toNat) packet ↔ Tidy header (body.take val.toNat) := by
  by_cases whole : val.toNat ≤ body.length
  · rw [decode_packet_frame buf header val read body headed whole] at decoded
    obtain ⟨inner, completed, eq⟩ := (bind_ok_iff _ _ _).mp decoded
    cases eq
    exact payload_strict_iff header _ packet completed
  · rw [decode_packet_short buf header val read body headed (Nat.not_le.mp whole)] at decoded
    cases decoded

theorem tidy_subscribe_strict : Strict 0x82 [0, 1, 0, 0, 1, 97, 1] (.subscribe ⟨1, {}, [⟨"a", 1⟩]⟩) :=
  (accepted_frame_strict_iff [0x82, 0x07, 0, 1, 0, 0, 1, 97, 1] _ 9 0x82 7 1 [0, 1, 0, 0, 1, 97, 1] (by decide +kernel)
    ⟨[0x07, 0, 1, 0, 0, 1, 97, 1], rfl, by decide, rfl⟩).mpr ⟨by decide, by decide, by decide +kernel⟩

theorem stray_pub_ack_accepted :
    ¬∀ (buf : Bytes) (packet : Packet) (bytesRead : Nat) (header : UInt8) (val : UInt32) (read : Nat) (body : Bytes),
      decodePacket buf = .ok (packet, bytesRead) → HeaderAt buf header val read body →
        Strict header (body.take val.toNat) packet := by
  intro all
  have strict := all [0x41, 0x05, 0, 7, 0, 0, 0xAA] (.pubAck ⟨7, 0, {}⟩) 7 0x41 5 1 [0, 7, 0, 0, 0xAA] (by decide +kernel)
    ⟨[0x05, 0, 7, 0, 0, 0xAA], rfl, by decide, rfl⟩
  exact absurd strict.firstByte (by decide +kernel)

end Pipistrelle.Codec
