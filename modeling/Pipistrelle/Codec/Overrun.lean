import Pipistrelle.Codec.Framing
import Pipistrelle.Codec.Loops

set_option autoImplicit false

/- Incomplete inside a whole frame. The readers report a field that runs past the
   end of their slice in the same way as the framing reports a frame that has not
   arrived yet; the will section panics instead. This module says which field of
   which packet that is, layout by layout. -/
namespace Pipistrelle.Codec

open Outcome

def Starved {α : Type} (result : Decoded α) : Prop := result = .err .incomplete ∨ result = .panic

@[simp] theorem starved_ok {α : Type} (value : α) : ¬Starved (.ok value : Decoded α) := by
  simp [Starved]

@[simp] theorem starved_panic {α : Type} : Starved (.panic : Decoded α) := .inr rfl

@[simp] theorem starved_err_iff {α : Type} (error : CodecError) :
    Starved (.err error : Decoded α) ↔ error = .incomplete := by
  simp [Starved]

theorem starved_bind_iff {α β : Type} (first : Decoded α) (next : α → Decoded β) :
    Starved (first >>= next) ↔ Starved first ∨ ∃ value, first = .ok value ∧ Starved (next value) := by
  cases first <;> simp

-- A reader together with the slices it cannot read for want of bytes.
structure Field (α : Type) where
  read : Bytes → Decoded (α × Bytes)
  Overruns : Bytes → Prop
  starved_iff : ∀ buf, Starved (read buf) ↔ Overruns buf

def Field.Breaks {α : Type} (field : Field α) (next : α → Bytes → Prop) (buf : Bytes) : Prop :=
  field.Overruns buf ∨ ∃ value rest, field.read buf = .ok (value, rest) ∧ next value rest

theorem breaks_iff {α β : Type} (field : Field α) (next : α → Bytes → Prop) (read : α × Bytes → Decoded β)
    (after : ∀ value rest, Starved (read (value, rest)) ↔ next value rest) (buf : Bytes) :
    Starved (field.read buf >>= read) ↔ field.Breaks next buf := by
  rw [starved_bind_iff, field.starved_iff, Field.Breaks]
  refine or_congr_right ⟨?_, ?_⟩
  · intro ⟨⟨value, rest⟩, completed, starved⟩
    exact ⟨value, rest, completed, (after value rest).mp starved⟩
  · intro ⟨value, rest, completed, broken⟩
    exact ⟨(value, rest), completed, (after value rest).mpr broken⟩

theorem starved_last_iff {α β : Type} (field : Field α) (finish : α × Bytes → β) (buf : Bytes) :
    Starved (field.read buf >>= fun result => pure (finish result)) ↔ field.Overruns buf := by
  rw [starved_bind_iff, field.starved_iff]
  simp

def u8Field : Field UInt8 where
  read := readU8
  Overruns buf := buf = []
  starved_iff buf := by cases buf <;> simp

def u16Field : Field UInt16 where
  read := readU16
  Overruns buf := buf.length < 2
  starved_iff buf := by
    rcases two_bytes buf with short | ⟨b0, b1, tail, rfl⟩
    · simp [read_u16_short buf short, short]
    · simp

def u32Field : Field UInt32 where
  read := readU32
  Overruns buf := buf.length < 4
  starved_iff buf := by
    rcases four_bytes buf with short | ⟨b0, b1, b2, b3, tail, rfl⟩
    · simp [read_u32_short buf short, short]
    · simp

-- A two-byte length that is cut itself, or claims more than what follows it.
def LengthOverruns (buf : Bytes) : Prop :=
  buf.length < 2 ∨ ∃ len rest, buf = writeU16 len ++ rest ∧ rest.length < len.toNat

theorem length_overruns_cons (b0 b1 : UInt8) (tail : Bytes) :
    LengthOverruns (b0 :: b1 :: tail) ↔ tail.length < (u16FromBeBytes b0 b1).toNat := by
  constructor
  · intro overruns
    rcases overruns with short | ⟨len, rest, bytes, overruns⟩
    · simp only [List.length_cons] at short
      omega
    · have read := (read_u16_ok_iff _ len rest).mpr bytes
      rw [read_u16_cons] at read
      cases read
      exact overruns
  · intro overruns
    exact .inr ⟨_, tail, (read_u16_ok_iff _ _ _).mp (read_u16_cons b0 b1 tail), overruns⟩

def bytesField : Field Bytes where
  read := readBytes
  Overruns := LengthOverruns
  starved_iff buf := by
    rcases two_bytes buf with short | ⟨b0, b1, tail, rfl⟩
    · simp [read_bytes_short buf short, LengthOverruns, short]
    · rw [read_bytes_cons, length_overruns_cons]
      split <;> simp_all

def strField : Field String where
  read := readStr
  Overruns := LengthOverruns
  starved_iff buf := by
    rcases two_bytes buf with short | ⟨b0, b1, tail, rfl⟩
    · simp [read_str_short buf short, LengthOverruns, short]
    · rw [read_str_cons, length_overruns_cons]
      split
      · simp_all
      · split <;> simp_all

def VarintOverruns (buf : Bytes) : Prop := buf.length < 4 ∧ ∀ byte ∈ buf, 128 ≤ byte.toNat

theorem varint_starved_iff (buf : Bytes) : Starved (decodeVarint buf) ↔ VarintOverruns buf := by
  rw [Starved, or_iff_left (decode_varint_no_panic buf), decode_varint_incomplete_iff, VarintOverruns]
  simp only [continues_iff]

-- decode_varint and the advance of the slice behind it.
def varintField : Field UInt32 where
  read buf := decodeVarint buf >>= fun (val, read) => sliceFrom read buf >>= fun rest => pure (val, rest)
  Overruns := VarintOverruns
  starved_iff buf := by
    rw [starved_bind_iff, varint_starved_iff]
    refine or_iff_left ?_
    intro ⟨⟨val, read⟩, decoded, starved⟩
    dsimp only at starved
    rw [slice_from_within _ _ (decode_varint_ok _ _ _ decoded).2.2.1, ok_bind] at starved
    exact starved_ok _ starved

def optionalField {α : Type} (present : Bool) (field : Field α) : Field (Option α) where
  read := readOptional present field.read
  Overruns buf := present = true ∧ field.Overruns buf
  starved_iff buf := by
    cases present with
    | false => simp [readOptional]
    | true =>
        simp only [true_and]
        exact starved_last_iff field (fun result => (some result.1, result.2)) buf

section Properties

variable {P : Type} (table : PropertyTable P)

def PropertyValue.Overruns : PropertyValue P → Bytes → Prop
  | .u8 _ => u8Field.Overruns
  | .u16 _ => u16Field.Overruns
  | .u32 _ => u32Field.Overruns
  | .str _ => strField.Overruns
  | .bytes _ => bytesField.Overruns
  | .varint _ => varintField.Overruns
  | .userProperty _ _ => strField.Breaks fun _ => strField.Overruns

theorem read_property_starved_iff (value : PropertyValue P) (props : P) (propSlice : Bytes) :
    Starved (readProperty value props propSlice) ↔ value.Overruns propSlice := by
  cases value with
  | u8 store => exact starved_last_iff u8Field (fun result => (store props (some result.1), result.2)) propSlice
  | u16 store => exact starved_last_iff u16Field (fun result => (store props (some result.1), result.2)) propSlice
  | u32 store => exact starved_last_iff u32Field (fun result => (store props (some result.1), result.2)) propSlice
  | str store => exact starved_last_iff strField (fun result => (store props (some result.1), result.2)) propSlice
  | bytes store => exact starved_last_iff bytesField (fun result => (store props (some result.1), result.2)) propSlice
  | varint store =>
      refine Iff.trans ?_ (starved_last_iff varintField (fun result => (store props (some result.1), result.2)) propSlice)
      simp only [varintField, readProperty, bind_assoc, pure_eq, ok_bind]
  | userProperty push current =>
      exact breaks_iff strField _ _ (fun key rest =>
        starved_last_iff strField (fun result => (push props (current props ++ [(key, result.1)]), result.2)) rest) _

inductive ItemsOverrun : P → Bytes → Prop
  | here (props : P) (propId : UInt8) (value : PropertyValue P) (rest : Bytes) (known : table propId = some value)
      (cut : value.Overruns rest) : ItemsOverrun props (propId :: rest)
  | later (props next : P) (propSlice rest : Bytes) (item : readItem table props propSlice = .ok (next, rest))
      (cut : ItemsOverrun next rest) : ItemsOverrun props propSlice

theorem read_item_starved_iff (props : P) (propId : UInt8) (rest : Bytes) :
    Starved (readItem table props (propId :: rest)) ↔ ∃ value, table propId = some value ∧ value.Overruns rest := by
  cases found : table propId with
  | none => simp [read_item_unknown table props propId rest found]
  | some value => simp [read_item_known table props propId value rest found, read_property_starved_iff]

theorem property_loop_starved_iff (props : P) (propSlice : Bytes) :
    Starved (propertyLoop table props propSlice) ↔ ItemsOverrun table props propSlice := by
  cases propSlice with
  | nil =>
      rw [property_loop_nil]
      refine iff_of_false (starved_ok _) (fun overruns => ?_)
      cases overruns with
      | later _ next _ rest item cut => simp [readItem] at item
  | cons propId tail =>
      rw [property_loop_cons, starved_bind_iff, read_item_starved_iff]
      constructor
      · intro starved
        rcases starved with ⟨value, known, cut⟩ | ⟨⟨next, rest⟩, item, starved⟩
        · exact .here props propId value tail known cut
        · have shorter := read_item_length table props next _ rest item
          exact .later props next _ rest item ((property_loop_starved_iff next rest).mp starved)
      · intro overruns
        cases overruns with
        | here _ _ value _ known cut => exact .inl ⟨value, known, cut⟩
        | later _ next _ rest item cut =>
            have shorter := read_item_length table props next _ rest item
            exact .inr ⟨(next, rest), item, (property_loop_starved_iff next rest).mpr cut⟩
termination_by propSlice.length
decreasing_by
  all_goals exact shorter

def PropertiesOverrun (empty : P) (buf : Bytes) : Prop :=
  buf ≠ [] ∧ (VarintOverruns buf ∨ ∃ propLen read, decodeVarint buf = .ok (propLen, read) ∧
    ((buf.drop read).length < propLen.toNat ∨
      propLen.toNat ≤ (buf.drop read).length ∧ ItemsOverrun table empty ((buf.drop read).take propLen.toNat)))

theorem decode_properties_starved_iff (empty : P) (buf : Bytes) :
    Starved (decodeProperties table empty buf) ↔ PropertiesOverrun table empty buf := by
  unfold decodeProperties PropertiesOverrun
  cases buf with
  | nil => simp
  | cons byte tail =>
      simp only [List.isEmpty_cons, Bool.false_eq_true, if_false, ne_eq, reduceCtorEq, not_false_eq_true, true_and]
      rw [starved_bind_iff, varint_starved_iff, Prod.exists]
      refine or_congr_right (exists_congr fun propLen => exists_congr fun read => and_congr_right fun decoded => ?_)
      simp only [slice_from_within _ _ (decode_varint_ok _ _ _ decoded).2.2.1, ok_bind]
      by_cases short : ((byte :: tail).drop read).length < propLen.toNat
      · rw [if_pos short, starved_err_iff]
        exact iff_of_true rfl (.inl short)
      · have whole := Nat.not_lt.mp short
        rw [if_neg short, slice_to_within _ _ whole, slice_from_within _ _ whole, ok_bind, ok_bind, starved_bind_iff,
          property_loop_starved_iff, or_iff_left (by simp)]
        exact ⟨fun overruns => .inr ⟨whole, overruns⟩, fun overruns => (overruns.resolve_left short).2⟩

def propertiesField (empty : P) : Field P where
  read := decodeProperties table empty
  Overruns := PropertiesOverrun table empty
  starved_iff := decode_properties_starved_iff table empty

end Properties

theorem starved_skip_iff {β : Type} (next : Bytes → Prop) (read : Bytes → Decoded β)
    (after : ∀ rest, Starved (read rest) ↔ next rest) (buf : Bytes) :
    Starved (readU16 buf >>= fun (len, rest) => sliceFrom len.toNat rest >>= read) ↔
      bytesField.Breaks (fun _ => next) buf := by
  rcases two_bytes buf with short | ⟨b0, b1, tail, rfl⟩
  · simp [read_u16_short buf short, Field.Breaks, bytesField, LengthOverruns, short]
  · rw [read_u16_cons, ok_bind, Field.Breaks]
    simp only [bytesField, length_overruns_cons, read_bytes_cons]
    by_cases short : tail.length < (u16FromBeBytes b0 b1).toNat
    · rw [(slice_from_panic_iff _ _).mpr short, panic_bind]
      exact iff_of_true starved_panic (.inl short)
    · rw [slice_from_within _ _ (Nat.not_lt.mp short), ok_bind, if_neg short, after]
      constructor
      · exact fun broken => .inr ⟨_, _, rfl, broken⟩
      · intro broken
        obtain ⟨data, rest, read, broken⟩ := broken.resolve_left short
        cases read
        exact broken

def WillSectionOverruns (willSection : Bytes) : Prop :=
  VarintOverruns willSection ∨ ∃ willPropsLen read, decodeVarint willSection = .ok (willPropsLen, read) ∧
    (willSection.length < read + willPropsLen.toNat ∨
      bytesField.Breaks (fun _ => LengthOverruns) (willSection.drop (read + willPropsLen.toNat)))

theorem skip_will_starved_iff (willSection : Bytes) :
    Starved (skipWill willSection) ↔ WillSectionOverruns willSection := by
  unfold skipWill WillSectionOverruns
  rw [starved_bind_iff, varint_starved_iff, Prod.exists]
  refine or_congr_right (exists_congr fun propsLen => exists_congr fun read => and_congr_right fun decoded => ?_)
  have bounds := decode_varint_ok _ _ _ decoded
  have payload : ∀ rest, Starved (readU16 rest >>= fun (len, rest) => sliceFrom len.toNat rest) ↔
      LengthOverruns rest := by
    intro rest
    have skipped := starved_skip_iff (fun _ => False) (fun rest => (.ok rest : Decoded Bytes)) (by simp) rest
    simpa [Field.Breaks, bytesField] using skipped
  simp only [add_word_fits 64 read propsLen.toNat (by omega), ok_bind]
  by_cases short : willSection.length < read + propsLen.toNat
  · rw [(slice_from_panic_iff _ _).mpr short, panic_bind]
    exact iff_of_true starved_panic (.inl short)
  · rw [slice_from_within _ _ (Nat.not_lt.mp short), ok_bind, or_iff_right short]
    exact starved_skip_iff _ _ payload _

def ConnectTailOverruns (connectFlags : UInt8) (payload : Bytes) : Prop :=
  connectFlags &&& 0x04 ≠ 0 ∧ WillSectionOverruns payload ∨
    ∃ rest, readWill (connectFlags &&& 0x04 != 0) payload = .ok rest ∧
      (optionalField (connectFlags &&& 0x80 != 0) strField).Breaks
        (fun _ => (optionalField (connectFlags &&& 0x40 != 0) bytesField).Overruns) rest

theorem decode_connect_tail_starved_iff (connectFlags : UInt8) (keepAlive : UInt16) (properties : ConnectProperties)
    (clientId : String) (payload : Bytes) :
    Starved (decodeConnectTail connectFlags keepAlive properties clientId payload) ↔
      ConnectTailOverruns connectFlags payload := by
  unfold decodeConnectTail ConnectTailOverruns
  rw [starved_bind_iff]
  refine or_congr ?_ (exists_congr fun rest => and_congr_right fun _ => ?_)
  · unfold readWill
    by_cases noWill : connectFlags &&& 0x04 = 0
    · simp [noWill]
    · simp [noWill, skip_will_starved_iff]
  · exact breaks_iff (optionalField _ strField) _ _ (fun username rest =>
      starved_last_iff (optionalField _ bytesField) (fun password => _) rest) rest

-- Every field is read in turn; a field that decides the packet's fate lets the
-- others be read only if it has the value the decoder asks for.
def ConnectOverruns (flags : UInt8) (payload : Bytes) : Prop :=
  flags = 0 ∧ strField.Breaks (fun protocolName payload => protocolName = "MQTT" ∧
    u8Field.Breaks (fun protocolLevel payload => protocolLevel = 5 ∧
      u8Field.Breaks (fun connectFlags => u16Field.Breaks fun _ =>
        (propertiesField ConnectProperties.table {}).Breaks fun _ => strField.Breaks fun _ =>
          ConnectTailOverruns connectFlags) payload) payload) payload

theorem starved_guard_iff {α : Type} (good : Prop) [Decidable (¬good)] (error : CodecError) (read : Decoded α)
    (broken : Prop) (other : error ≠ .incomplete) (after : Starved read ↔ broken) :
    Starved (if ¬good then .err error else read) ↔ good ∧ broken := by
  by_cases holds : good
  · simp [holds, after]
  · simp [holds, other]

theorem decode_connect_starved_iff (flags : UInt8) (payload : Bytes) :
    Starved (decodeConnect flags payload) ↔ ConnectOverruns flags payload := by
  refine starved_guard_iff _ _ _ _ (by simp) (breaks_iff strField _ _ ?_ _)
  intro protocolName payload
  refine starved_guard_iff _ _ _ _ (by simp) (breaks_iff u8Field _ _ ?_ _)
  intro protocolLevel payload
  refine starved_guard_iff _ _ _ _ (by simp) (breaks_iff u8Field _ _ ?_ _)
  intro connectFlags payload
  refine breaks_iff u16Field _ _ ?_ _
  intro keepAlive payload
  refine breaks_iff (propertiesField ConnectProperties.table {}) _ _ ?_ _
  intro properties payload
  refine breaks_iff strField _ _ ?_ _
  intro clientId payload
  exact decode_connect_tail_starved_iff connectFlags keepAlive properties clientId payload

def ConnAckOverruns : Bytes → Prop :=
  u8Field.Breaks fun _ => u8Field.Breaks fun _ => (propertiesField ConnAckProperties.table {}).Overruns

theorem decode_conn_ack_starved_iff (payload : Bytes) : Starved (decodeConnAck payload) ↔ ConnAckOverruns payload := by
  refine breaks_iff u8Field _ _ ?_ _
  intro connackFlags payload
  refine breaks_iff u8Field _ _ ?_ _
  intro reasonCode payload
  exact starved_last_iff (propertiesField ConnAckProperties.table {}) 
    (fun result => Packet.connAck ⟨connackFlags &&& 0x01 != 0, reasonCode, result.1⟩) payload

def PublishOverruns (flags : UInt8) (payload : Bytes) : Prop :=
  let qos := (flags &&& 0x06) >>> 1
  ¬2 < qos ∧ strField.Breaks (fun _ => (optionalField (decide (0 < qos)) u16Field).Breaks fun _ =>
    (propertiesField PublishProperties.table {}).Overruns) payload

theorem decode_publish_starved_iff (flags : UInt8) (payload : Bytes) :
    Starved (decodePublish flags payload) ↔ PublishOverruns flags payload := by
  unfold decodePublish PublishOverruns
  dsimp only
  by_cases invalid : (2 : UInt8) < (flags &&& 0x06) >>> 1
  · simp [invalid]
  · rw [if_neg invalid, and_iff_right invalid]
    refine breaks_iff strField _ _ ?_ _
    intro topic payload
    refine breaks_iff (optionalField _ u16Field) _ _ ?_ _
    intro packetId payload
    exact starved_last_iff (propertiesField PublishProperties.table {}) (fun result =>
      Packet.publish ⟨flags &&& 0x08 != 0, (flags &&& 0x06) >>> 1, flags &&& 0x01 != 0, topic, packetId, result.1,
        result.2⟩) payload

-- The short forms of PUBACK and DISCONNECT end in front of the reason code or of
-- the property block; only a block that is there can be cut.
def ReasonOverruns {P : Type} (field : Field P) (payload : Bytes) : Prop :=
  ∃ reasonCode rest, payload = reasonCode :: rest ∧ rest ≠ [] ∧ field.Overruns rest

theorem read_reason_starved_iff {P : Type} (empty : P) (field : Field P) (payload : Bytes) :
    Starved (readReason empty field.read payload) ↔ ReasonOverruns field payload := by
  unfold ReasonOverruns
  cases payload with
  | nil => simp [readReason]
  | cons reasonCode rest =>
      cases rest with
      | nil => simp [readReason]
      | cons byte tail =>
          have last := starved_last_iff field (fun result => (reasonCode, result.1)) (byte :: tail)
          simpa [readReason] using last

def PubAckOverruns : Bytes → Prop :=
  u16Field.Breaks fun _ => ReasonOverruns (propertiesField PubAckProperties.table {})

theorem decode_pub_ack_starved_iff (payload : Bytes) : Starved (decodePubAck payload) ↔ PubAckOverruns payload := by
  refine breaks_iff u16Field _ _ ?_ _
  intro packetId payload
  rw [← read_reason_starved_iff {}, starved_bind_iff]
  exact or_iff_left (by simp)

def subscriptionField : Field Subscription where
  read := readSubscription
  Overruns := strField.Breaks fun _ => u8Field.Overruns
  starved_iff buf := breaks_iff strField _ _ (fun filter rest =>
    starved_last_iff u8Field (fun options => (Subscription.mk filter options.1, options.2)) rest) buf

inductive SubscriptionsOverrun : Bytes → Prop
  | here (payload : Bytes) (nonempty : payload ≠ []) (cut : subscriptionField.Overruns payload) :
      SubscriptionsOverrun payload
  | later (payload rest : Bytes) (sub : Subscription) (whole : readSubscription payload = .ok (sub, rest))
      (cut : SubscriptionsOverrun rest) : SubscriptionsOverrun payload

theorem read_subscription_starved_iff (payload : Bytes) :
    Starved (readSubscription payload) ↔ subscriptionField.Overruns payload :=
  subscriptionField.starved_iff payload

theorem subscription_loop_starved_iff (done : List Subscription) (payload : Bytes) :
    Starved (subscriptionLoop done payload) ↔ SubscriptionsOverrun payload := by
  cases payload with
  | nil =>
      rw [subscription_loop_nil]
      refine iff_of_false (starved_ok _) (fun overruns => ?_)
      cases overruns with
      | here _ nonempty cut => exact nonempty rfl
      | later _ rest sub whole cut => simp [readSubscription, read_str_short] at whole
  | cons byte tail =>
      rw [subscription_loop_cons, starved_bind_iff, read_subscription_starved_iff]
      constructor
      · intro starved
        rcases starved with cut | ⟨⟨sub, rest⟩, whole, starved⟩
        · exact .here _ (by simp) cut
        · have shorter := read_subscription_length _ rest sub whole
          exact .later _ rest sub whole ((subscription_loop_starved_iff _ rest).mp starved)
      · intro overruns
        cases overruns with
        | here _ nonempty cut => exact .inl cut
        | later _ rest sub whole cut =>
            have shorter := read_subscription_length _ rest sub whole
            exact .inr ⟨(sub, rest), whole, (subscription_loop_starved_iff _ rest).mpr cut⟩
termination_by payload.length
decreasing_by
  all_goals exact shorter

def SubscribeOverruns (flags : UInt8) (payload : Bytes) : Prop :=
  flags = 0x02 ∧ u16Field.Breaks (fun _ =>
    (propertiesField SubscribeProperties.table {}).Breaks fun _ => SubscriptionsOverrun) payload

theorem decode_subscribe_starved_iff (flags : UInt8) (payload : Bytes) :
    Starved (decodeSubscribe flags payload) ↔ SubscribeOverruns flags payload := by
  refine starved_guard_iff _ _ _ _ (by simp) (breaks_iff u16Field _ _ ?_ _)
  intro packetId payload
  refine breaks_iff (propertiesField SubscribeProperties.table {}) _ _ ?_ _
  intro properties payload
  rw [starved_bind_iff, subscription_loop_starved_iff]
  refine or_iff_left ?_
  intro ⟨subscriptions, _, starved⟩
  split at starved <;> simp at starved

def SubAckOverruns : Bytes → Prop :=
  u16Field.Breaks fun _ => (propertiesField SubAckProperties.table {}).Overruns

theorem decode_sub_ack_starved_iff (payload : Bytes) : Starved (decodeSubAck payload) ↔ SubAckOverruns payload := by
  refine breaks_iff u16Field _ _ ?_ _
  intro packetId payload
  refine Iff.trans ?_ (starved_last_iff (propertiesField SubAckProperties.table {}) (fun result => result) payload)
  rw [starved_bind_iff, starved_bind_iff]
  refine or_congr_right (exists_congr fun result => and_congr_right fun _ => ?_)
  simp [reason_code_loop_all]

theorem decode_ping_starved (packet : Packet) (flags : UInt8) (payload : Bytes) :
    ¬Starved (decodePing packet flags payload) := by
  unfold decodePing
  split <;> simp

theorem decode_disconnect_starved_iff (payload : Bytes) :
    Starved (decodeDisconnect payload) ↔ ReasonOverruns (propertiesField DisconnectProperties.table {}) payload := by
  rw [← read_reason_starved_iff {}, decodeDisconnect, starved_bind_iff]
  exact or_iff_left (by simp)

def FieldOverruns (packetType flags : UInt8) (payload : Bytes) : Prop :=
  match packetType with
  | 1 => ConnectOverruns flags payload
  | 2 => ConnAckOverruns payload
  | 3 => PublishOverruns flags payload
  | 4 => PubAckOverruns payload
  | 8 => SubscribeOverruns flags payload
  | 9 => SubAckOverruns payload
  | 14 => ReasonOverruns (propertiesField DisconnectProperties.table {}) payload
  | _ => False

theorem decode_payload_starved_iff (packetType flags : UInt8) (payload : Bytes) :
    Starved (decodePayload packetType flags payload) ↔ FieldOverruns packetType flags payload := by
  unfold decodePayload
  split
  · exact decode_connect_starved_iff flags payload
  · exact decode_conn_ack_starved_iff payload
  · exact decode_publish_starved_iff flags payload
  · exact decode_pub_ack_starved_iff payload
  · exact decode_subscribe_starved_iff flags payload
  · exact decode_sub_ack_starved_iff payload
  · exact iff_of_false (decode_ping_starved _ flags payload) (fun overruns => overruns)
  · exact iff_of_false (decode_ping_starved _ flags payload) (fun overruns => overruns)
  · exact decode_disconnect_starved_iff payload
  · unfold FieldOverruns
    split <;> simp_all

theorem decode_frame_starved_iff (buf : Bytes) (header : UInt8) (remainingLen : UInt32) (read : Nat) (body : Bytes)
    (headed : HeaderAt buf header remainingLen read body) (whole : remainingLen.toNat ≤ body.length) :
    Starved (decodePacket buf) ↔
      FieldOverruns (header >>> 4) (header &&& 0x0F) (body.take remainingLen.toNat) := by
  rw [decode_packet_frame buf header remainingLen read body headed whole, starved_bind_iff, decode_payload_starved_iff]
  exact or_iff_left (by simp)

theorem answered_iff {α : Type} (result : Decoded α) :
    ((∃ value, result = .ok value) ∨ ∃ error, error ≠ .incomplete ∧ result = .err error) ↔ ¬Starved result := by
  cases result with
  | ok value => simp
  | err error => simp
  | panic => simp

end Pipistrelle.Codec
