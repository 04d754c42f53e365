import Mathlib.Data.List.Induction
import Pipistrelle.Codec.Loops

set_option autoImplicit false

/- What a property block is, without its decoder: a sequence of items, each an
   identifier and a complete value of the type that the table has for it. -/
namespace Pipistrelle.Codec

open Outcome

-- A varint comes with its bytes, which need not be the shortest.
inductive ItemValue where
  | u8 (val : UInt8)
  | u16 (val : UInt16)
  | u32 (val : UInt32)
  | str (s : String)
  | bytes (data : Bytes)
  | varint (val : UInt32) (encoded : Bytes)
  | userProperty (key val : String)
deriving DecidableEq, Repr

structure Item where
  propId : UInt8
  value : ItemValue
deriving DecidableEq, Repr

def ItemValue.encoded : ItemValue → Bytes
  | .u8 val => [val]
  | .u16 val => writeU16 val
  | .u32 val => writeU32 val
  | .str s => writeStr s
  | .bytes data => writeBytes data
  | .varint _ encoded => encoded
  | .userProperty key val => writeStr key ++ writeStr val

def Item.encoded (self : Item) : Bytes := self.propId :: self.value.encoded

def ItemValue.Complete : ItemValue → Prop
  | .u8 _ | .u16 _ | .u32 _ => True
  | .str s => (strBytes s).length ≤ 65535
  | .bytes data => data.length ≤ 65535
  | .varint val encoded => decodeVarint encoded = .ok (val, encoded.length)
  | .userProperty key val => (strBytes key).length ≤ 65535 ∧ (strBytes val).length ≤ 65535

section Table

variable {P : Type}

-- A value of another type is no value for the field.
def PropertyValue.put (props : P) : PropertyValue P → ItemValue → Option P
  | .u8 store, .u8 val => some (store props (some val))
  | .u16 store, .u16 val => some (store props (some val))
  | .u32 store, .u32 val => some (store props (some val))
  | .str store, .str s => some (store props (some s))
  | .bytes store, .bytes data => some (store props (some data))
  | .varint store, .varint val _ => some (store props (some val))
  | .userProperty push current, .userProperty key val => some (push props (current props ++ [(key, val)]))
  | _, _ => none

def Item.apply (table : PropertyTable P) (props : P) (item : Item) : Option P :=
  (table item.propId).bind fun kind => kind.put props item.value

end Table

theorem decode_varint_ok_iff (buf : Bytes) (val : UInt32) (rest : Bytes) :
    (∃ read, decodeVarint buf = .ok (val, read) ∧ rest = buf.drop read) ↔
      ∃ encoded, decodeVarint encoded = .ok (val, encoded.length) ∧ buf = encoded ++ rest := by
  constructor
  · intro ⟨read, decoded, left⟩
    refine ⟨buf.take read, decode_varint_take buf val read decoded, ?_⟩
    rw [left, List.take_append_drop]
  · intro ⟨encoded, decoded, bytes⟩
    refine ⟨encoded.length, ?_, by rw [bytes, List.drop_left]⟩
    rw [bytes, decode_varint_append encoded rest (by simp [decoded]), decoded]

section Exact

variable {P : Type} (table : PropertyTable P)

omit table in
theorem read_store_iff {α : Type} (read : Bytes → Decoded (α × Bytes)) (write : α → Bytes) (Fits : α → Prop)
    (exactly : ∀ buf val rest, read buf = .ok (val, rest) ↔ Fits val ∧ buf = write val ++ rest) (store : α → P)
    (propSlice rest : Bytes) (next : P) :
    (read propSlice >>= fun (val, propSlice) => pure (store val, propSlice)) = .ok (next, rest) ↔
      ∃ val, Fits val ∧ propSlice = write val ++ rest ∧ store val = next := by
  rw [bind_ok_iff]
  constructor
  · intro ⟨⟨val, tail⟩, completed, eq⟩
    cases eq
    obtain ⟨fits, bytes⟩ := (exactly _ _ _).mp completed
    exact ⟨val, fits, bytes, rfl⟩
  · intro ⟨val, fits, bytes, stored⟩
    exact ⟨(val, rest), (exactly _ _ _).mpr ⟨fits, bytes⟩, by rw [← stored]; rfl⟩

theorem read_property_iff (kind : PropertyValue P) (props next : P) (propSlice rest : Bytes) :
    readProperty kind props propSlice = .ok (next, rest) ↔
      ∃ value : ItemValue, value.Complete ∧ propSlice = value.encoded ++ rest ∧ kind.put props value = some next := by
  cases kind with
  | u8 store =>
      refine (read_store_iff readU8 ([·]) (fun _ => True) (fun buf val rest => by simp [read_u8_ok_iff])
        (fun val => store props (some val)) propSlice rest next).trans ⟨?_, ?_⟩
      · exact fun ⟨val, fits, bytes, stored⟩ => ⟨.u8 val, fits, bytes, congrArg some stored⟩
      · rintro ⟨value, complete, bytes, put⟩
        cases value <;> cases put
        exact ⟨_, complete, bytes, rfl⟩
  | u16 store =>
      refine (read_store_iff readU16 writeU16 (fun _ => True) (fun buf val rest => by simp [read_u16_ok_iff])
        (fun val => store props (some val)) propSlice rest next).trans ⟨?_, ?_⟩
      · exact fun ⟨val, fits, bytes, stored⟩ => ⟨.u16 val, fits, bytes, congrArg some stored⟩
      · rintro ⟨value, complete, bytes, put⟩
        cases value <;> cases put
        exact ⟨_, complete, bytes, rfl⟩
  | u32 store =>
      refine (read_store_iff readU32 writeU32 (fun _ => True) (fun buf val rest => by simp [read_u32_ok_iff])
        (fun val => store props (some val)) propSlice rest next).trans ⟨?_, ?_⟩
      · exact fun ⟨val, fits, bytes, stored⟩ => ⟨.u32 val, fits, bytes, congrArg some stored⟩
      · rintro ⟨value, complete, bytes, put⟩
        cases value <;> cases put
        exact ⟨_, complete, bytes, rfl⟩
  | str store =>
      refine (read_store_iff readStr writeStr (fun s => (strBytes s).length ≤ 65535) read_str_ok_iff
        (fun s => store props (some s)) propSlice rest next).trans ⟨?_, ?_⟩
      · exact fun ⟨s, fits, bytes, stored⟩ => ⟨.str s, fits, bytes, congrArg some stored⟩
      · rintro ⟨value, complete, bytes, put⟩
        cases value <;> cases put
        exact ⟨_, complete, bytes, rfl⟩
  | bytes store =>
      refine (read_store_iff readBytes writeBytes (fun data => data.length ≤ 65535) read_bytes_ok_iff
        (fun data => store props (some data)) propSlice rest next).trans ⟨?_, ?_⟩
      · exact fun ⟨data, fits, bytes, stored⟩ => ⟨.bytes data, fits, bytes, congrArg some stored⟩
      · rintro ⟨value, complete, bytes, put⟩
        cases value <;> cases put
        exact ⟨_, complete, bytes, rfl⟩
  | varint store =>
      constructor
      · intro completed
        obtain ⟨⟨val, read⟩, decoded, completed⟩ := (bind_ok_iff _ _ _).mp completed
        simp only [slice_from_within _ _ (decode_varint_ok _ _ _ decoded).2.2.1, ok_bind, pure_eq] at completed
        cases completed
        obtain ⟨encoded, alone, bytes⟩ := (decode_varint_ok_iff _ _ _).mp ⟨read, decoded, rfl⟩
        exact ⟨.varint val encoded, alone, bytes, rfl⟩
      · rintro ⟨value, complete, bytes, put⟩
        cases value <;> cases put
        obtain ⟨read, decoded, rfl⟩ := (decode_varint_ok_iff _ _ _).mpr ⟨_, complete, bytes⟩
        rw [readProperty, decoded, ok_bind]
        dsimp only
        rw [slice_from_within _ _ (decode_varint_ok _ _ _ decoded).2.2.1]
        rfl
  | userProperty push current =>
      constructor
      · intro completed
        obtain ⟨⟨key, afterKey⟩, readKey, completed⟩ := (bind_ok_iff _ _ _).mp completed
        obtain ⟨⟨val, afterVal⟩, readVal, eq⟩ := (bind_ok_iff _ _ _).mp completed
        cases eq
        obtain ⟨keyFits, rfl⟩ := (read_str_ok_iff _ _ _).mp readKey
        obtain ⟨valFits, rfl⟩ := (read_str_ok_iff _ _ _).mp readVal
        exact ⟨.userProperty key val, ⟨keyFits, valFits⟩, (List.append_assoc _ _ _).symm, rfl⟩
      · rintro ⟨value, complete, rfl, put⟩
        cases value <;> cases put
        rw [readProperty, ItemValue.encoded, List.append_assoc, read_write_str _ _ complete.1, ok_bind]
        dsimp only
        rw [read_write_str _ _ complete.2]
        rfl

theorem read_item_iff (props next : P) (propSlice rest : Bytes) :
    readItem table props propSlice = .ok (next, rest) ↔
      ∃ item : Item, item.value.Complete ∧ propSlice = item.encoded ++ rest ∧ item.apply table props = some next := by
  constructor
  · intro completed
    obtain ⟨⟨propId, tail⟩, read, completed⟩ := (bind_ok_iff _ _ _).mp completed
    rw [(read_u8_ok_iff _ _ _).mp read]
    cases found : table propId with
    | none => simp [found] at completed
    | some kind =>
        simp only [found] at completed
        obtain ⟨value, complete, rfl, put⟩ := (read_property_iff kind props next tail rest).mp completed
        exact ⟨⟨propId, value⟩, complete, rfl, by rw [Item.apply, found]; exact put⟩
  · rintro ⟨⟨propId, value⟩, complete, rfl, applied⟩
    obtain ⟨kind, found, put⟩ := Option.bind_eq_some_iff.mp applied
    rw [Item.encoded, List.cons_append, read_item_known table props propId kind _ found]
    exact (read_property_iff kind props next _ rest).mpr ⟨value, complete, rfl, put⟩

theorem property_loop_iff (props final : P) (propSlice : Bytes) :
    propertyLoop table props propSlice = .ok final ↔
      ∃ items : List Item, propSlice = items.flatMap Item.encoded ∧ (∀ item ∈ items, item.value.Complete) ∧
        items.foldlM (Item.apply table) props = some final := by
  constructor
  · intro completed
    cases propSlice with
    | nil =>
        rw [property_loop_nil] at completed
        cases completed
        exact ⟨[], rfl, by simp, rfl⟩
    | cons propId tail =>
        rw [property_loop_cons] at completed
        obtain ⟨⟨next, rest⟩, read, later⟩ := (bind_ok_iff _ _ _).mp completed
        have shorter := read_item_length table props next _ rest read
        obtain ⟨item, complete, bytes, applied⟩ := (read_item_iff table props next _ rest).mp read
        obtain ⟨items, restBytes, allComplete, folded⟩ := (property_loop_iff next final rest).mp later
        refine ⟨item :: items, ?_, List.forall_mem_cons.mpr ⟨complete, allComplete⟩, ?_⟩
        · rw [bytes, restBytes]
          rfl
        · rw [List.foldlM_cons, applied]
          exact folded
  · rintro ⟨items, rfl, allComplete, folded⟩
    induction items generalizing props with
    | nil =>
        rw [List.flatMap_nil, property_loop_nil]
        exact congrArg Outcome.ok (Option.some.inj folded)
    | cons item items ih =>
        obtain ⟨complete, allComplete⟩ := List.forall_mem_cons.mp allComplete
        rw [List.foldlM_cons] at folded
        obtain ⟨next, applied, folded⟩ := Option.bind_eq_some_iff.mp folded
        rw [List.flatMap_cons, property_loop_item table props next _ _
          ((read_item_iff table props next _ _).mpr ⟨item, complete, rfl, applied⟩)]
        exact ih next allComplete folded
termination_by propSlice.length
decreasing_by
  exact shorter

theorem decode_properties_block (empty : P) (header block rest : Bytes) (len : UInt32)
    (alone : decodeVarint header = .ok (len, header.length)) (length : block.length = len.toNat) :
    decodeProperties table empty (header ++ (block ++ rest)) =
      propertyLoop table empty block >>= fun props => pure (props, rest) := by
  obtain ⟨read, decoded, dropped⟩ := (decode_varint_ok_iff _ len (block ++ rest)).mpr ⟨header, alone, rfl⟩
  have someBytes : header ≠ [] := by
    rintro rfl
    simp [decodeVarint, varintLoop] at alone
  unfold decodeProperties
  rw [if_neg (by simp [someBytes]), decoded, ok_bind]
  dsimp only
  rw [slice_from_within _ _ (decode_varint_ok _ _ _ decoded).2.2.1, ok_bind, ← dropped, ← length,
    if_neg (by simp), slice_to_within _ _ (by simp), ok_bind, slice_from_within _ _ (by simp), ok_bind,
    List.take_left, List.drop_left]

theorem decode_properties_iff (empty props : P) (buf rest : Bytes) :
    decodeProperties table empty buf = .ok (props, rest) ↔
      (buf = [] ∧ props = empty ∧ rest = []) ∨
        ∃ (header : Bytes) (len : UInt32) (items : List Item), decodeVarint header = .ok (len, header.length) ∧
          buf = header ++ (items.flatMap Item.encoded ++ rest) ∧ (items.flatMap Item.encoded).length = len.toNat ∧
          (∀ item ∈ items, item.value.Complete) ∧ items.foldlM (Item.apply table) empty = some props := by
  constructor
  · intro completed
    unfold decodeProperties at completed
    by_cases nothing : buf = []
    · subst nothing
      cases completed
      exact Or.inl ⟨rfl, rfl, rfl⟩
    · rw [if_neg (by simpa using nothing)] at completed
      obtain ⟨⟨len, read⟩, decoded, completed⟩ := (bind_ok_iff _ _ _).mp completed
      simp only [slice_from_within _ _ (decode_varint_ok _ _ _ decoded).2.2.1, ok_bind] at completed
      obtain ⟨header, alone, bytes⟩ := (decode_varint_ok_iff _ _ _).mp ⟨read, decoded, rfl⟩
      split at completed
      · cases completed
      · next enough =>
          rw [slice_to_within _ _ (by omega), ok_bind, slice_from_within _ _ (by omega), ok_bind] at completed
          obtain ⟨_, looped, eq⟩ := (bind_ok_iff _ _ _).mp completed
          cases eq
          obtain ⟨items, block, complete, folded⟩ := (property_loop_iff table empty props _).mp looped
          refine Or.inr ⟨header, len, items, alone, ?_, ?_, complete, folded⟩
          · rw [← block, List.take_append_drop]
            exact bytes
          · rw [← block, List.length_take_of_le (by omega)]
  · rintro (⟨rfl, rfl, rfl⟩ | ⟨header, len, items, alone, rfl, length, complete, folded⟩)
    · rfl
    · rw [decode_properties_block table empty header _ rest len alone length,
        (property_loop_iff table empty props _).mpr ⟨items, rfl, complete, folded⟩]
      rfl

end Exact

def ItemValue.u8? : ItemValue → Option UInt8
  | .u8 val => some val
  | _ => none

def ItemValue.u16? : ItemValue → Option UInt16
  | .u16 val => some val
  | _ => none

def ItemValue.u32? : ItemValue → Option UInt32
  | .u32 val => some val
  | _ => none

def ItemValue.str? : ItemValue → Option String
  | .str s => some s
  | _ => none

def ItemValue.bytes? : ItemValue → Option Bytes
  | .bytes data => some data
  | _ => none

def ItemValue.varint? : ItemValue → Option UInt32
  | .varint val _ => some val
  | _ => none

def ItemValue.pair? : ItemValue → Option (String × String)
  | .userProperty key val => some (key, val)
  | _ => none

def lastOf {α : Type} (propId : UInt8) (pick : ItemValue → Option α) (items : List Item) : Option α :=
  (items.filter (·.propId == propId)).getLast?.bind (pick ·.value)

def pairsOf (items : List Item) : List (String × String) :=
  (items.filter (·.propId == 0x26)).filterMap (·.value.pair?)

@[simp] theorem last_of_append {α : Type} (propId : UInt8) (pick : ItemValue → Option α) (items : List Item)
    (item : Item) : lastOf propId pick (items ++ [item]) =
      if item.propId = propId then pick item.value else lastOf propId pick items := by
  by_cases same : item.propId = propId <;> simp [lastOf, List.filter_append, same]

@[simp] theorem pairs_of_append (items : List Item) (item : Item) : pairsOf (items ++ [item]) =
      if item.propId = 0x26 then pairsOf items ++ item.value.pair?.toList else pairsOf items := by
  by_cases same : item.propId = 0x26
  · cases pair : item.value.pair? <;> simp [pairsOf, List.filter_append, same, pair]
  · simp [pairsOf, List.filter_append, same]

theorem fold_of_items {P : Type} (table : PropertyTable P) (ofItems : List Item → P)
    (step : ∀ items item next, item.apply table (ofItems items) = some next → next = ofItems (items ++ [item]))
    (items : List Item) (props : P) (folded : items.foldlM (Item.apply table) (ofItems []) = some props) :
    props = ofItems items := by
  induction items using List.reverseRecOn generalizing props with
  | nil => exact (Option.some.inj folded).symm
  | append_singleton items item ih =>
      rw [List.foldlM_append] at folded
      obtain ⟨before, folded, applied⟩ := Option.bind_eq_some_iff.mp folded
      rw [ih before folded] at applied
      exact step items item props (by simpa using applied)

def ConnectProperties.ofItems (items : List Item) : ConnectProperties where
  sessionExpiryInterval := lastOf 0x11 ItemValue.u32? items
  receiveMaximum := lastOf 0x21 ItemValue.u16? items
  maxPacketSize := lastOf 0x27 ItemValue.u32? items
  topicAliasMaximum := lastOf 0x22 ItemValue.u16? items
  requestResponseInfo := lastOf 0x19 ItemValue.u8? items
  requestProblemInfo := lastOf 0x17 ItemValue.u8? items
  userProperties := pairsOf items
  authMethod := lastOf 0x15 ItemValue.str? items
  authData := lastOf 0x16 ItemValue.bytes? items

theorem ConnectProperties.apply_of_items (items : List Item) (item : Item) (next : ConnectProperties)
    (applied : item.apply ConnectProperties.table (ofItems items) = some next) :
    next = ofItems (items ++ [item]) := by
  obtain ⟨propId, value⟩ := item
  obtain ⟨kind, found, put⟩ := Option.bind_eq_some_iff.mp applied
  dsimp only at found put
  unfold ConnectProperties.table at found
  split at found <;> cases found <;> cases value <;> cases put <;>
    simp [ofItems, ItemValue.u32?, ItemValue.u16?, ItemValue.u8?, ItemValue.pair?, ItemValue.str?, ItemValue.bytes?]

def ConnAckProperties.ofItems (items : List Item) : ConnAckProperties where
  sessionExpiryInterval := lastOf 0x11 ItemValue.u32? items
  receiveMaximum := lastOf 0x21 ItemValue.u16? items
  maxQos := lastOf 0x24 ItemValue.u8? items
  retainAvailable := lastOf 0x25 ItemValue.u8? items
  maximumPacketSize := lastOf 0x27 ItemValue.u32? items
  assignedClientIdentifier := lastOf 0x12 ItemValue.str? items
  topicAliasMaximum := lastOf 0x22 ItemValue.u16? items
  reasonString := lastOf 0x1F ItemValue.str? items
  userProperties := pairsOf items
  wildcardSubscriptionAvailable := lastOf 0x28 ItemValue.u8? items
  subscriptionIdentifiersAvailable := lastOf 0x29 ItemValue.u8? items
  sharedSubscriptionAvailable := lastOf 0x2A ItemValue.u8? items
  serverKeepAlive := lastOf 0x13 ItemValue.u16? items
  responseInformation := lastOf 0x1A ItemValue.str? items
  serverReference := lastOf 0x1C ItemValue.str? items
  authenticationMethod := lastOf 0x15 ItemValue.str? items
  authenticationData := lastOf 0x16 ItemValue.bytes? items

theorem ConnAckProperties.apply_of_items (items : List Item) (item : Item) (next : ConnAckProperties)
    (applied : item.apply ConnAckProperties.table (ofItems items) = some next) :
    next = ofItems (items ++ [item]) := by
  obtain ⟨propId, value⟩ := item
  obtain ⟨kind, found, put⟩ := Option.bind_eq_some_iff.mp applied
  dsimp only at found put
  unfold ConnAckProperties.table at found
  split at found <;> cases found <;> cases value <;> cases put <;>
    simp [ofItems, ItemValue.u32?, ItemValue.u16?, ItemValue.u8?, ItemValue.str?, ItemValue.pair?, ItemValue.bytes?]

def PublishProperties.ofItems (items : List Item) : PublishProperties where
  payloadFormatIndicator := lastOf 0x01 ItemValue.u8? items
  messageExpiryInterval := lastOf 0x02 ItemValue.u32? items
  contentType := lastOf 0x03 ItemValue.str? items
  responseTopic := lastOf 0x08 ItemValue.str? items
  correlationData := lastOf 0x09 ItemValue.bytes? items
  subscriptionIdentifier := lastOf 0x0B ItemValue.varint? items
  topicAlias := lastOf 0x23 ItemValue.u16? items
  userProperties := pairsOf items

theorem PublishProperties.apply_of_items (items : List Item) (item : Item) (next : PublishProperties)
    (applied : item.apply PublishProperties.table (ofItems items) = some next) :
    next = ofItems (items ++ [item]) := by
  obtain ⟨propId, value⟩ := item
  obtain ⟨kind, found, put⟩ := Option.bind_eq_some_iff.mp applied
  dsimp only at found put
  unfold PublishProperties.table at found
  split at found <;> cases found <;> cases value <;> cases put <;>
    simp [ofItems, ItemValue.u8?, ItemValue.u32?, ItemValue.str?, ItemValue.bytes?, ItemValue.varint?, ItemValue.u16?, ItemValue.pair?]

def PubAckProperties.ofItems (items : List Item) : PubAckProperties where
  reasonString := lastOf 0x1F ItemValue.str? items
  userProperties := pairsOf items

theorem PubAckProperties.apply_of_items (items : List Item) (item : Item) (next : PubAckProperties)
    (applied : item.apply PubAckProperties.table (ofItems items) = some next) :
    next = ofItems (items ++ [item]) := by
  obtain ⟨propId, value⟩ := item
  obtain ⟨kind, found, put⟩ := Option.bind_eq_some_iff.mp applied
  dsimp only at found put
  unfold PubAckProperties.table at found
  split at found <;> cases found <;> cases value <;> cases put <;>
    simp [ofItems, ItemValue.str?, ItemValue.pair?]

def SubscribeProperties.ofItems (items : List Item) : SubscribeProperties where
  subscriptionIdentifier := lastOf 0x0B ItemValue.varint? items
  userProperties := pairsOf items

theorem SubscribeProperties.apply_of_items (items : List Item) (item : Item) (next : SubscribeProperties)
    (applied : item.apply SubscribeProperties.table (ofItems items) = some next) :
    next = ofItems (items ++ [item]) := by
  obtain ⟨propId, value⟩ := item
  obtain ⟨kind, found, put⟩ := Option.bind_eq_some_iff.mp applied
  dsimp only at found put
  unfold SubscribeProperties.table at found
  split at found <;> cases found <;> cases value <;> cases put <;>
    simp [ofItems, ItemValue.varint?, ItemValue.pair?]

def SubAckProperties.ofItems (items : List Item) : SubAckProperties where
  reasonString := lastOf 0x1F ItemValue.str? items
  userProperties := pairsOf items

theorem SubAckProperties.apply_of_items (items : List Item) (item : Item) (next : SubAckProperties)
    (applied : item.apply SubAckProperties.table (ofItems items) = some next) :
    next = ofItems (items ++ [item]) := by
  obtain ⟨propId, value⟩ := item
  obtain ⟨kind, found, put⟩ := Option.bind_eq_some_iff.mp applied
  dsimp only at found put
  unfold SubAckProperties.table at found
  split at found <;> cases found <;> cases value <;> cases put <;>
    simp [ofItems, ItemValue.str?, ItemValue.pair?]

def DisconnectProperties.ofItems (items : List Item) : DisconnectProperties where
  sessionExpiryInterval := lastOf 0x11 ItemValue.u32? items
  reasonString := lastOf 0x1F ItemValue.str? items
  userProperties := pairsOf items
  serverReference := lastOf 0x1C ItemValue.str? items

theorem DisconnectProperties.apply_of_items (items : List Item) (item : Item) (next : DisconnectProperties)
    (applied : item.apply DisconnectProperties.table (ofItems items) = some next) :
    next = ofItems (items ++ [item]) := by
  obtain ⟨propId, value⟩ := item
  obtain ⟨kind, found, put⟩ := Option.bind_eq_some_iff.mp applied
  dsimp only at found put
  unfold DisconnectProperties.table at found
  split at found <;> cases found <;> cases value <;> cases put <;>
    simp [ofItems, ItemValue.u32?, ItemValue.str?, ItemValue.pair?]

-- What r holds never completes an item: the block alone decides the outcome.
structure ParsesExactly {P : Type} (table : PropertyTable P) (empty : P) (decode : Bytes → Decoded (P × Bytes))
    (ofItems : List Item → P) : Prop where
  exactly : ∀ (buf rest : Bytes) (props : P), decode buf = .ok (props, rest) ↔
    (buf = [] ∧ props = empty ∧ rest = []) ∨
      ∃ (header : Bytes) (len : UInt32) (items : List Item), decodeVarint header = .ok (len, header.length) ∧
        buf = header ++ (items.flatMap Item.encoded ++ rest) ∧ (items.flatMap Item.encoded).length = len.toNat ∧
        (∀ item ∈ items, item.value.Complete) ∧ items.foldlM (Item.apply table) empty = some props ∧
        props = ofItems items
  isolated : ∀ (header block rest : Bytes) (len : UInt32), decodeVarint header = .ok (len, header.length) →
    block.length = len.toNat →
    decode (header ++ (block ++ rest)) = decode (header ++ block) >>= fun (props, _) => pure (props, rest)

theorem parses_exactly {P : Type} (table : PropertyTable P) (ofItems : List Item → P)
    (step : ∀ items item next, item.apply table (ofItems items) = some next → next = ofItems (items ++ [item])) :
    ParsesExactly table (ofItems []) (decodeProperties table (ofItems [])) ofItems where
  exactly buf rest props := by
    rw [decode_properties_iff]
    refine or_congr Iff.rfl ?_
    constructor
    · intro ⟨header, len, items, alone, bytes, length, complete, folded⟩
      exact ⟨header, len, items, alone, bytes, length, complete, folded, fold_of_items table ofItems step items props folded⟩
    · intro ⟨header, len, items, alone, bytes, length, complete, folded, _⟩
      exact ⟨header, len, items, alone, bytes, length, complete, folded⟩
  isolated header block rest len alone length := by
    rw [decode_properties_block table _ header block rest len alone length]
    have whole := decode_properties_block table (ofItems []) header block [] len alone length
    rw [List.append_nil] at whole
    rw [whole, Outcome.bind_assoc]
    rfl

theorem property_blocks_parsed_exactly :
    ParsesExactly ConnectProperties.table {} ConnectProperties.decode ConnectProperties.ofItems ∧
    ParsesExactly ConnAckProperties.table {} ConnAckProperties.decode ConnAckProperties.ofItems ∧
    ParsesExactly PublishProperties.table {} PublishProperties.decode PublishProperties.ofItems ∧
    ParsesExactly PubAckProperties.table {} PubAckProperties.decode PubAckProperties.ofItems ∧
    ParsesExactly SubscribeProperties.table {} SubscribeProperties.decode SubscribeProperties.ofItems ∧
    ParsesExactly SubAckProperties.table {} SubAckProperties.decode SubAckProperties.ofItems ∧
    ParsesExactly DisconnectProperties.table {} DisconnectProperties.decode DisconnectProperties.ofItems :=
  ⟨parses_exactly _ _ ConnectProperties.apply_of_items, parses_exactly _ _ ConnAckProperties.apply_of_items,
    parses_exactly _ _ PublishProperties.apply_of_items, parses_exactly _ _ PubAckProperties.apply_of_items,
    parses_exactly _ _ SubscribeProperties.apply_of_items, parses_exactly _ _ SubAckProperties.apply_of_items,
    parses_exactly _ _ DisconnectProperties.apply_of_items⟩

end Pipistrelle.Codec
