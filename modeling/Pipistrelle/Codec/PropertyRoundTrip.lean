import Pipistrelle.Codec.Loops

set_option autoImplicit false

/- Every property table reads back what its encoder wrote. The general part
   follows the encoder through one field after another; a table only names its
   fields. -/
namespace Pipistrelle.Codec

open Outcome

def StrFits (s : String) : Prop := (strBytes s).length ≤ 65535

def BytesFit (data : Bytes) : Prop := data.length ≤ 65535

def VarintFits (val : UInt32) : Prop := val.toNat < 2 ^ 28

def UserPropertiesFit (userProperties : List (String × String)) : Prop :=
  ∀ pair ∈ userProperties, StrFits pair.1 ∧ StrFits pair.2

instance (s : String) : Decidable (StrFits s) := inferInstanceAs (Decidable (_ ≤ _))

instance (userProperties : List (String × String)) : Decidable (UserPropertiesFit userProperties) :=
  inferInstanceAs (Decidable (∀ pair ∈ userProperties, _ ∧ _))

section Table

variable {P : Type} (table : PropertyTable P)

-- An absent field writes nothing, so the decoder must already hold none for it.
theorem loop_push_field {α : Type} (propId : UInt8) (write : α → Bytes) (store : P → Option α → P)
    (props : P) (field : Option α) (rest : Bytes)
    (reads : ∀ val, field = some val →
      readItem table props (propId :: (write val ++ rest)) = .ok (store props (some val), rest))
    (fresh : store props none = props) :
    propertyLoop table props (pushField propId write field ++ rest) = propertyLoop table (store props field) rest := by
  cases field with
  | none => rw [fresh]; rfl
  | some val => exact property_loop_item table props _ _ rest (reads val rfl)

variable {table}

theorem loop_push_u8 {propId : UInt8} {store : P → Option UInt8 → P} (found : table propId = some (.u8 store))
    (props : P) (field : Option UInt8) (rest : Bytes) (fresh : store props none = props) :
    propertyLoop table props (pushField propId pushU8 field ++ rest) = propertyLoop table (store props field) rest :=
  loop_push_field table propId pushU8 store props field rest
    (fun val _ => by simp [read_item_known table props propId _ _ found, readProperty, pushU8]) fresh

theorem loop_push_u16 {propId : UInt8} {store : P → Option UInt16 → P} (found : table propId = some (.u16 store))
    (props : P) (field : Option UInt16) (rest : Bytes) (fresh : store props none = props) :
    propertyLoop table props (pushField propId writeU16 field ++ rest) = propertyLoop table (store props field) rest :=
  loop_push_field table propId writeU16 store props field rest
    (fun val _ => by simp [read_item_known table props propId _ _ found, readProperty]) fresh

theorem loop_push_u32 {propId : UInt8} {store : P → Option UInt32 → P} (found : table propId = some (.u32 store))
    (props : P) (field : Option UInt32) (rest : Bytes) (fresh : store props none = props) :
    propertyLoop table props (pushField propId writeU32 field ++ rest) = propertyLoop table (store props field) rest :=
  loop_push_field table propId writeU32 store props field rest
    (fun val _ => by simp [read_item_known table props propId _ _ found, readProperty]) fresh

theorem loop_push_str {propId : UInt8} {store : P → Option String → P} (found : table propId = some (.str store))
    (props : P) (field : Option String) (rest : Bytes) (fits : ∀ s, field = some s → StrFits s)
    (fresh : store props none = props) :
    propertyLoop table props (pushField propId writeStr field ++ rest) = propertyLoop table (store props field) rest :=
  loop_push_field table propId writeStr store props field rest
    (fun s present => by
      simp [read_item_known table props propId _ _ found, readProperty, read_write_str s rest (fits s present)]) fresh

theorem loop_push_bytes {propId : UInt8} {store : P → Option Bytes → P} (found : table propId = some (.bytes store))
    (props : P) (field : Option Bytes) (rest : Bytes) (fits : ∀ data, field = some data → BytesFit data)
    (fresh : store props none = props) :
    propertyLoop table props (pushField propId writeBytes field ++ rest) = propertyLoop table (store props field) rest :=
  loop_push_field table propId writeBytes store props field rest
    (fun data present => by
      simp [read_item_known table props propId _ _ found, readProperty, read_write_bytes data rest (fits data present)])
    fresh

theorem loop_push_varint {propId : UInt8} {store : P → Option UInt32 → P}
    (found : table propId = some (.varint store))
    (props : P) (field : Option UInt32) (rest : Bytes) (fits : ∀ val, field = some val → VarintFits val)
    (fresh : store props none = props) :
    propertyLoop table props (pushField propId encodeVarint field ++ rest) =
      propertyLoop table (store props field) rest :=
  loop_push_field table propId encodeVarint store props field rest
    (fun val present => by
      simp [read_item_known table props propId _ _ found, readProperty,
        decode_encode_varint val rest (fits val present)])
    fresh

structure ListField (push : P → List (String × String) → P) (current : P → List (String × String)) : Prop where
  kept : ∀ props, push props (current props) = props
  stored : ∀ props list, current (push props list) = list
  replaced : ∀ props first second, push (push props first) second = push props second

-- Induction on the list: the pairs already read are the ones the record holds.
theorem loop_push_user_properties {push : P → List (String × String) → P} {current : P → List (String × String)}
    (found : table 0x26 = some (.userProperty push current)) (lens : ListField push current) (props : P)
    (userProperties : List (String × String)) (rest : Bytes) (fits : UserPropertiesFit userProperties) :
    propertyLoop table props (pushUserProperties userProperties ++ rest) =
      propertyLoop table (push props (current props ++ userProperties)) rest := by
  induction userProperties generalizing props with
  | nil =>
      rw [List.append_nil, lens.kept]
      rfl
  | cons pair tail ih =>
      obtain ⟨k, v⟩ := pair
      obtain ⟨keyFits, valFits⟩ := fits (k, v) (by simp)
      have bytes : pushUserProperties ((k, v) :: tail) ++ rest =
          0x26 :: (writeStr k ++ (writeStr v ++ (pushUserProperties tail ++ rest))) := by
        simp [pushUserProperties]
      have item : readItem table props (pushUserProperties ((k, v) :: tail) ++ rest) =
          .ok (push props (current props ++ [(k, v)]), pushUserProperties tail ++ rest) := by
        rw [bytes, read_item_known table props 0x26 _ _ found]
        simp [readProperty, read_write_str k _ keyFits, read_write_str v _ valFits]
      rw [property_loop_item table props _ _ _ item, ih _ (fun pair member => fits pair (by simp [member])),
        lens.stored, lens.replaced, List.append_assoc, List.singleton_append]

theorem decode_block (empty props : P) (tempBuf rest : Bytes) (fits : (encodeBlock tempBuf).length < 2 ^ 28)
    (completed : propertyLoop table empty tempBuf = .ok props) :
    decodeProperties table empty (encodeBlock tempBuf ++ rest) = .ok (props, rest) := by
  have bound : tempBuf.length < 2 ^ 28 := by
    rw [encodeBlock, List.length_append] at fits
    omega
  have len : (UInt32.ofNat tempBuf.length).toNat = tempBuf.length := by
    rw [UInt32.toNat_ofNat']
    omega
  have someBytes : (encodeBlock tempBuf ++ rest).isEmpty = false := by
    obtain ⟨byte, tail, eq⟩ := encode_varint_cons (UInt32.ofNat tempBuf.length)
    rw [encodeBlock, eq]
    rfl
  rw [decodeProperties, someBytes, encodeBlock, List.append_assoc]
  simp only [Bool.false_eq_true, if_false, decode_encode_varint _ _ (len.symm ▸ bound : _ < 2 ^ 28), ok_bind,
    slice_from_append, len, slice_to_append, completed]
  rw [if_neg (by simp)]
  rfl

end Table

def ConnectProperties.Fits (self : ConnectProperties) : Prop :=
  UserPropertiesFit self.userProperties ∧ (∀ s, self.authMethod = some s → StrFits s) ∧
    (∀ data, self.authData = some data → BytesFit data)

theorem connect_properties_round_trip (props : ConnectProperties) (rest : Bytes) (fits : props.Fits)
    (bound : props.encode.length < 2 ^ 28) : ConnectProperties.decode (props.encode ++ rest) = .ok (props, rest) := by
  obtain ⟨userFits, methodFits, dataFits⟩ := fits
  apply decode_block _ _ _ _ bound
  rw [← List.append_nil (pushField 0x16 writeBytes props.authData)]
  simp only [List.append_assoc]
  rw [loop_push_u32 (by rfl) _ _ _ rfl, loop_push_u16 (by rfl) _ _ _ rfl, loop_push_u32 (by rfl) _ _ _ rfl,
    loop_push_u16 (by rfl) _ _ _ rfl, loop_push_u8 (by rfl) _ _ _ rfl, loop_push_u8 (by rfl) _ _ _ rfl,
    loop_push_user_properties (by rfl) (by constructor <;> intros <;> rfl) _ _ _ userFits,
    loop_push_str (by rfl) _ _ _ methodFits rfl, loop_push_bytes (by rfl) _ _ _ dataFits rfl, property_loop_nil]
  rfl

def ConnAckProperties.Fits (self : ConnAckProperties) : Prop :=
  UserPropertiesFit self.userProperties ∧ (∀ s, self.assignedClientIdentifier = some s → StrFits s) ∧
    (∀ s, self.reasonString = some s → StrFits s) ∧ (∀ s, self.responseInformation = some s → StrFits s) ∧
    (∀ s, self.serverReference = some s → StrFits s) ∧ (∀ s, self.authenticationMethod = some s → StrFits s) ∧
    (∀ data, self.authenticationData = some data → BytesFit data)

theorem conn_ack_properties_round_trip (props : ConnAckProperties) (rest : Bytes) (fits : props.Fits)
    (bound : props.encode.length < 2 ^ 28) : ConnAckProperties.decode (props.encode ++ rest) = .ok (props, rest) := by
  obtain ⟨userFits, assignedFits, reasonFits, responseFits, referenceFits, methodFits, dataFits⟩ := fits
  apply decode_block _ _ _ _ bound
  rw [← List.append_nil (pushField 0x16 writeBytes props.authenticationData)]
  simp only [List.append_assoc]
  rw [loop_push_u32 (by rfl) _ _ _ rfl, loop_push_u16 (by rfl) _ _ _ rfl, loop_push_u8 (by rfl) _ _ _ rfl,
    loop_push_u8 (by rfl) _ _ _ rfl, loop_push_u32 (by rfl) _ _ _ rfl,
    loop_push_str (by rfl) _ _ _ assignedFits rfl, loop_push_u16 (by rfl) _ _ _ rfl,
    loop_push_str (by rfl) _ _ _ reasonFits rfl,
    loop_push_user_properties (by rfl) (by constructor <;> intros <;> rfl) _ _ _ userFits,
    loop_push_u8 (by rfl) _ _ _ rfl, loop_push_u8 (by rfl) _ _ _ rfl, loop_push_u8 (by rfl) _ _ _ rfl,
    loop_push_u16 (by rfl) _ _ _ rfl, loop_push_str (by rfl) _ _ _ responseFits rfl,
    loop_push_str (by rfl) _ _ _ referenceFits rfl, loop_push_str (by rfl) _ _ _ methodFits rfl,
    loop_push_bytes (by rfl) _ _ _ dataFits rfl, property_loop_nil]
  rfl

def PublishProperties.Fits (self : PublishProperties) : Prop :=
  UserPropertiesFit self.userProperties ∧ (∀ s, self.contentType = some s → StrFits s) ∧
    (∀ s, self.responseTopic = some s → StrFits s) ∧ (∀ data, self.correlationData = some data → BytesFit data) ∧
    (∀ val, self.subscriptionIdentifier = some val → VarintFits val)

theorem publish_properties_round_trip (props : PublishProperties) (rest : Bytes) (fits : props.Fits)
    (bound : props.encode.length < 2 ^ 28) : PublishProperties.decode (props.encode ++ rest) = .ok (props, rest) := by
  obtain ⟨userFits, contentFits, responseFits, dataFits, idFits⟩ := fits
  apply decode_block _ _ _ _ bound
  rw [← List.append_nil (pushUserProperties props.userProperties)]
  simp only [List.append_assoc]
  rw [loop_push_u8 (by rfl) _ _ _ rfl, loop_push_u32 (by rfl) _ _ _ rfl,
    loop_push_str (by rfl) _ _ _ contentFits rfl, loop_push_str (by rfl) _ _ _ responseFits rfl,
    loop_push_bytes (by rfl) _ _ _ dataFits rfl, loop_push_varint (by rfl) _ _ _ idFits rfl,
    loop_push_u16 (by rfl) _ _ _ rfl,
    loop_push_user_properties (by rfl) (by constructor <;> intros <;> rfl) _ _ _ userFits, property_loop_nil]
  rfl

def PubAckProperties.Fits (self : PubAckProperties) : Prop :=
  UserPropertiesFit self.userProperties ∧ (∀ s, self.reasonString = some s → StrFits s)

theorem pub_ack_properties_round_trip (props : PubAckProperties) (rest : Bytes) (fits : props.Fits)
    (bound : props.encode.length < 2 ^ 28) : PubAckProperties.decode (props.encode ++ rest) = .ok (props, rest) := by
  obtain ⟨userFits, reasonFits⟩ := fits
  apply decode_block _ _ _ _ bound
  rw [← List.append_nil (pushUserProperties props.userProperties)]
  rw [loop_push_str (by rfl) _ _ _ reasonFits rfl,
    loop_push_user_properties (by rfl) (by constructor <;> intros <;> rfl) _ _ _ userFits, property_loop_nil]
  rfl

def SubscribeProperties.Fits (self : SubscribeProperties) : Prop :=
  UserPropertiesFit self.userProperties ∧ (∀ val, self.subscriptionIdentifier = some val → VarintFits val)

theorem subscribe_properties_round_trip (props : SubscribeProperties) (rest : Bytes) (fits : props.Fits)
    (bound : props.encode.length < 2 ^ 28) :
    SubscribeProperties.decode (props.encode ++ rest) = .ok (props, rest) := by
  obtain ⟨userFits, idFits⟩ := fits
  apply decode_block _ _ _ _ bound
  rw [← List.append_nil (pushUserProperties props.userProperties)]
  rw [loop_push_varint (by rfl) _ _ _ idFits rfl,
    loop_push_user_properties (by rfl) (by constructor <;> intros <;> rfl) _ _ _ userFits, property_loop_nil]
  rfl

def SubAckProperties.Fits (self : SubAckProperties) : Prop :=
  UserPropertiesFit self.userProperties ∧ (∀ s, self.reasonString = some s → StrFits s)

theorem sub_ack_properties_round_trip (props : SubAckProperties) (rest : Bytes) (fits : props.Fits)
    (bound : props.encode.length < 2 ^ 28) : SubAckProperties.decode (props.encode ++ rest) = .ok (props, rest) := by
  obtain ⟨userFits, reasonFits⟩ := fits
  apply decode_block _ _ _ _ bound
  rw [← List.append_nil (pushUserProperties props.userProperties)]
  rw [loop_push_str (by rfl) _ _ _ reasonFits rfl,
    loop_push_user_properties (by rfl) (by constructor <;> intros <;> rfl) _ _ _ userFits, property_loop_nil]
  rfl

def DisconnectProperties.Fits (self : DisconnectProperties) : Prop :=
  UserPropertiesFit self.userProperties ∧ (∀ s, self.reasonString = some s → StrFits s) ∧
    (∀ s, self.serverReference = some s → StrFits s)

theorem disconnect_properties_round_trip (props : DisconnectProperties) (rest : Bytes) (fits : props.Fits)
    (bound : props.encode.length < 2 ^ 28) :
    DisconnectProperties.decode (props.encode ++ rest) = .ok (props, rest) := by
  obtain ⟨userFits, reasonFits, referenceFits⟩ := fits
  apply decode_block _ _ _ _ bound
  rw [← List.append_nil (pushField 0x1C writeStr props.serverReference)]
  simp only [List.append_assoc]
  rw [loop_push_u32 (by rfl) _ _ _ rfl, loop_push_str (by rfl) _ _ _ reasonFits rfl,
    loop_push_user_properties (by rfl) (by constructor <;> intros <;> rfl) _ _ _ userFits,
    loop_push_str (by rfl) _ _ _ referenceFits rfl, property_loop_nil]
  rfl

end Pipistrelle.Codec
