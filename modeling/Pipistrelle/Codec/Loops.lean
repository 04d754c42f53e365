import Pipistrelle.Codec.PacketCodec

set_option autoImplicit false

/- The two while loops of the decoder, one turn at a time: a turn that reads an
   item goes on with the rest, and a turn that fails is the result. -/
namespace Pipistrelle.Codec

open Outcome

section PropertyLoop

variable {P : Type} (table : PropertyTable P)

@[simp] theorem property_loop_nil (props : P) : propertyLoop table props [] = .ok props := by
  rw [propertyLoop]
  rfl

theorem property_loop_cons (props : P) (propId : UInt8) (tail : Bytes) :
    propertyLoop table props (propId :: tail) =
      (readItem table props (propId :: tail) >>= fun (next, rest) => propertyLoop table next rest) := by
  rw [propertyLoop]
  split
  · contradiction
  · cases readItem table props (propId :: tail) <;> rfl

theorem property_loop_item (props next : P) (propSlice rest : Bytes)
    (item : readItem table props propSlice = .ok (next, rest)) :
    propertyLoop table props propSlice = propertyLoop table next rest := by
  cases propSlice with
  | nil => simp [readItem] at item
  | cons propId tail => rw [property_loop_cons, item, ok_bind]

theorem read_item_known (props : P) (propId : UInt8) (value : PropertyValue P) (propSlice : Bytes)
    (found : table propId = some value) :
    readItem table props (propId :: propSlice) = readProperty value props propSlice := by
  simp [readItem, found]

theorem read_item_unknown (props : P) (propId : UInt8) (propSlice : Bytes) (missing : table propId = none) :
    readItem table props (propId :: propSlice) = .err .malformedPacket := by
  simp [readItem, missing]

end PropertyLoop

@[simp] theorem subscription_loop_nil (done : List Subscription) : subscriptionLoop done [] = .ok done := by
  rw [subscriptionLoop]
  rfl

theorem subscription_loop_cons (done : List Subscription) (byte : UInt8) (tail : Bytes) :
    subscriptionLoop done (byte :: tail) =
      (readSubscription (byte :: tail) >>= fun (sub, rest) => subscriptionLoop (done ++ [sub]) rest) := by
  rw [subscriptionLoop]
  split
  · contradiction
  · cases readSubscription (byte :: tail) <;> rfl

theorem subscription_loop_item (done : List Subscription) (sub : Subscription) (payload rest : Bytes)
    (read : readSubscription payload = .ok (sub, rest)) :
    subscriptionLoop done payload = subscriptionLoop (done ++ [sub]) rest := by
  cases payload with
  | nil => simp [readSubscription, read_str_short] at read
  | cons byte tail => rw [subscription_loop_cons, read, ok_bind]

theorem reason_code_loop_all (done rest : Bytes) : reasonCodeLoop done rest = .ok (done ++ rest) := by
  induction rest generalizing done with
  | nil => simp [reasonCodeLoop]
  | cons byte tail ih => rw [reasonCodeLoop, ih, List.append_assoc, List.singleton_append]

end Pipistrelle.Codec
