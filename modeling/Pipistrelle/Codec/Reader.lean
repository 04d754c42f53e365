import Mathlib.Data.List.Basic
import Pipistrelle.Lib.Outcome

set_option autoImplicit false

/- The primitive readers and writers of src/codec.rs. A reader takes the slice
   behind the source's mutable cursor and returns the value with the slice the
   cursor is left at; a writer returns the bytes that it appends to the buffer.
   Every slice index, slice range and u32 operation goes through the checked
   operations of Outcome, so a panic of the source is a panic here. -/
namespace Pipistrelle.Codec

open Outcome

abbrev Bytes := List UInt8

inductive CodecError where
  | incomplete
  | invalidVarint
  | malformedPacket
  | unsupportedProtocolVersion (level : UInt8)
deriving DecidableEq, Repr

abbrev Decoded (α : Type) := Outcome CodecError α

@[elab_as_elim]
theorem every_byte {property : UInt8 → Prop} (all : ∀ n : Fin 256, property (UInt8.ofNat n)) (byte : UInt8) :
    property byte := by
  have value := all ⟨byte.toNat, byte.toNat_lt⟩
  rwa [UInt8.ofNat_toNat] at value

def u16FromBeBytes (b0 b1 : UInt8) : UInt16 := UInt16.ofNat (b0.toNat * 256 + b1.toNat)

def u32FromBeBytes (b0 b1 b2 b3 : UInt8) : UInt32 :=
  UInt32.ofNat (((b0.toNat * 256 + b1.toNat) * 256 + b2.toNat) * 256 + b3.toNat)

def u16ToBeBytes (val : UInt16) : Bytes :=
  [UInt8.ofNat (val.toNat / 256), UInt8.ofNat (val.toNat % 256)]

def u32ToBeBytes (val : UInt32) : Bytes :=
  [UInt8.ofNat (val.toNat / 256 / 256 / 256), UInt8.ofNat (val.toNat / 256 / 256 % 256),
    UInt8.ofNat (val.toNat / 256 % 256), UInt8.ofNat (val.toNat % 256)]

-- A Rust str is its UTF-8 bytes; from_utf8 accepts exactly the valid sequences.
def strBytes (s : String) : Bytes := s.toByteArray.data.toList

def fromUtf8 (bytes : Bytes) : Option String := String.fromUTF8? ⟨bytes.toArray⟩

def readU8 (buf : Bytes) : Decoded (UInt8 × Bytes) :=
  if buf.isEmpty then .err .incomplete
  else do
    let val ← index buf 0
    let buf ← sliceFrom 1 buf
    pure (val, buf)

def readU16 (buf : Bytes) : Decoded (UInt16 × Bytes) :=
  if buf.length < 2 then .err .incomplete
  else do
    let b0 ← index buf 0
    let b1 ← index buf 1
    let buf ← sliceFrom 2 buf
    pure (u16FromBeBytes b0 b1, buf)

def readU32 (buf : Bytes) : Decoded (UInt32 × Bytes) :=
  if buf.length < 4 then .err .incomplete
  else do
    let b0 ← index buf 0
    let b1 ← index buf 1
    let b2 ← index buf 2
    let b3 ← index buf 3
    let buf ← sliceFrom 4 buf
    pure (u32FromBeBytes b0 b1 b2 b3, buf)

def readStr (buf : Bytes) : Decoded (String × Bytes) := do
  let (len, buf) ← readU16 buf
  if buf.length < len.toNat then .err .incomplete
  else do
    let data ← sliceTo len.toNat buf
    match fromUtf8 data with
    | none => .err .malformedPacket
    | some s => do
        let buf ← sliceFrom len.toNat buf
        pure (s, buf)

def readBytes (buf : Bytes) : Decoded (Bytes × Bytes) := do
  let (len, buf) ← readU16 buf
  if buf.length < len.toNat then .err .incomplete
  else do
    let data ← sliceTo len.toNat buf
    let buf ← sliceFrom len.toNat buf
    pure (data, buf)

-- The for loop of decode_varint: multiplier, value and bytes_read are its
-- mutable locals, and the u32 sum and products panic on overflow.
def varintLoop (multiplier value bytesRead : Nat) : Bytes → Decoded (UInt32 × Nat)
  | [] => .err .incomplete
  | byte :: rest => do
      let term ← mulWord 32 (byte &&& 127).toNat multiplier
      let value ← addWord 32 value term
      if byte &&& 128 = 0 then pure (UInt32.ofNat value, bytesRead + 1)
      else if 128 * 128 * 128 ≤ multiplier then .err .invalidVarint
      else do
        let multiplier ← mulWord 32 multiplier 128
        varintLoop multiplier value (bytesRead + 1) rest

def decodeVarint (buf : Bytes) : Decoded (UInt32 × Nat) := varintLoop 1 0 0 buf

def encodeVarint (value : UInt32) : Bytes :=
  let byte := (value % 128).toUInt8
  let next := value / 128
  if 0 < next then (byte ||| 128) :: encodeVarint next else [byte]
termination_by value.toNat
decreasing_by
  rename_i more
  have positive : 0 < (value / 128).toNat := UInt32.lt_iff_toNat_lt.mp more
  simp only [UInt32.toNat_div, UInt32.reduceToNat] at positive ⊢
  omega

def writeU16 (val : UInt16) : Bytes := u16ToBeBytes val

def writeU32 (val : UInt32) : Bytes := u32ToBeBytes val

def writeStr (s : String) : Bytes := writeU16 (UInt16.ofNat (strBytes s).length) ++ strBytes s

def writeBytes (data : Bytes) : Bytes := writeU16 (UInt16.ofNat data.length) ++ data

example : decodeVarint [0xFF, 0x7F, 9] = .ok (16383, 2) := by decide

end Pipistrelle.Codec
