import Pipistrelle.Codec.Reader

set_option autoImplicit false

namespace Pipistrelle.Codec

open Outcome

@[simp] theorem read_u8_nil : readU8 [] = .err .incomplete := rfl

@[simp] theorem read_u8_cons (byte : UInt8) (rest : Bytes) : readU8 (byte :: rest) = .ok (byte, rest) := by
  simp [readU8, slice_from_within]

theorem two_bytes (buf : Bytes) : buf.length < 2 ∨ ∃ b0 b1 tail, buf = b0 :: b1 :: tail := by
  rcases buf with _ | ⟨b0, _ | ⟨b1, tail⟩⟩
  · exact .inl (Nat.zero_lt_succ 1)
  · exact .inl (Nat.lt_succ_self 1)
  · exact .inr ⟨b0, b1, tail, rfl⟩

theorem four_bytes (buf : Bytes) : buf.length < 4 ∨ ∃ b0 b1 b2 b3 tail, buf = b0 :: b1 :: b2 :: b3 :: tail := by
  rcases two_bytes buf with short | ⟨b0, b1, rest, rfl⟩
  · exact .inl (Nat.lt_trans short (by decide))
  · rcases two_bytes rest with short | ⟨b2, b3, tail, rfl⟩
    · exact .inl (Nat.add_lt_add_right short 2)
    · exact .inr ⟨b0, b1, b2, b3, tail, rfl⟩

theorem read_u16_short (buf : Bytes) (short : buf.length < 2) : readU16 buf = .err .incomplete := by
  simp [readU16, short]

@[simp] theorem read_u16_cons (b0 b1 : UInt8) (rest : Bytes) :
    readU16 (b0 :: b1 :: rest) = .ok (u16FromBeBytes b0 b1, rest) := by
  simp [readU16, slice_from_within]

theorem read_u32_short (buf : Bytes) (short : buf.length < 4) : readU32 buf = .err .incomplete := by
  simp [readU32, short]

@[simp] theorem read_u32_cons (b0 b1 b2 b3 : UInt8) (rest : Bytes) :
    readU32 (b0 :: b1 :: b2 :: b3 :: rest) = .ok (u32FromBeBytes b0 b1 b2 b3, rest) := by
  simp [readU32, slice_from_within]

theorem read_bytes_short (buf : Bytes) (short : buf.length < 2) : readBytes buf = .err .incomplete := by
  simp [readBytes, read_u16_short buf short]

theorem read_bytes_cons (b0 b1 : UInt8) (rest : Bytes) :
    readBytes (b0 :: b1 :: rest) =
      if rest.length < (u16FromBeBytes b0 b1).toNat then .err .incomplete
      else .ok (rest.take (u16FromBeBytes b0 b1).toNat, rest.drop (u16FromBeBytes b0 b1).toNat) := by
  by_cases short : rest.length < (u16FromBeBytes b0 b1).toNat
  · simp [readBytes, short]
  · simp [readBytes, short, slice_to_within _ _ (Nat.not_lt.mp short), slice_from_within _ _ (Nat.not_lt.mp short)]

theorem read_str_short (buf : Bytes) (short : buf.length < 2) : readStr buf = .err .incomplete := by
  simp [readStr, read_u16_short buf short]

-- A string is a binary field whose bytes from_utf8 must accept.
theorem read_str_cons (b0 b1 : UInt8) (rest : Bytes) :
    readStr (b0 :: b1 :: rest) =
      if rest.length < (u16FromBeBytes b0 b1).toNat then .err .incomplete
      else match fromUtf8 (rest.take (u16FromBeBytes b0 b1).toNat) with
        | none => .err .malformedPacket
        | some s => .ok (s, rest.drop (u16FromBeBytes b0 b1).toNat) := by
  by_cases short : rest.length < (u16FromBeBytes b0 b1).toNat
  · simp [readStr, short]
  · simp only [readStr, read_u16_cons, ok_bind, if_neg short, slice_to_within _ _ (Nat.not_lt.mp short)]
    cases fromUtf8 (rest.take (u16FromBeBytes b0 b1).toNat) with
    | none => rfl
    | some s => simp [slice_from_within _ _ (Nat.not_lt.mp short)]

theorem u16_from_to_be_bytes (val : UInt16) :
    u16FromBeBytes (UInt8.ofNat (val.toNat / 256)) (UInt8.ofNat (val.toNat % 256)) = val := by
  have bound := val.toNat_lt
  apply UInt16.toNat_inj.mp
  simp only [u16FromBeBytes, UInt16.toNat_ofNat', UInt8.toNat_ofNat']
  omega

theorem u32_from_to_be_bytes (val : UInt32) :
    u32FromBeBytes (UInt8.ofNat (val.toNat / 256 / 256 / 256)) (UInt8.ofNat (val.toNat / 256 / 256 % 256))
      (UInt8.ofNat (val.toNat / 256 % 256)) (UInt8.ofNat (val.toNat % 256)) = val := by
  have bound := val.toNat_lt
  apply UInt32.toNat_inj.mp
  simp only [u32FromBeBytes, UInt32.toNat_ofNat', UInt8.toNat_ofNat']
  omega

@[simp] theorem read_write_u16 (val : UInt16) (rest : Bytes) : readU16 (writeU16 val ++ rest) = .ok (val, rest) := by
  rw [writeU16, u16ToBeBytes, List.cons_append, List.singleton_append, read_u16_cons, u16_from_to_be_bytes]

@[simp] theorem read_write_u32 (val : UInt32) (rest : Bytes) : readU32 (writeU32 val ++ rest) = .ok (val, rest) := by
  simp only [writeU32, u32ToBeBytes, List.cons_append, List.nil_append, read_u32_cons, u32_from_to_be_bytes]

@[simp] theorem from_utf8_str_bytes (s : String) : fromUtf8 (strBytes s) = some s := by
  simp [fromUtf8, strBytes, String.fromUTF8?, s.isValidUTF8, String.fromUTF8]

theorem read_write_bytes (data rest : Bytes) (fits : data.length ≤ 65535) :
    readBytes (writeBytes data ++ rest) = .ok (data, rest) := by
  have len : (UInt16.ofNat data.length).toNat = data.length := by
    rw [UInt16.toNat_ofNat']
    omega
  simp only [readBytes, writeBytes, List.append_assoc, read_write_u16, ok_bind, len, slice_to_append,
    slice_from_append, pure_eq]
  rw [if_neg (by simp)]

theorem write_str_length (s : String) : (writeStr s).length = 2 + (strBytes s).length := by
  rw [writeStr, List.length_append]
  rfl

theorem read_write_str (s : String) (rest : Bytes) (fits : (strBytes s).length ≤ 65535) :
    readStr (writeStr s ++ rest) = .ok (s, rest) := by
  have len : (UInt16.ofNat (strBytes s).length).toNat = (strBytes s).length := by
    rw [UInt16.toNat_ofNat']
    omega
  simp only [readStr, writeStr, List.append_assoc, read_write_u16, ok_bind, len, slice_to_append,
    from_utf8_str_bytes, slice_from_append, pure_eq]
  rw [if_neg (by simp)]

theorem u16_to_from_be_bytes (b0 b1 : UInt8) : u16ToBeBytes (u16FromBeBytes b0 b1) = [b0, b1] := by
  have h0 := b0.toNat_lt
  have h1 := b1.toNat_lt
  have val : (u16FromBeBytes b0 b1).toNat = b0.toNat * 256 + b1.toNat := by
    rw [u16FromBeBytes, UInt16.toNat_ofNat']
    omega
  simp only [u16ToBeBytes, val, List.cons.injEq, and_true, ← UInt8.toNat_inj, UInt8.toNat_ofNat']
  omega

theorem u32_to_from_be_bytes (b0 b1 b2 b3 : UInt8) :
    u32ToBeBytes (u32FromBeBytes b0 b1 b2 b3) = [b0, b1, b2, b3] := by
  have h0 := b0.toNat_lt
  have h1 := b1.toNat_lt
  have h2 := b2.toNat_lt
  have h3 := b3.toNat_lt
  have val : (u32FromBeBytes b0 b1 b2 b3).toNat =
      ((b0.toNat * 256 + b1.toNat) * 256 + b2.toNat) * 256 + b3.toNat := by
    rw [u32FromBeBytes, UInt32.toNat_ofNat']
    omega
  simp only [u32ToBeBytes, val, List.cons.injEq, and_true, ← UInt8.toNat_inj, UInt8.toNat_ofNat']
  omega

theorem from_utf8_some_iff (bytes : Bytes) (s : String) : fromUtf8 bytes = some s ↔ bytes = strBytes s := by
  constructor
  · intro decoded
    unfold fromUtf8 String.fromUTF8? at decoded
    split at decoded
    · cases decoded
      rfl
    · simp at decoded
  · rintro rfl
    exact from_utf8_str_bytes s

theorem read_u8_ok_iff (buf : Bytes) (val : UInt8) (rest : Bytes) :
    readU8 buf = .ok (val, rest) ↔ buf = val :: rest := by
  cases buf <;> simp

theorem read_u16_ok_iff (buf : Bytes) (val : UInt16) (rest : Bytes) :
    readU16 buf = .ok (val, rest) ↔ buf = writeU16 val ++ rest := by
  constructor
  · intro completed
    rcases two_bytes buf with short | ⟨b0, b1, tail, rfl⟩
    · rw [read_u16_short buf short] at completed
      cases completed
    · obtain ⟨rfl, rfl⟩ : u16FromBeBytes b0 b1 = val ∧ tail = rest := by simpa using completed
      rw [writeU16, u16_to_from_be_bytes]
      rfl
  · rintro rfl
    exact read_write_u16 val rest

theorem read_u32_ok_iff (buf : Bytes) (val : UInt32) (rest : Bytes) :
    readU32 buf = .ok (val, rest) ↔ buf = writeU32 val ++ rest := by
  constructor
  · intro completed
    rcases four_bytes buf with short | ⟨b0, b1, b2, b3, tail, rfl⟩
    · rw [read_u32_short buf short] at completed
      cases completed
    · obtain ⟨rfl, rfl⟩ : u32FromBeBytes b0 b1 b2 b3 = val ∧ tail = rest := by simpa using completed
      rw [writeU32, u32_to_from_be_bytes]
      rfl
  · rintro rfl
    exact read_write_u32 val rest

theorem read_bytes_ok_iff (buf data rest : Bytes) :
    readBytes buf = .ok (data, rest) ↔ data.length ≤ 65535 ∧ buf = writeBytes data ++ rest := by
  constructor
  · intro completed
    rcases two_bytes buf with short | ⟨b0, b1, tail, rfl⟩
    · rw [read_bytes_short buf short] at completed
      cases completed
    · have bound := (u16FromBeBytes b0 b1).toNat_lt
      rw [read_bytes_cons] at completed
      split at completed
      · simp at completed
      · obtain ⟨rfl, rfl⟩ : tail.take (u16FromBeBytes b0 b1).toNat = data ∧
            tail.drop (u16FromBeBytes b0 b1).toNat = rest := by simpa using completed
        have taken : (tail.take (u16FromBeBytes b0 b1).toNat).length = (u16FromBeBytes b0 b1).toNat := by
          rw [List.length_take]
          omega
        refine ⟨by omega, ?_⟩
        rw [writeBytes, taken, UInt16.ofNat_toNat, writeU16, u16_to_from_be_bytes, List.append_assoc,
          List.take_append_drop]
        rfl
  · rintro ⟨fits, rfl⟩
    exact read_write_bytes data rest fits

theorem read_str_ok_iff (buf : Bytes) (s : String) (rest : Bytes) :
    readStr buf = .ok (s, rest) ↔ (strBytes s).length ≤ 65535 ∧ buf = writeStr s ++ rest := by
  constructor
  · intro completed
    rcases two_bytes buf with short | ⟨b0, b1, tail, rfl⟩
    · rw [read_str_short buf short] at completed
      cases completed
    · rw [read_str_cons] at completed
      split at completed
      · simp at completed
      · rename_i long
        split at completed
        · simp at completed
        · rename_i decoded
          obtain ⟨rfl, rfl⟩ : _ ∧ tail.drop (u16FromBeBytes b0 b1).toNat = rest := by simpa using completed
          refine (read_bytes_ok_iff _ _ _).mp ?_
          rw [read_bytes_cons, if_neg long, (from_utf8_some_iff _ _).mp decoded]
  · rintro ⟨fits, rfl⟩
    exact read_write_str s rest fits

end Pipistrelle.Codec
