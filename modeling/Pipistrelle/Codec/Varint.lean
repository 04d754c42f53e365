import Mathlib.Data.List.TakeWhile
import Mathlib.Data.Nat.Digits.Defs
import Pipistrelle.Codec.ReaderLaws

set_option autoImplicit false

/- The variable byte integer. A slice is told by the run of bytes at its front that
   carry the continuation bit: what decode_varint returns depends on it alone, and
   encode_varint writes the shortest slice that has the value. -/
namespace Pipistrelle.Codec

open Outcome

def Continues (byte : UInt8) : Prop := byte &&& 128 ≠ 0

instance (byte : UInt8) : Decidable (Continues byte) := inferInstanceAs (Decidable (_ ≠ _))

def base128 (bytes : Bytes) : Nat := Nat.ofDigits 128 (bytes.map fun byte => (byte &&& 127).toNat)

theorem byte_low_bits (byte : UInt8) : (byte &&& 127).toNat = byte.toNat % 128 := by
  rw [UInt8.toNat_and]
  exact Nat.and_two_pow_sub_one_eq_mod byte.toNat 7

theorem continues_iff (byte : UInt8) : Continues byte ↔ 128 ≤ byte.toNat :=
  every_byte (by decide +kernel) byte

@[simp] theorem base128_nil : base128 [] = 0 := rfl

theorem base128_cons (byte : UInt8) (bytes : Bytes) :
    base128 (byte :: bytes) = byte.toNat % 128 + 128 * base128 bytes := by
  rw [← byte_low_bits]
  rfl

theorem base128_bound (bytes : Bytes) : base128 bytes < 128 ^ bytes.length := by
  induction bytes with
  | nil => exact Nat.zero_lt_one
  | cons byte bytes ih =>
      have low : byte.toNat % 128 < 128 := Nat.mod_lt _ (by decide)
      rw [base128_cons, List.length_cons, Nat.pow_succ]
      omega

theorem base128_concat (lead : Bytes) (last : UInt8) :
    base128 (lead ++ [last]) = base128 lead + last.toNat % 128 * 128 ^ lead.length := by
  rw [base128, List.map_append, Nat.ofDigits_append, List.length_map, List.map_singleton, Nat.ofDigits_singleton,
    byte_low_bits, Nat.mul_comm]
  rfl

-- One turn of the loop with i bytes read: the multiplier is 128^i, and neither
-- the product, the sum nor the next multiplier overflows a u32.
theorem varint_loop_step (i value bytesRead : Nat) (byte : UInt8) (rest : Bytes)
    (atMost : i ≤ 3) (bounded : value < 128 ^ i) :
    varintLoop (128 ^ i) value bytesRead (byte :: rest) =
      if Continues byte then
        if i = 3 then .err .invalidVarint
        else varintLoop (128 ^ (i + 1)) (value + byte.toNat % 128 * 128 ^ i) (bytesRead + 1) rest
      else .ok (UInt32.ofNat (value + byte.toNat % 128 * 128 ^ i), bytesRead + 1) := by
  have power : 128 ^ i ≤ 128 ^ 3 := Nat.pow_le_pow_right (by decide) atMost
  have low : byte.toNat % 128 < 128 := Nat.mod_lt _ (by decide)
  have term : byte.toNat % 128 * 128 ^ i ≤ 127 * 128 ^ i := Nat.mul_le_mul_right _ (by omega)
  rw [varintLoop, byte_low_bits, mul_word_fits _ _ _ (by omega), ok_bind,
    add_word_fits _ _ _ (by omega), ok_bind]
  by_cases more : Continues byte
  · rw [if_neg more, if_pos more]
    by_cases full : i = 3
    · subst full
      rw [if_pos (by decide), if_pos rfl]
    · have below : 128 ^ i ≤ 128 ^ 2 := Nat.pow_le_pow_right (by decide) (by omega)
      rw [if_neg (by omega), if_neg full, mul_word_fits _ _ _ (by omega), ok_bind, ← Nat.pow_succ]
  · rw [if_pos (not_not.mp more), if_neg more]
    rfl

theorem varint_loop_lead (lead rest : Bytes) (continued : ∀ byte ∈ lead, Continues byte)
    (i value bytesRead : Nat) (atMost : lead.length + i ≤ 3) (bounded : value < 128 ^ i) :
    varintLoop (128 ^ i) value bytesRead (lead ++ rest) =
      varintLoop (128 ^ (i + lead.length)) (value + base128 lead * 128 ^ i) (bytesRead + lead.length) rest := by
  induction lead generalizing i value bytesRead with
  | nil => simp
  | cons byte lead ih =>
      obtain ⟨more, continued⟩ := List.forall_mem_cons.mp continued
      have low : byte.toNat % 128 ≤ 127 := Nat.le_of_lt_succ (Nat.mod_lt _ (by decide))
      have term : byte.toNat % 128 * 128 ^ i ≤ 127 * 128 ^ i := Nat.mul_le_mul_right _ low
      have next : value + byte.toNat % 128 * 128 ^ i < 128 ^ (i + 1) := by
        rw [Nat.pow_succ]
        omega
      have sum : value + byte.toNat % 128 * 128 ^ i + base128 lead * 128 ^ (i + 1) =
          value + base128 (byte :: lead) * 128 ^ i := by
        rw [base128_cons, Nat.pow_succ]
        ring
      rw [List.length_cons] at atMost ⊢
      rw [List.cons_append, varint_loop_step i value bytesRead byte _ (by omega) bounded, if_pos more,
        if_neg (by omega), ih continued (i + 1) _ _ (by omega) next, sum, Nat.add_right_comm i 1,
        Nat.add_right_comm bytesRead 1, Nat.add_assoc, Nat.add_assoc]

theorem decode_varint_lead (lead rest : Bytes) (continued : ∀ byte ∈ lead, Continues byte) (atMost : lead.length ≤ 3) :
    decodeVarint (lead ++ rest) = varintLoop (128 ^ lead.length) (base128 lead) lead.length rest := by
  have turns := varint_loop_lead lead rest continued 0 0 0 atMost (by decide)
  simpa [decodeVarint] using turns

theorem decode_varint_incomplete (buf : Bytes) (short : buf.length < 4) (continued : ∀ byte ∈ buf, Continues byte) :
    decodeVarint buf = .err .incomplete := by
  have turns := decode_varint_lead buf [] continued (Nat.le_of_lt_succ short)
  rwa [List.append_nil] at turns

theorem decode_varint_overlong (buf : Bytes) (long : 4 ≤ buf.length) (continued : ∀ byte ∈ buf.take 4, Continues byte) :
    decodeVarint buf = .err .invalidVarint := by
  rcases four_bytes buf with short | ⟨b0, b1, b2, b3, tail, rfl⟩
  · omega
  · rw [show b0 :: b1 :: b2 :: b3 :: tail = [b0, b1, b2] ++ b3 :: tail from rfl,
      decode_varint_lead [b0, b1, b2] _ (fun byte member => continued byte (by simp at member ⊢; tauto)) (Nat.le_refl 3),
      List.length_cons, List.length_cons, List.length_singleton,
      varint_loop_step 3 _ _ _ _ (Nat.le_refl 3) (base128_bound [b0, b1, b2]), if_pos (continued b3 (by simp)), if_pos rfl]

theorem decode_varint_whole (lead rest : Bytes) (last : UInt8) (atMost : lead.length < 4)
    (continued : ∀ byte ∈ lead, Continues byte) (ends : ¬ Continues last) :
    ∃ val, decodeVarint (lead ++ last :: rest) = .ok (val, lead.length + 1) ∧ val.toNat = base128 (lead ++ [last]) := by
  have bound := base128_bound (lead ++ [last])
  rw [List.length_append, List.length_singleton] at bound
  have power : 128 ^ (lead.length + 1) ≤ 128 ^ 4 := Nat.pow_le_pow_right (by decide) atMost
  refine ⟨UInt32.ofNat (base128 (lead ++ [last])), ?_, UInt32.toNat_ofNat_of_lt' (by change _ < 2 ^ 32; omega)⟩
  rw [decode_varint_lead lead _ continued (Nat.le_of_lt_succ atMost),
    varint_loop_step _ _ _ _ _ (Nat.le_of_lt_succ atMost) (base128_bound lead), if_neg ends, base128_concat]

inductive VarintShape (buf : Bytes) : Prop where
  | short (length : buf.length < 4) (continued : ∀ byte ∈ buf, Continues byte)
  | overlong (length : 4 ≤ buf.length) (continued : ∀ byte ∈ buf.take 4, Continues byte)
  | whole (lead rest : Bytes) (last : UInt8) (bytes : buf = lead ++ last :: rest) (atMost : lead.length < 4)
      (continued : ∀ byte ∈ lead, Continues byte) (ends : ¬ Continues last)

theorem varint_shape (buf : Bytes) : VarintShape buf := by
  have split : buf.takeWhile (Continues ·) ++ buf.dropWhile (Continues ·) = buf := List.takeWhile_append_dropWhile
  have continued : ∀ byte ∈ buf.takeWhile (Continues ·), Continues byte :=
    fun byte member => of_decide_eq_true (List.mem_takeWhile_imp (p := fun next => decide (Continues next)) member)
  by_cases long : 4 ≤ (buf.takeWhile (Continues ·)).length
  · refine .overlong (by rw [← split, List.length_append]; omega) (fun byte member => continued byte ?_)
    rw [← split, List.take_append_of_le_length long] at member
    exact List.mem_of_mem_take member
  · cases after : buf.dropWhile (Continues ·) with
    | nil =>
        rw [after, List.append_nil] at split
        rw [split] at long continued
        exact .short (Nat.not_le.mp long) continued
    | cons last rest =>
        have ends : ¬ Continues last := by
          have stopped := List.head_dropWhile_not (fun byte => decide (Continues byte)) (l := buf) (by simp [after])
          simpa [after] using stopped
        exact .whole _ rest last (by rw [← after, split]) (Nat.not_le.mp long) continued ends

theorem decode_varint_ok_shape (buf : Bytes) (val : UInt32) (read : Nat) :
    decodeVarint buf = .ok (val, read) ↔
      ∃ lead last rest, buf = lead ++ last :: rest ∧ lead.length < 4 ∧ (∀ byte ∈ lead, Continues byte) ∧
        ¬ Continues last ∧ read = lead.length + 1 ∧ val.toNat = base128 (lead ++ [last]) := by
  constructor
  · intro decoded
    cases varint_shape buf with
    | short length continued =>
        rw [decode_varint_incomplete buf length continued] at decoded
        cases decoded
    | overlong length continued =>
        rw [decode_varint_overlong buf length continued] at decoded
        cases decoded
    | whole lead rest last bytes atMost continued ends =>
        obtain ⟨found, decodes, value⟩ := decode_varint_whole lead rest last atMost continued ends
        rw [bytes, decodes] at decoded
        cases decoded
        exact ⟨lead, last, rest, bytes, atMost, continued, ends, rfl, value⟩
  · rintro ⟨lead, last, rest, rfl, atMost, continued, ends, rfl, value⟩
    obtain ⟨found, decodes, same⟩ := decode_varint_whole lead rest last atMost continued ends
    rw [decodes, UInt32.toNat_inj.mp (same.trans value.symm)]

theorem decode_varint_no_panic (buf : Bytes) : decodeVarint buf ≠ .panic := by
  cases varint_shape buf with
  | short length continued => simp [decode_varint_incomplete buf length continued]
  | overlong length continued => simp [decode_varint_overlong buf length continued]
  | whole lead rest last bytes atMost continued ends =>
      obtain ⟨val, decoded, _⟩ := decode_varint_whole lead rest last atMost continued ends
      simp [bytes, decoded]

theorem decode_varint_value (buf : Bytes) (val : UInt32) (read : Nat) (decoded : decodeVarint buf = .ok (val, read)) :
    val.toNat < 128 ^ read := by
  obtain ⟨lead, last, rest, _, _, _, _, rfl, value⟩ := (decode_varint_ok_shape _ _ _).mp decoded
  simpa [value] using base128_bound (lead ++ [last])

theorem decode_varint_ok (buf : Bytes) (val : UInt32) (read : Nat) (completed : decodeVarint buf = .ok (val, read)) :
    0 < read ∧ read ≤ 4 ∧ read ≤ buf.length ∧ val.toNat < 2 ^ 28 := by
  have below := decode_varint_value buf val read completed
  obtain ⟨lead, last, rest, rfl, atMost, _, _, rfl, _⟩ := (decode_varint_ok_shape _ _ _).mp completed
  have power : 128 ^ (lead.length + 1) ≤ 128 ^ 4 := Nat.pow_le_pow_right (by decide) atMost
  simp only [List.length_append, List.length_cons]
  omega

theorem decode_varint_append (buf suffix : Bytes) (decided : decodeVarint buf ≠ .err .incomplete) :
    decodeVarint (buf ++ suffix) = decodeVarint buf := by
  cases varint_shape buf with
  | short length continued => exact absurd (decode_varint_incomplete buf length continued) decided
  | overlong length continued =>
      rw [decode_varint_overlong buf length continued]
      refine decode_varint_overlong _ (by rw [List.length_append]; omega) ?_
      rwa [List.take_append_of_le_length length]
  | whole lead rest last bytes atMost continued ends =>
      obtain ⟨val, decoded, value⟩ := decode_varint_whole lead rest last atMost continued ends
      rw [bytes, decoded, decode_varint_ok_shape]
      exact ⟨lead, last, rest ++ suffix, by simp, atMost, continued, ends, rfl, value⟩

theorem decode_varint_take (buf : Bytes) (val : UInt32) (read : Nat) (decoded : decodeVarint buf = .ok (val, read)) :
    decodeVarint (buf.take read) = .ok (val, (buf.take read).length) := by
  obtain ⟨lead, last, rest, rfl, atMost, continued, ends, rfl, value⟩ := (decode_varint_ok_shape _ _ _).mp decoded
  have own : (lead ++ last :: rest).take (lead.length + 1) = lead ++ [last] := by
    rw [List.append_cons]
    exact List.take_left' (by simp)
  rw [own, decode_varint_ok_shape]
  exact ⟨lead, last, [], rfl, atMost, continued, ends, by simp, value⟩

theorem encode_varint_last (value : UInt32) (small : value.toNat < 128) :
    encodeVarint value = [UInt8.ofNat value.toNat] := by
  have done : ¬ 0 < value / 128 := by
    rw [UInt32.lt_iff_toNat_lt, UInt32.toNat_div]
    simp only [UInt32.reduceToNat]
    omega
  rw [encodeVarint]
  simp only [if_neg done, List.cons.injEq, and_true]
  apply UInt8.toNat_inj.mp
  simp only [UInt32.toNat_toUInt8, UInt32.toNat_mod, UInt8.toNat_ofNat', UInt32.reduceToNat]
  omega

theorem encode_varint_more (value : UInt32) (large : 128 ≤ value.toNat) :
    encodeVarint value = UInt8.ofNat (value.toNat % 128 + 128) :: encodeVarint (value / 128) := by
  have more : 0 < value / 128 := by
    rw [UInt32.lt_iff_toNat_lt, UInt32.toNat_div]
    simp only [UInt32.reduceToNat]
    omega
  have setBit : ∀ n : Fin 128, n.val ||| 128 = n.val + 128 := by decide +kernel
  rw [encodeVarint]
  simp only [if_pos more, List.cons.injEq, and_true]
  apply UInt8.toNat_inj.mp
  have low : value.toNat % 128 < 128 := Nat.mod_lt _ (by decide)
  have same : (value % 128).toUInt8.toNat = value.toNat % 128 := by
    simp only [UInt32.toNat_toUInt8, UInt32.toNat_mod, UInt32.reduceToNat]
    omega
  rw [UInt8.toNat_or, same, UInt8.toNat_ofNat']
  exact (setBit ⟨_, low⟩).trans (Nat.mod_eq_of_lt (by omega)).symm

theorem encode_varint_cons (value : UInt32) : ∃ byte tail, encodeVarint value = byte :: tail := by
  rw [encodeVarint]
  split
  · exact ⟨_, _, rfl⟩
  · exact ⟨_, _, rfl⟩

theorem encode_varint_shape (val : UInt32) :
    ∃ lead last, encodeVarint val = lead ++ [last] ∧ (∀ byte ∈ lead, Continues byte) ∧ ¬ Continues last ∧
      base128 (lead ++ [last]) = val.toNat := by
  induction val using encodeVarint.induct with
  | case1 val next more ih =>
      have large : 128 ≤ val.toNat := by
        have positive : 0 < (val / 128).toNat := UInt32.lt_iff_toNat_lt.mp more
        simp only [UInt32.toNat_div, UInt32.reduceToNat] at positive
        omega
      have byte : (UInt8.ofNat (val.toNat % 128 + 128)).toNat = val.toNat % 128 + 128 := by
        rw [UInt8.toNat_ofNat']
        omega
      have nextNat : (val / 128).toNat = val.toNat / 128 := by simp
      obtain ⟨lead, last, written, continued, ends, value⟩ := ih
      refine ⟨UInt8.ofNat (val.toNat % 128 + 128) :: lead, last, ?_, ?_, ends, ?_⟩
      · rw [encode_varint_more val large, written, List.cons_append]
      · exact List.forall_mem_cons.mpr ⟨(continues_iff _).mpr (by omega), continued⟩
      · rw [List.cons_append, base128_cons, value, byte, nextNat, Nat.add_mod_right, Nat.mod_mod,
          Nat.mod_add_div val.toNat 128]
  | case2 val next done =>
      have small : val.toNat < 128 := by
        have zero : ¬ 0 < (val / 128).toNat := fun more => done (UInt32.lt_iff_toNat_lt.mpr more)
        simp only [UInt32.toNat_div, UInt32.reduceToNat] at zero
        omega
      have byte : (UInt8.ofNat val.toNat).toNat = val.toNat := by
        rw [UInt8.toNat_ofNat']
        omega
      refine ⟨[], UInt8.ofNat val.toNat, encode_varint_last val small, by simp, ?_, ?_⟩
      · rw [continues_iff, byte]
        omega
      · rw [List.nil_append, base128_cons, byte, base128_nil, Nat.mod_eq_of_lt small]
        rfl

theorem encode_varint_length (n : Nat) (val : UInt32) (below : val.toNat < 128 ^ (n + 1)) :
    (encodeVarint val).length ≤ n + 1 := by
  induction n generalizing val with
  | zero =>
      exact Nat.le_of_eq (by rw [encode_varint_last val below, List.length_singleton])
  | succ n ih =>
      by_cases small : val.toNat < 128
      · rw [encode_varint_last val small, List.length_singleton]
        omega
      · have next : (val / 128).toNat < 128 ^ (n + 1) := by
          rw [UInt32.toNat_div]
          exact Nat.div_lt_of_lt_mul (Nat.mul_comm _ _ ▸ below)
        rw [encode_varint_more val (Nat.not_lt.mp small), List.length_cons]
        exact Nat.succ_le_succ (ih _ next)

theorem decode_encode_varint (val : UInt32) (rest : Bytes) (fits : val.toNat < 2 ^ 28) :
    decodeVarint (encodeVarint val ++ rest) = .ok (val, (encodeVarint val).length) := by
  have four := encode_varint_length 3 val (by omega)
  obtain ⟨lead, last, written, continued, ends, value⟩ := encode_varint_shape val
  rw [written, List.length_append, List.length_singleton] at four
  rw [decode_varint_ok_shape, written]
  exact ⟨lead, last, rest, by simp, by omega, continued, ends, by simp, value.symm⟩

theorem encode_varint_overlong (val : UInt32) (rest : Bytes) (large : 2 ^ 28 ≤ val.toNat) :
    decodeVarint (encodeVarint val ++ rest) = .err .invalidVarint := by
  obtain ⟨lead, last, written, continued, _, value⟩ := encode_varint_shape val
  have long : 4 ≤ lead.length := by
    by_contra short
    have bound := base128_bound (lead ++ [last])
    have power : 128 ^ (lead.length + 1) ≤ 128 ^ 4 := Nat.pow_le_pow_right (by decide) (by omega)
    rw [value, List.length_append, List.length_singleton] at bound
    omega
  rw [written, List.append_assoc]
  refine decode_varint_overlong _ (by rw [List.length_append]; omega) (fun byte member => continued byte ?_)
  rw [List.take_append_of_le_length long] at member
  exact List.mem_of_mem_take member

theorem decoded_varint_length (buf : Bytes) (val smaller : UInt32) (read : Nat)
    (decoded : decodeVarint buf = .ok (val, read)) (below : smaller.toNat ≤ val.toNat) :
    (encodeVarint smaller).length ≤ read := by
  have bound := decode_varint_value buf val read decoded
  obtain ⟨n, rfl⟩ := Nat.exists_eq_succ_of_ne_zero (Nat.ne_of_gt (decode_varint_ok buf val read decoded).1)
  exact encode_varint_length n smaller (Nat.lt_of_le_of_lt below bound)

theorem decode_varint_incomplete_iff (buf : Bytes) :
    decodeVarint buf = .err .incomplete ↔ buf.length < 4 ∧ ∀ byte ∈ buf, Continues byte := by
  refine ⟨fun decoded => ?_, fun short => decode_varint_incomplete buf short.1 short.2⟩
  cases varint_shape buf with
  | short length continued => exact ⟨length, continued⟩
  | overlong length continued => simp [decode_varint_overlong buf length continued] at decoded
  | whole lead rest last bytes atMost continued ends =>
      obtain ⟨val, decodes, _⟩ := decode_varint_whole lead rest last atMost continued ends
      simp [bytes, decodes] at decoded

theorem decode_varint_invalid_iff (buf : Bytes) :
    decodeVarint buf = .err .invalidVarint ↔ 4 ≤ buf.length ∧ ∀ byte ∈ buf.take 4, Continues byte := by
  refine ⟨fun decoded => ?_, fun long => decode_varint_overlong buf long.1 long.2⟩
  cases varint_shape buf with
  | short length continued => simp [decode_varint_incomplete buf length continued] at decoded
  | overlong length continued => exact ⟨length, continued⟩
  | whole lead rest last bytes atMost continued ends =>
      obtain ⟨val, decodes, _⟩ := decode_varint_whole lead rest last atMost continued ends
      simp [bytes, decodes] at decoded

-- encode_varint writes the shortest slice that has the value, and decode_varint is
-- exact on every slice: two errors, each for one shape, and else the value read off
-- the bytes. A u32 sum or product past its width would be a panic of the model.
theorem varint_exact :
    (∀ (val : UInt32) (suffix : Bytes), val.toNat < 2 ^ 28 →
      decodeVarint (encodeVarint val ++ suffix) = .ok (val, (encodeVarint val).length) ∧
        1 ≤ (encodeVarint val).length ∧ (encodeVarint val).length ≤ 4 ∧
        ∀ (shorter : Bytes) (read : Nat), shorter.length < (encodeVarint val).length →
          decodeVarint shorter ≠ .ok (val, read)) ∧
    (∀ (val : UInt32) (suffix : Bytes), 2 ^ 28 ≤ val.toNat →
      decodeVarint (encodeVarint val ++ suffix) = .err .invalidVarint) ∧
    ∀ buf : Bytes,
      (decodeVarint buf = .err .incomplete ↔ buf.length < 4 ∧ ∀ byte ∈ buf, byte &&& 128 ≠ 0) ∧
      (decodeVarint buf = .err .invalidVarint ↔ 4 ≤ buf.length ∧ ∀ byte ∈ buf.take 4, byte &&& 128 ≠ 0) ∧
      (decodeVarint buf ≠ .err .incomplete → decodeVarint buf ≠ .err .invalidVarint →
        ∃ lead last rest val, buf = lead ++ last :: rest ∧ (∀ byte ∈ lead, byte &&& 128 ≠ 0) ∧ last &&& 128 = 0 ∧
          decodeVarint buf = .ok (val, (lead ++ [last]).length) ∧ val.toNat = base128 (lead ++ [last])) ∧
      decodeVarint buf ≠ .panic := by
  refine ⟨fun val suffix fits => ?_, encode_varint_overlong, fun buf => ?_⟩
  · have decoded := decode_encode_varint val suffix fits
    obtain ⟨positive, atMost, _⟩ := decode_varint_ok _ _ _ decoded
    refine ⟨decoded, positive, atMost, fun shorter read less same => ?_⟩
    have needed := decoded_varint_length shorter val val read same (Nat.le_refl _)
    have within := (decode_varint_ok shorter val read same).2.2.1
    omega
  · refine ⟨decode_varint_incomplete_iff buf, decode_varint_invalid_iff buf, fun whole valid => ?_,
      decode_varint_no_panic buf⟩
    cases varint_shape buf with
    | short length continued => exact absurd (decode_varint_incomplete buf length continued) whole
    | overlong length continued => exact absurd (decode_varint_overlong buf length continued) valid
    | whole lead rest last bytes atMost continued ends =>
        obtain ⟨val, decoded, value⟩ := decode_varint_whole lead rest last atMost continued ends
        refine ⟨lead, last, rest, val, bytes, continued, not_not.mp ends, ?_, value⟩
        rw [bytes, decoded, List.length_append, List.length_singleton]

end Pipistrelle.Codec
