import Pipistrelle.Codec.PacketCodec

set_option autoImplicit false

/- What decode_packet does before its match: the fixed header, the remaining
   length and the cut of the payload slice. Everything after the frame is out of
   reach of the packet decoders. -/
namespace Pipistrelle.Codec

open Outcome

-- The first byte and a whole remaining-length varint are in the buffer. The
-- payload slice is the next val bytes after the 1 + read bytes of the header.
structure HeaderAt (buf : Bytes) (header : UInt8) (val : UInt32) (read : Nat) (body : Bytes) : Prop where
  bytes : ∃ tail, buf = header :: tail ∧ decodeVarint tail = .ok (val, read) ∧ body = tail.drop read

theorem header_at_bounds (buf : Bytes) (header : UInt8) (val : UInt32) (read : Nat) (body : Bytes)
    (headed : HeaderAt buf header val read body) :
    0 < read ∧ read ≤ 4 ∧ val.toNat < 2 ^ 28 ∧ buf.length = 1 + read + body.length := by
  obtain ⟨tail, rfl, decoded, rfl⟩ := headed.bytes
  have bounds := decode_varint_ok tail val read decoded
  simp only [List.length_cons, List.length_drop]
  omega

theorem header_at_append (buf suffix : Bytes) (header : UInt8) (val : UInt32) (read : Nat) (body : Bytes)
    (headed : HeaderAt buf header val read body) : HeaderAt (buf ++ suffix) header val read (body ++ suffix) := by
  obtain ⟨tail, rfl, decoded, rfl⟩ := headed.bytes
  have within := (decode_varint_ok tail val read decoded).2.2.1
  refine ⟨tail ++ suffix, rfl, ?_, (List.drop_append_of_le_length within).symm⟩
  rw [decode_varint_append tail suffix (by simp [decoded]), decoded]

theorem decode_packet_nil : decodePacket [] = .err .incomplete := rfl

theorem decode_packet_bad_varint (header : UInt8) (tail : Bytes) (error : CodecError)
    (failed : decodeVarint tail = .err error) : decodePacket (header :: tail) = .err error := by
  simp [decodePacket, failed]

theorem decode_packet_short (buf : Bytes) (header : UInt8) (val : UInt32) (read : Nat) (body : Bytes)
    (headed : HeaderAt buf header val read body) (short : body.length < val.toNat) :
    decodePacket buf = .err .incomplete := by
  obtain ⟨tail, rfl, decoded, rfl⟩ := headed.bytes
  have within := (decode_varint_ok tail val read decoded).2.2.1
  simp only [decodePacket, read_u8_cons, ok_bind, decoded, slice_from_within _ _ within, if_pos short]

theorem decode_packet_frame (buf : Bytes) (header : UInt8) (val : UInt32) (read : Nat) (body : Bytes)
    (headed : HeaderAt buf header val read body) (whole : val.toNat ≤ body.length) :
    decodePacket buf = (decodePayload (header >>> 4) (header &&& 0x0F) (body.take val.toNat) >>=
      fun packet => pure (packet, 1 + read + val.toNat)) := by
  have bounds := header_at_bounds buf header val read body headed
  obtain ⟨tail, rfl, decoded, rfl⟩ := headed.bytes
  have within := (decode_varint_ok tail val read decoded).2.2.1
  have consumed : (header :: tail).length - (tail.drop read).length = 1 + read := by omega
  simp only [decodePacket, read_u8_cons, ok_bind, decoded, slice_from_within _ _ within,
    slice_to_within _ _ whole]
  rw [if_neg (by omega), sub_word_fits _ _ (by omega), ok_bind, consumed, add_word_fits _ _ _ (by omega), ok_bind]

inductive Framing (buf : Bytes) : Prop where
  | empty (nil : buf = [])
  | badVarint (header : UInt8) (tail : Bytes) (error : CodecError) (eq : buf = header :: tail)
      (failed : decodeVarint tail = .err error)
  | short (header : UInt8) (val : UInt32) (read : Nat) (body : Bytes) (headed : HeaderAt buf header val read body)
      (cut : body.length < val.toNat)
  | frame (header : UInt8) (val : UInt32) (read : Nat) (body : Bytes) (headed : HeaderAt buf header val read body)
      (whole : val.toNat ≤ body.length)

theorem framing_cases (buf : Bytes) : Framing buf := by
  cases buf with
  | nil => exact .empty rfl
  | cons header tail =>
      cases decoded : decodeVarint tail with
      | panic => exact absurd decoded (decode_varint_no_panic tail)
      | err error => exact .badVarint header tail error rfl decoded
      | ok result =>
          obtain ⟨val, read⟩ := result
          have headed : HeaderAt (header :: tail) header val read (tail.drop read) := ⟨tail, rfl, decoded, rfl⟩
          by_cases cut : (tail.drop read).length < val.toNat
          · exact .short header val read _ headed cut
          · exact .frame header val read _ headed (Nat.not_lt.mp cut)

theorem decode_frame_append (buf suffix : Bytes) (header : UInt8) (val : UInt32) (read : Nat) (body : Bytes)
    (headed : HeaderAt buf header val read body) (whole : val.toNat ≤ body.length) :
    decodePacket (buf ++ suffix) = decodePacket buf := by
  have extended := header_at_append buf suffix header val read body headed
  have still : val.toNat ≤ (body ++ suffix).length := Nat.le_trans whole (by simp)
  rw [decode_packet_frame buf header val read body headed whole,
    decode_packet_frame _ header val read _ extended still, List.take_append_of_le_length whole]

theorem decode_packet_append (buf suffix : Bytes) (decided : decodePacket buf ≠ .err .incomplete) :
    decodePacket (buf ++ suffix) = decodePacket buf := by
  cases framing_cases buf with
  | empty nil => exact absurd (nil ▸ decode_packet_nil) decided
  | badVarint header tail error eq failed =>
      subst eq
      have complete : decodeVarint tail ≠ .err .incomplete := by
        intro incomplete
        exact decided (decode_packet_bad_varint header tail _ incomplete)
      rw [decode_packet_bad_varint header tail error failed, List.cons_append]
      exact decode_packet_bad_varint header _ error ((decode_varint_append tail suffix complete).trans failed)
  | short header val read body headed cut => exact absurd (decode_packet_short buf header val read body headed cut) decided
  | frame header val read body headed whole => exact decode_frame_append buf suffix header val read body headed whole

theorem decode_packet_ok_iff (buf : Bytes) (packet : Packet) (bytesRead : Nat) :
    decodePacket buf = .ok (packet, bytesRead) ↔
      ∃ header val read body, HeaderAt buf header val read body ∧ val.toNat ≤ body.length ∧
        decodePayload (header >>> 4) (header &&& 0x0F) (body.take val.toNat) = .ok packet ∧
          bytesRead = 1 + read + val.toNat := by
  constructor
  · intro decoded
    cases framing_cases buf with
    | empty nil => simp [nil, decode_packet_nil] at decoded
    | badVarint header tail error eq failed => simp [eq, decode_packet_bad_varint header tail error failed] at decoded
    | short header val read body headed cut => simp [decode_packet_short buf header val read body headed cut] at decoded
    | frame header val read body headed whole =>
        rw [decode_packet_frame buf header val read body headed whole] at decoded
        obtain ⟨_, completed, eq⟩ := (bind_ok_iff _ _ _).mp decoded
        cases eq
        exact ⟨header, val, read, body, headed, whole, completed, rfl⟩
  · intro ⟨header, val, read, body, headed, whole, completed, total⟩
    rw [decode_packet_frame buf header val read body headed whole, completed, total]
    rfl

theorem decode_packet_consumes (buf : Bytes) (packet : Packet) (bytesRead : Nat)
    (decoded : decodePacket buf = .ok (packet, bytesRead)) : 2 ≤ bytesRead ∧ bytesRead ≤ buf.length := by
  obtain ⟨header, val, read, body, headed, whole, _, total⟩ := (decode_packet_ok_iff buf packet bytesRead).mp decoded
  have bounds := header_at_bounds buf header val read body headed
  omega

end Pipistrelle.Codec
