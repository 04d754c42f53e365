import Pipistrelle.Codec.Overrun
import Pipistrelle.Connection.MainLoop

set_option autoImplicit false

/- The read loop on a frame that has arrived as a whole. It waits for more data
   exactly where a field of the packet overruns the frame. -/
namespace Pipistrelle.Connection

open Codec ChunkedDecode

variable {ε σ : Type} (process : σ → Packet → σ × Option ε)

-- A whole frame that decode_packet asks more bytes for is never decoded: every
-- later read is appended behind it and waits.
theorem stalled_frame_blocks (world : σ) (handed : List Packet) (buf : Bytes) (header : UInt8) (remainingLen : UInt32)
    (read : Nat) (body : Bytes) (headed : HeaderAt buf header remainingLen read body)
    (whole : remainingLen.toNat ≤ body.length) (stalls : decodePacket buf = .err .incomplete) (chunks : List Bytes)
    (nonempty : ∀ chunk ∈ chunks, chunk ≠ []) :
    (chunks.map ReadResult.bytes).foldl (readStep process) ⟨world, handed, .waiting buf⟩ =
      ⟨world, handed, .waiting (buf ++ chunks.flatten)⟩ := by
  induction chunks generalizing buf body with
  | nil => simp
  | cons chunk tail ih =>
      have extended := header_at_append buf chunk header remainingLen read body headed
      have still := (decode_frame_append buf chunk header remainingLen read body headed whole).trans stalls
      have step : readStep process (⟨world, handed, .waiting buf⟩ : LoopState ε σ) (.bytes chunk) =
          ⟨world, handed, .waiting (buf ++ chunk)⟩ := by
        cases chunk with
        | nil => exact absurd rfl (nonempty [] (by simp))
        | cons byte rest => exact inner_loop_incomplete process world handed _ still
      rw [List.map_cons, List.foldl_cons, step, List.flatten_cons, ← List.append_assoc]
      exact ih _ _ extended (Nat.le_trans whole (by simp)) still (fun other member => nonempty other (by simp [member]))

theorem whole_frame_answered_iff (world : σ) (handed : List Packet) (buf : Bytes) (header : UInt8)
    (remainingLen : UInt32) (read : Nat) (body : Bytes) (headed : HeaderAt buf header remainingLen read body)
    (whole : remainingLen.toNat ≤ body.length) :
    (((∃ decoded, decodePacket buf = .ok decoded) ∨ ∃ error, error ≠ .incomplete ∧ decodePacket buf = .err error) ∧
        (innerLoop process world handed buf).status ≠ .waiting buf) ↔
      ¬FieldOverruns (header >>> 4) (header &&& 0x0F) (body.take remainingLen.toNat) := by
  rw [answered_iff, decode_frame_starved_iff buf header remainingLen read body headed whole]
  refine and_iff_left_of_imp ?_
  intro fits waits
  have incomplete := inner_loop_waiting process world handed buf buf waits
  exact fits ((decode_frame_starved_iff buf header remainingLen read body headed whole).mp (.inl incomplete))

theorem whole_ping_answered :
    (((∃ decoded, decodePacket [0xC0, 0x00] = .ok decoded) ∨
        ∃ error, error ≠ .incomplete ∧ decodePacket [0xC0, 0x00] = .err error) ∧
        (innerLoop (fun count _ => (count + 1, (none : Option Unit))) 0 [] [0xC0, 0x00]).status ≠
          .waiting [0xC0, 0x00]) ↔
      ¬FieldOverruns ((0xC0 : UInt8) >>> 4) ((0xC0 : UInt8) &&& 0x0F) [] :=
  whole_frame_answered_iff (fun count _ => (count + 1, (none : Option Unit))) 0 [] [0xC0, 0x00] 0xC0 0 1 []
    ⟨[0x00], rfl, by decide, rfl⟩ (by decide)

theorem cut_topic_waits :
    HeaderAt [0x30, 0x02, 0xFF, 0xFF] 0x30 2 1 [0xFF, 0xFF] ∧ (2 : UInt32).toNat ≤ [0xFF, 0xFF].length ∧
      decodePacket [0x30, 0x02, 0xFF, 0xFF] = .err .incomplete :=
  ⟨⟨[0x02, 0xFF, 0xFF], rfl, by decide, rfl⟩, by decide, by decide⟩

end Pipistrelle.Connection
