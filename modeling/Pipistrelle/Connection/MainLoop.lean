import Pipistrelle.Codec.Framing
import Pipistrelle.Lib.ChunkedDecode

set_option autoImplicit false

/- The main loop of handle_connection: read, then decode and process packets until
   the decoder asks for more. The keep-alive timer is an outcome of the read, and
   update_activity, which only sets a clock, is left out. -/
namespace Pipistrelle.Connection

open Outcome Codec ChunkedDecode

-- What timeout(keep_alive_duration, read_buf) returns. A read of no bytes is the
-- peer's end of stream.
inductive ReadResult where
  | bytes (chunk : Bytes)
  | failed
  | timedOut
deriving DecidableEq, Repr

-- How the loop ends. The last two are panics of the connection task.
inductive Exit (ε : Type) where
  | closed
  | keepAliveExpired
  | tcp
  | codec (error : CodecError)
  | process (error : ε)
  | decoderPanic
  | advancePanic
deriving DecidableEq, Repr

abbrev LoopState (ε σ : Type) := Progress UInt8 Packet (Exit ε) σ

variable {ε σ : Type}

section Loop

-- process_client_packet, over whatever state it changes.
variable (process : σ → Packet → σ × Option ε)

def innerLoop (world : σ) (handed : List Packet) (readBuf : Bytes) : LoopState ε σ :=
  match _decoded : decodePacket readBuf with
  | .ok (packet, bytesRead) =>
      match process world packet with
      | (world, some error) => ⟨world, handed ++ [packet], .stopped (.process error)⟩
      | (world, none) =>
          if _within : bytesRead ≤ readBuf.length then innerLoop world (handed ++ [packet]) (readBuf.drop bytesRead)
          else ⟨world, handed ++ [packet], .stopped .advancePanic⟩
  | .err .incomplete => ⟨world, handed, .waiting readBuf⟩
  | .err error => ⟨world, handed, .stopped (.codec error)⟩
  | .panic => ⟨world, handed, .stopped .decoderPanic⟩
termination_by readBuf.length
decreasing_by
  have bounds := decode_packet_consumes readBuf packet bytesRead _decoded
  rw [List.length_drop]
  omega

def readStep (state : LoopState ε σ) (read : ReadResult) : LoopState ε σ :=
  match state.status with
  | .stopped _ => state
  | .waiting readBuf =>
      match read with
      | .bytes [] => { state with status := .stopped .closed }
      | .bytes (byte :: tail) => innerLoop process state.world state.handed (readBuf ++ byte :: tail)
      | .failed => { state with status := .stopped .tcp }
      | .timedOut => { state with status := .stopped .keepAliveExpired }

def mainLoop (world : σ) (readBuf : Bytes) (reads : List ReadResult) : LoopState ε σ :=
  reads.foldl (readStep process) ⟨world, [], .waiting readBuf⟩

end Loop

def decidePacket (buf : Bytes) : Decision Packet (Exit ε) :=
  match decodePacket buf with
  | .ok (packet, bytesRead) => .item packet bytesRead
  | .err .incomplete => .more
  | .err error => .fail (.codec error)
  | .panic => .fail .decoderPanic

theorem decide_packet_more (buf : Bytes) (waits : decodePacket buf = .err .incomplete) :
    (decidePacket buf : Decision Packet (Exit ε)) = .more := by
  simp [decidePacket, waits]

theorem decide_packet_item_iff (buf : Bytes) (packet : Packet) (bytesRead : Nat) :
    (decidePacket buf : Decision Packet (Exit ε)) = .item packet bytesRead ↔
      decodePacket buf = .ok (packet, bytesRead) := by
  unfold decidePacket
  split <;> simp_all

def packetDecoder : Decoder UInt8 Packet (Exit ε) where
  decode := decidePacket
  consumes buf packet bytesRead item := by
    have bounds := decode_packet_consumes buf packet bytesRead ((decide_packet_item_iff _ _ _).mp item)
    omega
  stable buf suffix decided := by
    have complete : decodePacket buf ≠ .err .incomplete := fun waits => decided (decide_packet_more buf waits)
    simp only [decidePacket, decode_packet_append buf suffix complete]

section Refinement

variable (process : σ → Packet → σ × Option ε)

def processStep (world : σ) (packet : Packet) : σ × Option (Exit ε) :=
  ((process world packet).1, (process world packet).2.map Exit.process)

-- The inner loop is the library's loop over this decoder; the check of advance never fails.
theorem inner_loop_drain (world : σ) (handed : List Packet) (readBuf : Bytes) :
    innerLoop process world handed readBuf = drain packetDecoder (processStep process) world handed readBuf := by
  rw [innerLoop]
  split
  · rename_i packet bytesRead decoded
    have bounds := decode_packet_consumes readBuf packet bytesRead decoded
    rw [drain_item _ _ _ _ _ packet bytesRead ((decide_packet_item_iff _ _ _).mpr decoded)]
    have step : processStep process world packet =
        ((process world packet).1, (process world packet).2.map Exit.process) := rfl
    rw [step]
    obtain ⟨next, failure⟩ := process world packet
    cases failure with
    | some error => rfl
    | none =>
        simp only [Option.map_none]
        rw [dif_pos bounds.2]
        exact inner_loop_drain next (handed ++ [packet]) (readBuf.drop bytesRead)
  · rename_i waits
    exact (drain_more _ _ _ _ _ (decide_packet_more readBuf waits)).symm
  · rename_i error complete failed
    have decided : (packetDecoder : Decoder UInt8 Packet (Exit ε)).decode readBuf = .fail (.codec error) := by
      simp only [packetDecoder, decidePacket, failed]
    exact (drain_fail _ _ _ _ _ _ decided).symm
  · rename_i panics
    have decided : (packetDecoder : Decoder UInt8 Packet (Exit ε)).decode readBuf = .fail .decoderPanic := by
      simp only [packetDecoder, decidePacket, panics]
    exact (drain_fail _ _ _ _ _ _ decided).symm
termination_by readBuf.length
decreasing_by
  rw [List.length_drop]
  omega

theorem inner_loop_waiting (world : σ) (handed : List Packet) (readBuf unread : Bytes)
    (waits : (innerLoop process world handed readBuf).status = .waiting unread) :
    decodePacket unread = .err .incomplete := by
  rw [inner_loop_drain] at waits
  have more := drain_waiting _ _ world handed readBuf unread waits
  simp only [packetDecoder, decidePacket] at more
  split at more <;> simp_all

theorem inner_loop_incomplete (world : σ) (handed : List Packet) (readBuf : Bytes)
    (incomplete : decodePacket readBuf = .err .incomplete) :
    innerLoop process world handed readBuf = ⟨world, handed, .waiting readBuf⟩ := by
  rw [inner_loop_drain]
  exact drain_more _ _ _ _ _ (decide_packet_more readBuf incomplete)

theorem read_step_feed (state : LoopState ε σ) (chunk : Bytes) (nonempty : chunk ≠ []) :
    readStep process state (.bytes chunk) = feed packetDecoder (processStep process) state chunk := by
  cases status : state.status with
  | stopped error => simp only [readStep, feed, status]
  | waiting readBuf =>
      cases chunk with
      | nil => exact absurd rfl nonempty
      | cons byte tail => simp only [readStep, feed, status, inner_loop_drain]

theorem reads_feed (state : LoopState ε σ) (chunks : List Bytes) (nonempty : ∀ chunk ∈ chunks, chunk ≠ []) :
    (chunks.map ReadResult.bytes).foldl (readStep process) state =
      chunks.foldl (feed packetDecoder (processStep process)) state := by
  induction chunks generalizing state with
  | nil => rfl
  | cons chunk tail ih =>
      rw [List.map_cons, List.foldl_cons, List.foldl_cons, read_step_feed process state chunk (nonempty chunk (by simp))]
      exact ih _ (fun other member => nonempty other (by simp [member]))

theorem main_loop_drain (world : σ) (readBuf : Bytes) (chunks : List Bytes) (nonempty : ∀ chunk ∈ chunks, chunk ≠ []) :
    mainLoop process world readBuf (chunks.map .bytes) =
      if chunks = [] then ⟨world, [], .waiting readBuf⟩
      else drain packetDecoder (processStep process) world [] (readBuf ++ chunks.flatten) := by
  unfold mainLoop
  rw [reads_feed process _ chunks nonempty]
  cases chunks with
  | nil => rfl
  | cons chunk later =>
      rw [if_neg (by simp), feed_chunks]
      rfl

theorem inner_loop_advances (world : σ) (handed : List Packet) (readBuf : Bytes) :
    (innerLoop process world handed readBuf).status ≠ .stopped .advancePanic := by
  intro overran
  rw [inner_loop_drain] at overran
  refine drain_stopped_cause packetDecoder (processStep process) (· ≠ Exit.advancePanic) ?_ ?_ world handed readBuf _
    overran rfl
  · intro buf error failed
    simp only [packetDecoder, decidePacket] at failed
    split at failed <;> cases failed <;> simp
  · intro world packet error failed
    obtain ⟨cause, _, rfl⟩ := Option.map_eq_some_iff.mp failed
    simp

theorem read_step_advances (state : LoopState ε σ) (read : ReadResult)
    (before : state.status ≠ .stopped .advancePanic) :
    (readStep process state read).status ≠ .stopped .advancePanic := by
  cases status : state.status with
  | stopped exit =>
      simp only [readStep, status] at before ⊢
      exact before
  | waiting readBuf =>
      match read with
      | .bytes [] | .failed | .timedOut => simp [readStep, status]
      | .bytes (byte :: tail) =>
          simp only [readStep, status]
          exact inner_loop_advances process _ _ _

theorem main_loop_advances (world : σ) (readBuf : Bytes) (reads : List ReadResult) :
    (mainLoop process world readBuf reads).status ≠ .stopped .advancePanic := by
  have run : ∀ (reads : List ReadResult) (state : LoopState ε σ), state.status ≠ .stopped .advancePanic →
      (reads.foldl (readStep process) state).status ≠ .stopped .advancePanic := by
    intro reads
    induction reads with
    | nil => exact fun _ before => before
    | cons read tail ih => exact fun state before => ih _ (read_step_advances process state read before)
  exact run reads _ (by simp)

theorem main_loop_division (world : σ) (first second : List Bytes) (same : first.flatten = second.flatten)
    (firstSome : ∀ chunk ∈ first, chunk ≠ []) (secondSome : ∀ chunk ∈ second, chunk ≠ []) :
    mainLoop process world [] (first.map .bytes) = mainLoop process world [] (second.map .bytes) ∧
      (mainLoop process world [] (first.map .bytes)).status ≠ .stopped .advancePanic ∧
      ∀ readBuf packet bytesRead, decodePacket readBuf = .ok (packet, bytesRead) →
        2 ≤ bytesRead ∧ bytesRead ≤ readBuf.length := by
  refine ⟨?_, main_loop_advances process world [] _, decode_packet_consumes⟩
  unfold mainLoop
  rw [reads_feed process _ first firstSome, reads_feed process _ second secondSome]
  exact feed_division _ _ _ first second same firstSome secondSome

end Refinement

theorem two_pings_division :
    mainLoop (fun count _ => (count + 1, (none : Option Unit))) 0 [] [.bytes [0xC0, 0x00, 0xC0, 0x00]] =
        mainLoop (fun count _ => (count + 1, none)) 0 [] [.bytes [0xC0, 0x00, 0xC0], .bytes [0x00]] ∧
      (mainLoop (fun count _ => (count + 1, (none : Option Unit))) 0 [] [.bytes [0xC0, 0x00, 0xC0, 0x00]]).status ≠
        .stopped .advancePanic ∧
      ∀ readBuf packet bytesRead, decodePacket readBuf = .ok (packet, bytesRead) →
        2 ≤ bytesRead ∧ bytesRead ≤ readBuf.length :=
  main_loop_division (fun count _ => (count + 1, none)) 0 [[0xC0, 0x00, 0xC0, 0x00]] [[0xC0, 0x00, 0xC0], [0x00]]
    rfl (by simp) (by simp)

end Pipistrelle.Connection
