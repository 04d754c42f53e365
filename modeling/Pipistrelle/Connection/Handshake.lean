import Pipistrelle.Broker.Frame
import Pipistrelle.Broker.Connect
import Pipistrelle.Codec.RoundTrip
import Pipistrelle.Connection.MainLoop

set_option autoImplicit false

/- handle_connection of src/main.rs: one read for the CONNECT, then the main loop,
   which gets the bytes behind the CONNECT and reads before it decodes them. -/
namespace Pipistrelle.Connection

open Outcome Codec ChunkedDecode Broker

-- Why handle_connection ends before there is a session. The last two are panics.
inductive Refusal where
  | noData
  | notConnect (other : Packet)
  | codec (error : CodecError)
  | badCredentials
  | decoderPanic
  | advancePanic
deriving DecidableEq, Repr

-- What it writes to a client it refuses goes to the socket directly.
inductive Handling where
  | waiting
  | refused (reason : Refusal) (written : List Bytes)
  | serving (clientId : String) (session : SessionRef) (loop : LoopState String BrokerState)

def readConnect : ReadResult → Except Refusal (Connect × Bytes)
  | .bytes (byte :: tail) =>
      match decodePacket (byte :: tail) with
      | .ok (.connect pkt, bytesRead) =>
          if bytesRead ≤ (byte :: tail).length then .ok (pkt, (byte :: tail).drop bytesRead) else .error .advancePanic
      | .ok (other, _) => .error (.notConnect other)
      | .err error => .error (.codec error)
      | .panic => .error .decoderPanic
  | .bytes [] | .failed | .timedOut => .error .noData

def serve (session : SessionRef) (broker : BrokerState) (packet : Packet) : BrokerState × Option String :=
  processClientPacket broker session packet

def handleConnection (verifyPassword : String → String → Bool) (broker : BrokerState) : List ReadResult → Handling
  | [] => .waiting
  | read :: reads =>
      match readConnect read with
      | .error reason => .refused reason []
      | .ok (pkt, readBuf) =>
          if authenticated verifyPassword broker.auth pkt then
            let opened := broker.openConnection pkt
            .serving pkt.clientId opened.2 (mainLoop (serve opened.2) opened.1 readBuf reads)
          else .refused .badCredentials [encodePacket (connAckReply 0x86)]

-- The broker as handle_connection leaves it: a loop that ends is followed by the cleanup.
def Handling.broker (before : BrokerState) : Handling → BrokerState
  | .waiting | .refused _ _ => before
  | .serving clientId session loop =>
      match loop.status with
      | .waiting _ | .stopped .decoderPanic | .stopped .advancePanic => loop.world
      | .stopped _ => loop.world.closeConnection clientId session

structure WireFrame where
  packet : Packet
  bytes : Bytes
  whole : decodePacket bytes = .ok (packet, bytes.length)

def encodedFrame (packet : Packet) (encodable : packet.Encodable) : WireFrame where
  packet := packet
  bytes := encodePacket packet
  whole := by
    have decoded := decode_encoded_frame packet [] encodable.2
    rw [decode_encode_payload packet encodable, List.append_nil] at decoded
    exact decoded

theorem wire_frame_decodes (frame : WireFrame) (suffix : Bytes) :
    decodePacket (frame.bytes ++ suffix) = .ok (frame.packet, frame.bytes.length) := by
  rw [decode_packet_append _ _ (by rw [frame.whole]; simp), frame.whole]

theorem wire_frame_prefix (frame : WireFrame) (front back : Bytes) (nonempty : back ≠ []) (same : frame.bytes = front ++ back) :
    decodePacket front = .err .incomplete := by
  have whole := frame.whole
  rw [same] at whole
  have item := (decide_packet_item_iff (ε := Unit) _ _ _).mpr whole
  have more := decode_prefix (packetDecoder : Decoder UInt8 Packet (Exit Unit)) front back frame.packet nonempty item
  simp only [packetDecoder, decidePacket] at more
  split at more <;> simp_all

theorem process_accepts (state : BrokerState) (session : SessionRef) (packet : Packet)
    (other : ∀ pkt, packet ≠ .connect pkt) : (processClientPacket state session packet).2 = none := by
  unfold processClientPacket
  split
  · rfl
  · cases packet with
    | connect pkt => exact absurd rfl (other pkt)
    | connAck _ | publish _ | pubAck _ | subscribe _ | subAck _ | pingReq | pingResp | disconnect _ => rfl

theorem serve_sessions (session : SessionRef) (world : BrokerState) (frames : List WireFrame) :
    (frames.foldl (fun world frame => (serve session world frame.packet).1) world).sessions = world.sessions := by
  induction frames generalizing world with
  | nil => rfl
  | cons frame rest ih =>
      rw [List.foldl_cons, ih]
      exact (process_client_packet_evolves world session frame.packet).sessions

theorem frames_decode {ε : Type} (frames : List WireFrame) :
    ∀ item ∈ frames.map fun frame => (frame.packet, frame.bytes),
      (packetDecoder : Decoder UInt8 Packet (Exit ε)).decode item.2 = .item item.1 item.2.length := by
  intro item member
  obtain ⟨frame, _, same⟩ := List.mem_map.mp member
  subst same
  exact (decide_packet_item_iff _ _ _).mpr frame.whole

theorem drain_frames (session : SessionRef) (world : BrokerState) (frames : List WireFrame)
    (others : ∀ frame ∈ frames, ∀ pkt, frame.packet ≠ .connect pkt) :
    drain packetDecoder (processStep (serve session)) world [] (frames.flatMap (·.bytes)) =
      ⟨frames.foldl (fun world frame => (serve session world frame.packet).1) world, frames.map (·.packet),
        .waiting []⟩ := by
  have drained := drain_items packetDecoder (processStep (serve session)) world []
    (frames.map fun frame => (frame.packet, frame.bytes)) (decide_packet_more [] decode_packet_nil)
    (frames_decode frames)
    (by
      intro item member world
      obtain ⟨frame, framed, same⟩ := List.mem_map.mp member
      subst same
      exact Option.map_eq_none_iff.mpr (process_accepts world session frame.packet (others frame framed)))
  simp only [List.flatMap_map, List.foldl_map, List.map_map, List.nil_append] at drained
  exact drained

def Served (broker : BrokerState) (pkt : Connect) (packets : List Packet) (handling : Handling) : Prop :=
  ∃ session loop, handling = .serving pkt.clientId session loop ∧
    (handling.broker broker).sessions.get pkt.clientId = some session ∧ loop.handed = packets

theorem read_connect_whole (first : WireFrame) (pkt : Connect) (isConnect : first.packet = .connect pkt)
    (leftover : Bytes) : readConnect (.bytes (first.bytes ++ leftover)) = .ok (pkt, leftover) := by
  have decoded := wire_frame_decodes first leftover
  rw [isConnect] at decoded
  have nonempty : first.bytes ++ leftover ≠ [] := by
    intro nil
    rw [nil, decode_packet_nil] at decoded
    cases decoded
  have within : first.bytes.length ≤ (first.bytes ++ leftover).length := by simp
  obtain ⟨byte, tail, same⟩ := List.exists_cons_of_ne_nil nonempty
  have dropped : (first.bytes ++ leftover).drop first.bytes.length = leftover := List.drop_left
  rw [same] at decoded within dropped ⊢
  simp only [readConnect, decoded, if_pos within, dropped]

theorem read_connect_cut (first : WireFrame) (read back : Bytes) (nonempty : back ≠ []) (same : first.bytes = read ++ back) :
    ∃ reason, readConnect (.bytes read) = .error reason := by
  have incomplete := wire_frame_prefix first read back nonempty same
  cases read with
  | nil => exact ⟨.noData, rfl⟩
  | cons byte tail => exact ⟨.codec .incomplete, by simp only [readConnect, incomplete]⟩

-- What the loop has done once the reads behind the CONNECT's are delivered. With
-- none of them, the bytes left over from the CONNECT's read are never decoded.
theorem main_loop_after_connect (session : SessionRef) (world : BrokerState) (leftover : Bytes) (rest : List WireFrame)
    (others : ∀ frame ∈ rest, ∀ pkt, frame.packet ≠ .connect pkt) (more : List Bytes)
    (nonempty : ∀ read ∈ more, read ≠ []) (delivered : leftover ++ more.flatten = rest.flatMap (·.bytes)) :
    mainLoop (serve session) world leftover (more.map .bytes) =
      if more = [] then ⟨world, [], .waiting leftover⟩
      else ⟨rest.foldl (fun world frame => (serve session world frame.packet).1) world, rest.map (·.packet),
        .waiting []⟩ := by
  rw [main_loop_drain (serve session) world leftover more nonempty, delivered, drain_frames session world rest others]

theorem opened_registered (broker : BrokerState) (pkt : Connect) :
    (broker.openConnection pkt).1.sessions.get pkt.clientId = some (broker.openConnection pkt).2 := by
  rw [open_connection_sessions, Assoc.get_insert, if_pos rfl, open_connection_ref]

theorem handle_connection_whole (verifyPassword : String → String → Bool) (broker : BrokerState) (first : WireFrame)
    (pkt : Connect) (isConnect : first.packet = .connect pkt)
    (accepted : authenticated verifyPassword broker.auth pkt = true) (leftover : Bytes) (more : List Bytes) :
    handleConnection verifyPassword broker (.bytes (first.bytes ++ leftover) :: more.map .bytes) =
      .serving pkt.clientId (broker.openConnection pkt).2
        (mainLoop (serve (broker.openConnection pkt).2) (broker.openConnection pkt).1 leftover (more.map .bytes)) := by
  simp only [handleConnection, read_connect_whole first pkt isConnect, accepted, if_true]

theorem whole_connect_served_iff (verifyPassword : String → String → Bool) (broker : BrokerState) (first : WireFrame)
    (pkt : Connect) (isConnect : first.packet = .connect pkt)
    (accepted : authenticated verifyPassword broker.auth pkt = true) (rest : List WireFrame)
    (others : ∀ frame ∈ rest, ∀ pkt, frame.packet ≠ .connect pkt) (leftover : Bytes) (more : List Bytes)
    (nonempty : ∀ read ∈ more, read ≠ []) (delivered : leftover ++ more.flatten = rest.flatMap (·.bytes)) :
    Served broker pkt (rest.map (·.packet))
        (handleConnection verifyPassword broker (.bytes (first.bytes ++ leftover) :: more.map .bytes)) ↔
      more ≠ [] ∨ rest = [] := by
  have loop := main_loop_after_connect (broker.openConnection pkt).2 (broker.openConnection pkt).1 leftover rest others
    more nonempty delivered
  rw [handle_connection_whole verifyPassword broker first pkt isConnect accepted, loop]
  by_cases nothing : more = []
  · rw [if_pos nothing]
    constructor
    · intro ⟨session, served, serving, _, handed⟩
      cases serving
      exact .inr (List.map_eq_nil_iff.mp handed.symm)
    · intro enough
      rw [enough.resolve_left (fun nonempty => nonempty nothing)]
      exact ⟨_, _, rfl, opened_registered broker pkt, rfl⟩
  · rw [if_neg nothing]
    refine iff_of_true ⟨_, _, rfl, ?_, rfl⟩ (.inl nothing)
    dsimp only [Handling.broker]
    rw [serve_sessions]
    exact opened_registered broker pkt

theorem segmentation_iff (verifyPassword : String → String → Bool) (broker : BrokerState) (first : WireFrame)
    (pkt : Connect) (isConnect : first.packet = .connect pkt)
    (accepted : authenticated verifyPassword broker.auth pkt = true) (rest : List WireFrame)
    (others : ∀ frame ∈ rest, ∀ pkt, frame.packet ≠ .connect pkt) (reads : List Bytes)
    (nonempty : ∀ read ∈ reads, read ≠ []) (delivered : reads.flatten = first.bytes ++ rest.flatMap (·.bytes)) :
    Served broker pkt (rest.map (·.packet)) (handleConnection verifyPassword broker (reads.map .bytes)) ↔
      ∃ read more, reads = read :: more ∧ first.bytes.length ≤ read.length ∧ (more ≠ [] ∨ rest = []) := by
  cases reads with
  | nil =>
      refine iff_of_false ?_ (by simp)
      intro ⟨session, loop, serving, _⟩
      cases serving
  | cons read more =>
      rw [List.flatten_cons] at delivered
      have readFirst : read <+: first.bytes ++ rest.flatMap (·.bytes) := delivered ▸ List.prefix_append read more.flatten
      by_cases whole : first.bytes.length ≤ read.length
      · obtain ⟨leftover, same⟩ := List.prefix_of_prefix_length_le (List.prefix_append first.bytes _) readFirst whole
        subst same
        rw [List.append_assoc, List.append_cancel_left_eq] at delivered
        have served := whole_connect_served_iff verifyPassword broker first pkt isConnect accepted rest others leftover
          more (fun read member => nonempty read (by simp [member])) delivered
        rw [List.map_cons, served]
        constructor
        · exact fun enough => ⟨_, more, rfl, whole, enough⟩
        · intro ⟨_, _, same, _, enough⟩
          cases same
          exact enough
      · obtain ⟨back, same⟩ := List.prefix_of_prefix_length_le readFirst (List.prefix_append first.bytes _)
          (Nat.le_of_not_le whole)
        have backSome : back ≠ [] := by
          intro nil
          rw [nil, List.append_nil] at same
          exact whole (Nat.le_of_eq (congrArg List.length same.symm))
        obtain ⟨reason, refused⟩ := read_connect_cut first read back backSome same.symm
        refine iff_of_false ?_ ?_
        · intro ⟨session, loop, serving, _⟩
          simp only [List.map_cons, handleConnection, refused] at serving
          cases serving
        · intro ⟨_, _, same, within, _⟩
          cases same
          exact whole within

def anonymousConnect : WireFrame where
  packet := .connect ⟨"c", 60, true, none, none, {}⟩
  bytes := [0x10, 0x0E, 0x00, 0x04, 0x4D, 0x51, 0x54, 0x54, 0x05, 0x02, 0x00, 0x3C, 0x00, 0x00, 0x01, 0x63]
  whole := by decide +kernel

def ping : WireFrame := encodedFrame .pingReq ⟨trivial, by decide⟩

theorem read_per_packet_served :
    Served { auth := ⟨none⟩ } ⟨"c", 60, true, none, none, {}⟩ [.pingReq]
      (handleConnection (fun _ _ => true) { auth := ⟨none⟩ } [.bytes anonymousConnect.bytes, .bytes ping.bytes]) :=
  (segmentation_iff (fun _ _ => true) { auth := ⟨none⟩ } anonymousConnect ⟨"c", 60, true, none, none, {}⟩ rfl rfl [ping]
    (by simp [ping, encodedFrame]) [anonymousConnect.bytes, ping.bytes]
    (by simp [anonymousConnect, ping, encodedFrame, encodePacket]) (by simp)).mpr
    ⟨anonymousConnect.bytes, [ping.bytes], rfl, Nat.le_refl _, .inl (by simp)⟩

theorem cut_connect_refused :
    ¬∀ reads : List Bytes, (∀ read ∈ reads, read ≠ []) → reads.flatten = anonymousConnect.bytes ++ ping.bytes →
      Served { auth := ⟨none⟩ } ⟨"c", 60, true, none, none, {}⟩ [.pingReq]
        (handleConnection (fun _ _ => true) { auth := ⟨none⟩ } (reads.map .bytes)) := by
  intro served
  obtain ⟨session, loop, serving, _⟩ := served [[0x10], anonymousConnect.bytes.tail ++ ping.bytes]
    (by simp [anonymousConnect]) (by simp [anonymousConnect])
  have refused : decodePacket [0x10] = .err .incomplete := by decide
  simp only [List.map_cons, handleConnection, readConnect, refused] at serving
  cases serving

end Pipistrelle.Connection
