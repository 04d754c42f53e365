import Pipistrelle.Connection.Handshake

set_option autoImplicit false

/- What a connection does with the packets behind a DISCONNECT. process_client_packet
   returns no error for it, so the loop goes on to the next packet and the next read. -/
namespace Pipistrelle.Connection

open Codec ChunkedDecode Broker

def isConnect : Packet → Bool
  | .connect _ => true
  | _ => false

def isDisconnect : Packet → Bool
  | .disconnect _ => true
  | _ => false

-- Nothing behind the first DISCONNECT is handed to process_client_packet, which is
-- all that changes the broker, and a loop that has been handed the DISCONNECT has ended.
structure EndsAtDisconnect (session : SessionRef) (world : BrokerState) (packets : List Packet)
    (loop : LoopState String BrokerState) : Prop where
  handed : loop.handed <+: upTo isDisconnect packets
  effects : loop.world = loop.handed.foldl (fun world packet => (serve session world packet).1) world
  ends : ∀ pkt, .disconnect pkt ∈ loop.handed → ∃ exit, loop.status = .stopped exit

-- A connection that is refused hands nothing over. The first packet of one that
-- is served is its CONNECT.
def NothingAfterDisconnect (broker : BrokerState) (packets : List Packet) (handling : Handling) : Prop :=
  ∀ clientId session loop, handling = .serving clientId session loop →
    ∃ pkt later, packets = .connect pkt :: later ∧ EndsAtDisconnect session (broker.openConnection pkt).1 later loop

theorem serve_fails_iff_connect (session : SessionRef) (world : BrokerState) (packet : Packet)
    (held : ∃ current, world.heap[session]? = some current) :
    (serve session world packet).2 =
      if isConnect packet then some "Protocol violation: duplicate CONNECT" else none := by
  obtain ⟨current, held⟩ := held
  simp only [serve, processClientPacket, held]
  cases packet <;> rfl

theorem serve_keeps_session (session : SessionRef) (world : BrokerState) (packet : Packet)
    (held : ∃ current, world.heap[session]? = some current) :
    ∃ current, (serve session world packet).1.heap[session]? = some current := by
  obtain ⟨current, held⟩ := held
  obtain ⟨later, kept, _⟩ := (process_client_packet_evolves world session packet).heap session current held
  exact ⟨later, kept⟩

theorem drain_up_to_connect (session : SessionRef) (world : BrokerState) (frames : List WireFrame)
    (held : ∃ current, world.heap[session]? = some current) :
    drain packetDecoder (processStep (serve session)) world [] (frames.flatMap (·.bytes)) =
      ⟨(upTo isConnect (frames.map (·.packet))).foldl (fun world packet => (serve session world packet).1) world,
        upTo isConnect (frames.map (·.packet)),
        if (frames.map (·.packet)).any isConnect then
          .stopped (.process "Protocol violation: duplicate CONNECT")
        else .waiting []⟩ := by
  have drained := drain_items_up_to packetDecoder (processStep (serve session)) isConnect
    (.process "Protocol violation: duplicate CONNECT") (fun world => ∃ current, world.heap[session]? = some current)
    world [] (frames.map fun frame => (frame.packet, frame.bytes)) held (decide_packet_more [] decode_packet_nil)
    (frames_decode frames)
    (fun world packet held => serve_keeps_session session world packet held)
    (by
      intro world packet held
      have failed := serve_fails_iff_connect session world packet held
      simp only [processStep, failed]
      split <;> rfl)
  simp only [List.flatMap_map, List.map_map, List.nil_append] at drained
  exact drained

theorem main_loop_up_to_connect (session : SessionRef) (world : BrokerState) (leftover : Bytes)
    (frames : List WireFrame) (held : ∃ current, world.heap[session]? = some current) (more : List Bytes)
    (nonempty : ∀ read ∈ more, read ≠ []) (delivered : leftover ++ more.flatten = frames.flatMap (·.bytes)) :
    mainLoop (serve session) world leftover (more.map .bytes) =
      if more = [] then ⟨world, [], .waiting leftover⟩
      else ⟨(upTo isConnect (frames.map (·.packet))).foldl (fun world packet => (serve session world packet).1) world,
        upTo isConnect (frames.map (·.packet)),
        if (frames.map (·.packet)).any isConnect then
          .stopped (.process "Protocol violation: duplicate CONNECT")
        else .waiting []⟩ := by
  rw [main_loop_drain (serve session) world leftover more nonempty, delivered,
    drain_up_to_connect session world frames held]

theorem connect_behind_disconnect (packets : List Packet) (pkt : Disconnect)
    (gone : .disconnect pkt ∈ upTo isConnect packets) (twice : packets.any isConnect = true) :
    ¬upTo isConnect packets <+: upTo isDisconnect packets := by
  induction packets with
  | nil => simp at twice
  | cons packet rest ih =>
      by_cases connects : isConnect packet = true
      · rw [upTo, if_pos connects, List.mem_singleton] at gone
        rw [← gone] at connects
        cases connects
      · rw [upTo, if_neg connects] at gone ⊢
        rw [List.any_cons, Bool.eq_false_iff.mpr connects, Bool.false_or] at twice
        by_cases disconnects : isDisconnect packet = true
        · rw [upTo, if_pos disconnects, List.cons_prefix_cons, List.prefix_nil]
          rintro ⟨_, nothing⟩
          cases rest with
          | nil => simp at twice
          | cons next later => simp only [upTo] at nothing; split at nothing <;> cases nothing
        · rw [upTo, if_neg disconnects, List.cons_prefix_cons]
          rintro ⟨_, others⟩
          have later : .disconnect pkt ∈ upTo isConnect rest := by
            refine (List.mem_cons.mp gone).resolve_left ?_
            intro same
            exact disconnects (same ▸ rfl)
          exact ih later twice others

theorem ends_at_disconnect_iff (session : SessionRef) (world : BrokerState) (leftover : Bytes)
    (frames : List WireFrame) (held : ∃ current, world.heap[session]? = some current) (more : List Bytes)
    (nonempty : ∀ read ∈ more, read ≠ []) (delivered : leftover ++ more.flatten = frames.flatMap (·.bytes)) :
    EndsAtDisconnect session world (frames.map (·.packet))
        (mainLoop (serve session) world leftover (more.map .bytes)) ↔
      more ≠ [] → ∀ pkt, .disconnect pkt ∉ upTo isConnect (frames.map (·.packet)) := by
  rw [main_loop_up_to_connect session world leftover frames held more nonempty delivered]
  by_cases nothing : more = []
  · rw [if_pos nothing]
    refine iff_of_true ⟨List.nil_prefix, rfl, ?_⟩ (fun more => absurd nothing more)
    intro pkt handed
    cases handed
  · rw [if_neg nothing]
    constructor
    · intro ends _ pkt gone
      obtain ⟨exit, stopped⟩ := ends.ends pkt gone
      dsimp only at stopped
      by_cases twice : (frames.map (·.packet)).any isConnect = true
      · exact connect_behind_disconnect _ pkt gone twice ends.handed
      · rw [if_neg twice] at stopped
        cases stopped
    · intro unread
      have never := unread nothing
      refine ⟨up_to_earlier isConnect isDisconnect _ ?_, rfl, fun pkt gone => absurd gone (never pkt)⟩
      intro packet member
      cases packet with
      | disconnect pkt => exact absurd member (never pkt)
      | connect _ | connAck _ | publish _ | pubAck _ | subscribe _ | subAck _ | pingReq | pingResp => rfl

theorem opened_held (broker : BrokerState) (pkt : Connect) :
    ∃ current, (broker.openConnection pkt).1.heap[(broker.openConnection pkt).2]? = some current := by
  rw [open_connection_heap, open_connection_ref]
  exact ⟨_, List.getElem?_concat_length⟩

theorem read_connect_ok {read : Bytes} {pkt : Connect} {readBuf : Bytes}
    (accepted : readConnect (.bytes read) = .ok (pkt, readBuf)) :
    ∃ bytesRead, decodePacket read = .ok (.connect pkt, bytesRead) ∧ readBuf = read.drop bytesRead := by
  cases read with
  | nil => cases accepted
  | cons byte tail =>
      simp only [readConnect] at accepted
      split at accepted
      · rename_i found bytesRead decoded
        split at accepted
        · cases accepted
          exact ⟨bytesRead, decoded, rfl⟩
        · cases accepted
      · cases accepted
      · cases accepted
      · cases accepted

theorem handle_connection_serving (verifyPassword : String → String → Bool) (broker : BrokerState)
    (first : WireFrame) (rest : List WireFrame) (read : Bytes) (more : List Bytes)
    (delivered : read ++ more.flatten = first.bytes ++ rest.flatMap (·.bytes)) (clientId : String)
    (session : SessionRef) (loop : LoopState String BrokerState)
    (serving : handleConnection verifyPassword broker (.bytes read :: more.map .bytes) =
      .serving clientId session loop) :
    ∃ pkt leftover, first.packet = .connect pkt ∧ authenticated verifyPassword broker.auth pkt = true ∧
      read = first.bytes ++ leftover ∧ leftover ++ more.flatten = rest.flatMap (·.bytes) ∧
      session = (broker.openConnection pkt).2 ∧
      loop = mainLoop (serve (broker.openConnection pkt).2) (broker.openConnection pkt).1 leftover
        (more.map .bytes) := by
  simp only [handleConnection] at serving
  split at serving
  · cases serving
  · rename_i pkt readBuf accepted
    split at serving
    · rename_i verified
      cases serving
      obtain ⟨bytesRead, decoded, left⟩ := read_connect_ok accepted
      have stable := decode_packet_append read more.flatten (by rw [decoded]; simp)
      rw [delivered, wire_frame_decodes, decoded] at stable
      obtain ⟨packet, size⟩ := Prod.mk.inj (Outcome.ok.inj stable)
      have within := (decode_packet_consumes read _ bytesRead decoded).2
      have front : read.take first.bytes.length = first.bytes := by
        have taken := congrArg (List.take first.bytes.length) delivered
        rw [List.take_append_of_le_length (size ▸ within), List.take_left] at taken
        exact taken
      have parts : read = first.bytes ++ readBuf := by
        rw [left, ← size]
        calc read = read.take first.bytes.length ++ read.drop first.bytes.length := (List.take_append_drop _ _).symm
          _ = first.bytes ++ read.drop first.bytes.length := by rw [front]
      rw [parts, List.append_assoc, List.append_cancel_left_eq] at delivered
      exact ⟨pkt, readBuf, packet, verified, parts, delivered, rfl, rfl⟩
    · cases serving

theorem nothing_after_disconnect_iff (verifyPassword : String → String → Bool) (broker : BrokerState)
    (frames : List WireFrame) (reads : List Bytes) (nonempty : ∀ read ∈ reads, read ≠ [])
    (delivered : reads.flatten = frames.flatMap (·.bytes)) :
    NothingAfterDisconnect broker (frames.map (·.packet))
        (handleConnection verifyPassword broker (reads.map .bytes)) ↔
      ∀ first rest pkt read more, frames = first :: rest → first.packet = .connect pkt →
        authenticated verifyPassword broker.auth pkt = true →
        reads = read :: more → first.bytes.length ≤ read.length → more ≠ [] →
        ∀ gone, .disconnect gone ∉ upTo isConnect (rest.map (·.packet)) := by
  constructor
  · intro ends first rest pkt read more received connects accepted same whole
    subst received same
    rw [List.flatten_cons, List.flatMap_cons] at delivered
    obtain ⟨leftover, same⟩ := List.prefix_of_prefix_length_le (List.prefix_append first.bytes _)
      (delivered ▸ List.prefix_append read more.flatten) whole
    subst same
    rw [List.append_assoc, List.append_cancel_left_eq] at delivered
    have handled := handle_connection_whole verifyPassword broker first pkt connects accepted leftover more
    obtain ⟨other, later, packets, ended⟩ := ends _ _ _ handled
    rw [List.map_cons, connects] at packets
    cases packets
    exact (ends_at_disconnect_iff _ _ leftover rest (opened_held broker pkt) more
      (fun chunk member => nonempty chunk (by simp [member])) delivered).mp ended
  · intro unread clientId session loop serving
    cases reads with
    | nil => cases serving
    | cons read more =>
        cases frames with
        | nil =>
            rw [List.flatten_cons, List.flatMap_nil, List.append_eq_nil_iff] at delivered
            exact absurd delivered.1 (nonempty read (by simp))
        | cons first rest =>
            obtain ⟨pkt, leftover, connects, accepted, same, delivered, rfl, rfl⟩ :=
              handle_connection_serving verifyPassword broker first rest read more delivered clientId session loop
                serving
            refine ⟨pkt, rest.map (·.packet), by rw [List.map_cons, connects], ?_⟩
            refine (ends_at_disconnect_iff _ _ leftover rest (opened_held broker pkt) more
              (fun chunk member => nonempty chunk (by simp [member])) delivered).mpr ?_
            exact unread first rest pkt read more rfl connects accepted rfl (by rw [same]; simp)

def goodbye : WireFrame where
  packet := .disconnect ⟨0, {}⟩
  bytes := [0xE0, 0x00]
  whole := by decide

theorem second_connect_ends :
    NothingAfterDisconnect { auth := ⟨none⟩ } [anonymousConnect.packet, anonymousConnect.packet, goodbye.packet]
      (handleConnection (fun _ _ => true) { auth := ⟨none⟩ }
        [.bytes anonymousConnect.bytes, .bytes (anonymousConnect.bytes ++ goodbye.bytes)]) :=
  (nothing_after_disconnect_iff (fun _ _ => true) { auth := ⟨none⟩ } [anonymousConnect, anonymousConnect, goodbye]
    [anonymousConnect.bytes, anonymousConnect.bytes ++ goodbye.bytes] (by simp [anonymousConnect]) (by simp)).mpr
    (fun _ _ _ _ _ received _ _ _ _ _ _ => by cases received; simp [upTo, isConnect, anonymousConnect])

def lateWords : WireFrame where
  packet := .publish ⟨false, 0, true, "t", none, {}, [0x78]⟩
  bytes := [0x31, 0x05, 0x00, 0x01, 0x74, 0x00, 0x78]
  whole := by decide +kernel

theorem publish_behind_disconnect :
    ¬NothingAfterDisconnect { auth := ⟨none⟩ } [anonymousConnect.packet, goodbye.packet, lateWords.packet]
      (handleConnection (fun _ _ => true) { auth := ⟨none⟩ }
        [.bytes anonymousConnect.bytes, .bytes (goodbye.bytes ++ lateWords.bytes)]) := by
  intro ends
  have handled := handle_connection_whole (fun _ _ => true) { auth := ⟨none⟩ } anonymousConnect _ rfl rfl []
    [goodbye.bytes ++ lateWords.bytes]
  obtain ⟨pkt, later, packets, ended⟩ := ends _ _ _ handled
  cases packets
  have handed := ended.handed
  rw [main_loop_up_to_connect _ _ [] [goodbye, lateWords] (opened_held _ _) _ (by simp [goodbye]) (by simp)] at handed
  simp [upTo, isConnect, isDisconnect, goodbye, lateWords] at handed

end Pipistrelle.Connection
