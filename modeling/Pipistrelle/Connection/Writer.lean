import Pipistrelle.Connection.ClientStream
import Pipistrelle.Connection.WebSocketFlush

set_option autoImplicit false

/- The writer task of handle_connection: it takes frames from the channel, and writes and
   flushes each one before the next, until the channel ends, a write fails or the cleanup
   aborts it. An abort leaves the run at any point. -/
namespace Pipistrelle.Connection

open Codec ChunkedDecode Auth Broker

-- The writes of the task to a TCP or TLS socket, each with how it ends; all that follows a
-- broken one is the shutdown.
inductive FrameWrite where
  | whole
  | broken (sent : Nat)
deriving DecidableEq, Repr

def writtenBytes : List Bytes → List FrameWrite → Bytes
  | frame :: frames, .whole :: writes => frame ++ writtenBytes frames writes
  | frame :: _, .broken sent :: _ => frame.take sent
  | _, _ => []

theorem written_bytes_prefix (channel : List Bytes) (writes : List FrameWrite) :
    writtenBytes channel writes <+: channel.flatten := by
  induction channel generalizing writes with
  | nil => exact List.nil_prefix
  | cons frame frames ih =>
      rw [List.flatten_cons]
      cases writes with
      | nil => exact List.nil_prefix
      | cons write writes =>
          cases write with
          | whole => exact (List.prefix_append_right_inj frame).mpr (ih writes)
          | broken sent => exact (List.take_prefix sent frame).trans (List.prefix_append frame _)

-- The same task over the WebSocket adapter, whose write takes all at once.
inductive WriterStage where
  | receiving
  | flushing
  | closing
  | ended
deriving DecidableEq, Repr

structure WriterTask where
  adapter : WebSocketStreamAdapter := .new
  ws : Sink := ⟨[], []⟩
  taken : Nat := 0
  stage : WriterStage := .receiving
deriving DecidableEq, Repr

-- rx.recv() returns a frame or the end of the channel; each poll of the flush or of the
-- shutdown comes with what the sink below would answer.
inductive WriterEvent where
  | recv
  | closed
  | poll (answers : SinkAnswers)
deriving DecidableEq, Repr

def WriterTask.flush (self : WriterTask) (answers : SinkAnswers) : WriterTask :=
  let (polled, adapter, ws) := self.adapter.pollFlush self.ws answers
  let stage : WriterStage := match polled with
    | .ready => .receiving
    | .failed => .closing
    | .pending => .flushing
  { self with adapter, ws, stage }

def WriterTask.shutdown (self : WriterTask) (answers : SinkAnswers) : WriterTask :=
  let (polled, adapter, ws) := self.adapter.pollShutdown self.ws answers
  { self with adapter, ws, stage := if polled = .pending then .closing else .ended }

def WriterTask.step (channel : List Bytes) (self : WriterTask) : WriterEvent → WriterTask
  | .recv =>
      match self.stage, channel[self.taken]? with
      | .receiving, some bytes =>
          { self with adapter := (self.adapter.pollWrite bytes).2, taken := self.taken + 1, stage := .flushing }
      | _, _ => self
  | .closed => if self.stage = .receiving ∧ self.taken = channel.length then { self with stage := .closing } else self
  | .poll answers =>
      match self.stage with
      | .flushing => self.flush answers
      | .closing => self.shutdown answers
      | .receiving | .ended => self

def Sink.messages (self : Sink) : List Bytes := self.wire ++ self.waiting

def WriterTask.held (self : WriterTask) : List Bytes :=
  if self.adapter.writeBuffer = [] then [] else [self.adapter.writeBuffer]

-- Each frame that was taken is a message, but for the last: the adapter may hold it still,
-- or a failed start_send may have dropped it.
structure WriterTask.InOrder (channel : List Bytes) (writer : WriterTask) : Prop where
  frames : ∃ lost, writer.ws.messages ++ (writer.held ++ lost) = channel.take writer.taken ∧
    (writer.held ++ lost).length ≤ 1 ∧ (writer.stage = .flushing → lost = [])
  received : writer.stage = .receiving → writer.ws.messages = channel.take writer.taken ∧ writer.adapter.writeBuffer = []
  within : writer.taken ≤ channel.length

theorem sink_flush_messages (ws : Sink) (answer : Poll) : (ws.pollFlush answer).messages = ws.messages := by
  cases answer with
  | ready => exact List.append_nil _
  | pending | failed => rfl

theorem flush_messages (adapter : WebSocketStreamAdapter) (ws : Sink) (answers : SinkAnswers)
    (buffered : adapter.writeBuffer ≠ []) :
    ((adapter.pollFlush ws answers).1 ≠ .ready ∧ (adapter.pollFlush ws answers).2 = (adapter, ws)) ∨
      ((adapter.pollFlush ws answers).2.1.writeBuffer = [] ∧
        (adapter.pollFlush ws answers).2.2.messages = ws.messages ++ [adapter.writeBuffer]) ∨
      ((adapter.pollFlush ws answers).1 = .failed ∧ (adapter.pollFlush ws answers).2.1.writeBuffer = [] ∧
        (adapter.pollFlush ws answers).2.2 = ws) := by
  rw [WebSocketStreamAdapter.pollFlush, if_neg (mt List.isEmpty_iff.mp buffered)]
  cases answers.pollReady with
  | pending => exact .inl ⟨by simp, rfl⟩
  | failed => exact .inl ⟨by simp, rfl⟩
  | ready =>
      refine .inr ?_
      cases answers.startSend with
      | true =>
          refine .inl ⟨rfl, ?_⟩
          dsimp only
          rw [if_pos rfl, sink_flush_messages]
          exact (List.append_assoc _ _ _).symm
      | false => exact .inr ⟨rfl, rfl, rfl⟩

theorem shutdown_flushes (adapter : WebSocketStreamAdapter) (ws : Sink) (answers : SinkAnswers) :
    (adapter.pollShutdown ws answers).2 = (adapter.pollFlush ws answers).2 := by
  unfold WebSocketStreamAdapter.pollShutdown
  obtain ⟨polled, adapter, ws⟩ := adapter.pollFlush ws answers
  cases polled with
  | pending | ready | failed => rfl

theorem poll_in_order (channel : List Bytes) (before after : WriterTask) (answers : SinkAnswers)
    (kept : before.InOrder channel) (taken : after.taken = before.taken)
    (flushed : (after.adapter, after.ws) = (before.adapter.pollFlush before.ws answers).2)
    (receives : after.stage = .receiving →
      before.stage = .flushing ∧ (before.adapter.pollFlush before.ws answers).1 = .ready)
    (flushes : after.stage = .flushing →
      before.stage = .flushing ∧ (before.adapter.pollFlush before.ws answers).1 = .pending) :
    after.InOrder channel := by
  obtain ⟨⟨lost, frames, one, whole⟩, _, within⟩ := kept
  have adapter : after.adapter = (before.adapter.pollFlush before.ws answers).2.1 := congrArg Prod.fst flushed
  have ws : after.ws = (before.adapter.pollFlush before.ws answers).2.2 := congrArg Prod.snd flushed
  by_cases empty : before.adapter.writeBuffer = []
  · have same := poll_flush_empty before.adapter before.ws answers empty
    rw [same] at adapter ws flushes
    have held : before.held = [] := if_pos empty
    have heldAfter : after.held = [] := if_pos (adapter ▸ empty)
    rw [held, List.nil_append] at frames one
    refine ⟨⟨lost, ?_, ?_, fun flushing => ?_⟩, fun receiving => ⟨?_, adapter ▸ empty⟩, taken ▸ within⟩
    · rw [heldAfter, ws, taken, List.nil_append]
      exact frames
    · rw [heldAfter, List.nil_append]
      exact one
    · cases (flushes flushing).2
    · rw [whole (receives receiving).1, List.append_nil] at frames
      rw [ws, taken]
      exact frames
  · have held : before.held = [before.adapter.writeBuffer] := if_neg empty
    rw [held] at frames one
    have nothing : lost = [] := by
      rw [List.length_append, List.length_singleton] at one
      exact List.length_eq_zero_iff.mp (by omega)
    rw [nothing, List.append_nil] at frames
    rcases flush_messages before.adapter before.ws answers empty with ⟨waits, same⟩ | ⟨blank, handed⟩ | ⟨failed, blank, same⟩
    · rw [same] at adapter ws
      have heldAfter : after.held = [before.adapter.writeBuffer] := by rw [← held, WriterTask.held, WriterTask.held, adapter]
      refine ⟨⟨[], ?_, ?_, fun _ => rfl⟩, fun receiving => absurd (receives receiving).2 waits, taken ▸ within⟩
      · rw [heldAfter, ws, taken]
        exact frames
      · rw [heldAfter]
        exact Nat.le_refl 1
    · have heldAfter : after.held = [] := if_pos (adapter ▸ blank)
      have messages : after.ws.messages = channel.take after.taken := by rw [ws, handed, taken, frames]
      refine ⟨⟨[], ?_, ?_, fun _ => rfl⟩, fun _ => ⟨messages, adapter ▸ blank⟩, taken ▸ within⟩
      · rw [heldAfter, messages]
        exact List.append_nil _
      · rw [heldAfter]
        exact Nat.zero_le 1
    · have heldAfter : after.held = [] := if_pos (adapter ▸ blank)
      refine ⟨⟨[before.adapter.writeBuffer], ?_, ?_, fun flushing => ?_⟩, fun receiving => ?_, taken ▸ within⟩
      · rw [heldAfter, ws, same, taken]
        exact frames
      · rw [heldAfter]
        exact Nat.le_refl 1
      · have pending := (flushes flushing).2
        rw [failed] at pending
        cases pending
      · have ready := (receives receiving).2
        rw [failed] at ready
        cases ready

theorem step_in_order (channel : List Bytes) (nonempty : ∀ frame ∈ channel, frame ≠ []) (writer : WriterTask)
    (event : WriterEvent) (kept : writer.InOrder channel) : (writer.step channel event).InOrder channel := by
  cases event with
  | recv =>
      cases stage : writer.stage with
      | flushing | closing | ended =>
          have same : writer.step channel .recv = writer := by simp only [WriterTask.step, stage]
          rw [same]
          exact kept
      | receiving =>
          cases next : channel[writer.taken]? with
          | none =>
              have same : writer.step channel .recv = writer := by simp only [WriterTask.step, stage, next]
              rw [same]
              exact kept
          | some frame =>
              obtain ⟨more, isNext⟩ := List.getElem?_eq_some_iff.mp next
              obtain ⟨messages, blank⟩ := kept.received stage
              have step : writer.step channel .recv = { writer with
                  adapter := (writer.adapter.pollWrite frame).2, taken := writer.taken + 1, stage := .flushing } := by
                simp only [WriterTask.step, stage, next]
              have buffer : (writer.adapter.pollWrite frame).2.writeBuffer = frame := by
                simp [WebSocketStreamAdapter.pollWrite, blank]
              have held : (writer.step channel .recv).held = [frame] := by
                rw [step, WriterTask.held, buffer, if_neg (nonempty frame (isNext ▸ List.getElem_mem more))]
              refine ⟨⟨[], ?_, ?_, fun _ => rfl⟩, fun receiving => ?_, ?_⟩
              · rw [held, step, messages, List.take_add_one, next]
                rfl
              · rw [held]
                exact Nat.le_refl 1
              · rw [step] at receiving
                cases receiving
              · rw [step]
                exact more
  | closed =>
      by_cases ends : writer.stage = .receiving ∧ writer.taken = channel.length
      · have step : writer.step channel .closed = { writer with stage := .closing } := if_pos ends
        obtain ⟨messages, blank⟩ := kept.received ends.1
        rw [step]
        refine ⟨⟨[], ?_, ?_, fun _ => rfl⟩, fun receiving => (by cases receiving), kept.within⟩
        · rw [WriterTask.held, if_pos blank, messages]
          exact List.append_nil _
        · rw [WriterTask.held, if_pos blank]
          exact Nat.zero_le 1
      · have same : writer.step channel .closed = writer := if_neg ends
        rw [same]
        exact kept
  | poll answers =>
      cases stage : writer.stage with
      | receiving | ended =>
          have same : writer.step channel (.poll answers) = writer := by simp only [WriterTask.step, stage]
          rw [same]
          exact kept
      | flushing =>
          have step : writer.step channel (.poll answers) = writer.flush answers := by simp only [WriterTask.step, stage]
          rw [step]
          refine poll_in_order channel writer _ answers kept rfl rfl (fun receiving => ⟨stage, ?_⟩) (fun flushing => ⟨stage, ?_⟩)
          · simp only [WriterTask.flush] at receiving
            split at receiving
            · assumption
            · cases receiving
            · cases receiving
          · simp only [WriterTask.flush] at flushing
            split at flushing
            · cases flushing
            · cases flushing
            · assumption
      | closing =>
          have step : writer.step channel (.poll answers) = writer.shutdown answers := by simp only [WriterTask.step, stage]
          have closes : (writer.shutdown answers).stage = .closing ∨ (writer.shutdown answers).stage = .ended := by
            simp only [WriterTask.shutdown]
            split
            · exact .inl rfl
            · exact .inr rfl
          rw [step]
          refine poll_in_order channel writer _ answers kept rfl (shutdown_flushes writer.adapter writer.ws answers)
            (fun receiving => ?_) (fun flushing => ?_)
          · rcases closes with same | same
            · cases same.symm.trans receiving
            · cases same.symm.trans receiving
          · rcases closes with same | same
            · cases same.symm.trans flushing
            · cases same.symm.trans flushing

theorem run_in_order (channel : List Bytes) (nonempty : ∀ frame ∈ channel, frame ≠ []) (events : List WriterEvent) :
    (events.foldl (WriterTask.step channel) {}).InOrder channel := by
  have runs : ∀ writer : WriterTask, writer.InOrder channel → (events.foldl (WriterTask.step channel) writer).InOrder channel := by
    induction events with
    | nil => exact fun _ kept => kept
    | cons event rest ih => exact fun writer kept => ih _ (step_in_order channel nonempty writer event kept)
  exact runs {} ⟨⟨[], rfl, Nat.zero_le 1, fun _ => rfl⟩, fun _ => ⟨rfl, rfl⟩, Nat.zero_le _⟩

section Session

variable (verifyPassword : String → String → Bool) (auth : AuthConfig) (db : Database)
  (bridgeSender : Option (List (String × Bytes))) (stored : StoredWritable db) (before after : List Event)
  (decoded : ∀ event ∈ before ++ after, event.Decoded) (net : Network)
  (reached : net = before.foldl (Network.step verifyPassword) (Network.boot auth db bridgeSender)) (pkt : Connect)
  (accepted : authenticated verifyPassword auth pkt = true)
  (roomy : Run.Throughout (Network.step verifyPassword) (Roomy net.broker.heap.length) (net.register pkt) after)
  (channel : List Bytes)
  (isChannel : channel =
    ((.connect pkt :: after).foldl (Network.step verifyPassword) net).broker.sentTo net.broker.heap.length)

include stored decoded reached accepted roomy isChannel

theorem broken_stream_reads (writes : List FrameWrite) (reads : List Bytes)
    (arrived : reads.flatten <+: writtenBytes channel writes) :
    ∃ n unread, clientReads reads = ⟨(), (connAckReply 0 ::
      numbered 0 ((net.register pkt).outbox verifyPassword net.broker.heap.length after)).take n, .waiting unread⟩ := by
  obtain ⟨frames, encodable⟩ := stream_encodable verifyPassword auth db bridgeSender stored before after decoded net reached
    pkt accepted roomy
  refine client_reads_prefix _ encodable [] decode_packet_nil reads (arrived.trans ?_)
  rw [isChannel, frames, List.append_nil]
  exact written_bytes_prefix _ writes

theorem websocket_messages_are_packets (events : List WriterEvent) (writer : WriterTask)
    (written : writer = events.foldl (WriterTask.step channel) {}) :
    ∃ n, writer.ws.messages = ((connAckReply 0 ::
        numbered 0 ((net.register pkt).outbox verifyPassword net.broker.heap.length after)).take n).map encodePacket ∧
      n ≤ writer.taken ∧ writer.taken ≤ n + 1 ∧ (writer.stage = .receiving → n = writer.taken) ∧
      ∀ message ∈ writer.ws.messages, ∃ packet, packet ∈ connAckReply 0 ::
        numbered 0 ((net.register pkt).outbox verifyPassword net.broker.heap.length after) ∧
        decodePacket message = .ok (packet, message.length) := by
  obtain ⟨frames, encodable⟩ := stream_encodable verifyPassword auth db bridgeSender stored before after decoded net reached
    pkt accepted roomy
  rw [← isChannel] at frames
  generalize connAckReply 0 :: numbered 0 ((net.register pkt).outbox verifyPassword net.broker.heap.length after) = packets
    at frames encodable ⊢
  have nonempty : ∀ frame ∈ channel, frame ≠ [] := by
    rw [frames]
    intro frame member
    obtain ⟨packet, _, rfl⟩ := List.mem_map.mp member
    simp [encodePacket]
  obtain ⟨⟨lost, order, one, _⟩, received, within⟩ := run_in_order channel nonempty events
  rw [← written] at order one received within
  have width := congrArg List.length order
  rw [List.length_append, List.length_take, Nat.min_eq_left within] at width
  have given : writer.ws.messages = channel.take writer.ws.messages.length := by
    have begins : writer.ws.messages <+: channel.take writer.taken := ⟨_, order⟩
    exact List.prefix_iff_eq_take.mp (begins.trans (List.take_prefix _ _))
  refine ⟨writer.ws.messages.length, ?_, by omega, by omega, fun receiving => ?_, ?_⟩
  · rw [List.map_take, ← frames]
    exact given
  · rw [(received receiving).1, List.length_take, Nat.min_eq_left within]
  · rw [given, frames, ← List.map_take]
    intro message member
    obtain ⟨packet, inside, rfl⟩ := List.mem_map.mp member
    have held := List.mem_of_mem_take inside
    exact ⟨packet, held, encoded_decodes packet (encodable packet held)⟩

end Session

def subscribedChannel : List Bytes :=
  [connAckReply 0, .subAck ⟨7, {}, [1]⟩, .publish ⟨false, 1, false, "t", some 1, {}, [1]⟩].map encodePacket

theorem subscribed_channel : subscribedChannel =
    ((.connect ⟨"c", 60, true, none, none, {}⟩ :: subscribedThenSent).foldl (Network.step fun _ _ => true)
      (Network.boot ⟨none⟩ {} none)).broker.sentTo 0 := by decide +kernel

theorem subscribed_mail :
    (connAckReply 0 :: numbered 0 (((Network.boot ⟨none⟩ {} none).register ⟨"c", 60, true, none, none, {}⟩).outbox
      (fun _ _ => true) 0 subscribedThenSent)) =
        [connAckReply 0, .subAck ⟨7, {}, [1]⟩, .publish ⟨false, 1, false, "t", some 1, {}, [1]⟩] := by decide +kernel

theorem broken_sub_ack_reads :
    ∃ n unread, clientReads [encodePacket (connAckReply 0), [0x90]] = ⟨(), [connAckReply 0, .subAck ⟨7, {}, [1]⟩,
      .publish ⟨false, 1, false, "t", some 1, {}, [1]⟩].take n, .waiting unread⟩ := by
  rw [← subscribed_mail]
  exact broken_stream_reads (fun _ _ => true) ⟨none⟩ {} none (fun row member => by cases member) [] subscribedThenSent
    subscribed_then_sent_decoded (Network.boot ⟨none⟩ {} none) rfl ⟨"c", 60, true, none, none, {}⟩ rfl (by decide +kernel)
    subscribedChannel subscribed_channel [.whole, .broken 1] [encodePacket (connAckReply 0), [0x90]]
    ⟨[], by decide +kernel⟩

def slowSink : List WriterEvent :=
  [.recv, .poll ⟨.ready, true, .pending, .pending⟩, .recv, .poll ⟨.ready, true, .ready, .pending⟩, .recv]

theorem slow_sink_messages :
    ∃ n, (slowSink.foldl (WriterTask.step subscribedChannel) {}).ws.messages =
        ([connAckReply 0, .subAck ⟨7, {}, [1]⟩, .publish ⟨false, 1, false, "t", some 1, {}, [1]⟩].take n).map encodePacket ∧
      n ≤ (slowSink.foldl (WriterTask.step subscribedChannel) {}).taken ∧
      (slowSink.foldl (WriterTask.step subscribedChannel) {}).taken ≤ n + 1 ∧
      ((slowSink.foldl (WriterTask.step subscribedChannel) {}).stage = .receiving →
        n = (slowSink.foldl (WriterTask.step subscribedChannel) {}).taken) ∧
      ∀ message ∈ (slowSink.foldl (WriterTask.step subscribedChannel) {}).ws.messages,
        ∃ packet, packet ∈ [connAckReply 0, .subAck ⟨7, {}, [1]⟩, .publish ⟨false, 1, false, "t", some 1, {}, [1]⟩] ∧
          decodePacket message = .ok (packet, message.length) := by
  rw [← subscribed_mail]
  exact websocket_messages_are_packets (fun _ _ => true) ⟨none⟩ {} none (fun row member => by cases member) []
    subscribedThenSent subscribed_then_sent_decoded (Network.boot ⟨none⟩ {} none) rfl ⟨"c", 60, true, none, none, {}⟩ rfl
    (by decide +kernel) subscribedChannel subscribed_channel slowSink _ rfl

end Pipistrelle.Connection
