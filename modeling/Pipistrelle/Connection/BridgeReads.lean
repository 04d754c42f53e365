import Pipistrelle.Connection.BridgeLink

set_option autoImplicit false

/- The other direction of the bridge, and its waits. What the remote sends over one
   connection is routed packet by packet, beside everything that the task writes and
   all that the broker does. -/
namespace Pipistrelle.Connection

open Codec ChunkedDecode Auth Broker

section Waits

variable (verifyPassword : String → String → Bool) (user pass : String)

def Link.returned (self : Link) (event : LinkEvent) : List Returned :=
  (self.advance verifyPassword user pass event).returned.toList

def Written.breaksOff : Written → Bool
  | .whole => false
  | .broken _ => true

-- The remote is not reached, refuses, closes the connection or sends what does not decode,
-- or a write breaks off.
def Link.fails (self : Link) (event : LinkEvent) : Bool :=
  match event, self.phase with
  | .unreachable, .down => true
  | .connects written, .down => written.breaksOff
  | .connAck result written, .awaitingConnAck =>
      match readConnAck result with
      | .accepted _ => written.breaksOff
      | .refused => true
      | .panics => false
  | .read (.bytes []), .running _ | .read .failed, .running _ => true
  | .turn, .decoding readBuf =>
      match decodePacket readBuf with
      | .err .incomplete => false
      | .err _ => true
      | _ => false
  | .localMsg written, .running _ => self.channel[self.received]?.any forwarded && written.breaksOff
  | .ping written, .running _ => written.breaksOff
  | _, _ => false

def Link.failures (self : Link) (event : LinkEvent) : List LinkEvent := if self.fails event then [event] else []

theorem write_returned (link : Link) (packet : Packet) (next : Phase) (written : Written) :
    (link.write packet next written).returned = bif written.breaksOff then some .err else none := by
  cases written with
  | whole | broken sent => rfl

theorem conn_ack_returned (link : Link) (result : ReadResult) (written : Written) (waiting : link.phase = .awaitingConnAck) :
    (link.advance verifyPassword user pass (.connAck result written)).returned =
      bif link.fails (.connAck result written) then some .err else none := by
  unfold Link.advance Link.fails
  rw [waiting]
  dsimp only
  cases readConnAck result with
  | accepted readBuf => exact write_returned link _ _ written
  | refused | panics => rfl

theorem turn_returned (link : Link) (readBuf : Bytes) (decoding : link.phase = .decoding readBuf) :
    (link.advance verifyPassword user pass .turn).returned = bif link.fails .turn then some .err else none := by
  unfold Link.advance Link.fails
  rw [decoding]
  dsimp only [Link.decode]
  rcases decodePacket readBuf with ⟨packet, consumed⟩ | error | _
  · rfl
  · cases error with
    | _ => rfl
  · rfl

theorem local_returned (link : Link) (readBuf : Bytes) (written : Written) (running : link.phase = .running readBuf) :
    (link.advance verifyPassword user pass (.localMsg written)).returned =
      bif link.fails (.localMsg written) then some .err else none := by
  unfold Link.advance Link.fails
  rw [running]
  dsimp only [Link.recvLocal]
  cases link.channel[link.received]? with
  | none => rfl
  | some message =>
      dsimp only [Option.any]
      cases chosen : forwarded message with
      | true => exact write_returned _ _ _ written
      | false => rfl

theorem advance_returned (link : Link) (event : LinkEvent) :
    (link.advance verifyPassword user pass event).returned = bif link.fails event then some .err else none := by
  obtain ⟨network, received, phase, wires, backoff, waits⟩ := link
  cases event with
  | broker event | unreachable =>
      cases phase with
      | _ => rfl
  | read result =>
      rcases result with (_ | ⟨byte, tail⟩) | _ | _
      all_goals cases phase <;> rfl
  | connects written =>
      cases phase with
      | down => exact write_returned _ _ _ written
      | _ => rfl
  | connAck result written =>
      cases phase with
      | awaitingConnAck => exact conn_ack_returned verifyPassword user pass _ result written rfl
      | _ => rfl
  | turn =>
      cases phase with
      | decoding readBuf => exact turn_returned verifyPassword user pass _ readBuf rfl
      | _ => rfl
  | localMsg written =>
      cases phase with
      | running readBuf => exact local_returned verifyPassword user pass _ readBuf written rfl
      | _ => rfl
  | ping written =>
      cases phase with
      | running readBuf => exact write_returned _ _ _ written
      | _ => rfl

theorem returned_failures (link : Link) (event : LinkEvent) :
    link.returned verifyPassword user pass event = (link.failures event).map fun _ => .err := by
  rw [Link.returned, advance_returned, Link.failures]
  cases link.fails event with
  | _ => rfl

structure Attempt.Awake (self : Attempt) (before : Link) : Prop where
  waits : self.link.waits = before.waits
  backoff : self.link.backoff = before.backoff

theorem write_awake (link : Link) (packet : Packet) (next : Phase) (written : Written) :
    (link.write packet next written).Awake link := by
  have put : ∀ bytes, (link.put bytes).waits = link.waits ∧ (link.put bytes).backoff = link.backoff := by
    intro bytes
    unfold Link.put
    split
    · exact ⟨rfl, rfl⟩
    · exact ⟨rfl, rfl⟩
  cases written with
  | whole => exact ⟨(put _).1, (put _).2⟩
  | broken sent => exact ⟨(put _).1, (put _).2⟩

theorem advance_awake (link : Link) (event : LinkEvent) : (link.advance verifyPassword user pass event).Awake link := by
  unfold Link.advance
  split
  · exact ⟨rfl, rfl⟩
  · exact ⟨rfl, rfl⟩
  · obtain ⟨waits, backoff⟩ := write_awake { link with wires := [] :: link.wires } _ _ _
    exact ⟨waits, backoff⟩
  · split
    · exact write_awake link _ _ _
    · exact ⟨rfl, rfl⟩
    · exact ⟨rfl, rfl⟩
  · exact ⟨rfl, rfl⟩
  · exact ⟨rfl, rfl⟩
  · exact ⟨rfl, rfl⟩
  · unfold Link.decode
    split
    · rename_i packet consumed _
      cases packet with
      | _ => exact ⟨rfl, rfl⟩
    · exact ⟨rfl, rfl⟩
    · exact ⟨rfl, rfl⟩
    · exact ⟨rfl, rfl⟩
  · unfold Link.recvLocal
    split
    · exact ⟨rfl, rfl⟩
    · dsimp only
      split
      · obtain ⟨waits, backoff⟩ := write_awake { link with received := link.received + 1 } _ _ _
        exact ⟨waits, backoff⟩
      · exact ⟨rfl, rfl⟩
  · exact write_awake link _ _ _
  · exact ⟨rfl, rfl⟩

-- After that many failures, each with the backoff of its time and five seconds more.
def Link.Waited (link : Link) (failures : Nat) : Prop :=
  link.waits = (List.range failures).map (fun n => min (5 * 2 ^ n) 60 + 5) ∧ link.backoff = min (5 * 2 ^ failures) 60

theorem step_waited (link : Link) (event : LinkEvent) (failures : Nat) (waited : link.Waited failures) :
    (link.step verifyPassword user pass event).Waited (failures + (link.failures event).length) := by
  obtain ⟨waits, backoff⟩ := waited
  have returned := advance_returned verifyPassword user pass link event
  obtain ⟨sameWaits, sameBackoff⟩ := advance_awake verifyPassword user pass link event
  unfold Link.step Link.failures
  generalize link.advance verifyPassword user pass event = attempt at returned sameWaits sameBackoff ⊢
  obtain ⟨later, result⟩ := attempt
  cases failed : link.fails event with
  | false =>
      rw [failed] at returned
      cases returned
      exact ⟨sameWaits.trans waits, sameBackoff.trans backoff⟩
  | true =>
      rw [failed] at returned
      cases returned
      have slept : (⟨later, some .err⟩ : Attempt).engine.waits = later.waits ++ [later.backoff + 5] := rfl
      have doubled : (⟨later, some .err⟩ : Attempt).engine.backoff = min (later.backoff * 2) 60 := rfl
      rw [Link.Waited, slept, doubled, sameWaits, sameBackoff, waits, backoff, if_pos rfl, List.length_singleton]
      refine ⟨?_, ?_⟩
      · rw [List.range_succ, List.map_append, List.map_singleton]
      · rw [pow_succ]
        omega

theorem run_waited (link : Link) (run : List LinkEvent) (failures : Nat) (waited : link.Waited failures) :
    (run.foldl (Link.step verifyPassword user pass) link).Waited
      (failures + (Run.outputs (Link.step verifyPassword user pass) Link.failures link run).length) := by
  induction run generalizing link failures with
  | nil => exact waited
  | cons event rest ih =>
      rw [Run.outputs, List.length_append, ← Nat.add_assoc]
      exact ih _ _ (step_waited verifyPassword user pass link event failures waited)

-- connect_and_run_bridge never returns Ok, so nothing sets the backoff back.
theorem bridge_waits_double (net : Network) (run : List LinkEvent) :
    Run.outputs (Link.step verifyPassword user pass) (Link.returned verifyPassword user pass) (.start net) run =
        (Run.outputs (Link.step verifyPassword user pass) Link.failures (.start net) run).map (fun _ => .err) ∧
      (run.foldl (Link.step verifyPassword user pass) (.start net)).waits =
        (List.range (Run.outputs (Link.step verifyPassword user pass) Link.failures (.start net) run).length).map
          fun n => min (5 * 2 ^ n) 60 + 5 := by
  refine ⟨?_, ?_⟩
  · rw [← Run.outputs_map, funext₂ (returned_failures verifyPassword user pass)]
  · obtain ⟨waits, _⟩ := run_waited verifyPassword user pass (.start net) run 0 ⟨rfl, rfl⟩
    rw [Nat.zero_add] at waits
    exact waits

end Waits

def keepsOn (_ : Unit) (_ : Packet) : Unit × Option Unit := ((), none)

-- Where the task is in what the loop makes of its reads alone. A connection that is over
-- has been through all of them.
inductive Hears (packets : List Packet) (alone : LoopState Unit Unit) : Phase → Prop where
  | running (readBuf : Bytes) (same : alone = ⟨(), packets, .waiting readBuf⟩) : Hears packets alone (.running readBuf)
  | decoding (readBuf : Bytes) (same : alone = innerLoop keepsOn () packets readBuf) :
      Hears packets alone (.decoding readBuf)
  | gone (phase : Phase) (ended : phase = .down ∨ phase = .panicked) (same : alone.handed = packets) :
      Hears packets alone phase

-- What the select loop reads in a step, and the packet that its decode loop gets. The read
-- has no timeout.
def Link.readNow (self : Link) : LinkEvent → List ReadResult
  | .read result =>
      match self.phase, result with
      | .running _, .bytes chunk => [.bytes chunk]
      | .running _, .failed => [.failed]
      | _, _ => []
  | _ => []

def Link.handed (self : Link) : LinkEvent → List Packet
  | .turn =>
      match self.phase with
      | .decoding readBuf =>
          match decodePacket readBuf with
          | .ok (packet, _) => [packet]
          | _ => []
      | _ => []
  | _ => []

def remoteEvent : Packet → Option Event
  | .publish pkt => some (.remotePublish pkt.topic pkt.payload pkt.qos pkt.retain)
  | _ => none

def Link.events (self : Link) : LinkEvent → List Event
  | .broker event => [event]
  | event => (self.handed event).filterMap remoteEvent

theorem keeps_on_packet (packets : List Packet) (readBuf : Bytes) (packet : Packet) (bytesRead : Nat)
    (decoded : decodePacket readBuf = .ok (packet, bytesRead)) :
    innerLoop keepsOn () packets readBuf = innerLoop keepsOn () (packets ++ [packet]) (readBuf.drop bytesRead) := by
  rw [inner_loop_drain, inner_loop_drain, drain_item _ _ _ _ _ packet bytesRead ((decide_packet_item_iff _ _ _).mpr decoded)]
  rfl

theorem keeps_on_fails (packets : List Packet) (readBuf : Bytes) (fails : ∀ read, decodePacket readBuf ≠ .ok read)
    (complete : decodePacket readBuf ≠ .err .incomplete) : (innerLoop keepsOn () packets readBuf).handed = packets := by
  rw [innerLoop]
  split
  · rename_i decoded
    exact absurd decoded (fails _)
  · rename_i waits
    exact absurd waits complete
  · rfl
  · rfl

theorem engine_wires (attempt : Attempt) : attempt.engine.wires = attempt.link.wires := by
  unfold Attempt.engine
  split <;> rfl

theorem write_wires (link : Link) (packet : Packet) (next : Phase) (written : Written) :
    (link.write packet next written).link.wires.length = link.wires.length := by
  have put : ∀ bytes, (link.put bytes).wires.length = link.wires.length := by
    intro bytes
    unfold Link.put
    cases wires : link.wires with
    | nil => simp [wires]
    | cons wire earlier => rfl
  cases written with
  | whole => exact put _
  | broken sent => exact put _

theorem write_phase (link : Link) (packet : Packet) (next : Phase) (written : Written) :
    (link.write packet next written).engine.phase = next ∨ (link.write packet next written).engine.phase = .down := by
  cases written with
  | whole => exact .inl rfl
  | broken sent => exact .inr rfl

theorem local_phase (link : Link) (readBuf : Bytes) (written : Written) (running : link.phase = .running readBuf) :
    (link.recvLocal readBuf written).engine.phase = .running readBuf ∨
      (link.recvLocal readBuf written).engine.phase = .down := by
  unfold Link.recvLocal
  split
  · exact .inl running
  · dsimp only
    split
    · exact write_phase _ _ _ _
    · exact .inl running

section Reads

variable (verifyPassword : String → String → Bool) (user pass : String)

theorem hears_running (link : Link) (packets : List Packet) (readBuf : Bytes) (running : link.phase = .running readBuf)
    (event : LinkEvent) :
    Hears (packets ++ link.handed event) ((link.readNow event).foldl (readStep keepsOn) ⟨(), packets, .waiting readBuf⟩)
      (link.step verifyPassword user pass event).phase := by
  have stays : ∀ phase, phase = .running readBuf ∨ phase = .down →
      Hears (packets ++ []) (⟨(), packets, .waiting readBuf⟩ : LoopState Unit Unit) phase := by
    rintro phase (rfl | rfl)
    · exact .running readBuf (by rw [List.append_nil])
    · exact .gone _ (.inl rfl) (List.append_nil _).symm
  have idle : (link.step verifyPassword user pass event).phase = .running readBuf ∨
      (link.step verifyPassword user pass event).phase = .down → link.handed event = [] → link.readNow event = [] →
      Hears (packets ++ link.handed event) ((link.readNow event).foldl (readStep keepsOn) ⟨(), packets, .waiting readBuf⟩)
        (link.step verifyPassword user pass event).phase := by
    intro phase silent unread
    rw [silent, unread]
    exact stays _ phase
  cases event with
  | broker event => exact idle (.inl (by simpa only [Link.step, Link.advance, engine_runs] using running)) rfl rfl
  | unreachable => exact idle (.inl (by simp only [Link.step, Link.advance, engine_runs, running])) rfl rfl
  | connects written => exact idle (.inl (by simp only [Link.step, Link.advance, engine_runs, running])) rfl rfl
  | connAck result written => exact idle (.inl (by simp only [Link.step, Link.advance, engine_runs, running])) rfl rfl
  | turn => exact idle (.inl (by simp only [Link.step, Link.advance, engine_runs, running])) (by simp only [Link.handed, running]) rfl
  | localMsg written =>
      have step : link.step verifyPassword user pass (.localMsg written) = (link.recvLocal readBuf written).engine := by
        simp only [Link.step, Link.advance, running]
      exact idle (by rw [step]; exact local_phase link readBuf written running) rfl rfl
  | ping written =>
      have step : link.step verifyPassword user pass (.ping written) =
          (link.write .pingReq (.running readBuf) written).engine := by
        simp only [Link.step, Link.advance, running]
      exact idle (by rw [step]; exact write_phase link _ _ written) rfl rfl
  | read result =>
      cases result with
      | timedOut => exact idle (.inl (by simp only [Link.step, Link.advance, engine_runs, running])) rfl (by simp only [Link.readNow, running])
      | failed =>
          have step : (link.step verifyPassword user pass (.read .failed)).phase = .down := by
            simp only [Link.step, Link.advance, running, engine_fails]
          rw [step]
          exact .gone _ (.inl rfl) (by simp [Link.readNow, Link.handed, running, readStep])
      | bytes chunk =>
          have now : link.readNow (.read (.bytes chunk)) = [.bytes chunk] := by simp only [Link.readNow, running]
          have silent : link.handed (.read (.bytes chunk)) = [] := rfl
          rw [now, silent, List.append_nil, List.foldl_cons, List.foldl_nil]
          cases chunk with
          | nil =>
              have step : (link.step verifyPassword user pass (.read (.bytes []))).phase = .down := by
                simp only [Link.step, Link.advance, running, engine_fails]
              rw [step]
              exact .gone _ (.inl rfl) rfl
          | cons byte tail =>
              have step : (link.step verifyPassword user pass (.read (.bytes (byte :: tail)))).phase =
                  .decoding (readBuf ++ byte :: tail) := by simp only [Link.step, Link.advance, engine_runs, running]
              rw [step]
              exact .decoding _ rfl

theorem hears_decoding (link : Link) (packets : List Packet) (readBuf : Bytes) (decoding : link.phase = .decoding readBuf)
    (event : LinkEvent) :
    Hears (packets ++ link.handed event) ((link.readNow event).foldl (readStep keepsOn) (innerLoop keepsOn () packets readBuf))
      (link.step verifyPassword user pass event).phase := by
  have idle : (link.step verifyPassword user pass event).phase = .decoding readBuf → link.handed event = [] →
      link.readNow event = [] →
      Hears (packets ++ link.handed event)
        ((link.readNow event).foldl (readStep keepsOn) (innerLoop keepsOn () packets readBuf))
        (link.step verifyPassword user pass event).phase := by
    intro phase silent unread
    rw [silent, unread, phase, List.append_nil]
    exact .decoding readBuf rfl
  cases event with
  | broker event => exact idle (by simpa only [Link.step, Link.advance, engine_runs] using decoding) rfl rfl
  | unreachable => exact idle (by simp only [Link.step, Link.advance, engine_runs, decoding]) rfl rfl
  | connects written => exact idle (by simp only [Link.step, Link.advance, engine_runs, decoding]) rfl rfl
  | connAck result written => exact idle (by simp only [Link.step, Link.advance, engine_runs, decoding]) rfl rfl
  | localMsg written => exact idle (by simp only [Link.step, Link.advance, engine_runs, decoding]) rfl rfl
  | ping written => exact idle (by simp only [Link.step, Link.advance, engine_runs, decoding]) rfl rfl
  | read result => exact idle (by simp only [Link.step, Link.advance, engine_runs, decoding]) rfl (by simp only [Link.readNow, decoding])
  | turn =>
      have step : link.step verifyPassword user pass .turn = (link.decode verifyPassword readBuf).engine := by
        simp only [Link.step, Link.advance, decoding]
      have unread : link.readNow .turn = [] := rfl
      rw [step, unread, List.foldl_nil]
      cases decoded : decodePacket readBuf with
      | ok read =>
          obtain ⟨packet, bytesRead⟩ := read
          have bounds := decode_packet_consumes readBuf packet bytesRead decoded
          have handed : link.handed .turn = [packet] := by simp only [Link.handed, decoding, decoded]
          have phase : (link.decode verifyPassword readBuf).engine.phase = .decoding (readBuf.drop bytesRead) := by
            simp only [Link.decode, engine_runs, decoded, if_pos bounds.2]
          rw [handed, phase]
          exact .decoding _ (keeps_on_packet packets readBuf packet bytesRead decoded)
      | panic =>
          have handed : link.handed .turn = [] := by simp only [Link.handed, decoding, decoded]
          have phase : (link.decode verifyPassword readBuf).engine.phase = .panicked := by simp only [Link.decode, engine_runs, decoded]
          rw [handed, phase, List.append_nil]
          exact .gone _ (.inr rfl) (keeps_on_fails packets readBuf (by simp [decoded]) (by simp [decoded]))
      | err error =>
          have handed : link.handed .turn = [] := by simp only [Link.handed, decoding, decoded]
          rw [handed, List.append_nil]
          by_cases waits : error = .incomplete
          · have phase : (link.decode verifyPassword readBuf).engine.phase = .running readBuf := by
              simp only [Link.decode, engine_runs, decoded, waits]
            rw [phase]
            exact .running readBuf (inner_loop_incomplete keepsOn () packets readBuf (by rw [decoded, waits]))
          · have phase : (link.decode verifyPassword readBuf).engine.phase = .down := by simp only [Link.decode, decoded, engine_fails]
            rw [phase]
            exact .gone _ (.inl rfl)
              (keeps_on_fails packets readBuf (by simp [decoded]) (by simpa [decoded] using waits))

theorem step_hears (link : Link) (event : LinkEvent) (packets : List Packet) (alone : LoopState Unit Unit)
    (hears : Hears packets alone link.phase)
    (within : (link.step verifyPassword user pass event).wires.length = link.wires.length) :
    Hears (packets ++ link.handed event) ((link.readNow event).foldl (readStep keepsOn) alone)
      (link.step verifyPassword user pass event).phase := by
  generalize phase : link.phase = before at hears
  cases hears with
  | running readBuf same => exact same ▸ hears_running verifyPassword user pass link packets readBuf phase event
  | decoding readBuf same => exact same ▸ hears_decoding verifyPassword user pass link packets readBuf phase event
  | gone _ ended same =>
      have silent : link.handed event = [] ∧ link.readNow event = [] := by
        rcases ended with rfl | rfl
        · cases event with
          | read result => exact ⟨rfl, by simp only [Link.readNow, phase]⟩
          | turn => exact ⟨by simp only [Link.handed, phase], rfl⟩
          | _ => exact ⟨rfl, rfl⟩
        · cases event with
          | read result => exact ⟨rfl, by simp only [Link.readNow, phase]⟩
          | turn => exact ⟨by simp only [Link.handed, phase], rfl⟩
          | _ => exact ⟨rfl, rfl⟩
      rw [silent.1, silent.2, List.append_nil]
      refine .gone _ ?_ same
      rcases ended with rfl | rfl
      · cases event with
        | broker event => exact .inl (by simpa only [Link.step, Link.advance, engine_runs] using phase)
        | unreachable => exact .inl (by simp only [Link.step, Link.advance, phase, engine_fails])
        | connects written =>
            have begun : (link.step verifyPassword user pass (.connects written)).wires.length = link.wires.length + 1 := by
              simp only [Link.step, Link.advance, phase]
              rw [engine_wires, write_wires]
              rfl
            omega
        | _ => exact .inl (by simp only [Link.step, Link.advance, engine_runs, phase])
      · cases event with
        | broker event => exact .inr (by simpa only [Link.step, Link.advance, engine_runs] using phase)
        | _ => exact .inr (by simp only [Link.step, Link.advance, engine_runs, phase])

theorem step_wires (link : Link) (event : LinkEvent) :
    link.wires.length ≤ (link.step verifyPassword user pass event).wires.length := by
  rw [Link.step, engine_wires]
  unfold Link.advance
  split
  · exact Nat.le_refl _
  · exact Nat.le_refl _
  · rw [write_wires]
    exact Nat.le_succ _
  · split
    · rw [write_wires]
    · exact Nat.le_refl _
    · exact Nat.le_refl _
  · exact Nat.le_refl _
  · exact Nat.le_refl _
  · exact Nat.le_refl _
  · unfold Link.decode
    split
    · rename_i packet consumed _
      cases packet with
      | _ => exact Nat.le_refl _
    · exact Nat.le_refl _
    · exact Nat.le_refl _
    · exact Nat.le_refl _
  · unfold Link.recvLocal
    split
    · exact Nat.le_refl _
    · dsimp only
      split
      · rw [write_wires]
      · exact Nat.le_refl _
  · rw [write_wires]
  · exact Nat.le_refl _

theorem run_wires (link : Link) (run : List LinkEvent) :
    link.wires.length ≤ (run.foldl (Link.step verifyPassword user pass) link).wires.length := by
  induction run generalizing link with
  | nil => exact Nat.le_refl _
  | cons event rest ih => exact Nat.le_trans (step_wires verifyPassword user pass link event) (ih _)

theorem run_hears (link : Link) (run : List LinkEvent) (packets : List Packet) (alone : LoopState Unit Unit)
    (hears : Hears packets alone link.phase)
    (within : (run.foldl (Link.step verifyPassword user pass) link).wires.length = link.wires.length) :
    Hears (packets ++ Run.outputs (Link.step verifyPassword user pass) Link.handed link run)
      ((Run.outputs (Link.step verifyPassword user pass) Link.readNow link run).foldl (readStep keepsOn) alone)
      (run.foldl (Link.step verifyPassword user pass) link).phase := by
  induction run generalizing link packets alone with
  | nil =>
      rw [Run.outputs, List.append_nil]
      exact hears
  | cons event rest ih =>
      rw [List.foldl_cons] at within
      have first := step_wires verifyPassword user pass link event
      have later := run_wires verifyPassword user pass (link.step verifyPassword user pass event) rest
      have step := step_hears verifyPassword user pass link event packets alone hears (by omega)
      rw [Run.outputs, Run.outputs, ← List.append_assoc, List.foldl_append]
      exact ih _ _ _ step (by omega)

theorem write_broker (link : Link) (packet : Packet) (next : Phase) (written : Written) :
    (link.write packet next written).engine.network = link.network := (write_network link packet next written).1

theorem step_network (link : Link) (event : LinkEvent) :
    (link.step verifyPassword user pass event).network =
      (link.events event).foldl (Network.step verifyPassword) link.network := by
  cases event with
  | broker event => simp only [Link.step, Link.advance, engine_runs, Link.events, List.foldl_cons, List.foldl_nil]
  | turn =>
      cases phase : link.phase with
      | decoding readBuf =>
          have step : link.step verifyPassword user pass .turn = (link.decode verifyPassword readBuf).engine := by
            simp only [Link.step, Link.advance, phase]
          rw [step, Link.decode]
          cases decoded : decodePacket readBuf with
          | panic => simp [Link.events, Link.handed, phase, decoded]
          | err error => cases error with | _ => simp [Link.events, Link.handed, phase, decoded, engine_fails]
          | ok read =>
              simp only [Link.events, Link.handed, phase, decoded]
              cases read.1 with
              | _ => rfl
      | _ => simp only [Link.step, Link.advance, engine_runs, phase, Link.events, Link.handed, List.filterMap_nil, List.foldl_nil]
  | unreachable =>
      simp only [Link.events, Link.handed, List.filterMap_nil, List.foldl_nil]
      cases phase : link.phase with
      | _ => simp only [Link.step, Link.advance, engine_runs, phase, engine_fails]
  | connects written =>
      simp only [Link.events, Link.handed, List.filterMap_nil, List.foldl_nil]
      cases phase : link.phase with
      | _ => simp only [Link.step, Link.advance, engine_runs, phase, write_broker]
  | connAck result written =>
      simp only [Link.events, Link.handed, List.filterMap_nil, List.foldl_nil]
      cases phase : link.phase with
      | awaitingConnAck =>
          simp only [Link.step, Link.advance, phase]
          split
          · exact write_broker link _ _ _
          · rfl
          · rfl
      | _ => simp only [Link.step, Link.advance, engine_runs, phase]
  | read result =>
      simp only [Link.events, Link.handed, List.filterMap_nil, List.foldl_nil]
      cases phase : link.phase with
      | running readBuf =>
          cases result with
          | timedOut => simp only [Link.step, Link.advance, engine_runs]
          | failed => simp only [Link.step, Link.advance, phase, engine_fails]
          | bytes chunk => cases chunk with | _ => simp only [Link.step, Link.advance, engine_runs, phase, engine_fails]
      | _ => simp only [Link.step, Link.advance, engine_runs, phase]
  | localMsg written =>
      simp only [Link.events, Link.handed, List.filterMap_nil, List.foldl_nil]
      cases phase : link.phase with
      | running readBuf =>
          simp only [Link.step, Link.advance, phase, Link.recvLocal]
          split
          · rfl
          · split
            · exact write_broker _ _ _ _
            · rfl
      | _ => simp only [Link.step, Link.advance, engine_runs, phase]
  | ping written =>
      simp only [Link.events, Link.handed, List.filterMap_nil, List.foldl_nil]
      cases phase : link.phase with
      | _ => simp only [Link.step, Link.advance, engine_runs, phase, write_broker]

theorem run_network (link : Link) (run : List LinkEvent) :
    (run.foldl (Link.step verifyPassword user pass) link).network =
      (Run.outputs (Link.step verifyPassword user pass) Link.events link run).foldl (Network.step verifyPassword) link.network := by
  induction run generalizing link with
  | nil => rfl
  | cons event rest ih =>
      rw [List.foldl_cons, ih, Run.outputs, List.foldl_append, step_network verifyPassword user pass link event]

end Reads

theorem remote_publishes_routed (verifyPassword : String → String → Bool) (user pass : String) (link : Link)
    (leftover : Bytes) (running : link.phase = .running leftover) (run : List LinkEvent) (later : Link)
    (reached : later = run.foldl (Link.step verifyPassword user pass) link)
    (connected : later.wires.length = link.wires.length) (handed : List Packet)
    (isHanded : handed = Run.outputs (Link.step verifyPassword user pass) Link.handed link run)
    (alone : LoopState Unit Unit) (isAlone : alone =
      mainLoop keepsOn () leftover (Run.outputs (Link.step verifyPassword user pass) Link.readNow link run)) :
    handed <+: alone.handed ∧ ((∀ readBuf, later.phase ≠ .decoding readBuf) → handed = alone.handed) ∧
      (∀ readBuf, later.phase = .running readBuf → alone.status = .waiting readBuf) ∧
      later.network =
        (Run.outputs (Link.step verifyPassword user pass) Link.events link run).foldl (Network.step verifyPassword) link.network := by
  have hears := run_hears verifyPassword user pass link run [] ⟨(), [], .waiting leftover⟩ (running ▸ .running leftover rfl)
    (reached ▸ connected)
  have same : (Run.outputs (Link.step verifyPassword user pass) Link.readNow link run).foldl (readStep keepsOn)
      ⟨(), [], .waiting leftover⟩ = alone := isAlone.symm
  rw [List.nil_append, ← isHanded, same, ← reached] at hears
  have network := run_network verifyPassword user pass link run
  rw [← reached] at network
  generalize phase : later.phase = last at hears
  cases hears with
  | running readBuf same =>
      refine ⟨same ▸ List.prefix_refl handed, fun _ => by rw [same], fun other isLast => ?_, network⟩
      cases isLast
      rw [same]
  | decoding readBuf same =>
      have begun : handed <+: alone.handed := by
        rw [same, inner_loop_drain]
        exact drain_handed packetDecoder (processStep keepsOn) () handed readBuf
      refine ⟨begun, fun settled => absurd rfl (settled readBuf), ?_, network⟩
      intro other isLast
      cases isLast
  | gone _ ended same =>
      refine ⟨same ▸ List.prefix_refl _, fun _ => same.symm, fun other isLast => ?_, network⟩
      rcases ended with rfl | rfl
      · cases isLast
      · cases isLast

def alertInPieces : List LinkEvent :=
  [.read (.bytes ((encodePacket (bridgePublish ("alerts/x", [1]))).take 5)), .turn, .localMsg .whole,
    .read (.bytes ((encodePacket (bridgePublish ("alerts/x", [1]))).drop 5)), .turn, .ping .whole, .turn]

def greeted : List LinkEvent := [.connects .whole, .connAck (.bytes (encodePacket (connAckReply 0))) .whole]

def connectedLink : Link := greeted.foldl (Link.step (fun _ _ => true) "" "") (.start anonymousNetwork)

theorem alert_routed :
    (mainLoop keepsOn () []
        [.bytes ((encodePacket (bridgePublish ("alerts/x", [1]))).take 5),
          .bytes ((encodePacket (bridgePublish ("alerts/x", [1]))).drop 5)]).handed = [bridgePublish ("alerts/x", [1])] ∧
      (mainLoop keepsOn () []
        [.bytes ((encodePacket (bridgePublish ("alerts/x", [1]))).take 5),
          .bytes ((encodePacket (bridgePublish ("alerts/x", [1]))).drop 5)]).status = .waiting [] ∧
      (alertInPieces.foldl (Link.step (fun _ _ => true) "" "") connectedLink).network =
        connectedLink.network.step (fun _ _ => true) (.remotePublish "alerts/x" [1] 0 false) := by
  have reads : [ReadResult.bytes ((encodePacket (bridgePublish ("alerts/x", [1]))).take 5),
      .bytes ((encodePacket (bridgePublish ("alerts/x", [1]))).drop 5)] =
      Run.outputs (Link.step (fun _ _ => true) "" "") Link.readNow connectedLink alertInPieces := by decide +kernel
  have selects : (alertInPieces.foldl (Link.step (fun _ _ => true) "" "") connectedLink).phase = .running [] := by
    decide +kernel
  have events : Run.outputs (Link.step (fun _ _ => true) "" "") Link.events connectedLink alertInPieces =
      [.remotePublish "alerts/x" [1] 0 false] := by decide +kernel
  obtain ⟨_, all, unread, network⟩ := remote_publishes_routed (fun _ _ => true) "" "" connectedLink [] (by decide +kernel)
    alertInPieces (alertInPieces.foldl (Link.step (fun _ _ => true) "" "") connectedLink) rfl (by decide +kernel)
    [bridgePublish ("alerts/x", [1])] (by decide +kernel) _ (congrArg (mainLoop keepsOn () []) reads)
  refine ⟨(all ?_).symm, unread [] selects, ?_⟩
  · intro readBuf
    rw [selects]
    exact nofun
  · rw [network, events]
    rfl

end Pipistrelle.Connection
