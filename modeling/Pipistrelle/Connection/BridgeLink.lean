import Pipistrelle.Broker.Bridge
import Pipistrelle.Connection.ClientStream
import Pipistrelle.Connection.Handshake

set_option autoImplicit false

/- The task of start_bridge_engine over all its connections, down to their bytes: the
   handshake, the select loop, reads that are cut, writes that break off, and the waits
   before it connects again. TCP and TLS below it either come up or do not. -/
namespace Pipistrelle.Connection

open Codec ChunkedDecode Auth Broker

-- write_all and flush of one packet: all of it, or an error after some of its bytes.
inductive Written where
  | whole
  | broken (sent : Nat)
deriving DecidableEq, Repr

inductive Phase where
  | down
  | awaitingConnAck
  | running (readBuf : Bytes)
  | decoding (readBuf : Bytes)
  -- decode_packet or advance has panicked, and the task with it.
  | panicked
deriving DecidableEq, Repr

-- The bytes written to each remote connection, the last connection first, and how many
-- seconds the task has slept before it connected again, each time.
structure Link where
  network : Network
  received : Nat := 0
  phase : Phase := .down
  wires : List Bytes := []
  backoff : Nat := 5
  waits : List Nat := []

inductive LinkEvent where
  | broker (event : Event)
  | unreachable
  | connects (written : Written)
  | connAck (result : ReadResult) (written : Written)
  | read (result : ReadResult)
  | turn
  | localMsg (written : Written)
  | ping (written : Written)

def Link.channel (self : Link) : List (String × Bytes) := self.network.broker.bridgeSender.getD []

inductive Returned where
  | ok
  | err
deriving DecidableEq, Repr

-- connect_and_run_bridge: where it is, and what it has returned if it has.
structure Attempt where
  link : Link
  returned : Option Returned

def Link.fail (self : Link) : Attempt := ⟨self, some .err⟩

-- The loop of start_bridge_engine around it.
def Attempt.engine (self : Attempt) : Link :=
  match self.returned with
  | none => self.link
  | some .ok => { self.link with phase := .down, waits := self.link.waits ++ [5], backoff := 5 }
  | some .err => { self.link with
      phase := .down, waits := self.link.waits ++ [self.link.backoff + 5], backoff := min (self.link.backoff * 2) 60 }

@[simp] theorem engine_runs (link : Link) : (⟨link, none⟩ : Attempt).engine = link := rfl

@[simp] theorem engine_fails (link : Link) : link.fail.engine =
    { link with phase := .down, waits := link.waits ++ [link.backoff + 5], backoff := min (link.backoff * 2) 60 } := rfl

def Link.put (self : Link) (bytes : Bytes) : Link :=
  match self.wires with
  | [] => self
  | wire :: earlier => { self with wires := (wire ++ bytes) :: earlier }

def Link.write (self : Link) (packet : Packet) (next : Phase) : Written → Attempt
  | .whole => ⟨{ self.put (encodePacket packet) with phase := next }, none⟩
  | .broken sent => (self.put ((encodePacket packet).take sent)).fail

inductive Greeting where
  | accepted (readBuf : Bytes)
  | refused
  | panics

def readConnAck : ReadResult → Greeting
  | .bytes (byte :: tail) =>
      match decodePacket (byte :: tail) with
      | .ok (.connAck connack, bytesRead) =>
          if connack.reasonCode ≠ 0 then .refused
          else if bytesRead ≤ (byte :: tail).length then .accepted ((byte :: tail).drop bytesRead) else .panics
      | .panic => .panics
      | _ => .refused
  | .bytes [] | .failed | .timedOut => .refused

def Link.recvLocal (self : Link) (readBuf : Bytes) (written : Written) : Attempt :=
  match self.channel[self.received]? with
  | none => ⟨self, none⟩
  | some message =>
      let self := { self with received := self.received + 1 }
      if forwarded message then self.write (bridgePublish message) (.running readBuf) written else ⟨self, none⟩

section Step

variable (verifyPassword : String → String → Bool) (user pass : String)

def Link.route (self : Link) : Packet → Link
  | .publish pkt => { self with
      network := self.network.step verifyPassword (.remotePublish pkt.topic pkt.payload pkt.qos pkt.retain) }
  | _ => self

def Link.decode (self : Link) (readBuf : Bytes) : Attempt :=
  match decodePacket readBuf with
  | .ok (packet, consumed) =>
      ⟨{ self.route verifyPassword packet with
        phase := if consumed ≤ readBuf.length then .decoding (readBuf.drop consumed) else .panicked }, none⟩
  | .err .incomplete => ⟨{ self with phase := .running readBuf }, none⟩
  | .err _ => self.fail
  | .panic => ⟨{ self with phase := .panicked }, none⟩

-- The broker's own steps happen beside it.
def Link.advance (self : Link) (event : LinkEvent) : Attempt :=
  match event, self.phase with
  | .broker event, _ => ⟨{ self with network := self.network.step verifyPassword event }, none⟩
  | .unreachable, .down => self.fail
  | .connects written, .down =>
      { self with wires := [] :: self.wires }.write (bridgeConnect user pass) .awaitingConnAck written
  | .connAck result written, .awaitingConnAck =>
      match readConnAck result with
      | .accepted readBuf => self.write bridgeSubscribe (.running readBuf) written
      | .refused => self.fail
      | .panics => ⟨{ self with phase := .panicked }, none⟩
  | .read (.bytes (byte :: tail)), .running readBuf => ⟨{ self with phase := .decoding (readBuf ++ byte :: tail) }, none⟩
  | .read (.bytes []), .running _ | .read .failed, .running _ => self.fail
  | .turn, .decoding readBuf => self.decode verifyPassword readBuf
  | .localMsg written, .running readBuf => self.recvLocal readBuf written
  | .ping written, .running readBuf => self.write .pingReq (.running readBuf) written
  | _, _ => ⟨self, none⟩

def Link.step (self : Link) (event : LinkEvent) : Link := (self.advance verifyPassword user pass event).engine

end Step

def Link.start (network : Network) : Link where
  network := { network with broker := { network.broker with bridgeSender := some [] } }

structure Stream where
  packets : List Packet
  cut : Bytes

def Stream.bytes (self : Stream) : Bytes := (self.packets.map encodePacket).flatten ++ self.cut

def Looped (packet : Packet) : Prop := packet = .pingReq ∨ ∃ message, forwarded message = true ∧ packet = bridgePublish message

def Shaped (user pass : String) (packets : List Packet) : Prop :=
  ∃ rest, packets <+: bridgeConnect user pass :: bridgeSubscribe :: rest ∧ ∀ packet ∈ rest, Looped packet

def Phase.Reached (user pass : String) : Phase → List Stream → Prop
  | .down, _ | .panicked, _ => True
  | .awaitingConnAck, streams => ∃ earlier, streams = ⟨[bridgeConnect user pass], []⟩ :: earlier
  | .running _, streams | .decoding _, streams => ∃ rest earlier,
      streams = ⟨bridgeConnect user pass :: bridgeSubscribe :: rest, []⟩ :: earlier ∧ ∀ packet ∈ rest, Looped packet

def publishesOf (streams : List Stream) : List Packet := (streams.reverse.flatMap (·.packets)).filter isPublish

structure Link.Wired (user pass : String) (link : Link) (streams : List Stream) : Prop where
  wires : link.wires = streams.map Stream.bytes
  reached : link.phase.Reached user pass streams
  shaped : ∀ stream ∈ streams, Shaped user pass stream.packets
  encodable : ∀ stream ∈ streams, ∀ packet ∈ stream.packets, packet.Encodable
  unfinished : ∀ stream ∈ streams, decodePacket stream.cut = .err .incomplete

-- What was taken from the channel to be forwarded: all of it went out in order, but for
-- what a failure may have cost.
structure Link.Accounts (link : Link) (taken : List (String × Bytes)) (streams : List Stream) : Prop where
  ordered : (publishesOf streams).Sublist (taken.map bridgePublish)
  lost : taken.length ≤ (publishesOf streams).length + link.waits.length

theorem publishes_of_write (packets : List Packet) (packet : Packet) (cut : Bytes) (earlier : List Stream) :
    publishesOf (⟨packets ++ [packet], cut⟩ :: earlier) =
      publishesOf (⟨packets, []⟩ :: earlier) ++ [packet].filter isPublish := by
  simp only [publishesOf, List.reverse_cons, List.flatMap_append, List.flatMap_singleton, List.filter_append,
    List.append_assoc]

theorem publishes_of_cut (packets : List Packet) (cut : Bytes) (earlier : List Stream) :
    publishesOf (⟨packets, cut⟩ :: earlier) = publishesOf (⟨packets, []⟩ :: earlier) := by
  simp only [publishesOf, List.reverse_cons, List.flatMap_append, List.flatMap_singleton]

theorem write_cases (link : Link) (packet : Packet) (next : Phase) (written : Written) (encodable : packet.Encodable)
    (packets : List Packet) (earlier : List Stream) (wires : link.wires = (⟨packets, []⟩ :: earlier : List Stream).map Stream.bytes) :
    ((link.write packet next written).engine.wires = (⟨packets ++ [packet], []⟩ :: earlier : List Stream).map Stream.bytes ∧
        (link.write packet next written).engine = { link with wires := (link.write packet next written).engine.wires, phase := next }) ∨
      ∃ newest : Stream, (newest.packets = packets ++ [packet] ∨ newest.packets = packets) ∧
        decodePacket newest.cut = .err .incomplete ∧
        (link.write packet next written).engine.wires = (newest :: earlier).map Stream.bytes ∧
        (link.write packet next written).engine = { link.fail.engine with wires := (link.write packet next written).engine.wires } := by
  have put : ∀ bytes, link.put bytes = { link with
      wires := (((packets.map encodePacket).flatten ++ bytes) :: earlier.map Stream.bytes) } := by
    intro bytes
    simp only [Link.put, wires, List.map_cons, Stream.bytes, List.append_nil]
  have longer : ((packets ++ [packet]).map encodePacket).flatten = (packets.map encodePacket).flatten ++ encodePacket packet := by
    simp
  cases written with
  | whole =>
      refine .inl ⟨?_, ?_⟩
      · simp only [Link.write, put, engine_runs, List.map_cons, Stream.bytes, longer, List.append_nil]
      · simp only [Link.write, put, engine_runs]
  | broken sent =>
      refine .inr ?_
      by_cases whole : (encodePacket packet).length ≤ sent
      · refine ⟨⟨packets ++ [packet], []⟩, .inl rfl, decode_packet_nil, ?_, ?_⟩
        · simp only [Link.write, put, engine_fails, List.map_cons, Stream.bytes, longer, List.append_nil,
            List.take_of_length_le whole]
        · simp only [Link.write, put, engine_fails]
      · have inside := Nat.lt_of_not_le whole
        refine ⟨⟨packets, (encodePacket packet).take sent⟩, .inr rfl, ?_, ?_, ?_⟩
        · refine wire_frame_prefix (encodedFrame packet encodable) _ ((encodePacket packet).drop sent) ?_
            (List.take_append_drop sent _).symm
          intro nothing
          have short := List.drop_eq_nil_iff.mp nothing
          omega
        · simp only [Link.write, put, engine_fails, List.map_cons, Stream.bytes]
        · simp only [Link.write, put, engine_fails]

section Keeps

variable (user pass : String)

theorem shaped_prefix (packets more : List Packet) (shaped : Shaped user pass (packets ++ more)) : Shaped user pass packets := by
  obtain ⟨rest, begins, looped⟩ := shaped
  exact ⟨rest, (List.prefix_append packets more).trans begins, looped⟩

theorem write_keeps (link : Link) (packet : Packet) (next : Phase) (written : Written) (packets : List Packet)
    (earlier : List Stream) (wires : link.wires = (⟨packets, []⟩ :: earlier : List Stream).map Stream.bytes)
    (reached : next.Reached user pass (⟨packets ++ [packet], []⟩ :: earlier))
    (shaped : Shaped user pass (packets ++ [packet])) (encodable : ∀ other ∈ packets ++ [packet], other.Encodable)
    (before : ∀ stream ∈ earlier, Shaped user pass stream.packets ∧ (∀ packet ∈ stream.packets, packet.Encodable) ∧
      decodePacket stream.cut = .err .incomplete)
    (taken added : List (String × Bytes)) (accounts : link.Accounts taken (⟨packets, []⟩ :: earlier))
    (adds : [packet].filter isPublish = added.map bridgePublish) (one : added.length ≤ 1) :
    ∃ streams, (link.write packet next written).engine.Wired user pass streams ∧
      (link.write packet next written).engine.Accounts (taken ++ added) streams := by
  obtain ⟨ordered, lost⟩ := accounts
  have more := publishes_of_write packets packet
  have width : ([packet].filter isPublish).length = added.length := by rw [adds, List.length_map]
  have alone : ∀ stream : Stream, (stream.packets = packets ++ [packet] ∨ stream.packets = packets) →
      decodePacket stream.cut = .err .incomplete → ∀ other ∈ stream :: earlier, Shaped user pass other.packets ∧
        (∀ packet ∈ other.packets, packet.Encodable) ∧ decodePacket other.cut = .err .incomplete := by
    intro stream sent cut
    refine List.forall_mem_cons.mpr ⟨⟨?_, ?_, cut⟩, before⟩
    · rcases sent with same | same
      · exact same ▸ shaped
      · exact same ▸ shaped_prefix user pass packets [packet] shaped
    · rcases sent with same | same
      · exact same ▸ encodable
      · exact same ▸ fun other member => encodable other (List.mem_append_left _ member)
  rcases write_cases link packet next written (encodable packet (by simp)) packets earlier wires with
    ⟨sent, same⟩ | ⟨newest, sent, cut, broke, same⟩
  · have all := alone ⟨packets ++ [packet], []⟩ (.inl rfl) decode_packet_nil
    refine ⟨⟨packets ++ [packet], []⟩ :: earlier, ⟨sent, by rw [same]; exact reached, fun stream member => (all stream member).1,
      fun stream member => (all stream member).2.1, fun stream member => (all stream member).2.2⟩, ?_, ?_⟩
    · rw [more, adds, List.map_append]
      exact ordered.append (List.Sublist.refl _)
    · rw [more, List.length_append, List.length_append, width, same]
      dsimp only
      omega
  · have all := alone newest sent cut
    have newestCut : newest = ⟨newest.packets, newest.cut⟩ := rfl
    refine ⟨newest :: earlier, ⟨broke, by rw [same]; trivial, fun stream member => (all stream member).1,
      fun stream member => (all stream member).2.1, fun stream member => (all stream member).2.2⟩, ?_, ?_⟩
    · rw [newestCut, publishes_of_cut, List.map_append]
      rcases sent with same | same
      · rw [same, more, adds]
        exact ordered.append (List.Sublist.refl _)
      · rw [same]
        exact ordered.trans (List.sublist_append_left _ _)
    · have waited : (link.write packet next written).engine.waits.length = link.waits.length + 1 := by
        rw [same]
        exact List.length_append
      rw [newestCut, publishes_of_cut, List.length_append, waited]
      rcases sent with same | same
      · rw [same, more, List.length_append, width]
        omega
      · rw [same]
        omega

structure Link.Kept (link : Link) (published : List (String × Bytes)) : Prop where
  channel : link.network.broker.bridgeSender = some published
  within : link.received ≤ published.length
  fits : ∀ message ∈ published, (bridgePublish message).Encodable
  streams : ∃ streams, link.Wired user pass streams ∧ link.Accounts ((published.take link.received).filter forwarded) streams

theorem moved_keeps (link after : Link) (published : List (String × Bytes)) (kept : link.Kept user pass published)
    (network : after.network.broker.bridgeSender = link.network.broker.bridgeSender) (received : after.received = link.received)
    (wires : after.wires = link.wires) (waits : link.waits.length ≤ after.waits.length)
    (reached : ∀ streams, link.phase.Reached user pass streams → after.phase.Reached user pass streams) :
    after.Kept user pass published := by
  obtain ⟨channel, within, fits, streams, wired, accounts⟩ := kept
  refine ⟨network.trans channel, received ▸ within, fits, streams, ?_, ?_⟩
  · exact ⟨wires.trans wired.wires, reached streams wired.reached, wired.shaped, wired.encodable, wired.unfinished⟩
  · rw [received]
    exact ⟨accounts.ordered, Nat.le_trans accounts.lost (Nat.add_le_add_left waits _)⟩

theorem fail_keeps (link : Link) (published : List (String × Bytes)) (kept : link.Kept user pass published) :
    link.fail.engine.Kept user pass published :=
  moved_keeps user pass link link.fail.engine published kept rfl rfl rfl (by simp) (fun _ _ => trivial)

theorem write_network (link : Link) (packet : Packet) (next : Phase) (written : Written) :
    (link.write packet next written).engine.network = link.network ∧
      (link.write packet next written).engine.received = link.received := by
  have put : ∀ bytes, (link.put bytes).network = link.network ∧ (link.put bytes).received = link.received := by
    intro bytes
    unfold Link.put
    split
    · exact ⟨rfl, rfl⟩
    · exact ⟨rfl, rfl⟩
  cases written with
  | whole => exact put _
  | broken sent => exact put _

theorem control_keeps (link : Link) (packet : Packet) (next : Phase) (written : Written)
    (published : List (String × Bytes)) (kept : link.Kept user pass published) (streams : List Stream)
    (wired : link.Wired user pass streams)
    (accounts : link.Accounts ((published.take link.received).filter forwarded) streams) (packets : List Packet)
    (earlier : List Stream) (last : streams = ⟨packets, []⟩ :: earlier) (silent : isPublish packet = false)
    (reached : next.Reached user pass (⟨packets ++ [packet], []⟩ :: earlier))
    (shaped : Shaped user pass (packets ++ [packet])) (encodable : packet.Encodable) :
    (link.write packet next written).engine.Kept user pass published := by
  obtain ⟨network, received⟩ := write_network link packet next written
  subst last
  have own := wired.encodable ⟨packets, []⟩ (by simp)
  have keeps := write_keeps user pass link packet next written packets earlier wired.wires reached shaped
    (by
      intro other member
      rcases List.mem_append.mp member with old | new
      · exact own other old
      · exact List.mem_singleton.mp new ▸ encodable)
    (fun stream member => ⟨wired.shaped stream (List.mem_cons_of_mem _ member),
      wired.encodable stream (List.mem_cons_of_mem _ member), wired.unfinished stream (List.mem_cons_of_mem _ member)⟩)
    _ [] accounts (by simp [silent]) (Nat.zero_le 1)
  rw [List.append_nil] at keeps
  exact ⟨by rw [network]; exact kept.channel, by rw [received]; exact kept.within, kept.fits, by rw [received]; exact keeps⟩

theorem subscribe_encodable : bridgeSubscribe.Encodable := by
  refine ⟨?_, by decide +kernel⟩
  simp [Packet.Fits, bridgeSubscribe, remoteSubFilter, StrFits, SubscribeProperties.Fits, UserPropertiesFit]
  decide

theorem connects_keeps (link : Link) (written : Written) (published : List (String × Bytes))
    (kept : link.Kept user pass published) (encodable : (bridgeConnect user pass).Encodable) :
    ({ link with wires := [] :: link.wires }.write (bridgeConnect user pass) .awaitingConnAck written).engine.Kept
      user pass published := by
  obtain ⟨channel, within, fits, streams, wired, accounts⟩ := kept
  have same : publishesOf (⟨[], []⟩ :: streams) = publishesOf streams := by simp [publishesOf]
  have keeps := write_keeps user pass { link with wires := [] :: link.wires } (bridgeConnect user pass) .awaitingConnAck
    written [] streams (by simp [wired.wires, Stream.bytes]) ⟨streams, rfl⟩
    ⟨[], List.prefix_append [bridgeConnect user pass] [bridgeSubscribe], fun _ member => by cases member⟩
    (by simpa using encodable)
    (fun stream member => ⟨wired.shaped stream member, wired.encodable stream member, wired.unfinished stream member⟩)
    ((published.take link.received).filter forwarded) [] ⟨same ▸ accounts.ordered, same ▸ accounts.lost⟩ rfl (Nat.zero_le 1)
  obtain ⟨network, received⟩ := write_network { link with wires := [] :: link.wires } (bridgeConnect user pass)
    .awaitingConnAck written
  rw [List.append_nil] at keeps
  exact ⟨by rw [network]; exact channel, by rw [received]; exact within, fits, by rw [received]; exact keeps⟩

theorem looped_shaped (rest : List Packet) (looped : ∀ packet ∈ rest, Looped packet) (packet : Packet) (one : Looped packet) :
    Shaped user pass ((bridgeConnect user pass :: bridgeSubscribe :: rest) ++ [packet]) ∧
      ∀ other ∈ rest ++ [packet], Looped other := by
  have all : ∀ other ∈ rest ++ [packet], Looped other := by
    intro other member
    rcases List.mem_append.mp member with old | new
    · exact looped other old
    · exact List.mem_singleton.mp new ▸ one
  exact ⟨⟨rest ++ [packet], List.prefix_refl _, all⟩, all⟩

theorem ping_keeps (link : Link) (readBuf : Bytes) (written : Written) (published : List (String × Bytes))
    (kept : link.Kept user pass published) (running : link.phase = .running readBuf) :
    (link.write .pingReq (.running readBuf) written).engine.Kept user pass published := by
  obtain ⟨streams, wired, accounts⟩ := kept.streams
  obtain ⟨rest, earlier, last, looped⟩ : (Phase.running readBuf).Reached user pass streams := running ▸ wired.reached
  obtain ⟨shaped, more⟩ := looped_shaped user pass rest looped .pingReq (.inl rfl)
  exact control_keeps user pass link .pingReq (.running readBuf) written published kept streams wired accounts _ earlier last
    rfl ⟨rest ++ [.pingReq], earlier, rfl, more⟩ shaped ⟨trivial, by decide⟩

theorem local_keeps (link : Link) (readBuf : Bytes) (written : Written) (published : List (String × Bytes))
    (kept : link.Kept user pass published) (running : link.phase = .running readBuf) :
    (link.recvLocal readBuf written).engine.Kept user pass published := by
  have channel : link.channel = published := by rw [Link.channel, kept.channel, Option.getD_some]
  unfold Link.recvLocal
  rw [channel]
  cases next : published[link.received]? with
  | none => exact kept
  | some message =>
      obtain ⟨more, isNext⟩ := List.getElem?_eq_some_iff.mp next
      have taken : (published.take (link.received + 1)).filter forwarded =
          (published.take link.received).filter forwarded ++ [message].filter forwarded := by
        rw [List.take_add_one, next, List.filter_append]
        rfl
      dsimp only
      obtain ⟨streams, wired, accounts⟩ := kept.streams
      by_cases goes : forwarded message = true
      · rw [if_pos goes]
        obtain ⟨rest, earlier, last, looped⟩ : (Phase.running readBuf).Reached user pass streams := running ▸ wired.reached
        obtain ⟨shaped, all⟩ := looped_shaped user pass rest looped (bridgePublish message) (.inr ⟨message, goes, rfl⟩)
        subst last
        have own := wired.encodable _ (List.mem_cons_self)
        have keeps := write_keeps user pass { link with received := link.received + 1 } (bridgePublish message)
          (.running readBuf) written _ earlier wired.wires ⟨rest ++ [bridgePublish message], earlier, rfl, all⟩ shaped
          (by
            intro other member
            rcases List.mem_append.mp member with old | new
            · exact own other old
            · exact List.mem_singleton.mp new ▸ kept.fits message (isNext ▸ List.getElem_mem more))
          (fun stream member => ⟨wired.shaped stream (List.mem_cons_of_mem _ member),
            wired.encodable stream (List.mem_cons_of_mem _ member), wired.unfinished stream (List.mem_cons_of_mem _ member)⟩)
          ((published.take link.received).filter forwarded) [message] ⟨accounts.ordered, accounts.lost⟩ rfl (Nat.le_refl 1)
        obtain ⟨network, received⟩ := write_network { link with received := link.received + 1 } (bridgePublish message)
          (.running readBuf) written
        have added : (published.take (link.received + 1)).filter forwarded =
            (published.take link.received).filter forwarded ++ [message] := by
          rw [taken, List.filter_cons, if_pos goes]
          rfl
        refine ⟨by rw [network]; exact kept.channel, by rw [received]; exact more, kept.fits, ?_⟩
        rw [received, added]
        exact keeps
      · rw [if_neg goes, engine_runs]
        have nothing : (published.take (link.received + 1)).filter forwarded = (published.take link.received).filter forwarded := by
          rw [taken, List.filter_cons, if_neg goes]
          exact List.append_nil _
        refine ⟨kept.channel, more, kept.fits, streams, ⟨wired.wires, wired.reached, wired.shaped, wired.encodable,
          wired.unfinished⟩, ?_⟩
        rw [nothing]
        exact ⟨accounts.ordered, accounts.lost⟩

theorem greeting_keeps (link : Link) (result : ReadResult) (written : Written) (published : List (String × Bytes))
    (kept : link.Kept user pass published) (awaiting : link.phase = .awaitingConnAck) :
    (match readConnAck result with
      | .accepted readBuf => link.write bridgeSubscribe (.running readBuf) written
      | .refused => link.fail
      | .panics => ⟨{ link with phase := .panicked }, none⟩ : Attempt).engine.Kept user pass published := by
  cases readConnAck result with
  | refused => exact fail_keeps user pass link published kept
  | panics => exact moved_keeps user pass link _ published kept rfl rfl rfl (Nat.le_refl _) (fun _ _ => trivial)
  | accepted readBuf =>
      obtain ⟨streams, wired, accounts⟩ := kept.streams
      obtain ⟨earlier, last⟩ : Phase.awaitingConnAck.Reached user pass streams := awaiting ▸ wired.reached
      exact control_keeps user pass link bridgeSubscribe (.running readBuf) written published kept streams wired accounts _
        earlier last rfl ⟨[], earlier, rfl, fun _ member => by cases member⟩
        ⟨[], List.prefix_refl _, fun _ member => by cases member⟩ subscribe_encodable

def Link.published (link : Link) : LinkEvent → List (String × Bytes)
  | .broker event => (⟨link.network, 0, [], []⟩ : Bridge).sends event
  | _ => []

def LinkEvent.Decoded : LinkEvent → Prop
  | .broker event => event.Decoded
  | _ => True

theorem publish_encodable (publication : Publication)
    (received : ∃ dup packetId properties, (Packet.publish ⟨dup, publication.qos, publication.retain, publication.topic,
      packetId, properties, publication.payload⟩).Encodable) :
    (bridgePublish (publication.topic, publication.payload)).Encodable := by
  obtain ⟨dup, packetId, properties, ⟨_, _, topicFits, _⟩, bound⟩ := received
  have blank : ({} : PublishProperties).encode = [0] := by decide +kernel
  have block : 0 < properties.encode.length := List.length_pos_of_ne_nil (encode_block_ne_nil _)
  refine ⟨⟨by simp, by simp, topicFits, by simp [PublishProperties.Fits, UserPropertiesFit]⟩, ?_⟩
  simp only [encodePayload, List.length_append, write_str_length] at bound
  simp only [bridgePublish, encodePayload, List.length_append, write_str_length, optionalBytes, blank, List.length_nil,
    List.length_singleton]
  omega

section Run

variable (verifyPassword : String → String → Bool)

theorem broker_keeps (link : Link) (event : Event) (decoded : event.Decoded) (published : List (String × Bytes))
    (kept : link.Kept user pass published) :
    ({ link with network := link.network.step verifyPassword event } : Link).Kept user pass
      (published ++ link.published (.broker event)) := by
  obtain ⟨channel, within, fits, streams, wired, accounts⟩ := kept
  have sent := network_step_channel verifyPassword ⟨link.network, 0, [], []⟩ event (by simp [channel])
  simp only [Bridge.channel, channel, Option.getD_some] at sent
  refine ⟨sent, ?_, ?_, streams, ⟨wired.wires, wired.reached, wired.shaped, wired.encodable, wired.unfinished⟩, ?_⟩
  · rw [List.length_append]
    exact Nat.le_trans within (Nat.le_add_right _ _)
  · rw [List.forall_mem_append]
    refine ⟨fits, fun message member => ?_⟩
    cases found : link.network.publication event with
    | none => simp [Link.published, Bridge.sends, found] at member
    | some publication =>
        simp only [Link.published, Bridge.sends, found] at member
        split at member
        · cases member
        · rw [List.mem_singleton.mp member]
          exact publish_encodable publication (publication_received link.network event decoded publication found)
  · rw [List.take_append_of_le_length within]
    exact ⟨accounts.ordered, accounts.lost⟩

theorem route_channel (link : Link) (packet : Packet) (published : List (String × Bytes))
    (channel : link.network.broker.bridgeSender = some published) :
    (link.route verifyPassword packet).network.broker.bridgeSender = link.network.broker.bridgeSender := by
  cases packet with
  | publish pkt =>
      have sent := network_step_channel verifyPassword ⟨link.network, 0, [], []⟩
        (.remotePublish pkt.topic pkt.payload pkt.qos pkt.retain) (by simp [channel])
      rw [remote_sends_nothing, List.append_nil] at sent
      simp only [Bridge.channel, channel, Option.getD_some] at sent
      exact sent.trans channel.symm
  | _ => rfl

theorem decode_keeps (link : Link) (readBuf : Bytes) (published : List (String × Bytes))
    (kept : link.Kept user pass published) (decoding : link.phase = .decoding readBuf) :
    (link.decode verifyPassword readBuf).engine.Kept user pass published := by
  unfold Link.decode
  cases decodePacket readBuf with
  | panic => exact moved_keeps user pass link _ published kept rfl rfl rfl (Nat.le_refl _) (fun _ _ => trivial)
  | err error =>
      cases error with
      | incomplete =>
          refine moved_keeps user pass link _ published kept rfl rfl rfl (Nat.le_refl _) (fun streams reached => ?_)
          rw [decoding] at reached
          exact reached
      | _ => exact fail_keeps user pass link published kept
  | ok read =>
      have routed : ∀ packet, (link.route verifyPassword packet).received = link.received ∧
          (link.route verifyPassword packet).wires = link.wires ∧ (link.route verifyPassword packet).waits = link.waits := by
        intro packet
        cases packet with
        | _ => exact ⟨rfl, rfl, rfl⟩
      obtain ⟨received, wires, waits⟩ := routed read.1
      refine moved_keeps user pass link _ published kept
        (route_channel verifyPassword link read.1 published kept.channel) received wires (Nat.le_of_eq (congrArg _ waits.symm))
        (fun streams reached => ?_)
      rw [decoding] at reached
      dsimp only
      split
      · exact reached
      · trivial

theorem step_keeps (link : Link) (event : LinkEvent) (decoded : event.Decoded) (published : List (String × Bytes))
    (kept : link.Kept user pass published) (encodable : (bridgeConnect user pass).Encodable) :
    (link.step verifyPassword user pass event).Kept user pass (published ++ link.published event) := by
  have goes : ∀ later, link.step verifyPassword user pass event = later → link.published event = [] →
      later.Kept user pass published →
      (link.step verifyPassword user pass event).Kept user pass (published ++ link.published event) := by
    intro later same silent keeps
    rw [same, silent, List.append_nil]
    exact keeps
  have fails := fail_keeps user pass link published kept
  cases event with
  | broker event => exact broker_keeps user pass verifyPassword link event decoded published kept
  | unreachable =>
      cases phase : link.phase with
      | down => exact goes _ (by simp only [Link.step, Link.advance, phase]) rfl fails
      | _ => exact goes link (by simp only [Link.step, Link.advance, phase, engine_runs]) rfl kept
  | connects written =>
      cases phase : link.phase with
      | down =>
          exact goes _ (by simp only [Link.step, Link.advance, phase]) rfl
            (connects_keeps user pass link written published kept encodable)
      | _ => exact goes link (by simp only [Link.step, Link.advance, phase, engine_runs]) rfl kept
  | connAck result written =>
      cases phase : link.phase with
      | awaitingConnAck =>
          exact goes _ (by simp only [Link.step, Link.advance, phase]) rfl
            (greeting_keeps user pass link result written published kept phase)
      | _ => exact goes link (by simp only [Link.step, Link.advance, phase, engine_runs]) rfl kept
  | read result =>
      cases phase : link.phase with
      | running readBuf =>
          cases result with
          | failed => exact goes _ (by simp only [Link.step, Link.advance, phase]) rfl fails
          | timedOut => exact goes link (by simp only [Link.step, Link.advance, engine_runs]) rfl kept
          | bytes chunk =>
              cases chunk with
              | nil => exact goes _ (by simp only [Link.step, Link.advance, phase]) rfl fails
              | cons byte tail =>
                  refine goes { link with phase := .decoding (readBuf ++ byte :: tail) } (by simp only [Link.step, Link.advance, phase, engine_runs]) rfl
                    (moved_keeps user pass link _ published kept rfl rfl rfl (Nat.le_refl _) (fun streams reached => ?_))
                  rw [phase] at reached
                  exact reached
      | _ => exact goes link (by simp only [Link.step, Link.advance, phase, engine_runs]) rfl kept
  | turn =>
      cases phase : link.phase with
      | decoding readBuf =>
          exact goes _ (by simp only [Link.step, Link.advance, phase]) rfl
            (decode_keeps user pass verifyPassword link readBuf published kept phase)
      | _ => exact goes link (by simp only [Link.step, Link.advance, phase, engine_runs]) rfl kept
  | localMsg written =>
      cases phase : link.phase with
      | running readBuf =>
          exact goes _ (by simp only [Link.step, Link.advance, phase]) rfl
            (local_keeps user pass link readBuf written published kept phase)
      | _ => exact goes link (by simp only [Link.step, Link.advance, phase, engine_runs]) rfl kept
  | ping written =>
      cases phase : link.phase with
      | running readBuf =>
          exact goes _ (by simp only [Link.step, Link.advance, phase]) rfl
            (ping_keeps user pass link readBuf written published kept phase)
      | _ => exact goes link (by simp only [Link.step, Link.advance, phase, engine_runs]) rfl kept

theorem run_keeps (link : Link) (run : List LinkEvent) (decoded : ∀ event ∈ run, event.Decoded)
    (published : List (String × Bytes)) (kept : link.Kept user pass published)
    (encodable : (bridgeConnect user pass).Encodable) :
    (run.foldl (Link.step verifyPassword user pass) link).Kept user pass
      (published ++ Run.outputs (Link.step verifyPassword user pass) Link.published link run) := by
  induction run generalizing link published with
  | nil =>
      rw [Run.outputs, List.append_nil]
      exact kept
  | cons event rest ih =>
      obtain ⟨here, later⟩ := List.forall_mem_cons.mp decoded
      rw [Run.outputs, ← List.append_assoc]
      exact ih _ later _ (step_keeps user pass verifyPassword link event here published kept encodable)

end Run

end Keeps

theorem start_keeps (user pass : String) (net : Network) : (Link.start net).Kept user pass [] := by
  have nothing : ∀ property : Stream → Prop, ∀ stream ∈ [], property stream := fun _ _ member => absurd member List.not_mem_nil
  exact ⟨rfl, Nat.le_refl 0, fun _ member => absurd member List.not_mem_nil, [],
    ⟨rfl, trivial, nothing _, nothing _, nothing _⟩, List.Sublist.refl _, Nat.le_refl 0⟩

theorem arrivals_read (streams : List Stream) (encodable : ∀ stream ∈ streams, ∀ packet ∈ stream.packets, packet.Encodable)
    (unfinished : ∀ stream ∈ streams, decodePacket stream.cut = .err .incomplete) (arrivals : List (List Bytes))
    (arrived : arrivals.map List.flatten = streams.map Stream.bytes) :
    arrivals.map clientReads = streams.map fun stream => ⟨(), stream.packets, .waiting stream.cut⟩ := by
  induction streams generalizing arrivals with
  | nil =>
      rw [List.map_eq_nil_iff.mp arrived]
      rfl
  | cons stream rest ih =>
      obtain ⟨reads, more, rfl, here, later⟩ := List.map_eq_cons_iff.mp arrived
      obtain ⟨first, others⟩ := List.forall_mem_cons.mp encodable
      obtain ⟨cut, cuts⟩ := List.forall_mem_cons.mp unfinished
      rw [List.map_cons, List.map_cons, client_reads_unfinished stream.packets first stream.cut cut reads here,
        ih others cuts more later]

theorem arrivals_prefix (streams : List Stream) (encodable : ∀ stream ∈ streams, ∀ packet ∈ stream.packets, packet.Encodable)
    (unfinished : ∀ stream ∈ streams, decodePacket stream.cut = .err .incomplete) (arrivals : List (List Bytes))
    (arrived : List.Forall₂ (fun reads wire => reads.flatten <+: wire) arrivals (streams.map Stream.bytes)) :
    (∀ reads ∈ arrivals, ∃ stream ∈ streams, ∃ n unread, clientReads reads = ⟨(), stream.packets.take n, .waiting unread⟩) ∧
      (arrivals.reverse.flatMap fun reads => (clientReads reads).handed.filter isPublish).Sublist (publishesOf streams) := by
  induction streams generalizing arrivals with
  | nil =>
      cases arrived
      exact ⟨fun _ member => absurd member List.not_mem_nil, List.Sublist.refl _⟩
  | cons stream rest ih =>
      obtain ⟨first, others⟩ := List.forall_mem_cons.mp encodable
      obtain ⟨cut, cuts⟩ := List.forall_mem_cons.mp unfinished
      cases arrived with
      | @cons reads _ more _ here later =>
          obtain ⟨n, unread, same⟩ := client_reads_prefix stream.packets first stream.cut cut reads here
          obtain ⟨each, ordered⟩ := ih others cuts more later
          refine ⟨List.forall_mem_cons.mpr ⟨⟨stream, List.mem_cons_self, n, unread, same⟩, fun other member => ?_⟩, ?_⟩
          · obtain ⟨held, inside, found⟩ := each other member
            exact ⟨held, List.mem_cons_of_mem _ inside, found⟩
          · rw [publishesOf, List.reverse_cons, List.reverse_cons, List.flatMap_append, List.flatMap_append, List.filter_append,
              List.flatMap_singleton, List.flatMap_singleton, same]
            exact ordered.append ((List.take_sublist n stream.packets).filter isPublish)

-- However much of the bytes of each connection arrives, the remote gets whole packets in
-- the order of the protocol, and over all connections local publishes for the pattern, each
-- at most once and in order. Where all of them arrive, at most one for each failure is lost.
theorem remote_reads_bridge (verifyPassword : String → String → Bool) (user pass : String) (net : Network)
    (encodable : (bridgeConnect user pass).Encodable) (run : List LinkEvent) (decoded : ∀ event ∈ run, event.Decoded)
    (link : Link) (reached : link = run.foldl (Link.step verifyPassword user pass) (.start net))
    (published : List (String × Bytes))
    (isPublished : published = Run.outputs (Link.step verifyPassword user pass) Link.published (.start net) run)
    (arrivals : List (List Bytes))
    (arrived : List.Forall₂ (fun reads wire => reads.flatten <+: wire) arrivals link.wires) :
    (∀ reads ∈ arrivals, Shaped user pass (clientReads reads).handed ∧ ∃ unread, (clientReads reads).status = .waiting unread) ∧
      (arrivals.reverse.flatMap fun reads => (clientReads reads).handed.filter isPublish).Sublist
        (((published.take link.received).filter forwarded).map bridgePublish) ∧
      (arrivals.map List.flatten = link.wires →
        ((published.take link.received).filter forwarded).length ≤
          (arrivals.reverse.flatMap fun reads => (clientReads reads).handed.filter isPublish).length + link.waits.length) := by
  have kept := run_keeps user pass verifyPassword (.start net) run decoded [] (start_keeps user pass net) encodable
  rw [List.nil_append, ← reached, ← isPublished] at kept
  obtain ⟨streams, wired, ordered, lost⟩ := kept.streams
  rw [wired.wires] at arrived ⊢
  obtain ⟨each, inOrder⟩ := arrivals_prefix streams wired.encodable wired.unfinished arrivals arrived
  refine ⟨fun reads member => ?_, inOrder.trans ordered, fun whole => ?_⟩
  · obtain ⟨stream, inside, n, unread, same⟩ := each reads member
    have shaped := wired.shaped stream inside
    rw [← List.take_append_drop n stream.packets] at shaped
    have part := shaped_prefix user pass _ _ shaped
    rw [same]
    exact ⟨part, unread, rfl⟩
  · have each := arrivals_read streams wired.encodable wired.unfinished arrivals whole
    have all : (arrivals.reverse.flatMap fun reads => (clientReads reads).handed.filter isPublish) = publishesOf streams := by
      have mapped : (arrivals.reverse.flatMap fun reads => (clientReads reads).handed.filter isPublish) =
          (arrivals.map clientReads).reverse.flatMap fun loop => loop.handed.filter isPublish := by
        rw [← List.map_reverse, List.flatMap_map]
      rw [mapped, each, ← List.map_reverse, List.flatMap_map, publishesOf, List.filter_flatMap]
    rw [all]
    exact lost

def brokenWrite : List LinkEvent :=
  [.broker (.connect ⟨"c", 60, true, none, none, {}⟩), .connects .whole,
    .connAck (.bytes (encodePacket (connAckReply 0))) .whole,
    .broker (.packet 0 (.publish ⟨false, 0, false, "sensor/t", none, {}, [1]⟩)),
    .broker (.packet 0 (.publish ⟨false, 0, false, "sensor/t", none, {}, [2]⟩)), .localMsg (.broken 3),
    .connects .whole, .connAck (.bytes (encodePacket (connAckReply 0))) .whole, .localMsg .whole]

theorem short_publish_decodable (payload : UInt8) :
    Decodable (.publish ⟨false, 0, false, "sensor/t", none, {}, [payload]⟩) := by
  refine ⟨encodePacket _, _, encoded_decodes _ ⟨?_, ?_⟩⟩
  · simp [Packet.Fits, PublishProperties.Fits, UserPropertiesFit, StrFits]
    decide
  · have blank : ({} : PublishProperties).encode = [0] := by decide +kernel
    have topic : (strBytes "sensor/t").length = 8 := by decide +kernel
    simp [encodePayload, write_str_length, optionalBytes, blank, topic]

theorem broken_write_decoded : ∀ event ∈ brokenWrite, event.Decoded := by
  have connect : Decodable (.connect ⟨"c", 60, true, none, none, {}⟩) := ⟨_, _, anonymousConnect.whole⟩
  simp [brokenWrite, LinkEvent.Decoded, Event.Decoded, connect, short_publish_decodable]

def brokenArrivals : List (List Bytes) :=
  [[encodePacket (bridgeConnect "" ""), encodePacket bridgeSubscribe, encodePacket (bridgePublish ("sensor/t", [2]))],
    [encodePacket (bridgeConnect "" "") ++ encodePacket bridgeSubscribe, [0x30, 0x0C, 0x00]]]

theorem whole_arrives (arrivals : List (List Bytes)) :
    List.Forall₂ (fun reads wire => reads.flatten <+: wire) arrivals (arrivals.map List.flatten) := by
  induction arrivals with
  | nil => exact .nil
  | cons reads rest ih => exact .cons (List.prefix_refl _) ih

theorem broken_write_loses_one :
    (∀ reads ∈ brokenArrivals, Shaped "" "" (clientReads reads).handed ∧ ∃ unread, (clientReads reads).status = .waiting unread) ∧
      (brokenArrivals.reverse.flatMap fun reads => (clientReads reads).handed.filter isPublish).Sublist
        ((([("sensor/t", [1]), ("sensor/t", [2])].take 2).filter forwarded).map bridgePublish) ∧
      (([("sensor/t", [1]), ("sensor/t", [2])].take 2).filter forwarded).length ≤
        (brokenArrivals.reverse.flatMap fun reads => (clientReads reads).handed.filter isPublish).length + [10].length := by
  have connect : (bridgeConnect "" "").Encodable := by
    refine ⟨?_, by decide +kernel⟩
    simp [Packet.Fits, bridgeConnect, ConnectProperties.Fits, UserPropertiesFit, StrFits]
    decide
  have wires : brokenArrivals.map List.flatten =
      (brokenWrite.foldl (Link.step (fun _ _ => true) "" "") (.start anonymousNetwork)).wires := by decide +kernel
  have result := remote_reads_bridge (fun _ _ => true) "" "" anonymousNetwork connect brokenWrite broken_write_decoded
    (brokenWrite.foldl (Link.step (fun _ _ => true) "" "") (.start anonymousNetwork)) rfl
    [("sensor/t", [1]), ("sensor/t", [2])] (by decide +kernel) brokenArrivals (wires ▸ whole_arrives brokenArrivals)
  have received : (brokenWrite.foldl (Link.step (fun _ _ => true) "" "") (.start anonymousNetwork)).received = 2 := by
    decide +kernel
  have waits : (brokenWrite.foldl (Link.step (fun _ _ => true) "" "") (.start anonymousNetwork)).waits = [10] := by
    decide +kernel
  rw [received, waits] at result
  exact ⟨result.1, result.2.1, result.2.2 wires⟩

end Pipistrelle.Connection
