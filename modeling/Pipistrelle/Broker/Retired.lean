import Pipistrelle.Broker.GrantedQos
import Pipistrelle.Broker.Outbox

set_option autoImplicit false

/- A session that no client id leads to any more. Its connection may go on to read, but a
   reference goes into the map only once, when it is new, so that nothing is published to
   the session again. -/
namespace Pipistrelle.Broker

open Codec Router Auth

def BrokerState.Retired (self : BrokerState) (ref : SessionRef) : Prop :=
  ref < self.heap.length ∧ ∀ clientId, self.sessions.get clientId ≠ some ref

structure Fades (session later : ClientSession) : Prop where
  sent : ∃ frames, later.sent = session.sent ++ frames ∧ ∀ frame ∈ frames, ¬IsPublishFrame frame
  nextPacketId : later.nextPacketId = session.nextPacketId
  inFlight : ∀ packetId message, later.inFlight.get packetId = some message →
    session.inFlight.get packetId = some message

theorem fades_refl (session : ClientSession) : Fades session session :=
  ⟨⟨[], (List.append_nil _).symm, fun _ member => absurd member List.not_mem_nil⟩, rfl, fun _ _ get => get⟩

theorem fades_trans (first second third : ClientSession) (early : Fades first second) (late : Fades second third) :
    Fades first third := by
  obtain ⟨frames, sent, others⟩ := early.sent
  obtain ⟨more, sentLater, othersLater⟩ := late.sent
  refine ⟨⟨frames ++ more, ?_, fun frame member => ?_⟩, late.nextPacketId.trans early.nextPacketId, fun packetId message get =>
    early.inFlight packetId message (late.inFlight packetId message get)⟩
  · rw [sentLater, sent, List.append_assoc]
  · exact (List.mem_append.mp member).elim (others frame) (othersLater frame)

theorem reply_fades (session : ClientSession) (packet : Packet) (other : ¬IsPublishFrame (encodePacket packet)) :
    Fades session (session.take (.reply packet)) := by
  have kept := send_keeps session (encodePacket packet)
  refine ⟨?_, by rw [ClientSession.take, kept], fun packetId message get => by rwa [ClientSession.take, kept] at get⟩
  rw [ClientSession.take, send_sent]
  by_cases isOpen : session.receiverOpen = true
  · rw [if_pos isOpen]
    exact ⟨[encodePacket packet], rfl, fun frame member => (List.mem_singleton.mp member) ▸ other⟩
  · rw [if_neg isOpen]
    exact (fades_refl session).sent

theorem retired_published (state : BrokerState) (ref : SessionRef) (retired : state.Retired ref) (publication : Publication) :
    state.published publication ref = [] := by
  have nothing : state.served publication.topic ref = [] := by
    refine List.filter_eq_nil_iff.mpr fun delivery _ reaches => ?_
    exact retired.2 delivery.sub.clientId (of_decide_eq_true reaches)
  rw [BrokerState.published, nothing]
  rfl

theorem retired_mail (net : Network) (event : Event) (ref : SessionRef) (retired : net.broker.Retired ref) :
    ∀ mail ∈ net.mail ref event, ∃ answer, mail = .reply answer ∧ ¬IsPublishFrame (encodePacket answer) := by
  intro mail member
  cases event with
  | packet k packet =>
      rcases List.mem_append.mp member with delivered | answered
      · cases found : net.publication (.packet k packet) with
        | none => simp [found] at delivered
        | some publication => simp [found, retired_published net.broker ref retired] at delivered
      · split at answered
        · obtain ⟨answer, reply, rfl⟩ := List.mem_map.mp answered
          obtain ⟨session, _, made⟩ := Option.bind_eq_some_iff.mp (Option.mem_toList.mp reply)
          exact ⟨answer, rfl, answer_not_publish net.broker session packet answer made⟩
        · cases answered
  | remotePublish topic payload qos retain =>
      rw [Network.mail, retired_published net.broker ref retired] at member
      cases member
  | connect _ | close _ | panic _ | writerEnds _ => cases member

theorem take_all_fades (mails : List Mail) (session : ClientSession)
    (replies : ∀ mail ∈ mails, ∃ answer, mail = Mail.reply answer ∧ ¬IsPublishFrame (encodePacket answer)) :
    Fades session (mails.foldl ClientSession.take session) := by
  induction mails generalizing session with
  | nil => exact fades_refl session
  | cons mail rest ih =>
      obtain ⟨⟨answer, rfl, other⟩, more⟩ := List.forall_mem_cons.mp replies
      exact fades_trans _ _ _ (reply_fades session answer other) (ih _ more)

theorem settle_fades (net : Network) (ref : SessionRef) (event : Event) (session : ClientSession) :
    Fades session (net.settle ref event session) := by
  obtain ⟨sent, counter, _⟩ := settle_keeps net ref event session
  refine ⟨⟨[], by rw [sent, List.append_nil], fun _ member => absurd member List.not_mem_nil⟩, counter, ?_⟩
  intro packetId message get
  unfold Network.settle at get
  cases event with
  | packet k packet =>
      dsimp only at get
      split at get
      · cases packet with
        | pubAck pkt =>
            rw [ClientSession.acknowledge, ClientSession.removeInFlight, Assoc.get_remove] at get
            split at get
            · cases get
            · exact get
        | connect _ | connAck _ | publish _ | subscribe _ | subAck _ | pingReq | pingResp | disconnect _ => exact get
      · exact get
  | close k | writerEnds k =>
      dsimp only at get
      split at get
      · exact get
      · exact get
  | connect _ | panic _ | remotePublish _ _ _ _ => exact get

section Run

variable (verifyPassword : String → String → Bool)

theorem step_heap_kept (net : Network) (event : Event) (decoded : event.Decoded) (ref : SessionRef)
    (old : ref < net.broker.heap.length) : ref < (net.step verifyPassword event).broker.heap.length := by
  have stepped := step_session verifyPassword net event decoded ref _ (List.getElem?_eq_getElem old)
  exact (List.getElem?_eq_some_iff.mp stepped).1

theorem step_retired (net : Network) (event : Event) (decoded : event.Decoded) (ref : SessionRef)
    (retired : net.broker.Retired ref) : (net.step verifyPassword event).broker.Retired ref := by
  refine ⟨step_heap_kept verifyPassword net event decoded ref retired.1, fun clientId get => ?_⟩
  by_cases connects : ∃ pkt, event = .connect pkt
  · obtain ⟨pkt, rfl⟩ := connects
    rw [Network.step] at get
    split at get
    · rw [register_sessions, Assoc.get_insert] at get
      split at get
      · -- The session that registers is a new one.
        have fresh := Option.some.inj get
        exact absurd fresh (Nat.ne_of_gt retired.1)
      · exact retired.2 clientId get
    · exact retired.2 clientId get
  · exact retired.2 clientId (step_sessions verifyPassword net event (fun pkt same => connects ⟨pkt, same⟩) clientId ref get)

theorem run_retired (net : Network) (events : List Event) (decoded : ∀ event ∈ events, event.Decoded) (ref : SessionRef)
    (session : ClientSession) (held : net.broker.heap[ref]? = some session) (retired : net.broker.Retired ref) :
    (events.foldl (Network.step verifyPassword) net).broker.Retired ref ∧
      ∃ later, (events.foldl (Network.step verifyPassword) net).broker.heap[ref]? = some later ∧ Fades session later := by
  induction events generalizing net session with
  | nil => exact ⟨retired, session, held, fades_refl session⟩
  | cons event rest ih =>
      obtain ⟨here, more⟩ := List.forall_mem_cons.mp decoded
      obtain ⟨stays, later, heldLater, fades⟩ := ih (net.step verifyPassword event) more _
        (step_session verifyPassword net event here ref session held) (step_retired verifyPassword net event here ref retired)
      refine ⟨stays, later, heldLater, fades_trans _ _ _ (fades_trans _ _ _ ?_ (settle_fades net ref event _)) fades⟩
      exact take_all_fades _ session (retired_mail net event ref retired)

end Run

theorem replaced_session_fades (verifyPassword : String → String → Bool) (auth : AuthConfig) (db : Database)
    (bridgeSender : Option (List (String × Bytes))) (before events : List Event) (net : Network)
    (reached : net = before.foldl (Network.step verifyPassword) (Network.boot auth db bridgeSender)) (pkt : Connect)
    (accepted : authenticated verifyPassword auth pkt = true) (decoded : ∀ event ∈ events, event.Decoded)
    (ref : SessionRef) (session : ClientSession) (held : net.broker.heap[ref]? = some session)
    (same : session.clientId = pkt.clientId) :
    ∃ later, ((.connect pkt :: events).foldl (Network.step verifyPassword) net).broker.heap[ref]? = some later ∧
      Fades session later := by
  have recorded : net.Recorded := by
    rw [reached]
    exact run_recorded verifyPassword _ before (boot_recorded auth db bridgeSender)
  have started : net.broker.auth = auth := by
    rw [reached, run_auth]
    exact boot_auth auth db
  have connected : net.step verifyPassword (.connect pkt) = net.register pkt := by
    rw [Network.step, started, if_pos accepted]
  have old : ref < net.broker.heap.length := (List.getElem?_eq_some_iff.mp held).1
  have stored := register_heap_old net pkt ref session held
  rw [List.foldl_cons, connected]
  refine (run_retired verifyPassword (net.register pkt) events decoded ref session stored
    ⟨(List.getElem?_eq_some_iff.mp stored).1, fun clientId get => ?_⟩).2
  rw [register_sessions, Assoc.get_insert] at get
  split at get
  · exact absurd (Option.some.inj get) (Nat.ne_of_gt old)
  · obtain ⟨owner, found, name⟩ := recorded.named clientId ref get
    rw [held] at found
    cases found
    exact absurd (same.symm.trans name) ‹_›

def firstConnected : List Event := [.connect ⟨"c", 60, true, none, none, {}⟩]

def takenOver (db : Database) : Network := firstConnected.foldl (Network.step fun _ _ => true) (Network.boot ⟨none⟩ db none)

theorem taken_over_fades :
    ∃ later, ((.connect ⟨"c", 60, true, none, none, {}⟩ :: [.packet 0 .pingReq]).foldl (Network.step fun _ _ => true)
        (takenOver {})).broker.heap[0]? = some later ∧
      Fades ((newSession ⟨"c", 60, true, none, none, {}⟩).send (encodePacket (connAckReply 0))) later :=
  replaced_session_fades (fun _ _ => true) ⟨none⟩ {} none firstConnected [.packet 0 .pingReq]
    (takenOver {}) rfl ⟨"c", 60, true, none, none, {}⟩ rfl
    (fun event member => (List.mem_singleton.mp member) ▸ ⟨[0xC0, 0x00], 2, by decide⟩) 0 _ rfl rfl

end Pipistrelle.Broker
