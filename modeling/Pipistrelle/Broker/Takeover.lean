import Pipistrelle.Broker.Network
import Pipistrelle.Lib.Run

set_option autoImplicit false

/- A client that connects again while its old connection is still open. The sessions
   map follows the new connection until the cleanup of the old one, which goes by
   client id alone, takes the new entry out. -/
namespace Pipistrelle.Broker

open Codec Auth

def Network.Newest (self : Network) (k : Nat) (clientId : String) : Prop :=
  ∀ j, k < j → (self.connections.map (·.clientId))[j]? ≠ some clientId

structure Keeps (broker : BrokerState) (connection : Connection) : Prop where
  session : broker.sessions.get connection.clientId = some connection.session
  stored : .deleteSession connection.clientId ∉ broker.issued.drop connection.registeredAt

def Network.TakeoverSafe (self : Network) : Prop :=
  ∀ k connection, self.Open k connection → self.Newest k connection.clientId → Keeps self.broker connection

def Network.StaleCleanup (self : Network) (event : Event) : Prop :=
  ∃ k connection newest newer, event = .close k ∧ self.Open k connection ∧ self.Open newest newer ∧
    newer.clientId = connection.clientId ∧ self.Newest newest newer.clientId ∧ newest ≠ k

structure Unmoved (before after : Network) : Prop where
  clientIds : after.connections.map (·.clientId) = before.connections.map (·.clientId)
  connections : ∀ k later, after.Open k later → ∃ earlier, before.Open k earlier ∧ later.clientId = earlier.clientId ∧
    later.session = earlier.session ∧ later.registeredAt = earlier.registeredAt

theorem unmoved_refl (before after : Network) (same : after.connections = before.connections) : Unmoved before after :=
  ⟨by rw [same], fun k later isOpen => ⟨later, ⟨same ▸ isOpen.1, isOpen.2⟩, rfl, rfl, rfl⟩⟩

theorem set_status_client_ids (net : Network) (k : Nat) (status : Status) :
    (net.setStatus k status).connections.map (·.clientId) = net.connections.map (·.clientId) := by
  apply List.ext_getElem?
  intro j
  simp only [Network.setStatus, List.getElem?_map, List.getElem?_modify]
  cases net.connections[j]? with
  | none => rfl
  | some connection =>
      simp only [Option.map_some, Option.map_eq_map]
      split <;> rfl

theorem set_status_open (net : Network) (k : Nat) (status : Status) (j : Nat) (later : Connection)
    (isOpen : (net.setStatus k status).Open j later) :
    ∃ earlier, net.connections[j]? = some earlier ∧ later.clientId = earlier.clientId ∧
      later.session = earlier.session ∧ later.registeredAt = earlier.registeredAt ∧
      (k = j → status ≠ .closed) ∧ (k ≠ j → earlier.status ≠ .closed) := by
  obtain ⟨held, notClosed⟩ := isOpen
  simp only [Network.setStatus, List.getElem?_modify] at held
  cases before : net.connections[j]? with
  | none => simp [before] at held
  | some earlier =>
      simp only [before, Option.map_eq_map, Option.map_some, Option.some.injEq] at held
      by_cases here : k = j
      · rw [if_pos here] at held
        subst held
        exact ⟨earlier, rfl, rfl, rfl, rfl, fun _ => notClosed, fun differs => absurd here differs⟩
      · rw [if_neg here] at held
        subst held
        exact ⟨earlier, rfl, rfl, rfl, rfl, fun same => absurd same here, fun _ => notClosed⟩

theorem set_status_unmoved (before net : Network) (same : net.connections = before.connections) (k : Nat)
    (status : Status) (connection : Connection) (isOpen : before.Open k connection) :
    Unmoved before (net.setStatus k status) := by
  refine ⟨(set_status_client_ids net k status).trans (by rw [same]), ?_⟩
  intro j later laterOpen
  obtain ⟨earlier, held, sameId, sameSession, sameAt, _, other⟩ := set_status_open net k status j later laterOpen
  rw [same] at held
  by_cases here : k = j
  · subst here
    rw [← Option.some.inj (held.symm.trans isOpen.1)] at isOpen
    exact ⟨earlier, isOpen, sameId, sameSession, sameAt⟩
  · exact ⟨earlier, ⟨held, other here⟩, sameId, sameSession, sameAt⟩

theorem mem_drop_append {α : Type} (item : α) (first second : List α) (n : Nat)
    (member : item ∈ (first ++ second).drop n) : item ∈ first.drop n ∨ item ∈ second := by
  rw [List.drop_append, List.mem_append] at member
  exact member.imp_right List.mem_of_mem_drop

theorem quiet_step_safe (before after : Network) (unmoved : Unmoved before after)
    (sessions : after.broker.sessions = before.broker.sessions)
    (issued : ∃ writes, after.broker.issued = before.broker.issued ++ writes ∧
      ∀ write ∈ writes, ∀ clientId, write ≠ .deleteSession clientId)
    (safe : before.TakeoverSafe) : after.TakeoverSafe := by
  intro k later isOpen newest
  obtain ⟨earlier, wasOpen, sameId, sameSession, sameAt⟩ := unmoved.connections k later isOpen
  have kept := safe k earlier wasOpen (by rw [Network.Newest, unmoved.clientIds, sameId] at newest; exact newest)
  obtain ⟨writes, appended, fine⟩ := issued
  constructor
  · rw [sessions, sameId, sameSession]
    exact kept.session
  · rw [appended, sameId, sameAt]
    intro member
    rcases mem_drop_append _ _ _ _ member with old | new
    · exact kept.stored old
    · exact fine _ new earlier.clientId rfl

theorem register_safe (net : Network) (pkt : Connect) (safe : net.TakeoverSafe) : (net.register pkt).TakeoverSafe := by
  intro k connection isOpen newest
  obtain ⟨held, notClosed⟩ := isOpen
  simp only [Network.register] at held newest ⊢
  obtain ⟨writes, appended, fine⟩ := open_connection_issued net.broker pkt
  by_cases old : k < net.connections.length
  · rw [List.getElem?_append_left old] at held
    have other : pkt.clientId ≠ connection.clientId := by
      intro same
      apply newest net.connections.length old
      simp [same]
    have kept := safe k connection ⟨held, notClosed⟩ (by
      intro j later same
      apply newest j later
      rw [List.map_append, List.getElem?_append_left (List.getElem?_eq_some_iff.mp same).1]
      exact same)
    constructor
    · rw [open_connection_sessions, Assoc.get_insert, if_neg other]
      exact kept.session
    · rw [appended]
      intro member
      rcases mem_drop_append _ _ _ _ member with before | new
      · exact kept.stored before
      · exact fine _ new connection.clientId rfl
  · rw [List.getElem?_append_right (Nat.not_lt.mp old), List.getElem?_singleton] at held
    split at held
    · cases held
      constructor
      · rw [open_connection_sessions, Assoc.get_insert, if_pos rfl, open_connection_ref]
      · rw [appended, List.drop_left]
        exact fun new => fine _ new pkt.clientId rfl
    · cases held

theorem cleanup_safe_iff (net : Network) (k : Nat) (connection : Connection) (isOpen : net.Open k connection)
    (safe : net.TakeoverSafe) : (net.cleanup k connection).TakeoverSafe ↔ ¬net.StaleCleanup (.close k) := by
  have brokerAfter : (net.cleanup k connection).broker =
      net.broker.closeConnection connection.clientId connection.session := rfl
  constructor
  · intro after ⟨j, closing, newest, newer, same, closingOpen, newerOpen, sameId, isNewest, differs⟩
    cases same
    have : closing = connection := Option.some.inj (closingOpen.1.symm.trans isOpen.1)
    subst this
    have still : (net.cleanup k closing).Open newest newer := by
      refine ⟨?_, newerOpen.2⟩
      simp only [Network.cleanup, Network.setStatus, List.getElem?_modify, newerOpen.1]
      simp [Ne.symm differs]
    have kept := after newest newer still (by
      rw [Network.Newest, Network.cleanup, set_status_client_ids]
      exact isNewest)
    have gone := kept.session
    rw [brokerAfter, close_connection_sessions, if_pos sameId.symm] at gone
    cases gone
  · intro fresh j later laterOpen newest
    obtain ⟨earlier, held, sameId, sameSession, sameAt, here, there⟩ := set_status_open _ k .closed j later laterOpen
    have differs : k ≠ j := fun same => here same rfl
    have wasOpen : net.Open j earlier := ⟨held, there differs⟩
    rw [Network.Newest, Network.cleanup, set_status_client_ids, sameId] at newest
    have other : connection.clientId ≠ earlier.clientId := fun same =>
      fresh ⟨k, connection, j, earlier, rfl, isOpen, wasOpen, same.symm, newest, Ne.symm differs⟩
    have kept := safe j earlier wasOpen newest
    obtain ⟨writes, appended, fine⟩ := close_connection_issued net.broker connection.clientId connection.session
    constructor
    · rw [brokerAfter, close_connection_sessions, sameId, sameSession, if_neg other]
      exact kept.session
    · rw [brokerAfter, appended, sameId, sameAt]
      intro member
      rcases mem_drop_append _ _ _ _ member with before | new
      · exact kept.stored before
      · exact other (StoredWrite.deleteSession.inj (fine _ new)).symm

theorem evolves_safe (allowed : SessionRef → Bytes → Prop) (before after : Network) (unmoved : Unmoved before after)
    (evolved : Evolves allowed before.broker after.broker) (safe : before.TakeoverSafe) : after.TakeoverSafe :=
  quiet_step_safe before after unmoved evolved.sessions evolved.issued safe

theorem receive_safe (net : Network) (k : Nat) (connection : Connection) (isOpen : net.Open k connection)
    (packet : Packet) (safe : net.TakeoverSafe) : (net.receive k connection packet).TakeoverSafe := by
  have evolved := process_client_packet_evolves net.broker connection.session packet
  unfold Network.receive
  dsimp only
  generalize processClientPacket net.broker connection.session packet = result at evolved ⊢
  split
  · refine evolves_safe _ net _ ?_ evolved safe
    exact set_status_unmoved net _ (by rfl) k .ending connection isOpen
  · exact evolves_safe _ net _ (unmoved_refl net _ rfl) evolved safe

theorem step_safe_iff (verifyPassword : String → String → Bool) (net : Network) (event : Event)
    (safe : net.TakeoverSafe) : (net.step verifyPassword event).TakeoverSafe ↔ ¬net.StaleCleanup event := by
  have fresh : (∀ k, event ≠ .close k) → ¬net.StaleCleanup event := fun other ⟨k, _, _, _, same, _⟩ => other k same
  cases event with
  | connect pkt =>
      refine iff_of_true ?_ (fresh (by simp))
      rw [Network.step]
      split
      · exact register_safe net pkt safe
      · exact safe
  | packet k packet =>
      refine iff_of_true (on_connection_rule _ net k _ safe ?_) (fresh (by simp))
      intro connection isOpen
      split
      · exact receive_safe net k connection isOpen packet safe
      · exact safe
  | close k =>
      rw [Network.step]
      rcases on_connection_cases net k _ with ⟨same, nothing⟩ | ⟨connection, isOpen, same⟩
      · rw [same]
        refine iff_of_true safe ?_
        intro ⟨j, closing, _, _, event, closingOpen, _⟩
        cases event
        exact nothing closing closingOpen
      · rw [same]
        exact cleanup_safe_iff net k connection isOpen safe
  | panic k =>
      refine iff_of_true (on_connection_rule _ net k _ safe ?_) (fresh (by simp))
      intro connection isOpen
      exact evolves_safe (fun _ _ => True) net _ (set_status_unmoved net net rfl k .closed connection isOpen)
        (evolves_refl _ _) safe
  | writerEnds k =>
      refine iff_of_true (on_connection_rule _ net k _ safe ?_) (fresh (by simp))
      intro connection _
      refine evolves_safe (fun _ _ => True) net _ (unmoved_refl net _ rfl) ?_ safe
      exact modify_session_evolves _ _ _ _ fun session _ => grows_same _ _ _ rfl rfl
  | remotePublish topic payload qos retain =>
      refine iff_of_true ?_ (fresh (by simp))
      exact evolves_safe _ net _ (unmoved_refl net _ rfl) (route_publish_evolves _ _ topic payload qos retain) safe

theorem takeover_safe_iff (verifyPassword : String → String → Bool) (broker : BrokerState) (events : List Event) :
    Run.Always (Network.step verifyPassword) Network.TakeoverSafe { broker } events ↔
      Run.Throughout (Network.step verifyPassword) (fun net event => ¬net.StaleCleanup event) { broker } events := by
  refine Run.always_iff_throughout _ _ _ (step_safe_iff verifyPassword) _ events ?_
  intro k connection isOpen
  simp [Network.Open] at isOpen

def reconnectWhileOpen : List Event :=
  [.connect ⟨"sensor", 60, false, none, none, { sessionExpiryInterval := some 3600 }⟩,
    .connect ⟨"sensor", 60, false, none, none, { sessionExpiryInterval := some 3600 }⟩, .close 0]

theorem old_cleanup_takes_new_session :
    ¬Run.Always (Network.step fun _ _ => true) Network.TakeoverSafe { broker := { auth := ⟨none⟩ } }
      reconnectWhileOpen := by
  intro ⟨_, _, _, after⟩
  have newest : ∀ j, 1 < j → ["sensor", "sensor"][j]? ≠ some "sensor" := by
    intro j later held
    have within := (List.getElem?_eq_some_iff.mp held).1
    exact absurd later (Nat.not_lt.mpr (Nat.le_of_lt_succ within))
  have kept := after 1 ⟨"sensor", 1, .reading, 1⟩ ⟨by decide +kernel, by decide⟩ newest
  exact absurd kept.session (by decide +kernel)

end Pipistrelle.Broker
