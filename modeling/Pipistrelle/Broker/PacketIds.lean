import Pipistrelle.Broker.Delivery
import Pipistrelle.Broker.Recovery

set_option autoImplicit false

/- The packet ids of one session. The counter goes round through 1 to 65535 whatever
   is still in flight, and starts at 1 also for a session that is restored with
   messages in flight and for one whose client has rows left from an earlier session. -/
namespace Pipistrelle.Broker

open Codec

inductive SessionEvent where
  | deliver (topic : String) (payload : Bytes) (qos : UInt8) (retain : Bool) (subscriptionIdentifier : Option UInt32)
  | pubAck (packetId : UInt16)
deriving DecidableEq, Repr

def ClientSession.step (self : ClientSession) : SessionEvent → ClientSession
  | .deliver topic payload qos retain subscriptionIdentifier => self.receive topic payload qos retain subscriptionIdentifier
  | .pubAck packetId => self.removeInFlight packetId

def SessionEvent.writes (session : ClientSession) : SessionEvent → List StoredWrite
  | .deliver topic payload qos _ _ =>
      if 0 < qos then [.saveInFlight session.clientId session.getNextPacketId.1 topic payload qos] else []
  | .pubAck packetId => [.deleteInFlight session.clientId packetId]

theorem route_publish_steps (state : BrokerState) (fromClient topic : String) (payload : Bytes) (qos : UInt8)
    (retain : Bool) (ref : SessionRef) :
    (state.routePublish fromClient topic payload qos retain).heap[ref]? = state.heap[ref]?.map fun session =>
      ((state.served topic ref).map fun delivery =>
        SessionEvent.deliver topic payload qos retain delivery.sub.subscriptionIdentifier).foldl ClientSession.step session := by
  rw [route_publish_heap]
  simp only [List.foldl_map, ClientSession.step]

theorem deliver_step (state : BrokerState) (topic : String) (payload : Bytes) (qos : UInt8) (retain : Bool)
    (delivery : Delivery) (ref : SessionRef) (session : ClientSession)
    (reaches : state.sessions.get delivery.sub.clientId = some ref) (held : state.heap[ref]? = some session)
    (named : session.clientId = delivery.sub.clientId) :
    let event := SessionEvent.deliver topic payload qos retain delivery.sub.subscriptionIdentifier
    (state.deliver topic payload qos retain delivery).heap[ref]? = some (session.step event) ∧
      (state.deliver topic payload qos retain delivery).issued = state.issued ++ event.writes session := by
  refine ⟨?_, ?_⟩
  · have served : delivery.reaches state.sessions ref = true := decide_eq_true reaches
    rw [deliver_heap, if_pos served, held]
    rfl
  · unfold BrokerState.deliver BrokerState.sendPublishToClient SessionEvent.writes
    rw [reaches, named]
    simp only [held]
    by_cases acknowledged : 0 < qos
    · rw [if_pos acknowledged, if_pos acknowledged]
      rfl
    · rw [if_neg acknowledged, if_neg acknowledged]
      exact (List.append_nil _).symm

theorem pub_ack_step (state : BrokerState) (ref : SessionRef) (pkt : PubAck) (session : ClientSession)
    (held : state.heap[ref]? = some session) :
    (processClientPacket state ref (.pubAck pkt)).1.heap[ref]? = some (session.step (.pubAck pkt.packetId)) ∧
      (processClientPacket state ref (.pubAck pkt)).1.issued =
        state.issued ++ (SessionEvent.pubAck pkt.packetId).writes session := by
  unfold processClientPacket
  rw [held]
  refine ⟨?_, rfl⟩
  dsimp only [BrokerState.spawn, BrokerState.modifySession]
  rw [List.getElem?_modify, held]
  simp [ClientSession.step]

-- A session and the tables, which carry out the writes in the order they are issued in.
structure StoredSession where
  session : ClientSession
  stored : Database

def StoredSession.step (self : StoredSession) (event : SessionEvent) : StoredSession where
  session := self.session.step event
  stored := (event.writes self.session).foldl Database.exec self.stored

def StoredSession.Free (self : StoredSession) (id : UInt16) : Prop :=
  self.session.inFlight.get id = none ∧ self.stored.inFlight.get (self.session.clientId, id) = none

def SessionEvent.numbered : SessionEvent → Bool
  | .deliver _ _ qos _ _ => 0 < qos
  | .pubAck _ => false

def FreshId (self : StoredSession) (event : SessionEvent) : Prop :=
  event.numbered = true → self.session.getNextPacketId.1 ≠ 0 ∧ self.Free self.session.getNextPacketId.1

def idOf (n : Nat) : UInt16 := UInt16.ofNat (n % 65535 + 1)

theorem id_of_nat (n : Nat) : (idOf n).toNat = n % 65535 + 1 := by
  rw [idOf, UInt16.toNat_ofNat']
  omega

theorem id_of_ne_zero (n : Nat) : idOf n ≠ 0 := by
  intro zero
  have nat := id_of_nat n
  rw [zero] at nat
  exact absurd nat.symm (Nat.succ_ne_zero _)

theorem id_of_inj (m n : Nat) (same : idOf m = idOf n) : m % 65535 = n % 65535 := by
  have nat := id_of_nat m
  rw [same, id_of_nat] at nat
  omega

theorem next_packet_id_value (session : ClientSession) :
    session.getNextPacketId.1 = (if session.nextPacketId = 0 then 1 else session.nextPacketId) ∧
      session.getNextPacketId.2.nextPacketId = session.getNextPacketId.1 + 1 := by
  unfold ClientSession.getNextPacketId
  dsimp only
  by_cases zero : session.nextPacketId = 0
  · rw [if_pos zero, if_pos zero, zero]
    exact ⟨rfl, rfl⟩
  · rw [if_neg zero, if_neg zero]
    exact ⟨rfl, rfl⟩

theorem next_id (n : Nat) : (if idOf n + 1 = 0 then 1 else idOf n + 1) = idOf (n + 1) := by
  have nat := id_of_nat n
  have more := id_of_nat (n + 1)
  have sum : (idOf n + 1).toNat = ((idOf n).toNat + 1) % 65536 := UInt16.toNat_add _ _
  by_cases wraps : idOf n + 1 = 0
  · rw [if_pos wraps]
    rw [wraps] at sum
    have zero : (0 : UInt16).toNat = 0 := rfl
    have one : (1 : UInt16).toNat = 1 := rfl
    exact UInt16.toNat_inj.mp (by omega)
  · rw [if_neg wraps]
    have positive : (idOf n + 1).toNat ≠ 0 := fun zero => wraps (UInt16.toNat_inj.mp zero)
    exact UInt16.toNat_inj.mp (by omega)

theorem id_of_pred (id : UInt16) (legal : id ≠ 0) : idOf (id.toNat - 1) = id := by
  have bound := id.toNat_lt
  have positive : id.toNat ≠ 0 := fun zero => legal (UInt16.toNat_inj.mp zero)
  have nat := id_of_nat (id.toNat - 1)
  exact UInt16.toNat_inj.mp (by omega)

theorem round_nodup (m : Nat) : ((List.range' m 65535).map idOf).Nodup := by
  refine List.Nodup.map_on ?_ (List.nodup_range' 1)
  intro i inRange j inRange' same
  have residues := id_of_inj i j same
  rw [List.mem_range'_1] at inRange inRange'
  omega

theorem round_complete (m : Nat) (id : UInt16) (legal : id ≠ 0) : id ∈ (List.range' m 65535).map idOf := by
  have bound := id.toNat_lt
  -- The first position from m on that is that of id modulo the round.
  let i := m + (id.toNat - 1 + (65535 - m % 65535)) % 65535
  have inRound : i ∈ List.range' m 65535 := List.mem_range'_1.mpr (by omega)
  have residue : i % 65535 = (id.toNat - 1) % 65535 := by
    dsimp only [i]
    omega
  refine List.mem_map.mpr ⟨i, inRound, ?_⟩
  rw [← id_of_pred id legal, idOf, residue, ← idOf, id_of_pred id legal]

-- The phase of a counter: where in the round of the ids its next one stands.
theorem exists_phase (session : ClientSession) : ∃ m, session.getNextPacketId.1 = idOf m := by
  have legal : session.getNextPacketId.1 ≠ 0 := by
    rw [(next_packet_id_value session).1]
    split
    · decide
    · assumption
  exact ⟨_, (id_of_pred _ legal).symm⟩

theorem packet_ids_phase (session : ClientSession) (m n : Nat) (current : session.getNextPacketId.1 = idOf m) :
    session.packetIds n = (List.range' m n).map idOf := by
  induction n generalizing session m with
  | zero => rfl
  | succ n ih =>
      have next : session.getNextPacketId.2.getNextPacketId.1 = idOf (m + 1) := by
        rw [(next_packet_id_value _).1, (next_packet_id_value session).2, current, next_id]
      rw [ClientSession.packetIds, current, ih _ _ next, List.range'_succ, List.map_cons]

theorem packet_ids_cycle (session : ClientSession) (n : Nat) :
    0 ∉ session.packetIds n ∧
      (∀ k, k + 65535 ≤ n → (((session.packetIds n).drop k).take 65535).Nodup ∧
        ∀ id, id ≠ 0 → (((session.packetIds n).drop k).take 65535).count id = 1) ∧
      ∀ k, k + 65535 < n → (session.packetIds n)[k + 65535]? = (session.packetIds n)[k]? := by
  obtain ⟨m, current⟩ := exists_phase session
  rw [packet_ids_phase session m n current]
  refine ⟨fun zero => ?_, fun k within => ?_, fun k within => ?_⟩
  · obtain ⟨i, _, same⟩ := List.mem_map.mp zero
    exact id_of_ne_zero i same
  · have window : (((List.range' m n).map idOf).drop k).take 65535 = (List.range' (m + k) 65535).map idOf := by
      rw [← List.map_drop, ← List.map_take, List.drop_range', Nat.mul_one, List.take_range'_of_length_ge (by omega)]
    rw [window]
    exact ⟨round_nodup _, fun id legal => List.count_eq_one_of_mem (round_nodup _) (round_complete _ id legal)⟩
  · have again : idOf (m + (k + 65535)) = idOf (m + k) := by
      rw [idOf, ← Nat.add_assoc, Nat.add_mod_right, ← idOf]
    rw [List.getElem?_map, List.getElem?_map, List.getElem?_range' (by omega), List.getElem?_range' (by omega),
      Option.map_some, Option.map_some, Nat.one_mul, Nat.one_mul, again]

theorem step_id (session : ClientSession) (event : SessionEvent) (n : Nat) (current : session.getNextPacketId.1 = idOf n) :
    (session.step event).getNextPacketId.1 = idOf (n + if event.numbered then 1 else 0) := by
  have same : ∀ later : ClientSession, later.nextPacketId = session.nextPacketId → later.getNextPacketId.1 = idOf n := by
    intro later counter
    rw [(next_packet_id_value later).1, counter, ← (next_packet_id_value session).1, current]
  cases event with
  | pubAck packetId => exact same _ rfl
  | deliver topic payload qos retain identifier =>
      have counter := receive_counter topic payload qos retain session identifier
      by_cases acknowledged : 0 < qos
      · rw [if_pos acknowledged, (next_packet_id_value session).2, current] at counter
        rw [(next_packet_id_value _).1, ClientSession.step, counter, next_id]
        simp [SessionEvent.numbered, acknowledged]
      · rw [if_neg acknowledged] at counter
        rw [ClientSession.step, same _ counter]
        simp [SessionEvent.numbered, acknowledged]

theorem run_id (session : ClientSession) (events : List SessionEvent) (n : Nat) (current : session.getNextPacketId.1 = idOf n) :
    (events.foldl ClientSession.step session).getNextPacketId.1 = idOf (n + events.countP SessionEvent.numbered) := by
  induction events generalizing session n with
  | nil => exact current
  | cons event rest ih =>
      rw [List.foldl_cons, ih _ _ (step_id session event n current), List.countP_cons]
      congr 1
      omega

theorem run_session (self : StoredSession) (events : List SessionEvent) :
    (events.foldl StoredSession.step self).session = events.foldl ClientSession.step self.session := by
  induction events generalizing self with
  | nil => rfl
  | cons event rest ih => exact ih (self.step event)

theorem step_client_id (session : ClientSession) (event : SessionEvent) :
    (session.step event).clientId = session.clientId := by
  cases event with
  | pubAck packetId => rfl
  | deliver topic payload qos retain identifier =>
      rw [ClientSession.step, ClientSession.receive]
      split
      · rw [send_keeps, next_packet_id_keeps]
        rfl
      · rw [send_keeps]

theorem step_free (self : StoredSession) (event : SessionEvent) (id : UInt16) :
    (self.step event).Free id ↔
      event = .pubAck id ∨ (event.numbered = true → self.session.getNextPacketId.1 ≠ id) ∧ self.Free id := by
  unfold StoredSession.Free
  rw [StoredSession.step, step_client_id]
  cases event with
  | pubAck packetId =>
      dsimp only [ClientSession.step, ClientSession.removeInFlight, SessionEvent.writes, List.foldl_cons, List.foldl_nil,
        Database.exec, StoredWrite.statements, Database.execute]
      rw [Assoc.get_remove, Assoc.get_remove, SessionEvent.pubAck.injEq]
      by_cases here : packetId = id
      · simp [here]
      · simp [here, SessionEvent.numbered]
  | deliver topic payload qos retain identifier =>
      dsimp only [ClientSession.step, SessionEvent.writes, SessionEvent.numbered]
      rw [receive_in_flight]
      by_cases acknowledged : 0 < qos
      · rw [if_pos acknowledged, if_pos acknowledged]
        dsimp only [List.foldl_cons, List.foldl_nil, Database.exec, StoredWrite.statements, Database.execute]
        rw [Assoc.get_insert, Assoc.get_replace]
        by_cases here : self.session.getNextPacketId.1 = id
        · simp [here, acknowledged]
        · simp [here]
      · rw [if_neg acknowledged, if_neg acknowledged]
        simp [acknowledged]

theorem free_iff (self : StoredSession) (events : List SessionEvent) (n : Nat)
    (current : self.session.getNextPacketId.1 = idOf n)
    (id : UInt16) (untaken : ∀ i < events.countP SessionEvent.numbered, idOf (n + i) ≠ id) :
    (events.foldl StoredSession.step self).Free id ↔ self.Free id ∨ SessionEvent.pubAck id ∈ events := by
  induction events generalizing self n with
  | nil => simp
  | cons event rest ih =>
      rw [List.countP_cons] at untaken
      have notHere : event.numbered = true → self.session.getNextPacketId.1 ≠ id := by
        intro numbered
        rw [if_pos numbered] at untaken
        rw [current]
        exact untaken 0 (Nat.succ_pos _)
      have later := ih (self.step event) _ (step_id self.session event n current) ?_
      · rw [List.foldl_cons, later, step_free, List.mem_cons, eq_comm]
        tauto
      · intro i below
        rw [Nat.add_assoc]
        exact untaken _ (by omega)

def afterDelivery (n : Nat) : List SessionEvent → List SessionEvent
  | [] => []
  | event :: rest =>
      if event.numbered = true then if n = 0 then rest else afterDelivery (n - 1) rest else afterDelivery n rest

-- The id that the next delivery takes has been acknowledged since it was taken last: by
-- the delivery one round before, or in the first round by a message there at the start.
def Acknowledged (start : StoredSession) (before : List SessionEvent) : Prop :=
  let n := before.countP SessionEvent.numbered
  if n < 65535 then start.Free (idOf n) ∨ SessionEvent.pubAck (idOf n) ∈ before
  else SessionEvent.pubAck (idOf n) ∈ afterDelivery (n - 65535) before

theorem after_delivery_split (n : Nat) (events : List SessionEvent) (enough : n < events.countP SessionEvent.numbered) :
    ∃ early delivery, events = early ++ delivery :: afterDelivery n events ∧ delivery.numbered = true ∧
      early.countP SessionEvent.numbered = n := by
  induction events generalizing n with
  | nil => simp at enough
  | cons event rest ih =>
      rw [List.countP_cons] at enough
      rw [afterDelivery]
      by_cases numbered : event.numbered = true
      · rw [if_pos numbered] at enough ⊢
        by_cases first : n = 0
        · rw [if_pos first]
          exact ⟨[], event, rfl, numbered, first.symm⟩
        · rw [if_neg first]
          obtain ⟨early, delivery, split, taken, count⟩ := ih (n - 1) (by omega)
          refine ⟨event :: early, delivery, congrArg (event :: ·) split, taken, ?_⟩
          rw [List.countP_cons, if_pos numbered, count]
          omega
      · rw [if_neg numbered] at enough ⊢
        obtain ⟨early, delivery, split, taken, count⟩ := ih n enough
        refine ⟨event :: early, delivery, congrArg (event :: ·) split, taken, ?_⟩
        rw [List.countP_cons, if_neg numbered, count, Nat.add_zero]

theorem taken_not_free (self : StoredSession) (event : SessionEvent) (numbered : event.numbered = true) :
    ¬(self.step event).Free self.session.getNextPacketId.1 := by
  rw [step_free]
  rintro (rfl | ⟨other, _⟩)
  · cases numbered
  · exact other numbered rfl

theorem first_id (session : ClientSession) (start : session.nextPacketId = 1) : session.getNextPacketId.1 = idOf 0 := by
  rw [(next_packet_id_value session).1, start]
  rfl

theorem next_free_iff (self : StoredSession) (start : self.session.nextPacketId = 1) (before : List SessionEvent) :
    (before.foldl StoredSession.step self).Free (idOf (before.countP SessionEvent.numbered)) ↔ Acknowledged self before := by
  have first := first_id self.session start
  unfold Acknowledged
  generalize count : before.countP SessionEvent.numbered = n
  dsimp only
  by_cases firstRound : n < 65535
  · rw [if_pos firstRound]
    refine free_iff self before 0 first (idOf n) ?_
    intro i below same
    have residues := id_of_inj _ _ same
    omega
  · rw [if_neg firstRound]
    obtain ⟨early, delivery, split, numbered, position⟩ := after_delivery_split (n - 65535) before (by omega)
    generalize afterDelivery (n - 65535) before = late at split ⊢
    have holding := run_id self.session early 0 first
    rw [position, Nat.zero_add, ← run_session] at holding
    generalize taking : early.foldl StoredSession.step self = holder at holding
    have next := step_id holder.session delivery _ holding
    rw [if_pos numbered] at next
    have lateCount : late.countP SessionEvent.numbered = 65534 := by
      rw [split, List.countP_append, List.countP_cons, if_pos numbered, position] at count
      omega
    have residue : n % 65535 = (n - 65535) % 65535 := by omega
    have sameId : idOf n = idOf (n - 65535) := by rw [idOf, idOf, residue]
    have held := taken_not_free holder delivery numbered
    rw [holding, ← sameId] at held
    rw [split, List.foldl_append, taking, List.foldl_cons, free_iff _ late _ next (idOf n) ?_]
    · exact or_iff_right held
    · intro i below same
      have residues := id_of_inj _ _ same
      omega

-- Sessions of a CONNECT, with any rows already there, and sessions that
-- restore_sessions_from_db has rebuilt from the rows there are.
def Started (self : StoredSession) : Prop :=
  (∃ pkt, self.session = newSession pkt) ∨ ∃ auth, self.session ∈ (Host.boot auth self.stored).broker.heap

theorem started_counter (self : StoredSession) (started : Started self) : self.session.nextPacketId = 1 := by
  rcases started with ⟨pkt, made⟩ | ⟨auth, restored⟩
  · rw [made]
    rfl
  · exact restored_sessions (fun session => session.nextPacketId = 1) (fun _ _ => rfl) (fun _ _ _ _ _ same => same)
      auth self.stored self.session restored

theorem packet_ids_fresh_iff (self : StoredSession) (started : Started self) (events : List SessionEvent) :
    Run.Throughout StoredSession.step FreshId self events ↔
      ∀ before event after, events = before ++ event :: after → event.numbered = true → Acknowledged self before := by
  have start := started_counter self started
  rw [Run.throughout_iff_splits]
  refine forall₃_congr fun before event after => forall_congr' fun _ => ?_
  have current := run_id self.session before 0 (first_id self.session start)
  rw [Nat.zero_add, ← run_session] at current
  unfold FreshId
  rw [current, next_free_iff self start before]
  exact forall_congr' fun _ => and_iff_right (id_of_ne_zero _)

theorem first_id_fresh :
    Run.Throughout StoredSession.step FreshId ⟨newSession ⟨"c", 60, false, none, none, {}⟩, {}⟩
        [.deliver "t" [1] 1 false none] ↔
      ∀ before event after, [SessionEvent.deliver "t" [1] 1 false none] = before ++ event :: after →
        event.numbered = true → Acknowledged ⟨newSession ⟨"c", 60, false, none, none, {}⟩, {}⟩ before :=
  packet_ids_fresh_iff _ (.inl ⟨_, rfl⟩) _

def unacknowledgedAtRestart : List StoredWrite := [.saveSession "c" none false 60, .saveInFlight "c" 1 "t" [1] 1]

theorem restored_session_reuses_id :
    ¬∀ (self : StoredSession) (events : List SessionEvent), Started self →
      Run.Throughout StoredSession.step FreshId self events := by
  intro all
  generalize rows : unacknowledgedAtRestart.foldl Database.exec {} = db
  have taken : ((Host.boot ⟨none⟩ db).broker.heap[0]?).map
      (fun session => (session.inFlight.get session.getNextPacketId.1).isSome) = some true := by
    rw [← rows]
    decide +kernel
  obtain ⟨session, restored, held⟩ := Option.map_eq_some_iff.mp taken
  have fresh := all ⟨session, db⟩ [.deliver "t" [2] 1 false none] (.inr ⟨⟨none⟩, List.mem_of_getElem? restored⟩)
  rw [(fresh.1 rfl).2.1] at held
  cases held

end Pipistrelle.Broker
