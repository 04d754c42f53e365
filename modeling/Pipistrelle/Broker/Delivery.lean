import Pipistrelle.Broker.Session

set_option autoImplicit false

/- Whom route_publish serves. What it does is to make the deliveries that the router
   and the group counters call for, one call of send_publish_to_client each; each
   changes the channel, the counter and the in-flight map of one session. -/
namespace Pipistrelle.Broker

open Codec Router

-- index % subs.len(), for a group that has members.
def turn (counters : Assoc String UInt64) (group : String) (subs : List SubscriptionInfo) : Option SubscriptionInfo :=
  subs[((counters.get group).getD 0).toNat % subs.length]?

def advance (counters : Assoc String UInt64) (group : String) (subs : List SubscriptionInfo) : Assoc String UInt64 :=
  if subs = [] then counters else counters.insert group ((counters.get group).getD 0 + 1)

-- One call of send_publish_to_client, and the share group on whose behalf it is made.
structure Delivery where
  group : Option String
  sub : SubscriptionInfo
deriving DecidableEq, Repr

def sharedDeliveries (counters : Assoc String UInt64) (shared : List (String × List SubscriptionInfo)) : List Delivery :=
  shared.filterMap fun (group, subs) => (turn counters group subs).map (⟨some group, ·⟩)

def BrokerState.deliveries (self : BrokerState) (topic : String) : List Delivery :=
  (matchTopic self.router topic).normal.map (⟨none, ·⟩) ++
    sharedDeliveries self.sharedGroupCounters (matchTopic self.router topic).shared.entries

def ClientSession.receive (topic : String) (payload : Bytes) (qos : UInt8) (retain : Bool) (self : ClientSession)
    (subscriptionIdentifier : Option UInt32) : ClientSession :=
  if 0 < qos then
    (self.getNextPacketId.2.addInFlight self.getNextPacketId.1 topic payload qos).send
      (publishFrame topic payload qos retain (some self.getNextPacketId.1) subscriptionIdentifier)
  else self.send (publishFrame topic payload qos retain none subscriptionIdentifier)

section Publish

variable (topic : String) (payload : Bytes) (qos : UInt8) (retain : Bool)

def BrokerState.deliver (self : BrokerState) (delivery : Delivery) : BrokerState :=
  self.sendPublishToClient delivery.sub.clientId topic payload qos retain delivery.sub.subscriptionIdentifier

def BrokerState.account (self : BrokerState) (counters : Assoc String UInt64) (published : UInt64)
    (bridge : Option (List (String × Bytes))) : BrokerState :=
  { self with sharedGroupCounters := counters, metricsMessagesPublished := published, bridgeSender := bridge }

theorem account_router (state : BrokerState) (counters : Assoc String UInt64) (published : UInt64)
    (bridge : Option (List (String × Bytes))) : (state.account counters published bridge).router = state.router := rfl

theorem account_sessions (state : BrokerState) (counters : Assoc String UInt64) (published : UInt64)
    (bridge : Option (List (String × Bytes))) : (state.account counters published bridge).sessions = state.sessions := rfl

theorem account_heap (state : BrokerState) (counters : Assoc String UInt64) (published : UInt64)
    (bridge : Option (List (String × Bytes))) : (state.account counters published bridge).heap = state.heap := rfl

theorem account_issued (state : BrokerState) (counters : Assoc String UInt64) (published : UInt64)
    (bridge : Option (List (String × Bytes))) : (state.account counters published bridge).issued = state.issued := rfl

theorem deliver_account (state : BrokerState) (counters : Assoc String UInt64) (published : UInt64)
    (bridge : Option (List (String × Bytes))) (delivery : Delivery) :
    (state.account counters published bridge).deliver topic payload qos retain delivery =
      (state.deliver topic payload qos retain delivery).account counters published bridge := by
  unfold BrokerState.deliver BrokerState.sendPublishToClient BrokerState.account
  dsimp only
  cases state.sessions.get delivery.sub.clientId with
  | none => rfl
  | some ref =>
      dsimp only
      cases state.heap[ref]? with
      | none => rfl
      | some session =>
          dsimp only
          split <;> rfl

theorem deliver_all_account (state : BrokerState) (counters : Assoc String UInt64) (published : UInt64)
    (bridge : Option (List (String × Bytes))) (deliveries : List Delivery) :
    deliveries.foldl (BrokerState.deliver topic payload qos retain) (state.account counters published bridge) =
      (deliveries.foldl (BrokerState.deliver topic payload qos retain) state).account counters published bridge := by
  induction deliveries generalizing state with
  | nil => rfl
  | cons delivery rest ih => rw [List.foldl_cons, List.foldl_cons, deliver_account, ih]

theorem turn_none_iff (counters : Assoc String UInt64) (group : String) (subs : List SubscriptionInfo) :
    turn counters group subs = none ↔ subs = [] := by
  unfold turn
  rw [List.getElem?_eq_none_iff]
  constructor
  · intro beyond
    by_contra nonempty
    exact absurd (Nat.mod_lt _ (List.length_pos_iff.mpr nonempty)) (Nat.not_lt.mpr beyond)
  · intro nil
    rw [nil]
    exact Nat.zero_le _

theorem advance_other (counters : Assoc String UInt64) (group other : String) (subs : List SubscriptionInfo)
    (different : group ≠ other) : (advance counters group subs).get other = counters.get other := by
  unfold advance
  split
  · rfl
  · rw [Assoc.get_insert, if_neg different]

theorem turn_advance (counters : Assoc String UInt64) (group other : String) (subs members : List SubscriptionInfo)
    (different : group ≠ other) : turn (advance counters group subs) other members = turn counters other members := by
  rw [turn, turn, advance_other counters group other subs different]

theorem deliver_shared_account (state : BrokerState) (counters : Assoc String UInt64) (published : UInt64)
    (bridge : Option (List (String × Bytes))) (group : String) (subs : List SubscriptionInfo) :
    (state.account counters published bridge).deliverShared topic payload qos retain group subs =
      (((turn counters group subs).map (⟨some group, ·⟩)).toList.foldl (BrokerState.deliver topic payload qos retain)
        state).account (advance counters group subs) published bridge := by
  have members := turn_none_iff counters group subs
  unfold turn at members ⊢
  unfold BrokerState.deliverShared advance
  dsimp only [BrokerState.account]
  cases picked : subs[((counters.get group).getD 0).toNat % subs.length]? with
  | none =>
      rw [if_pos (members.mp picked)]
      rfl
  | some selected =>
      rw [if_neg (fun nil => by simp [members.mpr nil] at picked)]
      exact deliver_account topic payload qos retain state _ published bridge ⟨some group, selected⟩

-- Each group has a counter of its own, so the turns are those of the counters before.
theorem deliver_groups_account (shared : List (String × List SubscriptionInfo)) (distinct : (shared.map Prod.fst).Nodup)
    (state : BrokerState) (counters : Assoc String UInt64) (published : UInt64)
    (bridge : Option (List (String × Bytes))) :
    shared.foldl (fun self (group, subs) => self.deliverShared topic payload qos retain group subs)
        (state.account counters published bridge) =
      ((sharedDeliveries counters shared).foldl (BrokerState.deliver topic payload qos retain) state).account
        (shared.foldl (fun counters (group, subs) => advance counters group subs) counters) published bridge := by
  induction shared generalizing state counters with
  | nil => rfl
  | cons entry rest ih =>
      obtain ⟨group, subs⟩ := entry
      rw [List.map_cons, List.nodup_cons] at distinct
      rw [List.foldl_cons, List.foldl_cons]
      dsimp only
      rw [deliver_shared_account, ih distinct.2]
      have later : sharedDeliveries (advance counters group subs) rest = sharedDeliveries counters rest := by
        refine List.filterMap_congr ?_
        intro other member
        have different : group ≠ other.1 := fun same => distinct.1 (List.mem_map.mpr ⟨other, member, same.symm⟩)
        dsimp only
        rw [turn_advance counters group other.1 subs other.2 different]
      have first : sharedDeliveries counters ((group, subs) :: rest) =
          ((turn counters group subs).map (⟨some group, ·⟩)).toList ++ sharedDeliveries counters rest := by
        unfold sharedDeliveries
        rw [List.filterMap_cons]
        dsimp only
        cases turn counters group subs <;> rfl
      rw [later, first, List.foldl_append]

def BrokerState.bridged (self : BrokerState) (fromClient topic : String) (payload : Bytes) :
    Option (List (String × Bytes)) :=
  if fromClient = "bridge_client" then self.bridgeSender else self.bridgeSender.map (· ++ [(topic, payload)])

def BrokerState.counted (self : BrokerState) (topic : String) : Assoc String UInt64 :=
  (matchTopic self.router topic).shared.entries.foldl (fun counters (group, subs) => advance counters group subs)
    self.sharedGroupCounters

theorem route_publish_delivers (state : BrokerState) (fromClient : String) :
    state.routePublish fromClient topic payload qos retain =
      ((state.deliveries topic).foldl (BrokerState.deliver topic payload qos retain) state).account (state.counted topic)
        (state.metricsMessagesPublished + 1) (state.bridged fromClient topic payload) := by
  have started : BrokerState.forwardToBridge
      { state with metricsMessagesPublished := state.metricsMessagesPublished + 1 } fromClient topic payload =
      state.account state.sharedGroupCounters (state.metricsMessagesPublished + 1)
        (state.bridged fromClient topic payload) := by
    unfold BrokerState.forwardToBridge BrokerState.bridged
    split <;> rfl
  have normal : ∀ (subs : List SubscriptionInfo) (now : BrokerState),
      subs.foldl (BrokerState.deliverNormal topic payload qos retain) now =
        (subs.map (⟨none, ·⟩)).foldl (BrokerState.deliver topic payload qos retain) now := by
    intro subs now
    rw [List.foldl_map]
    rfl
  unfold BrokerState.routePublish
  dsimp only
  rw [started, normal, deliver_all_account]
  rw [account_router, deliver_groups_account topic payload qos retain _ (matchTopic state.router topic).shared.distinct]
  rw [BrokerState.deliveries, List.foldl_append]
  rfl

def Delivery.reaches (sessions : Assoc String SessionRef) (ref : SessionRef) (delivery : Delivery) : Bool :=
  sessions.get delivery.sub.clientId = some ref

def BrokerState.served (self : BrokerState) (topic : String) (ref : SessionRef) : List Delivery :=
  (self.deliveries topic).filter (Delivery.reaches self.sessions ref)

theorem deliver_router (state : BrokerState) (delivery : Delivery) :
    (state.deliver topic payload qos retain delivery).router = state.router := by
  unfold BrokerState.deliver BrokerState.sendPublishToClient
  split
  · rfl
  · split
    · rfl
    · split <;> rfl

theorem deliver_sessions (state : BrokerState) (delivery : Delivery) :
    (state.deliver topic payload qos retain delivery).sessions = state.sessions := by
  unfold BrokerState.deliver BrokerState.sendPublishToClient
  split
  · rfl
  · split
    · rfl
    · split <;> rfl

theorem deliver_heap (state : BrokerState) (delivery : Delivery) (ref : SessionRef) :
    (state.deliver topic payload qos retain delivery).heap[ref]? =
      if delivery.reaches state.sessions ref then
        state.heap[ref]?.map (·.receive topic payload qos retain delivery.sub.subscriptionIdentifier)
      else state.heap[ref]? := by
  unfold BrokerState.deliver BrokerState.sendPublishToClient Delivery.reaches
  cases get : state.sessions.get delivery.sub.clientId with
  | none => simp
  | some target =>
      simp only [Option.some.injEq, decide_eq_true_eq]
      cases held : state.heap[target]? with
      | none =>
          dsimp only
          by_cases here : target = ref
          · rw [if_pos here, ← here, held]
            rfl
          · rw [if_neg here]
      | some session =>
          dsimp only
          by_cases acknowledged : 0 < qos
          · rw [if_pos acknowledged]
            dsimp only [BrokerState.spawn]
            rw [modify_session_heap]
            by_cases here : target = ref
            · rw [if_pos here, if_pos here, ← here, held]
              simp [ClientSession.receive, acknowledged]
            · rw [if_neg here, if_neg here]
          · rw [if_neg acknowledged, modify_session_heap]
            simp only [ClientSession.receive, if_neg acknowledged]

theorem deliver_all_sessions (deliveries : List Delivery) (state : BrokerState) :
    (deliveries.foldl (BrokerState.deliver topic payload qos retain) state).sessions = state.sessions ∧
      (deliveries.foldl (BrokerState.deliver topic payload qos retain) state).router = state.router := by
  induction deliveries generalizing state with
  | nil => exact ⟨rfl, rfl⟩
  | cons delivery rest ih =>
      rw [List.foldl_cons, (ih _).1, (ih _).2]
      exact ⟨deliver_sessions _ _ _ _ _ _, deliver_router _ _ _ _ _ _⟩

theorem deliver_all_heap (deliveries : List Delivery) (state : BrokerState) (ref : SessionRef) :
    (deliveries.foldl (BrokerState.deliver topic payload qos retain) state).heap[ref]? =
      state.heap[ref]?.map fun session =>
        ((deliveries.filter (Delivery.reaches state.sessions ref)).map (·.sub.subscriptionIdentifier)).foldl
          (ClientSession.receive topic payload qos retain) session := by
  induction deliveries generalizing state with
  | nil => simp
  | cons delivery rest ih =>
      rw [List.foldl_cons, ih, deliver_sessions, deliver_heap]
      by_cases here : delivery.reaches state.sessions ref = true
      · rw [if_pos here, List.filter_cons_of_pos here, Option.map_map]
        rfl
      · rw [if_neg here, List.filter_cons_of_neg here]

theorem route_publish_heap (state : BrokerState) (fromClient : String) (ref : SessionRef) :
    (state.routePublish fromClient topic payload qos retain).heap[ref]? =
      state.heap[ref]?.map fun session =>
        ((state.served topic ref).map (·.sub.subscriptionIdentifier)).foldl
          (ClientSession.receive topic payload qos retain) session := by
  rw [route_publish_delivers, account_heap]
  exact deliver_all_heap topic payload qos retain _ state ref

theorem route_publish_keeps (state : BrokerState) (fromClient : String) :
    (state.routePublish fromClient topic payload qos retain).sessions = state.sessions ∧
      (state.routePublish fromClient topic payload qos retain).router = state.router := by
  rw [route_publish_delivers, account_sessions, account_router]
  exact deliver_all_sessions topic payload qos retain (state.deliveries topic) state

theorem route_publish_counters (state : BrokerState) (fromClient group : String) :
    (state.routePublish fromClient topic payload qos retain).sharedGroupCounters.get group =
      (state.counted topic).get group := by
  rw [route_publish_delivers]
  rfl

def BrokerState.savedFor (self : BrokerState) (delivery : Delivery) : Prop :=
  0 < qos ∧ (self.registered delivery.sub.clientId).isSome = true

theorem deliver_issued (state : BrokerState) (delivery : Delivery) :
    ∃ writes, (state.deliver topic payload qos retain delivery).issued = state.issued ++ writes ∧
      (state.savedFor qos delivery → ∃ pid, writes = [.saveInFlight delivery.sub.clientId pid topic payload qos]) ∧
      (¬state.savedFor qos delivery → writes = []) := by
  unfold BrokerState.deliver BrokerState.sendPublishToClient BrokerState.savedFor BrokerState.registered
  cases get : state.sessions.get delivery.sub.clientId with
  | none => exact ⟨[], (List.append_nil _).symm, fun saved => by simp at saved, fun _ => rfl⟩
  | some ref =>
      dsimp only [Option.bind_some]
      cases held : state.heap[ref]? with
      | none => exact ⟨[], (List.append_nil _).symm, fun saved => by simp at saved, fun _ => rfl⟩
      | some session =>
          dsimp only
          by_cases acknowledged : 0 < qos
          · rw [if_pos acknowledged]
            exact ⟨[_], rfl, fun _ => ⟨_, rfl⟩, fun unsaved => absurd ⟨acknowledged, rfl⟩ unsaved⟩
          · rw [if_neg acknowledged]
            exact ⟨[], (List.append_nil _).symm, fun saved => absurd saved.1 acknowledged, fun _ => rfl⟩

theorem deliver_registered (state : BrokerState) (delivery : Delivery) (clientId : String) :
    ((state.deliver topic payload qos retain delivery).registered clientId).isSome =
      (state.registered clientId).isSome := by
  rw [BrokerState.registered, BrokerState.registered, deliver_sessions]
  cases state.sessions.get clientId with
  | none => rfl
  | some ref =>
      rw [Option.bind_some, Option.bind_some, deliver_heap]
      split
      · exact Option.isSome_map
      · rfl

theorem deliver_all_issued (deliveries : List Delivery) (state : BrokerState) :
    ∃ writes, (deliveries.foldl (BrokerState.deliver topic payload qos retain) state).issued = state.issued ++ writes ∧
      (∀ write ∈ writes, ∃ delivery ∈ deliveries, state.savedFor qos delivery ∧
        ∃ pid, write = .saveInFlight delivery.sub.clientId pid topic payload qos) ∧
      ∀ delivery ∈ deliveries, state.savedFor qos delivery →
        ∃ pid, .saveInFlight delivery.sub.clientId pid topic payload qos ∈ writes := by
  induction deliveries generalizing state with
  | nil => exact ⟨[], (List.append_nil _).symm, by simp, by simp⟩
  | cons delivery rest ih =>
      obtain ⟨first, issued, saves, savesNot⟩ := deliver_issued topic payload qos retain state delivery
      obtain ⟨later, issuedLater, only, all⟩ := ih (state.deliver topic payload qos retain delivery)
      have saved : ∀ other, (state.deliver topic payload qos retain delivery).savedFor qos other ↔
          state.savedFor qos other := by
        intro other
        rw [BrokerState.savedFor, BrokerState.savedFor, deliver_registered]
      refine ⟨first ++ later, ?_, ?_, ?_⟩
      · rw [List.foldl_cons, issuedLater, issued, List.append_assoc]
      · intro write member
        rcases List.mem_append.mp member with early | late
        · by_cases here : state.savedFor qos delivery
          · obtain ⟨pid, same⟩ := saves here
            rw [same, List.mem_singleton] at early
            exact ⟨delivery, by simp, here, pid, early⟩
          · rw [savesNot here] at early
            cases early
        · obtain ⟨other, inRest, kept, pid, same⟩ := only write late
          exact ⟨other, by simp [inRest], (saved other).mp kept, pid, same⟩
      · intro other member kept
        rcases List.mem_cons.mp member with rfl | inRest
        · obtain ⟨pid, same⟩ := saves kept
          exact ⟨pid, by simp [same]⟩
        · obtain ⟨pid, late⟩ := all other inRest ((saved other).mpr kept)
          exact ⟨pid, List.mem_append_right _ late⟩

end Publish

def ClientSession.packetIds (self : ClientSession) : Nat → List UInt16
  | 0 => []
  | n + 1 => self.getNextPacketId.1 :: self.getNextPacketId.2.packetIds n

def ClientSession.frameIds (self : ClientSession) (qos : UInt8) (n : Nat) : List (Option UInt16) :=
  if 0 < qos then (self.packetIds n).map some else List.replicate n none

theorem packet_ids_length (session : ClientSession) (n : Nat) : (session.packetIds n).length = n := by
  induction n generalizing session with
  | zero => rfl
  | succ n ih => rw [ClientSession.packetIds, List.length_cons, ih]

theorem packet_ids_congr (session other : ClientSession) (same : session.nextPacketId = other.nextPacketId) (n : Nat) :
    session.packetIds n = other.packetIds n := by
  induction n generalizing session other with
  | zero => rfl
  | succ n ih =>
      have next : session.getNextPacketId.1 = other.getNextPacketId.1 ∧
          session.getNextPacketId.2.nextPacketId = other.getNextPacketId.2.nextPacketId := by
        unfold ClientSession.getNextPacketId
        rw [same]
        dsimp only
        split <;> exact ⟨rfl, rfl⟩
      rw [ClientSession.packetIds, ClientSession.packetIds, next.1, ih _ _ next.2]

section Receive

variable (topic : String) (payload : Bytes) (qos : UInt8) (retain : Bool)

theorem next_packet_id_keeps (session : ClientSession) :
    session.getNextPacketId.2 = { session with nextPacketId := session.getNextPacketId.2.nextPacketId } := by
  unfold ClientSession.getNextPacketId
  dsimp only
  split <;> rfl

theorem send_sent (session : ClientSession) (buf : Bytes) :
    (session.send buf).sent = if session.receiverOpen then session.sent ++ [buf] else session.sent := by
  unfold ClientSession.send
  split <;> rfl

theorem send_keeps (session : ClientSession) (buf : Bytes) :
    session.send buf = { session with sent := (session.send buf).sent } := by
  unfold ClientSession.send
  split <;> rfl

theorem receive_open (session : ClientSession) (identifier : Option UInt32) :
    (session.receive topic payload qos retain identifier).receiverOpen = session.receiverOpen := by
  unfold ClientSession.receive
  split
  · rw [send_keeps, next_packet_id_keeps]
    rfl
  · rw [send_keeps]

theorem receive_sent (session : ClientSession) (identifier : Option UInt32) :
    (session.receive topic payload qos retain identifier).sent =
      if session.receiverOpen then session.sent ++
        [publishFrame topic payload qos retain (if 0 < qos then some session.getNextPacketId.1 else none) identifier]
      else session.sent := by
  unfold ClientSession.receive
  by_cases acknowledged : 0 < qos
  · rw [if_pos acknowledged, if_pos acknowledged, send_sent, next_packet_id_keeps]
    rfl
  · rw [if_neg acknowledged, if_neg acknowledged, send_sent]

theorem receive_counter (session : ClientSession) (identifier : Option UInt32) :
    (session.receive topic payload qos retain identifier).nextPacketId =
      if 0 < qos then session.getNextPacketId.2.nextPacketId else session.nextPacketId := by
  unfold ClientSession.receive
  split
  · rw [send_keeps]
    rfl
  · rw [send_keeps]

theorem receive_in_flight (session : ClientSession) (identifier : Option UInt32) :
    (session.receive topic payload qos retain identifier).inFlight =
      if 0 < qos then session.inFlight.insert session.getNextPacketId.1 ⟨session.getNextPacketId.1, topic, payload, qos⟩
      else session.inFlight := by
  unfold ClientSession.receive
  split
  · rw [send_keeps, next_packet_id_keeps]
    rfl
  · rw [send_keeps]

theorem receive_packet_ids (session : ClientSession) (identifier : Option UInt32) (acknowledged : 0 < qos) (n : Nat) :
    (session.receive topic payload qos retain identifier).packetIds n = session.getNextPacketId.2.packetIds n :=
  packet_ids_congr _ _ (by rw [receive_counter, if_pos acknowledged]) n

theorem receive_all_open (session : ClientSession) (identifiers : List (Option UInt32)) :
    (identifiers.foldl (ClientSession.receive topic payload qos retain) session).receiverOpen = session.receiverOpen := by
  induction identifiers generalizing session with
  | nil => rfl
  | cons identifier rest ih => rw [List.foldl_cons, ih, receive_open]

def frames (ids : List (Option UInt16)) (identifiers : List (Option UInt32)) : List Bytes :=
  List.zipWith (publishFrame topic payload qos retain) ids identifiers

theorem receive_all_sent (session : ClientSession) (identifiers : List (Option UInt32)) :
    (identifiers.foldl (ClientSession.receive topic payload qos retain) session).sent =
      if session.receiverOpen then
        session.sent ++ frames topic payload qos retain (session.frameIds qos identifiers.length) identifiers
      else session.sent := by
  induction identifiers generalizing session with
  | nil => simp [frames]
  | cons identifier rest ih =>
      rw [List.foldl_cons, ih, receive_open, receive_sent]
      have ids : session.frameIds qos (identifier :: rest).length =
          (if 0 < qos then some session.getNextPacketId.1 else none) ::
            (session.receive topic payload qos retain identifier).frameIds qos rest.length := by
        unfold ClientSession.frameIds
        by_cases acknowledged : 0 < qos
        · rw [if_pos acknowledged, if_pos acknowledged, if_pos acknowledged,
            receive_packet_ids topic payload qos retain session identifier acknowledged]
          rfl
        · rw [if_neg acknowledged, if_neg acknowledged, if_neg acknowledged]
          rfl
      split
      · rw [ids, List.append_assoc]
        rfl
      · rfl

theorem receive_all_in_flight (session : ClientSession) (identifiers : List (Option UInt32)) (pid : UInt16) :
    (identifiers.foldl (ClientSession.receive topic payload qos retain) session).inFlight.get pid =
      if some pid ∈ session.frameIds qos identifiers.length then some ⟨pid, topic, payload, qos⟩
      else session.inFlight.get pid := by
  unfold ClientSession.frameIds
  by_cases acknowledged : 0 < qos
  · simp only [if_pos acknowledged, List.mem_map, Option.some.injEq, exists_eq_right]
    induction identifiers generalizing session with
    | nil => simp [ClientSession.packetIds]
    | cons identifier rest ih =>
        rw [List.foldl_cons, ih, receive_in_flight, if_pos acknowledged, Assoc.get_insert,
          receive_packet_ids topic payload qos retain session identifier acknowledged]
        simp only [List.length_cons, ClientSession.packetIds, List.mem_cons]
        by_cases later : pid ∈ session.getNextPacketId.2.packetIds rest.length
        · rw [if_pos later, if_pos (.inr later)]
        · by_cases here : session.getNextPacketId.1 = pid
          · rw [if_neg later, if_pos here, if_pos (.inl here.symm), here]
          · rw [if_neg later, if_neg here, if_neg (fun either => either.elim (fun same => here same.symm) later)]
  · have nothing : some pid ∉ List.replicate identifiers.length (none : Option UInt16) := by
      intro member
      cases (List.mem_replicate.mp member).2
    rw [if_neg acknowledged, if_neg nothing]
    induction identifiers generalizing session with
    | nil => rfl
    | cons identifier rest ih =>
        rw [List.foldl_cons, ih _ (fun member => by cases (List.mem_replicate.mp member).2), receive_in_flight,
          if_neg acknowledged]

theorem receive_all_unacknowledged (session : ClientSession) (identifiers : List (Option UInt32)) (unacknowledged : ¬0 < qos) :
    (identifiers.foldl (ClientSession.receive topic payload qos retain) session).inFlight = session.inFlight ∧
      (identifiers.foldl (ClientSession.receive topic payload qos retain) session).nextPacketId = session.nextPacketId := by
  induction identifiers generalizing session with
  | nil => exact ⟨rfl, rfl⟩
  | cons identifier rest ih =>
      rw [List.foldl_cons, (ih _).1, (ih _).2, receive_in_flight, receive_counter, if_neg unacknowledged,
        if_neg unacknowledged]
      exact ⟨rfl, rfl⟩

end Receive

theorem counted_get (shared : List (String × List SubscriptionInfo)) (distinct : (shared.map Prod.fst).Nodup)
    (counters : Assoc String UInt64) (group : String) :
    (shared.foldl (fun counters (group, subs) => advance counters group subs) counters).get group =
      if (Entries.find group shared).getD [] = [] then counters.get group
      else some ((counters.get group).getD 0 + 1) := by
  induction shared generalizing counters with
  | nil => rfl
  | cons entry rest ih =>
      obtain ⟨first, subs⟩ := entry
      rw [List.map_cons, List.nodup_cons] at distinct
      rw [List.foldl_cons]
      dsimp only
      rw [ih distinct.2, Entries.find]
      by_cases here : first = group
      · have absent := Entries.find_absent group rest (here ▸ distinct.1)
        rw [absent, if_pos here, Option.getD_none, if_pos rfl, Option.getD_some, here, advance]
        split
        · rfl
        · rw [Assoc.get_insert, if_pos rfl]
      · rw [if_neg here, advance_other counters first group subs here]

def BrokerState.members (self : BrokerState) (topic group : String) : List SubscriptionInfo :=
  ((matchTopic self.router topic).shared.get group).getD []

theorem frame_ids_length (session : ClientSession) (qos : UInt8) (n : Nat) : (session.frameIds qos n).length = n := by
  unfold ClientSession.frameIds
  split
  · rw [List.length_map, packet_ids_length]
  · exact List.length_replicate

theorem route_publish_serves (state : BrokerState) (fromClient topic : String) (payload : Bytes) (qos : UInt8)
    (retain : Bool) :
    let after := state.routePublish fromClient topic payload qos retain
    after.router = state.router ∧ after.sessions = state.sessions ∧
      (∀ group, after.sharedGroupCounters.get group =
        if state.members topic group = [] then state.sharedGroupCounters.get group
        else some ((state.sharedGroupCounters.get group).getD 0 + 1)) ∧
      ∀ ref session, state.heap[ref]? = some session → ∃ later ids, after.heap[ref]? = some later ∧
        ids.length = (state.served topic ref).length ∧
        later.sent = (if session.receiverOpen then session.sent ++
            frames topic payload qos retain ids ((state.served topic ref).map (·.sub.subscriptionIdentifier))
          else session.sent) ∧
        (state.served topic ref = [] → later = session) ∧
        (¬0 < qos → later.inFlight = session.inFlight ∧ later.nextPacketId = session.nextPacketId) ∧
        (0 < qos → ∀ id ∈ ids, ∃ pid, id = some pid ∧ later.inFlight.get pid = some ⟨pid, topic, payload, qos⟩) := by
  intro after
  have kept := route_publish_keeps topic payload qos retain state fromClient
  refine ⟨kept.2, kept.1, ?_, ?_⟩
  · intro group
    rw [route_publish_counters]
    exact counted_get _ (matchTopic state.router topic).shared.distinct state.sharedGroupCounters group
  · intro ref session held
    have heap := route_publish_heap topic payload qos retain state fromClient ref
    rw [held, Option.map_some] at heap
    generalize named : (state.served topic ref).map (·.sub.subscriptionIdentifier) = identifiers at heap ⊢
    have count : identifiers.length = (state.served topic ref).length := by rw [← named, List.length_map]
    refine ⟨_, session.frameIds qos identifiers.length, heap, by rw [frame_ids_length, count],
      receive_all_sent topic payload qos retain session identifiers, ?_, ?_, ?_⟩
    · intro nothing
      rw [nothing, List.map_nil] at named
      rw [← named, List.foldl_nil]
    · exact receive_all_unacknowledged topic payload qos retain session identifiers
    · intro acknowledged id member
      have ids : session.frameIds qos identifiers.length = (session.packetIds identifiers.length).map some := if_pos acknowledged
      obtain ⟨pid, _, rfl⟩ := List.mem_map.mp (ids ▸ member)
      exact ⟨pid, rfl, by rw [receive_all_in_flight, if_pos member]⟩

def silentSession : ClientSession where
  clientId := "c"
  username := none
  cleanStart := true
  keepAlive := 0
  sessionExpiryInterval := 0
  receiverOpen := false

def writerGone : BrokerState where
  router := Router.subscribe {} "c" "t" 0 none
  sessions := ({} : Assoc String SessionRef).insert "c" 0
  heap := [silentSession]
  auth := ⟨none⟩

theorem gone_writer_is_sent_nothing :
    ¬∀ (state : BrokerState) (fromClient topic : String) (payload : Bytes) (qos : UInt8) (retain : Bool)
        (ref : SessionRef) (session : ClientSession), state.heap[ref]? = some session → ∃ later ids,
      (state.routePublish fromClient topic payload qos retain).heap[ref]? = some later ∧
        ids.length = (state.served topic ref).length ∧
        later.sent = session.sent ++
          frames topic payload qos retain ids ((state.served topic ref).map (·.sub.subscriptionIdentifier)) := by
  intro all
  obtain ⟨later, ids, held, count, sent⟩ := all writerGone "p" "t" [1] 0 false 0 silentSession rfl
  have one : (writerGone.served "t" 0).map (·.sub.subscriptionIdentifier) = [none] := by decide +kernel
  have nothing : ((writerGone.routePublish "p" "t" [1] 0 false).heap[0]?).map (·.sent) = some [] := by decide +kernel
  rw [held, Option.map_some, sent, one] at nothing
  have once : (writerGone.served "t" 0).length = 1 := by decide +kernel
  rw [once] at count
  obtain ⟨id, rfl⟩ := List.length_eq_one_iff.mp count
  cases nothing

end Pipistrelle.Broker
