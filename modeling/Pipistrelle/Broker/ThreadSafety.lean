import Pipistrelle.Broker.Provenance
import Pipistrelle.Broker.Threads

set_option autoImplicit false

/- Any number of the tasks of Threads at once, in any interleaving. The locks are taken
   in one order, so that no task waits for ever, and a session that gets a PUBLISH is
   registered at that very step, because its sender has the sessions locked. -/
namespace Pipistrelle.Broker

open Codec Router Auth LockThreads

-- The counters are locked while a member is served, the sessions while its message is stored.
def Lock.rank : Lock → Nat
  | .bridgeSender => 0
  | .router => 1
  | .sharedGroupCounters => 2
  | .sessions => 3
  | .inFlight _ => 4

-- What the lock guards is as it was. The channel behind bridge_sender is not guarded by it.
def Lock.Guarded (before after : BrokerState) : Lock → Prop
  | .bridgeSender => after.bridgeSender.isSome = before.bridgeSender.isSome
  | .router => after.router = before.router
  | .sharedGroupCounters => after.sharedGroupCounters = before.sharedGroupCounters
  | .sessions => after.sessions = before.sessions
  | .inFlight ref => ∀ session, before.heap[ref]? = some session →
      ∃ later, after.heap[ref]? = some later ∧ later.inFlight = session.inFlight

def BrokerState.Registered (self : BrokerState) (ref : SessionRef) : Prop :=
  ∃ clientId, self.sessions.get clientId = some ref

-- What one access may do to a session: only a registered one is sent a PUBLISH, is numbered or
-- has a message put in flight.
structure Touched (before : BrokerState) (ref : SessionRef) (session later : ClientSession) : Prop where
  identity : later.identity = session.identity
  sent : later.sent = session.sent ∨ ∃ frame, later.sent = session.sent ++ [frame] ∧
    (IsPublishFrame frame → before.Registered ref)
  nextPacketId : later.nextPacketId = session.nextPacketId ∨ before.Registered ref
  inFlight : later.inFlight = session.inFlight ∨ (∃ packetId, later.inFlight = session.inFlight.remove packetId) ∨
    before.Registered ref

structure Careful (before after : BrokerState) : Prop where
  heap : ∀ ref session, before.heap[ref]? = some session →
    ∃ later, after.heap[ref]? = some later ∧ Touched before ref session later
  fresh : ∀ (ref : SessionRef) session, before.heap[ref]? = none → after.heap[ref]? = some session → session.sent = []

theorem touched_refl (before : BrokerState) (ref : SessionRef) (session : ClientSession) : Touched before ref session session :=
  ⟨rfl, .inl rfl, .inl rfl, .inl rfl⟩

theorem careful_same (before after : BrokerState) (same : after.heap = before.heap) : Careful before after := by
  refine ⟨fun ref session held => ⟨session, same ▸ held, touched_refl before ref session⟩, fun ref session unborn born => ?_⟩
  rw [same, unborn] at born
  cases born

def lockRules : Discipline BrokerState Lock where
  rank := Lock.rank
  Guarded lock before after := lock.Guarded before after
  Promise := Careful
  idle state := careful_same state state rfl

def Unsure (_ : BrokerState) : Prop := True

theorem unsure_stable (held : List (Lock × Mode)) : lockRules.Stable held Unsure := fun _ _ _ _ _ => trivial

def Found (clientId : String) (ref : SessionRef) (state : BrokerState) : Prop := state.sessions.get clientId = some ref

theorem found_stable (clientId : String) (ref : SessionRef) (held : List (Lock × Mode)) (mode : Mode)
    (locked : (Lock.sessions, mode) ∈ held) : lockRules.Stable held (Found clientId ref) := by
  intro state after _ guarded found
  have same : after.sessions = state.sessions := guarded _ locked
  rw [Found, same]
  exact found

theorem heap_guarded (before after : BrokerState) (heap : after.heap = before.heap) (ref : SessionRef) :
    (Lock.inFlight ref).Guarded before after :=
  fun session held => ⟨session, heap ▸ held, rfl⟩

theorem fields_guarded (before after : BrokerState) (heap : after.heap = before.heap)
    (bridge : after.bridgeSender.isSome = before.bridgeSender.isSome) (router : after.router = before.router)
    (counters : after.sharedGroupCounters = before.sharedGroupCounters) (sessions : after.sessions = before.sessions)
    (lock : Lock) : lock.Guarded before after := by
  cases lock with
  | bridgeSender => exact bridge
  | router => exact router
  | sharedGroupCounters => exact counters
  | sessions => exact sessions
  | inFlight ref => exact heap_guarded before after heap ref

theorem guarded_refl (state : BrokerState) (lock : Lock) : lock.Guarded state state :=
  fields_guarded state state rfl rfl rfl rfl rfl lock

theorem modify_careful (state : BrokerState) (ref : SessionRef) (change : ClientSession → ClientSession)
    (touched : ∀ session, state.heap[ref]? = some session → Touched state ref session (change session)) :
    Careful state (state.modifySession ref change) := by
  refine ⟨fun other session held => ?_, fun other session unborn born => ?_⟩
  · rw [modify_session_heap, held]
    by_cases here : ref = other
    · rw [if_pos here]
      exact ⟨_, rfl, here ▸ touched session (here ▸ held)⟩
    · rw [if_neg here]
      exact ⟨session, rfl, touched_refl state other session⟩
  · rw [modify_session_heap, unborn] at born
    split at born
    · cases born
    · cases born

theorem modify_guarded (state : BrokerState) (ref : SessionRef) (change : ClientSession → ClientSession) (lock : Lock)
    (kept : lock = .inFlight ref → ∀ session, (change session).inFlight = session.inFlight) :
    lock.Guarded state (state.modifySession ref change) := by
  cases lock with
  | inFlight other =>
      intro session held
      rw [modify_session_heap, held]
      by_cases here : ref = other
      · rw [if_pos here]
        exact ⟨_, rfl, kept (here ▸ rfl) session⟩
      · rw [if_neg here]
        exact ⟨session, rfl, rfl⟩
  | bridgeSender | router | sharedGroupCounters | sessions => rfl

namespace Program

theorem spawn_verified (held : List (Lock × Mode)) (known : BrokerState → Prop) (stable : lockRules.Stable held known)
    (kept : ∀ state write, known state → known (state.spawn write)) (write : StoredWrite) (next : Program)
    (later : lockRules.Verified next held known) : lockRules.Verified (spawn write next) held known := by
  exact act_verified lockRules held known stable _ _ (fun state given => ⟨careful_same _ _ rfl,
    fun lock => .inl (fields_guarded _ _ rfl rfl rfl rfl rfl lock), kept state write given⟩) fun _ _ => later

theorem send_verified (held : List (Lock × Mode)) (known : BrokerState → Prop) (stable : lockRules.Stable held known)
    (kept : ∀ state ref change, known state → known (state.modifySession ref change)) (ref : SessionRef) (frame : Bytes)
    (registered : IsPublishFrame frame → ∀ state, known state → state.Registered ref) (next : Program)
    (later : lockRules.Verified next held known) : lockRules.Verified (send ref frame next) held known := by
  refine act_verified lockRules held known stable _ _ (fun state given => ⟨modify_careful state ref _ fun session _ => ?_,
    fun lock => .inl (modify_guarded state ref _ lock fun _ session => by rw [send_keeps]), kept state ref _ given⟩)
    fun _ _ => later
  refine ⟨by rw [send_keeps]; rfl, ?_, .inl (by rw [send_keeps]), .inl (by rw [send_keeps])⟩
  rw [send_sent]
  by_cases isOpen : session.receiverOpen = true
  · rw [if_pos isOpen]
    exact .inr ⟨frame, rfl, fun publish => registered publish state given⟩
  · rw [if_neg isOpen]
    exact .inl rfl

theorem remove_in_flight_verified (ref : SessionRef) (packetId : UInt16) (next : Program)
    (later : lockRules.Verified next [] Unsure) : lockRules.Verified (removeInFlight ref packetId next) [] Unsure := by
  refine ⟨by simp, act_verified lockRules _ Unsure (unsure_stable _) _ _ (fun state _ => ⟨modify_careful state ref _
    fun session _ => ⟨rfl, .inl rfl, .inl rfl, .inr (.inl ⟨packetId, rfl⟩)⟩, fun lock => ?_, trivial⟩) fun _ _ =>
    release_verified lockRules [] (.inFlight ref) .write (by simp) _ Unsure (unsure_stable _) (fun _ _ => trivial) next later⟩
  by_cases here : lock = .inFlight ref
  · exact .inr (by rw [here]; exact List.mem_cons_self)
  · exact .inl (modify_guarded state ref _ lock fun same => absurd same here)

section Locked

variable (held : List (Lock × Mode)) (mode : Mode) (locked : (Lock.sessions, mode) ∈ held)
  (below : ∀ entry ∈ held, entry.1.rank ≤ 3) (clientId : String) (ref : SessionRef)

include locked

theorem get_next_packet_id_verified (next : UInt16 → Program)
    (later : ∀ pid, lockRules.Verified (next pid) held (Found clientId ref)) :
    lockRules.Verified (getNextPacketId ref next) held (Found clientId ref) := by
  have counts : ∀ state, Found clientId ref state → Careful state (fetchAdd ref state) ∧
      (∀ lock, lock.Guarded state (fetchAdd ref state) ∨ (lock, .write) ∈ held) ∧ Found clientId ref (fetchAdd ref state) :=
    fun state found => ⟨modify_careful state ref _ fun session _ => ⟨rfl, .inl rfl, .inr ⟨clientId, found⟩, .inl rfl⟩,
      fun lock => .inl (modify_guarded state ref _ lock fun _ _ => rfl), found⟩
  have stable := found_stable clientId ref held mode locked
  refine act_verified lockRules held _ stable _ _ counts fun state _ => ?_
  split
  · exact act_verified lockRules held _ stable _ _ counts fun state _ => later _
  · exact later _

include below

theorem add_in_flight_verified (packetId : UInt16) (topic : String) (payload : Bytes) (qos : UInt8) (next : Program)
    (later : lockRules.Verified next held (Found clientId ref)) :
    lockRules.Verified (addInFlight ref packetId topic payload qos next) held (Found clientId ref) := by
  have stable := found_stable clientId ref held mode locked
  have lower : ∀ entry ∈ held, lockRules.rank entry.1 < lockRules.rank (.inFlight ref) :=
    fun entry member => Nat.lt_succ_of_le (below entry member)
  refine ⟨lower, act_verified lockRules _ _ (found_stable clientId ref _ mode (List.mem_cons_of_mem _ locked)) _ _
    (fun state found => ⟨modify_careful state ref _ fun session _ => ⟨rfl, .inl rfl, .inl rfl, .inr (.inr ⟨clientId, found⟩)⟩,
      fun lock => ?_, found⟩) fun _ _ =>
    release_verified lockRules held (.inFlight ref) .write lower _ _ stable (fun _ found => found) next later⟩
  by_cases here : lock = .inFlight ref
  · exact .inr (by rw [here]; exact List.mem_cons_self)
  · exact .inl (modify_guarded state ref _ lock fun same => absurd same here)

theorem deliver_verified (topic : String) (payload : Bytes) (qos : UInt8) (retain : Bool) (identifier : Option UInt32)
    (next : Program) (later : lockRules.Verified next held (Found clientId ref)) :
    lockRules.Verified (deliver topic payload qos retain clientId identifier ref next) held (Found clientId ref) := by
  have stable := found_stable clientId ref held mode locked
  have sends : ∀ packetId, lockRules.Verified (send ref (publishFrame topic payload qos retain packetId identifier) next)
      held (Found clientId ref) :=
    fun packetId => send_verified held _ stable (fun _ _ _ found => found) ref _ (fun _ _ found => ⟨clientId, found⟩) next later
  unfold deliver
  split
  · refine get_next_packet_id_verified held mode locked clientId ref _ fun pid => ?_
    refine add_in_flight_verified held mode locked below clientId ref pid topic payload qos _ ?_
    exact spawn_verified held _ stable (fun _ _ found => found) _ _ (sends (some pid))
  · exact sends none

end Locked

theorem send_publish_verified (topic : String) (payload : Bytes) (qos : UInt8) (retain : Bool) (held : List (Lock × Mode))
    (below : ∀ entry ∈ held, entry.1.rank < Lock.sessions.rank) (clientId : String) (identifier : Option UInt32)
    (next : Program) (later : lockRules.Verified next held Unsure) :
    lockRules.Verified (sendPublishToClient topic payload qos retain clientId identifier next) held Unsure := by
  have releases : ∀ known, lockRules.Verified (.release .sessions next) ((.sessions, .read) :: held) known :=
    fun known => release_verified lockRules held .sessions .read below known Unsure (unsure_stable held)
      (fun _ _ => trivial) next later
  refine ⟨below, fun state _ => ⟨careful_same _ _ rfl, fun lock => .inl (guarded_refl state lock), ?_⟩⟩
  dsimp only
  cases found : state.sessions.get clientId with
  | none => exact ⟨Unsure, unsure_stable _, trivial, releases _⟩
  | some ref =>
      refine ⟨Found clientId ref, found_stable clientId ref _ .read List.mem_cons_self, found, ?_⟩
      dsimp only
      split
      · exact releases _
      · refine deliver_verified _ .read List.mem_cons_self (fun entry member => ?_) clientId ref topic payload qos retain
          identifier _ (releases _)
        rcases List.mem_cons.mp member with same | lower
        · rw [same]
          exact Nat.le_refl 3
        · exact Nat.le_of_lt (below entry lower)

theorem field_verified (held : List (Lock × Mode)) (change : BrokerState → BrokerState) (next : BrokerState → Program)
    (heap : ∀ state, (change state).heap = state.heap)
    (guarded : ∀ state lock, lock.Guarded state (change state) ∨ (lock, .write) ∈ held)
    (later : ∀ state, lockRules.Verified (next state) held Unsure) : lockRules.Verified (.act change next) held Unsure :=
  act_verified lockRules held Unsure (unsure_stable held) change next
    (fun state _ => ⟨careful_same _ _ (heap state), guarded state, trivial⟩) fun state _ => later state

theorem look_verified (held : List (Lock × Mode)) (next : BrokerState → Program)
    (later : ∀ state, lockRules.Verified (next state) held Unsure) : lockRules.Verified (.act id next) held Unsure :=
  field_verified held id next (fun _ => rfl) (fun state lock => .inl (guarded_refl state lock)) later

theorem section_verified (lock : Lock) (mode : Mode) (next : Program) (later : lockRules.Verified next [(lock, mode)] Unsure) :
    lockRules.Verified (.acquire lock mode next) [] Unsure := ⟨by simp, later⟩

theorem unlock_verified (lock : Lock) (mode : Mode) (next : Program) (later : lockRules.Verified next [] Unsure) :
    lockRules.Verified (.release lock next) [(lock, mode)] Unsure :=
  release_verified lockRules [] lock mode (by simp) Unsure Unsure (unsure_stable []) (fun _ _ => trivial) next later

theorem foldr_verified {α : Type} (step : α → Program → Program)
    (verified : ∀ item next, lockRules.Verified next [] Unsure → lockRules.Verified (step item next) [] Unsure)
    (items : List α) (next : Program) (later : lockRules.Verified next [] Unsure) :
    lockRules.Verified (items.foldr step next) [] Unsure := by
  induction items with
  | nil => exact later
  | cons item rest ih => exact verified item _ ih

theorem deliver_shared_verified (topic : String) (payload : Bytes) (qos : UInt8) (retain : Bool) (group : String)
    (subs : List SubscriptionInfo) (next : Program) (later : lockRules.Verified next [] Unsure) :
    lockRules.Verified (deliverShared topic payload qos retain group subs next) [] Unsure := by
  unfold deliverShared
  split
  · exact later
  · refine section_verified _ _ _ (field_verified _ _ _ (fun _ => rfl) (fun state lock => ?_) fun state => ?_)
    · cases lock with
      | sharedGroupCounters => exact .inr List.mem_cons_self
      | inFlight ref => exact .inl (heap_guarded _ _ rfl ref)
      | bridgeSender | router | sessions => exact .inl rfl
    · split
      · exact unlock_verified _ _ next later
      · refine send_publish_verified topic payload qos retain _ (fun entry member => ?_) _ _ _ (unlock_verified _ _ next later)
        rw [List.mem_singleton.mp member]
        decide

theorem route_publish_verified (topic : String) (payload : Bytes) (qos : UInt8) (retain : Bool) (fromClient : String)
    (next : Program) (later : lockRules.Verified next [] Unsure) :
    lockRules.Verified (routePublish topic payload qos retain fromClient next) [] Unsure := by
  have delivers : ∀ state : BrokerState, lockRules.Verified
      ((matchTopic state.router topic).normal.foldr (deliverNormal topic payload qos retain) <|
        (matchTopic state.router topic).shared.entries.foldr
          (fun entry => deliverShared topic payload qos retain entry.1 entry.2) next) [] Unsure :=
    fun state => foldr_verified _ (fun sub next later => send_publish_verified topic payload qos retain [] (by simp) _ _ next later)
      _ _ (foldr_verified _ (fun entry next later => deliver_shared_verified topic payload qos retain _ _ next later) _ next later)
  have matching : lockRules.Verified (.acquire .router .read <| .act id fun state => .release .router <|
      (matchTopic state.router topic).normal.foldr (deliverNormal topic payload qos retain) <|
        (matchTopic state.router topic).shared.entries.foldr
          (fun entry => deliverShared topic payload qos retain entry.1 entry.2) next) [] Unsure :=
    section_verified _ _ _ (look_verified _ _ fun state => unlock_verified _ _ _ (delivers state))
  refine field_verified [] _ _ (fun _ => rfl) (fun state lock => .inl (fields_guarded _ _ rfl rfl rfl rfl rfl lock))
    fun _ => ?_
  unfold forwardToBridge
  split
  · exact matching
  · refine section_verified _ _ _ (field_verified _ _ _ (fun state => ?_) (fun state lock => .inl ?_)
      fun _ => unlock_verified _ _ _ matching)
    · rw [BrokerState.forwardToBridge, if_neg ‹_›]
    · rw [BrokerState.forwardToBridge, if_neg ‹_›]
      refine fields_guarded _ _ ?_ ?_ ?_ ?_ ?_ lock
      exacts [rfl, Option.isSome_map, rfl, rfl, rfl]

theorem reply_verified (held : List (Lock × Mode)) (ref : SessionRef) (packet : Packet) (other : isPublish packet = false)
    (next : Program) (later : lockRules.Verified next held Unsure) :
    lockRules.Verified (send ref (encodePacket packet) next) held Unsure := by
  refine send_verified held Unsure (unsure_stable held) (fun _ _ _ _ => trivial) ref _ (fun publish => ?_) next later
  obtain ⟨pkt, rfl⟩ := publish_frame_kind packet publish
  cases other

theorem issue_verified (held : List (Lock × Mode)) (write : StoredWrite) (next : Program)
    (later : lockRules.Verified next held Unsure) : lockRules.Verified (spawn write next) held Unsure :=
  spawn_verified held Unsure (unsure_stable held) (fun _ _ _ => trivial) write next later

theorem subscribe_verified (clientId topicFilter : String) (qos : UInt8) (identifier : Option UInt32) (next : Program)
    (later : lockRules.Verified next [] Unsure) :
    lockRules.Verified (subscribe clientId topicFilter qos identifier next) [] Unsure := by
  refine field_verified [] _ _ (fun _ => rfl) (fun state lock => .inl (fields_guarded _ _ rfl rfl rfl rfl rfl lock))
    fun _ => section_verified _ _ _ (field_verified _ _ _ (fun _ => rfl) (fun state lock => ?_)
      fun _ => unlock_verified _ _ _ (issue_verified [] _ next later))
  cases lock with
  | router => exact .inr List.mem_cons_self
  | inFlight ref => exact .inl (heap_guarded _ _ rfl ref)
  | bridgeSender | sharedGroupCounters | sessions => exact .inl rfl

theorem sessions_verified (change : Assoc String SessionRef → Assoc String SessionRef) (next : BrokerState → Program)
    (later : ∀ state, lockRules.Verified (next state) [(.sessions, .write)] Unsure) :
    lockRules.Verified (.acquire .sessions .write <|
      .act (fun state => { state with sessions := change state.sessions }) next) [] Unsure := by
  refine section_verified _ _ _ (field_verified _ _ _ (fun _ => rfl) (fun state lock => ?_) later)
  cases lock with
  | sessions => exact .inr List.mem_cons_self
  | inFlight ref => exact .inl (heap_guarded _ _ rfl ref)
  | bridgeSender | router | sharedGroupCounters => exact .inl rfl

theorem register_session_verified (ref : SessionRef) (session : ClientSession) (next : Program)
    (later : lockRules.Verified next [] Unsure) : lockRules.Verified (registerSession ref session next) [] Unsure := by
  refine sessions_verified (·.insert session.clientId ref) _ fun _ => ?_
  split
  · exact issue_verified _ _ _ (unlock_verified _ _ next later)
  · exact unlock_verified _ _ next later

theorem remove_session_verified (clientId : String) (next : Program) (later : lockRules.Verified next [] Unsure) :
    lockRules.Verified (removeSession clientId next) [] Unsure := by
  refine sessions_verified (·.remove clientId) _ fun state => ?_
  split
  · exact unlock_verified _ _ next later
  · split
    · exact issue_verified _ _ _ (unlock_verified _ _ next later)
    · exact unlock_verified _ _ next later

theorem reply_pub_ack_verified (ref : SessionRef) (pkt : Publish) (reasonCode : UInt8) (next : Program)
    (later : lockRules.Verified next [] Unsure) : lockRules.Verified (replyPubAck ref pkt reasonCode next) [] Unsure := by
  unfold replyPubAck
  split
  · split
    · exact reply_verified [] ref _ rfl next later
    · exact later
  · exact later

section Connection

variable (ref : SessionRef) (clientId : String) (username : Option String)

theorem process_filters_verified (identifier : Option UInt32) (next : List UInt8 → Program)
    (later : ∀ reasonCodes, lockRules.Verified (next reasonCodes) [] Unsure) (subscriptions : List Subscription)
    (reasonCodes : List UInt8) :
    lockRules.Verified (processFilters clientId username identifier reasonCodes next subscriptions) [] Unsure := by
  induction subscriptions generalizing reasonCodes with
  | nil => exact later reasonCodes
  | cons sub rest ih =>
      refine look_verified [] _ fun state => ?_
      split
      · exact subscribe_verified _ _ _ _ _ (ih _)
      · exact ih _

theorem process_client_packet_verified (packet : Packet) (next failed : Program) (later : lockRules.Verified next [] Unsure)
    (ends : lockRules.Verified failed [] Unsure) :
    lockRules.Verified (processClientPacket ref clientId username packet next failed) [] Unsure := by
  cases packet with
  | publish pkt =>
      refine look_verified [] _ fun state => ?_
      split
      · exact route_publish_verified _ _ _ _ _ _ (reply_pub_ack_verified ref pkt 0 next later)
      · exact reply_pub_ack_verified ref pkt 0x87 next later
  | subscribe pkt =>
      exact process_filters_verified clientId username _ _ (fun reasonCodes => reply_verified [] ref _ rfl next later) _ _
  | pubAck pkt => exact remove_in_flight_verified ref _ _ (issue_verified [] _ next later)
  | pingReq => exact reply_verified [] ref _ rfl next later
  | connect _ => exact ends
  | connAck _ | subAck _ | pingResp | disconnect _ => exact later

theorem process_packets_verified (next : Program) (later : lockRules.Verified next [] Unsure) (packets : List Packet) :
    lockRules.Verified (processPackets ref clientId username next packets) [] Unsure := by
  induction packets with
  | nil => exact later
  | cons packet rest ih => exact process_client_packet_verified ref clientId username packet _ next ih later

end Connection

theorem receiver_closes_verified (ref : SessionRef) (next : Program) (later : lockRules.Verified next [] Unsure) :
    lockRules.Verified
      (.act (·.modifySession ref fun session => { session with receiverOpen := false }) fun _ => next) [] Unsure :=
  act_verified lockRules [] Unsure (unsure_stable []) _ _
    (fun state _ => ⟨modify_careful state ref _ fun _ _ => ⟨rfl, .inl rfl, .inl rfl, .inl rfl⟩,
      fun lock => .inl (modify_guarded state ref _ lock fun _ _ => rfl), trivial⟩) fun _ _ => later

theorem allocate_careful (state : BrokerState) (session : ClientSession) (blank : session.sent = []) :
    Careful state (state.allocate session).1 := by
  refine ⟨fun ref old held => ⟨old, held_append _ _ _ _ held, touched_refl state ref old⟩, fun ref fresh unborn born => ?_⟩
  have heap : (state.allocate session).1.heap = state.heap ++ [session] := rfl
  rw [heap, List.getElem?_append_right (List.getElem?_eq_none_iff.mp unborn)] at born
  rw [List.mem_singleton.mp (List.mem_of_getElem? born)]
  exact blank

theorem handle_connection_verified (verifyPassword : String → String → Bool) (pkt : Connect) (packets : List Packet) :
    lockRules.Verified (handleConnection verifyPassword pkt packets) [] Unsure := by
  have cleans : ∀ ref, lockRules.Verified (cleanup pkt.clientId ref .done) [] Unsure :=
    fun ref => remove_session_verified _ _ (receiver_closes_verified ref .done rfl)
  have serves : ∀ ref, lockRules.Verified (registerSession ref (newSession pkt) <|
      send ref (encodePacket (connAckReply 0)) <|
        processPackets ref pkt.clientId pkt.username (cleanup pkt.clientId ref .done) packets) [] Unsure :=
    fun ref => register_session_verified ref _ _ <|
      reply_verified [] ref _ rfl _ (process_packets_verified ref _ _ _ (cleans ref) packets)
  refine look_verified [] _ fun state => ?_
  split
  · refine act_verified lockRules [] Unsure (unsure_stable []) _ _
      (fun state _ => ⟨allocate_careful state _ rfl, fun lock => .inl ?_, trivial⟩) fun state _ => serves _
    cases lock with
    | inFlight ref => exact fun session held => ⟨session, held_append _ _ _ _ held, rfl⟩
    | bridgeSender | router | sharedGroupCounters | sessions => rfl
  · rfl

theorem graceful_shutdown_verified : lockRules.Verified gracefulShutdown [] Unsure := by
  refine section_verified _ _ _ (look_verified _ _ fun state => ?_)
  induction state.sessions.entries with
  | nil => exact unlock_verified _ _ .done rfl
  | cons entry rest ih => exact reply_verified _ entry.2 _ rfl _ ih

end Program

theorem task_verified (verifyPassword : String → String → Bool) (task : Task) :
    lockRules.Verified (task.program verifyPassword) [] Unsure := by
  cases task with
  | connection pkt packets => exact Program.handle_connection_verified verifyPassword pkt packets
  | remotePublish topic payload qos retain => exact Program.route_publish_verified topic payload qos retain _ .done rfl
  | startBridge =>
      refine Program.section_verified _ _ _ (Program.field_verified _ _ _ (fun _ => rfl) (fun state lock => ?_)
        fun _ => Program.unlock_verified _ _ .done rfl)
      cases lock with
      | bridgeSender => exact .inr List.mem_cons_self
      | inFlight ref => exact .inl (heap_guarded _ _ rfl ref)
      | router | sharedGroupCounters | sessions => exact .inl rfl
  | writerEnds session => exact Program.receiver_closes_verified session .done rfl
  | metrics => exact Program.section_verified _ _ _ (Program.look_verified _ _ fun _ => Program.unlock_verified _ _ .done rfl)
  | shutdown => exact Program.graceful_shutdown_verified

section Tasks

variable (verifyPassword : String → String → Bool) (state : BrokerState) (tasks : List Task)

def runtime : Pool BrokerState Lock := Pool.start state (tasks.map (Task.program verifyPassword))

theorem runtime_sound (pool : Pool BrokerState Lock) (reaches : (runtime verifyPassword state tasks).Reaches pool) :
    lockRules.Sound pool := by
  refine reaches_sound lockRules _ pool (start_sound lockRules state _ fun prog member => ?_) reaches
  obtain ⟨task, _, rfl⟩ := List.mem_map.mp member
  exact task_verified verifyPassword task

theorem tasks_end (pool : Pool BrokerState Lock) (reaches : (runtime verifyPassword state tasks).Reaches pool) :
    (pool.Finished ∨ ∃ i, pool.Ready i) ∧ (∃ final, pool.Reaches final ∧ final.Finished) ∧
      ∀ run : Nat → Pool BrokerState Lock, run 0 = pool → ¬∀ n, (run n).Next (run (n + 1)) := by
  have sound := runtime_sound verifyPassword state tasks pool reaches
  refine ⟨?_, completes lockRules pool sound, fun run _ => no_endless_run run⟩
  by_cases finished : pool.Finished
  · exact .inl finished
  · exact .inr (some_ready lockRules pool sound finished)

theorem publish_to_registered (pool after : Pool BrokerState Lock)
    (reaches : (runtime verifyPassword state tasks).Reaches pool) (next : pool.Next after) (ref : SessionRef)
    (session : ClientSession) (held : pool.shared.heap[ref]? = some session) :
    ∃ later, after.shared.heap[ref]? = some later ∧ later.identity = session.identity ∧
      (later.sent = session.sent ∨ ∃ frame, later.sent = session.sent ++ [frame] ∧
        (IsPublishFrame frame → ∃ clientId, pool.shared.sessions.get clientId = some ref)) ∧
      (later.inFlight = session.inFlight ∨ (∃ packetId, later.inFlight = session.inFlight.remove packetId) ∨
        ∃ clientId, pool.shared.sessions.get clientId = some ref) := by
  obtain ⟨i, stepped⟩ := next
  have careful := (LockThreads.step_sound lockRules pool after i (runtime_sound verifyPassword state tasks pool reaches) stepped).2
  obtain ⟨later, found, touched⟩ := careful.heap ref session held
  exact ⟨later, found, touched.identity, touched.sent, touched.inFlight⟩

end Tasks

theorem lone_connection (verifyPassword : String → String → Bool) (net : Network) (pkt : Connect) (packets : List Packet) :
    (runtime verifyPassword net.broker [.connection pkt packets]).Reaches
      ⟨((Event.connect pkt :: packets.map (Event.packet net.connections.length) ++
        [Event.close net.connections.length]).foldl (Network.step verifyPassword) net).broker, [⟨[], .done⟩]⟩ := by
  rw [← Program.handle_connection_alone]
  exact alone_reached lockRules _ [] Unsure net.broker (Program.handle_connection_verified verifyPassword pkt packets) trivial

def connecting : Pool BrokerState Lock :=
  runtime (fun _ _ => true) { auth := ⟨none⟩ } [.connection ⟨"c", 60, true, none, none, {}⟩ [.pingReq], .shutdown]

theorem connecting_ends : ∃ final, connecting.Reaches final ∧ final.Finished :=
  (tasks_end (fun _ _ => true) { auth := ⟨none⟩ } [.connection ⟨"c", 60, true, none, none, {}⟩ [.pingReq], .shutdown]
    connecting .refl).2.1

-- The session of 'c' is registered, and the bridge routes a message to it before its own
-- thread sends the CONNACK.
def racing : Pool BrokerState Lock :=
  runtime (fun _ _ => true) { auth := ⟨none⟩, router := Router.subscribe {} "c" "t" 0 none }
    [.connection ⟨"c", 60, true, none, none, {}⟩ [], .remotePublish "t" [1] 0 false]

def beforeSend : List Nat := [0, 0, 0, 0, 0, 1, 1, 1, 1, 1, 1]

theorem publish_overtakes_conn_ack :
    ∃ later, (racing.scheduled (beforeSend ++ [1])).shared.heap[0]? = some later ∧
      later.sent = [publishFrame "t" [1] 0 false none none] ∧
      ∃ clientId, (racing.scheduled beforeSend).shared.sessions.get clientId = some 0 := by
  have silent : ((racing.scheduled beforeSend).shared.heap[0]?).map (·.sent) = some [] := by decide +kernel
  obtain ⟨session, held, blank⟩ := Option.map_eq_some_iff.mp silent
  have frames : ((racing.scheduled (beforeSend ++ [1])).shared.heap[0]?).map (·.sent) =
      some [publishFrame "t" [1] 0 false none none] := by decide +kernel
  have goes : (racing.scheduled beforeSend).Next (racing.scheduled (beforeSend ++ [1])) := by
    refine scheduled_next racing beforeSend 1 ?_
    decide +kernel
  obtain ⟨later, found, _, sent, _⟩ := publish_to_registered (fun _ _ => true)
    { auth := ⟨none⟩, router := Router.subscribe {} "c" "t" 0 none }
    [.connection ⟨"c", 60, true, none, none, {}⟩ [], .remotePublish "t" [1] 0 false] (racing.scheduled beforeSend)
    (racing.scheduled (beforeSend ++ [1])) (scheduled_reaches racing beforeSend) goes 0 session held
  rw [found, Option.map_some] at frames
  have only := Option.some.inj frames
  refine ⟨later, found, only, ?_⟩
  rcases sent with unsent | ⟨frame, appended, leads⟩
  · rw [unsent, blank] at only
    cases only
  · rw [only, blank] at appended
    have same : frame = publishFrame "t" [1] 0 false none none := (List.singleton_inj.mp appended).symm
    exact leads (same ▸ publish_frame_is_publish "t" [1] 0 false none none)

end Pipistrelle.Broker
