import Pipistrelle.Broker.Ledger
import Pipistrelle.Lib.Run

set_option autoImplicit false

/- Whose subscriptions a session receives messages for. The router knows a client id
   only, and its rows outlive the sessions: what the next session with that client id
   gets depends on who held the id before. -/
namespace Pipistrelle.Broker

open Codec Auth Router LevelPattern

def BrokerState.identities (self : BrokerState) : List Identity := self.heap.map ClientSession.identity

def Inherits (current owner : Identity) : Prop :=
  current.cleanStart = false ∧ owner.clientId = current.clientId ∧ owner.username = current.username ∧
    owner.cleanStart = false ∧ 0 < owner.sessionExpiryInterval

instance (current owner : Identity) : Decidable (Inherits current owner) := inferInstanceAs (Decidable (_ ∧ _))

-- The subscriptions of a session are its own and those of earlier sessions that it takes up.
def MayUse (identities : List Identity) (ref : SessionRef) (acceptance : Acceptance) : Prop :=
  acceptance.session = ref ∨ acceptance.session < ref ∧
    ∃ current ∈ identities[ref]?, ∃ owner ∈ identities[acceptance.session]?, Inherits current owner

instance (identities : List Identity) (ref : SessionRef) (acceptance : Acceptance) :
    Decidable (MayUse identities ref acceptance) := inferInstanceAs (Decidable (_ ∨ _))

def Event.publishes : Event → Option (String × Bytes × UInt8 × Bool)
  | .packet _ (.publish pkt) => some (pkt.topic, pkt.payload, pkt.qos, pkt.retain)
  | .remotePublish topic payload qos retain => some (topic, payload, qos, retain)
  | _ => none

structure Explains (net : Network) (event : Event) (ref : SessionRef) (frame : Bytes) (acceptance : Acceptance) : Prop where
  row : net.ledger.get acceptance.key = some acceptance
  client : (net.broker.identities[ref]?).map (·.clientId) = some acceptance.clientId
  frame : ∃ topic payload qos retain packetId, event.publishes = some (topic, payload, qos, retain) ∧
    matchesLevels acceptance.key.levels (splitLevels topic) = true ∧
      frame = publishFrame topic payload qos retain packetId acceptance.subscriptionIdentifier

def BrokerState.sentTo (self : BrokerState) (ref : SessionRef) : List Bytes := ((self.heap[ref]?).map (·.sent)).getD []

theorem evolves_outside (allowed : SessionRef → Bytes → Prop) (before after : BrokerState)
    (evolved : Evolves allowed before after) (ref : SessionRef) (outside : before.heap[ref]? = none) :
    after.heap[ref]? = none := by
  rw [List.getElem?_eq_none_iff, evolved.size]
  exact List.getElem?_eq_none_iff.mp outside

theorem evolves_identities (allowed : SessionRef → Bytes → Prop) (before after : BrokerState)
    (evolved : Evolves allowed before after) : after.identities = before.identities := by
  apply List.ext_getElem?
  intro ref
  simp only [BrokerState.identities, List.getElem?_map]
  cases held : before.heap[ref]? with
  | none => rw [evolves_outside allowed before after evolved ref held]
  | some session =>
      obtain ⟨later, heldLater, grown⟩ := evolved.heap ref session held
      rw [heldLater, Option.map_some, Option.map_some, grown.identity]

theorem close_connection_router (state : BrokerState) (clientId : String) (session : SessionRef) :
    (state.closeConnection clientId session).router = state.router := by
  have removed : (state.closeConnection clientId session).router = (state.removeSession clientId).router := rfl
  rw [removed]
  unfold BrokerState.removeSession
  split
  · rfl
  · dsimp only
    split
    · rfl
    · split <;> rfl

theorem close_connection_heap (state : BrokerState) (clientId : String) (session : SessionRef) :
    (state.closeConnection clientId session).heap =
      state.heap.modify session fun session => { session with receiverOpen := false } := by
  have removed : (state.removeSession clientId).heap = state.heap := by
    unfold BrokerState.removeSession
    split
    · rfl
    · dsimp only
      split
      · rfl
      · split <;> rfl
  rw [BrokerState.closeConnection, BrokerState.modifySession, removed]

theorem close_connection_identities (state : BrokerState) (clientId : String) (session : SessionRef) :
    (state.closeConnection clientId session).identities = state.identities := by
  rw [BrokerState.identities, close_connection_heap]
  refine evolves_identities (fun _ _ => True) state _ (modify_session_evolves _ state session _ ?_)
  exact fun session _ => grows_same _ _ _ rfl rfl

section Run

variable (verifyPassword : String → String → Bool)

def Network.OwnDeliveries (self : Network) (event : Event) : Prop :=
  ∀ ref, ∀ frame ∈ ((self.step verifyPassword event).broker.sentTo ref).drop (self.broker.sentTo ref).length,
    IsPublishFrame frame → (∃ acceptance, Explains self event ref frame acceptance) ∧
      ∀ acceptance, Explains self event ref frame acceptance → MayUse self.broker.identities ref acceptance

-- A new session may take up every subscription that the router holds under its client
-- id, and what a replaced connection still subscribes to is the new session's too.
def Network.Entitled (self : Network) : Event → Prop
  | .connect pkt => authenticated verifyPassword self.broker.auth pkt = true →
      ∀ acceptance ∈ self.ledger.values, acceptance.clientId = pkt.clientId →
        ∀ owner ∈ self.broker.identities[acceptance.session]?, Inherits (newSession pkt).identity owner
  | .packet k packet => ∀ connection ∈ self.connections[k]?,
      ∀ acceptance ∈ acceptances self.broker connection.session packet,
        ∀ ref ∈ self.broker.sessions.get acceptance.clientId, ref = connection.session ∨
          ∃ current ∈ self.broker.identities[ref]?, ∃ owner ∈ self.broker.identities[connection.session]?,
            Inherits current owner
  | _ => True

instance (net : Network) : ∀ event, Decidable (net.Entitled verifyPassword event)
  | .connect _ => inferInstanceAs (Decidable (_ → ∀ _ ∈ _, _))
  | .packet _ _ => inferInstanceAs (Decidable (∀ _ ∈ _, _))
  | .close _ | .panic _ | .writerEnds _ | .remotePublish _ _ _ _ => inferInstanceAs (Decidable True)

structure Owned (net : Network) : Prop where
  refines : Refines net.broker.router (tableOf net.accepted)
  newest : ∀ clientId ref, net.broker.sessions.get clientId = some ref →
    ∃ current, net.broker.identities[ref]? = some current ∧ current.clientId = clientId ∧
      ∀ j later, ref < j → net.broker.identities[j]? = some later → later.clientId ≠ clientId
  owners : ∀ key acceptance, net.ledger.get key = some acceptance → acceptance.key = key ∧
    ∃ owner, net.broker.identities[acceptance.session]? = some owner ∧ owner.clientId = acceptance.clientId
  allowed : ∀ key acceptance, net.ledger.get key = some acceptance →
    ∀ ref, net.broker.sessions.get acceptance.clientId = some ref → MayUse net.broker.identities ref acceptance

theorem steady_owned (before after : Network) (router : after.broker.router = before.broker.router)
    (accepted : after.accepted = before.accepted) (identities : after.broker.identities = before.broker.identities)
    (sessions : ∀ clientId ref, after.broker.sessions.get clientId = some ref →
      before.broker.sessions.get clientId = some ref) (owned : Owned before) : Owned after := by
  have ledger : after.ledger = before.ledger := by rw [Network.ledger, accepted, Network.ledger]
  refine ⟨?_, ?_, ?_, ?_⟩
  · rw [router, accepted]
    exact owned.refines
  · rw [identities]
    exact fun clientId ref get => owned.newest clientId ref (sessions clientId ref get)
  · rw [ledger, identities]
    exact owned.owners
  · rw [ledger, identities]
    exact fun key acceptance get ref held => owned.allowed key acceptance get ref (sessions _ ref held)

theorem held_append {α : Type} (items more : List α) (j : Nat) (item : α) (held : items[j]? = some item) :
    (items ++ more)[j]? = some item := by
  rw [List.getElem?_append_left (List.getElem?_eq_some_iff.mp held).1]
  exact held

theorem may_use_append (identities : List Identity) (fresh : Identity) (ref : SessionRef) (acceptance : Acceptance)
    (allowed : MayUse identities ref acceptance) : MayUse (identities ++ [fresh]) ref acceptance := by
  rcases allowed with own | ⟨earlier, current, currentAt, owner, ownerAt, inherits⟩
  · exact .inl own
  · exact .inr ⟨earlier, current, held_append _ _ _ _ currentAt, owner, held_append _ _ _ _ ownerAt, inherits⟩

theorem open_connection_identities (state : BrokerState) (pkt : Connect) :
    (state.openConnection pkt).1.identities = state.identities ++ [(newSession pkt).identity] := by
  rw [BrokerState.identities, open_connection_heap, List.map_append, List.map_singleton]
  rfl

theorem register_owned (net : Network) (pkt : Connect) (owned : Owned net)
    (entitled : ∀ acceptance ∈ net.ledger.values, acceptance.clientId = pkt.clientId →
      ∀ owner ∈ net.broker.identities[acceptance.session]?, Inherits (newSession pkt).identity owner) :
    Owned (net.register pkt) := by
  have identities : (net.register pkt).broker.identities = net.broker.identities ++ [(newSession pkt).identity] :=
    open_connection_identities net.broker pkt
  have sessions := register_sessions net pkt
  have size : net.broker.identities.length = net.broker.heap.length := List.length_map _
  have fresh : (net.broker.identities ++ [(newSession pkt).identity])[net.broker.heap.length]? =
      some (newSession pkt).identity := by
    rw [← size, List.getElem?_append_right (Nat.le_refl _), Nat.sub_self, List.getElem?_cons_zero]
  refine ⟨?_, ?_, ?_, ?_⟩
  · rw [Network.register]
    dsimp only
    rw [open_connection_router]
    exact owned.refines
  · intro clientId ref get
    rw [sessions, Assoc.get_insert] at get
    rw [identities]
    by_cases same : pkt.clientId = clientId
    · rw [if_pos same] at get
      cases get
      refine ⟨_, fresh, same, ?_⟩
      intro j later after held
      have within := (List.getElem?_eq_some_iff.mp held).1
      rw [List.length_append, List.length_singleton, size] at within
      exact absurd after (Nat.not_lt.mpr (Nat.le_of_lt_succ within))
    · rw [if_neg same] at get
      obtain ⟨current, currentAt, named, last⟩ := owned.newest clientId ref get
      refine ⟨current, held_append _ _ ref current currentAt, named, ?_⟩
      intro j later after held
      by_cases old : j < net.broker.identities.length
      · rw [List.getElem?_append_left old] at held
        exact last j later after held
      · rw [List.getElem?_append_right (Nat.not_lt.mp old), List.getElem?_singleton] at held
        split at held
        · cases held
          exact same
        · cases held
  · intro key acceptance get
    obtain ⟨sameKey, owner, ownerAt, named⟩ := owned.owners key acceptance get
    rw [identities]
    exact ⟨sameKey, owner, held_append _ _ _ owner ownerAt, named⟩
  · intro key acceptance get ref held
    rw [sessions, Assoc.get_insert] at held
    rw [identities]
    by_cases same : pkt.clientId = acceptance.clientId
    · rw [if_pos same] at held
      cases held
      obtain ⟨_, owner, ownerAt, _⟩ := owned.owners key acceptance get
      have earlier : acceptance.session < net.broker.heap.length := size ▸ (List.getElem?_eq_some_iff.mp ownerAt).1
      have inherits := entitled acceptance (net.ledger.mem_values_of_get key acceptance get) same.symm owner ownerAt
      exact .inr ⟨earlier, _, fresh, owner, held_append _ _ _ owner ownerAt, inherits⟩
    · rw [if_neg same] at held
      exact may_use_append _ _ ref acceptance (owned.allowed key acceptance get ref held)

theorem acceptances_session (broker : BrokerState) (ref : SessionRef) (packet : Packet) (acceptance : Acceptance)
    (member : acceptance ∈ acceptances broker ref packet) :
    acceptance.session = ref ∧ ∃ identity, broker.identities[ref]? = some identity ∧
      identity.clientId = acceptance.clientId := by
  unfold acceptances at member
  split at member
  · rename_i session pkt held
    obtain ⟨sub, _, same⟩ := List.mem_map.mp member
    subst same
    exact ⟨rfl, session.identity, by rw [BrokerState.identities, List.getElem?_map, held, Option.map_some], rfl⟩
  · simp at member

theorem replaced_earlier (net : Network) (owned : Owned net) (clientId : String) (ref other : SessionRef)
    (identity : Identity) (registered : net.broker.sessions.get clientId = some ref)
    (otherAt : net.broker.identities[other]? = some identity) (named : identity.clientId = clientId)
    (differs : ref ≠ other) : other < ref := by
  obtain ⟨_, _, _, last⟩ := owned.newest clientId ref registered
  have notLater : ¬ref < other := fun later => last other identity later otherAt named
  exact Nat.lt_of_le_of_ne (Nat.not_lt.mp notLater) (Ne.symm differs)

theorem receive_owned (net : Network) (k : Nat) (connection : Connection) (held : net.connections[k]? = some connection)
    (packet : Packet) (owned : Owned net) (entitled : net.Entitled verifyPassword (.packet k packet)) :
    Owned (net.receive k connection packet) := by
  have evolved := process_client_packet_evolves net.broker connection.session packet
  have identities := evolves_identities _ _ _ evolved
  have router := process_client_packet_router net.broker connection.session packet
  have rights := entitled connection held
  have received : ∀ after : Network, after.broker = (processClientPacket net.broker connection.session packet).1 →
      after.accepted = net.accepted ++ acceptances net.broker connection.session packet → Owned after := by
    intro after broker accepted
    have ledger : after.ledger = ledgerOf (net.accepted ++ acceptances net.broker connection.session packet) := by
      rw [Network.ledger, accepted]
    refine ⟨?_, ?_, ?_, ?_⟩
    · rw [broker, accepted, router]
      exact subscribe_all_refines _ _ _ owned.refines
    · rw [broker, identities, evolved.sessions]
      exact owned.newest
    · rw [ledger, broker, identities]
      refine ledger_rows _ _ _ owned.owners ?_
      intro acceptance member
      obtain ⟨session, identity, known, named⟩ := acceptances_session _ _ _ acceptance member
      exact ⟨rfl, identity, session ▸ known, named⟩
    · rw [ledger, broker, identities, evolved.sessions]
      refine ledger_rows _ _ _ owned.allowed ?_
      intro acceptance member ref registered
      obtain ⟨session, identity, known, named⟩ := acceptances_session _ _ _ acceptance member
      by_cases own : ref = connection.session
      · exact .inl (session.trans own.symm)
      · rcases rights acceptance member ref registered with same | inherits
        · exact absurd same own
        · have earlier := replaced_earlier net owned acceptance.clientId ref connection.session identity registered known
            named own
          exact .inr ⟨session ▸ earlier, session ▸ inherits⟩
  unfold Network.receive
  dsimp only
  split
  · exact received _ rfl rfl
  · exact received _ rfl rfl

theorem step_owned (net : Network) (event : Event) (owned : Owned net) (entitled : net.Entitled verifyPassword event) :
    Owned (net.step verifyPassword event) := by
  cases event with
  | connect pkt =>
      rw [Network.step]
      split
      · rename_i accepted
        exact register_owned net pkt owned (entitled accepted)
      · exact owned
  | packet k packet =>
      refine on_connection_rule _ net k _ owned ?_
      intro connection isOpen
      split
      · exact receive_owned verifyPassword net k connection isOpen.1 packet owned entitled
      · exact owned
  | close k =>
      refine on_connection_rule _ net k _ owned ?_
      intro connection _
      refine steady_owned net _ ?_ rfl ?_ ?_ owned
      · exact close_connection_router net.broker connection.clientId connection.session
      · exact close_connection_identities net.broker connection.clientId connection.session
      · intro clientId ref get
        have removed : (net.broker.closeConnection connection.clientId connection.session).sessions.get clientId =
            some ref := get
        rw [close_connection_sessions] at removed
        split at removed
        · cases removed
        · exact removed
  | panic k =>
      exact on_connection_rule _ net k _ owned fun _ _ => steady_owned net _ rfl rfl rfl (fun _ _ get => get) owned
  | writerEnds k =>
      refine on_connection_rule _ net k _ owned ?_
      intro connection _
      refine steady_owned net _ rfl rfl ?_ (fun _ _ get => get) owned
      refine evolves_identities (fun _ _ => True) _ _ (modify_session_evolves _ _ _ _ ?_)
      exact fun session _ => grows_same _ _ _ rfl rfl
  | remotePublish topic payload qos retain =>
      have evolved := route_publish_evolves net.broker "bridge_client" topic payload qos retain
      refine steady_owned net _ (route_publish_router _ _ _ _ _ _) rfl (evolves_identities _ _ _ evolved) ?_ owned
      intro clientId ref get
      have same : (net.broker.routePublish "bridge_client" topic payload qos retain).sessions.get clientId = some ref := get
      rwa [evolved.sessions] at same

theorem explained (net : Network) (event : Event) (owned : Owned net) (topic : String) (payload : Bytes) (qos : UInt8)
    (retain : Bool) (publishes : event.publishes = some (topic, payload, qos, retain)) (subInfo : SubscriptionInfo)
    (returned : Returned net.broker.router topic subInfo) (ref : SessionRef) (frame : Bytes)
    (sent : FrameFor net.broker.sessions topic payload qos retain subInfo ref frame) :
    (∃ acceptance, Explains net event ref frame acceptance) ∧
      ∀ acceptance, Explains net event ref frame acceptance → MayUse net.broker.identities ref acceptance := by
  obtain ⟨key, granted, get, info, matching⟩ := (returned_iff _ _ owned.refines topic subInfo).mp returned
  obtain ⟨registered, packetId, same⟩ := sent
  obtain ⟨current, currentAt, named, _⟩ := owned.newest _ ref registered
  rw [table_of_ledger] at get
  obtain ⟨acceptance, row, grants⟩ := Option.map_eq_some_iff.mp get
  obtain ⟨sameKey, _⟩ := owned.owners key acceptance row
  have client : subInfo.clientId = acceptance.clientId := by
    rw [info, ← sameKey]
    rfl
  constructor
  · refine ⟨acceptance, by rw [sameKey]; exact row, ?_, topic, payload, qos, retain, packetId, publishes, ?_, ?_⟩
    · rw [currentAt, Option.map_some, named, client]
    · rw [sameKey]
      exact matching
    · rw [same, info, ← grants]
      rfl
  · intro other explains
    have sameClient : some current.clientId = some other.clientId := by
      rw [← explains.client, currentAt, Option.map_some]
    apply owned.allowed other.key other explains.row ref
    rw [← Option.some.inj sameClient, named]
    exact registered

theorem sent_evolves (allowed : SessionRef → Bytes → Prop) (before after : BrokerState)
    (evolved : Evolves allowed before after) (ref : SessionRef) (frame : Bytes)
    (member : frame ∈ (after.sentTo ref).drop (before.sentTo ref).length) : allowed ref frame := by
  unfold BrokerState.sentTo at member
  cases held : before.heap[ref]? with
  | none => simp [evolves_outside allowed before after evolved ref held] at member
  | some session =>
      obtain ⟨later, heldLater, _, frames, appended, fine⟩ := evolved.heap ref session held
      rw [held, heldLater, Option.map_some, Option.map_some, Option.getD_some, Option.getD_some, appended,
        List.drop_left] at member
      exact fine frame member

theorem sent_opened (broker : BrokerState) (pkt : Connect) (ref : SessionRef) (frame : Bytes)
    (member : frame ∈ ((broker.openConnection pkt).1.sentTo ref).drop (broker.sentTo ref).length) :
    frame = encodePacket (connAckReply 0) := by
  unfold BrokerState.sentTo at member
  rw [open_connection_heap] at member
  by_cases old : ref < broker.heap.length
  · rw [List.getElem?_append_left old, List.drop_length] at member
    simp at member
  · rw [List.getElem?_append_right (Nat.not_lt.mp old), List.getElem?_singleton,
      List.getElem?_eq_none (Nat.not_lt.mp old)] at member
    split at member
    · simpa [ClientSession.send, newSession] using member
    · simp at member

theorem sent_closed (state : BrokerState) (clientId : String) (session ref : SessionRef) :
    (state.closeConnection clientId session).sentTo ref = state.sentTo ref := by
  rw [BrokerState.sentTo, close_connection_heap, List.getElem?_modify, BrokerState.sentTo]
  cases state.heap[ref]? with
  | none => rfl
  | some held =>
      simp only [Option.map_eq_map, Option.map_some, Option.getD_some]
      split <;> rfl

theorem new_publish_frame (net : Network) (event : Event) (ref : SessionRef) (frame : Bytes)
    (member : frame ∈ ((net.step verifyPassword event).broker.sentTo ref).drop (net.broker.sentTo ref).length)
    (kind : IsPublishFrame frame) :
    ∃ topic payload qos retain subInfo, event.publishes = some (topic, payload, qos, retain) ∧
      Returned net.broker.router topic subInfo ∧
      FrameFor net.broker.sessions topic payload qos retain subInfo ref frame := by
  have quiet : ∀ after : BrokerState, Evolves (fun _ _ => False) net.broker after →
      frame ∈ (after.sentTo ref).drop (net.broker.sentTo ref).length → False :=
    fun after evolved member => sent_evolves _ _ after evolved ref frame member
  have unchanged : frame ∈ (net.broker.sentTo ref).drop (net.broker.sentTo ref).length → False :=
    quiet net.broker (evolves_refl _ _)
  cases event with
  | connect pkt =>
      rw [Network.step] at member
      split at member
      · have greeting := sent_opened net.broker pkt ref frame member
        rw [greeting] at kind
        obtain ⟨other, same⟩ := publish_frame_kind _ kind
        cases same
      · exact (unchanged member).elim
  | packet k packet =>
      refine on_connection_rule (fun after => frame ∈ (after.broker.sentTo ref).drop (net.broker.sentTo ref).length → _)
        net k _ (fun member => (unchanged member).elim) ?_ member
      intro connection _ member
      split at member
      · rw [receive_broker] at member
        have evolved := process_client_packet_evolves net.broker connection.session packet
        obtain ⟨pkt, subInfo, isPublish, returned, sent⟩ := sent_evolves _ _ _ evolved ref frame member kind
        subst isPublish
        exact ⟨pkt.topic, pkt.payload, pkt.qos, pkt.retain, subInfo, rfl, returned, sent⟩
      · exact (unchanged member).elim
  | close k =>
      refine (on_connection_rule (fun after => frame ∈ (after.broker.sentTo ref).drop (net.broker.sentTo ref).length →
        False) net k _ unchanged ?_ member).elim
      intro connection _ member
      have closed : frame ∈ ((net.broker.closeConnection connection.clientId connection.session).sentTo ref).drop
          (net.broker.sentTo ref).length := member
      rw [sent_closed] at closed
      exact unchanged closed
  | panic k =>
      refine (on_connection_rule (fun after => frame ∈ (after.broker.sentTo ref).drop (net.broker.sentTo ref).length →
        False) net k _ unchanged ?_ member).elim
      exact fun _ _ => unchanged
  | writerEnds k =>
      refine (on_connection_rule (fun after => frame ∈ (after.broker.sentTo ref).drop (net.broker.sentTo ref).length →
        False) net k _ unchanged ?_ member).elim
      intro connection _ member
      refine quiet _ (modify_session_evolves _ net.broker connection.session _ ?_) member
      exact fun session _ => grows_same _ _ _ rfl rfl
  | remotePublish topic payload qos retain =>
      have evolved := route_publish_evolves net.broker "bridge_client" topic payload qos retain
      obtain ⟨subInfo, returned, sent⟩ := sent_evolves _ _ _ evolved ref frame member
      exact ⟨topic, payload, qos, retain, subInfo, rfl, returned, sent⟩

theorem step_own_deliveries (net : Network) (event : Event) (owned : Owned net) :
    net.OwnDeliveries verifyPassword event := by
  intro ref frame member kind
  obtain ⟨topic, payload, qos, retain, subInfo, publishes, returned, sent⟩ :=
    new_publish_frame verifyPassword net event ref frame member kind
  exact explained net event owned topic payload qos retain publishes subInfo returned ref frame sent

theorem started_owned (auth : AuthConfig) (bridgeSender : Option (List (String × Bytes))) :
    Owned { broker := { auth, bridgeSender } } where
  refines := refines_new
  newest := fun _ _ get => by simp at get
  owners := fun _ _ get => by simp [Network.ledger, ledgerOf] at get
  allowed := fun _ _ get => by simp [Network.ledger, ledgerOf] at get

theorem deliveries_owned (auth : AuthConfig) (bridgeSender : Option (List (String × Bytes))) (events : List Event)
    (entitled : Run.Throughout (Network.step verifyPassword) (Network.Entitled verifyPassword)
      { broker := { auth, bridgeSender } } events) :
    Run.Throughout (Network.step verifyPassword) (Network.OwnDeliveries verifyPassword)
      { broker := { auth, bridgeSender } } events :=
  Run.throughout_of_invariant _ Owned _ _ (step_owned verifyPassword)
    (fun net event owned _ => step_own_deliveries verifyPassword net event owned) _ events
    (started_owned auth bridgeSender) entitled

end Run

def sensorReturns : List Event :=
  [.connect ⟨"sensor", 60, false, none, none, { sessionExpiryInterval := some 3600 }⟩,
    .packet 0 (.subscribe ⟨1, {}, [⟨"t", 0⟩]⟩), .close 0,
    .connect ⟨"sensor", 60, false, none, none, { sessionExpiryInterval := some 3600 }⟩,
    .remotePublish "t" [1] 0 false]

theorem sensor_returns_to_its_own :
    Run.Throughout (Network.step fun _ _ => true) (Network.OwnDeliveries fun _ _ => true) { broker := { auth := ⟨none⟩ } }
      sensorReturns :=
  deliveries_owned (fun _ _ => true) ⟨none⟩ none sensorReturns (by decide +kernel)

def cleanReconnect : List Event :=
  [.connect ⟨"c", 60, true, none, none, {}⟩, .packet 0 (.subscribe ⟨1, {}, [⟨"t", 0⟩]⟩), .close 0,
    .connect ⟨"c", 60, true, none, none, {}⟩, .packet 1 (.publish ⟨false, 0, false, "t", none, {}, [1]⟩)]

theorem clean_reconnect_receives :
    ¬Run.Throughout (Network.step fun _ _ => true) (Network.OwnDeliveries fun _ _ => true)
      { broker := { auth := ⟨none⟩ } } cleanReconnect := by
  intro ⟨_, _, _, _, last, _⟩
  have explains := last 1 (publishFrame "t" [1] 0 false none none) (by decide +kernel) (by decide +kernel)
  have mine := explains.2 ⟨0, "c", "t", 0, none⟩
    ⟨by decide +kernel, by decide +kernel, "t", [1], 0, false, none, rfl, by decide +kernel, rfl⟩
  exact absurd mine (by decide +kernel)

end Pipistrelle.Broker
