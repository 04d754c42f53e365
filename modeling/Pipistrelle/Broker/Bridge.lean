import Pipistrelle.Auth.ReadAcl
import Pipistrelle.Broker.SharedGroups

set_option autoImplicit false

/- src/bridge.rs, with its channel installed and no write failing. TLS, the timers and
   the waits between connections are left out: the events of the main loop come in any
   order, and among them those of the broker. -/
namespace Pipistrelle.Broker

open Codec Router Auth LevelPattern

def localPubPattern : String := "sensor/"

def remoteSubFilter : String := "alerts/#"

def bridgeConnect (user pass : String) : Packet :=
  .connect {
    clientId := "pipistrelle_bridge_client"
    keepAlive := 60
    cleanStart := true
    username := if user.isEmpty then none else some user
    password := if pass.isEmpty then none else some (strBytes pass)
    properties := {} }

def bridgeSubscribe : Packet :=
  .subscribe { packetId := 1, properties := {}, subscriptions := [{ topicFilter := remoteSubFilter, options := 0 }] }

def bridgePublish (message : String × Bytes) : Packet :=
  .publish {
    dup := false, qos := 0, retain := false, topic := message.1, packetId := none, properties := {}, payload := message.2 }

-- What the router makes of a filter: whether a client with it alone is in match_topic.
def RouterMatches (filter topic : String) : Prop :=
  ⟨"", 0, none⟩ ∈ (matchTopic (Router.subscribe {} "" filter 0 none) topic).normal

instance (filter topic : String) : Decidable (RouterMatches filter topic) := inferInstanceAs (Decidable (_ ∈ _))

def Network.localPublish (self : Network) : Event → Option Publication
  | .packet k packet => self.publication (.packet k packet)
  | _ => none

-- received counts what local_rx has returned, written are the packets that were encoded
-- and written to the remote, and localSensors is a history that the bridge does not have.
structure Bridge where
  network : Network
  received : Nat
  written : List Packet
  localSensors : List (String × Bytes)

inductive BridgeEvent where
  | broker (event : Event)
  | connected (user pass : String)
  | remote (packet : Packet)
  | localMsg
  | ping

def Bridge.start (network : Network) : Bridge where
  network := { network with broker := { network.broker with bridgeSender := some [] } }
  received := 0
  written := []
  localSensors := []

def Bridge.channel (self : Bridge) : List (String × Bytes) := self.network.broker.bridgeSender.getD []

def Bridge.write (self : Bridge) (packet : Packet) : Bridge := { self with written := self.written ++ [packet] }

def forwarded (message : String × Bytes) : Bool := localPubPattern.toList.isPrefixOf message.1.toList

def Bridge.recvLocal (self : Bridge) : Bridge :=
  match self.channel[self.received]? with
  | none => self
  | some message =>
      let self := { self with received := self.received + 1 }
      if forwarded message then self.write (bridgePublish message) else self

def Bridge.newSensors (self : Bridge) (event : Event) : List (String × Bytes) :=
  match self.network.localPublish event with
  | some publication =>
      if RouterMatches "sensor/#" publication.topic then [(publication.topic, publication.payload)] else []
  | none => []

def Bridge.step (verifyPassword : String → String → Bool) (self : Bridge) : BridgeEvent → Bridge
  | .broker event => { self with
      network := self.network.step verifyPassword event
      localSensors := self.localSensors ++ self.newSensors event }
  | .connected user pass => (self.write (bridgeConnect user pass)).write bridgeSubscribe
  | .remote packet =>
      match packet with
      | .publish pkt => { self with
          network := self.network.step verifyPassword (.remotePublish pkt.topic pkt.payload pkt.qos pkt.retain) }
      | _ => self
  | .localMsg => self.recvLocal
  | .ping => self.write .pingReq

def isPublish : Packet → Bool
  | .publish _ => true
  | _ => false

-- The PUBLISH packets that were written, and those that the channel still holds, are the
-- local publishes that match sensor/#.
def Bridge.Exact (self : Bridge) : Prop :=
  self.written.filter isPublish ++ ((self.channel.drop self.received).filter forwarded).map bridgePublish =
    self.localSensors.map bridgePublish

instance (bridge : Bridge) : Decidable bridge.Exact := inferInstanceAs (Decidable (_ = _))

-- A local publish for sensor/# is not by a client with the bridge's own name, and not
-- for the topic above.
def Bridge.KeepsApart (self : Bridge) : BridgeEvent → Prop
  | .broker event => ∀ publication, self.network.localPublish event = some publication →
      RouterMatches "sensor/#" publication.topic →
        publication.fromClient ≠ "bridge_client" ∧ publication.topic ≠ "sensor"
  | _ => True

theorem sensor_levels (topic : String) :
    (∃ rest, splitLevels topic = "sensor" :: rest) ↔
      topic = "sensor" ∨ localPubPattern.toList.isPrefixOf topic.toList = true := by
  rw [List.isPrefixOf_iff_prefix]
  constructor
  · rintro ⟨rest, split⟩
    have joined : topic.toList = ['/'].intercalate (topic.toList.splitOn '/') := (List.intercalate_splitOn '/').symm
    have parts : (topic.toList.splitOn '/').map String.ofList = "sensor" :: rest := split
    obtain ⟨first, others, chars, isSensor, _⟩ := List.map_eq_cons_iff.mp parts
    have named : first = "sensor".toList := by rw [← isSensor, String.toList_ofList]
    rw [chars, named] at joined
    cases others with
    | nil => exact .inl (String.toList_inj.mp joined)
    | cons next others => exact .inr ⟨_, joined.symm⟩
  · rintro (rfl | ⟨rest, begins⟩)
    · exact ⟨[], by decide +kernel⟩
    · refine ⟨(rest.splitOn '/').map String.ofList, ?_⟩
      have chars : topic.toList = "sensor".toList ++ '/' :: rest := begins.symm
      rw [splitLevels, chars, List.splitOn_append_cons_self_of_not_mem (by decide), List.map_cons, String.ofList_toList]

theorem router_matches_sensor (topic : String) :
    RouterMatches "sensor/#" topic ↔ topic = "sensor" ∨ localPubPattern.toList.isPrefixOf topic.toList = true := by
  rw [RouterMatches, ← acl_matcher_agrees_with_router "" topic "sensor/#" 0 none (by decide +kernel),
    topic_matches_acl_filter_levels, ← sensor_levels]
  have pattern : cutLevels ((splitLevels "sensor/#").map parseLevel) = [.literal "sensor", .hash] := by decide +kernel
  obtain ⟨first, rest, levels⟩ := List.exists_cons_of_ne_nil (split_levels_ne_nil topic)
  rw [pattern, levels, matches_cons_iff]
  constructor
  · rintro ⟨left, taken, _⟩
    by_cases same : "sensor" = first
    · exact ⟨rest, congrArg (· :: rest) same.symm⟩
    · rw [behind, if_neg same] at taken
      cases taken
  · rintro ⟨others, same⟩
    obtain ⟨rfl, _⟩ := List.cons.inj same
    exact ⟨[.hash], by rw [behind, if_pos rfl], rfl⟩

theorem route_publish_bridge (state : BrokerState) (fromClient topic : String) (payload : Bytes) (qos : UInt8)
    (retain : Bool) :
    (state.routePublish fromClient topic payload qos retain).bridgeSender = state.bridged fromClient topic payload := by
  rw [route_publish_delivers]
  rfl

theorem open_connection_bridge (state : BrokerState) (pkt : Connect) :
    (state.openConnection pkt).1.bridgeSender = state.bridgeSender := by
  simp only [BrokerState.openConnection, register_allocated]
  split <;> rfl

theorem close_connection_bridge (state : BrokerState) (clientId : String) (ref : SessionRef) :
    (state.closeConnection clientId ref).bridgeSender = state.bridgeSender := by
  have removed : (state.closeConnection clientId ref).bridgeSender = (state.removeSession clientId).bridgeSender := rfl
  rw [removed]
  unfold BrokerState.removeSession
  split
  · rfl
  · dsimp only
    split
    · rfl
    · split <;> rfl

theorem published_bridge (verifyPassword : String → String → Bool) (net : Network) (event : Event)
    (publication : Publication) (found : net.publication event = some publication) :
    (net.step verifyPassword event).broker.bridgeSender =
      net.broker.bridged publication.fromClient publication.topic publication.payload := by
  have routed := route_publish_bridge net.broker publication.fromClient publication.topic publication.payload
    publication.qos publication.retain
  rcases publication_step verifyPassword net event publication found with same | ⟨ref, pkt, same⟩
  · rw [same]
    exact routed
  · rw [same]
    exact (reply_pub_ack_keeps (·.bridgeSender) (fun _ _ _ => rfl) _ _ _ _).trans routed

theorem silent_bridge (verifyPassword : String → String → Bool) (net : Network) (event : Event)
    (silent : net.publication event = none) :
    (net.step verifyPassword event).broker.bridgeSender = net.broker.bridgeSender := by
  cases event with
  | connect pkt =>
      rw [Network.step]
      split
      · exact open_connection_bridge net.broker pkt
      · rfl
  | remotePublish topic payload qos retain => cases silent
  | close k =>
      exact on_connection_rule (·.broker.bridgeSender = net.broker.bridgeSender) net k _ rfl
        fun connection _ => close_connection_bridge net.broker connection.clientId connection.session
  | panic k => exact on_connection_rule (·.broker.bridgeSender = net.broker.bridgeSender) net k _ rfl fun _ _ => rfl
  | writerEnds k =>
      exact on_connection_rule (·.broker.bridgeSender = net.broker.bridgeSender) net k _ rfl fun _ _ => rfl
  | packet k packet =>
      refine on_connection_rule (·.broker.bridgeSender = net.broker.bridgeSender) net k _ rfl ?_
      intro connection isOpen
      split
      · rename_i reading
        rw [receive_broker, processClientPacket]
        cases held : net.broker.heap[connection.session]? with
        | none => rfl
        | some session =>
            cases packet with
            | publish pkt =>
                have refused : ¬net.broker.auth.authorize (session.username.getD "") pkt.topic "write" = true := by
                  intro authorized
                  simp [Network.publication, isOpen.1, reading, held, authorized] at silent
                dsimp only
                rw [BrokerState.processPublish, if_neg refused]
                exact reply_pub_ack_keeps (·.bridgeSender) (fun _ _ _ => rfl) _ _ _ _
            | subscribe pkt =>
                exact process_filters_keep (·.bridgeSender) (fun state _ _ _ _ => (subscribe_keeps state _ _ _ _).2.2)
                  session _ _ _ _
            | _ => rfl
      · rfl

structure Bridge.Sound (bridge : Bridge) : Prop where
  installed : bridge.network.broker.bridgeSender.isSome = true
  within : bridge.received ≤ bridge.channel.length

def Bridge.sends (self : Bridge) (event : Event) : List (String × Bytes) :=
  match self.network.publication event with
  | some publication =>
      if publication.fromClient = "bridge_client" then [] else [(publication.topic, publication.payload)]
  | none => []

theorem network_step_channel (verifyPassword : String → String → Bool) (bridge : Bridge) (event : Event)
    (installed : bridge.network.broker.bridgeSender.isSome = true) :
    (bridge.network.step verifyPassword event).broker.bridgeSender = some (bridge.channel ++ bridge.sends event) := by
  obtain ⟨sent, sender⟩ := Option.isSome_iff_exists.mp installed
  have channel : bridge.channel = sent := by rw [Bridge.channel, sender, Option.getD_some]
  unfold Bridge.sends
  cases found : bridge.network.publication event with
  | none =>
      dsimp only
      rw [silent_bridge verifyPassword _ event found, sender, channel, List.append_nil]
  | some publication =>
      dsimp only
      rw [published_bridge verifyPassword _ event publication found, BrokerState.bridged, sender, channel]
      split
      · rw [List.append_nil]
      · rfl

theorem remote_sends_nothing (bridge : Bridge) (topic : String) (payload : Bytes) (qos : UInt8) (retain : Bool) :
    bridge.sends (.remotePublish topic payload qos retain) = [] := by
  rw [Bridge.sends]
  exact if_pos rfl

theorem recv_local_keeps (bridge : Bridge) (sound : bridge.Sound) :
    bridge.recvLocal.Sound ∧ bridge.recvLocal.localSensors = bridge.localSensors ∧
      bridge.recvLocal.written.filter isPublish ++
          ((bridge.recvLocal.channel.drop bridge.recvLocal.received).filter forwarded).map bridgePublish =
        bridge.written.filter isPublish ++ ((bridge.channel.drop bridge.received).filter forwarded).map bridgePublish := by
  unfold Bridge.recvLocal
  cases next : bridge.channel[bridge.received]? with
  | none => exact ⟨sound, rfl, rfl⟩
  | some message =>
      obtain ⟨more, isNext⟩ := List.getElem?_eq_some_iff.mp next
      have rest : bridge.channel.drop bridge.received = message :: bridge.channel.drop (bridge.received + 1) := by
        rw [List.drop_eq_getElem_cons more, isNext]
      dsimp only
      by_cases goes : forwarded message = true
      · rw [if_pos goes, rest, List.filter_cons, if_pos goes]
        refine ⟨⟨sound.installed, more⟩, rfl, ?_⟩
        have appended : (bridge.written ++ [bridgePublish message]).filter isPublish =
            bridge.written.filter isPublish ++ [bridgePublish message] := List.filter_append _ _
        rw [List.map_cons, List.append_cons, ← appended]
        rfl
      · rw [if_neg goes, rest, List.filter_cons, if_neg goes]
        exact ⟨⟨sound.installed, more⟩, rfl, rfl⟩

theorem publication_sensors_iff (publication : Publication) :
    ((if publication.fromClient = "bridge_client" then [] else [(publication.topic, publication.payload)]).filter
        forwarded).map bridgePublish =
      (if RouterMatches "sensor/#" publication.topic then [(publication.topic, publication.payload)] else []).map
        bridgePublish ↔
      (RouterMatches "sensor/#" publication.topic →
        publication.fromClient ≠ "bridge_client" ∧ publication.topic ≠ "sensor") := by
  have begins := router_matches_sensor publication.topic
  by_cases matched : RouterMatches "sensor/#" publication.topic
  · simp only [matched, if_true, true_implies]
    by_cases named : publication.fromClient = "bridge_client"
    · rw [if_pos named]
      exact iff_of_false (by simp) (fun apart => apart.1 named)
    · rw [if_neg named]
      by_cases above : publication.topic = "sensor"
      · have dropped : ¬forwarded (publication.topic, publication.payload) = true := by
          change ¬localPubPattern.toList.isPrefixOf publication.topic.toList = true
          rw [above]
          decide
        rw [List.filter_cons, if_neg dropped]
        exact iff_of_false (by simp) (fun apart => apart.2 above)
      · have goes : forwarded (publication.topic, publication.payload) = true := (begins.mp matched).resolve_left above
        rw [List.filter_cons, if_pos goes]
        exact iff_of_true rfl ⟨named, above⟩
  · have dropped : ¬forwarded (publication.topic, publication.payload) = true := fun goes => matched (begins.mpr (.inr goes))
    simp only [matched, if_false, false_implies, iff_true]
    split
    · rfl
    · rw [List.filter_cons, if_neg dropped]
      rfl

theorem local_publish_found (net : Network) (event : Event) (publication : Publication)
    (published : net.localPublish event = some publication) : net.publication event = some publication := by
  cases event with
  | packet k packet => exact published
  | connect _ | close _ | panic _ | writerEnds _ | remotePublish _ _ _ _ => cases published

theorem no_local_publish (net : Network) (event : Event) (nothing : net.localPublish event = none)
    (publication : Publication) (found : net.publication event = some publication) :
    publication.fromClient = "bridge_client" := by
  cases event with
  | packet k packet =>
      rw [Network.localPublish, found] at nothing
      cases nothing
  | remotePublish topic payload qos retain =>
      cases found
      rfl
  | connect _ | close _ | panic _ | writerEnds _ => cases found

theorem sends_sensors_iff (bridge : Bridge) (event : Event) :
    ((bridge.sends event).filter forwarded).map bridgePublish = (bridge.newSensors event).map bridgePublish ↔
      bridge.KeepsApart (.broker event) := by
  rw [Bridge.sends, Bridge.newSensors, Bridge.KeepsApart]
  cases published : bridge.network.localPublish event with
  | some publication =>
      rw [local_publish_found _ event publication published]
      refine (publication_sensors_iff publication).trans ⟨fun apart other same => ?_, fun apart => apart publication rfl⟩
      cases same
      exact apart
  | none =>
      refine iff_of_true ?_ (fun publication impossible => by cases impossible)
      cases found : bridge.network.publication event with
      | none => rfl
      | some publication =>
          dsimp only
          rw [if_pos (no_local_publish _ event published publication found)]
          rfl

theorem write_exact (bridge : Bridge) (packet : Packet) (other : isPublish packet = false) (exactly : bridge.Exact) :
    (bridge.write packet).Exact := by
  have unchanged : (bridge.written ++ [packet]).filter isPublish = bridge.written.filter isPublish := by simp [other]
  rw [Bridge.Exact, Bridge.write, unchanged]
  exact exactly

section Run

variable (verifyPassword : String → String → Bool)

theorem step_sound (bridge : Bridge) (event : BridgeEvent) (sound : bridge.Sound) :
    (bridge.step verifyPassword event).Sound := by
  have grows : ∀ (event : Event) (sensors : List (String × Bytes)), Bridge.Sound { bridge with
      network := bridge.network.step verifyPassword event, localSensors := sensors } := by
    intro event sensors
    have channel := network_step_channel verifyPassword bridge event sound.installed
    refine ⟨by rw [channel]; rfl, ?_⟩
    rw [Bridge.channel, channel, Option.getD_some, List.length_append]
    exact Nat.le_trans sound.within (Nat.le_add_right _ _)
  cases event with
  | broker event => exact grows event _
  | connected user pass => exact ⟨sound.installed, sound.within⟩
  | ping => exact ⟨sound.installed, sound.within⟩
  | localMsg => exact (recv_local_keeps bridge sound).1
  | remote packet =>
      cases packet with
      | publish pkt => exact grows (.remotePublish pkt.topic pkt.payload pkt.qos pkt.retain) _
      | _ => exact sound

theorem broker_step_exact_iff (bridge : Bridge) (event : Event) (added : List (String × Bytes)) (sound : bridge.Sound)
    (exactly : bridge.Exact) :
    Bridge.Exact { bridge with
        network := bridge.network.step verifyPassword event, localSensors := bridge.localSensors ++ added } ↔
      ((bridge.sends event).filter forwarded).map bridgePublish = added.map bridgePublish := by
  have channel := network_step_channel verifyPassword bridge event sound.installed
  unfold Bridge.Exact at exactly ⊢
  rw [Bridge.channel, channel, Option.getD_some, List.drop_append_of_le_length sound.within, List.filter_append,
    List.map_append, ← List.append_assoc, exactly, List.map_append]
  exact List.append_cancel_left_eq _ _ _ |> Iff.of_eq

theorem step_exact_iff (bridge : Bridge) (event : BridgeEvent) (sound : bridge.Sound) (exactly : bridge.Exact) :
    (bridge.step verifyPassword event).Exact ↔ bridge.KeepsApart event := by
  cases event with
  | broker event =>
      exact (broker_step_exact_iff verifyPassword bridge event _ sound exactly).trans (sends_sensors_iff bridge event)
  | connected user pass => exact iff_of_true (write_exact _ _ rfl (write_exact _ _ rfl exactly)) trivial
  | ping => exact iff_of_true (write_exact _ _ rfl exactly) trivial
  | localMsg =>
      obtain ⟨_, history, kept⟩ := recv_local_keeps bridge sound
      refine iff_of_true ?_ trivial
      rw [Bridge.step, Bridge.Exact, kept, history]
      exact exactly
  | remote packet =>
      refine iff_of_true ?_ trivial
      cases packet with
      | publish pkt =>
          have silent := remote_sends_nothing bridge pkt.topic pkt.payload pkt.qos pkt.retain
          have kept := (broker_step_exact_iff verifyPassword bridge
            (.remotePublish pkt.topic pkt.payload pkt.qos pkt.retain) [] sound exactly).mpr (by rw [silent]; rfl)
          rwa [List.append_nil] at kept
      | _ => exact exactly

theorem bridge_exact_iff (net : Network) (events : List BridgeEvent) :
    Run.Always (Bridge.step verifyPassword) Bridge.Exact (.start net) events ↔
      Run.Throughout (Bridge.step verifyPassword) Bridge.KeepsApart (.start net) events :=
  Run.always_iff_throughout_under (Bridge.step verifyPassword) Bridge.Sound Bridge.Exact Bridge.KeepsApart
    (step_sound verifyPassword) (step_exact_iff verifyPassword) (.start net) events ⟨rfl, Nat.le_refl 0⟩ rfl

end Run

def publishesOn (clientId topic : String) : List BridgeEvent :=
  [.broker (.connect ⟨clientId, 60, true, none, none, {}⟩),
    .broker (.packet 0 (.publish ⟨false, 0, false, topic, none, {}, [1]⟩)), .localMsg]

def anonymousNetwork : Network := { broker := { auth := ⟨none⟩ } }

-- The one client has the bridge's own name, the other one publishes on the topic above.
theorem local_publish_not_forwarded :
    ¬Run.Always (Bridge.step fun _ _ => true) Bridge.Exact (.start anonymousNetwork) (publishesOn "bridge_client" "sensor/t") ∧
      ¬Run.Always (Bridge.step fun _ _ => true) Bridge.Exact (.start anonymousNetwork) (publishesOn "c" "sensor") := by
  have last : ∀ events, Run.Always (Bridge.step fun _ _ => true) Bridge.Exact (.start anonymousNetwork) events →
      (events.foldl (Bridge.step fun _ _ => true) (.start anonymousNetwork)).Exact := by
    intro events always
    have prefixes := (Run.always_iff_prefixes _ _ _ _).mp always events.length
    rwa [List.take_length] at prefixes
  exact ⟨fun always => absurd (last _ always) (by decide +kernel),
    fun always => absurd (last _ always) (by decide +kernel)⟩

end Pipistrelle.Broker
