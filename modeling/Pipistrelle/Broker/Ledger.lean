import Pipistrelle.Broker.Network

set_option autoImplicit false

/- The router as a record of accepted SUBSCRIBEs: each of its subscriptions is the
   last acceptance under its key, and nothing but a SUBSCRIBE changes it. -/
namespace Pipistrelle.Broker

open Codec Router

def Acceptance.key (self : Acceptance) : Key := keyOf self.clientId self.topicFilter

def Acceptance.granted (self : Acceptance) : Granted := ⟨self.qos, self.subscriptionIdentifier⟩

def recordAcceptance (rows : Assoc Key Acceptance) (acceptance : Acceptance) : Assoc Key Acceptance :=
  rows.insert acceptance.key acceptance

def ledgerOf (accepted : List Acceptance) : Assoc Key Acceptance := accepted.foldl recordAcceptance {}

def Network.ledger (self : Network) : Assoc Key Acceptance := ledgerOf self.accepted

def subscribeAccepted (root : TrieNode) (acceptance : Acceptance) : TrieNode :=
  Router.subscribe root acceptance.clientId acceptance.topicFilter acceptance.qos acceptance.subscriptionIdentifier

def tableOf (accepted : List Acceptance) : Table :=
  accepted.foldl (fun table acceptance => table.insert acceptance.key acceptance.granted) {}

theorem ledger_append (accepted more : List Acceptance) :
    ledgerOf (accepted ++ more) = more.foldl recordAcceptance (ledgerOf accepted) := List.foldl_append

theorem table_of_ledger (accepted : List Acceptance) (key : Key) :
    (tableOf accepted).get key = ((ledgerOf accepted).get key).map Acceptance.granted := by
  unfold tableOf ledgerOf
  have run : ∀ (table : Table) (rows : Assoc Key Acceptance), table.get key = (rows.get key).map Acceptance.granted →
      (accepted.foldl (fun table acceptance => table.insert acceptance.key acceptance.granted) table).get key =
        ((accepted.foldl recordAcceptance rows).get key).map Acceptance.granted := by
    induction accepted with
    | nil => exact fun _ _ same => same
    | cons acceptance rest ih =>
        intro table rows same
        refine ih _ _ ?_
        rw [recordAcceptance, Assoc.get_insert, Assoc.get_insert]
        by_cases here : acceptance.key = key
        · rw [if_pos here, if_pos here, Option.map_some]
        · rw [if_neg here, if_neg here]
          exact same
  exact run {} {} rfl

theorem ledger_rows (property : Key → Acceptance → Prop) (accepted more : List Acceptance)
    (old : ∀ key acceptance, (ledgerOf accepted).get key = some acceptance → property key acceptance)
    (new : ∀ acceptance ∈ more, property acceptance.key acceptance) (key : Key) (acceptance : Acceptance)
    (get : (ledgerOf (accepted ++ more)).get key = some acceptance) : property key acceptance := by
  rw [ledger_append] at get
  generalize ledgerOf accepted = rows at old get
  induction more generalizing rows with
  | nil => exact old key acceptance get
  | cons first rest ih =>
      refine ih (fun other member => new other (by simp [member])) (recordAcceptance rows first) ?_ get
      intro other held found
      rw [recordAcceptance, Assoc.get_insert] at found
      by_cases here : first.key = other
      · rw [if_pos here] at found
        cases found
        exact here ▸ new first (by simp)
      · rw [if_neg here] at found
        exact old other held found

theorem subscribe_all_refines (root : TrieNode) (accepted more : List Acceptance)
    (refines : Refines root (tableOf accepted)) :
    Refines (more.foldl subscribeAccepted root) (tableOf (accepted ++ more)) := by
  induction more generalizing root accepted with
  | nil => rwa [List.append_nil]
  | cons first rest ih =>
      have stored := subscribe_refines root (tableOf accepted) refines first.clientId first.topicFilter first.qos
        first.subscriptionIdentifier
      have next : Table.subscribe (tableOf accepted) first.clientId first.topicFilter first.qos
          first.subscriptionIdentifier = tableOf (accepted ++ [first]) := by
        rw [tableOf, tableOf, List.foldl_append, List.foldl_cons, List.foldl_nil]
        rfl
      have continued := ih (subscribeAccepted root first) (accepted ++ [first]) (next ▸ stored)
      rwa [List.append_assoc, List.singleton_append] at continued

theorem send_publish_router (state : BrokerState) (clientId topic : String) (payload : Bytes) (qos : UInt8)
    (retain : Bool) (subscriptionIdentifier : Option UInt32) :
    (state.sendPublishToClient clientId topic payload qos retain subscriptionIdentifier).router = state.router := by
  unfold BrokerState.sendPublishToClient
  split
  · rfl
  · split
    · rfl
    · split <;> rfl

theorem foldl_router {α : Type} (step : BrokerState → α → BrokerState)
    (same : ∀ state item, (step state item).router = state.router) (items : List α) (state : BrokerState) :
    (items.foldl step state).router = state.router := by
  induction items generalizing state with
  | nil => rfl
  | cons item rest ih => rw [List.foldl_cons, ih, same]

theorem route_publish_router (state : BrokerState) (fromClient topic : String) (payload : Bytes) (qos : UInt8)
    (retain : Bool) : (state.routePublish fromClient topic payload qos retain).router = state.router := by
  unfold BrokerState.routePublish
  dsimp only
  rw [foldl_router _ _ _ _, foldl_router _ _ _ _, forward_to_bridge_router]
  · exact fun now subInfo => send_publish_router now _ _ _ _ _ _
  · intro now entry
    unfold BrokerState.deliverShared
    dsimp only
    split
    · rfl
    · exact send_publish_router _ _ _ _ _ _ _

theorem reply_pub_ack_router (state : BrokerState) (ref : SessionRef) (pkt : Publish) (reasonCode : UInt8) :
    (state.replyPubAck ref pkt reasonCode).router = state.router :=
  reply_pub_ack_keeps (·.router) (fun _ _ _ => rfl) state ref pkt reasonCode

theorem process_filters_router (state : BrokerState) (ref : SessionRef) (session : ClientSession)
    (subscriptionIdentifier : Option UInt32) (reasonCodes : List UInt8) (subs : List Subscription) :
    (state.processFilters session subscriptionIdentifier reasonCodes subs).1.router =
      ((subs.filter fun sub => state.auth.authorize (session.username.getD "") sub.topicFilter "read").map fun sub =>
        (⟨ref, session.clientId, sub.topicFilter, sub.options &&& 0x03, subscriptionIdentifier⟩ : Acceptance)).foldl
          subscribeAccepted state.router := by
  induction subs generalizing state reasonCodes with
  | nil => rfl
  | cons sub rest ih =>
      rw [BrokerState.processFilters, BrokerState.processFilter]
      by_cases allowed : state.auth.authorize (session.username.getD "") sub.topicFilter "read" = true
      · rw [if_pos allowed, List.filter_cons_of_pos (by simpa using allowed), List.map_cons, List.foldl_cons,
          subscribeAccepted, ← subscribe_router]
        exact ih _ _
      · rw [if_neg allowed, List.filter_cons_of_neg (by simpa using allowed)]
        exact ih _ _

theorem process_client_packet_router (state : BrokerState) (ref : SessionRef) (packet : Packet) :
    (processClientPacket state ref packet).1.router =
      (acceptances state ref packet).foldl subscribeAccepted state.router := by
  unfold processClientPacket acceptances
  cases state.heap[ref]? with
  | none => rfl
  | some session =>
      cases packet with
      | publish pkt =>
          simp only [BrokerState.processPublish, List.foldl_nil]
          split
          · rw [reply_pub_ack_router, route_publish_router]
          · exact reply_pub_ack_router _ _ _ _
      | subscribe pkt => exact process_filters_router state ref session _ _ _
      | connect _ | connAck _ | pubAck _ | subAck _ | pingReq | pingResp | disconnect _ => rfl

end Pipistrelle.Broker
