import Pipistrelle.Broker.Connect
import Pipistrelle.Broker.Frame
import Pipistrelle.Broker.Persistence

set_option autoImplicit false

/- The writes of the broker's operations and the tasks that carry them out. Nothing
   orders the tasks, so the tables depend on the schedule as soon as two writes leave
   different contents in one row. -/
namespace Pipistrelle.Broker

open Codec Deferred

inductive Operation where
  | registerSession (session : ClientSession)
  | removeSession (clientId : String)
  | subscribe (clientId topicFilter : String) (qos : UInt8) (subscriptionIdentifier : Option UInt32)
  | unsubscribe (clientId topicFilter : String)
  | sendPublishToClient (clientId topic : String) (payload : Bytes) (qos : UInt8) (retain : Bool)
      (subscriptionIdentifier : Option UInt32)
  | pubAck (session : SessionRef) (packetId : UInt16)

def BrokerState.perform (self : BrokerState) : Operation → BrokerState
  | .registerSession session => (self.allocate session).1.registerSession (self.allocate session).2
  | .removeSession clientId => self.removeSession clientId
  | .subscribe clientId topicFilter qos subscriptionIdentifier =>
      self.subscribe clientId topicFilter qos subscriptionIdentifier
  | .unsubscribe clientId topicFilter => (self.unsubscribe clientId topicFilter).1
  | .sendPublishToClient clientId topic payload qos retain subscriptionIdentifier =>
      self.sendPublishToClient clientId topic payload qos retain subscriptionIdentifier
  | .pubAck session packetId => (processClientPacket self session (.pubAck ⟨packetId, 0, {}⟩)).1

def performing (broker : BrokerState) (op : Operation) : BrokerState × List StoredWrite :=
  (broker.perform op, (broker.perform op).issued.drop broker.issued.length)

def tables : RowStore StoredWrite Database RowKey (Option Row) where
  exec := Database.exec
  row := Database.row
  effect := StoredWrite.effect
  row_exec := row_exec

theorem perform_issued (broker : BrokerState) (op : Operation) :
    (broker.perform op).issued = broker.issued ++ (performing broker op).2 := by
  have extended : ∃ writes, (broker.perform op).issued = broker.issued ++ writes := by
    cases op with
    | registerSession session =>
        simp only [BrokerState.perform, register_allocated]
        split
        · exact ⟨[_], rfl⟩
        · exact ⟨[], (List.append_nil _).symm⟩
    | removeSession clientId =>
        obtain ⟨writes, appended, _⟩ := close_connection_issued broker clientId 0
        exact ⟨writes, appended⟩
    | subscribe clientId topicFilter qos subscriptionIdentifier => exact ⟨[_], rfl⟩
    | unsubscribe clientId topicFilter =>
        simp only [BrokerState.perform, BrokerState.unsubscribe]
        split
        · exact ⟨[_], rfl⟩
        · exact ⟨[], (List.append_nil _).symm⟩
    | sendPublishToClient clientId topic payload qos retain subscriptionIdentifier =>
        obtain ⟨writes, appended, _⟩ :=
          (send_publish_evolves broker topic payload qos retain ⟨clientId, qos, subscriptionIdentifier⟩).issued
        exact ⟨writes, appended⟩
    | pubAck session packetId =>
        obtain ⟨writes, appended, _⟩ :=
          (process_client_packet_evolves broker session (.pubAck ⟨packetId, 0, {}⟩)).issued
        exact ⟨writes, appended⟩
  obtain ⟨writes, appended⟩ := extended
  rw [performing, appended, List.drop_left]

theorem issued_by_operations (broker : BrokerState) (ops : List Operation) :
    (ops.foldl BrokerState.perform broker).issued = broker.issued ++ issuedBy performing broker ops := by
  induction ops generalizing broker with
  | nil => exact (List.append_nil _).symm
  | cons op rest ih =>
      rw [List.foldl_cons, ih, perform_issued, issuedBy, List.append_assoc]
      rfl

theorem tables_settle_iff (broker : BrokerState) (db : Database) (ops : List Operation) :
    (∀ schedule : List (Deferred.Event Operation), operations schedule = ops →
        (run performing Database.exec ⟨broker, [], db⟩ schedule).pending = [] →
        ∀ key, (run performing Database.exec ⟨broker, [], db⟩ schedule).store.row key =
          ((issuedBy performing broker ops).foldl Database.exec db).row key) ↔
      ∀ first ∈ issuedBy performing broker ops, ∀ second ∈ issuedBy performing broker ops, ∀ key left right,
        first.effect key = some left → second.effect key = some right → left = right :=
  settled_iff performing tables broker db ops

def acknowledgedDelivery : List Operation :=
  [.registerSession { clientId := "c", username := none, cleanStart := false, keepAlive := 0, sessionExpiryInterval := 60 },
    .sendPublishToClient "c" "t" [1] 1 false none, .pubAck 0 1]

theorem acknowledged_message_comes_back :
    ¬∀ schedule : List (Deferred.Event Operation), operations schedule = acknowledgedDelivery →
        (run performing Database.exec ⟨{ auth := ⟨none⟩ }, [], {}⟩ schedule).pending = [] →
        ∀ key, (run performing Database.exec ⟨{ auth := ⟨none⟩ }, [], {}⟩ schedule).store.row key =
          ((issuedBy performing { auth := ⟨none⟩ } acknowledgedDelivery).foldl Database.exec {}).row key := by
  intro settles
  have row := settles (acknowledgedDelivery.map .operation ++ [.complete 0, .complete 1, .complete 0])
    rfl (by decide +kernel) (.inFlight "c" 1)
  exact absurd row (by decide +kernel)

end Pipistrelle.Broker
