import Pipistrelle.Broker.Session
import Pipistrelle.Lib.Deferred

set_option autoImplicit false

/- src/persistence.rs: the three tables, by primary key and in the order of their row
   ids. last_activity, a clock value that nothing reads, is left out. -/
namespace Pipistrelle.Broker

open Codec

structure SessionRow where
  username : Option String
  cleanStart : Bool
  sessionExpiryInterval : UInt32
deriving DecidableEq, Repr

structure SubscriptionRow where
  qos : UInt8
  subId : Option UInt32
deriving DecidableEq, Repr

structure InFlightRow where
  topic : String
  payload : Bytes
  qos : UInt8
deriving DecidableEq, Repr

structure Database where
  sessions : Assoc String SessionRow := {}
  subscriptions : Assoc (String × String) SubscriptionRow := {}
  inFlight : Assoc (String × UInt16) InFlightRow := {}

inductive Statement where
  | insertSession (clientId : String) (row : SessionRow)
  | deleteSessionsOf (clientId : String)
  | insertSubscription (clientId topicFilter : String) (row : SubscriptionRow)
  | deleteSubscription (clientId topicFilter : String)
  | deleteSubscriptionsOf (clientId : String)
  | insertInFlight (clientId : String) (packetId : UInt16) (row : InFlightRow)
  | deleteInFlight (clientId : String) (packetId : UInt16)
  | deleteInFlightOf (clientId : String)
deriving DecidableEq, Repr

-- INSERT OR REPLACE gives the row a new row id; DELETE takes the rows of its WHERE clause.
def Database.execute (self : Database) : Statement → Database
  | .insertSession clientId row => { self with sessions := self.sessions.replace clientId row }
  | .deleteSessionsOf clientId => { self with sessions := self.sessions.remove clientId }
  | .insertSubscription clientId topicFilter row =>
      { self with subscriptions := self.subscriptions.replace (clientId, topicFilter) row }
  | .deleteSubscription clientId topicFilter =>
      { self with subscriptions := self.subscriptions.remove (clientId, topicFilter) }
  | .deleteSubscriptionsOf clientId =>
      { self with subscriptions := self.subscriptions.removeWhere fun key => key.1 == clientId }
  | .insertInFlight clientId packetId row => { self with inFlight := self.inFlight.replace (clientId, packetId) row }
  | .deleteInFlight clientId packetId => { self with inFlight := self.inFlight.remove (clientId, packetId) }
  | .deleteInFlightOf clientId => { self with inFlight := self.inFlight.removeWhere fun key => key.1 == clientId }

def StoredWrite.statements : StoredWrite → List Statement
  | .saveSession clientId username cleanStart sessionExpiryInterval =>
      [.insertSession clientId ⟨username, cleanStart, sessionExpiryInterval⟩]
  | .deleteSession clientId => [.deleteSessionsOf clientId, .deleteSubscriptionsOf clientId, .deleteInFlightOf clientId]
  | .saveSubscription clientId topicFilter qos subId => [.insertSubscription clientId topicFilter ⟨qos, subId⟩]
  | .deleteSubscription clientId topicFilter => [.deleteSubscription clientId topicFilter]
  | .saveInFlight clientId packetId topic payload qos => [.insertInFlight clientId packetId ⟨topic, payload, qos⟩]
  | .deleteInFlight clientId packetId => [.deleteInFlight clientId packetId]

-- One task: all of its statements under the lock of the connection.
def Database.exec (self : Database) (write : StoredWrite) : Database := write.statements.foldl Database.execute self

inductive RowKey where
  | session (clientId : String)
  | subscription (clientId topicFilter : String)
  | inFlight (clientId : String) (packetId : UInt16)
deriving DecidableEq, Repr

inductive Row where
  | session (row : SessionRow)
  | subscription (row : SubscriptionRow)
  | inFlight (row : InFlightRow)
deriving DecidableEq, Repr

def Database.row (self : Database) : RowKey → Option Row
  | .session clientId => (self.sessions.get clientId).map .session
  | .subscription clientId topicFilter => (self.subscriptions.get (clientId, topicFilter)).map .subscription
  | .inFlight clientId packetId => (self.inFlight.get (clientId, packetId)).map .inFlight

def StoredWrite.effect : StoredWrite → RowKey → Option (Option Row)
  | .saveSession clientId username cleanStart sessionExpiryInterval, .session other =>
      if clientId = other then some (some (.session ⟨username, cleanStart, sessionExpiryInterval⟩)) else none
  | .deleteSession clientId, .session other => if clientId = other then some none else none
  | .deleteSession clientId, .subscription other _ => if other = clientId then some none else none
  | .deleteSession clientId, .inFlight other _ => if other = clientId then some none else none
  | .saveSubscription clientId topicFilter qos subId, .subscription other otherFilter =>
      if (clientId, topicFilter) = (other, otherFilter) then some (some (.subscription ⟨qos, subId⟩)) else none
  | .deleteSubscription clientId topicFilter, .subscription other otherFilter =>
      if (clientId, topicFilter) = (other, otherFilter) then some none else none
  | .saveInFlight clientId packetId topic payload qos, .inFlight other otherId =>
      if (clientId, packetId) = (other, otherId) then some (some (.inFlight ⟨topic, payload, qos⟩)) else none
  | .deleteInFlight clientId packetId, .inFlight other otherId =>
      if (clientId, packetId) = (other, otherId) then some none else none
  | _, _ => none

theorem row_stored {α : Type} (hit : Prop) [Decidable hit] (value : α) (held : Option α) (tag : α → Row) :
    (if hit then some value else held).map tag =
      ((if hit then some (some (tag value)) else none : Option (Option Row))).getD (held.map tag) := by
  by_cases here : hit
  · rw [if_pos here, if_pos here, Option.map_some, Option.getD_some]
  · rw [if_neg here, if_neg here, Option.getD_none]

theorem row_deleted {α : Type} (hit : Prop) [Decidable hit] (held : Option α) (tag : α → Row) :
    (if hit then none else held).map tag =
      ((if hit then some none else none : Option (Option Row))).getD (held.map tag) := by
  by_cases here : hit
  · rw [if_pos here, if_pos here, Option.map_none, Option.getD_some]
  · rw [if_neg here, if_neg here, Option.getD_none]

theorem row_exec (db : Database) (write : StoredWrite) (key : RowKey) :
    (db.exec write).row key = (write.effect key).getD (db.row key) := by
  simp only [Database.exec]
  cases write with
  | saveSession clientId username cleanStart sessionExpiryInterval =>
      cases key with
      | session other =>
          simp only [StoredWrite.statements, List.foldl_cons, List.foldl_nil, Database.execute, Database.row,
            Assoc.get_replace]
          exact row_stored _ _ _ Row.session
      | subscription _ _ | inFlight _ _ => rfl
  | deleteSession clientId =>
      cases key with
      | session other =>
          simp only [StoredWrite.statements, List.foldl_cons, List.foldl_nil, Database.execute, Database.row,
            Assoc.get_remove]
          exact row_deleted _ _ Row.session
      | subscription other topicFilter =>
          simp only [StoredWrite.statements, List.foldl_cons, List.foldl_nil, Database.execute, Database.row,
            Assoc.get_remove_where, beq_iff_eq]
          exact row_deleted _ _ Row.subscription
      | inFlight other packetId =>
          simp only [StoredWrite.statements, List.foldl_cons, List.foldl_nil, Database.execute, Database.row,
            Assoc.get_remove_where, beq_iff_eq]
          exact row_deleted _ _ Row.inFlight
  | saveSubscription clientId topicFilter qos subId =>
      cases key with
      | subscription other otherFilter =>
          simp only [StoredWrite.statements, List.foldl_cons, List.foldl_nil, Database.execute, Database.row,
            Assoc.get_replace]
          exact row_stored _ _ _ Row.subscription
      | session _ | inFlight _ _ => rfl
  | deleteSubscription clientId topicFilter =>
      cases key with
      | subscription other otherFilter =>
          simp only [StoredWrite.statements, List.foldl_cons, List.foldl_nil, Database.execute, Database.row,
            Assoc.get_remove]
          exact row_deleted _ _ Row.subscription
      | session _ | inFlight _ _ => rfl
  | saveInFlight clientId packetId topic payload qos =>
      cases key with
      | inFlight other otherId =>
          simp only [StoredWrite.statements, List.foldl_cons, List.foldl_nil, Database.execute, Database.row,
            Assoc.get_replace]
          exact row_stored _ _ _ Row.inFlight
      | session _ | subscription _ _ => rfl
  | deleteInFlight clientId packetId =>
      cases key with
      | inFlight other otherId =>
          simp only [StoredWrite.statements, List.foldl_cons, List.foldl_nil, Database.execute, Database.row,
            Assoc.get_remove]
          exact row_deleted _ _ Row.inFlight
      | session _ | subscription _ _ => rfl

end Pipistrelle.Broker
