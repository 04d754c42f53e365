import Pipistrelle.Broker.Connect
import Pipistrelle.Broker.Frame

set_option autoImplicit false

/- The broker with all of its connections. Connections register, process packets
   and end in any order; each event is one piece of handle_connection or of the bridge
   without an await, and whole before the next one. Worker threads that run such pieces
   at the same time are in Threads. -/
namespace Pipistrelle.Broker

open Codec Auth

-- An ending connection has failed and reads no more, but its cleanup is yet to run.
inductive Status where
  | reading
  | ending
  | closed
deriving DecidableEq, Repr

-- registeredAt is how many database tasks had been spawned before it registered.
structure Connection where
  clientId : String
  session : SessionRef
  status : Status
  registeredAt : Nat
deriving DecidableEq, Repr

structure Acceptance where
  session : SessionRef
  clientId : String
  topicFilter : String
  qos : UInt8
  subscriptionIdentifier : Option UInt32
deriving DecidableEq, Repr

-- Connections are in the order in which they registered. accepted is a history that
-- the broker does not have.
structure Network where
  broker : BrokerState
  connections : List Connection := []
  accepted : List Acceptance := []

inductive Event where
  | connect (pkt : Connect)
  | packet (connection : Nat) (packet : Packet)
  | close (connection : Nat)
  -- The task of the connection panics: it does not clean up.
  | panic (connection : Nat)
  -- The writer task ends on a failed write.
  | writerEnds (connection : Nat)
  | remotePublish (topic : String) (payload : Bytes) (qos : UInt8) (retain : Bool)
deriving DecidableEq

def Network.setStatus (self : Network) (k : Nat) (status : Status) : Network :=
  { self with connections := self.connections.modify k fun connection => { connection with status } }

def Network.register (self : Network) (pkt : Connect) : Network :=
  let opened := self.broker.openConnection pkt
  let connection : Connection := ⟨pkt.clientId, opened.2, .reading, self.broker.issued.length⟩
  { self with broker := opened.1, connections := self.connections ++ [connection] }

def acceptances (broker : BrokerState) (ref : SessionRef) (packet : Packet) : List Acceptance :=
  match broker.heap[ref]?, packet with
  | some session, .subscribe pkt =>
      (pkt.subscriptions.filter fun sub => broker.auth.authorize (session.username.getD "") sub.topicFilter "read").map
        fun sub => ⟨ref, session.clientId, sub.topicFilter, sub.options &&& 0x03, pkt.properties.subscriptionIdentifier⟩
  | _, _ => []

def Network.receive (self : Network) (k : Nat) (connection : Connection) (packet : Packet) : Network :=
  let result := processClientPacket self.broker connection.session packet
  let accepted := self.accepted ++ acceptances self.broker connection.session packet
  let self := { self with broker := result.1, accepted }
  if result.2.isSome then self.setStatus k .ending else self

def Network.cleanup (self : Network) (k : Nat) (connection : Connection) : Network :=
  { self with broker := self.broker.closeConnection connection.clientId connection.session }.setStatus k .closed

-- What can happen to a connection that is not closed; for one that is, nothing does.
def Network.onConnection (self : Network) (k : Nat) (act : Connection → Network) : Network :=
  match self.connections[k]? with
  | some connection => if connection.status = .closed then self else act connection
  | none => self

def Network.step (verifyPassword : String → String → Bool) (self : Network) : Event → Network
  | .connect pkt => if authenticated verifyPassword self.broker.auth pkt then self.register pkt else self
  | .packet k packet => self.onConnection k fun connection =>
      if connection.status = .reading then self.receive k connection packet else self
  | .close k => self.onConnection k fun connection => self.cleanup k connection
  | .panic k => self.onConnection k fun _ => self.setStatus k .closed
  | .writerEnds k => self.onConnection k fun connection =>
      { self with broker := self.broker.modifySession connection.session fun session =>
          { session with receiverOpen := false } }
  | .remotePublish topic payload qos retain =>
      { self with broker := self.broker.routePublish "bridge_client" topic payload qos retain }

theorem register_sessions (net : Network) (pkt : Connect) :
    (net.register pkt).broker.sessions = net.broker.sessions.insert pkt.clientId net.broker.heap.length :=
  open_connection_sessions net.broker pkt

theorem receive_broker (net : Network) (k : Nat) (connection : Connection) (packet : Packet) :
    (net.receive k connection packet).broker = (processClientPacket net.broker connection.session packet).1 := by
  unfold Network.receive
  dsimp only
  split <;> rfl

def Network.Open (self : Network) (k : Nat) (connection : Connection) : Prop :=
  self.connections[k]? = some connection ∧ connection.status ≠ .closed

theorem on_connection_cases (net : Network) (k : Nat) (act : Connection → Network) :
    (net.onConnection k act = net ∧ ∀ connection, ¬net.Open k connection) ∨
      ∃ connection, net.Open k connection ∧ net.onConnection k act = act connection := by
  unfold Network.onConnection
  cases held : net.connections[k]? with
  | none => exact .inl ⟨rfl, fun connection isOpen => by simp [Network.Open, held] at isOpen⟩
  | some connection =>
      dsimp only
      by_cases closed : connection.status = .closed
      · rw [if_pos closed]
        refine .inl ⟨rfl, fun other isOpen => isOpen.2 ?_⟩
        rw [← Option.some.inj (held.symm.trans isOpen.1)]
        exact closed
      · rw [if_neg closed]
        exact .inr ⟨connection, ⟨held, closed⟩, rfl⟩

theorem on_connection_rule (property : Network → Prop) (net : Network) (k : Nat) (act : Connection → Network)
    (idle : property net) (acts : ∀ connection, net.Open k connection → property (act connection)) :
    property (net.onConnection k act) := by
  rcases on_connection_cases net k act with ⟨same, _⟩ | ⟨connection, isOpen, same⟩
  · rw [same]
    exact idle
  · rw [same]
    exact acts connection isOpen

end Pipistrelle.Broker
