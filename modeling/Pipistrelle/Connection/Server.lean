import Pipistrelle.Broker.GrantedQos
import Pipistrelle.Broker.Outbox
import Pipistrelle.Connection.AfterDisconnect

set_option autoImplicit false

/- All connections at once, down to their bytes. Each read, each turn of the inner loop and
   each cleanup of handle_connection is a step of its own, so that the steps of different
   connections come in any order. The network is what is left of it without the bytes. -/
namespace Pipistrelle.Connection

open Codec ChunkedDecode Auth Broker

inductive Task where
  | accepted
  | reading (clientId : String) (session : SessionRef) (readBuf : Bytes)
  | decoding (clientId : String) (session : SessionRef) (readBuf : Bytes)
  | ending (clientId : String) (session : SessionRef)
  -- Also after a panic of the task, which does not clean up.
  | finished
deriving DecidableEq, Repr

structure Server where
  broker : BrokerState
  sockets : List Task := []

inductive ServerEvent where
  | accept
  | read (socket : Nat) (result : ReadResult)
  | turn (socket : Nat)
  | writerEnds (socket : Nat)
  -- One turn of the decode loop of the bridge, with what its buffer holds.
  | bridgeTurn (readBuf : Bytes)

def Task.read (verifyPassword : String → String → Bool) (broker : BrokerState) (result : ReadResult) :
    Task → BrokerState × Task
  | .accepted =>
      match readConnect result with
      | .error _ => (broker, .finished)
      | .ok (pkt, readBuf) =>
          if authenticated verifyPassword broker.auth pkt then
            let opened := broker.openConnection pkt
            (opened.1, .reading pkt.clientId opened.2 readBuf)
          else (broker, .finished)
  | .reading clientId session readBuf =>
      match result with
      | .bytes (byte :: tail) => (broker, .decoding clientId session (readBuf ++ byte :: tail))
      | .bytes [] | .failed | .timedOut => (broker, .ending clientId session)
  | task => (broker, task)

def Task.turn (broker : BrokerState) : Task → BrokerState × Task
  | .decoding clientId session readBuf =>
      match decodePacket readBuf with
      | .ok (packet, bytesRead) =>
          match processClientPacket broker session packet with
          | (broker, some _) => (broker, .ending clientId session)
          | (broker, none) =>
              if bytesRead ≤ readBuf.length then (broker, .decoding clientId session (readBuf.drop bytesRead))
              else (broker, .finished)
      | .err .incomplete => (broker, .reading clientId session readBuf)
      | .err _ => (broker, .ending clientId session)
      | .panic => (broker, .finished)
  | .ending clientId session => (broker.closeConnection clientId session, .finished)
  | task => (broker, task)

structure Handle where
  clientId : String
  session : SessionRef
  reads : Bool
deriving DecidableEq, Repr

def Task.handle : Task → Option Handle
  | .reading clientId session _ | .decoding clientId session _ => some ⟨clientId, session, true⟩
  | .ending clientId session => some ⟨clientId, session, false⟩
  | .accepted | .finished => none

def Task.writerEnds (broker : BrokerState) (task : Task) : BrokerState × Task :=
  match task.handle with
  | some handle => (broker.modifySession handle.session fun session => { session with receiverOpen := false }, task)
  | none => (broker, task)

def Server.onSocket (self : Server) (socket : Nat) (act : Task → BrokerState × Task) : Server :=
  match self.sockets[socket]? with
  | some task => ⟨(act task).1, self.sockets.set socket (act task).2⟩
  | none => self

def Server.step (verifyPassword : String → String → Bool) (self : Server) : ServerEvent → Server
  | .accept => { self with sockets := self.sockets ++ [.accepted] }
  | .read socket result => self.onSocket socket (Task.read verifyPassword self.broker result)
  | .turn socket => self.onSocket socket (Task.turn self.broker)
  | .writerEnds socket => self.onSocket socket (Task.writerEnds self.broker)
  | .bridgeTurn readBuf =>
      match decodePacket readBuf with
      | .ok (.publish pkt, _) =>
          { self with broker := self.broker.routePublish "bridge_client" pkt.topic pkt.payload pkt.qos pkt.retain }
      | _ => self

def Handle.Of (self : Handle) (connection : Connection) : Prop :=
  connection.clientId = self.clientId ∧ connection.session = self.session ∧
    if self.reads then connection.status = .reading else connection.status ≠ .closed

def Server.handle (self : Server) (socket : Nat) : Option Handle := (self.sockets[socket]?).bind Task.handle

structure Simulates (server : Server) (net : Network) : Prop where
  broker : net.broker = server.broker
  tasks : ∀ socket handle, server.handle socket = some handle → ∃ (k : Nat) (connection : Broker.Connection),
    net.connections[k]? = some connection ∧ handle.Of connection
  apart : ∀ first second handle other, server.handle first = some handle → server.handle second = some other →
    handle.session = other.session → first = second
  below : ∀ socket handle, server.handle socket = some handle → handle.session < server.broker.heap.length

theorem set_handle (server : Server) (broker : BrokerState) (socket : Nat) (task later : Task)
    (found : server.sockets[socket]? = some task) (other : Nat) :
    (⟨broker, server.sockets.set socket later⟩ : Server).handle other =
      if socket = other then later.handle else server.handle other := by
  have inside : socket < server.sockets.length := (List.getElem?_eq_some_iff.mp found).1
  rw [Server.handle, List.getElem?_set]
  by_cases own : socket = other
  · simp [own, own ▸ inside]
  · simp [own, Server.handle]

theorem act_simulates (server : Server) (net after : Network) (simulates : Simulates server net) (socket : Nat)
    (task later : Task) (found : server.sockets[socket]? = some task)
    (grows : server.broker.heap.length ≤ after.broker.heap.length)
    (others : ∀ (k : Nat) (connection : Broker.Connection), net.connections[k]? = some connection →
      (∀ handle, task.handle = some handle → connection.session ≠ handle.session) → after.connections[k]? = some connection)
    (own : ∀ handle, later.handle = some handle →
      (∃ (k : Nat) (connection : Broker.Connection), after.connections[k]? = some connection ∧ handle.Of connection) ∧
        handle.session < after.broker.heap.length ∧
        ((∃ before, task.handle = some before ∧ before.session = handle.session) ∨
          server.broker.heap.length ≤ handle.session)) :
    Simulates ⟨after.broker, server.sockets.set socket later⟩ after := by
  have handles := set_handle server after.broker socket task later found
  have before : server.handle socket = task.handle := by rw [Server.handle, found, Option.bind_some]
  -- The session that the task has now is no other task's.
  have alone : ∀ other handle another, later.handle = some handle → server.handle other = some another →
      handle.session = another.session → socket = other := by
    intro other handle another held heldOther same
    rcases (own handle held).2.2 with ⟨early, heldEarly, kept⟩ | fresh
    · exact simulates.apart socket other early another (before.trans heldEarly) heldOther (kept.trans same)
    · exact absurd (simulates.below other another heldOther) (Nat.not_lt.mpr (same ▸ fresh))
  refine ⟨rfl, ?_, ?_, ?_⟩
  · intro other handle held
    rw [handles] at held
    by_cases same : socket = other
    · rw [if_pos same] at held
      exact (own handle held).1
    · rw [if_neg same] at held
      obtain ⟨k, connection, connected, matched⟩ := simulates.tasks other handle held
      refine ⟨k, connection, others k connection connected ?_, matched⟩
      intro mine heldMine shared
      exact same (simulates.apart socket other mine handle (before.trans heldMine) held
        (shared.symm.trans matched.2.1))
  · intro first second handle other held heldOther shared
    rw [handles] at held heldOther
    by_cases mine : socket = first
    · rw [if_pos mine] at held
      by_cases also : socket = second
      · rw [← mine, also]
      · rw [if_neg also] at heldOther
        exact mine.symm.trans (alone second handle other held heldOther shared)
    · rw [if_neg mine] at held
      by_cases also : socket = second
      · rw [if_pos also] at heldOther
        exact (alone first other handle heldOther held shared.symm).symm.trans also
      · rw [if_neg also] at heldOther
        exact simulates.apart first second handle other held heldOther shared
  · intro other handle held
    rw [handles] at held
    by_cases same : socket = other
    · rw [if_pos same] at held
      exact (own handle held).2.1
    · rw [if_neg same] at held
      exact Nat.lt_of_lt_of_le (simulates.below other handle held) grows

theorem idle_simulates (server : Server) (net : Network) (simulates : Simulates server net) (socket : Nat)
    (task later : Task) (found : server.sockets[socket]? = some task)
    (keeps : ∀ handle, later.handle = some handle →
      ∃ before, task.handle = some before ∧ handle = ⟨before.clientId, before.session, before.reads && handle.reads⟩) :
    Simulates ⟨server.broker, server.sockets.set socket later⟩ net := by
  have broker := simulates.broker
  rw [← broker]
  refine act_simulates server net net simulates socket task later found (by rw [broker]) (fun _ _ held _ => held) ?_
  intro handle held
  obtain ⟨before, heldBefore, same⟩ := keeps handle held
  have mine : server.handle socket = some before := by rw [Server.handle, found, Option.bind_some, heldBefore]
  obtain ⟨k, connection, connected, named, own, status⟩ := simulates.tasks socket before mine
  rw [same, broker]
  refine ⟨⟨k, connection, connected, named, own, ?_⟩, simulates.below socket before mine, .inl ⟨before, heldBefore, rfl⟩⟩
  cases early : before.reads with
  | false => simpa [early] using status
  | true =>
      have reading : connection.status = .reading := by simpa [early] using status
      cases handle.reads with
      | false => simp [reading]
      | true => simpa using reading

theorem set_status_other (net : Network) (k j : Nat) (status : Status) (apart : k ≠ j) :
    (net.setStatus k status).connections[j]? = net.connections[j]? := by
  simp [Network.setStatus, apart]

section Steps

variable (verifyPassword : String → String → Bool)

def Explained (server : Server) (net : Network) (event : ServerEvent) : Prop :=
  ∃ events : List Event, (∀ event ∈ events, event.Decoded) ∧
    Simulates (server.step verifyPassword event) (events.foldl (Network.step verifyPassword) net)

theorem read_connect_decodes (result : ReadResult) (pkt : Connect) (readBuf : Bytes)
    (read : readConnect result = .ok (pkt, readBuf)) : Decodable (.connect pkt) := by
  unfold readConnect at read
  split at read
  · split at read
    · rename_i decoded
      split at read
      · cases read
        exact ⟨_, _, decoded⟩
      · cases read
    · cases read
    · cases read
    · cases read
  · cases read
  · cases read
  · cases read

theorem read_explained (server : Server) (net : Network) (simulates : Simulates server net) (socket : Nat)
    (result : ReadResult) (task : Task) (found : server.sockets[socket]? = some task) :
    Explained verifyPassword server net (.read socket result) := by
  have stepped : ∀ broker later, task.read verifyPassword server.broker result = (broker, later) →
      server.step verifyPassword (.read socket result) = ⟨broker, server.sockets.set socket later⟩ := by
    intro broker later read
    simp only [Server.step, Server.onSocket, found, read]
  have idle : ∀ later, task.read verifyPassword server.broker result = (server.broker, later) →
      (∀ handle, later.handle = some handle → ∃ before, task.handle = some before ∧
        handle = ⟨before.clientId, before.session, before.reads && handle.reads⟩) →
      Explained verifyPassword server net (.read socket result) := by
    intro later read keeps
    refine ⟨[], fun _ member => (List.not_mem_nil member).elim, ?_⟩
    rw [stepped _ _ read]
    exact idle_simulates server net simulates socket task later found keeps
  cases task with
  | accepted =>
      cases first : readConnect result with
      | error reason =>
          exact idle .finished (by simp only [Task.read, first]) (fun handle held => by cases held)
      | ok connected =>
          obtain ⟨pkt, readBuf⟩ := connected
          by_cases accepted : authenticated verifyPassword server.broker.auth pkt = true
          · refine ⟨[.connect pkt], ?_, ?_⟩
            · intro event member
              rw [List.mem_singleton.mp member]
              exact read_connect_decodes result pkt readBuf first
            · have registered : [Event.connect pkt].foldl (Network.step verifyPassword) net = net.register pkt := by
                rw [List.foldl_cons, List.foldl_nil, Network.step, simulates.broker, if_pos accepted]
              have opened : (net.register pkt).broker = (server.broker.openConnection pkt).1 := by
                rw [← simulates.broker]
                rfl
              have size : (net.register pkt).broker.heap.length = server.broker.heap.length + 1 := by
                rw [register_heap, simulates.broker, List.length_append, List.length_singleton]
              rw [registered, stepped (net.register pkt).broker (.reading pkt.clientId server.broker.heap.length readBuf)
                (by simp only [Task.read, first, if_pos accepted, opened]; rfl)]
              refine act_simulates server net (net.register pkt) simulates socket .accepted _ found (by omega) ?_ ?_
              · intro k connection held _
                exact (List.getElem?_append_left (List.getElem?_eq_some_iff.mp held).1).trans held
              · intro handle held
                cases held
                refine ⟨⟨net.connections.length, _, List.getElem?_concat_length, rfl, ?_, rfl⟩, ?_, .inr (Nat.le_refl _)⟩
                · exact (open_connection_ref net.broker pkt).trans (congrArg (·.heap.length) simulates.broker)
                · rw [size]
                  exact Nat.lt_succ_self _
          · exact idle .finished (by simp only [Task.read, first, if_neg accepted]) (fun handle held => by cases held)
  | reading clientId session readBuf =>
      have ends : ∀ handle, (Task.ending clientId session).handle = some handle →
          ∃ before, (Task.reading clientId session readBuf).handle = some before ∧
            handle = ⟨before.clientId, before.session, before.reads && handle.reads⟩ := by
        intro handle held
        cases held
        exact ⟨_, rfl, rfl⟩
      cases result with
      | failed => exact idle (.ending clientId session) rfl ends
      | timedOut => exact idle (.ending clientId session) rfl ends
      | bytes chunk =>
          cases chunk with
          | nil => exact idle (.ending clientId session) rfl ends
          | cons byte tail =>
              refine idle (.decoding clientId session (readBuf ++ byte :: tail)) rfl (fun handle held => ?_)
              cases held
              exact ⟨_, rfl, rfl⟩
  | decoding clientId session readBuf =>
      refine idle (.decoding clientId session readBuf) rfl (fun handle held => ?_)
      cases held
      exact ⟨_, rfl, rfl⟩
  | ending clientId session =>
      refine idle (.ending clientId session) rfl (fun handle held => ?_)
      cases held
      exact ⟨_, rfl, rfl⟩
  | finished => exact idle .finished rfl (fun handle held => by cases held)

theorem task_connection (server : Server) (net : Network) (simulates : Simulates server net) (socket : Nat) (task : Task)
    (found : server.sockets[socket]? = some task) (handle : Handle) (held : task.handle = some handle) :
    ∃ (k : Nat) (connection : Broker.Connection), net.connections[k]? = some connection ∧ handle.Of connection ∧
      handle.session < net.broker.heap.length ∧ ∀ (j : Nat) (other : Broker.Connection),
        net.connections[j]? = some other → (∀ mine, task.handle = some mine → other.session ≠ mine.session) → k ≠ j := by
  have mine : server.handle socket = some handle := by rw [Server.handle, found, Option.bind_some, held]
  obtain ⟨k, connection, connected, matched⟩ := simulates.tasks socket handle mine
  refine ⟨k, connection, connected, matched, simulates.broker ▸ simulates.below socket handle mine, ?_⟩
  rintro j other heldOther differs rfl
  cases connected.symm.trans heldOther
  exact differs handle held matched.2.1

theorem of_not_closed (handle : Handle) (connection : Broker.Connection) (matched : handle.Of connection) :
    connection.status ≠ .closed := by
  obtain ⟨_, _, status⟩ := matched
  split at status
  · rw [status]
    decide
  · exact status

theorem finish_explained (server : Server) (net : Network) (simulates : Simulates server net) (socket k : Nat) (task : Task)
    (found : server.sockets[socket]? = some task) (turn : ServerEvent) (ends : Event) (decoded : ends.Decoded)
    (stepped : server.step verifyPassword turn = ⟨(net.step verifyPassword ends).broker, server.sockets.set socket .finished⟩)
    (size : server.broker.heap.length ≤ (net.step verifyPassword ends).broker.heap.length)
    (others : ∀ (j : Nat) (connection : Broker.Connection), net.connections[j]? = some connection →
      (∀ handle, task.handle = some handle → connection.session ≠ handle.session) → k ≠ j)
    (kept : ∀ j, k ≠ j → (net.step verifyPassword ends).connections[j]? = net.connections[j]?) :
    Explained verifyPassword server net turn := by
  refine ⟨[ends], fun event member => List.mem_singleton.mp member ▸ decoded, ?_⟩
  rw [stepped]
  refine act_simulates server net _ simulates socket task .finished found size ?_ (fun handle held => by cases held)
  intro j connection held differs
  exact (kept j (others j connection held differs)).trans held

theorem decoded_turn (broker : BrokerState) (clientId : String) (session : SessionRef) (readBuf : Bytes) (packet : Packet)
    (bytesRead : Nat) (decoded : decodePacket readBuf = .ok (packet, bytesRead)) :
    (Task.decoding clientId session readBuf).turn broker = ((processClientPacket broker session packet).1,
      if (processClientPacket broker session packet).2.isSome then .ending clientId session
      else .decoding clientId session (readBuf.drop bytesRead)) := by
  have bounds := decode_packet_consumes readBuf packet bytesRead decoded
  simp only [Task.turn, decoded]
  obtain ⟨after, failure⟩ := processClientPacket broker session packet
  cases failure with
  | some error => rfl
  | none => exact if_pos bounds.2

theorem received_explained (server : Server) (net : Network) (simulates : Simulates server net) (socket : Nat)
    (clientId : String) (session : SessionRef) (readBuf : Bytes) (packet : Packet) (bytesRead : Nat)
    (found : server.sockets[socket]? = some (.decoding clientId session readBuf))
    (decoded : decodePacket readBuf = .ok (packet, bytesRead)) : Explained verifyPassword server net (.turn socket) := by
  obtain ⟨k, connection, connected, ⟨named, own, reading⟩, inside, others⟩ :=
    task_connection server net simulates socket _ found _ rfl
  rw [if_pos rfl] at reading
  have received : [Event.packet k packet].foldl (Network.step verifyPassword) net = net.receive k connection packet := by
    simp only [List.foldl_cons, List.foldl_nil, Network.step, Network.onConnection, connected, reading, if_true]
    rfl
  have broker : (net.receive k connection packet).broker = (processClientPacket server.broker session packet).1 := by
    rw [receive_broker, own, simulates.broker]
  have size : (net.receive k connection packet).broker.heap.length = net.broker.heap.length := by
    rw [receive_broker]
    exact (process_client_packet_evolves net.broker connection.session packet).size
  have failure : (processClientPacket net.broker connection.session packet).2 =
      (processClientPacket server.broker session packet).2 := by rw [own, simulates.broker]
  refine ⟨[.packet k packet], fun event member => List.mem_singleton.mp member ▸ ⟨_, _, decoded⟩, ?_⟩
  have turned := decoded_turn server.broker clientId session readBuf packet bytesRead decoded
  have stepped : server.step verifyPassword (.turn socket) = ⟨(net.receive k connection packet).broker,
      server.sockets.set socket (if (processClientPacket server.broker session packet).2.isSome then .ending clientId session
        else .decoding clientId session (readBuf.drop bytesRead))⟩ := by
    simp only [Server.step, Server.onSocket, found, turned, broker]
  rw [received, stepped]
  refine act_simulates server net _ simulates socket _ _ found (by rw [size, simulates.broker]) ?_ ?_
  · intro j other held differs
    have apart := others j other held differs
    unfold Network.receive
    dsimp only
    split
    · rw [set_status_other _ k j _ apart]
      exact held
    · exact held
  · intro handle held
    rw [size]
    cases failed : (processClientPacket server.broker session packet).2 with
    | some error =>
        rw [failed, Option.isSome_some, if_pos rfl] at held
        cases held
        refine ⟨⟨k, { connection with status := .ending }, ?_, named, own, by simp⟩, inside, .inl ⟨_, rfl, rfl⟩⟩
        simp [Network.receive, failure, failed, Network.setStatus, connected]
    | none =>
        rw [failed, Option.isSome_none, if_neg (by simp)] at held
        cases held
        refine ⟨⟨k, connection, ?_, named, own, by simpa using reading⟩, inside, .inl ⟨_, rfl, rfl⟩⟩
        simp [Network.receive, failure, failed, connected]

theorem turn_explained (server : Server) (net : Network) (simulates : Simulates server net) (socket : Nat) (task : Task)
    (found : server.sockets[socket]? = some task) : Explained verifyPassword server net (.turn socket) := by
  have stepped : server.step verifyPassword (.turn socket) =
      ⟨(task.turn server.broker).1, server.sockets.set socket (task.turn server.broker).2⟩ := by
    simp only [Server.step, Server.onSocket, found]
  have idle : ∀ later, task.turn server.broker = (server.broker, later) →
      (∀ handle, later.handle = some handle → ∃ before, task.handle = some before ∧
        handle = ⟨before.clientId, before.session, before.reads && handle.reads⟩) →
      Explained verifyPassword server net (.turn socket) := by
    intro later turned keeps
    refine ⟨[], fun _ member => (List.not_mem_nil member).elim, ?_⟩
    rw [stepped, turned]
    exact idle_simulates server net simulates socket task later found keeps
  cases task with
  | accepted => exact idle .accepted rfl (fun handle held => by cases held)
  | finished => exact idle .finished rfl (fun handle held => by cases held)
  | reading clientId session readBuf =>
      refine idle (.reading clientId session readBuf) rfl (fun handle held => ?_)
      cases held
      exact ⟨_, rfl, rfl⟩
  | decoding clientId session readBuf =>
      cases decoded : decodePacket readBuf with
      | ok read => exact received_explained verifyPassword server net simulates socket clientId session readBuf read.1 read.2 found decoded
      | err error =>
          have ends : ∀ handle, (Task.ending clientId session).handle = some handle →
              ∃ before, (Task.decoding clientId session readBuf).handle = some before ∧
                handle = ⟨before.clientId, before.session, before.reads && handle.reads⟩ := by
            intro handle held
            cases held
            exact ⟨_, rfl, rfl⟩
          by_cases waits : error = .incomplete
          · refine idle (.reading clientId session readBuf) (by simp only [Task.turn, decoded, waits]) (fun handle held => ?_)
            cases held
            exact ⟨_, rfl, rfl⟩
          · exact idle (.ending clientId session) (by simp only [Task.turn, decoded]) ends
      | panic =>
          obtain ⟨k, connection, connected, matched, _, others⟩ := task_connection server net simulates socket _ found _ rfl
          have panicked : net.step verifyPassword (.panic k) = net.setStatus k .closed := by
            simp only [Network.step, Network.onConnection, connected, if_neg (of_not_closed _ _ matched)]
          refine finish_explained verifyPassword server net simulates socket k _ found _ (.panic k) trivial ?_ ?_ others ?_
          · rw [stepped, panicked]
            simp only [Task.turn, decoded, Network.setStatus, simulates.broker]
          · rw [panicked, ← simulates.broker]
            exact Nat.le_refl _
          · intro j apart
            rw [panicked, set_status_other net k j _ apart]
  | ending clientId session =>
      obtain ⟨k, connection, connected, matched, _, others⟩ := task_connection server net simulates socket _ found _ rfl
      have closed : net.step verifyPassword (.close k) = net.cleanup k connection := by
        simp only [Network.step, Network.onConnection, connected, if_neg (of_not_closed _ _ matched)]
      have broker : (net.cleanup k connection).broker = server.broker.closeConnection clientId session := by
        obtain ⟨named, own, _⟩ := matched
        rw [Network.cleanup, ← simulates.broker, named, own]
        rfl
      refine finish_explained verifyPassword server net simulates socket k _ found _ (.close k) trivial ?_ ?_ others ?_
      · rw [stepped, closed, broker]
        rfl
      · rw [closed, broker, close_connection_heap, List.length_modify]
      · intro j apart
        rw [closed]
        exact set_status_other _ k j _ apart

theorem writer_explained (server : Server) (net : Network) (simulates : Simulates server net) (socket : Nat) (task : Task)
    (found : server.sockets[socket]? = some task) : Explained verifyPassword server net (.writerEnds socket) := by
  have stepped : server.step verifyPassword (.writerEnds socket) =
      ⟨(task.writerEnds server.broker).1, server.sockets.set socket (task.writerEnds server.broker).2⟩ := by
    simp only [Server.step, Server.onSocket, found]
  cases held : task.handle with
  | none =>
      refine ⟨[], fun _ member => (List.not_mem_nil member).elim, ?_⟩
      rw [stepped]
      simp only [Task.writerEnds, held]
      refine idle_simulates server net simulates socket task task found (fun handle same => ?_)
      rw [held] at same
      cases same
  | some handle =>
      obtain ⟨k, connection, connected, matched, inside, _⟩ := task_connection server net simulates socket task found handle held
      have ended : [Event.writerEnds k].foldl (Network.step verifyPassword) net =
          { net with broker := net.broker.modifySession connection.session fun session =>
              { session with receiverOpen := false } } := by
        simp only [List.foldl_cons, List.foldl_nil, Network.step, Network.onConnection, connected,
          if_neg (of_not_closed _ _ matched)]
      have size : (net.broker.modifySession connection.session fun session =>
          { session with receiverOpen := false }).heap.length = net.broker.heap.length := List.length_modify _ _ _
      refine ⟨[.writerEnds k], fun event member => List.mem_singleton.mp member ▸ trivial, ?_⟩
      have same : server.step verifyPassword (.writerEnds socket) =
          ⟨net.broker.modifySession connection.session fun session => { session with receiverOpen := false },
            server.sockets.set socket task⟩ := by
        rw [stepped]
        simp only [Task.writerEnds, held, simulates.broker, matched.2.1]
      rw [ended, same]
      refine act_simulates server net { net with broker := _ } simulates socket task task found
        (simulates.broker ▸ Nat.le_of_eq size.symm) (fun _ _ other _ => other) ?_
      intro own heldOwn
      cases held.symm.trans heldOwn
      exact ⟨⟨k, connection, connected, matched⟩, Nat.lt_of_lt_of_eq inside size.symm, .inl ⟨handle, held, rfl⟩⟩

theorem accept_simulates (server : Server) (net : Network) (simulates : Simulates server net) :
    Simulates { server with sockets := server.sockets ++ [.accepted] } net := by
  have handles : ∀ socket, ({ server with sockets := server.sockets ++ [.accepted] } : Server).handle socket =
      server.handle socket := by
    intro socket
    simp only [Server.handle]
    rcases Nat.lt_trichotomy socket server.sockets.length with old | rfl | beyond
    · rw [List.getElem?_append_left old]
    · simp [Task.handle]
    · simp [List.getElem?_eq_none (Nat.le_of_lt beyond), List.getElem?_append_right (Nat.le_of_lt beyond), Nat.sub_ne_zero_of_lt beyond]
  refine ⟨simulates.broker, ?_, ?_, ?_⟩
  · intro socket handle held
    exact simulates.tasks socket handle (handles socket ▸ held)
  · intro first second handle other held heldOther
    exact simulates.apart first second handle other (handles first ▸ held) (handles second ▸ heldOther)
  · intro socket handle held
    exact simulates.below socket handle (handles socket ▸ held)

theorem bridge_explained (server : Server) (net : Network) (simulates : Simulates server net) (readBuf : Bytes) :
    Explained verifyPassword server net (.bridgeTurn readBuf) := by
  have idle : server.step verifyPassword (.bridgeTurn readBuf) = server →
      Explained verifyPassword server net (.bridgeTurn readBuf) := fun same =>
    ⟨[], fun _ member => (List.not_mem_nil member).elim, by rw [same]; exact simulates⟩
  cases decoded : decodePacket readBuf with
  | err error => exact idle (by simp only [Server.step, decoded])
  | panic => exact idle (by simp only [Server.step, decoded])
  | ok read =>
      obtain ⟨packet, bytesRead⟩ := read
      cases packet with
      | publish pkt =>
          have published : [Event.remotePublish pkt.topic pkt.payload pkt.qos pkt.retain].foldl (Network.step verifyPassword)
              net = { net with
                broker := server.broker.routePublish "bridge_client" pkt.topic pkt.payload pkt.qos pkt.retain } := by
            rw [← simulates.broker]
            rfl
          have stepped : server.step verifyPassword (.bridgeTurn readBuf) = { server with
              broker := server.broker.routePublish "bridge_client" pkt.topic pkt.payload pkt.qos pkt.retain } := by
            simp only [Server.step, decoded]
          refine ⟨[.remotePublish pkt.topic pkt.payload pkt.qos pkt.retain], ?_, ?_⟩
          · intro event member
            rw [List.mem_singleton.mp member]
            exact ⟨pkt.dup, pkt.packetId, pkt.properties, _, _, decoded⟩
          · rw [published, stepped]
            refine ⟨rfl, simulates.tasks, simulates.apart, fun socket handle held => ?_⟩
            have size := (route_publish_evolves server.broker "bridge_client" pkt.topic pkt.payload pkt.qos pkt.retain).size
            exact size ▸ simulates.below socket handle held
      | connect _ | connAck _ | pubAck _ | subscribe _ | subAck _ | pingReq | pingResp | disconnect _ =>
          exact idle (by simp only [Server.step, decoded])

theorem step_explained (server : Server) (net : Network) (simulates : Simulates server net) (event : ServerEvent) :
    Explained verifyPassword server net event := by
  have nowhere : ∀ socket act, server.sockets[socket]? = none → server.onSocket socket act = server := by
    intro socket act missing
    simp only [Server.onSocket, missing]
  cases event with
  | accept => exact ⟨[], fun _ member => (List.not_mem_nil member).elim, accept_simulates server net simulates⟩
  | read socket result =>
      cases found : server.sockets[socket]? with
      | some task => exact read_explained verifyPassword server net simulates socket result task found
      | none => exact ⟨[], fun _ member => (List.not_mem_nil member).elim, by rw [Server.step, nowhere _ _ found]; exact simulates⟩
  | turn socket =>
      cases found : server.sockets[socket]? with
      | some task => exact turn_explained verifyPassword server net simulates socket task found
      | none => exact ⟨[], fun _ member => (List.not_mem_nil member).elim, by rw [Server.step, nowhere _ _ found]; exact simulates⟩
  | writerEnds socket =>
      cases found : server.sockets[socket]? with
      | some task => exact writer_explained verifyPassword server net simulates socket task found
      | none => exact ⟨[], fun _ member => (List.not_mem_nil member).elim, by rw [Server.step, nowhere _ _ found]; exact simulates⟩
  | bridgeTurn readBuf => exact bridge_explained verifyPassword server net simulates readBuf

theorem run_explained (server : Server) (net : Network) (simulates : Simulates server net) (run : List ServerEvent) :
    ∃ events : List Event, (∀ event ∈ events, event.Decoded) ∧
      Simulates (run.foldl (Server.step verifyPassword) server) (events.foldl (Network.step verifyPassword) net) := by
  induction run generalizing server net with
  | nil => exact ⟨[], fun _ member => (List.not_mem_nil member).elim, simulates⟩
  | cons event rest ih =>
      obtain ⟨first, early, stepped⟩ := step_explained verifyPassword server net simulates event
      obtain ⟨more, late, ran⟩ := ih _ _ stepped
      refine ⟨first ++ more, List.forall_mem_append.mpr ⟨early, late⟩, ?_⟩
      rw [List.foldl_append]
      exact ran

end Steps

def Server.boot (auth : AuthConfig) (db : Database) (bridgeSender : Option (List (String × Bytes))) : Server :=
  ⟨(Network.boot auth db bridgeSender).broker, []⟩

theorem boot_simulates (auth : AuthConfig) (db : Database) (bridgeSender : Option (List (String × Bytes))) :
    Simulates (Server.boot auth db bridgeSender) (Network.boot auth db bridgeSender) := by
  refine ⟨rfl, ?_, ?_, ?_⟩
  · exact fun socket handle held => by simp [Server.handle, Server.boot] at held
  · exact fun first second handle other held => by simp [Server.handle, Server.boot] at held
  · exact fun socket handle held => by simp [Server.handle, Server.boot] at held

theorem server_refines_network (verifyPassword : String → String → Bool) (auth : AuthConfig) (db : Database)
    (bridgeSender : Option (List (String × Bytes))) (run : List ServerEvent) :
    ∃ events : List Event, (∀ event ∈ events, event.Decoded) ∧
      Simulates (run.foldl (Server.step verifyPassword) (Server.boot auth db bridgeSender))
        (events.foldl (Network.step verifyPassword) (Network.boot auth db bridgeSender)) :=
  run_explained verifyPassword _ _ (boot_simulates auth db bridgeSender) run

-- What process_client_packet tells the loop, whatever the broker.
def verdict (_ : Unit) (packet : Packet) : Unit × Option String :=
  ((), if isConnect packet then some "Protocol violation: duplicate CONNECT" else none)

inductive Follows (packets : List Packet) (alone : LoopState String Unit) : Task → Prop where
  | reading (clientId : String) (session : SessionRef) (readBuf : Bytes) (same : alone = ⟨(), packets, .waiting readBuf⟩) :
      Follows packets alone (.reading clientId session readBuf)
  | decoding (clientId : String) (session : SessionRef) (readBuf : Bytes)
      (same : alone = innerLoop verdict () packets readBuf) : Follows packets alone (.decoding clientId session readBuf)
  | ending (clientId : String) (session : SessionRef) (exit : Exit String) (same : alone = ⟨(), packets, .stopped exit⟩) :
      Follows packets alone (.ending clientId session)
  | finished (exit : Exit String) (same : alone = ⟨(), packets, .stopped exit⟩) : Follows packets alone .finished

def Server.readBy (socket : Nat) (self : Server) : ServerEvent → List ReadResult
  | .read other result =>
      match self.sockets[other]? with
      | some (.reading _ _ _) => if other = socket then [result] else []
      | _ => []
  | _ => []

def Server.handedBy (socket : Nat) (self : Server) : ServerEvent → List Packet
  | .turn other =>
      match self.sockets[other]? with
      | some (.decoding _ _ readBuf) =>
          match decodePacket readBuf with
          | .ok (packet, _) => if other = socket then [packet] else []
          | _ => []
      | _ => []
  | _ => []

theorem on_socket_other (server : Server) (socket other : Nat) (act : Task → BrokerState × Task) (apart : other ≠ socket) :
    (server.onSocket other act).sockets[socket]? = server.sockets[socket]? := by
  unfold Server.onSocket
  split
  · exact List.getElem?_set_ne apart
  · rfl

theorem on_socket_own (server : Server) (socket : Nat) (task : Task) (found : server.sockets[socket]? = some task)
    (act : Task → BrokerState × Task) : (server.onSocket socket act).sockets[socket]? = some (act task).2 := by
  have inside := (List.getElem?_eq_some_iff.mp found).1
  simp only [Server.onSocket, found]
  simp [inside]

theorem verdict_agrees (broker : BrokerState) (session : SessionRef) (packet : Packet) (inside : session < broker.heap.length) :
    (processClientPacket broker session packet).2 = (verdict () packet).2 :=
  serve_fails_iff_connect session broker packet ⟨_, List.getElem?_eq_getElem inside⟩

theorem inner_loop_packet (packets : List Packet) (readBuf : Bytes) (packet : Packet) (bytesRead : Nat)
    (decoded : decodePacket readBuf = .ok (packet, bytesRead)) :
    innerLoop verdict () packets readBuf =
      if isConnect packet then
        ⟨(), packets ++ [packet], .stopped (.process "Protocol violation: duplicate CONNECT")⟩
      else innerLoop verdict () (packets ++ [packet]) (readBuf.drop bytesRead) := by
  rw [inner_loop_drain, inner_loop_drain, drain_item _ _ _ _ _ packet bytesRead ((decide_packet_item_iff _ _ _).mpr decoded),
    processStep, verdict]
  by_cases second : isConnect packet = true
  · simp [second]
  · simp [second]

theorem inner_loop_fails (packets : List Packet) (readBuf : Bytes) (fails : ∀ read, decodePacket readBuf ≠ .ok read)
    (complete : decodePacket readBuf ≠ .err .incomplete) :
    ∃ exit, innerLoop verdict () packets readBuf = ⟨(), packets, .stopped exit⟩ := by
  rw [innerLoop]
  split
  · rename_i decoded
    exact absurd decoded (fails _)
  · rename_i waits
    exact absurd waits complete
  · exact ⟨_, rfl⟩
  · exact ⟨_, rfl⟩

section Alone

variable (verifyPassword : String → String → Bool)

theorem read_follows (server : Server) (socket : Nat) (packets : List Packet) (alone : LoopState String Unit) (task : Task)
    (found : server.sockets[socket]? = some task) (follows : Follows packets alone task) (result : ReadResult) :
    Follows packets ((server.readBy socket (.read socket result)).foldl (readStep verdict) alone)
      (task.read verifyPassword server.broker result).2 := by
  cases follows with
  | reading clientId session readBuf same =>
      have reads : server.readBy socket (.read socket result) = [result] := by simp [Server.readBy, found]
      rw [reads, List.foldl_cons, List.foldl_nil, same]
      cases result with
      | failed => exact .ending clientId session _ rfl
      | timedOut => exact .ending clientId session _ rfl
      | bytes chunk =>
          cases chunk with
          | nil => exact .ending clientId session _ rfl
          | cons byte tail => exact .decoding clientId session _ rfl
  | decoding clientId session readBuf same =>
      have reads : server.readBy socket (.read socket result) = [] := by simp [Server.readBy, found]
      rw [reads]
      exact .decoding clientId session readBuf same
  | ending clientId session exit same =>
      have reads : server.readBy socket (.read socket result) = [] := by simp [Server.readBy, found]
      rw [reads]
      exact .ending clientId session exit same
  | finished exit same =>
      have reads : server.readBy socket (.read socket result) = [] := by simp [Server.readBy, found]
      rw [reads]
      exact .finished exit same

theorem turn_follows (server : Server) (socket : Nat) (packets : List Packet) (alone : LoopState String Unit) (task : Task)
    (found : server.sockets[socket]? = some task) (follows : Follows packets alone task)
    (inside : ∀ handle, task.handle = some handle → handle.session < server.broker.heap.length) :
    Follows (packets ++ server.handedBy socket (.turn socket)) alone (task.turn server.broker).2 := by
  cases follows with
  | reading clientId session readBuf same =>
      have silent : server.handedBy socket (.turn socket) = [] := by simp [Server.handedBy, found]
      rw [silent, List.append_nil]
      exact .reading clientId session readBuf same
  | ending clientId session exit same =>
      have silent : server.handedBy socket (.turn socket) = [] := by simp [Server.handedBy, found]
      rw [silent, List.append_nil]
      exact .finished exit same
  | finished exit same =>
      have silent : server.handedBy socket (.turn socket) = [] := by simp [Server.handedBy, found]
      rw [silent, List.append_nil]
      exact .finished exit same
  | decoding clientId session readBuf same =>
      cases decoded : decodePacket readBuf with
      | ok read =>
          obtain ⟨packet, bytesRead⟩ := read
          have handed : server.handedBy socket (.turn socket) = [packet] := by simp [Server.handedBy, found, decoded]
          have agrees : (processClientPacket server.broker session packet).2.isSome = isConnect packet := by
            rw [verdict_agrees server.broker session packet (inside _ rfl), verdict]
            cases isConnect packet with
            | true => rfl
            | false => rfl
          rw [handed, decoded_turn server.broker clientId session readBuf packet bytesRead decoded, agrees]
          rw [inner_loop_packet packets readBuf packet bytesRead decoded] at same
          by_cases second : isConnect packet = true
          · rw [if_pos second] at same
            rw [if_pos second]
            exact .ending clientId session _ same
          · rw [if_neg second] at same
            rw [if_neg second]
            exact .decoding clientId session _ same
      | err error =>
          have silent : server.handedBy socket (.turn socket) = [] := by simp [Server.handedBy, found, decoded]
          rw [silent, List.append_nil]
          by_cases waits : error = .incomplete
          · rw [inner_loop_incomplete verdict () packets readBuf (by rw [decoded, waits])] at same
            simp only [Task.turn, decoded, waits]
            exact .reading clientId session readBuf same
          · obtain ⟨exit, stopped⟩ := inner_loop_fails packets readBuf (by simp [decoded]) (by simpa [decoded] using waits)
            simp only [Task.turn, decoded]
            exact .ending clientId session exit (same.trans stopped)
      | panic =>
          have silent : server.handedBy socket (.turn socket) = [] := by simp [Server.handedBy, found, decoded]
          obtain ⟨exit, stopped⟩ := inner_loop_fails packets readBuf (by simp [decoded]) (by simp [decoded])
          rw [silent, List.append_nil]
          simp only [Task.turn, decoded]
          exact .finished exit (same.trans stopped)

theorem step_follows (server : Server) (socket : Nat) (packets : List Packet) (alone : LoopState String Unit) (task : Task)
    (found : server.sockets[socket]? = some task) (follows : Follows packets alone task)
    (inside : ∀ handle, task.handle = some handle → handle.session < server.broker.heap.length) (event : ServerEvent) :
    ∃ later, (server.step verifyPassword event).sockets[socket]? = some later ∧
      Follows (packets ++ server.handedBy socket event) ((server.readBy socket event).foldl (readStep verdict) alone) later := by
  have stays : (server.step verifyPassword event).sockets[socket]? = some task → server.handedBy socket event = [] →
      server.readBy socket event = [] → ∃ later, (server.step verifyPassword event).sockets[socket]? = some later ∧
        Follows (packets ++ server.handedBy socket event) ((server.readBy socket event).foldl (readStep verdict) alone) later := by
    intro kept silent unread
    exact ⟨task, kept, by rw [silent, unread, List.append_nil]; exact follows⟩
  cases event with
  | accept => exact stays ((List.getElem?_append_left (List.getElem?_eq_some_iff.mp found).1).trans found) rfl rfl
  | bridgeTurn readBuf =>
      refine stays ?_ rfl rfl
      simp only [Server.step]
      split
      · exact found
      · exact found
  | writerEnds other =>
      refine stays ?_ rfl rfl
      by_cases own : other = socket
      · rw [own, Server.step, on_socket_own server socket task found, Task.writerEnds]
        cases task.handle with
        | none => rfl
        | some handle => rfl
      · exact (on_socket_other server socket other _ own).trans found
  | read other result =>
      by_cases own : other = socket
      · rw [own]
        refine ⟨_, on_socket_own server socket task found _, ?_⟩
        rw [show server.handedBy socket (.read socket result) = [] from rfl, List.append_nil]
        exact read_follows verifyPassword server socket packets alone task found follows result
      · refine stays ((on_socket_other server socket other _ own).trans found) rfl ?_
        simp only [Server.readBy, if_neg own]
        split
        · rfl
        · rfl
  | turn other =>
      by_cases own : other = socket
      · rw [own]
        exact ⟨_, on_socket_own server socket task found _,
          turn_follows server socket packets alone task found follows inside⟩
      · refine stays ((on_socket_other server socket other _ own).trans found) ?_ rfl
        simp only [Server.handedBy, if_neg own]
        split
        · split
          · rfl
          · rfl
        · rfl

theorem run_follows (server : Server) (net : Network) (simulates : Simulates server net) (socket : Nat)
    (packets : List Packet) (alone : LoopState String Unit) (task : Task)
    (found : server.sockets[socket]? = some task) (follows : Follows packets alone task) (run : List ServerEvent) :
    ∃ later, (run.foldl (Server.step verifyPassword) server).sockets[socket]? = some later ∧
      Follows (packets ++ Run.outputs (Server.step verifyPassword) (Server.handedBy socket) server run)
        ((Run.outputs (Server.step verifyPassword) (Server.readBy socket) server run).foldl (readStep verdict) alone) later := by
  induction run generalizing server net packets alone task with
  | nil => exact ⟨task, found, by rw [Run.outputs, List.append_nil]; exact follows⟩
  | cons event rest ih =>
      have inside : ∀ handle, task.handle = some handle → handle.session < server.broker.heap.length := fun handle held =>
        simulates.below socket handle (by rw [Server.handle, found, Option.bind_some, held])
      obtain ⟨next, heldNext, stepped⟩ := step_follows verifyPassword server socket packets alone task found follows inside event
      obtain ⟨events, _, simulated⟩ := step_explained verifyPassword server net simulates event
      obtain ⟨later, heldLater, ran⟩ := ih _ _ simulated _ _ next heldNext stepped
      refine ⟨later, heldLater, ?_⟩
      rw [Run.outputs, Run.outputs, ← List.append_assoc, List.foldl_append]
      exact ran

end Alone

theorem follows_prefix (packets : List Packet) (alone : LoopState String Unit) (task : Task)
    (follows : Follows packets alone task) : packets <+: alone.handed := by
  cases follows with
  | reading _ _ _ same | ending _ _ _ same | finished _ same => exact same ▸ List.prefix_refl packets
  | decoding _ _ readBuf same =>
      rw [same, inner_loop_drain]
      exact drain_handed packetDecoder (processStep verdict) () packets readBuf

theorem connection_reads_alone (verifyPassword : String → String → Bool) (auth : AuthConfig) (db : Database)
    (bridgeSender : Option (List (String × Bytes))) (before after : List ServerEvent) (server : Server)
    (reached : server = before.foldl (Server.step verifyPassword) (Server.boot auth db bridgeSender)) (socket : Nat)
    (clientId : String) (session : SessionRef) (leftover : Bytes)
    (registered : server.sockets[socket]? = some (.reading clientId session leftover))
    (handed : List Packet) (isHanded : handed = Run.outputs (Server.step verifyPassword) (Server.handedBy socket) server after)
    (alone : LoopState String Unit) (isAlone : alone = mainLoop verdict () leftover
      (Run.outputs (Server.step verifyPassword) (Server.readBy socket) server after)) :
    ∃ task, (after.foldl (Server.step verifyPassword) server).sockets[socket]? = some task ∧ handed <+: alone.handed ∧
      ((∀ clientId session readBuf, task ≠ .decoding clientId session readBuf) →
        handed = alone.handed ∧ ∀ clientId session readBuf, task = .reading clientId session readBuf →
          alone.status = .waiting readBuf) := by
  obtain ⟨_, _, simulates⟩ := run_explained verifyPassword _ _ (boot_simulates auth db bridgeSender) before
  rw [← reached] at simulates
  obtain ⟨task, found, follows⟩ := run_follows verifyPassword server _ simulates socket [] ⟨(), [], .waiting leftover⟩ _
    registered (.reading clientId session leftover rfl) after
  rw [List.nil_append, ← isHanded] at follows
  have same : (Run.outputs (Server.step verifyPassword) (Server.readBy socket) server after).foldl (readStep verdict)
      ⟨(), [], .waiting leftover⟩ = alone := isAlone.symm
  rw [same] at follows
  refine ⟨task, found, follows_prefix handed alone task follows, fun settled => ?_⟩
  cases follows with
  | decoding clientId session readBuf _ => exact absurd rfl (settled clientId session readBuf)
  | reading _ _ readBuf same =>
      rw [same]
      refine ⟨rfl, fun clientId session other isReading => ?_⟩
      cases isReading
      rfl
  | ending _ _ exit same | finished exit same =>
      rw [same]
      exact ⟨rfl, fun _ _ _ isReading => by cases isReading⟩

def bothRegister : List ServerEvent :=
  [.accept, .accept, .read 0 (.bytes anonymousConnect.bytes), .read 1 (.bytes anonymousConnect.bytes)]

def pingsInPieces : List ServerEvent :=
  [.read 0 (.bytes [0xC0]), .read 1 (.bytes [0xC0, 0x00]), .turn 0, .turn 1, .read 0 (.bytes [0x00]), .turn 0, .turn 1,
    .turn 0]

theorem pings_read_alone :
    ∃ task, (pingsInPieces.foldl (Server.step fun _ _ => true)
          (bothRegister.foldl (Server.step fun _ _ => true) (Server.boot ⟨none⟩ {} none))).sockets[0]? = some task ∧
      [.pingReq] <+: (mainLoop verdict () [] [.bytes [0xC0], .bytes [0x00]]).handed ∧
      ((∀ clientId session readBuf, task ≠ .decoding clientId session readBuf) →
        [.pingReq] = (mainLoop verdict () [] [.bytes [0xC0], .bytes [0x00]]).handed ∧
          ∀ clientId session readBuf, task = .reading clientId session readBuf →
            (mainLoop verdict () [] [.bytes [0xC0], .bytes [0x00]]).status = .waiting readBuf) :=
  connection_reads_alone (fun _ _ => true) ⟨none⟩ {} none bothRegister pingsInPieces
    (bothRegister.foldl (Server.step fun _ _ => true) (Server.boot ⟨none⟩ {} none)) rfl 0 "c" 0 [] (by decide +kernel)
    [.pingReq] (by decide +kernel) _ (congrArg (mainLoop verdict () []) (by decide +kernel))

end Pipistrelle.Connection
