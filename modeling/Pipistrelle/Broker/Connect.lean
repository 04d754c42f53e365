import Pipistrelle.Broker.ClientPacket

set_option autoImplicit false

/- What handle_connection does for an accepted CONNECT and what it does at its end.
   The database task of either is in issued like that of any other operation. -/
namespace Pipistrelle.Broker

open Codec Auth

def sequenceWidth (first : UInt8) : Nat :=
  if first < 0x80 then 1
  else if 0xC2 ≤ first && first ≤ 0xDF then 2
  else if 0xE0 ≤ first && first ≤ 0xEF then 3
  else if 0xF0 ≤ first && first ≤ 0xF4 then 4
  else 0

-- The second byte excludes overlong forms, surrogates and what is past U+10FFFF.
def secondAllowed (first second : UInt8) : Bool :=
  if first = 0xE0 then 0xA0 ≤ second && second ≤ 0xBF
  else if first = 0xED then 0x80 ≤ second && second ≤ 0x9F
  else if first = 0xF0 then 0x90 ≤ second && second ≤ 0xBF
  else if first = 0xF4 then 0x80 ≤ second && second ≤ 0x8F
  else 0x80 ≤ second && second ≤ 0xBF

-- The bytes behind first that still belong to its sequence, complete or not.
def sequenceTail (first : UInt8) (rest : Bytes) : Bytes :=
  match rest.take (sequenceWidth first - 1) with
  | [] => []
  | second :: more =>
      if secondAllowed first second then second :: more.takeWhile fun byte => 0x80 ≤ byte && byte ≤ 0xBF else []

-- String::from_utf8_lossy: each maximal broken piece becomes one U+FFFD.
def fromUtf8Lossy : Bytes → String
  | [] => ""
  | first :: rest =>
      let tail := sequenceTail first rest
      (fromUtf8 (first :: tail)).getD "\uFFFD" ++ fromUtf8Lossy (rest.drop tail.length)
termination_by bytes => bytes.length
decreasing_by
  rw [List.length_drop, List.length_cons]
  omega

-- Username and password go together; without either, anonymous access is tried.
def authenticated (verifyPassword : String → String → Bool) (auth : AuthConfig) (pkt : Connect) : Bool :=
  match pkt.username, pkt.password.map fromUtf8Lossy with
  | some u, some p => auth.authenticate verifyPassword u p
  | none, none => auth.authenticate verifyPassword "" ""
  | _, _ => false

def newSession (pkt : Connect) : ClientSession where
  clientId := pkt.clientId
  username := pkt.username
  cleanStart := pkt.cleanStart
  keepAlive := pkt.keepAlive
  sessionExpiryInterval := pkt.properties.sessionExpiryInterval.getD 0

def connAckReply (reasonCode : UInt8) : Packet := .connAck ⟨false, reasonCode, {}⟩

def BrokerState.openConnection (self : BrokerState) (pkt : Connect) : BrokerState × SessionRef :=
  let allocated := self.allocate (newSession pkt)
  ((allocated.1.registerSession allocated.2).reply allocated.2 (connAckReply 0), allocated.2)

-- remove_session by client id, then the abort of the writer task.
def BrokerState.closeConnection (self : BrokerState) (clientId : String) (session : SessionRef) : BrokerState :=
  (self.removeSession clientId).modifySession session fun session => { session with receiverOpen := false }

theorem register_allocated (state : BrokerState) (session : ClientSession) :
    (state.allocate session).1.registerSession (state.allocate session).2 =
      (if 0 < session.sessionExpiryInterval then
        BrokerState.spawn { (state.allocate session).1 with sessions := state.sessions.insert session.clientId state.heap.length }
          (.saveSession session.clientId session.username session.cleanStart session.sessionExpiryInterval)
      else { (state.allocate session).1 with sessions := state.sessions.insert session.clientId state.heap.length }) := by
  simp [BrokerState.registerSession, BrokerState.allocate]

theorem open_connection_ref (state : BrokerState) (pkt : Connect) :
    (state.openConnection pkt).2 = state.heap.length := rfl

theorem open_connection_sessions (state : BrokerState) (pkt : Connect) :
    (state.openConnection pkt).1.sessions = state.sessions.insert pkt.clientId state.heap.length := by
  simp only [BrokerState.openConnection, register_allocated]
  split <;> rfl

theorem open_connection_heap (state : BrokerState) (pkt : Connect) :
    (state.openConnection pkt).1.heap = state.heap ++ [(newSession pkt).send (encodePacket (connAckReply 0))] := by
  have allocated : ((state.allocate (newSession pkt)).1.registerSession (state.allocate (newSession pkt)).2).heap =
      state.heap ++ [newSession pkt] := by
    rw [register_allocated]
    split <;> rfl
  have opened : (state.openConnection pkt).1.heap = ((state.allocate (newSession pkt)).1.registerSession
      (state.allocate (newSession pkt)).2).heap.modify state.heap.length (·.send (encodePacket (connAckReply 0))) := rfl
  rw [opened, allocated, List.modify_eq_take_cons_drop (by simp)]
  simp

theorem open_connection_router (state : BrokerState) (pkt : Connect) :
    (state.openConnection pkt).1.router = state.router := by
  simp only [BrokerState.openConnection, register_allocated]
  split <;> rfl

theorem open_connection_issued (state : BrokerState) (pkt : Connect) :
    ∃ writes, (state.openConnection pkt).1.issued = state.issued ++ writes ∧
      ∀ write ∈ writes, ∀ clientId, write ≠ .deleteSession clientId := by
  simp only [BrokerState.openConnection, register_allocated]
  split
  · exact ⟨[_], rfl, by simp⟩
  · exact ⟨[], (List.append_nil _).symm, by simp⟩

theorem close_connection_sessions (state : BrokerState) (clientId other : String) (session : SessionRef) :
    (state.closeConnection clientId session).sessions.get other =
      if clientId = other then none else state.sessions.get other := by
  have removed : (state.closeConnection clientId session).sessions = (state.removeSession clientId).sessions := rfl
  rw [removed]
  unfold BrokerState.removeSession
  cases get : state.sessions.get clientId with
  | none =>
      by_cases same : clientId = other
      · rw [if_pos same, ← same]
        exact get
      · rw [if_neg same]
  | some ref =>
      rw [← Assoc.get_remove]
      dsimp only
      split
      · rfl
      · split <;> rfl

theorem close_connection_issued (state : BrokerState) (clientId : String) (session : SessionRef) :
    ∃ writes, (state.closeConnection clientId session).issued = state.issued ++ writes ∧
      ∀ write ∈ writes, write = .deleteSession clientId := by
  have removed : (state.closeConnection clientId session).issued = (state.removeSession clientId).issued := rfl
  rw [removed]
  unfold BrokerState.removeSession
  cases state.sessions.get clientId with
  | none => exact ⟨[], (List.append_nil _).symm, by simp⟩
  | some ref =>
      dsimp only
      split
      · exact ⟨[], (List.append_nil _).symm, by simp⟩
      · split
        · exact ⟨[_], rfl, by simp⟩
        · exact ⟨[], (List.append_nil _).symm, by simp⟩

end Pipistrelle.Broker
