import Pipistrelle.Broker.GrantedQos
import Pipistrelle.Broker.Outbox

set_option autoImplicit false

/- graceful_shutdown in src/session.rs. The broker says goodbye to the sessions in its
   map and serves on until main returns, so that the farewell stands somewhere in the
   stream of a client and not at its end. -/
namespace Pipistrelle.Broker

open Codec Router Auth

def farewell : Packet := .disconnect ⟨0, {}⟩

-- order is the order in which the HashMap hands out its entries.
def BrokerState.gracefulShutdown (self : BrokerState) (order : List (String × SessionRef)) : BrokerState :=
  order.foldl (fun self entry => self.modifySession entry.2 fun session => session.send (encodePacket farewell)) self

def Network.gracefulShutdown (self : Network) (order : List (String × SessionRef)) : Network :=
  { self with broker := self.broker.gracefulShutdown order }

def BrokerState.Current (self : BrokerState) (ref : SessionRef) (session : ClientSession) : Prop :=
  self.sessions.get session.clientId = some ref

instance (state : BrokerState) (ref : SessionRef) (session : ClientSession) : Decidable (state.Current ref session) :=
  inferInstanceAs (Decidable (_ = _))

theorem shutdown_modifies (state : BrokerState) (order : List (String × SessionRef)) :
    state.gracefulShutdown order = { state with heap := (state.gracefulShutdown order).heap } ∧
      ∀ ref : SessionRef, (state.gracefulShutdown order).heap[ref]? = (state.heap[ref]?).map fun session =>
        (fun session => session.send (encodePacket farewell))^[(order.map Prod.snd).count ref] session := by
  induction order generalizing state with
  | nil => exact ⟨rfl, fun ref => by simp [BrokerState.gracefulShutdown]⟩
  | cons entry rest ih =>
      obtain ⟨frame, heap⟩ := ih (state.modifySession entry.2 fun session => session.send (encodePacket farewell))
      refine ⟨frame, fun ref => (heap ref).trans ?_⟩
      rw [modify_session_heap, List.map_cons, List.count_cons]
      by_cases here : entry.2 = ref
      · simp [here, Function.comp_def]
      · simp [here]

theorem shutdown_state (state : BrokerState) (named : state.Named) (order : List (String × SessionRef))
    (entries : order.Perm state.sessions.entries) :
    state.gracefulShutdown order = { state with
      heap := state.heap.mapIdx fun ref session =>
        if state.Current ref session then session.send (encodePacket farewell) else session } := by
  obtain ⟨frame, heap⟩ := shutdown_modifies state order
  rw [frame]
  congr 1
  apply List.ext_getElem?
  intro ref
  rw [heap, List.getElem?_mapIdx]
  cases held : state.heap[ref]? with
  | none => rfl
  | some session =>
      have own : ∀ clientId, state.sessions.get clientId = some ref → clientId = session.clientId := by
        intro clientId get
        obtain ⟨owner, found, name⟩ := named clientId ref get
        rw [held] at found
        cases found
        exact name.symm
      have count : (order.map Prod.snd).count ref = if state.Current ref session then 1 else 0 :=
        ((entries.map Prod.snd).count_eq ref).trans (state.sessions.count_value session.clientId ref own)
      rw [Option.map_some, Option.map_some, count]
      split
      · rfl
      · rfl

def BrokerState.farewells (self : BrokerState) (ref : SessionRef) : List Packet :=
  if (self.heap[ref]?).any fun session => self.Current ref session ∧ session.receiverOpen then [farewell] else []

theorem shutdown_session (state : BrokerState) (named : state.Named) (order : List (String × SessionRef))
    (entries : order.Perm state.sessions.entries) (ref : SessionRef) (session : ClientSession)
    (held : state.heap[ref]? = some session) :
    ∃ told, (state.gracefulShutdown order).heap[ref]? = some told ∧ told.receiverOpen = session.receiverOpen ∧
      told.nextPacketId = session.nextPacketId ∧
      told.sent = session.sent ++ (state.farewells ref).map encodePacket := by
  have farewells : state.farewells ref =
      if state.Current ref session ∧ session.receiverOpen = true then [farewell] else [] := by
    simp [BrokerState.farewells, held]
  rw [shutdown_state state named order entries, farewells]
  dsimp only
  rw [List.getElem?_mapIdx, held]
  refine ⟨if state.Current ref session then session.send (encodePacket farewell) else session, rfl, ?_⟩
  by_cases current : state.Current ref session
  · rw [if_pos current, send_sent]
    refine ⟨by rw [send_keeps], by rw [send_keeps], ?_⟩
    by_cases isOpen : session.receiverOpen = true
    · rw [if_pos isOpen, if_pos ⟨current, isOpen⟩]
      rfl
    · rw [if_neg isOpen, if_neg (fun both => isOpen both.2)]
      exact (List.append_nil _).symm
  · rw [if_neg current, if_neg (fun both => current both.1)]
    exact ⟨rfl, rfl, (List.append_nil _).symm⟩

def pinging : List Event := [.packet 0 .pingReq]

theorem pinging_decoded : ∀ event ∈ pinging, event.Decoded := by
  intro event member
  rw [List.mem_singleton.mp member]
  exact ⟨[0xC0, 0x00], 2, by decide⟩

end Pipistrelle.Broker
