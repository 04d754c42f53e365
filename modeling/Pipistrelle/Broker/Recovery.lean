import Pipistrelle.Broker.WriteOrder
import Pipistrelle.Lib.Run
import Pipistrelle.Router.Replay

set_option autoImplicit false

/- restore_sessions_from_db of src/session.rs, on tables that can be read: a SELECT
   yields the rows in the order of their row ids. The restored sessions are offline,
   the receiving end of their channels is dropped at once. -/
namespace Pipistrelle.Broker

open Codec Router Auth LastWrites

def offlineSession (clientId : String) (row : SessionRow) : ClientSession where
  clientId := clientId
  username := row.username
  cleanStart := row.cleanStart
  keepAlive := 0
  sessionExpiryInterval := row.sessionExpiryInterval
  receiverOpen := false

def BrokerState.restoreSession (self : BrokerState) (row : String × SessionRow) : BrokerState :=
  let allocated := self.allocate (offlineSession row.1 row.2)
  { allocated.1 with sessions := allocated.1.sessions.insert row.1 allocated.2 }

def BrokerState.restoreSubscription (self : BrokerState) (row : (String × String) × SubscriptionRow) : BrokerState :=
  { self with router := Router.subscribe self.router row.1.1 row.1.2 row.2.qos row.2.subId }

-- A message of a client without a session is not restored.
def BrokerState.restoreInFlight (self : BrokerState) (row : (String × UInt16) × InFlightRow) : BrokerState :=
  match self.sessions.get row.1.1 with
  | some ref => self.modifySession ref (·.addInFlight row.1.2 row.2.topic row.2.payload row.2.qos)
  | none => self

def BrokerState.restoreSessionsFromDb (self : BrokerState) (db : Database) : BrokerState :=
  let self := db.sessions.entries.foldl restoreSession self
  let self := db.subscriptions.entries.foldl restoreSubscription self
  db.inFlight.entries.foldl restoreInFlight self

def BrokerState.accept (self : BrokerState) (call : Call) : BrokerState :=
  self.subscribe call.clientId call.topicFilter call.qos call.subscriptionIdentifier

def saveCall (call : Call) : StoredWrite :=
  .saveSubscription call.clientId call.topicFilter call.qos call.subscriptionIdentifier

def callRow (call : Call) : (String × String) × SubscriptionRow := (call.name, ⟨call.qos, call.subscriptionIdentifier⟩)

theorem accept_calls (calls : List Call) (state : BrokerState) :
    (calls.foldl BrokerState.accept state).router = calls.foldl TrieNode.accept state.router ∧
      (calls.foldl BrokerState.accept state).issued = state.issued ++ calls.map saveCall := by
  induction calls generalizing state with
  | nil => exact ⟨rfl, (List.append_nil _).symm⟩
  | cons call rest ih =>
      obtain ⟨router, issued⟩ := ih (state.accept call)
      have accepted : (state.accept call).router = state.router.accept call :=
        subscribe_router state call.clientId call.topicFilter call.qos call.subscriptionIdentifier
      rw [List.foldl_cons, List.foldl_cons, router, accepted, issued, List.map_cons]
      exact ⟨rfl, List.append_assoc _ _ _⟩

theorem stored_calls (calls : List Call) (db : Database) (empty : db.subscriptions.entries = []) :
    ((calls.map saveCall).foldl Database.exec db).subscriptions.entries = (settle Call.name calls).map callRow := by
  have folded : ∀ (calls : List Call) (db : Database),
      ((calls.map saveCall).foldl Database.exec db).subscriptions.entries =
        (calls.map callRow).foldl (moveToEnd Prod.fst) db.subscriptions.entries := by
    intro calls
    induction calls with
    | nil => exact fun _ => rfl
    | cons call rest ih =>
        intro db
        have row : (db.exec (saveCall call)).subscriptions.entries =
            moveToEnd Prod.fst db.subscriptions.entries (callRow call) := replace_entries db.subscriptions call.name _
        rw [List.map_cons, List.map_cons, List.foldl_cons, List.foldl_cons, ih, row]
  rw [folded, empty, fold_moves, settle_map]
  rfl

def rowCall (row : (String × String) × SubscriptionRow) : Call := ⟨row.1.1, row.1.2, row.2.qos, row.2.subId⟩

theorem restore_rows (rows : List ((String × String) × SubscriptionRow)) (state : BrokerState) :
    rows.foldl BrokerState.restoreSubscription state =
      { state with router := (rows.map rowCall).foldl TrieNode.accept state.router } := by
  induction rows generalizing state with
  | nil => rfl
  | cons row rest ih =>
      have restored : state.restoreSubscription row = { state with router := state.router.accept (rowCall row) } := by
        rw [BrokerState.restoreSubscription, TrieNode.accept, rowCall]
      rw [List.foldl_cons, ih, restored, List.map_cons, List.foldl_cons]

theorem restart_keeps_routing (state restarted : BrokerState) (db : Database) (calls : List Call) :
    let served := calls.foldl BrokerState.accept { state with router := {}, issued := [] }
    let stored := served.issued.foldl Database.exec { db with subscriptions := {} }
    let restored := stored.subscriptions.entries.foldl BrokerState.restoreSubscription { restarted with router := {} }
    (∀ topic, SameRoute (matchTopic restored.router topic) (matchTopic served.router topic)) ∧
      ∀ path group, (trieShape.valueAt path restored.router).sharedSubscriptions.get group =
        (trieShape.valueAt path served.router).sharedSubscriptions.get group := by
  intro served stored restored
  obtain ⟨router, issued⟩ := accept_calls calls { state with router := {}, issued := [] }
  have rows : stored.subscriptions.entries = (settle Call.name calls).map callRow := by
    have writes : served.issued = calls.map saveCall := issued
    rw [show stored = served.issued.foldl Database.exec { db with subscriptions := {} } from rfl, writes]
    exact stored_calls calls _ rfl
  have again : restored.router = fill (settle Call.name calls) := by
    rw [show restored = stored.subscriptions.entries.foldl BrokerState.restoreSubscription { restarted with router := {} }
      from rfl, rows, restore_rows, List.map_map]
    exact congrArg fill (List.map_id _)
  have before : served.router = fill calls := router
  rw [again, before]
  exact replay_same calls

structure Host where
  broker : BrokerState
  stored : Database

inductive HostEvent where
  | operation (op : Operation)
  -- The broker is lost when that many statements of its writes have been executed, and another one starts.
  | crash (executed : Nat)

def Host.boot (auth : AuthConfig) (stored : Database) : Host := ⟨BrokerState.restoreSessionsFromDb { auth } stored, stored⟩

def Host.statements (self : Host) : List Statement := self.broker.issued.flatMap StoredWrite.statements

def Host.tablesAfter (self : Host) (executed : Nat) : Database :=
  (self.statements.take executed).foldl Database.execute self.stored

def Host.tables (self : Host) : Database := self.statements.foldl Database.execute self.stored

def Host.step (self : Host) : HostEvent → Host
  | .operation op => { self with broker := self.broker.perform op }
  | .crash executed => Host.boot self.broker.auth (self.tablesAfter executed)

structure Linked (db : Database) : Prop where
  subscriptions : ∀ clientId topicFilter, (db.subscriptions.get (clientId, topicFilter)).isSome = true →
    (db.sessions.get clientId).isSome = true
  inFlight : ∀ clientId packetId, (db.inFlight.get (clientId, packetId)).isSome = true →
    (db.sessions.get clientId).isSome = true

def RouterOwned (broker : BrokerState) : Prop :=
  ∀ path group, ∀ sub ∈ (trieShape.valueAt path broker.router).infos group, (broker.sessions.get sub.clientId).isSome = true

-- Wherever the broker is lost, neither the tables nor the next broker's router hold an orphan.
def Host.RecoversClean (self : Host) : Prop :=
  ∀ executed, RouterOwned (self.step (.crash executed)).broker ∧ Linked (self.tablesAfter executed)

theorem restore_session_sessions (rows : List (String × SessionRow)) (state : BrokerState) (clientId : String) :
    ((rows.foldl BrokerState.restoreSession state).sessions.get clientId).isSome = true ↔
      (state.sessions.get clientId).isSome = true ∨ clientId ∈ rows.map Prod.fst := by
  induction rows generalizing state with
  | nil => simp
  | cons row rest ih =>
      have restored : (state.restoreSession row).sessions = state.sessions.insert row.1 state.heap.length := rfl
      rw [List.foldl_cons, ih, restored, Assoc.get_insert, List.map_cons, List.mem_cons]
      by_cases here : row.1 = clientId
      · simp [here]
      · rw [if_neg here]
        simp [Ne.symm here]

theorem restore_session_router (rows : List (String × SessionRow)) (state : BrokerState) :
    (rows.foldl BrokerState.restoreSession state).router = state.router := by
  induction rows generalizing state with
  | nil => rfl
  | cons row rest ih => exact ih _

theorem restore_in_flight_keeps (rows : List ((String × UInt16) × InFlightRow)) (state : BrokerState) :
    (rows.foldl BrokerState.restoreInFlight state).sessions = state.sessions ∧
      (rows.foldl BrokerState.restoreInFlight state).router = state.router := by
  have one : ∀ (state : BrokerState) row, (state.restoreInFlight row).sessions = state.sessions ∧
      (state.restoreInFlight row).router = state.router := by
    intro state row
    unfold BrokerState.restoreInFlight
    split <;> exact ⟨rfl, rfl⟩
  induction rows generalizing state with
  | nil => exact ⟨rfl, rfl⟩
  | cons row rest ih =>
      rw [List.foldl_cons, (ih _).1, (ih _).2]
      exact one state row

theorem boot_sessions (auth : AuthConfig) (db : Database) (clientId : String) :
    ((Host.boot auth db).broker.sessions.get clientId).isSome = true ↔ (db.sessions.get clientId).isSome = true := by
  have keys : clientId ∈ db.sessions.entries.map Prod.fst ↔ (db.sessions.get clientId).isSome = true := by
    rw [Option.isSome_iff_exists]
    constructor
    · intro member
      obtain ⟨⟨_, row⟩, inside, rfl⟩ := List.mem_map.mp member
      exact ⟨row, (db.sessions.mem_entries_iff _ _).mp inside⟩
    · intro ⟨row, get⟩
      exact List.mem_map.mpr ⟨_, (db.sessions.mem_entries_iff _ _).mpr get, rfl⟩
  rw [Host.boot, BrokerState.restoreSessionsFromDb]
  dsimp only
  rw [(restore_in_flight_keeps _ _).1, restore_rows, restore_session_sessions, keys]
  simp

theorem boot_router (auth : AuthConfig) (db : Database) :
    (Host.boot auth db).broker.router = fill (db.subscriptions.entries.map rowCall) := by
  rw [Host.boot, BrokerState.restoreSessionsFromDb]
  dsimp only
  rw [(restore_in_flight_keeps _ _).2, restore_rows, restore_session_router]
  rfl

theorem restored_sessions (property : ClientSession → Prop) (offline : ∀ clientId row, property (offlineSession clientId row))
    (added : ∀ session packetId topic payload qos, property session →
      property (session.addInFlight packetId topic payload qos))
    (auth : AuthConfig) (db : Database) : ∀ session ∈ (Host.boot auth db).broker.heap, property session := by
  have sessions : ∀ (rows : List (String × SessionRow)) (state : BrokerState), (∀ session ∈ state.heap, property session) →
      ∀ session ∈ (rows.foldl BrokerState.restoreSession state).heap, property session := by
    intro rows
    induction rows with
    | nil => exact fun _ all => all
    | cons row rest ih =>
        intro state all
        refine ih _ fun session member => ?_
        rcases List.mem_append.mp member with old | new
        · exact all session old
        · rw [List.mem_singleton.mp new]
          exact offline row.1 row.2
  have inFlight : ∀ (rows : List ((String × UInt16) × InFlightRow)) (state : BrokerState),
      (∀ session ∈ state.heap, property session) →
        ∀ session ∈ (rows.foldl BrokerState.restoreInFlight state).heap, property session := by
    intro rows
    induction rows with
    | nil => exact fun _ all => all
    | cons row rest ih =>
        intro state all
        refine ih _ fun session member => ?_
        unfold BrokerState.restoreInFlight at member
        split at member
        · rename_i ref _
          obtain ⟨n, held⟩ := List.mem_iff_getElem?.mp member
          rw [BrokerState.modifySession, List.getElem?_modify] at held
          obtain ⟨before, heldBefore, rfl⟩ := Option.map_eq_some_iff.mp held
          have old := all before (List.mem_iff_getElem?.mpr ⟨n, heldBefore⟩)
          split
          · exact added _ _ _ _ _ old
          · exact old
        · exact all session member
  rw [Host.boot, BrokerState.restoreSessionsFromDb]
  dsimp only
  refine inFlight _ _ ?_
  rw [restore_rows]
  exact sessions _ _ (by simp)

theorem boot_router_owned (auth : AuthConfig) (db : Database) (linked : Linked db) : RouterOwned (Host.boot auth db).broker := by
  intro path group sub member
  rw [boot_sessions]
  rw [boot_router] at member
  have refines := fill_refines (db.subscriptions.entries.map rowCall)
  have row := (mem_infos_iff _ (refines.valid path) group sub.clientId sub).mp ⟨member, rfl⟩
  rw [refines.rows, fill_table_get, Option.map_map, Option.map_eq_some_iff] at row
  obtain ⟨call, last, _⟩ := row
  obtain ⟨inCalls, named⟩ := List.mem_filter.mp (List.mem_of_getLast? last)
  obtain ⟨⟨⟨clientId, topicFilter⟩, stored⟩, inRows, rfl⟩ := List.mem_map.mp inCalls
  have get := (db.subscriptions.mem_entries_iff _ _).mp inRows
  have same : clientId = sub.clientId := congrArg Key.clientId (of_decide_eq_true named)
  rw [← same]
  exact linked.subscriptions clientId topicFilter (by rw [get]; rfl)

theorem recovers_clean_iff (host : Host) :
    host.RecoversClean ↔ Run.Always Database.execute Linked host.stored host.statements := by
  rw [Run.always_iff_prefixes]
  constructor
  · exact fun clean n => (clean n).2
  · exact fun linked n => ⟨boot_router_owned _ _ (linked n), linked n⟩

def Rowless (db : Database) (clientId : String) : Prop :=
  (∀ topicFilter, db.subscriptions.get (clientId, topicFilter) = none) ∧
    ∀ packetId, db.inFlight.get (clientId, packetId) = none

def Statement.KeepsLinks (db : Database) : Statement → Prop
  | .deleteSessionsOf clientId => Rowless db clientId
  | .insertSubscription clientId _ _ => (db.sessions.get clientId).isSome = true
  | .insertInFlight clientId _ _ => (db.sessions.get clientId).isSome = true
  | _ => True

theorem some_of_if {α : Type} (hit : Prop) [Decidable hit] (held : Option α)
    (present : (if hit then none else held).isSome = true) : held.isSome = true ∧ ¬hit := by
  by_cases here : hit
  · rw [if_pos here] at present
    cases present
  · rw [if_neg here] at present
    exact ⟨present, here⟩

theorem insert_linked_iff {κ ν : Type} [DecidableEq κ] (sessions : String → Prop) (owner : κ → String)
    (held : Assoc κ ν) (linked : ∀ key, (held.get key).isSome = true → sessions (owner key)) (key : κ) (row : ν) :
    (∀ other, ((held.replace key row).get other).isSome = true → sessions (owner other)) ↔ sessions (owner key) := by
  constructor
  · intro all
    exact all key (by rw [Assoc.get_replace, if_pos rfl]; rfl)
  · intro own other present
    rw [Assoc.get_replace] at present
    by_cases here : key = other
    · rw [← here]
      exact own
    · rw [if_neg here] at present
      exact linked other present

theorem execute_linked_iff (db : Database) (statement : Statement) (linked : Linked db) :
    Linked (db.execute statement) ↔ statement.KeepsLinks db := by
  cases statement with
  | insertSession clientId row =>
      have more : ∀ other, (db.sessions.get other).isSome = true →
          ((db.sessions.replace clientId row).get other).isSome = true := by
        intro other present
        rw [Assoc.get_replace]
        split
        · rfl
        · exact present
      refine iff_of_true ⟨?_, ?_⟩ trivial
      · exact fun other topicFilter present => more other (linked.subscriptions other topicFilter present)
      · exact fun other packetId present => more other (linked.inFlight other packetId present)
  | deleteSessionsOf clientId =>
      constructor
      · intro after
        have gone : ¬(((db.execute (.deleteSessionsOf clientId)).sessions.get clientId).isSome = true) := by
          rw [Database.execute, Assoc.get_remove, if_pos rfl]
          exact Bool.false_ne_true
        constructor
        · exact fun topicFilter => Option.not_isSome_iff_eq_none.mp fun row => gone (after.subscriptions _ topicFilter row)
        · exact fun packetId => Option.not_isSome_iff_eq_none.mp fun row => gone (after.inFlight _ packetId row)
      · intro rowless
        have kept : ∀ other, clientId ≠ other → (db.sessions.get other).isSome = true →
            ((db.execute (.deleteSessionsOf clientId)).sessions.get other).isSome = true := by
          intro other differs present
          rw [Database.execute, Assoc.get_remove, if_neg differs]
          exact present
        constructor
        · intro other topicFilter present
          refine kept other ?_ (linked.subscriptions other topicFilter present)
          intro same
          subst same
          simp [Database.execute, rowless.1] at present
        · intro other packetId present
          refine kept other ?_ (linked.inFlight other packetId present)
          intro same
          subst same
          simp [Database.execute, rowless.2] at present
  | insertSubscription clientId topicFilter row =>
      have all := insert_linked_iff (fun owner => (db.sessions.get owner).isSome = true) Prod.fst db.subscriptions
        (fun key => linked.subscriptions key.1 key.2) (clientId, topicFilter) row
      refine (Iff.intro ?_ ?_).trans all
      · exact fun after key => after.subscriptions key.1 key.2
      · exact fun every => ⟨fun owner filter => every (owner, filter), linked.inFlight⟩
  | insertInFlight clientId packetId row =>
      have all := insert_linked_iff (fun owner => (db.sessions.get owner).isSome = true) Prod.fst db.inFlight
        (fun key => linked.inFlight key.1 key.2) (clientId, packetId) row
      refine (Iff.intro ?_ ?_).trans all
      · exact fun after key => after.inFlight key.1 key.2
      · exact fun every => ⟨linked.subscriptions, fun owner pid => every (owner, pid)⟩
  | deleteSubscription clientId topicFilter =>
      refine iff_of_true ⟨fun other filter present => ?_, linked.inFlight⟩ trivial
      rw [Database.execute, Assoc.get_remove] at present
      exact linked.subscriptions other filter (some_of_if _ _ present).1
  | deleteSubscriptionsOf clientId =>
      refine iff_of_true ⟨fun other filter present => ?_, linked.inFlight⟩ trivial
      rw [Database.execute, Assoc.get_remove_where] at present
      exact linked.subscriptions other filter (some_of_if _ _ present).1
  | deleteInFlight clientId packetId =>
      refine iff_of_true ⟨linked.subscriptions, fun other pid present => ?_⟩ trivial
      rw [Database.execute, Assoc.get_remove] at present
      exact linked.inFlight other pid (some_of_if _ _ present).1
  | deleteInFlightOf clientId =>
      refine iff_of_true ⟨linked.subscriptions, fun other pid present => ?_⟩ trivial
      rw [Database.execute, Assoc.get_remove_where] at present
      exact linked.inFlight other pid (some_of_if _ _ present).1

def StoredWrite.KeepsLinks (db : Database) : StoredWrite → Prop
  | .deleteSession clientId => Rowless db clientId
  | .saveSubscription clientId _ _ _ => (db.sessions.get clientId).isSome = true
  | .saveInFlight clientId _ _ _ _ => (db.sessions.get clientId).isSome = true
  | _ => True

theorem statements_linked_iff (db : Database) (write : StoredWrite) (linked : Linked db) :
    Run.Always Database.execute Linked db write.statements ↔ write.KeepsLinks db := by
  have each := Run.always_iff_throughout Database.execute Linked Statement.KeepsLinks
    (fun db statement linked => execute_linked_iff db statement linked) db write.statements linked
  rw [each]
  cases write with
  | deleteSession clientId => exact and_iff_left ⟨trivial, trivial, trivial⟩
  | _ => exact and_iff_left trivial

def Operation.write (broker : BrokerState) : Operation → Option StoredWrite
  | .registerSession session =>
      if 0 < session.sessionExpiryInterval then
        some (.saveSession session.clientId session.username session.cleanStart session.sessionExpiryInterval)
      else none
  | .removeSession clientId =>
      (broker.registered clientId).bind fun session =>
        if session.cleanStart || session.sessionExpiryInterval == 0 then some (.deleteSession clientId) else none
  | .subscribe clientId topicFilter qos subscriptionIdentifier =>
      some (.saveSubscription clientId topicFilter qos subscriptionIdentifier)
  | .unsubscribe clientId topicFilter =>
      if (Router.unsubscribe broker.router clientId topicFilter).2 then some (.deleteSubscription clientId topicFilter)
      else none
  | .sendPublishToClient clientId topic payload qos _ _ =>
      if 0 < qos then
        (broker.registered clientId).map fun session =>
          .saveInFlight clientId session.getNextPacketId.1 topic payload qos
      else none
  | .pubAck session packetId =>
      (broker.heap[session]?).map fun session => .deleteInFlight session.clientId packetId

theorem perform_write (broker : BrokerState) (op : Operation) :
    (broker.perform op).issued = broker.issued ++ (op.write broker).toList := by
  cases op with
  | registerSession session =>
      simp only [BrokerState.perform, register_allocated, Operation.write]
      split
      · rfl
      · exact (List.append_nil _).symm
  | removeSession clientId =>
      simp only [BrokerState.perform, BrokerState.removeSession, Operation.write, BrokerState.registered]
      cases broker.sessions.get clientId with
      | none => exact (List.append_nil _).symm
      | some ref =>
          simp only [Option.bind_some]
          cases broker.heap[ref]? with
          | none => exact (List.append_nil _).symm
          | some session =>
              simp only [Option.bind_some]
              split
              · rfl
              · exact (List.append_nil _).symm
  | subscribe clientId topicFilter qos subscriptionIdentifier => rfl
  | unsubscribe clientId topicFilter =>
      simp only [BrokerState.perform, BrokerState.unsubscribe, Operation.write]
      split
      · rfl
      · exact (List.append_nil _).symm
  | sendPublishToClient clientId topic payload qos retain subscriptionIdentifier =>
      simp only [BrokerState.perform, BrokerState.sendPublishToClient, Operation.write, BrokerState.registered]
      cases broker.sessions.get clientId with
      | none => simp
      | some ref =>
          simp only [Option.bind_some]
          cases broker.heap[ref]? with
          | none => simp
          | some session =>
              dsimp only
              split
              · rfl
              · exact (List.append_nil _).symm
  | pubAck session packetId =>
      simp only [BrokerState.perform, processClientPacket, Operation.write]
      cases broker.heap[session]? with
      | none => exact (List.append_nil _).symm
      | some session => rfl

def Host.KeepsLinks (self : Host) : HostEvent → Prop
  | .operation (.removeSession clientId) => ∀ session, self.broker.registered clientId = some session →
      session.cleanStart = true ∨ session.sessionExpiryInterval = 0 → Rowless self.tables clientId
  | .operation (.subscribe clientId _ _ _) => (self.tables.sessions.get clientId).isSome = true
  | .operation (.sendPublishToClient clientId _ _ qos _ _) => 0 < qos →
      (self.broker.registered clientId).isSome = true → (self.tables.sessions.get clientId).isSome = true
  | _ => True

theorem write_keeps_links_iff (host : Host) (op : Operation) :
    (∀ write, op.write host.broker = some write → write.KeepsLinks host.tables) ↔ host.KeepsLinks (.operation op) := by
  cases op with
  | registerSession session =>
      refine iff_of_true ?_ trivial
      intro write issued
      simp only [Operation.write] at issued
      split at issued
      · cases issued
        trivial
      · cases issued
  | removeSession clientId =>
      constructor
      · intro keeps session held removes
        refine keeps (.deleteSession clientId) ?_
        rw [Operation.write, held, Option.bind_some, if_pos (by simpa using removes)]
      · intro keeps write issued
        obtain ⟨session, held, written⟩ := Option.bind_eq_some_iff.mp issued
        split at written
        · rename_i removes
          cases written
          exact keeps session held (by simpa using removes)
        · cases written
  | subscribe clientId topicFilter qos subscriptionIdentifier =>
      constructor
      · exact fun keeps => keeps _ rfl
      · intro keeps write issued
        cases issued
        exact keeps
  | unsubscribe clientId topicFilter =>
      refine iff_of_true ?_ trivial
      intro write issued
      simp only [Operation.write] at issued
      split at issued
      · cases issued
        trivial
      · cases issued
  | sendPublishToClient clientId topic payload qos retain subscriptionIdentifier =>
      simp only [Operation.write, Host.KeepsLinks]
      by_cases acknowledged : 0 < qos
      · simp only [if_pos acknowledged]
        cases host.broker.registered clientId with
        | none => simp
        | some session =>
            constructor
            · exact fun keeps _ _ => keeps _ rfl
            · intro keeps write issued
              cases issued
              exact keeps acknowledged rfl
      · simp [acknowledged]
  | pubAck session packetId =>
      refine iff_of_true ?_ trivial
      intro write issued
      obtain ⟨_, _, rfl⟩ := Option.map_eq_some_iff.mp issued
      trivial

theorem boot_keeps {α : Type} (field : BrokerState → α)
    (kept : ∀ (state : BrokerState) (router : TrieNode) (sessions : Assoc String SessionRef) (heap : List ClientSession),
      field { state with router, sessions, heap } = field state) (auth : AuthConfig) (db : Database) :
    field (Host.boot auth db).broker = field { auth } := by
  have sessions : ∀ (rows : List (String × SessionRow)) (state : BrokerState),
      field (rows.foldl BrokerState.restoreSession state) = field state := by
    intro rows
    induction rows with
    | nil => exact fun _ => rfl
    | cons row rest ih => exact fun state => (ih _).trans (kept state _ _ _)
  have inFlight : ∀ (rows : List ((String × UInt16) × InFlightRow)) (state : BrokerState),
      field (rows.foldl BrokerState.restoreInFlight state) = field state := by
    intro rows
    induction rows with
    | nil => exact fun _ => rfl
    | cons row rest ih =>
        intro state
        rw [List.foldl_cons, ih, BrokerState.restoreInFlight]
        split
        · exact kept state _ _ _
        · rfl
  rw [Host.boot, BrokerState.restoreSessionsFromDb]
  dsimp only
  rw [inFlight, restore_rows, kept _ _ _ _, sessions]

theorem boot_issued (auth : AuthConfig) (db : Database) : (Host.boot auth db).broker.issued = [] :=
  boot_keeps (·.issued) (fun _ _ _ _ => rfl) auth db

theorem boot_auth (auth : AuthConfig) (db : Database) : (Host.boot auth db).broker.auth = auth :=
  boot_keeps (·.auth) (fun _ _ _ _ => rfl) auth db

theorem step_recovers_iff (host : Host) (event : HostEvent) (clean : host.RecoversClean) :
    (host.step event).RecoversClean ↔ host.KeepsLinks event := by
  rw [recovers_clean_iff] at clean ⊢
  have linked : Linked host.tables := by
    have whole := (Run.always_iff_prefixes _ _ _ _).mp clean host.statements.length
    rw [List.take_length] at whole
    exact whole
  cases event with
  | operation op =>
      have statements : (host.step (.operation op)).statements =
          host.statements ++ (op.write host.broker).toList.flatMap StoredWrite.statements := by
        rw [Host.statements, Host.step, perform_write, List.flatMap_append]
        rfl
      have stored : (host.step (.operation op)).stored = host.stored := rfl
      rw [statements, stored, Run.always_append, and_iff_right clean, ← write_keeps_links_iff]
      change Run.Always Database.execute Linked host.tables _ ↔ _
      cases op.write host.broker with
      | none => exact iff_of_true linked fun _ issued => by cases issued
      | some write =>
          rw [Option.toList_some, List.flatMap_singleton, statements_linked_iff _ _ linked]
          simp
  | crash executed =>
      have statements : (host.step (.crash executed)).statements = [] := by
        rw [Host.statements, Host.step, boot_issued]
        rfl
      have early := (Run.always_iff_prefixes _ _ _ _).mp clean executed
      rw [statements]
      exact iff_of_true early trivial

theorem no_orphans_iff (auth : AuthConfig) (events : List HostEvent) :
    Run.Always Host.step Host.RecoversClean (Host.boot auth {}) events ↔
      Run.Throughout Host.step Host.KeepsLinks (Host.boot auth {}) events := by
  refine Run.always_iff_throughout _ _ _ step_recovers_iff _ events ?_
  rw [recovers_clean_iff, Host.statements, boot_issued]
  exact ⟨by simp [Host.boot], by simp [Host.boot]⟩

def unkeptSubscriber : List HostEvent :=
  [.operation (.registerSession
      { clientId := "c", username := none, cleanStart := true, keepAlive := 60, sessionExpiryInterval := 0 }),
    .operation (.subscribe "c" "t" 0 none)]

theorem orphan_subscription_comes_back :
    ¬∀ (auth : AuthConfig) (events : List HostEvent),
      Run.Always Host.step Host.RecoversClean (Host.boot auth {}) events := by
  intro all
  obtain ⟨_, _, clean⟩ := all ⟨none⟩ unkeptSubscriber
  have linked := (clean 1).2
  exact absurd (linked.subscriptions "c" "t" (by decide +kernel)) (by decide +kernel)

end Pipistrelle.Broker
