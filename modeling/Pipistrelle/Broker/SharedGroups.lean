import Pipistrelle.Broker.Delivery
import Pipistrelle.Broker.Network
import Pipistrelle.Lib.RoundRobin
import Pipistrelle.Lib.Run
import Pipistrelle.Router.Matching

set_option autoImplicit false

/- Share groups. route_publish makes one delivery for each group name, to the member
   whose turn it is by the counter of that name, over the members of all the filters
   of that name which match. -/
namespace Pipistrelle.Broker

open Codec Router LevelPattern

structure Publication where
  fromClient : String
  topic : String
  payload : Bytes
  qos : UInt8
  retain : Bool
deriving DecidableEq, Repr

def BrokerState.publish (self : BrokerState) (publication : Publication) : BrokerState :=
  self.routePublish publication.fromClient publication.topic publication.payload publication.qos publication.retain

def BrokerState.sharedTo (self : BrokerState) (topic group : String) : List SubscriptionInfo :=
  ((self.deliveries topic).filter fun delivery => delivery.group = some group).map (·.sub)

def Enqueued (state : BrokerState) (publication : Publication) (sub : SubscriptionInfo) : Prop :=
  ∃ session later before pid rest, state.registered sub.clientId = some session ∧
    (state.publish publication).registered sub.clientId = some later ∧
    later.sent = session.sent ++ (before ++ publishFrame publication.topic publication.payload publication.qos
      publication.retain pid sub.subscriptionIdentifier :: rest)

theorem shared_deliveries_group (counters : Assoc String UInt64) (shared : List (String × List SubscriptionInfo))
    (distinct : (shared.map Prod.fst).Nodup) (group : String) :
    ((sharedDeliveries counters shared).filter fun delivery => delivery.group = some group).map (·.sub) =
      (turn counters group ((Entries.find group shared).getD [])).toList := by
  have vacant : turn counters group [] = none := (turn_none_iff counters group []).mpr rfl
  induction shared with
  | nil =>
      rw [Entries.find_nil, Option.getD_none, vacant]
      rfl
  | cons entry rest ih =>
      obtain ⟨first, subs⟩ := entry
      rw [List.map_cons, List.nodup_cons] at distinct
      rw [sharedDeliveries, List.filterMap_cons, Entries.find]
      dsimp only
      by_cases here : first = group
      · have absent := Entries.find_absent group rest (here ▸ distinct.1)
        rw [absent, Option.getD_none, vacant] at ih
        rw [if_pos here, Option.getD_some, here]
        cases turn counters group subs with
        | none => exact ih distinct.2
        | some sub =>
            rw [Option.map_some, List.filter_cons_of_pos (by simp), List.map_cons]
            exact congrArg (sub :: ·) (ih distinct.2)
      · rw [if_neg here]
        cases turn counters first subs with
        | none => exact ih distinct.2
        | some sub =>
            rw [Option.map_some, List.filter_cons_of_neg (by simpa using here)]
            exact ih distinct.2

theorem shared_to_turn (state : BrokerState) (topic group : String) :
    state.sharedTo topic group = (turn state.sharedGroupCounters group (state.members topic group)).toList := by
  have normal : ((matchTopic state.router topic).normal.map (Delivery.mk none)).filter
      (fun delivery => delivery.group = some group) = [] := by
    rw [List.filter_eq_nil_iff]
    intro delivery member
    obtain ⟨sub, _, rfl⟩ := List.mem_map.mp member
    simp
  rw [BrokerState.sharedTo, BrokerState.deliveries, List.filter_append, normal, List.nil_append]
  exact shared_deliveries_group _ _ (matchTopic state.router topic).shared.distinct group

theorem registered_publish (state : BrokerState) (publication : Publication) (clientId : String) (ref : SessionRef)
    (get : state.sessions.get clientId = some ref) :
    (state.publish publication).registered clientId = (state.registered clientId).map fun session =>
      ((state.served publication.topic ref).map (·.sub.subscriptionIdentifier)).foldl
        (ClientSession.receive publication.topic publication.payload publication.qos publication.retain) session := by
  have kept := route_publish_keeps publication.topic publication.payload publication.qos publication.retain state
    publication.fromClient
  rw [BrokerState.registered, BrokerState.registered, BrokerState.publish, kept.1, get]
  exact route_publish_heap _ _ _ _ state publication.fromClient ref

theorem mem_frames (topic : String) (payload : Bytes) (qos : UInt8) (retain : Bool) (ids : List (Option UInt16))
    (identifiers : List (Option UInt32)) (long : identifiers.length ≤ ids.length) (identifier : Option UInt32)
    (member : identifier ∈ identifiers) :
    ∃ pid, publishFrame topic payload qos retain pid identifier ∈ frames topic payload qos retain ids identifiers := by
  obtain ⟨n, below, rfl⟩ := List.mem_iff_getElem.mp member
  have inside : n < (frames topic payload qos retain ids identifiers).length := by
    rw [frames, List.length_zipWith]
    omega
  refine ⟨ids[n], List.mem_iff_getElem.mpr ⟨n, inside, ?_⟩⟩
  exact List.getElem_zipWith

theorem enqueued_iff (state : BrokerState) (publication : Publication) (delivery : Delivery)
    (delivered : delivery ∈ state.deliveries publication.topic) :
    Enqueued state publication delivery.sub ↔
      ∃ session, state.registered delivery.sub.clientId = some session ∧ session.receiverOpen = true := by
  have sent : ∀ ref session, state.sessions.get delivery.sub.clientId = some ref →
      state.registered delivery.sub.clientId = some session → ∃ later,
        (state.publish publication).registered delivery.sub.clientId = some later ∧
          later.sent = if session.receiverOpen then session.sent ++ frames publication.topic publication.payload
              publication.qos publication.retain (session.frameIds publication.qos
                ((state.served publication.topic ref).map (·.sub.subscriptionIdentifier)).length)
              ((state.served publication.topic ref).map (·.sub.subscriptionIdentifier))
            else session.sent := by
    intro ref session get held
    rw [registered_publish state publication _ ref get, held]
    exact ⟨_, rfl, receive_all_sent _ _ _ _ session _⟩
  constructor
  · intro enqueued
    obtain ⟨session, later, before, pid, rest, held, after, more⟩ := enqueued
    obtain ⟨ref, get, inHeap⟩ := Option.bind_eq_some_iff.mp held
    obtain ⟨same, atEnd, appended⟩ := sent ref session get held
    rw [after] at atEnd
    cases atEnd
    refine ⟨session, held, ?_⟩
    by_contra gone
    rw [if_neg gone] at appended
    rw [appended] at more
    have length := congrArg List.length more
    simp at length
  · intro opened
    obtain ⟨session, held, isOpen⟩ := opened
    obtain ⟨ref, get, inHeap⟩ := Option.bind_eq_some_iff.mp held
    obtain ⟨later, after, appended⟩ := sent ref session get held
    rw [if_pos isOpen] at appended
    have reached : delivery ∈ state.served publication.topic ref := List.mem_filter.mpr ⟨delivered, decide_eq_true get⟩
    obtain ⟨pid, member⟩ := mem_frames publication.topic publication.payload publication.qos publication.retain
      (session.frameIds publication.qos ((state.served publication.topic ref).map (·.sub.subscriptionIdentifier)).length)
      _ (Nat.le_of_eq (frame_ids_length _ _ _).symm) _ (List.mem_map.mpr ⟨delivery, reached, rfl⟩)
    obtain ⟨before, rest, split⟩ := List.append_of_mem member
    exact ⟨session, later, before, pid, rest, held, after, by rw [appended, split]⟩

theorem shared_to_delivery (state : BrokerState) (topic group : String) (sub : SubscriptionInfo)
    (picked : sub ∈ state.sharedTo topic group) : ⟨some group, sub⟩ ∈ state.deliveries topic := by
  obtain ⟨delivery, member, rfl⟩ := List.mem_map.mp picked
  obtain ⟨inside, ours⟩ := List.mem_filter.mp member
  rw [decide_eq_true_eq] at ours
  rw [← ours]
  exact inside

theorem turn_mem (counters : Assoc String UInt64) (group : String) (subs : List SubscriptionInfo) (sub : SubscriptionInfo)
    (picked : turn counters group subs = some sub) : sub ∈ subs := List.mem_of_getElem? picked

theorem turn_some (counters : Assoc String UInt64) (group : String) (subs : List SubscriptionInfo) (nonempty : subs ≠ []) :
    ∃ sub, turn counters group subs = some sub :=
  Option.ne_none_iff_exists'.mp fun nobody => nonempty ((turn_none_iff counters group subs).mp nobody)

theorem members_perm (state : BrokerState) (table : Table) (refines : Refines state.router table) (topic group : String) :
    (state.members topic group).Perm (table.matching (some group) topic) := by
  unfold BrokerState.members
  rcases match_topic_shared state.router table refines topic group with ⟨missing, nothing⟩ | ⟨infos, found, _, perm⟩
  · rw [missing, nothing]
    exact List.Perm.refl _
  · rw [found]
    exact perm

theorem group_name_gets_one_copy (ops : List RouterOp) (state : BrokerState) (publication : Publication) (group : String)
    (router : state.router = (runTrie ops).1) (matched : (runTable ops).1.matching (some group) publication.topic ≠ [])
    (registered : ∀ sub ∈ (runTable ops).1.matching (some group) publication.topic,
      (state.registered sub.clientId).isSome = true) :
    ∃ sub levels granted session, state.sharedTo publication.topic group = [sub] ∧
      (runTable ops).1.get ⟨sub.clientId, some group, levels⟩ = some granted ∧
      matchesLevels levels (splitLevels publication.topic) = true ∧
      sub = ⟨sub.clientId, granted.qos, granted.subscriptionIdentifier⟩ ∧
      state.registered sub.clientId = some session ∧
      (session.receiverOpen = true → Enqueued state publication sub) := by
  have perm := members_perm state _ (router ▸ (run_refines ops).2) publication.topic group
  have nonempty : state.members publication.topic group ≠ [] := fun nil => matched (List.nil_perm.mp (nil ▸ perm))
  obtain ⟨sub, picked⟩ := turn_some state.sharedGroupCounters group _ nonempty
  have one : state.sharedTo publication.topic group = [sub] := by
    rw [shared_to_turn, picked]
    rfl
  have row := perm.mem_iff.mp (turn_mem _ _ _ _ picked)
  obtain ⟨session, held⟩ := Option.isSome_iff_exists.mp (registered sub row)
  obtain ⟨⟨clientId, _, levels⟩, granted, get, rfl, rfl, matching⟩ := (mem_matching_iff _ _ _ _).mp row
  refine ⟨_, levels, granted, session, one, get, matching, rfl, held, fun isOpen => ?_⟩
  have delivered := shared_to_delivery state publication.topic group _ (one ▸ List.mem_singleton_self _)
  exact (enqueued_iff state publication _ delivered).mpr ⟨session, held, isOpen⟩

def onlineSession (clientId : String) : ClientSession where
  clientId := clientId
  username := none
  cleanStart := true
  keepAlive := 0
  sessionExpiryInterval := 0

def brokerWith (clients : List String) (ops : List RouterOp) : BrokerState where
  router := (runTrie ops).1
  sessions := clients.zipIdx.foldl (fun sessions entry => sessions.insert entry.1 entry.2) {}
  heap := clients.map onlineSession
  auth := ⟨none⟩

def twoFilters : List RouterOp := [.subscribe "a" "$share/g/+" 0 none, .subscribe "b" "$share/g/x" 0 none]

theorem two_filters_served :
    (runTable twoFilters).1.matching (some "g") "x" ≠ [] ∧
      ∃ sub levels granted session, (brokerWith ["a", "b"] twoFilters).sharedTo "x" "g" = [sub] ∧
        (runTable twoFilters).1.get ⟨sub.clientId, some "g", levels⟩ = some granted ∧
        matchesLevels levels (splitLevels "x") = true ∧
        sub = ⟨sub.clientId, granted.qos, granted.subscriptionIdentifier⟩ ∧
        (brokerWith ["a", "b"] twoFilters).registered sub.clientId = some session ∧
        (session.receiverOpen = true → Enqueued (brokerWith ["a", "b"] twoFilters) ⟨"p", "x", [1], 0, false⟩ sub) :=
  ⟨by decide +kernel, group_name_gets_one_copy twoFilters (brokerWith ["a", "b"] twoFilters) ⟨"p", "x", [1], 0, false⟩
    "g" rfl (by decide +kernel) (by decide +kernel)⟩

theorem second_filter_gets_no_copy :
    ¬∀ (ops : List RouterOp) (state : BrokerState) (publication : Publication) (group : String)
        (levels : List (Level String)), state.router = (runTrie ops).1 →
      matchesLevels levels (splitLevels publication.topic) = true →
      (∃ clientId, ((runTable ops).1.get ⟨clientId, some group, levels⟩).isSome = true) →
      (∀ clientId, ((runTable ops).1.get ⟨clientId, some group, levels⟩).isSome = true →
        ∃ session, state.registered clientId = some session ∧ session.receiverOpen = true) →
      ∃ clientId granted, (runTable ops).1.get ⟨clientId, some group, levels⟩ = some granted ∧
        Enqueued state publication ⟨clientId, granted.qos, granted.subscriptionIdentifier⟩ := by
  intro all
  have onlyA : ∀ clientId granted, (runTable twoFilters).1.get ⟨clientId, some "g", [.plus]⟩ = some granted →
      clientId = "a" := by
    intro clientId granted get
    have entries : (runTable twoFilters).1.entries =
        [(⟨"a", some "g", [.plus]⟩, ⟨0, none⟩), (⟨"b", some "g", [.literal "x"]⟩, ⟨0, none⟩)] := by decide +kernel
    have member := (Assoc.mem_entries_iff _ _ _).mpr get
    rw [entries] at member
    have only : clientId = "a" ∧ granted = ⟨0, none⟩ := by simpa using member
    exact only.1
  obtain ⟨clientId, granted, get, enqueued⟩ := all twoFilters (brokerWith ["a", "b"] twoFilters) ⟨"p", "x", [1], 0, false⟩
    "g" [.plus] rfl (by decide +kernel) ⟨"a", by decide +kernel⟩ (by
      intro clientId member
      obtain ⟨granted, get⟩ := Option.isSome_iff_exists.mp member
      rw [onlyA clientId granted get]
      exact ⟨onlineSession "a", rfl, rfl⟩)
  rw [onlyA clientId granted get] at enqueued
  obtain ⟨session, later, before, pid, rest, _, after, appended⟩ := enqueued
  have nothing : (((brokerWith ["a", "b"] twoFilters).publish ⟨"p", "x", [1], 0, false⟩).registered "a").map (·.sent) =
      some [] := by decide +kernel
  rw [after, Option.map_some, appended] at nothing
  simp at nothing

def shareMembers (root : TrieNode) (group : String) (levels : List (Level String)) : List SubscriptionInfo :=
  (trieShape.valueAt levels root).infos (some group)

def BrokerState.handed (group : String) (levels : List (Level String)) (self : BrokerState) : List Publication → List String
  | [] => []
  | publication :: rest =>
      (if matchesLevels levels (splitLevels publication.topic) = true then
        ((self.sharedTo publication.topic group).filter fun sub => (self.registered sub.clientId).isSome).map (·.clientId)
      else []) ++ (self.publish publication).handed group levels rest

-- The values of the group's counter at these publishes: every publish that any filter of
-- the group matches advances it.
def counterMarks (root : TrieNode) (group : String) (levels : List (Level String)) : UInt64 → List Publication → List UInt64
  | _, [] => []
  | mark, publication :: rest =>
      let next := if ((matchTopic root publication.topic).shared.get group).getD [] = [] then mark else mark + 1
      if matchesLevels levels (splitLevels publication.topic) = true then mark :: counterMarks root group levels next rest
      else counterMarks root group levels next rest

theorem flat_map_only {α β : Type} (f : α → List β) (items : List α) (distinct : items.Nodup) (item : α)
    (member : item ∈ items) (others : ∀ other ∈ items, other ≠ item → f other = []) : items.flatMap f = f item := by
  induction items with
  | nil => cases member
  | cons head tail ih =>
      rw [List.nodup_cons] at distinct
      rw [List.flatMap_cons]
      by_cases here : head = item
      · have nothing : tail.flatMap f = [] := by
          rw [List.flatMap_eq_nil_iff]
          intro other inTail
          refine others other (List.mem_cons_of_mem _ inTail) fun same => distinct.1 ?_
          rw [here, ← same]
          exact inTail
        rw [here, nothing, List.append_nil]
      · have inTail : item ∈ tail := (List.mem_cons.mp member).resolve_left (Ne.symm here)
        rw [others head List.mem_cons_self here, List.nil_append]
        exact ih distinct.2 inTail fun other inside => others other (List.mem_cons_of_mem _ inside)

-- No other filter of the group has a topic in common with these levels.
def Apart (table : Table) (group : String) (levels : List (Level String)) : Prop :=
  ∀ key, (table.get key).isSome = true → key.group = some group → key.levels ≠ levels → ∀ topic,
    ¬(matchesLevels levels (splitLevels topic) = true ∧ matchesLevels key.levels (splitLevels topic) = true)

theorem members_apart (root : TrieNode) (table : Table) (refines : Refines root table) (group : String)
    (levels : List (Level String)) (apart : Apart table group levels) (topic : String)
    (matching : matchesLevels levels (splitLevels topic) = true) :
    ((matchTopic root topic).shared.get group).getD [] = shareMembers root group levels := by
  have others : ∀ path ∈ candidates (splitLevels topic), path ≠ levels →
      (trieShape.valueAt path root).infos (some group) = [] := by
    intro path candidate different
    rw [List.eq_nil_iff_forall_not_mem]
    intro sub member
    have row := (mem_infos_iff _ (refines.valid path) (some group) sub.clientId sub).mp ⟨member, rfl⟩
    rw [refines.rows, Option.map_eq_some_iff] at row
    obtain ⟨granted, get, _⟩ := row
    exact apart ⟨sub.clientId, some group, path⟩ (by rw [get]; rfl) rfl different topic
      ⟨matching, (mem_candidates_iff _ _).mp candidate⟩
  have shared := collect_paths_shared root refines.valid (candidates (splitLevels topic)) {} group
  dsimp only at shared
  rw [flat_map_only _ _ (candidates_nodup _) levels ((mem_candidates_iff _ _).mpr matching) others] at shared
  rw [matchTopic, match_recursive_collects, shared]
  by_cases nobody : (trieShape.valueAt levels root).infos (some group) = []
  · rw [if_pos nobody, shareMembers, nobody]
    rfl
  · rw [if_neg nobody]
    rfl

theorem publish_counter (state : BrokerState) (publication : Publication) (group : String) :
    ((state.publish publication).sharedGroupCounters.get group).getD 0 =
      if state.members publication.topic group = [] then (state.sharedGroupCounters.get group).getD 0
      else (state.sharedGroupCounters.get group).getD 0 + 1 := by
  have counted : (state.counted publication.topic).get group =
      if state.members publication.topic group = [] then state.sharedGroupCounters.get group
      else some ((state.sharedGroupCounters.get group).getD 0 + 1) :=
    counted_get _ (matchTopic state.router publication.topic).shared.distinct state.sharedGroupCounters group
  rw [BrokerState.publish, route_publish_counters, counted]
  by_cases nobody : state.members publication.topic group = []
  · rw [if_pos nobody, if_pos nobody]
  · rw [if_neg nobody, if_neg nobody]
    rfl

theorem publish_registered (state : BrokerState) (publication : Publication) (clientId : String)
    (registered : (state.registered clientId).isSome = true) :
    ((state.publish publication).registered clientId).isSome = true := by
  obtain ⟨session, held⟩ := Option.isSome_iff_exists.mp registered
  obtain ⟨ref, get, _⟩ := Option.bind_eq_some_iff.mp held
  rw [registered_publish state publication clientId ref get, Option.isSome_map]
  exact registered

theorem handed_marks (root : TrieNode) (table : Table) (refines : Refines root table) (group : String)
    (levels : List (Level String)) (apart : Apart table group levels) (inhabited : shareMembers root group levels ≠ [])
    (state : BrokerState) (router : state.router = root)
    (registered : ∀ sub ∈ shareMembers root group levels, (state.registered sub.clientId).isSome = true)
    (publications : List Publication) :
    state.handed group levels publications =
      (counterMarks root group levels ((state.sharedGroupCounters.get group).getD 0) publications).map fun mark =>
        ((shareMembers root group levels).map (·.clientId)).getD (mark.toNat % (shareMembers root group levels).length) "" := by
  induction publications generalizing state with
  | nil => rfl
  | cons publication rest ih =>
      have kept : (state.publish publication).router = root :=
        (route_publish_keeps publication.topic publication.payload publication.qos publication.retain state
          publication.fromClient).2.trans router
      have counter := publish_counter state publication group
      rw [BrokerState.handed, counterMarks, ih _ kept fun sub member => publish_registered _ _ _ (registered sub member),
        counter]
      have members : state.members publication.topic group =
          ((matchTopic root publication.topic).shared.get group).getD [] := by rw [← router]; rfl
      rw [members]
      by_cases matching : matchesLevels levels (splitLevels publication.topic) = true
      · have ours := members_apart root table refines group levels apart publication.topic matching
        rw [if_pos matching, if_pos matching, shared_to_turn, members, ours, List.map_cons]
        have below := Nat.mod_lt ((state.sharedGroupCounters.get group).getD 0).toNat (List.length_pos_iff.mpr inhabited)
        have picked : turn state.sharedGroupCounters group (shareMembers root group levels) =
            some (shareMembers root group levels)[((state.sharedGroupCounters.get group).getD 0).toNat %
              (shareMembers root group levels).length] := List.getElem?_eq_getElem below
        have reached := registered _ (List.getElem_mem below)
        rw [picked, Option.toList_some]
        simp [below, reached]
      · rw [if_neg matching, if_neg matching, List.nil_append]

theorem marks_take (root : TrieNode) (group : String) (levels : List (Level String)) (mark : UInt64)
    (publications : List Publication) (k : Nat) :
    ∃ j, counterMarks root group levels mark (publications.take k) =
      (counterMarks root group levels mark publications).take j := by
  induction publications generalizing mark k with
  | nil => exact ⟨0, by rw [List.take_nil]; rfl⟩
  | cons publication rest ih =>
      cases k with
      | zero => exact ⟨0, rfl⟩
      | succ k =>
          rw [List.take_succ_cons, counterMarks, counterMarks]
          generalize (if ((matchTopic root publication.topic).shared.get group).getD [] = [] then mark else mark + 1) = next
          obtain ⟨j, same⟩ := ih next k
          by_cases matching : matchesLevels levels (splitLevels publication.topic) = true
          · exact ⟨j + 1, by rw [if_pos matching, if_pos matching, same, List.take_succ_cons]⟩
          · exact ⟨j, by rw [if_neg matching, if_neg matching, same]⟩

theorem take_marks (root : TrieNode) (group : String) (levels : List (Level String)) (mark : UInt64)
    (publications : List Publication) (j : Nat) :
    ∃ k, (counterMarks root group levels mark publications).take j =
      counterMarks root group levels mark (publications.take k) := by
  induction publications generalizing mark j with
  | nil => exact ⟨0, by rw [List.take_nil, counterMarks, List.take_nil]⟩
  | cons publication rest ih =>
      cases j with
      | zero => exact ⟨0, by rw [List.take_zero, List.take_zero, counterMarks]⟩
      | succ j =>
          rw [counterMarks]
          generalize advanced : (if ((matchTopic root publication.topic).shared.get group).getD [] = [] then mark
            else mark + 1) = next
          by_cases matching : matchesLevels levels (splitLevels publication.topic) = true
          · obtain ⟨k, same⟩ := ih next j
            refine ⟨k + 1, ?_⟩
            rw [if_pos matching, List.take_succ_cons, List.take_succ_cons, counterMarks, same]
            rw [advanced, if_pos matching]
          · obtain ⟨k, same⟩ := ih next (j + 1)
            refine ⟨k + 1, ?_⟩
            rw [if_neg matching, same, List.take_succ_cons, counterMarks]
            rw [advanced, if_neg matching]

theorem handed_prefixes_iff (root : TrieNode) (group : String) (levels : List (Level String)) (mark : UInt64)
    (publications : List Publication) (property : List UInt64 → Prop) :
    (∀ k, property (counterMarks root group levels mark (publications.take k))) ↔
      ∀ j, property ((counterMarks root group levels mark publications).take j) := by
  constructor
  · intro all j
    obtain ⟨k, same⟩ := take_marks root group levels mark publications j
    rw [same]
    exact all k
  · intro all k
    obtain ⟨j, same⟩ := marks_take root group levels mark publications k
    rw [same]
    exact all j

theorem shared_balance_iff (ops : List RouterOp) (state : BrokerState) (group : String) (levels : List (Level String))
    (publications : List Publication) (router : state.router = (runTrie ops).1)
    (inhabited : shareMembers state.router group levels ≠ []) (apart : Apart (runTable ops).1 group levels)
    (registered : ∀ sub ∈ shareMembers state.router group levels, (state.registered sub.clientId).isSome = true) :
    (∀ k, RoundRobin.Balanced ((shareMembers state.router group levels).map (·.clientId))
        (state.handed group levels (publications.take k))) ↔
      ∀ q, ((RoundRobin.round (shareMembers state.router group levels).length q
        (counterMarks state.router group levels ((state.sharedGroupCounters.get group).getD 0) publications)).map
          fun mark => mark.toNat % (shareMembers state.router group levels).length).Nodup := by
  have refines := (run_refines ops).2
  rw [← router] at refines
  have distinct : ((shareMembers state.router group levels).map (·.clientId)).Nodup :=
    infos_once _ (refines.valid levels) (some group)
  have handed := handed_marks state.router _ refines group levels apart inhabited state rfl registered
  have width : ((shareMembers state.router group levels).map (·.clientId)).length =
      (shareMembers state.router group levels).length := List.length_map _
  have positive := List.length_pos_iff.mpr inhabited
  rw [← width] at handed positive ⊢
  generalize (shareMembers state.router group levels).map (·.clientId) = clients at distinct handed positive ⊢
  have places : ∀ marks : List UInt64, marks.map (fun mark => clients.getD (mark.toNat % clients.length) "") =
      (marks.map fun mark => mark.toNat % clients.length).map (clients.getD · "") := by
    intro marks
    rw [List.map_map]
    rfl
  simp only [handed, handed_prefixes_iff state.router group levels _ publications fun marks =>
    RoundRobin.Balanced clients (marks.map fun mark => clients.getD (mark.toNat % clients.length) "")]
  generalize counterMarks state.router group levels _ publications = marks
  simp only [List.map_take, places, ← RoundRobin.round_map]
  refine RoundRobin.balanced_places_iff clients distinct (List.length_pos_iff.mp positive) _ ?_ ""
  intro place member
  obtain ⟨mark, _, rfl⟩ := List.mem_map.mp member
  exact Nat.mod_lt _ positive

def apartFilters : List RouterOp :=
  [.subscribe "a" "$share/g/x" 0 none, .subscribe "b" "$share/g/x" 0 none, .subscribe "c" "$share/g/y" 0 none]

theorem apart_filters_apart : Apart (runTable apartFilters).1 "g" [.literal "x"] := by
  intro key present ours different topic both
  obtain ⟨granted, get⟩ := Option.isSome_iff_exists.mp present
  have entries : (runTable apartFilters).1.entries = [(⟨"a", some "g", [.literal "x"]⟩, ⟨0, none⟩),
      (⟨"b", some "g", [.literal "x"]⟩, ⟨0, none⟩), (⟨"c", some "g", [.literal "y"]⟩, ⟨0, none⟩)] := by decide +kernel
  have member := (Assoc.mem_entries_iff _ _ _).mpr get
  rw [entries] at member
  have other : key.levels = [.literal "y"] := by
    rcases List.mem_cons.mp member with first | later
    · exact absurd (congrArg (·.1.levels) first) different
    · rcases List.mem_cons.mp later with second | last
      · exact absurd (congrArg (·.1.levels) second) different
      · exact congrArg (·.1.levels) (List.mem_singleton.mp last)
  rw [other] at both
  generalize splitLevels topic = segments at both
  cases segments with
  | nil => cases both.1
  | cons segment rest =>
      simp only [matchesLevels, Bool.and_eq_true, beq_iff_eq] at both
      exact absurd (both.1.1.trans both.2.1.symm) (by decide)

def toTopic (topic : String) : Publication := ⟨"p", topic, [1], 0, false⟩

theorem apart_filters_balance :
    (∀ k, RoundRobin.Balanced
        ((shareMembers (brokerWith ["a", "b", "c"] apartFilters).router "g" [.literal "x"]).map (·.clientId))
        ((brokerWith ["a", "b", "c"] apartFilters).handed "g" [.literal "x"] ([toTopic "x", toTopic "x"].take k))) ↔
      ∀ q, ((RoundRobin.round (shareMembers (brokerWith ["a", "b", "c"] apartFilters).router "g" [.literal "x"]).length q
        (counterMarks (brokerWith ["a", "b", "c"] apartFilters).router "g" [.literal "x"]
          (((brokerWith ["a", "b", "c"] apartFilters).sharedGroupCounters.get "g").getD 0)
          [toTopic "x", toTopic "x"])).map fun mark => mark.toNat %
            (shareMembers (brokerWith ["a", "b", "c"] apartFilters).router "g" [.literal "x"]).length).Nodup :=
  shared_balance_iff apartFilters (brokerWith ["a", "b", "c"] apartFilters) "g" [.literal "x"] [toTopic "x", toTopic "x"]
    rfl (by decide +kernel) apart_filters_apart (by decide +kernel)

theorem one_member_gets_every_message :
    ¬∀ (ops : List RouterOp) (state : BrokerState) (group : String) (levels : List (Level String))
        (publications : List Publication), state.router = (runTrie ops).1 →
      shareMembers state.router group levels ≠ [] → Apart (runTable ops).1 group levels →
      (∀ sub ∈ shareMembers state.router group levels, (state.registered sub.clientId).isSome = true) →
      RoundRobin.Balanced ((shareMembers state.router group levels).map (·.clientId))
        (state.handed group levels publications) := by
  intro all
  have balanced := all apartFilters (brokerWith ["a", "b", "c"] apartFilters) "g" [.literal "x"]
    [toTopic "x", toTopic "y", toTopic "x"] rfl (by decide +kernel) apart_filters_apart (by decide +kernel)
  have shares := balanced "a" (by decide +kernel) "b" (by decide +kernel)
  have handed : (brokerWith ["a", "b", "c"] apartFilters).handed "g" [.literal "x"]
      [toTopic "x", toTopic "y", toTopic "x"] = ["a", "a"] := by decide +kernel
  rw [handed] at shares
  exact absurd shares (by decide)

def Network.publication (self : Network) : Event → Option Publication
  | .packet k (.publish pkt) =>
      self.connections[k]?.bind fun connection =>
        if connection.status = .reading then
          self.broker.heap[connection.session]?.bind fun session =>
            if self.broker.auth.authorize (session.username.getD "") pkt.topic "write" = true then
              some ⟨session.clientId, pkt.topic, pkt.payload, pkt.qos, pkt.retain⟩
            else none
        else none
  | .remotePublish topic payload qos retain => some ⟨"bridge_client", topic, payload, qos, retain⟩
  | _ => none

theorem publication_step (verifyPassword : String → String → Bool) (net : Network) (event : Event)
    (publication : Publication) (found : net.publication event = some publication) :
    (net.step verifyPassword event).broker = net.broker.publish publication ∨
      ∃ ref pkt, (net.step verifyPassword event).broker = (net.broker.publish publication).replyPubAck ref pkt 0 := by
  cases event with
  | remotePublish topic payload qos retain =>
      cases found
      exact .inl rfl
  | packet k packet =>
      cases packet with
      | publish pkt =>
          obtain ⟨connection, held, reading⟩ := Option.bind_eq_some_iff.mp found
          split at reading
          · rename_i isReading
            obtain ⟨session, inHeap, authorized⟩ := Option.bind_eq_some_iff.mp reading
            split at authorized
            · rename_i allowed
              cases authorized
              have isOpen : connection.status ≠ .closed := by
                rw [isReading]
                decide
              refine .inr ⟨connection.session, pkt, ?_⟩
              simp only [Network.step, Network.onConnection, held, if_neg isOpen, if_pos isReading, Network.receive,
                processClientPacket, inHeap, BrokerState.processPublish, if_pos allowed]
              rfl
            · cases authorized
          · cases reading
      | _ => cases found
  | connect _ | close _ | panic _ | writerEnds _ => cases found

def OneCopy (state : BrokerState) (publication : Publication) (group : String) : Prop :=
  ∃ sub, state.sharedTo publication.topic group = [sub] ∧ Enqueued state publication sub

def TurnServed (state : BrokerState) (topic group : String) : Prop :=
  ∃ sub session, turn state.sharedGroupCounters group (state.members topic group) = some sub ∧
    state.registered sub.clientId = some session ∧ session.receiverOpen = true

theorem one_copy_iff (state : BrokerState) (publication : Publication) (group : String) :
    OneCopy state publication group ↔ TurnServed state publication.topic group := by
  have picked : ∀ sub, state.sharedTo publication.topic group = [sub] ↔
      turn state.sharedGroupCounters group (state.members publication.topic group) = some sub := by
    intro sub
    rw [shared_to_turn]
    cases turn state.sharedGroupCounters group (state.members publication.topic group) with
    | none => simp
    | some other => simp
  have enqueued : ∀ sub, state.sharedTo publication.topic group = [sub] → (Enqueued state publication sub ↔
      ∃ session, state.registered sub.clientId = some session ∧ session.receiverOpen = true) := fun sub one =>
    enqueued_iff state publication ⟨some group, sub⟩
      (shared_to_delivery state publication.topic group sub (one ▸ List.mem_singleton_self sub))
  constructor
  · intro ⟨sub, one, served⟩
    obtain ⟨session, held, isOpen⟩ := (enqueued sub one).mp served
    exact ⟨sub, session, (picked sub).mp one, held, isOpen⟩
  · intro ⟨sub, session, itsTurn, held, isOpen⟩
    have one := (picked sub).mpr itsTurn
    exact ⟨sub, one, (enqueued sub one).mpr ⟨session, held, isOpen⟩⟩

def MemberOnline (state : BrokerState) (topic group : String) : Prop :=
  ∃ sub ∈ state.members topic group, (state.registered sub.clientId).isSome = true

def PublishKeeps (kept : BrokerState → Publication → String → Prop) (net : Network) (event : Event) : Prop :=
  ∀ publication group, net.publication event = some publication →
    MemberOnline net.broker publication.topic group → kept net.broker publication group

theorem shared_message_kept_iff (verifyPassword : String → String → Bool) (net : Network) (events : List Event) :
    Run.Throughout (Network.step verifyPassword) (PublishKeeps OneCopy) net events ↔
      Run.Throughout (Network.step verifyPassword)
        (PublishKeeps fun state publication group => TurnServed state publication.topic group) net events := by
  apply Run.throughout_congr
  intro state event
  constructor
  · intro kept publication group published online
    exact (one_copy_iff state.broker publication group).mp (kept publication group published online)
  · intro served publication group published online
    exact (one_copy_iff state.broker publication group).mpr (served publication group published online)

def firstMemberLeaves : List Event :=
  [.connect ⟨"a", 60, true, none, none, {}⟩, .connect ⟨"b", 60, true, none, none, {}⟩,
    .packet 0 (.subscribe ⟨1, {}, [⟨"$share/g/t", 0⟩]⟩), .packet 1 (.subscribe ⟨1, {}, [⟨"$share/g/t", 0⟩]⟩), .close 0]

def afterLeaving : Network := firstMemberLeaves.foldl (Network.step fun _ _ => true) { broker := { auth := ⟨none⟩ } }

def toRemaining : Event := .packet 1 (.publish ⟨false, 0, false, "t", none, {}, [1]⟩)

theorem left_member_gets_the_message :
    ¬∀ (verifyPassword : String → String → Bool) (events : List Event),
      Run.Throughout (Network.step verifyPassword) (PublishKeeps OneCopy) { broker := { auth := ⟨none⟩ } } events := by
  intro all
  have last : PublishKeeps OneCopy afterLeaving toRemaining :=
    Run.throughout_last _ _ _ _ _ (all (fun _ _ => true) (firstMemberLeaves ++ [toRemaining]))
  have online : MemberOnline afterLeaving.broker "t" "g" := ⟨⟨"b", 0, none⟩, by decide +kernel, by decide +kernel⟩
  have picked : afterLeaving.broker.sharedTo "t" "g" = [⟨"a", 0, none⟩] := by decide +kernel
  have gone : (afterLeaving.broker.registered "a").isSome = false := by decide +kernel
  have published : afterLeaving.publication toRemaining = some ⟨"b", "t", [1], 0, false⟩ := by decide +kernel
  obtain ⟨sub, one, enqueued⟩ := last ⟨"b", "t", [1], 0, false⟩ "g" published online
  rw [picked] at one
  cases one
  obtain ⟨session, _, _, _, _, held, _⟩ := enqueued
  rw [held] at gone
  cases gone

end Pipistrelle.Broker
