import Pipistrelle.Lib.LastWrites
import Pipistrelle.Router.Matching

set_option autoImplicit false

/- A router that is filled by subscribe calls alone. What it becomes is decided by the
   last call for each client and filter string, in the order of these last calls. -/
namespace Pipistrelle.Router

open LevelPattern LastWrites

structure Call where
  clientId : String
  topicFilter : String
  qos : UInt8
  subscriptionIdentifier : Option UInt32
deriving DecidableEq, Repr

def Call.name (self : Call) : String × String := (self.clientId, self.topicFilter)

def Call.key (self : Call) : Key := keyOf self.clientId self.topicFilter

def Call.granted (self : Call) : Granted := ⟨self.qos, self.subscriptionIdentifier⟩

def Call.info (self : Call) : SubscriptionInfo := ⟨self.clientId, self.qos, self.subscriptionIdentifier⟩

def TrieNode.accept (self : TrieNode) (call : Call) : TrieNode :=
  Router.subscribe self call.clientId call.topicFilter call.qos call.subscriptionIdentifier

def Held.accept (self : Held) (call : Call) : Held := self.store call.key.group call.info

def fill (calls : List Call) : TrieNode := calls.foldl TrieNode.accept {}

def fillTable (calls : List Call) : Table := calls.foldl (fun table call => table.insert call.key call.granted) {}

theorem fill_refines (calls : List Call) : Refines (fill calls) (fillTable calls) := by
  unfold fill fillTable
  induction calls using List.reverseRecOn with
  | nil => exact refines_new
  | append_singleton calls last ih =>
      rw [List.foldl_append, List.foldl_append, List.foldl_cons, List.foldl_nil, List.foldl_cons, List.foldl_nil]
      exact subscribe_refines _ _ ih last.clientId last.topicFilter last.qos last.subscriptionIdentifier

theorem fill_table_get (calls : List Call) (key : Key) :
    (fillTable calls).get key = ((calls.filter fun call => call.key = key).getLast?).map Call.granted := by
  unfold fillTable
  induction calls using List.reverseRecOn with
  | nil => rfl
  | append_singleton calls last ih =>
      rw [List.foldl_append, List.foldl_cons, List.foldl_nil, Assoc.get_insert, ih, List.filter_append]
      by_cases here : last.key = key
      · rw [if_pos here, List.filter_cons_of_pos (by simp [here]), List.filter_nil, List.getLast?_concat]
        rfl
      · rw [if_neg here, List.filter_cons_of_neg (by simp [here]), List.filter_nil, List.append_nil]

theorem name_decides_key (first second : Call) (same : first.name = second.name) : first.key = second.key := by
  obtain ⟨client, filter⟩ := Prod.mk.inj same
  rw [Call.key, Call.key, client, filter]

theorem settled_table_get (calls : List Call) (key : Key) :
    (fillTable (settle Call.name calls)).get key = (fillTable calls).get key := by
  rw [fill_table_get, fill_table_get, filter_settle Call.name _ ?_, last_settle]
  intro first second same
  rw [name_decides_key first second same]

theorem fill_value_at (calls : List Call) (path : List (Level String)) :
    trieShape.valueAt path (fill calls) = (calls.filter fun call => call.key.levels = path).foldl Held.accept {} := by
  unfold fill
  induction calls using List.reverseRecOn with
  | nil => exact trieShape.value_at_new path
  | append_singleton calls last ih =>
      have planted : ∀ root : TrieNode, root.accept last =
          trieShape.plant (Held.store last.key.group last.info) last.key.levels root := by
        intro root
        simp only [TrieNode.accept, subscribe, subscribe_at_plant, Call.key, keyOf, filterLevels, Call.info]
      rw [List.foldl_append, List.foldl_cons, List.foldl_nil, planted, trieShape.value_at_plant, List.filter_append,
        List.foldl_append]
      by_cases here : path = last.key.levels
      · rw [if_pos here, ← here, ih, List.filter_cons_of_pos (by simp [here])]
        rfl
      · rw [if_neg here, ih, List.filter_cons_of_neg (by simp [Ne.symm here])]
        rfl

def memberList (group : String) (calls : List Call) : List SubscriptionInfo :=
  settle (·.clientId) ((calls.filter fun call => call.key.group = some group).map Call.info)

theorem accept_shared (calls : List Call) (group : String) :
    (calls.foldl Held.accept {}).sharedSubscriptions.get group =
      if memberList group calls = [] then none else some (memberList group calls) := by
  induction calls using List.reverseRecOn with
  | nil => rfl
  | append_singleton calls last ih =>
      rw [List.foldl_append, List.foldl_cons, List.foldl_nil]
      generalize calls.foldl Held.accept {} = held at ih ⊢
      unfold memberList at ih ⊢
      rw [List.filter_append, List.map_append]
      by_cases ours : last.key.group = some group
      · rw [List.filter_cons_of_pos (by simp [ours])]
        have list : (held.sharedSubscriptions.get group).getD [] =
            settle (·.clientId) ((calls.filter fun call => call.key.group = some group).map Call.info) := by
          rw [ih]
          split
          · rename_i nobody
            rw [nobody]
            rfl
          · rfl
        have stored : (held.accept last).sharedSubscriptions.get group =
            some (moveToEnd (·.clientId) ((held.sharedSubscriptions.get group).getD []) last.info) := by
          rw [Held.accept, ours, Held.store, Assoc.get_insert, if_pos rfl, moveToEnd]
          congr
          funext other
          rw [Bool.eq_iff_iff, bne_iff_ne, decide_eq_true_iff]
        have nonempty : moveToEnd (fun info : SubscriptionInfo => info.clientId)
            ((held.sharedSubscriptions.get group).getD []) last.info ≠ [] := by simp [moveToEnd]
        rw [stored, list, List.filter_nil, List.map_singleton, settle_append_last]
        rw [list] at nonempty
        rw [if_neg nonempty]
      · rw [List.filter_cons_of_neg (by simp [ours]), List.filter_nil, List.map_nil, List.append_nil, ← ih]
        unfold Held.accept Held.store
        split
        · rename_i grp named
          rw [Assoc.get_insert, if_neg (fun same => ours (by rw [named, same]))]
        · rfl

theorem settled_member_list (calls : List Call) (path : List (Level String)) (group : String) :
    memberList group ((settle Call.name calls).filter fun call => call.key.levels = path) =
      memberList group (calls.filter fun call => call.key.levels = path) := by
  unfold memberList
  rw [filter_settle Call.name _ ?_, filter_settle Call.name _ ?_, settle_map, settle_map, settle_settle]
  · exact fun first second same => (Prod.mk.inj same).1
  · intro first second same
    rw [name_decides_key first second same]
  · intro first second same
    rw [name_decides_key first second same]

structure SameRoute (first second : RouteResult) : Prop where
  normal : first.normal.Perm second.normal
  shared : ∀ group, (first.shared.get group = none ∧ second.shared.get group = none) ∨
    ∃ members others, first.shared.get group = some members ∧ second.shared.get group = some others ∧
      members.Perm others

theorem same_route (root other : TrieNode) (table : Table) (refines : Refines root table) (refinesOther : Refines other table)
    (topic : String) : SameRoute (matchTopic root topic) (matchTopic other topic) := by
  constructor
  · exact (match_topic_normal root table refines topic).trans (match_topic_normal other table refinesOther topic).symm
  · intro group
    rcases match_topic_shared root table refines topic group with ⟨missing, nobody⟩ | ⟨members, found, nonempty, perm⟩
    · rcases match_topic_shared other table refinesOther topic group with ⟨alsoMissing, _⟩ | ⟨_, _, others, _⟩
      · exact .inl ⟨missing, alsoMissing⟩
      · exact absurd nobody others
    · rcases match_topic_shared other table refinesOther topic group with ⟨_, nobody⟩ | ⟨others, alsoFound, _, permOther⟩
      · exact absurd nobody nonempty
      · exact .inr ⟨members, others, found, alsoFound, perm.trans permOther.symm⟩

theorem replay_same (calls : List Call) :
    (∀ topic, SameRoute (matchTopic (fill (settle Call.name calls)) topic) (matchTopic (fill calls) topic)) ∧
      ∀ path group, (trieShape.valueAt path (fill (settle Call.name calls))).sharedSubscriptions.get group =
        (trieShape.valueAt path (fill calls)).sharedSubscriptions.get group := by
  constructor
  · intro topic
    refine same_route _ _ (fillTable calls) ?_ (fill_refines calls) topic
    exact refines_congr _ _ _ (settled_table_get calls) (fill_refines (settle Call.name calls))
  · intro path group
    rw [fill_value_at, fill_value_at, accept_shared, accept_shared, settled_member_list]

end Pipistrelle.Router
