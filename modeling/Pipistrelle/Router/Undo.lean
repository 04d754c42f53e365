import Pipistrelle.Router.Matching

set_option autoImplicit false

/- An unsubscribe right behind its subscribe. The two walk the filter separately: one
   stops at the first '#', the other goes on with the levels behind it. -/
namespace Pipistrelle.Router

open LevelPattern

def RouteResult.entries (group : Option String) (self : RouteResult) : List SubscriptionInfo :=
  match group with
  | some grp => (self.shared.get grp).getD []
  | none => self.normal

theorem match_entries (root : TrieNode) (valid : ∀ path, (trieShape.valueAt path root).Valid) (topic : String)
    (group : Option String) :
    (matchTopic root topic).entries group =
      (candidates (splitLevels topic)).flatMap fun path => (trieShape.valueAt path root).infos group := by
  rw [matchTopic, match_recursive_collects]
  cases group with
  | none => exact (collect_paths_normal root _ {}).trans (List.nil_append _)
  | some grp =>
      have shared := collect_paths_shared root valid (candidates (splitLevels topic)) {} grp
      rw [RouteResult.entries, shared]
      dsimp only
      split
      · rename_i nobody
        rw [nobody]
        rfl
      · rfl

theorem match_entries_perm (root : TrieNode) (table : Table) (refines : Refines root table) (topic : String)
    (group : Option String) : ((matchTopic root topic).entries group).Perm (table.matching group topic) := by
  rw [match_entries root refines.valid]
  exact infos_perm_matching root table refines group topic

def others (clientId : String) (list : List SubscriptionInfo) : List SubscriptionInfo :=
  list.filter fun s => s.clientId != clientId

def made (clientId topicFilter : String) (qos : UInt8) (identifier : Option UInt32) (topic : String)
    (group : Option String) : List SubscriptionInfo :=
  if (keyOf clientId topicFilter).group = group ∧
      matchesLevels (keyOf clientId topicFilter).levels (splitLevels topic) = true then
    [⟨clientId, qos, identifier⟩]
  else []

structure Undone (root subscribed after : TrieNode) (clientId topicFilter : String) (qos : UInt8)
    (identifier : Option UInt32) : Prop where
  others : ∀ topic group, others clientId ((matchTopic after topic).entries group) =
    others clientId ((matchTopic root topic).entries group)
  own : ∀ topic group, ((matchTopic subscribed topic).entries group).Perm
    (made clientId topicFilter qos identifier topic group ++ (matchTopic after topic).entries group)

def HashLast (topicFilter : String) : Prop := "#" ∉ (splitLevels (parseSharedSubscription topicFilter).2).dropLast

theorem hash_last_iff (topicFilter : String) :
    HashLast topicFilter ↔ cutLevels (filterLevels topicFilter) = filterLevels topicFilter := by
  unfold HashLast filterLevels
  generalize splitLevels (parseSharedSubscription topicFilter).2 = segments
  induction segments with
  | nil => simp [cutLevels]
  | cons segment rest ih =>
      cases rest with
      | nil =>
          rw [List.map_singleton]
          cases parseLevel segment <;> simp [cutLevels]
      | cons next tail =>
          rw [List.dropLast_cons_of_ne_nil (List.cons_ne_nil next tail), List.mem_cons, not_or, List.map_cons, parseLevel]
          by_cases hash : segment = "#"
          · rw [hash, if_neg (by decide), if_pos rfl]
            simp [cutLevels]
          · have apart : "#" ≠ segment := fun same => hash same.symm
            by_cases plus : segment = "+"
            · rw [if_pos plus, and_iff_right apart, ih]
              simp [cutLevels]
            · rw [if_neg plus, if_neg hash, and_iff_right apart, ih]
              simp [cutLevels]

theorem store_drop_others (held : Held) (valid : held.Valid) (clientId : String) (group other : Option String)
    (qos : UInt8) (identifier : Option UInt32) :
    others clientId (((held.store group ⟨clientId, qos, identifier⟩).drop clientId group).1.infos other) =
      others clientId (held.infos other) := by
  cases group with
  | none =>
      cases other with
      | some grp' => rfl
      | none =>
          have kept : ∀ entries : List (String × SubscriptionInfo), (∀ entry ∈ entries, entry.2.clientId = entry.1) →
              others clientId ((Entries.drop clientId entries).map Prod.snd) = others clientId (entries.map Prod.snd) := by
            intro entries named
            rw [others, others, Entries.drop, List.filter_map, List.filter_map, List.filter_filter]
            congr 1
            refine List.filter_congr ?_
            intro entry member
            simp [named entry member]
          have values : ((held.store none ⟨clientId, qos, identifier⟩).drop clientId none).1.infos none =
              (Entries.drop clientId held.subscriptions.entries).map Prod.snd :=
            congrArg (List.map Prod.snd) (Entries.drop_put clientId _ held.subscriptions.entries)
          rw [values]
          refine kept _ ?_
          intro entry member
          exact valid.named entry.1 entry.2 ((held.subscriptions.mem_entries_iff _ _).mp member)
  | some grp =>
      have found : (held.store (some grp) ⟨clientId, qos, identifier⟩).sharedSubscriptions.get grp =
          some (others clientId ((held.sharedSubscriptions.get grp).getD []) ++ [⟨clientId, qos, identifier⟩]) :=
        (held.sharedSubscriptions.get_insert grp grp _).trans (if_pos rfl)
      cases other with
      | none =>
          rw [Held.infos, drop_shared_normal]
          rfl
      | some grp' =>
          rw [Held.infos, drop_shared _ clientId grp _ found, Held.infos]
          by_cases here : grp = grp'
          · subst here
            have listed : ∀ list : List SubscriptionInfo, (if list = [] then none else some list).getD [] = list := by
              intro list
              split
              · rename_i nobody
                exact nobody.symm
              · rfl
            rw [if_pos rfl, listed]
            simp [others, List.filter_append, List.filter_filter]
          · rw [if_neg here, Held.store, Assoc.get_insert, if_neg here]

theorem unsubscribe_prunes (root : TrieNode) (clientId topicFilter : String) :
    (unsubscribe root clientId topicFilter).1 = (trieShape.prune
      (Held.drop clientId (keyOf clientId topicFilter).group) false (filterLevels topicFilter) root).1 := by
  simp only [unsubscribe, unsubscribe_recursive_prune, keyOf, filterLevels]

theorem subscribe_plants (root : TrieNode) (clientId topicFilter : String) (qos : UInt8) (identifier : Option UInt32) :
    subscribe root clientId topicFilter qos identifier = trieShape.plant
      (Held.store (keyOf clientId topicFilter).group ⟨clientId, qos, identifier⟩) (keyOf clientId topicFilter).levels root := by
  simp only [subscribe, subscribe_at_plant, keyOf, filterLevels]

-- Where both walks stop at the same node, what other clients have there comes out as it was.
theorem others_undone (root : TrieNode) (valid : ∀ path, (trieShape.valueAt path root).Valid) (clientId topicFilter : String)
    (qos : UInt8) (identifier : Option UInt32) (hashLast : HashLast topicFilter) (path : List (Level String))
    (group : Option String) :
    others clientId ((trieShape.valueAt path
        (unsubscribe (subscribe root clientId topicFilter qos identifier) clientId topicFilter).1).infos group) =
      others clientId ((trieShape.valueAt path root).infos group) := by
  have levels : (keyOf clientId topicFilter).levels = filterLevels topicFilter := by
    simp only [keyOf]
    exact (hash_last_iff topicFilter).mp hashLast
  have vacant : Held.drop clientId (keyOf clientId topicFilter).group (trieShape.value trieShape.empty) =
      (trieShape.value trieShape.empty, false) := by cases (keyOf clientId topicFilter).group <;> rfl
  rw [unsubscribe_prunes, subscribe_plants, trieShape.value_at_prune _ _ vacant, ← levels, trieShape.value_at_plant,
    trieShape.value_at_plant, if_pos rfl]
  by_cases here : path = (keyOf clientId topicFilter).levels
  · rw [if_pos here, here]
    exact store_drop_others _ (valid _) clientId _ group qos identifier
  · rw [if_neg here, if_neg here]

theorem matching_remove (table : Table) (key : Key) (granted : Granted) (get : table.get key = some granted)
    (group : Option String) (topic : String) :
    (table.matching group topic).Perm
      ((if key.group = group ∧ matchesLevels key.levels (splitLevels topic) = true then [subscriptionInfo key granted]
        else []) ++ Table.matching (table.remove key) group topic) := by
  unfold Table.matching
  refine (((table.entries_perm_remove key granted get).filter _).map _).trans ?_
  rw [List.filter_cons]
  by_cases here : key.group = group ∧ matchesLevels key.levels (splitLevels topic) = true
  · rw [if_pos here, if_pos (by simpa using here)]
    rfl
  · rw [if_neg here, if_neg (by simpa using here)]
    rfl

theorem removed_iff (root : TrieNode) (table : Table) (refines : Refines root table) (clientId topicFilter : String)
    (qos : UInt8) (identifier : Option UInt32) :
    (unsubscribe (subscribe root clientId topicFilter qos identifier) clientId topicFilter).2 = true ↔
      HashLast topicFilter := by
  have refinesSubscribed := subscribe_refines root table refines clientId topicFilter qos identifier
  rw [(unsubscribe_refines _ _ refinesSubscribed clientId topicFilter).1, hash_last_iff]
  have inserted : ((table.subscribe clientId topicFilter qos identifier).get (keyOf clientId topicFilter)).isSome = true := by
    rw [Table.subscribe, Assoc.get_insert, if_pos rfl]
    rfl
  unfold Table.unsubscribe
  generalize table.subscribe clientId topicFilter qos identifier = later at inserted ⊢
  by_cases closed : cutLevels (filterLevels topicFilter) = filterLevels topicFilter
  · rw [if_pos ⟨closed, inserted⟩]
    exact iff_of_true rfl closed
  · rw [if_neg (fun both => closed both.1)]
    exact iff_of_false Bool.false_ne_true closed

theorem own_undone (root : TrieNode) (table : Table) (refines : Refines root table) (clientId topicFilter : String)
    (qos : UInt8) (identifier : Option UInt32) (hashLast : HashLast topicFilter) (topic : String) (group : Option String) :
    let subscribed := subscribe root clientId topicFilter qos identifier
    ((matchTopic subscribed topic).entries group).Perm (made clientId topicFilter qos identifier topic group ++
      (matchTopic (unsubscribe subscribed clientId topicFilter).1 topic).entries group) := by
  intro subscribed
  have refinesSubscribed := subscribe_refines root table refines clientId topicFilter qos identifier
  have refinesAfter := (unsubscribe_refines subscribed _ refinesSubscribed clientId topicFilter).2
  have inserted : (table.subscribe clientId topicFilter qos identifier).get (keyOf clientId topicFilter) =
      some ⟨qos, identifier⟩ := by
    rw [Table.subscribe, Assoc.get_insert, if_pos rfl]
  have removed : (table.subscribe clientId topicFilter qos identifier).unsubscribe clientId topicFilter =
      ((table.subscribe clientId topicFilter qos identifier).remove (keyOf clientId topicFilter), true) := by
    rw [Table.unsubscribe, if_pos ⟨(hash_last_iff topicFilter).mp hashLast, by rw [inserted]; rfl⟩]
  rw [removed] at refinesAfter
  have before := match_entries_perm subscribed _ refinesSubscribed topic group
  have after := match_entries_perm _ _ refinesAfter topic group
  have row := matching_remove _ (keyOf clientId topicFilter) ⟨qos, identifier⟩ inserted group topic
  exact (before.trans row).trans (List.Perm.append_left _ after.symm)

theorem unsubscribe_undoes_iff (ops : List RouterOp) (clientId topicFilter : String) (qos : UInt8)
    (identifier : Option UInt32) :
    let root := (runTrie ops).1
    let subscribed := subscribe root clientId topicFilter qos identifier
    let result := unsubscribe subscribed clientId topicFilter
    (result.2 = true ∧ Undone root subscribed result.1 clientId topicFilter qos identifier) ↔ HashLast topicFilter := by
  intro root subscribed result
  have refines : Refines root (runTable ops).1 := (run_refines ops).2
  have removed := removed_iff root _ refines clientId topicFilter qos identifier
  rw [and_iff_left_of_imp]
  · exact removed
  · intro returned
    have hashLast := removed.mp returned
    have same := fun path group =>
      others_undone root refines.valid clientId topicFilter qos identifier hashLast path group
    have own := own_undone root _ refines clientId topicFilter qos identifier hashLast
    have refinesAfter := (unsubscribe_refines subscribed _
      (subscribe_refines root _ refines clientId topicFilter qos identifier) clientId topicFilter).2
    refine ⟨?_, own⟩
    intro topic group
    rw [match_entries _ refinesAfter.valid, match_entries _ refines.valid]
    unfold others at same ⊢
    rw [List.filter_flatMap, List.filter_flatMap]
    exact List.flatMap_congr fun path _ => same path group

instance (topicFilter : String) : Decidable (HashLast topicFilter) := inferInstanceAs (Decidable (_ ∉ _))

theorem level_behind_hash_stays :
    ¬∀ (ops : List RouterOp) (clientId topicFilter : String) (qos : UInt8) (identifier : Option UInt32),
      let root := (runTrie ops).1
      let subscribed := subscribe root clientId topicFilter qos identifier
      let result := unsubscribe subscribed clientId topicFilter
      result.2 = true ∧ Undone root subscribed result.1 clientId topicFilter qos identifier := by
  intro all
  have removed := (all [] "c" "#/x" 0 none).1
  have hashLast := (removed_iff (runTrie []).1 _ (run_refines []).2 "c" "#/x" 0 none).mp removed
  exact absurd hashLast (by decide +kernel)

end Pipistrelle.Router
