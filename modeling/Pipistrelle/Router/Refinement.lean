import Pipistrelle.Lib.PathTree
import Pipistrelle.Router.Table

set_option autoImplicit false

/- The trie holds the table: the subscriptions at the node of a path are the rows
   of the table with that level list. -/
namespace Pipistrelle.Router

open LevelPattern

-- The two maps of subscriptions that a node holds.
structure Held where
  subscriptions : Assoc String SubscriptionInfo := {}
  sharedSubscriptions : Assoc String (List SubscriptionInfo) := {}

def TrieNode.held (self : TrieNode) : Held := ⟨self.subscriptions, self.sharedSubscriptions⟩

def TrieNode.child (level : Level String) (self : TrieNode) : Option TrieNode :=
  match level with
  | .plus => self.plusChild
  | .hash => self.hashChild
  | .literal name => Entries.find name self.children

def TrieNode.setChild (level : Level String) (next : Option TrieNode) (self : TrieNode) : TrieNode :=
  match level with
  | .plus => { self with plusChild := next }
  | .hash => { self with hashChild := next }
  | .literal name =>
      match next with
      | some child => { self with children := Entries.put name child self.children }
      | none => { self with children := Entries.drop name self.children }

theorem set_child_same (level : Level String) (node : TrieNode) (next : Option TrieNode) :
    (node.setChild level next).child level = next := by
  cases level with
  | plus => rfl
  | hash => rfl
  | literal name =>
      cases next with
      | some child => exact (Entries.find_put name name child node.children).trans (if_pos rfl)
      | none => exact (Entries.find_drop name name node.children).trans (if_pos rfl)

theorem set_child_other (level other : Level String) (node : TrieNode) (next : Option TrieNode) (different : level ≠ other) :
    (node.setChild level next).child other = node.child other := by
  cases level with
  | plus => cases other with
    | plus => exact absurd rfl different
    | hash => rfl
    | literal name => rfl
  | hash => cases other with
    | plus => rfl
    | hash => exact absurd rfl different
    | literal name => rfl
  | literal name => cases other with
    | plus => cases next <;> rfl
    | hash => cases next <;> rfl
    | literal name' =>
        have apart : name ≠ name' := fun same => different (congrArg Level.literal same)
        cases next with
        | some child => exact (Entries.find_put name name' child node.children).trans (if_neg apart)
        | none => exact (Entries.find_drop name name' node.children).trans (if_neg apart)

theorem set_child_held (level : Level String) (node : TrieNode) (next : Option TrieNode) :
    (node.setChild level next).held = node.held := by
  cases level with
  | plus => rfl
  | hash => rfl
  | literal name => cases next <;> rfl

theorem empty_parts (node : TrieNode) (vacant : node.isEmpty = true) : node = {} := by
  obtain ⟨children, plusChild, hashChild, subscriptions, shared⟩ := node
  simp only [TrieNode.isEmpty, Bool.and_eq_true, List.isEmpty_iff, Option.isNone_iff_eq_none,
    Assoc.is_empty_iff] at vacant
  obtain ⟨⟨⟨⟨rfl, rfl⟩, rfl⟩, rfl⟩, rfl⟩ := vacant
  rfl

def trieShape : TreeShape TrieNode (Level String) Held where
  child := TrieNode.child
  setChild := TrieNode.setChild
  value := TrieNode.held
  setValue held node :=
    { node with subscriptions := held.subscriptions, sharedSubscriptions := held.sharedSubscriptions }
  empty := {}
  isEmpty := TrieNode.isEmpty
  child_set_same := set_child_same
  child_set_other := set_child_other
  value_set_child := set_child_held
  child_set_value level _ _ := by cases level <;> rfl
  value_set_value _ _ := rfl
  child_empty level := by cases level <;> rfl
  empty_child node vacant level := by
    rw [empty_parts node vacant]
    cases level <;> rfl
  empty_value node vacant := by rw [empty_parts node vacant]

def Held.store (group : Option String) (subInfo : SubscriptionInfo) (self : Held) : Held :=
  match group with
  | some grp =>
      let list := ((self.sharedSubscriptions.get grp).getD []).filter fun s => s.clientId != subInfo.clientId
      { self with sharedSubscriptions := self.sharedSubscriptions.insert grp (list ++ [subInfo]) }
  | none => { self with subscriptions := self.subscriptions.insert subInfo.clientId subInfo }

def Held.drop (clientId : String) (group : Option String) (self : Held) : Held × Bool :=
  match group with
  | some grp =>
      match self.sharedSubscriptions.get grp with
      | some list =>
          let kept := list.filter fun s => s.clientId != clientId
          let shared := if kept.isEmpty then self.sharedSubscriptions.remove grp
            else self.sharedSubscriptions.insert grp kept
          ({ self with sharedSubscriptions := shared }, decide (kept.length < list.length))
      | none => (self, false)
  | none =>
      ({ self with subscriptions := self.subscriptions.remove clientId }, (self.subscriptions.get clientId).isSome)

theorem store_subscription_held (group : Option String) (subInfo : SubscriptionInfo) (node : TrieNode) :
    storeSubscription group subInfo node = trieShape.setValue (node.held.store group subInfo) node := by
  cases group <;> rfl

theorem remove_subscription_held (clientId : String) (group : Option String) (node : TrieNode) :
    removeSubscription clientId group node =
      (trieShape.setValue (node.held.drop clientId group).1 node, (node.held.drop clientId group).2) := by
  cases group with
  | none => rfl
  | some grp =>
      obtain ⟨children, plusChild, hashChild, subscriptions, shared⟩ := node
      cases found : shared.get grp with
      | none => simp only [Held.drop, removeSubscription, trieShape, TrieNode.held, found]
      | some list => simp only [Held.drop, removeSubscription, trieShape, TrieNode.held, found]

theorem subscribe_at_plant (group : Option String) (subInfo : SubscriptionInfo) (segments : List String)
    (node : TrieNode) :
    subscribeAt (storeSubscription group subInfo) segments node =
      trieShape.plant (Held.store group subInfo) (cutLevels (segments.map parseLevel)) node := by
  induction segments generalizing node with
  | nil => exact store_subscription_held group subInfo node
  | cons segment rest ih =>
      rw [subscribeAt, List.map_cons, parseLevel]
      by_cases plus : segment = "+"
      · rw [if_pos plus, if_pos plus, ih]
        rfl
      · rw [if_neg plus, if_neg plus]
        by_cases hash : segment = "#"
        · rw [if_pos hash, if_pos hash, store_subscription_held]
          rfl
        · rw [if_neg hash, if_neg hash]
          dsimp only
          rw [ih]
          rfl

theorem unsubscribe_recursive_prune (clientId : String) (group : Option String) (segments : List String)
    (node : TrieNode) :
    unsubscribeRecursive clientId group segments node =
      ((trieShape.prune (Held.drop clientId group) false (segments.map parseLevel) node).1,
        (trieShape.prune (Held.drop clientId group) false (segments.map parseLevel) node).2,
        (trieShape.prune (Held.drop clientId group) false (segments.map parseLevel) node).1.isEmpty) := by
  have vacancy : ∀ pruned : TrieNode, trieShape.isEmpty pruned = pruned.isEmpty := fun _ => rfl
  induction segments generalizing node with
  | nil =>
      rw [unsubscribeRecursive, remove_subscription_held]
      rfl
  | cons segment rest ih =>
      rw [unsubscribeRecursive, List.map_cons, parseLevel]
      by_cases plus : segment = "+"
      · rw [if_pos plus, if_pos plus]
        cases found : node.plusChild with
        | none =>
            have missing : trieShape.child .plus node = none := found
            rw [trieShape.prune_missing _ _ _ _ node missing]
        | some child =>
            have present : trieShape.child .plus node = some child := found
            rw [trieShape.prune_child _ _ _ _ node child present]
            simp only [ih]
            rfl
      · rw [if_neg plus, if_neg plus]
        by_cases hash : segment = "#"
        · rw [if_pos hash, if_pos hash]
          cases found : node.hashChild with
          | none =>
              have missing : trieShape.child .hash node = none := found
              rw [trieShape.prune_missing _ _ _ _ node missing]
          | some child =>
              have present : trieShape.child .hash node = some child := found
              rw [trieShape.prune_child _ _ _ _ node child present]
              simp only [ih]
              rfl
        · rw [if_neg hash, if_neg hash]
          cases found : Entries.find segment node.children with
          | none =>
              have missing : trieShape.child (.literal segment) node = none := found
              rw [trieShape.prune_missing _ _ _ _ node missing]
          | some child =>
              have present : trieShape.child (.literal segment) node = some child := found
              rw [trieShape.prune_child _ _ _ _ node child present]
              simp only [ih, vacancy]
              split <;> rfl

def Held.entry (self : Held) (clientId : String) (group : Option String) : Option SubscriptionInfo :=
  match group with
  | some grp => ((self.sharedSubscriptions.get grp).getD []).find? fun s => s.clientId == clientId
  | none => self.subscriptions.get clientId

-- A client stands under its own name, and once in a group; no group is empty.
structure Held.Valid (held : Held) : Prop where
  named : ∀ clientId subInfo, held.subscriptions.get clientId = some subInfo → subInfo.clientId = clientId
  inhabited : ∀ grp list, held.sharedSubscriptions.get grp = some list → list ≠ []
  once : ∀ grp list, held.sharedSubscriptions.get grp = some list → (list.map (·.clientId)).Nodup

theorem held_empty_valid : Held.Valid {} where
  named _ _ found := by simp at found
  inhabited _ _ found := by simp at found
  once _ _ found := by simp at found

-- list.retain(|s| s.client_id != client_id)
theorem find_retain (clientId other : String) (list : List SubscriptionInfo) :
    (list.filter fun s => s.clientId != clientId).find? (fun s => s.clientId == other) =
      if other = clientId then none else list.find? fun s => s.clientId == other := by
  induction list with
  | nil => simp
  | cons subInfo tail ih =>
      by_cases gone : subInfo.clientId = clientId
      · rw [List.filter_cons_of_neg (by simp [gone]), ih]
        by_cases same : other = clientId
        · rw [if_pos same, if_pos same]
        · rw [if_neg same, if_neg same, List.find?_cons_of_neg (by simp [gone, Ne.symm same])]
      · rw [List.filter_cons_of_pos (by simp [gone])]
        by_cases found : subInfo.clientId = other
        · rw [List.find?_cons_of_pos (by simp [found]), if_neg (fun same => gone (found.trans same)),
            List.find?_cons_of_pos (by simp [found])]
        · rw [List.find?_cons_of_neg (by simp [found]), ih, List.find?_cons_of_neg (by simp [found])]

theorem retain_once (clientId : String) (list : List SubscriptionInfo) (once : (list.map (·.clientId)).Nodup) :
    ((list.filter fun s => s.clientId != clientId).map (·.clientId)).Nodup :=
  once.sublist (List.filter_sublist.map _)

theorem retain_shorter_iff (clientId : String) (list : List SubscriptionInfo) :
    (list.filter fun s => s.clientId != clientId).length < list.length ↔
      (list.find? fun s => s.clientId == clientId).isSome = true := by
  rw [List.length_filter_lt_length_iff_exists, List.find?_isSome]
  simp

theorem entry_store (held : Held) (group other : Option String) (subInfo : SubscriptionInfo) (clientId : String) :
    (held.store group subInfo).entry clientId other =
      if clientId = subInfo.clientId ∧ other = group then some subInfo else held.entry clientId other := by
  cases group with
  | none =>
      cases other with
      | none =>
          simp only [Held.store, Held.entry, Assoc.get_insert, and_true]
          simp only [eq_comm]
      | some grp' => simp [Held.store, Held.entry]
  | some grp =>
      cases other with
      | none => simp [Held.store, Held.entry]
      | some grp' =>
          simp only [Held.store, Held.entry, Assoc.get_insert, Option.some.injEq]
          by_cases sameGroup : grp = grp'
          · subst sameGroup
            rw [if_pos rfl, Option.getD_some, List.find?_append, find_retain]
            by_cases same : clientId = subInfo.clientId
            · simp [same]
            · rw [if_neg same, if_neg (fun both => same both.1)]
              simp [Ne.symm same]
          · rw [if_neg sameGroup, if_neg (fun both => sameGroup both.2.symm)]

theorem store_valid (held : Held) (group : Option String) (subInfo : SubscriptionInfo) (valid : held.Valid) :
    (held.store group subInfo).Valid := by
  cases group with
  | none =>
      refine ⟨?_, valid.inhabited, valid.once⟩
      intro clientId found get
      simp only [Held.store, Assoc.get_insert] at get
      split at get
      · rename_i same
        cases get
        exact same
      · exact valid.named clientId found get
  | some grp =>
      refine ⟨valid.named, ?_, ?_⟩
      · intro grp' list get
        simp only [Held.store, Assoc.get_insert] at get
        split at get
        · cases get
          simp
        · exact valid.inhabited grp' list get
      · intro grp' list get
        simp only [Held.store, Assoc.get_insert] at get
        split at get
        · cases get
          have once : (((held.sharedSubscriptions.get grp).getD []).map (·.clientId)).Nodup := by
            cases old : held.sharedSubscriptions.get grp with
            | none => exact List.nodup_nil
            | some list => exact valid.once grp list old
          rw [List.map_append, List.nodup_append]
          refine ⟨retain_once subInfo.clientId _ once, by simp, ?_⟩
          intro clientId member other last
          obtain ⟨s, kept, rfl⟩ := List.mem_map.mp member
          have apart := (List.mem_filter.mp kept).2
          simp only [List.map_cons, List.map_nil, List.mem_singleton] at last
          rw [last]
          exact bne_iff_ne.mp apart
        · exact valid.once grp' list get

theorem drop_result (held : Held) (clientId : String) (group : Option String) :
    (held.drop clientId group).2 = (held.entry clientId group).isSome := by
  cases group with
  | none => rfl
  | some grp =>
      cases found : held.sharedSubscriptions.get grp with
      | none => simp [Held.drop, Held.entry, found]
      | some list =>
          simp only [Held.drop, Held.entry, found, Option.getD_some]
          rw [Bool.eq_iff_iff, decide_eq_true_iff]
          exact retain_shorter_iff clientId list

theorem drop_shared (held : Held) (clientId grp : String) (list : List SubscriptionInfo)
    (found : held.sharedSubscriptions.get grp = some list) (other : String) :
    (held.drop clientId (some grp)).1.sharedSubscriptions.get other =
      if grp = other then
        (if (list.filter fun s => s.clientId != clientId) = [] then none
          else some (list.filter fun s => s.clientId != clientId))
      else held.sharedSubscriptions.get other := by
  simp only [Held.drop, found]
  by_cases gone : (list.filter fun s => s.clientId != clientId) = []
  · rw [if_pos (by simp [gone]), Assoc.get_remove, if_pos gone]
  · rw [if_neg (by simpa using gone), Assoc.get_insert, if_neg gone]

theorem drop_absent (held : Held) (clientId grp : String) (absent : held.sharedSubscriptions.get grp = none) :
    (held.drop clientId (some grp)).1 = held := by simp [Held.drop, absent]

theorem drop_shared_normal (held : Held) (clientId grp : String) :
    (held.drop clientId (some grp)).1.subscriptions = held.subscriptions := by
  unfold Held.drop
  dsimp only
  split <;> rfl

theorem entry_drop (held : Held) (clientId other : String) (group otherGroup : Option String) :
    (held.drop clientId group).1.entry other otherGroup =
      if other = clientId ∧ otherGroup = group then none else held.entry other otherGroup := by
  cases group with
  | none =>
      cases otherGroup with
      | none =>
          simp only [Held.drop, Held.entry, Assoc.get_remove, and_true]
          simp only [eq_comm]
      | some grp' => simp [Held.drop, Held.entry]
  | some grp =>
      cases found : held.sharedSubscriptions.get grp with
      | none =>
          rw [drop_absent held clientId grp found]
          split
          · rename_i both
            simp [Held.entry, both.2, found]
          · rfl
      | some list =>
          cases otherGroup with
          | none => simp [Held.drop, Held.entry, found]
          | some grp' =>
              simp only [Held.entry, drop_shared held clientId grp list found, Option.some.injEq]
              by_cases sameGroup : grp = grp'
              · subst sameGroup
                have retained := find_retain clientId other list
                simp only [if_true, and_true, found, Option.getD_some]
                rw [← retained]
                split
                · rename_i gone
                  rw [gone]
                  rfl
                · rfl
              · rw [if_neg sameGroup, if_neg (fun both => sameGroup both.2.symm)]

theorem drop_valid (held : Held) (clientId : String) (group : Option String) (valid : held.Valid) :
    (held.drop clientId group).1.Valid := by
  cases group with
  | none =>
      refine ⟨?_, valid.inhabited, valid.once⟩
      intro other subInfo get
      simp only [Held.drop, Assoc.get_remove] at get
      split at get
      · cases get
      · exact valid.named other subInfo get
  | some grp =>
      cases found : held.sharedSubscriptions.get grp with
      | none =>
          rw [drop_absent held clientId grp found]
          exact valid
      | some list =>
          refine ⟨?_, ?_, ?_⟩
          · rw [drop_shared_normal]
            exact valid.named
          · intro grp' list' get
            rw [drop_shared held clientId grp list found] at get
            split at get
            · split at get
              · cases get
              · rename_i nonempty
                cases get
                exact nonempty
            · exact valid.inhabited grp' list' get
          · intro grp' list' get
            rw [drop_shared held clientId grp list found] at get
            split at get
            · split at get
              · cases get
              · cases get
                exact retain_once clientId list (valid.once grp list found)
            · exact valid.once grp' list' get

-- The trie at a path and the table at a level list say the same, and no row of the
-- table goes on behind a '#'.
structure Refines (root : TrieNode) (table : Table) : Prop where
  valid : ∀ path, (trieShape.valueAt path root).Valid
  rows : ∀ path clientId group, (trieShape.valueAt path root).entry clientId group =
    (table.get ⟨clientId, group, path⟩).map (subscriptionInfo ⟨clientId, group, path⟩)
  cut : ∀ key, (table.get key).isSome → cutLevels key.levels = key.levels

theorem refines_new : Refines {} {} where
  valid path := by
    rw [show ({} : TrieNode) = trieShape.empty from rfl, trieShape.value_at_new]
    exact held_empty_valid
  rows path clientId group := by
    rw [show ({} : TrieNode) = trieShape.empty from rfl, trieShape.value_at_new]
    cases group <;> rfl
  cut key present := by simp at present

theorem key_cut (clientId topicFilter : String) :
    cutLevels (keyOf clientId topicFilter).levels = (keyOf clientId topicFilter).levels := by
  simp only [keyOf, cut_levels_idempotent]

theorem plant_refines (root : TrieNode) (table : Table) (refines : Refines root table) (key : Key) (granted : Granted)
    (cut : cutLevels key.levels = key.levels) :
    Refines (trieShape.plant (Held.store key.group (subscriptionInfo key granted)) key.levels root)
      (table.insert key granted) := by
  refine ⟨?_, ?_, ?_⟩
  · intro path
    rw [trieShape.value_at_plant]
    split
    · exact store_valid _ _ _ (refines.valid _)
    · exact refines.valid path
  · intro path other group
    rw [trieShape.value_at_plant, Assoc.get_insert]
    by_cases here : path = key.levels
    · rw [if_pos here, entry_store, refines.rows, here]
      by_cases same : other = (subscriptionInfo key granted).clientId ∧ group = key.group
      · have row : key = ⟨other, group, key.levels⟩ := by rw [same.1, same.2]; rfl
        rw [if_pos same, if_pos row, ← row]
        rfl
      · rw [if_neg same, if_neg (fun eq => same ⟨(congrArg Key.clientId eq).symm, (congrArg Key.group eq).symm⟩)]
    · rw [if_neg here, if_neg (fun eq => here (congrArg Key.levels eq).symm), refines.rows]
  · intro other present
    rw [Assoc.get_insert] at present
    split at present
    · rename_i same
      rw [← same]
      exact cut
    · exact refines.cut other present

theorem subscribe_refines (root : TrieNode) (table : Table) (refines : Refines root table)
    (clientId topicFilter : String) (qos : UInt8) (identifier : Option UInt32) :
    Refines (subscribe root clientId topicFilter qos identifier)
      (table.subscribe clientId topicFilter qos identifier) := by
  have planted := plant_refines root table refines (keyOf clientId topicFilter) ⟨qos, identifier⟩
    (key_cut clientId topicFilter)
  simpa only [subscribe, subscribe_at_plant, Table.subscribe, keyOf, filterLevels, subscriptionInfo] using planted

theorem refines_congr (root : TrieNode) (table other : Table) (same : ∀ key, table.get key = other.get key)
    (refines : Refines root table) : Refines root other where
  valid := refines.valid
  rows path clientId group := by rw [refines.rows, same]
  cut key present := refines.cut key (by rw [same]; exact present)

theorem prune_refines (root : TrieNode) (table : Table) (refines : Refines root table) (clientId : String)
    (group : Option String) (levels : List (Level String)) :
    Refines (trieShape.prune (Held.drop clientId group) false levels root).1
        (table.remove ⟨clientId, group, levels⟩) ∧
      (trieShape.prune (Held.drop clientId group) false levels root).2 =
        (table.get ⟨clientId, group, levels⟩).isSome := by
  have vacant : Held.drop clientId group (trieShape.value trieShape.empty) =
      (trieShape.value trieShape.empty, false) := by cases group <;> rfl
  refine ⟨⟨?_, ?_, ?_⟩, ?_⟩
  · intro path
    rw [trieShape.value_at_prune _ _ vacant]
    split
    · exact drop_valid _ _ _ (refines.valid _)
    · exact refines.valid path
  · intro path other otherGroup
    rw [trieShape.value_at_prune _ _ vacant, Assoc.get_remove]
    by_cases here : path = levels
    · rw [if_pos here, entry_drop, refines.rows, here]
      by_cases same : other = clientId ∧ otherGroup = group
      · rw [if_pos same, if_pos (by rw [same.1, same.2])]
        rfl
      · rw [if_neg same, if_neg (fun eq => same ⟨(congrArg Key.clientId eq).symm, (congrArg Key.group eq).symm⟩)]
    · rw [if_neg here, if_neg (fun eq => here (congrArg Key.levels eq).symm), refines.rows]
  · intro key present
    rw [Assoc.get_remove] at present
    split at present
    · cases present
    · exact refines.cut key present
  · rw [trieShape.prune_result _ _ vacant, drop_result, refines.rows, Option.isSome_map]

theorem unsubscribe_refines (root : TrieNode) (table : Table) (refines : Refines root table)
    (clientId topicFilter : String) :
    (unsubscribe root clientId topicFilter).2 = (table.unsubscribe clientId topicFilter).2 ∧
      Refines (unsubscribe root clientId topicFilter).1 (table.unsubscribe clientId topicFilter).1 := by
  have pruned : unsubscribe root clientId topicFilter =
      trieShape.prune (Held.drop clientId (keyOf clientId topicFilter).group) false (filterLevels topicFilter) root := by
    simp only [unsubscribe, unsubscribe_recursive_prune, keyOf, filterLevels]
  obtain ⟨after, result⟩ := prune_refines root table refines clientId (keyOf clientId topicFilter).group
    (filterLevels topicFilter)
  rw [pruned, result]
  -- a level list that goes on behind a '#' is in no row, so nothing is removed
  have absent : ∀ key : Key, table.get key = none → ∀ other, (table.remove key).get other = table.get other := by
    intro key missing other
    rw [Assoc.get_remove]
    split
    · rename_i same
      rw [← same, missing]
    · rfl
  have named : (keyOf clientId topicFilter).clientId = clientId := by simp only [keyOf]
  have levels : (keyOf clientId topicFilter).levels = cutLevels (filterLevels topicFilter) := by simp only [keyOf]
  unfold Table.unsubscribe
  generalize keyOf clientId topicFilter = key at after named levels ⊢
  generalize filterLevels topicFilter = whole at after levels ⊢
  by_cases closed : cutLevels whole = whole
  · have row : (⟨clientId, key.group, whole⟩ : Key) = key := by rw [← closed, ← levels, ← named]
    rw [row] at after ⊢
    by_cases present : (table.get key).isSome
    · rw [if_pos ⟨closed, present⟩]
      exact ⟨present, after⟩
    · rw [if_neg (fun both => present both.2)]
      have missing := Option.not_isSome_iff_eq_none.mp present
      rw [missing]
      exact ⟨rfl, refines_congr _ (table.remove key) table (absent key missing) after⟩
  · have missing : table.get ⟨clientId, key.group, whole⟩ = none := by
      apply Option.not_isSome_iff_eq_none.mp
      exact fun present => closed (refines.cut _ present)
    rw [if_neg (fun both => closed both.1), missing]
    exact ⟨rfl, refines_congr _ _ table (absent _ missing) after⟩

theorem step_refines (op : RouterOp) (trie : TrieNode × List Bool) (table : Table × List Bool)
    (results : trie.2 = table.2) (refines : Refines trie.1 table.1) :
    (op.onTrie trie).2 = (op.onTable table).2 ∧ Refines (op.onTrie trie).1 (op.onTable table).1 := by
  cases op with
  | subscribe clientId topicFilter qos identifier =>
      rw [on_trie_subscribe, on_table_subscribe]
      dsimp only
      exact ⟨results, subscribe_refines trie.1 table.1 refines clientId topicFilter qos identifier⟩
  | unsubscribe clientId topicFilter =>
      obtain ⟨result, after⟩ := unsubscribe_refines trie.1 table.1 refines clientId topicFilter
      rw [on_trie_unsubscribe, on_table_unsubscribe, results, result]
      dsimp only
      exact ⟨rfl, after⟩

theorem run_refines (ops : List RouterOp) :
    (runTrie ops).2 = (runTable ops).2 ∧ Refines (runTrie ops).1 (runTable ops).1 := by
  have run : ∀ (ops : List RouterOp) (trie : TrieNode × List Bool) (table : Table × List Bool),
      trie.2 = table.2 → Refines trie.1 table.1 →
        (ops.foldl RouterOp.onTrie trie).2 = (ops.foldl RouterOp.onTable table).2 ∧
          Refines (ops.foldl RouterOp.onTrie trie).1 (ops.foldl RouterOp.onTable table).1 := by
    intro ops
    induction ops with
    | nil => exact fun _ _ results refines => ⟨results, refines⟩
    | cons op rest ih =>
        intro trie table results refines
        obtain ⟨results, refines⟩ := step_refines op trie table results refines
        exact ih _ _ results refines
  exact run ops _ _ rfl refines_new

end Pipistrelle.Router
