import Mathlib.Data.List.Induction
import Pipistrelle.Lib.TidyTree
import Pipistrelle.Router.Refinement

set_option autoImplicit false

/- The representation invariant of the trie: what every node satisfies after any
   calls of subscribe and unsubscribe. -/
namespace Pipistrelle.Router

open LevelPattern

def TrieNode.Subscribed (self : TrieNode) : Prop :=
  self.subscriptions.isEmpty = false ∨ self.sharedSubscriptions.isEmpty = false

-- The level is the one under which the node stands, none for the root.
structure TrieNode.Sound (level : Option (Level String)) (node : TrieNode) : Prop where
  occupied : level ≠ none → node.isEmpty = false
  distinct : (node.children.map Prod.fst).Nodup
  names : ∀ name ∈ node.children.map Prod.fst, name ≠ "+" ∧ name ≠ "#"
  last : level = some .hash → node.children = [] ∧ node.plusChild = none ∧ node.hashChild = none
  valid : node.held.Valid

def Follows (level : Option (Level String)) (next : Level String) : Prop :=
  level ≠ some .hash ∧ next ≠ .literal "+" ∧ next ≠ .literal "#"

theorem parse_level_literal (segment name : String) (parsed : parseLevel segment = .literal name) :
    name ≠ "+" ∧ name ≠ "#" := by
  unfold parseLevel at parsed
  by_cases plus : segment = "+"
  · rw [if_pos plus] at parsed
    cases parsed
  · rw [if_neg plus] at parsed
    by_cases hash : segment = "#"
    · rw [if_pos hash] at parsed
      cases parsed
    · rw [if_neg hash] at parsed
      cases parsed
      exact ⟨plus, hash⟩

theorem cut_walk (segments : List String) (level : Option (Level String)) (notEnded : level ≠ some .hash) :
    TreeShape.Walk Follows level (cutLevels (segments.map parseLevel)) := by
  induction segments generalizing level with
  | nil => trivial
  | cons segment rest ih =>
      have follows : Follows level (parseLevel segment) :=
        ⟨notEnded, fun plus => (parse_level_literal segment _ plus).1 rfl, fun hash => (parse_level_literal segment _ hash).2 rfl⟩
      rw [List.map_cons]
      cases parsed : parseLevel segment with
      | hash => exact ⟨parsed ▸ follows, trivial⟩
      | plus => exact ⟨parsed ▸ follows, ih (some .plus) (by simp)⟩
      | literal name => exact ⟨parsed ▸ follows, ih (some (.literal name)) (by simp)⟩

theorem held_empty (node : TrieNode) (vacant : node.isEmpty = true) : node.held = {} := by
  rw [empty_parts node vacant]
  rfl

theorem empty_sound : TrieNode.Sound none {} where
  occupied labelled := absurd rfl labelled
  distinct := List.nodup_nil
  names name member := by simp at member
  last hash := by cases hash
  valid := held_empty_valid

structure Plantable (level : Option (Level String)) (node : TrieNode) : Prop where
  distinct : (node.children.map Prod.fst).Nodup
  names : ∀ name ∈ node.children.map Prod.fst, name ≠ "+" ∧ name ≠ "#"
  last : level = some .hash → node.children = [] ∧ node.plusChild = none ∧ node.hashChild = none
  valid : node.held.Valid

theorem plantable (level : Option (Level String)) (node : TrieNode) (start : node = {} ∨ node.Sound level) :
    Plantable level node := by
  rcases start with rfl | sound
  · exact ⟨List.nodup_nil, by simp, fun _ => ⟨rfl, rfl, rfl⟩, held_empty_valid⟩
  · exact ⟨sound.distinct, sound.names, sound.last, sound.valid⟩

theorem store_occupies (group : Option String) (subInfo : SubscriptionInfo) (node : TrieNode) :
    (trieShape.setValue (node.held.store group subInfo) node).isEmpty = false := by
  rw [← Bool.not_eq_true]
  intro vacant
  have nothing := held_empty _ vacant
  have held : (trieShape.setValue (node.held.store group subInfo) node).held = node.held.store group subInfo := rfl
  have entry := entry_store node.held group group subInfo subInfo.clientId
  rw [← held, nothing, if_pos ⟨rfl, rfl⟩] at entry
  cases group <;> simp [Held.entry] at entry

theorem set_value_sound (level : Option (Level String)) (node : TrieNode) (start : node = {} ∨ node.Sound level)
    (group : Option String) (subInfo : SubscriptionInfo) :
    (trieShape.setValue (node.held.store group subInfo) node).Sound level where
  occupied _ := store_occupies group subInfo node
  distinct := (plantable level node start).distinct
  names := (plantable level node start).names
  last := (plantable level node start).last
  valid := store_valid node.held group subInfo (plantable level node start).valid

theorem child_present (level : Level String) (node : TrieNode) (child : TrieNode) (found : node.child level = some child) :
    node.isEmpty = false := by
  rw [← Bool.not_eq_true]
  intro vacant
  rw [empty_parts node vacant] at found
  cases level <;> simp [TrieNode.child] at found

theorem set_child_sound (level : Option (Level String)) (node : TrieNode) (start : node = {} ∨ node.Sound level)
    (next : Level String) (child : TrieNode) (follows : Follows level next) :
    (node.setChild next (some child)).Sound level := by
  obtain ⟨distinct, names, _, valid⟩ := plantable level node start
  obtain ⟨notEnded, notPlus, notHash⟩ := follows
  have occupied : (node.setChild next (some child)).isEmpty = false :=
    child_present next _ child (set_child_same next node (some child))
  have held : (node.setChild next (some child)).held.Valid := by rwa [set_child_held]
  cases next with
  | plus => exact ⟨fun _ => occupied, distinct, names, fun hash => absurd hash notEnded, held⟩
  | hash => exact ⟨fun _ => occupied, distinct, names, fun hash => absurd hash notEnded, held⟩
  | literal name =>
      refine ⟨fun _ => occupied, Entries.put_distinct name child node.children distinct, ?_, fun hash => absurd hash notEnded, held⟩
      intro other member
      rcases (Entries.put_keys name other child node.children).mp member with same | old
      · rw [same]
        exact ⟨fun plus => notPlus (plus ▸ rfl), fun hash => notHash (hash ▸ rfl)⟩
      · exact names other old

theorem subscribe_tidy (root : TrieNode) (tidy : trieShape.Tidy TrieNode.Sound none root) (clientId topicFilter : String)
    (qos : UInt8) (identifier : Option UInt32) :
    trieShape.Tidy TrieNode.Sound none (subscribe root clientId topicFilter qos identifier) := by
  simp only [subscribe, subscribe_at_plant]
  generalize splitLevels (parseSharedSubscription topicFilter).2 = segments
  have walk := cut_walk segments none (by simp)
  refine TreeShape.plant_tidy Follows _ ?_ ?_ _ none root walk (.inr tidy)
  · exact fun level node start => set_value_sound level node start _ _
  · exact fun level node next child follows start => set_child_sound level node start next child follows

-- A node under a '#' has no children to cut off or to put back.
theorem sound_child_open (level : Option (Level String)) (node : TrieNode) (sound : node.Sound level)
    (next : Level String) (child : TrieNode) (found : node.child next = some child) : Follows level next := by
  refine ⟨?_, ?_, ?_⟩
  · intro hash
    obtain ⟨children, plusChild, hashChild⟩ := sound.last hash
    cases next with
    | plus => exact absurd (plusChild.symm.trans found) (by simp)
    | hash => exact absurd (hashChild.symm.trans found) (by simp)
    | literal name => simp [TrieNode.child, children] at found
  · rintro rfl
    exact (sound.names _ (List.mem_map.mpr ⟨_, Entries.mem_of_find _ _ _ found, rfl⟩)).1 rfl
  · rintro rfl
    exact (sound.names _ (List.mem_map.mpr ⟨_, Entries.mem_of_find _ _ _ found, rfl⟩)).2 rfl

theorem drop_sound (level : Option (Level String)) (node : TrieNode) (sound : node.Sound level) (clientId : String)
    (group : Option String) (left : (trieShape.setValue (node.held.drop clientId group).1 node).isEmpty = false) :
    (trieShape.setValue (node.held.drop clientId group).1 node).Sound level where
  occupied _ := left
  distinct := sound.distinct
  names := sound.names
  last := sound.last
  valid := drop_valid node.held clientId group sound.valid

theorem unlink_sound (level : Option (Level String)) (node : TrieNode) (sound : node.Sound level) (next : Level String)
    (left : (node.setChild next none).isEmpty = false) : (node.setChild next none).Sound level := by
  have held : (node.setChild next none).held.Valid := by
    rw [set_child_held]
    exact sound.valid
  cases next with
  | plus => exact ⟨fun _ => left, sound.distinct, sound.names, fun hash => ⟨(sound.last hash).1, rfl, (sound.last hash).2.2⟩, held⟩
  | hash => exact ⟨fun _ => left, sound.distinct, sound.names, fun hash => ⟨(sound.last hash).1, (sound.last hash).2.1, rfl⟩, held⟩
  | literal name =>
      refine ⟨fun _ => left, Entries.drop_distinct name node.children sound.distinct, ?_, ?_, held⟩
      · intro other member
        obtain ⟨entry, kept, rfl⟩ := List.mem_map.mp member
        exact sound.names entry.1 (List.mem_map_of_mem (List.mem_filter.mp kept).1)
      · intro hash
        obtain ⟨children, plusChild, hashChild⟩ := sound.last hash
        refine ⟨?_, plusChild, hashChild⟩
        simp [TrieNode.setChild, children, Entries.drop]

theorem empty_tidy (node : TrieNode) (vacant : node.isEmpty = true) : trieShape.Tidy TrieNode.Sound none node := by
  rw [empty_parts node vacant]
  have below : ∀ next child, trieShape.child next {} = some child → trieShape.Tidy TrieNode.Sound (some next) child := by
    intro next child found
    have missing : trieShape.child next {} = none := trieShape.child_empty next
    rw [missing] at found
    cases found
  exact .node none _ empty_sound below

theorem unsubscribe_tidy (root : TrieNode) (tidy : trieShape.Tidy TrieNode.Sound none root)
    (clientId topicFilter : String) : trieShape.Tidy TrieNode.Sound none (unsubscribe root clientId topicFilter).1 := by
  simp only [unsubscribe, unsubscribe_recursive_prune]
  generalize (parseSharedSubscription topicFilter).1 = group
  generalize ((splitLevels (parseSharedSubscription topicFilter).2).map parseLevel) = levels
  by_cases vacant : trieShape.isEmpty (trieShape.prune (Held.drop clientId group) false levels root).1 = true
  · exact empty_tidy _ vacant
  · refine TreeShape.prune_tidy _ _ ?_ ?_ ?_ levels none root tidy (by simpa using vacant)
    · exact fun level node sound left => drop_sound level node sound clientId group left
    · exact fun level node next sound left => unlink_sound level node sound next left
    · intro level node next old child sound found
      exact set_child_sound level node (.inr sound) next child (sound_child_open level node sound next old found)

theorem run_tidy (ops : List RouterOp) : trieShape.Tidy TrieNode.Sound none (runTrie ops).1 := by
  unfold runTrie
  induction ops using List.reverseRecOn with
  | nil => exact empty_tidy {} rfl
  | append_singleton ops last ih =>
      rw [List.foldl_append, List.foldl_cons, List.foldl_nil]
      generalize ops.foldl RouterOp.onTrie ({}, []) = state at ih ⊢
      cases last with
      | subscribe clientId topicFilter qos identifier =>
          rw [on_trie_subscribe]
          dsimp only
          exact subscribe_tidy _ ih clientId topicFilter qos identifier
      | unsubscribe clientId topicFilter =>
          rw [on_trie_unsubscribe]
          dsimp only
          exact unsubscribe_tidy _ ih clientId topicFilter

theorem occupied_or_child (node : TrieNode) (occupied : node.isEmpty = false) :
    node.Subscribed ∨ ∃ next child, trieShape.child next node = some child := by
  by_cases subscribed : node.Subscribed
  · exact .inl subscribed
  · refine .inr ?_
    obtain ⟨noNormal, noShared⟩ := not_or.mp subscribed
    simp only [Bool.not_eq_false] at noNormal noShared
    rw [TrieNode.isEmpty, noNormal, noShared, Bool.and_true, Bool.and_true] at occupied
    cases plus : node.plusChild with
    | some child => exact ⟨.plus, child, plus⟩
    | none =>
        cases hash : node.hashChild with
        | some child => exact ⟨.hash, child, hash⟩
        | none =>
            cases children : node.children with
            | nil => simp [plus, hash, children] at occupied
            | cons entry rest =>
                refine ⟨.literal entry.1, entry.2, ?_⟩
                change Entries.find entry.1 node.children = some entry.2
                rw [children, Entries.find, if_pos rfl]

theorem trie_invariant (ops : List RouterOp) :
    let root := (runTrie ops).1
    (∀ path node, trieShape.nodeAt path root = some node → node.Sound path.getLast? ∧
      (path ≠ [] → ∃ more leaf, trieShape.nodeAt more node = some leaf ∧ leaf.Subscribed)) ∧
    ((∀ path node, trieShape.nodeAt path root = some node → ¬node.Subscribed) → root = {}) := by
  intro root
  have tidy : trieShape.Tidy TrieNode.Sound none root := run_tidy ops
  have live : ∀ level node, TrieNode.Sound (some level) node →
      node.Subscribed ∨ ∃ next child, trieShape.child next node = some child :=
    fun level node sound => occupied_or_child node (sound.occupied (Option.some_ne_none level))
  constructor
  · intro path node reached
    have below := TreeShape.tidy_node_at path none root node tidy reached
    rw [Option.or_none] at below
    refine ⟨TreeShape.tidy_here below, fun nonempty => ?_⟩
    exact TreeShape.tidy_live TrieNode.Subscribed live _ node below (by simpa using nonempty)
  · intro bare
    by_contra occupied
    have notEmpty : root.isEmpty = false := by
      rw [← Bool.not_eq_true]
      exact fun vacant => occupied (empty_parts root vacant)
    rcases occupied_or_child root notEmpty with here | ⟨next, child, present⟩
    · exact bare [] root rfl here
    · obtain ⟨path, leaf, reached, alive⟩ := TreeShape.tidy_live TrieNode.Subscribed live (some next) child
        (TreeShape.tidy_child next tidy present) (Option.some_ne_none _)
      exact bare (next :: path) leaf (by rw [TreeShape.nodeAt, present, Option.bind_some, reached]) alive

end Pipistrelle.Router
