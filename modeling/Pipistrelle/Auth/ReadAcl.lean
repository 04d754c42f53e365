import Pipistrelle.Auth.AuthConfig
import Pipistrelle.Router.Matching

set_option autoImplicit false

/- SUBSCRIBE asks authorize for the filter as if it were a topic. What the router
   then delivers is what the filter matches. -/
namespace Pipistrelle.Auth

open LevelPattern Router

-- The levels the router files a filter under: without $share/group, cut at '#'.
def filterPattern (topicFilter : String) : List (Level String) := cutLevels (filterLevels topicFilter)

-- Whatever number of levels the filter's '#' stands for, one rule of the user that
-- lets him read takes in the filter level by level, and a '+' only by '+' or '#'.
def AuthConfig.ReadsAllOf (self : AuthConfig) (username topicFilter : String) : Prop :=
  self.users = none ∨ ∀ k, expand k (filterPattern topicFilter) ≠ [] →
    ∃ rule ∈ self.readPatterns username, covers rule (expand k (filterPattern topicFilter)) = true

theorem reads_all_of_iff (self : AuthConfig) (username topicFilter : String) :
    (∀ topic, matchesLevels (filterPattern topicFilter) (splitLevels topic) = true →
        self.authorize username topic "read" = true) ↔ self.ReadsAllOf username topicFilter := by
  have decided := matched_by_rules_iff LevelName fresh_level (self.readPatterns username) (filterPattern topicFilter)
    (parsed_well_formed _).1 (parsed_well_formed _).2
  simp only [authorize_read_iff]
  unfold AuthConfig.ReadsAllOf
  by_cases anonymous : self.users = none
  · simp [anonymous]
  · simp only [anonymous, false_or]
    rw [← decided]
    constructor
    · intro reads levels nonempty names matched
      have split := split_join levels nonempty names
      have taken := reads (joinLevels levels) (by rw [split]; exact matched)
      rwa [split] at taken
    · intro taken topic matched
      exact taken _ (split_levels_ne_nil topic) (split_levels_names topic) matched

-- match_topic returned a subscription that no other filter of its client could have made.
def MadeWith (ops : List RouterOp) (topicFilter topic : String) (subInfo : SubscriptionInfo) : Prop :=
  Returned (runTrie ops).1 topic subInfo ∧
    ∀ other, .subscribe subInfo.clientId other subInfo.qos subInfo.subscriptionIdentifier ∈ ops → other = topicFilter

theorem made_with_matches (ops : List RouterOp) (topicFilter topic : String) (subInfo : SubscriptionInfo)
    (made : MadeWith ops topicFilter topic subInfo) :
    matchesLevels (filterPattern topicFilter) (splitLevels topic) = true := by
  obtain ⟨returned, only⟩ := made
  obtain ⟨key, granted, get, rfl, matched⟩ := (returned_iff _ _ (run_refines ops).2 topic subInfo).mp returned
  obtain ⟨other, member, same⟩ := table_row_origin ops key granted get
  have used : other = topicFilter := only other member
  have levels : filterPattern topicFilter = key.levels := by rw [← used, ← same]; rfl
  rw [levels]
  exact matched

theorem made_alone (clientId topicFilter topic : String)
    (matched : matchesLevels (filterPattern topicFilter) (splitLevels topic) = true) :
    MadeWith [.subscribe clientId topicFilter 0 none] topicFilter topic ⟨clientId, 0, none⟩ := by
  refine ⟨?_, ?_⟩
  · refine (returned_iff _ _ (run_refines _).2 topic _).mpr ⟨keyOf clientId topicFilter, ⟨0, none⟩, ?_, rfl, matched⟩
    exact (Assoc.get_insert _ _ _ _).trans (if_pos rfl)
  · intro other member
    cases List.mem_singleton.mp member
    rfl

theorem read_acl_not_widened_iff (auth : AuthConfig) (username topicFilter : String) :
    (auth.authorize username topicFilter "read" = true → ∀ ops topic subInfo, MadeWith ops topicFilter topic subInfo →
        auth.authorize username topic "read" = true) ↔
      (auth.authorize username topicFilter "read" = true → auth.ReadsAllOf username topicFilter) := by
  refine imp_congr_right fun _ => ?_
  rw [← reads_all_of_iff]
  constructor
  · intro closed topic matched
    exact closed _ topic _ (made_alone "" topicFilter topic matched)
  · intro reads ops topic subInfo made
    exact reads topic (made_with_matches ops topicFilter topic subInfo made)

def oneLevelReader : AuthConfig where
  users := some ((({} : Assoc String UserConfig)).insert "u" ⟨"u", "", [⟨"+", "read"⟩]⟩)

theorem hash_widens_plus :
    oneLevelReader.authorize "u" "#" "read" = true ∧
      MadeWith [.subscribe "c" "#" 0 none] "#" "a/b" ⟨"c", 0, none⟩ ∧
        oneLevelReader.authorize "u" "a/b" "read" = false :=
  ⟨by decide +kernel, ⟨.inl (by decide +kernel), by simp⟩, by decide +kernel⟩

theorem parse_ordinary (topicFilter : String) (ordinary : (parseSharedSubscription topicFilter).1 = none) :
    (parseSharedSubscription topicFilter).2 = topicFilter := by
  unfold parseSharedSubscription at ordinary ⊢
  split at ordinary
  · rename_i shared
    rw [if_pos shared]
    split at ordinary
    · cases ordinary
    · rfl
  · rename_i plain
    rw [if_neg plain]

theorem acl_matcher_agrees_with_router (clientId topic topicFilter : String) (qos : UInt8) (identifier : Option UInt32)
    (ordinary : (parseSharedSubscription topicFilter).1 = none) :
    topicMatchesAclFilter topic topicFilter = true ↔
      ⟨clientId, qos, identifier⟩ ∈ (matchTopic (Router.subscribe {} clientId topicFilter qos identifier) topic).normal := by
  have refines := subscribe_refines {} {} refines_new clientId topicFilter qos identifier
  have key : keyOf clientId topicFilter = ⟨clientId, none, cutLevels ((splitLevels topicFilter).map parseLevel)⟩ := by
    rw [keyOf, filterLevels, ordinary, parse_ordinary topicFilter ordinary]
  rw [(match_topic_normal _ _ refines topic).mem_iff, mem_matching_iff, topic_matches_acl_filter_levels, Table.subscribe, key]
  constructor
  · intro matched
    exact ⟨_, _, (Assoc.get_insert _ _ _ _).trans (if_pos rfl), rfl, rfl, matched⟩
  · intro row
    obtain ⟨other, granted, get, _, _, matched⟩ := row
    rw [Assoc.get_insert] at get
    split at get
    · rename_i same
      subst same
      exact matched
    · cases get

theorem parent_level_matched_by_both :
    topicMatchesAclFilter "sensor" "sensor/#" = true ↔
      ⟨"c", 0, none⟩ ∈ (matchTopic (Router.subscribe {} "c" "sensor/#" 0 none) "sensor").normal :=
  acl_matcher_agrees_with_router "c" "sensor" "sensor/#" 0 none (by decide +kernel)

end Pipistrelle.Auth
