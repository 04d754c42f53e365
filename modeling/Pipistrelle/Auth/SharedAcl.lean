import Pipistrelle.Auth.AuthConfig

set_option autoImplicit false

/- A shared subscription before the ACL. SUBSCRIBE hands authorize the filter as it
   came, with the prefix that the router takes off. -/
namespace Pipistrelle.Auth

open LevelPattern Router

def sharedFilter (group filter : String) : String := "$share/" ++ group ++ "/" ++ filter

theorem shared_filter_chars (group filter : String) :
    (sharedFilter group filter).toList = "$share".toList ++ '/' :: (group.toList ++ '/' :: filter.toList) := by
  simp [sharedFilter]

theorem split_levels_shared (group filter : String) (named : LevelName group) :
    splitLevels (sharedFilter group filter) = "$share" :: group :: splitLevels filter := by
  rw [splitLevels, shared_filter_chars, List.splitOn_append_cons_self_of_not_mem (by decide),
    List.splitOn_append_cons_self_of_not_mem named, List.map_cons, List.map_cons, String.ofList_toList,
    String.ofList_toList, splitLevels]

theorem splitn_append (sep : Char) (n : Nat) (part rest : List Char) (free : sep ∉ part) :
    splitn sep (n + 2) (part ++ sep :: rest) = part :: splitn sep (n + 1) rest := by
  have stops : ∀ char ∈ part, (char != sep) = true := fun char member => by
    simpa using fun same : char = sep => free (same ▸ member)
  rw [splitn, List.dropWhile_append_of_pos stops, List.takeWhile_append_of_pos stops]
  simp

theorem parse_shared_filter (group filter : String) (named : LevelName group) :
    parseSharedSubscription (sharedFilter group filter) = (some group, filter) := by
  have begins : "$share/".toList.isPrefixOf (sharedFilter group filter).toList = true := by
    rw [shared_filter_chars, List.isPrefixOf_iff_prefix]
    exact ⟨group.toList ++ '/' :: filter.toList, rfl⟩
  rw [parseSharedSubscription, if_pos begins, shared_filter_chars, splitn_append '/' 1 _ _ (by decide),
    splitn_append '/' 0 _ _ named, splitn]
  simp

-- What is left of the read rules that let '$share' and the group through.
def AuthConfig.sharedPatterns (self : AuthConfig) (username group : String) : List (List (Level String)) :=
  (self.readPatterns username).filterMap fun rule => (behind "$share" rule).bind (behind group)

theorem mem_shared_patterns (self : AuthConfig) (username group : String) (rest : List (Level String)) :
    rest ∈ self.sharedPatterns username group ↔
      ∃ rule ∈ self.readPatterns username, ∃ middle, behind "$share" rule = some middle ∧ behind group middle = some rest := by
  simp only [AuthConfig.sharedPatterns, List.mem_filterMap, Option.bind_eq_some_iff]

theorem authorize_shared_iff (self : AuthConfig) (username group filter : String) (named : LevelName group) :
    self.authorize username (sharedFilter group filter) "read" = true ↔
      self.users = none ∨ ∃ rest ∈ self.sharedPatterns username group, matchesLevels rest (splitLevels filter) = true := by
  rw [authorize_read_iff, split_levels_shared group filter named]
  refine or_congr_right ?_
  constructor
  · rintro ⟨rule, member, matched⟩
    obtain ⟨middle, first, matched⟩ := (matches_cons_iff _ _ _).mp matched
    obtain ⟨rest, second, matched⟩ := (matches_cons_iff _ _ _).mp matched
    exact ⟨rest, (mem_shared_patterns self username group rest).mpr ⟨rule, member, middle, first, second⟩, matched⟩
  · rintro ⟨rest, member, matched⟩
    obtain ⟨rule, inside, middle, first, second⟩ := (mem_shared_patterns self username group rest).mp member
    have between := (matches_cons_iff middle group (splitLevels filter)).mpr ⟨rest, second, matched⟩
    exact ⟨rule, inside, (matches_cons_iff _ _ _).mpr ⟨middle, first, between⟩⟩

theorem behind_well_formed (allowed : String → Prop) (segment : String) (rule rest : List (Level String))
    (formed : WellFormed allowed rule) (left : behind segment rule = some rest) : WellFormed allowed rest := by
  unfold behind at left
  split at left
  case h_4 => cases left
  case h_1 =>
    cases left
    exact formed
  case h_2 =>
    cases left
    exact well_formed_tail allowed .plus _ formed
  case h_3 =>
    split at left
    · cases left
      exact well_formed_tail allowed _ _ formed
    · cases left

theorem shared_patterns_formed (self : AuthConfig) (username group : String) :
    ∀ rest ∈ self.sharedPatterns username group, WellFormed LevelName rest := by
  intro rest member
  obtain ⟨rule, inside, middle, first, second⟩ := (mem_shared_patterns self username group rest).mp member
  have formed := read_patterns_formed self username rule inside
  exact behind_well_formed _ _ middle rest (behind_well_formed _ _ rule middle formed first) second

-- A set of filters, described by a pattern as rules have it: '#' for all filters, the
-- levels of one filter for this one.
structure FilterScope where
  levels : List (Level String)
  formed : WellFormed LevelName levels

def FilterScope.Has (self : FilterScope) (filter : String) : Prop :=
  matchesLevels self.levels (splitLevels filter) = true

theorem literal_levels_formed (filter : String) :
    WellFormed LevelName ((splitLevels filter).map Level.literal) := by
  refine ⟨?_, fun name member => ?_⟩
  · generalize splitLevels filter = levels
    induction levels with
    | nil => rfl
    | cons level rest ih => simp [cutLevels, ih]
  · obtain ⟨segment, inside, same⟩ := List.mem_map.mp member
    exact Level.literal.inj same ▸ split_levels_names filter segment inside

def FilterScope.only (filter : String) : FilterScope := ⟨(splitLevels filter).map .literal, literal_levels_formed filter⟩

theorem only_has_iff (filter other : String) : (FilterScope.only filter).Has other ↔ other = filter := by
  have levels : ∀ first second : List String,
      matchesLevels (first.map Level.literal) second = true ↔ second = first := by
    intro first
    induction first with
    | nil => intro second; cases second <;> simp [matchesLevels]
    | cons level rest ih =>
        intro second
        cases second with
        | nil => simp [matchesLevels]
        | cons segment topic =>
            rw [List.map_cons, matchesLevels, Bool.and_eq_true, beq_iff_eq, ih, List.cons.injEq]
            exact and_congr_left' eq_comm
  refine (levels _ _).trans ⟨fun same => ?_, fun same => by rw [same]⟩
  rw [← join_split other, same, join_split]

-- Of the filters in the scope, the read rules that let '$share' and the group through
-- cover behind them what the read rules cover, and no more.
def AuthConfig.SharedAlike (self : AuthConfig) (username group : String) (scope : FilterScope) : Prop :=
  self.users = none ∨
    CoversAll (self.sharedPatterns username group) ((self.readPatterns username).filterMap (meet scope.levels)) ∧
      CoversAll (self.readPatterns username) ((self.sharedPatterns username group).filterMap (meet scope.levels))

theorem taken_within_iff (scope : FilterScope) (rules targets : List (List (Level String)))
    (formed : ∀ target ∈ targets, WellFormed LevelName target) :
    (∀ filter, scope.Has filter → (∃ target ∈ targets, matchesLevels target (splitLevels filter) = true) →
        ∃ rule ∈ rules, matchesLevels rule (splitLevels filter) = true) ↔
      CoversAll rules (targets.filterMap (meet scope.levels)) := by
  rw [← matched_within_iff LevelName fresh_level scope.levels rules targets scope.formed formed]
  constructor
  · intro taken levels nonempty names inScope
    have split := split_join levels nonempty names
    have here := taken (joinLevels levels)
    rw [FilterScope.Has, split] at here
    exact here inScope
  · intro taken filter inScope
    exact taken (splitLevels filter) (split_levels_ne_nil filter) (split_levels_names filter) inScope

theorem shared_alike_iff (self : AuthConfig) (username group : String) (scope : FilterScope) (named : LevelName group) :
    (∀ filter, scope.Has filter →
        self.authorize username (sharedFilter group filter) "read" = self.authorize username filter "read") ↔
      self.SharedAlike username group scope := by
  unfold AuthConfig.SharedAlike
  rw [← taken_within_iff scope _ _ (read_patterns_formed self username),
    ← taken_within_iff scope _ _ (shared_patterns_formed self username group), ← forall_and]
  by_cases anonymous : self.users = none
  · refine iff_of_true (fun filter _ => ?_) (.inl anonymous)
    rw [(authorize_shared_iff self username group filter named).mpr (.inl anonymous),
      (authorize_read_iff self username filter).mpr (.inl anonymous)]
  · rw [or_iff_right anonymous]
    refine forall_congr' fun filter => ?_
    rw [← imp_and, Bool.eq_iff_iff, authorize_shared_iff self username group filter named, or_iff_right anonymous,
      authorize_read_iff, or_iff_right anonymous]
    exact imp_congr_right fun _ => iff_def.trans and_comm

theorem shared_read_iff (self : AuthConfig) (username group : String) (named : '/' ∉ group.toList) :
    (∀ filter, parseSharedSubscription (sharedFilter group filter) = (some group, filter) ∧
        (self.authorize username (sharedFilter group filter) "read" = self.authorize username filter "read" ↔
          self.SharedAlike username group (.only filter))) ∧
      ∀ scope : FilterScope,
        (∀ filter, scope.Has filter →
            self.authorize username (sharedFilter group filter) "read" = self.authorize username filter "read") ↔
          self.SharedAlike username group scope := by
  refine ⟨fun filter => ⟨parse_shared_filter group filter named, ?_⟩, fun scope => ?_⟩
  case refine_2 => exact shared_alike_iff self username group scope named
  rw [← shared_alike_iff self username group _ named]
  constructor
  · intro same other inScope
    rw [(only_has_iff filter other).mp inScope]
    exact same
  · exact fun same => same filter ((only_has_iff filter filter).mpr rfl)

def singleReader (topic : String) : AuthConfig where
  users := some ((({} : Assoc String UserConfig)).insert "u" ⟨"u", "", [⟨topic, "read"⟩]⟩)

theorem shared_read_of_everything :
    (∀ filter, parseSharedSubscription (sharedFilter "g" filter) = (some "g", filter) ∧
        ((singleReader "#").authorize "u" (sharedFilter "g" filter) "read" =
            (singleReader "#").authorize "u" filter "read" ↔
          (singleReader "#").SharedAlike "u" "g" (.only filter))) ∧
      ∀ scope : FilterScope,
        (∀ filter, scope.Has filter →
            (singleReader "#").authorize "u" (sharedFilter "g" filter) "read" =
              (singleReader "#").authorize "u" filter "read") ↔
          (singleReader "#").SharedAlike "u" "g" scope :=
  shared_read_iff _ "u" "g" (by decide)

theorem shared_filter_misjudged :
    '/' ∉ "g".toList ∧
      ((singleReader "a").authorize "u" "a" "read" = true ∧
        (singleReader "a").authorize "u" "$share/g/a" "read" = false) ∧
      (singleReader "+/+/a").authorize "u" "a" "read" = false ∧
        (singleReader "+/+/a").authorize "u" "$share/g/a" "read" = true :=
  ⟨by decide, ⟨by decide +kernel, by decide +kernel⟩, by decide +kernel, by decide +kernel⟩

end Pipistrelle.Auth
