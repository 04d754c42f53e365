import Pipistrelle.Lib.Assoc
import Pipistrelle.Router.Table

set_option autoImplicit false

/- src/config.rs, from the loaded credentials map on. Argon2 is outside of the
   repository: authenticate takes its verification as a parameter. -/
namespace Pipistrelle.Auth

open LevelPattern Router

structure AclRule where
  topic : String
  access : String
deriving DecidableEq, Repr

structure UserConfig where
  username : String
  passwordHash : String
  acl : List AclRule
deriving DecidableEq, Repr

-- None is anonymous mode; an empty map rejects everyone.
structure AuthConfig where
  users : Option (Assoc String UserConfig)

def AuthConfig.authenticate (verifyPassword : String → String → Bool) (self : AuthConfig)
    (username password : String) : Bool :=
  match self.users with
  | none => true
  | some users =>
      match users.get username with
      | some user => verifyPassword password user.passwordHash
      | none => false

-- The while loop of topic_matches_acl_filter, at index i of both level lists.
def aclLoop (topicLevels : List String) : Nat → List String → Bool
  | i, [] => i == topicLevels.length
  | i, level :: rest =>
      if level = "#" then true
      else if topicLevels.length ≤ i then false
      else if level ≠ "+" ∧ topicLevels[i]? ≠ some level then false
      else aclLoop topicLevels (i + 1) rest

def topicMatchesAclFilter (topic filter : String) : Bool :=
  aclLoop (splitLevels topic) 0 (splitLevels filter)

def actionAllowed (access action : String) : Bool :=
  if access = "readwrite" then true
  else if access = "read" then action == "read"
  else if access = "write" then action == "write"
  else false

def AuthConfig.authorize (self : AuthConfig) (username topic action : String) : Bool :=
  match self.users with
  | none => true
  | some users =>
      match users.get username with
      | some user => user.acl.any fun rule => actionAllowed rule.access action && topicMatchesAclFilter topic rule.topic
      | none => false

theorem acl_loop_matches (topicLevels filter : List String) (i : Nat) (within : i ≤ topicLevels.length) :
    aclLoop topicLevels i filter =
      matchesLevels (cutLevels (filter.map parseLevel)) (topicLevels.drop i) := by
  induction filter generalizing i with
  | nil =>
      rw [aclLoop, List.map_nil, cutLevels]
      by_cases done : i = topicLevels.length
      · simp [done, matchesLevels]
      · have nonempty : topicLevels.drop i ≠ [] := by
          rw [ne_eq, List.drop_eq_nil_iff]
          omega
        obtain ⟨segment, rest, more⟩ := List.exists_cons_of_ne_nil nonempty
        simp [done, more, matchesLevels]
  | cons level rest ih =>
      rw [aclLoop, List.map_cons, parseLevel]
      by_cases hash : level = "#"
      · have notPlus : level ≠ "+" := fun plus => absurd (plus.symm.trans hash) (by decide)
        rw [if_pos hash, if_neg notPlus, if_pos hash]
        rfl
      · rw [if_neg hash]
        by_cases past : topicLevels.length ≤ i
        · have nothing : topicLevels.drop i = [] := List.drop_eq_nil_iff.mpr past
          rw [if_pos past, nothing]
          by_cases plus : level = "+"
          · rw [if_pos plus]
            rfl
          · rw [if_neg plus, if_neg hash]
            rfl
        · have inside := Nat.not_le.mp past
          rw [if_neg past, List.drop_eq_getElem_cons inside, List.getElem?_eq_getElem inside]
          by_cases plus : level = "+"
          · rw [if_neg (fun both => both.1 plus), if_pos plus, ih (i + 1) inside]
            rfl
          · rw [if_neg plus, if_neg hash]
            by_cases same : topicLevels[i] = level
            · rw [if_neg (fun both => both.2 (congrArg some same)), ih (i + 1) inside]
              simp only [cutLevels, matchesLevels, same, beq_self_eq_true, Bool.true_and]
            · rw [if_pos ⟨plus, fun eq => same (Option.some.inj eq)⟩]
              simp only [cutLevels, matchesLevels, beq_eq_false_iff_ne.mpr (Ne.symm same), Bool.false_and]

theorem topic_matches_acl_filter_levels (topic filter : String) :
    topicMatchesAclFilter topic filter =
      matchesLevels (cutLevels ((splitLevels filter).map parseLevel)) (splitLevels topic) :=
  acl_loop_matches (splitLevels topic) (splitLevels filter) 0 (Nat.zero_le _)

theorem parsed_well_formed (filter : String) : WellFormed LevelName (cutLevels ((splitLevels filter).map parseLevel)) := by
  refine ⟨cut_levels_idempotent _, fun name member => ?_⟩
  obtain ⟨segment, inside, parsed⟩ := List.mem_map.mp (literal_mem_cut name _ member)
  have named : segment = name := by
    unfold parseLevel at parsed
    split at parsed
    · cases parsed
    · split at parsed
      · cases parsed
      · cases parsed
        rfl
  exact named ▸ split_levels_names filter segment inside

def AuthConfig.readPatterns (self : AuthConfig) (username : String) : List (List (Level String)) :=
  match self.users.bind (·.get username) with
  | some user => (user.acl.filter fun rule => actionAllowed rule.access "read").map fun rule =>
      cutLevels ((splitLevels rule.topic).map parseLevel)
  | none => []

theorem read_patterns_formed (self : AuthConfig) (username : String) :
    ∀ rule ∈ self.readPatterns username, WellFormed LevelName rule := by
  intro pattern member
  unfold AuthConfig.readPatterns at member
  split at member
  · obtain ⟨rule, _, rfl⟩ := List.mem_map.mp member
    exact parsed_well_formed rule.topic
  · cases member

theorem authorize_read_iff (self : AuthConfig) (username topic : String) :
    self.authorize username topic "read" = true ↔
      self.users = none ∨ ∃ rule ∈ self.readPatterns username, matchesLevels rule (splitLevels topic) = true := by
  unfold AuthConfig.authorize AuthConfig.readPatterns
  cases self.users with
  | none => simp
  | some users =>
      simp only [reduceCtorEq, false_or, Option.bind_some]
      cases users.get username with
      | none => simp
      | some user =>
          simp only [List.any_eq_true, Bool.and_eq_true, List.mem_map, List.mem_filter, topic_matches_acl_filter_levels]
          constructor
          · intro found
            obtain ⟨rule, member, allowed, matched⟩ := found
            exact ⟨_, ⟨rule, ⟨member, allowed⟩, rfl⟩, matched⟩
          · intro found
            obtain ⟨_, ⟨rule, ⟨member, allowed⟩, same⟩, matched⟩ := found
            exact ⟨rule, member, allowed, same ▸ matched⟩

end Pipistrelle.Auth
