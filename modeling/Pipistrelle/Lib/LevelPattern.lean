import Mathlib.Data.List.Basic

set_option autoImplicit false

/- Patterns over lists of levels: a level is a literal, a wildcard for one level, or
   a wildcard for all that remain. Whether a finite set of patterns takes in all
   that another one matches can be read off the patterns level by level, as long
   as there are always levels that none of them names. -/
universe u

namespace LevelPattern

inductive Level (α : Type u) where
  | plus
  | hash
  | literal (name : α)
deriving DecidableEq, Repr

variable {α : Type u}

def cutLevels : List (Level α) → List (Level α)
  | [] => []
  | .hash :: _ => [.hash]
  | level :: rest => level :: cutLevels rest

theorem cut_levels_idempotent (levels : List (Level α)) : cutLevels (cutLevels levels) = cutLevels levels := by
  induction levels with
  | nil => rfl
  | cons level rest ih =>
      cases level with
      | hash => rfl
      | plus => simp [cutLevels, ih]
      | literal name => simp [cutLevels, ih]

-- The pattern with its trailing '#' replaced by the given number of '+'.
def expand (k : Nat) : List (Level α) → List (Level α)
  | [] => []
  | .hash :: _ => List.replicate k .plus
  | level :: rest => level :: expand k rest

def HashFree (pattern : List (Level α)) : Prop := .hash ∉ pattern

theorem expand_hash_free (k : Nat) (pattern : List (Level α)) : HashFree (expand k pattern) := by
  induction pattern with
  | nil => simp [expand, HashFree]
  | cons level rest ih =>
      cases level with
      | hash => simp [expand, HashFree, List.mem_replicate]
      | plus => simpa [expand, HashFree] using ih
      | literal name => simpa [expand, HashFree] using ih

variable [DecidableEq α]

def matchesLevels : List (Level α) → List α → Bool
  | [.hash], _ => true
  | [], [] => true
  | .plus :: pattern, _ :: topic => matchesLevels pattern topic
  | .literal name :: pattern, segment :: topic => name == segment && matchesLevels pattern topic
  | _, _ => false

-- What is left of a rule behind one level that it lets through.
def behind (segment : α) : List (Level α) → Option (List (Level α))
  | [.hash] => some [.hash]
  | .plus :: rest => some rest
  | .literal name :: rest => if name = segment then some rest else none
  | _ => none

theorem matches_cons_iff (rule : List (Level α)) (segment : α) (topic : List α) :
    matchesLevels rule (segment :: topic) = true ↔
      ∃ rest, behind segment rule = some rest ∧ matchesLevels rest topic = true := by
  match rule with
  | [] => simp [matchesLevels, behind]
  | [.hash] => simp [matchesLevels, behind]
  | .hash :: _ :: _ => simp [matchesLevels, behind]
  | .plus :: rest => simp [matchesLevels, behind]
  | .literal name :: rest =>
      by_cases same : name = segment
      · simp [matchesLevels, behind, same]
      · simp [matchesLevels, behind, same]

-- A rule takes in another pattern level by level; only '+' or '#' takes in a '+'.
def covers : List (Level α) → List (Level α) → Bool
  | [.hash], _ => true
  | [], [] => true
  | .plus :: rule, _ :: target => covers rule target
  | .literal name :: rule, .literal other :: target => name == other && covers rule target
  | _, _ => false

theorem matches_of_covers (rule target : List (Level α)) (topic : List α) (free : HashFree target)
    (covered : covers rule target = true) (matched : matchesLevels target topic = true) :
    matchesLevels rule topic = true := by
  induction target generalizing rule topic with
  | nil =>
      cases topic with
      | cons segment topic => simp [matchesLevels] at matched
      | nil =>
          match rule with
          | [] => rfl
          | [.hash] => rfl
          | .hash :: _ :: _ | .plus :: _ | .literal _ :: _ => simp [covers] at covered
  | cons level target ih =>
      have below : HashFree target := fun member => free (List.mem_cons_of_mem _ member)
      cases topic with
      | nil =>
          cases level with
          | hash => exact absurd List.mem_cons_self free
          | plus => simp [matchesLevels] at matched
          | literal name => simp [matchesLevels] at matched
      | cons segment topic =>
          match rule with
          | [] => simp [covers] at covered
          | [.hash] => rfl
          | .hash :: _ :: _ => simp [covers] at covered
          | .plus :: rule =>
              have covered : covers rule target = true := covered
              cases level with
              | hash => exact absurd List.mem_cons_self free
              | plus => exact ih rule topic below covered matched
              | literal name =>
                  simp only [matchesLevels, Bool.and_eq_true] at matched
                  exact ih rule topic below covered matched.2
          | .literal name :: rule =>
              cases level with
              | hash => exact absurd List.mem_cons_self free
              | plus => simp [covers] at covered
              | literal other =>
                  simp only [covers, matchesLevels, Bool.and_eq_true, beq_iff_eq] at covered matched ⊢
                  exact ⟨covered.1.trans matched.1, ih rule topic below covered.2 matched.2⟩

def instantiate (fresh : α) (pattern : List (Level α)) : List α :=
  pattern.map fun
    | .literal name => name
    | _ => fresh

theorem matches_instantiate (fresh : α) (pattern : List (Level α)) (free : HashFree pattern) :
    matchesLevels pattern (instantiate fresh pattern) = true := by
  induction pattern with
  | nil => rfl
  | cons level rest ih =>
      have below : HashFree rest := fun member => free (List.mem_cons_of_mem _ member)
      cases level with
      | hash => exact absurd List.mem_cons_self free
      | plus => exact ih below
      | literal name =>
          simp only [instantiate, List.map_cons, matchesLevels, beq_self_eq_true, Bool.true_and]
          exact ih below

theorem covers_of_matches (fresh : α) (rule target : List (Level α)) (free : HashFree target)
    (unused : .literal fresh ∉ rule) (matched : matchesLevels rule (instantiate fresh target) = true) :
    covers rule target = true := by
  induction target generalizing rule with
  | nil =>
      match rule with
      | [] => rfl
      | [.hash] => rfl
      | .hash :: _ :: _ | .plus :: _ | .literal _ :: _ => simp [matchesLevels, instantiate] at matched
  | cons level target ih =>
      have below : HashFree target := fun member => free (List.mem_cons_of_mem _ member)
      match rule with
      | [] => simp [instantiate, matchesLevels] at matched
      | [.hash] => rfl
      | .hash :: _ :: _ => simp [matchesLevels] at matched
      | .plus :: rule =>
          exact ih rule below (fun member => unused (List.mem_cons_of_mem _ member)) matched
      | .literal name :: rule =>
          have later : .literal fresh ∉ rule := fun member => unused (List.mem_cons_of_mem _ member)
          cases level with
          | hash => exact absurd List.mem_cons_self free
          | plus =>
              simp only [instantiate, List.map_cons, matchesLevels, Bool.and_eq_true, beq_iff_eq] at matched
              exact absurd (matched.1 ▸ List.mem_cons_self) unused
          | literal other =>
              simp only [instantiate, List.map_cons, matchesLevels, Bool.and_eq_true, beq_iff_eq] at matched
              simp only [covers, Bool.and_eq_true, beq_iff_eq]
              exact ⟨matched.1, ih rule below later matched.2⟩

theorem matches_expand (pattern : List (Level α)) (topic : List α) (matched : matchesLevels pattern topic = true) :
    ∃ k, matchesLevels (expand k pattern) topic = true := by
  induction pattern generalizing topic with
  | nil => exact ⟨0, matched⟩
  | cons level rest ih =>
      cases level with
      | hash =>
          refine ⟨topic.length, ?_⟩
          have plusses : ∀ topic : List α, matchesLevels (List.replicate topic.length .plus) topic = true := by
            intro topic
            induction topic with
            | nil => rfl
            | cons segment tail ih => exact ih
          exact plusses topic
      | plus =>
          cases topic with
          | nil => simp [matchesLevels] at matched
          | cons segment topic => exact ih topic matched
      | literal name =>
          cases topic with
          | nil => simp [matchesLevels] at matched
          | cons segment topic =>
              simp only [matchesLevels, Bool.and_eq_true] at matched
              obtain ⟨k, below⟩ := ih topic matched.2
              refine ⟨k, ?_⟩
              simp only [expand, matchesLevels, Bool.and_eq_true]
              exact ⟨matched.1, below⟩

theorem matches_of_expand (k : Nat) (pattern : List (Level α)) (topic : List α) (cut : cutLevels pattern = pattern)
    (matched : matchesLevels (expand k pattern) topic = true) : matchesLevels pattern topic = true := by
  induction pattern generalizing topic with
  | nil => exact matched
  | cons level rest ih =>
      cases level with
      | hash =>
          cases cut
          rfl
      | plus =>
          cases topic with
          | nil => simp [expand, matchesLevels] at matched
          | cons segment topic => exact ih topic (List.cons.inj cut).2 matched
      | literal name =>
          cases topic with
          | nil => simp [expand, matchesLevels] at matched
          | cons segment topic =>
              simp only [expand, matchesLevels, Bool.and_eq_true] at matched ⊢
              exact ⟨matched.1, ih topic (List.cons.inj cut).2 matched.2⟩

def literals (pattern : List (Level α)) : List α :=
  pattern.filterMap fun
    | .literal name => some name
    | _ => none

omit [DecidableEq α] in
theorem mem_literals_iff (name : α) (pattern : List (Level α)) : name ∈ literals pattern ↔ .literal name ∈ pattern := by
  simp only [literals, List.mem_filterMap]
  constructor
  · intro ⟨level, member, found⟩
    cases level with
    | plus => cases found
    | hash => cases found
    | literal other =>
        cases found
        exact member
  · exact fun member => ⟨.literal name, member, rfl⟩

omit [DecidableEq α] in
theorem literal_mem_expand (k : Nat) (name : α) (pattern : List (Level α)) (member : .literal name ∈ expand k pattern) :
    .literal name ∈ pattern := by
  induction pattern with
  | nil => exact member
  | cons level rest ih =>
      cases level with
      | hash => simp [expand, List.mem_replicate] at member
      | plus =>
          refine List.mem_cons_of_mem _ (ih ?_)
          simpa [expand] using member
      | literal other =>
          rcases List.mem_cons.mp member with same | later
          · exact same ▸ List.mem_cons_self
          · exact List.mem_cons_of_mem _ (ih later)

-- One rule for each length decides for all topics at once: a topic whose wildcard
-- levels are named by no rule is taken in only level by level.
theorem matched_by_rules_iff (allowed : α → Prop) (fresh : ∀ used : List α, ∃ level, allowed level ∧ level ∉ used)
    (rules : List (List (Level α))) (pattern : List (Level α)) (cut : cutLevels pattern = pattern)
    (named : ∀ name, .literal name ∈ pattern → allowed name) :
    (∀ topic, topic ≠ [] → (∀ level ∈ topic, allowed level) → matchesLevels pattern topic = true →
        ∃ rule ∈ rules, matchesLevels rule topic = true) ↔
      ∀ k, expand k pattern ≠ [] → ∃ rule ∈ rules, covers rule (expand k pattern) = true := by
  constructor
  · intro taken k inhabited
    obtain ⟨unnamed, unnamedAllowed, unused⟩ := fresh (rules.flatMap literals)
    have free := expand_hash_free k pattern
    obtain ⟨rule, member, matched⟩ := taken (instantiate unnamed (expand k pattern)) (by simpa [instantiate] using inhabited)
      (by
        intro level present
        obtain ⟨wild, inside, rfl⟩ := List.mem_map.mp present
        cases wild with
        | plus => exact unnamedAllowed
        | hash => exact unnamedAllowed
        | literal name => exact named name (literal_mem_expand k name pattern inside))
      (matches_of_expand k pattern _ cut (matches_instantiate unnamed _ free))
    refine ⟨rule, member, covers_of_matches unnamed rule _ free ?_ matched⟩
    exact fun inside => unused (List.mem_flatMap.mpr ⟨rule, member, (mem_literals_iff _ _).mpr inside⟩)
  · intro covered topic inhabited _ matched
    obtain ⟨k, expanded⟩ := matches_expand pattern topic matched
    have nonempty : expand k pattern ≠ [] := by
      intro nil
      rw [nil] at expanded
      cases topic with
      | nil => exact inhabited rfl
      | cons segment tail => simp [matchesLevels] at expanded
    obtain ⟨rule, member, takes⟩ := covered k nonempty
    exact ⟨rule, member, matches_of_covers rule _ topic (expand_hash_free k pattern) takes expanded⟩

def meetLevel : Level α → Level α → Option (Level α)
  | .plus, .plus => some .plus
  | .plus, .literal name => some (.literal name)
  | .literal name, .plus => some (.literal name)
  | .literal name, .literal other => if name = other then some (.literal name) else none
  | _, _ => none

def meet : List (Level α) → List (Level α) → Option (List (Level α))
  | [.hash], other => some other
  | rule, [.hash] => some rule
  | [], [] => some []
  | level :: rule, next :: other => (meetLevel level next).bind fun both => (meet rule other).map (both :: ·)
  | _, _ => none

omit [DecidableEq α] in
theorem both_cons_iff (head : Option (Level α)) (tail : Option (List (Level α))) (whole : List (Level α)) :
    (head.bind fun both => tail.map (both :: ·)) = some whole ↔
      ∃ both rest, head = some both ∧ tail = some rest ∧ whole = both :: rest := by
  cases head with
  | none => simp
  | some both => cases tail <;> simp [eq_comm]

theorem matches_level_cons (level : Level α) (rule : List (Level α)) (segment : α) (topic : List α)
    (inner : level ≠ .hash) :
    matchesLevels (level :: rule) (segment :: topic) = true ↔
      matchesLevels [level] [segment] = true ∧ matchesLevels rule topic = true := by
  cases level with
  | hash => exact absurd rfl inner
  | plus => simp [matchesLevels]
  | literal name => simp [matchesLevels]

theorem nil_of_matches_nil (pattern : List (Level α)) (inner : pattern ≠ [.hash])
    (matched : matchesLevels pattern [] = true) : pattern = [] := by
  match pattern with
  | [] => rfl
  | [.hash] => exact absurd rfl inner
  | .hash :: _ :: _ | .plus :: _ | .literal _ :: _ => simp [matchesLevels] at matched

theorem not_matches_nil (level : Level α) (rule : List (Level α)) (inner : level ≠ .hash) :
    ¬matchesLevels (level :: rule) [] = true := by
  intro matched
  have whole : level :: rule ≠ [.hash] := fun same => inner (List.cons.inj same).1
  exact nomatch nil_of_matches_nil (level :: rule) whole matched

theorem meet_level_inner (level next both : Level α) (met : meetLevel level next = some both) : both ≠ .hash := by
  unfold meetLevel at met
  split at met
  case h_4 =>
    split at met
    · cases met
      simp
    · cases met
  all_goals cases met <;> simp

theorem meet_level_matches (level next : Level α) (segment : α) (first : level ≠ .hash) (second : next ≠ .hash) :
    (matchesLevels [level] [segment] = true ∧ matchesLevels [next] [segment] = true) ↔
      ∃ both, meetLevel level next = some both ∧ matchesLevels [both] [segment] = true := by
  cases level with
  | hash => exact absurd rfl first
  | plus =>
      cases next with
      | hash => exact absurd rfl second
      | plus | literal name => simp [meetLevel, matchesLevels]
  | literal name =>
      cases next with
      | hash => exact absurd rfl second
      | plus => simp [meetLevel, matchesLevels]
      | literal other =>
          by_cases same : name = other
          · simp [meetLevel, matchesLevels, same]
          · simp only [meetLevel, if_neg same, matchesLevels, Bool.and_true, beq_iff_eq]
            constructor
            · exact fun ⟨here, there⟩ => absurd (here.trans there.symm) same
            · exact fun ⟨both, met, _⟩ => nomatch met

theorem meet_matches (rule other : List (Level α)) (topic : List α) :
    (matchesLevels rule topic = true ∧ matchesLevels other topic = true) ↔
      ∃ both, meet rule other = some both ∧ matchesLevels both topic = true := by
  fun_induction meet rule other generalizing topic with
  | case1 other => simp [matchesLevels]
  | case2 rule whole => simp [matchesLevels]
  | case3 => simp
  | case4 level rule next other last nextLast ih =>
      by_cases first : level = .hash
      · obtain ⟨head, tail, more⟩ := List.exists_cons_of_ne_nil (last first)
        simp [first, more, matchesLevels, meetLevel]
      · by_cases second : next = .hash
        · obtain ⟨head, tail, more⟩ := List.exists_cons_of_ne_nil (nextLast second)
          have apart : meetLevel level .hash = none := by cases level <;> rfl
          simp [second, more, matchesLevels, apart]
        · cases topic with
          | nil =>
              refine iff_of_false (fun both => not_matches_nil level rule first both.1) ?_
              rintro ⟨whole, met, matched⟩
              obtain ⟨both, tail, head, _, rfl⟩ := (both_cons_iff _ _ _).mp met
              exact not_matches_nil both tail (meet_level_inner level next both head) matched
          | cons segment topic =>
              rw [matches_level_cons level rule segment topic first, matches_level_cons next other segment topic second,
                and_and_and_comm, meet_level_matches level next segment first second, ih]
              constructor
              · rintro ⟨⟨both, head, here⟩, tail, met, later⟩
                refine ⟨both :: tail, (both_cons_iff _ _ _).mpr ⟨both, tail, head, met, rfl⟩, ?_⟩
                rw [matches_level_cons both tail segment topic (meet_level_inner level next both head)]
                exact ⟨here, later⟩
              · rintro ⟨whole, met, matched⟩
                obtain ⟨both, tail, head, behind, rfl⟩ := (both_cons_iff _ _ _).mp met
                rw [matches_level_cons both tail segment topic (meet_level_inner level next both head)] at matched
                exact ⟨⟨both, head, matched.1⟩, tail, behind, matched.2⟩
  | case5 rule other otherOpen ruleOpen notBoth notCons =>
      -- One of the two is at its end and the other is not.
      refine iff_of_false ?_ fun ⟨both, met, _⟩ => nomatch met
      rintro ⟨first, second⟩
      match rule, other, topic with
      | [], [], _ => exact notBoth rfl rfl
      | level :: rule, next :: other, _ => exact notCons level rule next other rfl rfl
      | [], next :: other, [] => cases nil_of_matches_nil _ otherOpen second
      | level :: rule, [], [] => cases nil_of_matches_nil _ ruleOpen first
      | [], next :: other, _ :: _ => simp [matchesLevels] at first
      | level :: rule, [], _ :: _ => simp [matchesLevels] at second

omit [DecidableEq α] in
theorem cut_tail (level : Level α) (rest : List (Level α)) (cut : cutLevels (level :: rest) = level :: rest) :
    cutLevels rest = rest := by
  cases level with
  | hash => exact (List.cons.inj cut).2 ▸ rfl
  | plus | literal name => exact (List.cons.inj cut).2

theorem meet_cut (rule other both : List (Level α)) (first : cutLevels rule = rule) (second : cutLevels other = other)
    (met : meet rule other = some both) : cutLevels both = both := by
  fun_induction meet rule other generalizing both with
  | case1 other => exact Option.some.inj met ▸ second
  | case2 rule whole => exact Option.some.inj met ▸ first
  | case3 => exact Option.some.inj met ▸ rfl
  | case4 level rule next other last nextLast ih =>
      obtain ⟨head, tail, inner, later, rfl⟩ := (both_cons_iff _ _ _).mp met
      have tailCut := ih tail (cut_tail level rule first) (cut_tail next other second) later
      cases head with
      | hash => exact absurd rfl (meet_level_inner level next _ inner)
      | plus | literal name => simp only [cutLevels, tailCut]
  | case5 => cases met

theorem meet_level_literal (level next : Level α) (name : α) (met : meetLevel level next = some (.literal name)) :
    level = .literal name ∨ next = .literal name := by
  unfold meetLevel at met
  split at met
  case h_4 =>
    split at met
    · exact .inl (Option.some.inj met)
    · cases met
  case h_2 => exact .inr (Option.some.inj met)
  case h_3 => exact .inl (Option.some.inj met)
  all_goals cases met

theorem meet_literal (rule other both : List (Level α)) (name : α) (met : meet rule other = some both)
    (member : .literal name ∈ both) : .literal name ∈ rule ∨ .literal name ∈ other := by
  fun_induction meet rule other generalizing both with
  | case1 other => exact .inr (Option.some.inj met ▸ member)
  | case2 rule whole => exact .inl (Option.some.inj met ▸ member)
  | case3 => exact .inl (Option.some.inj met ▸ member)
  | case4 level rule next other last nextLast ih =>
      obtain ⟨head, tail, inner, later, rfl⟩ := (both_cons_iff _ _ _).mp met
      rcases List.mem_cons.mp member with here | behind
      · rcases meet_level_literal level next name (here ▸ inner) with rfl | rfl
        · exact .inl List.mem_cons_self
        · exact .inr List.mem_cons_self
      · exact (ih tail later behind).imp (List.mem_cons_of_mem _) (List.mem_cons_of_mem _)
  | case5 => cases met

omit [DecidableEq α] in
theorem literal_mem_cut (name : α) (levels : List (Level α)) (member : .literal name ∈ cutLevels levels) :
    .literal name ∈ levels := by
  induction levels with
  | nil => exact member
  | cons level rest ih =>
      cases level with
      | hash => simp [cutLevels] at member
      | plus =>
          simp only [cutLevels, List.mem_cons, reduceCtorEq, false_or] at member ⊢
          exact ih member
      | literal other =>
          simp only [cutLevels, List.mem_cons] at member ⊢
          exact member.imp_right ih

-- A pattern as a rule has it: nothing behind a '#', and only levels that there are.
def WellFormed (allowed : α → Prop) (pattern : List (Level α)) : Prop :=
  cutLevels pattern = pattern ∧ ∀ name, .literal name ∈ pattern → allowed name

omit [DecidableEq α] in
theorem well_formed_tail (allowed : α → Prop) (level : Level α) (rest : List (Level α))
    (formed : WellFormed allowed (level :: rest)) : WellFormed allowed rest :=
  ⟨cut_tail level rest formed.1, fun name member => formed.2 name (List.mem_cons_of_mem level member)⟩

theorem meet_well_formed (allowed : α → Prop) (rule other both : List (Level α)) (first : WellFormed allowed rule)
    (second : WellFormed allowed other) (met : meet rule other = some both) : WellFormed allowed both :=
  ⟨meet_cut rule other both first.1 second.1 met, fun name member =>
    (meet_literal rule other both name met member).elim (first.2 name) (second.2 name)⟩

def CoversAll (rules targets : List (List (Level α))) : Prop :=
  ∀ target ∈ targets, ∀ k, expand k target ≠ [] → ∃ rule ∈ rules, covers rule (expand k target) = true

theorem matched_within_iff (allowed : α → Prop) (fresh : ∀ used : List α, ∃ level, allowed level ∧ level ∉ used)
    (scope : List (Level α)) (rules targets : List (List (Level α))) (scopeFormed : WellFormed allowed scope)
    (formed : ∀ target ∈ targets, WellFormed allowed target) :
    (∀ topic, topic ≠ [] → (∀ level ∈ topic, allowed level) → matchesLevels scope topic = true →
        (∃ target ∈ targets, matchesLevels target topic = true) → ∃ rule ∈ rules, matchesLevels rule topic = true) ↔
      CoversAll rules (targets.filterMap (meet scope)) := by
  have each : ∀ both ∈ targets.filterMap (meet scope),
      (∀ topic, topic ≠ [] → (∀ level ∈ topic, allowed level) → matchesLevels both topic = true →
          ∃ rule ∈ rules, matchesLevels rule topic = true) ↔
        ∀ k, expand k both ≠ [] → ∃ rule ∈ rules, covers rule (expand k both) = true := by
    intro both member
    obtain ⟨target, inside, met⟩ := List.mem_filterMap.mp member
    obtain ⟨cut, named⟩ := meet_well_formed allowed scope target both scopeFormed (formed target inside) met
    exact matched_by_rules_iff allowed fresh rules both cut named
  constructor
  · intro taken both member
    refine (each both member).mp fun topic nonempty names matched => ?_
    obtain ⟨target, inside, met⟩ := List.mem_filterMap.mp member
    obtain ⟨scopeTakes, targetTakes⟩ := (meet_matches scope target topic).mpr ⟨both, met, matched⟩
    exact taken topic nonempty names scopeTakes ⟨target, inside, targetTakes⟩
  · rintro covered topic nonempty names scopeTakes ⟨target, inside, targetTakes⟩
    obtain ⟨both, met, matched⟩ := (meet_matches scope target topic).mp ⟨scopeTakes, targetTakes⟩
    have member : both ∈ targets.filterMap (meet scope) := List.mem_filterMap.mpr ⟨target, inside, met⟩
    exact (each both member).mpr (covered both member) topic nonempty names matched

end LevelPattern
