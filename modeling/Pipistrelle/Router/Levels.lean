import Mathlib.Data.List.Basic

set_option autoImplicit false

/- The levels of topics and filters, and the prefix of a shared subscription. -/
namespace Pipistrelle.Router

-- str::split('/')
def splitLevels (s : String) : List String := (s.toList.splitOn '/').map String.ofList

-- str::splitn(n, sep): at most n parts, the last one with the rest.
def splitn (sep : Char) : Nat → List Char → List (List Char)
  | 0, _ => []
  | 1, s => [s]
  | n + 2, s =>
      match s.dropWhile (· != sep) with
      | [] => [s]
      | _ :: rest => s.takeWhile (· != sep) :: splitn sep (n + 1) rest

-- $share/group/filter
def parseSharedSubscription (topicFilter : String) : Option String × String :=
  if "$share/".toList.isPrefixOf topicFilter.toList then
    match splitn '/' 3 topicFilter.toList with
    | [_, group, filter] => (some (String.ofList group), String.ofList filter)
    | _ => (none, topicFilter)
  else (none, topicFilter)

-- What split('/') can yield: at least one level, none of which has a '/' in it.
def LevelName (segment : String) : Prop := '/' ∉ segment.toList

theorem split_levels_ne_nil (s : String) : splitLevels s ≠ [] := by
  simp [splitLevels]

theorem split_on_without (sep : Char) (chars : List Char) : ∀ part ∈ chars.splitOn sep, sep ∉ part := by
  induction chars with
  | nil => simp
  | cons char tail ih =>
      rw [List.splitOn_cons_eq_if_modifyHead]
      by_cases here : char = sep
      · rw [if_pos (by simp [here]), List.forall_mem_cons]
        exact ⟨List.not_mem_nil, ih⟩
      · rw [if_neg (by simpa using here)]
        obtain ⟨first, rest, parts⟩ := List.exists_cons_of_ne_nil (List.splitOn_ne_nil sep tail)
        rw [parts, List.forall_mem_cons] at ih
        rw [parts, List.modifyHead_cons, List.forall_mem_cons]
        refine ⟨?_, ih.2⟩
        intro member
        rcases List.mem_cons.mp member with same | later
        · exact here same.symm
        · exact ih.1 later

theorem split_levels_names (s : String) : ∀ segment ∈ splitLevels s, LevelName segment := by
  intro segment member
  obtain ⟨part, inside, rfl⟩ := List.mem_map.mp member
  rw [LevelName, String.toList_ofList]
  exact split_on_without '/' _ part inside

def joinLevels (levels : List String) : String := String.ofList (['/'].intercalate (levels.map String.toList))

theorem split_join (levels : List String) (nonempty : levels ≠ []) (names : ∀ segment ∈ levels, LevelName segment) :
    splitLevels (joinLevels levels) = levels := by
  have parts : ∀ part ∈ levels.map String.toList, '/' ∉ part := by
    intro part member
    obtain ⟨segment, inside, rfl⟩ := List.mem_map.mp member
    exact names segment inside
  rw [splitLevels, joinLevels, String.toList_ofList, List.splitOn_intercalate '/' parts (by simpa using nonempty),
    List.map_map]
  simp [Function.comp_def]

theorem join_split (s : String) : joinLevels (splitLevels s) = s := by
  rw [joinLevels, splitLevels, List.map_map]
  have same : String.toList ∘ String.ofList = id := funext fun part => String.toList_ofList
  rw [same, List.map_id, List.intercalate_splitOn, String.ofList_toList]

theorem fresh_level (used : List String) : ∃ segment, LevelName segment ∧ segment ∉ used := by
  have longer : ∃ n, ∀ segment ∈ used, segment.toList.length < n := by
    induction used with
    | nil => exact ⟨0, by simp⟩
    | cons head tail ih =>
        obtain ⟨n, below⟩ := ih
        refine ⟨max n (head.toList.length + 1), ?_⟩
        intro segment member
        rcases List.mem_cons.mp member with same | later
        · rw [same]
          exact Nat.lt_of_lt_of_le (Nat.lt_succ_self _) (Nat.le_max_right _ _)
        · exact Nat.lt_of_lt_of_le (below segment later) (Nat.le_max_left _ _)
  obtain ⟨n, below⟩ := longer
  refine ⟨String.ofList (List.replicate n 'x'), ?_, ?_⟩
  · rw [LevelName, String.toList_ofList, List.mem_replicate]
    exact fun both => absurd both.2 (by decide)
  · intro member
    have short := below _ member
    rw [String.toList_ofList, List.length_replicate] at short
    exact absurd short (Nat.lt_irrefl n)

end Pipistrelle.Router
