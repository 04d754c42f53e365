import Pipistrelle.Router.Refinement

set_option autoImplicit false

/- match_topic against the table. The recursive match visits the nodes of a fixed
   list of paths, each once, and a level list matches the topic exactly when it is
   one of these paths. -/
namespace Pipistrelle.Router

open LevelPattern

-- The paths at which match_recursive collects, in its order.
def candidates : List String → List (List (Level String))
  | [] => [[.hash], []]
  | segment :: rest =>
      [.hash] :: ((candidates rest).map (Level.literal segment :: ·) ++ (candidates rest).map (Level.plus :: ·))

def Held.collect (held : Held) (result : RouteResult) : RouteResult :=
  collectNodeSubscriptions (trieShape.setValue held {}) result

theorem collect_held (node : TrieNode) (result : RouteResult) :
    collectNodeSubscriptions node result = node.held.collect result := rfl

theorem collect_empty (result : RouteResult) : Held.collect {} result = result := by
  obtain ⟨normal, shared⟩ := result
  simp [Held.collect, collectNodeSubscriptions, trieShape, Assoc.values]

def collectPaths (node : TrieNode) (paths : List (List (Level String))) (result : RouteResult) : RouteResult :=
  paths.foldl (fun result path => (trieShape.valueAt path node).collect result) result

theorem collect_paths_missing (level : Level String) (node : TrieNode) (missing : trieShape.child level node = none)
    (paths : List (List (Level String))) (result : RouteResult) :
    collectPaths node (paths.map (level :: ·)) result = result := by
  unfold collectPaths
  induction paths with
  | nil => rfl
  | cons path rest ih =>
      rw [List.map_cons, List.foldl_cons, trieShape.value_at_missing level path node missing]
      change List.foldl _ (Held.collect {} result) _ = _
      rw [collect_empty]
      exact ih

theorem collect_paths_child (level : Level String) (node next : TrieNode) (found : trieShape.child level node = some next)
    (paths : List (List (Level String))) (result : RouteResult) :
    collectPaths node (paths.map (level :: ·)) result = collectPaths next paths result := by
  unfold collectPaths
  rw [List.foldl_map]
  simp only [trieShape.value_at_cons level _ node next found]

theorem collect_hash (node : TrieNode) (result : RouteResult) :
    collectHash node result = (trieShape.valueAt [.hash] node).collect result := by
  unfold collectHash
  cases found : node.hashChild with
  | none =>
      have missing : trieShape.child .hash node = none := found
      rw [trieShape.value_at_missing .hash [] node missing]
      exact (collect_empty result).symm
  | some hashChild =>
      have present : trieShape.child .hash node = some hashChild := found
      rw [trieShape.value_at_cons .hash [] node hashChild present]
      rfl

theorem match_recursive_collects (topic : List String) (node : TrieNode) (result : RouteResult) :
    matchRecursive topic node result = collectPaths node (candidates topic) result := by
  induction topic generalizing node result with
  | nil =>
      rw [matchRecursive, collect_hash, collect_held]
      rfl
  | cons segment rest ih =>
      rw [matchRecursive, collect_hash]
      have split : collectPaths node (candidates (segment :: rest)) result =
          collectPaths node ((candidates rest).map (Level.plus :: ·))
            (collectPaths node ((candidates rest).map (Level.literal segment :: ·))
              ((trieShape.valueAt [.hash] node).collect result)) := by
        simp only [collectPaths, candidates, List.foldl_cons, List.foldl_append]
      rw [split]
      have exactly : ∀ result, (Entries.find segment node.children).elim result (matchRecursive rest · result) =
          collectPaths node ((candidates rest).map (Level.literal segment :: ·)) result := by
        intro result
        cases found : Entries.find segment node.children with
        | none => exact (collect_paths_missing (.literal segment) node found _ result).symm
        | some child =>
            rw [collect_paths_child (.literal segment) node child found]
            exact ih child result
      have wild : ∀ result, node.plusChild.elim result (matchRecursive rest · result) =
          collectPaths node ((candidates rest).map (Level.plus :: ·)) result := by
        intro result
        cases found : node.plusChild with
        | none => exact (collect_paths_missing .plus node found _ result).symm
        | some plusChild =>
            rw [collect_paths_child .plus node plusChild found]
            exact ih plusChild result
      rw [← exactly, ← wild]
      cases node.plusChild <;> cases Entries.find segment node.children <;> rfl

theorem mem_candidates_iff (topic : List String) (path : List (Level String)) :
    path ∈ candidates topic ↔ matchesLevels path topic = true := by
  induction topic generalizing path with
  | nil =>
      match path with
      | [] => simp [candidates, matchesLevels]
      | [.hash] => simp [candidates, matchesLevels]
      | .hash :: _ :: _ => simp [candidates, matchesLevels]
      | .plus :: _ => simp [candidates, matchesLevels]
      | .literal _ :: _ => simp [candidates, matchesLevels]
  | cons segment rest ih =>
      match path with
      | [] => simp [candidates, matchesLevels]
      | [.hash] => simp [candidates, matchesLevels]
      | .hash :: _ :: _ => simp [candidates, matchesLevels]
      | .plus :: tail => simp [candidates, matchesLevels, ih]
      | .literal name :: tail =>
          have flip : segment = name ↔ name = segment := eq_comm
          simp [candidates, matchesLevels, ih, flip, and_comm]

theorem candidates_nodup (topic : List String) : (candidates topic).Nodup := by
  induction topic with
  | nil => simp [candidates]
  | cons segment rest ih =>
      have under : ∀ level : Level String, ((candidates rest).map (level :: ·)).Nodup := fun level =>
        ih.map (fun _ _ same => (List.cons.inj same).2)
      rw [candidates, List.nodup_cons, List.nodup_append]
      refine ⟨by simp, under _, under _, ?_⟩
      intro path literal other plus same
      obtain ⟨_, _, rfl⟩ := List.mem_map.mp literal
      obtain ⟨_, _, rfl⟩ := List.mem_map.mp plus
      cases (List.cons.inj same).1

def Held.infos (held : Held) (group : Option String) : List SubscriptionInfo :=
  match group with
  | some grp => (held.sharedSubscriptions.get grp).getD []
  | none => held.subscriptions.values

theorem infos_once (held : Held) (valid : held.Valid) (group : Option String) :
    ((held.infos group).map (·.clientId)).Nodup := by
  cases group with
  | none =>
      have names : held.subscriptions.values.map (·.clientId) = held.subscriptions.entries.map Prod.fst := by
        rw [Assoc.values, List.map_map]
        refine List.map_congr_left ?_
        intro entry member
        exact valid.named entry.1 entry.2 ((held.subscriptions.mem_entries_iff _ _).mp member)
      rw [Held.infos, names]
      exact held.subscriptions.distinct
  | some grp =>
      cases found : held.sharedSubscriptions.get grp with
      | none => simp [Held.infos, found]
      | some list =>
          simp only [Held.infos, found, Option.getD_some]
          exact valid.once grp list found

theorem find_once (list : List SubscriptionInfo) (once : (list.map (·.clientId)).Nodup) (subInfo : SubscriptionInfo)
    (clientId : String) :
    list.find? (fun s => s.clientId == clientId) = some subInfo ↔ subInfo ∈ list ∧ subInfo.clientId = clientId := by
  induction list with
  | nil => simp
  | cons head tail ih =>
      rw [List.map_cons, List.nodup_cons] at once
      by_cases here : head.clientId = clientId
      · rw [List.find?_cons_of_pos (by simpa using here), Option.some.injEq, List.mem_cons]
        refine ⟨fun same => ⟨.inl same.symm, same ▸ here⟩, ?_⟩
        rintro ⟨same | later, named⟩
        · exact same.symm
        · exact absurd (List.mem_map.mpr ⟨subInfo, later, named.trans here.symm⟩) once.1
      · rw [List.find?_cons_of_neg (by simpa using here), ih once.2, List.mem_cons]
        refine and_congr_left fun named => ⟨.inr, ?_⟩
        rintro (same | later)
        · exact absurd (same ▸ named) here
        · exact later

theorem mem_infos_iff (held : Held) (valid : held.Valid) (group : Option String) (clientId : String)
    (subInfo : SubscriptionInfo) :
    subInfo ∈ held.infos group ∧ subInfo.clientId = clientId ↔ held.entry clientId group = some subInfo := by
  cases group with
  | none =>
      simp only [Held.infos, Held.entry, Assoc.values, List.mem_map, Prod.exists, exists_eq_right]
      constructor
      · rintro ⟨⟨name, member⟩, rfl⟩
        have get := (held.subscriptions.mem_entries_iff _ _).mp member
        rw [valid.named name subInfo get]
        exact get
      · intro get
        exact ⟨⟨clientId, (held.subscriptions.mem_entries_iff _ _).mpr get⟩, valid.named _ _ get⟩
  | some grp => exact (find_once _ (infos_once held valid (some grp)) subInfo clientId).symm

theorem collect_paths_normal (node : TrieNode) (paths : List (List (Level String))) (result : RouteResult) :
    (collectPaths node paths result).normal =
      result.normal ++ paths.flatMap fun path => (trieShape.valueAt path node).infos none := by
  induction paths generalizing result with
  | nil => simp [collectPaths]
  | cons path rest ih =>
      have step : collectPaths node (path :: rest) result =
          collectPaths node rest ((trieShape.valueAt path node).collect result) := rfl
      rw [step, ih, List.flatMap_cons, ← List.append_assoc]
      rfl

-- result.shared.entry(group).or_default(), and every subscription of the list pushed.
theorem collect_shared_entries (entries : List (String × List SubscriptionInfo)) (distinct : (entries.map Prod.fst).Nodup)
    (shared : Assoc String (List SubscriptionInfo)) (grp : String) :
    (entries.foldl (fun shared (group, list) => shared.insert group ((shared.get group).getD [] ++ list))
      shared).get grp =
      match Entries.find grp entries with
      | some list => some ((shared.get grp).getD [] ++ list)
      | none => shared.get grp := by
  induction entries generalizing shared with
  | nil => rfl
  | cons entry tail ih =>
      obtain ⟨group, list⟩ := entry
      rw [List.map_cons, List.nodup_cons] at distinct
      rw [List.foldl_cons, ih distinct.2, Assoc.get_insert]
      by_cases here : group = grp
      · have absent := Entries.find_absent grp tail (here ▸ distinct.1)
        rw [absent, if_pos here, Entries.find, if_pos here, here]
      · rw [if_neg here, Entries.find, if_neg here]

theorem collect_shared (held : Held) (result : RouteResult) (grp : String) :
    (held.collect result).shared.get grp =
      match held.sharedSubscriptions.get grp with
      | some list => some ((result.shared.get grp).getD [] ++ list)
      | none => result.shared.get grp :=
  collect_shared_entries _ held.sharedSubscriptions.distinct result.shared grp

theorem collect_paths_shared (node : TrieNode) (valid : ∀ path, (trieShape.valueAt path node).Valid)
    (paths : List (List (Level String))) (result : RouteResult) (grp : String) :
    let lists := paths.flatMap fun path => (trieShape.valueAt path node).infos (some grp)
    (collectPaths node paths result).shared.get grp =
      if lists = [] then result.shared.get grp else some ((result.shared.get grp).getD [] ++ lists) := by
  induction paths generalizing result with
  | nil => rfl
  | cons path rest ih =>
      have step : collectPaths node (path :: rest) result =
          collectPaths node rest ((trieShape.valueAt path node).collect result) := rfl
      dsimp only at ih ⊢
      rw [step, ih, collect_shared, List.flatMap_cons]
      generalize (rest.flatMap fun path => (trieShape.valueAt path node).infos (some grp)) = later
      cases found : (trieShape.valueAt path node).sharedSubscriptions.get grp with
      | none =>
          have nothing : (trieShape.valueAt path node).infos (some grp) = [] := by simp [Held.infos, found]
          rw [nothing, List.nil_append]
      | some list =>
          have here : (trieShape.valueAt path node).infos (some grp) = list := by simp [Held.infos, found]
          have nonempty := (valid path).inhabited grp list found
          rw [here, if_neg (fun nil => nonempty (List.append_eq_nil_iff.mp nil).1)]
          by_cases last : later = []
          · simp [last]
          · simp [last]

def foundRows (root : TrieNode) (group : Option String) (paths : List (List (Level String))) : List (Key × SubscriptionInfo) :=
  paths.flatMap fun path =>
    ((trieShape.valueAt path root).infos group).map fun subInfo => (⟨subInfo.clientId, group, path⟩, subInfo)

def matchingRows (table : Table) (group : Option String) (topic : String) : List (Key × SubscriptionInfo) :=
  (table.entries.filter fun (key, _) => key.group = group && matchesLevels key.levels (splitLevels topic)).map
    fun (key, granted) => (key, subscriptionInfo key granted)

theorem mem_found_rows_iff (root : TrieNode) (table : Table) (refines : Refines root table) (group : Option String)
    (paths : List (List (Level String))) (key : Key) (subInfo : SubscriptionInfo) :
    (key, subInfo) ∈ foundRows root group paths ↔
      key.group = group ∧ key.levels ∈ paths ∧ (table.get key).map (subscriptionInfo key) = some subInfo := by
  have row : ∀ path, subInfo ∈ (trieShape.valueAt path root).infos group ∧ subInfo.clientId = key.clientId ↔
      (table.get ⟨key.clientId, group, path⟩).map (subscriptionInfo ⟨key.clientId, group, path⟩) = some subInfo := by
    intro path
    rw [mem_infos_iff _ (refines.valid path), refines.rows]
  simp only [foundRows, List.mem_flatMap, List.mem_map, Prod.mk.injEq]
  constructor
  · rintro ⟨path, candidate, held, member, rfl, rfl⟩
    exact ⟨rfl, candidate, (row path).mp ⟨member, rfl⟩⟩
  · rintro ⟨rfl, candidate, found⟩
    obtain ⟨member, named⟩ := (row key.levels).mpr found
    exact ⟨key.levels, candidate, subInfo, member, by rw [named], rfl⟩

theorem mem_matching_rows_iff (table : Table) (group : Option String) (topic : String) (key : Key)
    (subInfo : SubscriptionInfo) :
    (key, subInfo) ∈ matchingRows table group topic ↔
      key.group = group ∧ matchesLevels key.levels (splitLevels topic) = true ∧
        (table.get key).map (subscriptionInfo key) = some subInfo := by
  simp only [matchingRows, List.mem_map, List.mem_filter, Prod.mk.injEq, Prod.exists, Bool.and_eq_true,
    decide_eq_true_eq, Option.map_eq_some_iff]
  constructor
  · rintro ⟨_, granted, ⟨member, sameGroup, matching⟩, rfl, rfl⟩
    exact ⟨sameGroup, matching, granted, (table.mem_entries_iff _ _).mp member, rfl⟩
  · rintro ⟨sameGroup, matching, granted, get, rfl⟩
    exact ⟨key, granted, ⟨(table.mem_entries_iff _ _).mpr get, sameGroup, matching⟩, rfl, rfl⟩

theorem found_rows_nodup (root : TrieNode) (valid : ∀ path, (trieShape.valueAt path root).Valid)
    (group : Option String) (paths : List (List (Level String))) (distinct : paths.Nodup) :
    (foundRows root group paths).Nodup := by
  refine List.nodup_flatMap.mpr ⟨?_, ?_⟩
  · intro path _
    refine List.Nodup.map ?_ (List.Nodup.of_map _ (infos_once _ (valid path) group))
    exact fun _ _ same => (Prod.mk.inj same).2
  · refine distinct.imp ?_
    intro path other different row here there
    obtain ⟨_, _, rfl⟩ := List.mem_map.mp here
    obtain ⟨_, _, same⟩ := List.mem_map.mp there
    exact different (congrArg (fun row => row.1.levels) same).symm

theorem matching_rows_nodup (table : Table) (group : Option String) (topic : String) :
    (matchingRows table group topic).Nodup := by
  refine List.Nodup.of_map Prod.fst ?_
  have keys : (matchingRows table group topic).map Prod.fst = (table.entries.filter fun (key, _) =>
      key.group = group && matchesLevels key.levels (splitLevels topic)).map Prod.fst := by
    rw [matchingRows, List.map_map]
    rfl
  rw [keys]
  exact table.distinct.sublist (List.filter_sublist.map _)

theorem infos_perm_matching (root : TrieNode) (table : Table) (refines : Refines root table) (group : Option String)
    (topic : String) :
    ((candidates (splitLevels topic)).flatMap fun path => (trieShape.valueAt path root).infos group).Perm
      (table.matching group topic) := by
  have rows : (foundRows root group (candidates (splitLevels topic))).Perm (matchingRows table group topic) := by
    refine (List.perm_ext_iff_of_nodup (found_rows_nodup root refines.valid group _ (candidates_nodup _))
      (matching_rows_nodup table group topic)).mpr ?_
    intro ⟨key, subInfo⟩
    rw [mem_found_rows_iff root table refines, mem_matching_rows_iff, mem_candidates_iff]
  have found : (foundRows root group (candidates (splitLevels topic))).map Prod.snd =
      (candidates (splitLevels topic)).flatMap fun path => (trieShape.valueAt path root).infos group := by
    simp only [foundRows, List.map_flatMap, List.map_map, Function.comp_def, List.map_id']
  have matching : (matchingRows table group topic).map Prod.snd = table.matching group topic := by
    rw [matchingRows, List.map_map]
    rfl
  rw [← found, ← matching]
  exact rows.map Prod.snd

theorem match_topic_normal (root : TrieNode) (table : Table) (refines : Refines root table) (topic : String) :
    (matchTopic root topic).normal.Perm (table.matching none topic) := by
  rw [matchTopic, match_recursive_collects, collect_paths_normal]
  exact infos_perm_matching root table refines none topic

theorem match_topic_shared (root : TrieNode) (table : Table) (refines : Refines root table) (topic grp : String) :
    ((matchTopic root topic).shared.get grp = none ∧ table.matching (some grp) topic = []) ∨
      ∃ infos, (matchTopic root topic).shared.get grp = some infos ∧ table.matching (some grp) topic ≠ [] ∧
        infos.Perm (table.matching (some grp) topic) := by
  have perm := infos_perm_matching root table refines (some grp) topic
  have shared := collect_paths_shared root refines.valid (candidates (splitLevels topic)) {} grp
  rw [matchTopic, match_recursive_collects, shared]
  generalize ((candidates (splitLevels topic)).flatMap fun path =>
    (trieShape.valueAt path root).infos (some grp)) = infos at perm ⊢
  by_cases nothing : infos = []
  · rw [if_pos nothing]
    subst nothing
    exact .inl ⟨rfl, List.nil_perm.mp perm⟩
  · rw [if_neg nothing]
    exact .inr ⟨infos, rfl, fun nil => nothing (List.perm_nil.mp (nil ▸ perm)), perm⟩

def Returned (root : TrieNode) (topic : String) (subInfo : SubscriptionInfo) : Prop :=
  subInfo ∈ (matchTopic root topic).normal ∨
    ∃ grp infos, (matchTopic root topic).shared.get grp = some infos ∧ subInfo ∈ infos

theorem mem_matching_iff (table : Table) (group : Option String) (topic : String) (subInfo : SubscriptionInfo) :
    subInfo ∈ table.matching group topic ↔
      ∃ key granted, table.get key = some granted ∧ key.group = group ∧ subInfo = subscriptionInfo key granted ∧
        matchesLevels key.levels (splitLevels topic) = true := by
  simp only [Table.matching, List.mem_map, List.mem_filter, Prod.exists, Bool.and_eq_true, decide_eq_true_eq]
  constructor
  · intro found
    obtain ⟨key, granted, ⟨member, sameGroup, matching⟩, same⟩ := found
    exact ⟨key, granted, (table.mem_entries_iff _ _).mp member, sameGroup, same.symm, matching⟩
  · intro row
    obtain ⟨key, granted, get, sameGroup, same, matching⟩ := row
    exact ⟨key, granted, ⟨(table.mem_entries_iff _ _).mpr get, sameGroup, matching⟩, same.symm⟩

theorem returned_iff (root : TrieNode) (table : Table) (refines : Refines root table) (topic : String)
    (subInfo : SubscriptionInfo) :
    Returned root topic subInfo ↔
      ∃ key granted, table.get key = some granted ∧ subInfo = subscriptionInfo key granted ∧
        matchesLevels key.levels (splitLevels topic) = true := by
  constructor
  · intro returned
    rcases returned with normal | ⟨grp, infos, shared, member⟩
    · have row := (match_topic_normal root table refines topic).mem_iff.mp normal
      obtain ⟨key, granted, get, _, same, matching⟩ := (mem_matching_iff table none topic subInfo).mp row
      exact ⟨key, granted, get, same, matching⟩
    · rcases match_topic_shared root table refines topic grp with ⟨missing, _⟩ | ⟨held, get, _, perm⟩
      · rw [missing] at shared
        cases shared
      · rw [shared] at get
        cases get
        obtain ⟨key, granted, get, _, same, matching⟩ :=
          (mem_matching_iff table (some grp) topic subInfo).mp (perm.mem_iff.mp member)
        exact ⟨key, granted, get, same, matching⟩
  · intro ⟨key, granted, get, same, matching⟩
    cases group : key.group with
    | none =>
        have row := (mem_matching_iff table none topic subInfo).mpr ⟨key, granted, get, group, same, matching⟩
        exact .inl ((match_topic_normal root table refines topic).mem_iff.mpr row)
    | some grp =>
        have row := (mem_matching_iff table (some grp) topic subInfo).mpr ⟨key, granted, get, group, same, matching⟩
        rcases match_topic_shared root table refines topic grp with ⟨_, nothing⟩ | ⟨infos, shared, _, perm⟩
        · rw [nothing] at row
          cases row
        · exact .inr ⟨grp, infos, shared, perm.mem_iff.mpr row⟩

theorem table_row_origin (ops : List RouterOp) (key : Key) (granted : Granted)
    (get : (runTable ops).1.get key = some granted) :
    ∃ topicFilter, RouterOp.subscribe key.clientId topicFilter granted.qos granted.subscriptionIdentifier ∈ ops ∧
      keyOf key.clientId topicFilter = key := by
  have run : ∀ (ops : List RouterOp) (state : Table × List Bool),
      (ops.foldl RouterOp.onTable state).1.get key = some granted →
        state.1.get key = some granted ∨ ∃ topicFilter,
          RouterOp.subscribe key.clientId topicFilter granted.qos granted.subscriptionIdentifier ∈ ops ∧
            keyOf key.clientId topicFilter = key := by
    intro ops
    induction ops with
    | nil => exact fun _ get => .inl get
    | cons op rest ih =>
        intro state get
        rcases ih _ get with before | ⟨topicFilter, member, same⟩
        · cases op with
          | subscribe clientId topicFilter qos identifier =>
              rw [on_table_subscribe] at before
              dsimp only at before
              rw [Table.subscribe, Assoc.get_insert] at before
              by_cases same : keyOf clientId topicFilter = key
              · rw [if_pos same] at before
                cases before
                have named : clientId = key.clientId := congrArg Key.clientId same
                exact .inr ⟨topicFilter, by rw [← named]; exact List.mem_cons_self, by rw [← named]; exact same⟩
              · rw [if_neg same] at before
                exact .inl before
          | unsubscribe clientId topicFilter =>
              rw [on_table_unsubscribe] at before
              dsimp only at before
              unfold Table.unsubscribe at before
              split at before
              · dsimp only at before
                rw [Assoc.get_remove] at before
                split at before
                · cases before
                · exact .inl before
              · exact .inl before
        · exact .inr ⟨topicFilter, List.mem_cons_of_mem _ member, same⟩
  rcases run ops ({}, []) get with start | origin
  · cases start
  · exact origin

theorem router_refines_table (ops : List RouterOp) (topic : String) :
    (runTrie ops).2 = (runTable ops).2 ∧
      (matchTopic (runTrie ops).1 topic).normal.Perm ((runTable ops).1.matching none topic) ∧
      ∀ grp, ((matchTopic (runTrie ops).1 topic).shared.get grp = none ∧
          (runTable ops).1.matching (some grp) topic = []) ∨
        ∃ infos, (matchTopic (runTrie ops).1 topic).shared.get grp = some infos ∧
          (runTable ops).1.matching (some grp) topic ≠ [] ∧
            infos.Perm ((runTable ops).1.matching (some grp) topic) := by
  obtain ⟨results, refines⟩ := run_refines ops
  exact ⟨results, match_topic_normal _ _ refines topic, match_topic_shared _ _ refines topic⟩

end Pipistrelle.Router
