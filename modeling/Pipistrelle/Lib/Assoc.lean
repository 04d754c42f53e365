import Mathlib.Data.List.Nodup

set_option autoImplicit false

/- Finite maps as lists of pairs with distinct keys. The operations stand first on
   plain lists, which may occur inside an inductive type, and then on Assoc, which
   carries the distinctness of its keys. -/
universe u v

namespace Entries

variable {κ : Type u} {ν : Type v} [DecidableEq κ]

def find (key : κ) : List (κ × ν) → Option ν
  | [] => none
  | (k, value) :: tail => if k = key then some value else find key tail

-- An entry that is there is replaced where it stands; a new one goes to the end.
def put (key : κ) (value : ν) : List (κ × ν) → List (κ × ν)
  | [] => [(key, value)]
  | (k, old) :: tail => if k = key then (key, value) :: tail else (k, old) :: put key value tail

def drop (key : κ) (entries : List (κ × ν)) : List (κ × ν) := entries.filter fun entry => entry.1 ≠ key

@[simp] theorem find_nil (key : κ) : find key ([] : List (κ × ν)) = none := rfl

theorem find_put (key other : κ) (value : ν) (entries : List (κ × ν)) :
    find other (put key value entries) = if key = other then some value else find other entries := by
  induction entries with
  | nil => rfl
  | cons entry tail ih =>
      obtain ⟨k, old⟩ := entry
      by_cases here : k = key
      · rw [put, if_pos here, find, find, here]
        by_cases same : key = other
        · rw [if_pos same, if_pos same]
        · rw [if_neg same, if_neg same, if_neg same]
      · rw [put, if_neg here, find, ih, find]
        by_cases same : k = other
        · rw [if_pos same, if_pos same, if_neg (fun eq => here (same.trans eq.symm))]
        · rw [if_neg same, if_neg same]

theorem find_drop (key other : κ) (entries : List (κ × ν)) :
    find other (drop key entries) = if key = other then none else find other entries := by
  induction entries with
  | nil => simp [drop]
  | cons entry tail ih =>
      obtain ⟨k, value⟩ := entry
      unfold drop at ih ⊢
      by_cases here : k = key
      · rw [List.filter_cons_of_neg (by simp [here]), ih, find, here]
        by_cases same : key = other
        · rw [if_pos same, if_pos same]
        · rw [if_neg same, if_neg same, if_neg same]
      · rw [List.filter_cons_of_pos (by simp [here]), find, ih, find]
        by_cases same : k = other
        · rw [if_pos same, if_pos same, if_neg (fun eq => here (same.trans eq.symm))]
        · rw [if_neg same, if_neg same]

theorem drop_put (key : κ) (value : ν) (entries : List (κ × ν)) : drop key (put key value entries) = drop key entries := by
  induction entries with
  | nil => simp [put, drop]
  | cons entry tail ih =>
      obtain ⟨k, old⟩ := entry
      unfold drop at ih ⊢
      by_cases here : k = key
      · rw [put, if_pos here, List.filter_cons_of_neg (by simp), List.filter_cons_of_neg (by simp [here])]
      · rw [put, if_neg here, List.filter_cons_of_pos (by simp [here]), List.filter_cons_of_pos (by simp [here]), ih]

def dropWhere (gone : κ → Bool) (entries : List (κ × ν)) : List (κ × ν) := entries.filter fun entry => !gone entry.1

theorem find_drop_where (gone : κ → Bool) (key : κ) (entries : List (κ × ν)) :
    find key (dropWhere gone entries) = if gone key = true then none else find key entries := by
  induction entries with
  | nil => simp [dropWhere]
  | cons entry tail ih =>
      obtain ⟨k, value⟩ := entry
      unfold dropWhere at ih ⊢
      by_cases drops : gone k = true
      · rw [List.filter_cons_of_neg (by simp [drops]), ih, find]
        by_cases same : k = key
        · rw [← same, if_pos drops, if_pos drops]
        · rw [if_neg same]
      · rw [List.filter_cons_of_pos (by simp [drops]), find, ih, find]
        by_cases same : k = key
        · rw [if_pos same, if_pos same, ← same, if_neg drops]
        · rw [if_neg same, if_neg same]

theorem mem_of_find (key : κ) (value : ν) (entries : List (κ × ν)) (found : find key entries = some value) :
    (key, value) ∈ entries := by
  induction entries with
  | nil => simp at found
  | cons entry tail ih =>
      obtain ⟨k, held⟩ := entry
      by_cases here : k = key
      · rw [find, if_pos here] at found
        cases found
        simp [here]
      · rw [find, if_neg here] at found
        exact List.mem_cons_of_mem _ (ih found)

theorem find_absent (key : κ) (entries : List (κ × ν)) (absent : key ∉ entries.map Prod.fst) : find key entries = none := by
  apply Option.eq_none_iff_forall_ne_some.mpr
  intro value found
  exact absent (List.mem_map.mpr ⟨_, mem_of_find key value entries found, rfl⟩)

theorem find_of_mem (key : κ) (value : ν) (entries : List (κ × ν)) (distinct : (entries.map Prod.fst).Nodup)
    (member : (key, value) ∈ entries) : find key entries = some value := by
  induction entries with
  | nil => simp at member
  | cons entry tail ih =>
      obtain ⟨k, held⟩ := entry
      rw [List.map_cons, List.nodup_cons] at distinct
      rcases List.mem_cons.mp member with same | later
      · cases same
        rw [find, if_pos rfl]
      · have different : k ≠ key := fun eq =>
          distinct.1 (List.mem_map.mpr ⟨(key, value), later, eq.symm⟩)
        rw [find, if_neg different]
        exact ih distinct.2 later

theorem perm_drop (key : κ) (value : ν) (entries : List (κ × ν)) (distinct : (entries.map Prod.fst).Nodup)
    (found : find key entries = some value) : entries.Perm ((key, value) :: drop key entries) := by
  induction entries with
  | nil => simp at found
  | cons entry tail ih =>
      obtain ⟨k, held⟩ := entry
      rw [List.map_cons, List.nodup_cons] at distinct
      unfold drop at ih ⊢
      by_cases here : k = key
      · rw [find, if_pos here] at found
        cases found
        have others : tail.filter (fun entry => entry.1 ≠ key) = tail := by
          refine List.filter_eq_self.mpr ?_
          intro other member
          have apart : other.1 ≠ key := fun same => distinct.1 (List.mem_map.mpr ⟨other, member, same.trans here.symm⟩)
          simpa using apart
        rw [List.filter_cons_of_neg (by simp [here]), others, here]
      · rw [find, if_neg here] at found
        rw [List.filter_cons_of_pos (by simp [here])]
        exact ((ih distinct.2 found).cons _).trans (List.Perm.swap _ _ _)

theorem put_keys (key other : κ) (value : ν) (entries : List (κ × ν)) :
    other ∈ (put key value entries).map Prod.fst ↔ other = key ∨ other ∈ entries.map Prod.fst := by
  induction entries with
  | nil => simp [put]
  | cons entry tail ih =>
      obtain ⟨k, old⟩ := entry
      by_cases here : k = key
      · simp [put, here]
      · rw [put, if_neg here, List.map_cons, List.map_cons, List.mem_cons, ih, List.mem_cons]
        exact or_left_comm

theorem put_absent (key : κ) (value : ν) (entries : List (κ × ν)) (absent : ∀ entry ∈ entries, entry.1 ≠ key) :
    put key value entries = entries ++ [(key, value)] := by
  induction entries with
  | nil => rfl
  | cons entry rest ih =>
      obtain ⟨k, old⟩ := entry
      rw [put, if_neg (absent _ List.mem_cons_self), ih fun other member => absent other (List.mem_cons_of_mem _ member)]
      rfl

theorem put_distinct (key : κ) (value : ν) (entries : List (κ × ν)) (distinct : (entries.map Prod.fst).Nodup) :
    ((put key value entries).map Prod.fst).Nodup := by
  induction entries with
  | nil => simp [put]
  | cons entry tail ih =>
      obtain ⟨k, old⟩ := entry
      rw [List.map_cons, List.nodup_cons] at distinct
      by_cases here : k = key
      · rw [put, if_pos here, List.map_cons, List.nodup_cons]
        exact ⟨here ▸ distinct.1, distinct.2⟩
      · rw [put, if_neg here, List.map_cons, List.nodup_cons, put_keys]
        exact ⟨fun member => member.elim here distinct.1, ih distinct.2⟩

theorem drop_distinct (key : κ) (entries : List (κ × ν)) (distinct : (entries.map Prod.fst).Nodup) :
    ((drop key entries).map Prod.fst).Nodup :=
  distinct.sublist (List.filter_sublist.map _)

omit [DecidableEq κ] in
theorem drop_where_distinct (gone : κ → Bool) (entries : List (κ × ν)) (distinct : (entries.map Prod.fst).Nodup) :
    ((dropWhere gone entries).map Prod.fst).Nodup :=
  distinct.sublist (List.filter_sublist.map _)

end Entries

structure Assoc (κ : Type u) (ν : Type v) where
  entries : List (κ × ν) := []
  distinct : (entries.map Prod.fst).Nodup := by first | exact List.nodup_nil | decide
deriving DecidableEq

namespace Assoc

variable {κ : Type u} {ν : Type v} [DecidableEq κ]

instance : Inhabited (Assoc κ ν) := ⟨{}⟩

def get (self : Assoc κ ν) (key : κ) : Option ν := Entries.find key self.entries

def insert (self : Assoc κ ν) (key : κ) (value : ν) : Assoc κ ν :=
  ⟨Entries.put key value self.entries, Entries.put_distinct key value self.entries self.distinct⟩

def remove (self : Assoc κ ν) (key : κ) : Assoc κ ν :=
  ⟨Entries.drop key self.entries, Entries.drop_distinct key self.entries self.distinct⟩

def removeWhere (self : Assoc κ ν) (gone : κ → Bool) : Assoc κ ν :=
  ⟨Entries.dropWhere gone self.entries, Entries.drop_where_distinct gone self.entries self.distinct⟩

-- The new entry goes to the end even if the key was there.
def replace (self : Assoc κ ν) (key : κ) (value : ν) : Assoc κ ν := (self.remove key).insert key value

def isEmpty (self : Assoc κ ν) : Bool := self.entries.isEmpty

def values (self : Assoc κ ν) : List ν := self.entries.map Prod.snd

@[simp] theorem get_empty (key : κ) : (({} : Assoc κ ν)).get key = none := rfl

theorem get_insert (self : Assoc κ ν) (key other : κ) (value : ν) :
    (self.insert key value).get other = if key = other then some value else self.get other :=
  Entries.find_put key other value self.entries

theorem get_remove (self : Assoc κ ν) (key other : κ) :
    (self.remove key).get other = if key = other then none else self.get other :=
  Entries.find_drop key other self.entries

theorem get_remove_where (self : Assoc κ ν) (gone : κ → Bool) (other : κ) :
    (self.removeWhere gone).get other = if gone other = true then none else self.get other :=
  Entries.find_drop_where gone other self.entries

theorem get_replace (self : Assoc κ ν) (key other : κ) (value : ν) :
    (self.replace key value).get other = if key = other then some value else self.get other := by
  rw [replace, get_insert, get_remove]
  by_cases same : key = other
  · rw [if_pos same, if_pos same]
  · rw [if_neg same, if_neg same, if_neg same]

theorem mem_entries_iff (self : Assoc κ ν) (key : κ) (value : ν) :
    (key, value) ∈ self.entries ↔ self.get key = some value :=
  ⟨Entries.find_of_mem key value self.entries self.distinct, Entries.mem_of_find key value self.entries⟩

theorem remove_absent (self : Assoc κ ν) (key : κ) (absent : self.get key = none) : self.remove key = self := by
  obtain ⟨entries, distinct⟩ := self
  have same : Entries.drop key entries = entries := by
    refine List.filter_eq_self.mpr fun entry member => decide_eq_true fun here => ?_
    have found := Entries.find_of_mem entry.1 entry.2 entries distinct member
    rw [here] at found
    exact Option.some_ne_none _ (found.symm.trans absent)
  simp only [remove, same]

theorem entries_perm_remove (self : Assoc κ ν) (key : κ) (value : ν) (get : self.get key = some value) :
    self.entries.Perm ((key, value) :: (self.remove key).entries) :=
  Entries.perm_drop key value self.entries self.distinct get

theorem mem_values_of_get (self : Assoc κ ν) (key : κ) (value : ν) (get : self.get key = some value) :
    value ∈ self.values :=
  List.mem_map.mpr ⟨(key, value), (mem_entries_iff self key value).mpr get, rfl⟩

theorem count_value [DecidableEq ν] (self : Assoc κ ν) (key : κ) (value : ν)
    (own : ∀ other, self.get other = some value → other = key) :
    self.values.count value = if self.get key = some value then 1 else 0 := by
  have single : ∀ others : Assoc κ ν, others.get key = none → (∀ other, others.get other = some value → other = key) →
      others.values.count value = 0 := by
    intro others absent owned
    refine List.count_eq_zero.mpr fun member => ?_
    obtain ⟨⟨other, held⟩, entry, rfl⟩ := List.mem_map.mp member
    have found := (mem_entries_iff others other held).mp entry
    rw [owned other found, absent] at found
    cases found
  by_cases here : self.get key = some value
  · rw [if_pos here, values, ((entries_perm_remove self key value here).map Prod.snd).count_eq, List.map_cons,
      List.count_cons_self]
    refine congrArg Nat.succ (single (self.remove key) (by rw [get_remove, if_pos rfl]) fun other found => ?_)
    rw [get_remove] at found
    split at found
    · cases found
    · exact own other found
  · rw [if_neg here, values]
    refine List.count_eq_zero.mpr fun member => ?_
    obtain ⟨⟨other, held⟩, entry, rfl⟩ := List.mem_map.mp member
    have found := (mem_entries_iff self other held).mp entry
    rw [own other found] at found
    exact here found

omit [DecidableEq κ] in
theorem is_empty_iff (self : Assoc κ ν) : self.isEmpty = true ↔ self = {} := by
  obtain ⟨entries, distinct⟩ := self
  simp [isEmpty]

end Assoc
