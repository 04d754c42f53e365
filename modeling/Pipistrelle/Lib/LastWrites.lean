import Pipistrelle.Lib.Assoc
import Mathlib.Data.List.Induction

set_option autoImplicit false

/- Sequences of writes under keys, of which only the last one for a key counts. -/
universe u v w

namespace LastWrites

variable {α : Type u} {κ : Type v} {κ' : Type w} [DecidableEq κ] [DecidableEq κ']

def moveToEnd (key : α → κ) (kept : List α) (write : α) : List α :=
  kept.filter (fun other => key other ≠ key write) ++ [write]

def settle (key : α → κ) : List α → List α
  | [] => []
  | write :: rest => if key write ∈ rest.map key then settle key rest else write :: settle key rest

theorem settle_keys (key : α → κ) (writes : List α) (k : κ) :
    k ∈ (settle key writes).map key ↔ k ∈ writes.map key := by
  induction writes with
  | nil => exact Iff.rfl
  | cons write rest ih =>
      rw [settle, List.map_cons, List.mem_cons]
      by_cases later : key write ∈ rest.map key
      · rw [if_pos later, ih]
        exact (or_iff_right_of_imp fun same => same ▸ later).symm
      · rw [if_neg later, List.map_cons, List.mem_cons, ih]

theorem settle_append_last (key : α → κ) (writes : List α) (last : α) :
    settle key (writes ++ [last]) = moveToEnd key (settle key writes) last := by
  unfold moveToEnd
  induction writes with
  | nil => rfl
  | cons write rest ih =>
      rw [List.cons_append, settle, settle, List.map_append, ih]
      by_cases later : key write ∈ rest.map key
      · rw [if_pos later, if_pos (List.mem_append_left _ later)]
      · rw [if_neg later]
        by_cases same : key write = key last
        · rw [if_pos (List.mem_append_right _ (by simp [same])), List.filter_cons_of_neg (by simp [same])]
        · have neither : key write ∉ rest.map key ++ [last].map key := by
            intro member
            rcases List.mem_append.mp member with early | atEnd
            · exact later early
            · exact same (by simpa using atEnd)
          rw [if_neg neither, List.filter_cons_of_pos (by simpa using same), List.cons_append]

theorem fold_moves (key : α → κ) (writes : List α) : writes.foldl (moveToEnd key) [] = settle key writes := by
  induction writes using List.reverseRecOn with
  | nil => rfl
  | append_singleton writes last ih => rw [List.foldl_append, ih, settle_append_last, List.foldl_cons, List.foldl_nil]

theorem filter_settle (key : α → κ) (select : α → Bool) (decided : ∀ a b, key a = key b → select a = select b)
    (writes : List α) : (settle key writes).filter select = settle key (writes.filter select) := by
  induction writes with
  | nil => rfl
  | cons write rest ih =>
      rw [settle]
      by_cases chosen : select write = true
      · rw [List.filter_cons_of_pos chosen, settle]
        have same : key write ∈ (rest.filter select).map key ↔ key write ∈ rest.map key := by
          constructor
          · exact fun member => (List.filter_sublist.map key).subset member
          · intro member
            obtain ⟨other, inRest, named⟩ := List.mem_map.mp member
            exact List.mem_map.mpr ⟨other, List.mem_filter.mpr ⟨inRest, (decided _ _ named).trans chosen⟩, named⟩
        by_cases later : key write ∈ rest.map key
        · rw [if_pos later, if_pos (same.mpr later), ih]
        · rw [if_neg later, if_neg (fun member => later (same.mp member)), List.filter_cons_of_pos chosen, ih]
      · rw [List.filter_cons_of_neg chosen]
        split
        · exact ih
        · rw [List.filter_cons_of_neg chosen, ih]

theorem settle_settle (key : α → κ) (finer : α → κ') (refines : ∀ a b, finer a = finer b → key a = key b)
    (writes : List α) : settle key (settle finer writes) = settle key writes := by
  induction writes with
  | nil => rfl
  | cons write rest ih =>
      rw [settle, settle]
      have coarse : ∀ a, ∀ others : List α, finer a ∈ others.map finer → key a ∈ others.map key := by
        intro a others member
        obtain ⟨other, inside, named⟩ := List.mem_map.mp member
        exact List.mem_map.mpr ⟨other, inside, refines _ _ named⟩
      by_cases later : finer write ∈ rest.map finer
      · rw [if_pos later, if_pos (coarse _ _ later), ih]
      · rw [if_neg later, settle, ih]
        have same : key write ∈ (settle finer rest).map key ↔ key write ∈ rest.map key := by
          rw [← settle_keys key (settle finer rest), ih, settle_keys]
        by_cases held : key write ∈ rest.map key
        · rw [if_pos held, if_pos (same.mpr held)]
        · rw [if_neg held, if_neg (fun member => held (same.mp member))]

theorem last_settle (key : α → κ) (writes : List α) : (settle key writes).getLast? = writes.getLast? := by
  rcases List.eq_nil_or_concat writes with nil | ⟨early, last, concat⟩
  · rw [nil]
    rfl
  · rw [concat, List.concat_eq_append, settle_append_last, moveToEnd, List.getLast?_concat, List.getLast?_concat]

theorem settle_map {β : Type u} (key : α → κ) (f : β → α) (writes : List β) :
    settle key (writes.map f) = (settle (fun write => key (f write)) writes).map f := by
  induction writes with
  | nil => rfl
  | cons write rest ih =>
      have keys : (rest.map f).map key = rest.map fun write => key (f write) := by
        rw [List.map_map]
        rfl
      rw [List.map_cons, settle, settle, keys, ih]
      by_cases later : key (f write) ∈ rest.map fun write => key (f write)
      · rw [if_pos later, if_pos later]
      · rw [if_neg later, if_neg later, List.map_cons]

-- A table whose replacements go to the end is such a store.
theorem replace_entries {ν : Type u} (self : Assoc κ ν) (key : κ) (value : ν) :
    (self.replace key value).entries = moveToEnd Prod.fst self.entries (key, value) := by
  have absent : ∀ entry ∈ Entries.drop key self.entries, entry.1 ≠ key := by
    intro entry member
    simpa using (List.mem_filter.mp member).2
  exact Entries.put_absent key value _ absent

end LastWrites
