import Mathlib.Data.List.GetD
import Mathlib.Data.List.Nodup
import Mathlib.Data.List.Perm.Subperm

set_option autoImplicit false

/- Picks from a fixed list of members, one after the other. A round is as many picks
   as there are members. The members' shares never differ by more than one exactly
   when no round picks a member twice. -/
universe u v

namespace RoundRobin

variable {α : Type u} [DecidableEq α]

def Balanced (members picks : List α) : Prop := ∀ a ∈ members, ∀ b ∈ members, picks.count a ≤ picks.count b + 1

-- The picks of one round; the last round may be unfinished.
def round (n q : Nat) (picks : List α) : List α := (picks.drop (q * n)).take n

omit [DecidableEq α] in
theorem round_subset (n q : Nat) (picks : List α) : round n q picks ⊆ picks :=
  fun _ member => List.mem_of_mem_drop (List.mem_of_mem_take member)

omit [DecidableEq α] in
theorem round_map {β : Type v} (f : β → α) (n q : Nat) (picks : List β) : round n q (picks.map f) = (round n q picks).map f := by
  rw [round, round, List.map_take, List.map_drop]

omit [DecidableEq α] in
theorem take_rounds (n q k : Nat) (picks : List α) (within : k ≤ n) :
    picks.take (q * n + k) = picks.take (q * n) ++ (round n q picks).take k := by
  rw [List.take_add, round, List.take_take, Nat.min_eq_left within]

theorem nodup_of_balanced (members picks : List α) (distinct : members.Nodup) (inside : picks ⊆ members)
    (short : picks.length ≤ members.length) (balanced : Balanced members picks) : picks.Nodup := by
  rw [List.nodup_iff_count_le_one]
  intro twice
  by_contra more
  have member : twice ∈ members := inside (List.count_pos_iff.mp (by omega))
  have each : (twice :: members).Subperm picks := by
    refine List.subperm_ext_iff.mpr fun a inList => ?_
    rw [List.count_cons]
    have once := List.nodup_iff_count_le_one.mp distinct a
    by_cases same : twice = a
    · subst same
      rw [beq_self_eq_true, if_pos rfl]
      omega
    · rw [if_neg (by simpa using same)]
      rcases List.mem_cons.mp inList with eq | other
      · exact absurd eq.symm same
      · have shares := balanced twice member a other
        omega
  have longer := each.length_le
  rw [List.length_cons] at longer
  omega

theorem full_round_count (members picks : List α) (distinct : members.Nodup) (inside : picks ⊆ members)
    (full : picks.length = members.length) (once : picks.Nodup) (a : α) (member : a ∈ members) : picks.count a = 1 := by
  have perm := (once.subperm inside).perm_of_length_le (Nat.le_of_eq full.symm)
  rw [perm.count_eq]
  exact List.count_eq_one_of_mem distinct member

theorem full_rounds_count (members picks : List α) (distinct : members.Nodup) (inside : picks ⊆ members) (q : Nat)
    (once : ∀ p < q, (round members.length p picks).Nodup) (enough : q * members.length ≤ picks.length) (a : α)
    (member : a ∈ members) : (picks.take (q * members.length)).count a = q := by
  induction q with
  | zero => simp
  | succ q ih =>
      have split := take_rounds members.length q members.length picks (Nat.le_refl _)
      rw [← Nat.succ_mul] at split
      have whole : (round members.length q picks).length = members.length := by
        rw [round, List.length_take, List.length_drop]
        rw [Nat.succ_mul] at enough
        omega
      have last := full_round_count members _ distinct (fun _ found => inside (round_subset _ _ _ found)) whole
        (once q (Nat.lt_succ_self q)) a member
      rw [split, List.count_append, List.take_of_length_le (Nat.le_of_eq whole), last,
        ih (fun p below => once p (Nat.lt_succ_of_lt below)) (by rw [Nat.succ_mul] at enough; omega)]

theorem balanced_iff (members picks : List α) (distinct : members.Nodup) (nonempty : members ≠ []) (inside : picks ⊆ members) :
    (∀ k, Balanced members (picks.take k)) ↔ ∀ q, (round members.length q picks).Nodup := by
  constructor
  · intro balanced q
    -- Strong induction: the rounds before are full, so each member has had as many picks.
    induction q using Nat.strongRecOn with
    | ind q ih =>
        by_cases enough : q * members.length ≤ picks.length
        · have before := full_rounds_count members picks distinct inside q ih enough
          refine nodup_of_balanced members _ distinct (fun _ found => inside (round_subset _ _ _ found)) ?_ ?_
          · rw [round, List.length_take]
            exact Nat.min_le_left _ _
          · intro a memberA b memberB
            have shares := balanced (q * members.length + members.length) a memberA b memberB
            rw [take_rounds _ _ _ _ (Nat.le_refl _), List.count_append, List.count_append, before a memberA,
              before b memberB, List.take_of_length_le (by rw [round, List.length_take]; exact Nat.min_le_left _ _)] at shares
            omega
        · rw [round, List.drop_eq_nil_of_le (by omega), List.take_nil]
          exact List.nodup_nil
  · intro once k a memberA b memberB
    have positive : 0 < members.length := List.length_pos_iff.mpr nonempty
    have capped : picks.take k = picks.take (min k picks.length) := by
      rw [List.take_eq_take_iff]
      omega
    have split := take_rounds members.length (min k picks.length / members.length) (min k picks.length % members.length)
      picks (Nat.le_of_lt (Nat.mod_lt _ positive))
    rw [Nat.mul_comm, Nat.div_add_mod, Nat.mul_comm] at split
    have enough : min k picks.length / members.length * members.length ≤ picks.length :=
      Nat.le_trans (Nat.div_mul_le_self _ _) (Nat.min_le_right _ _)
    have before := full_rounds_count members picks distinct inside _ (fun p _ => once p) enough
    have started := ((once (min k picks.length / members.length)).sublist
      (List.take_sublist (min k picks.length % members.length) _))
    have atMost := List.nodup_iff_count_le_one.mp started a
    rw [capped, split, List.count_append, List.count_append, before a memberA, before b memberB]
    omega

theorem balanced_places_iff (members : List α) (distinct : members.Nodup) (nonempty : members ≠ []) (places : List Nat)
    (below : ∀ place ∈ places, place < members.length) (default : α) :
    (∀ k, Balanced members ((places.map (members.getD · default)).take k)) ↔
      ∀ q, (round members.length q places).Nodup := by
  have inside : places.map (members.getD · default) ⊆ members := by
    intro pick found
    obtain ⟨place, member, rfl⟩ := List.mem_map.mp found
    rw [List.getD_eq_getElem _ _ (below place member)]
    exact List.getElem_mem _
  rw [balanced_iff members _ distinct nonempty inside]
  refine forall_congr' fun q => ?_
  rw [round_map]
  refine ⟨List.Nodup.of_map _, fun once => once.map_on ?_⟩
  intro place member other memberOther same
  have first := below place (round_subset _ _ _ member)
  have second := below other (round_subset _ _ _ memberOther)
  rw [List.getD_eq_getElem _ _ first, List.getD_eq_getElem _ _ second] at same
  exact distinct.getElem_inj_iff.mp same

end RoundRobin
