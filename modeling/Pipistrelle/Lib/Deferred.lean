import Mathlib.Data.List.Basic
import Mathlib.Data.List.Perm.Basic

set_option autoImplicit false

/- A client that hands writes to tasks, which run them against a store at any later
   time and in any order. The store ends as some order of the writes leaves it, and
   every order can happen; in a store of rows, all orders agree exactly when no two
   writes leave different contents in one row. -/
namespace Deferred

section Rows

variable {ω τ ρ ν : Type}

-- effect says what a write leaves in a row that it touches.
structure RowStore (ω τ ρ ν : Type) where
  exec : τ → ω → τ
  row : τ → ρ → ν
  effect : ω → ρ → Option ν
  row_exec : ∀ store write key, row (exec store write) key = ((effect write key).getD (row store key))

variable (rows : RowStore ω τ ρ ν)

def RowStore.Agree (first second : ω) : Prop :=
  ∀ key left right, rows.effect first key = some left → rows.effect second key = some right → left = right

def RowStore.Same (store other : τ) : Prop := ∀ key, rows.row store key = rows.row other key

theorem row_untouched (writes : List ω) (store : τ) (key : ρ) (untouched : ∀ write ∈ writes, rows.effect write key = none) :
    rows.row (writes.foldl rows.exec store) key = rows.row store key := by
  induction writes generalizing store with
  | nil => rfl
  | cons write rest ih =>
      rw [List.foldl_cons, ih _ (fun other member => untouched other (by simp [member])), rows.row_exec,
        untouched write (by simp), Option.getD_none]

theorem row_decided (writes : List ω) (store : τ) (key : ρ) (value : ν)
    (agreed : ∀ write ∈ writes, ∀ left, rows.effect write key = some left → left = value)
    (touched : rows.row store key = value ∨ ∃ write ∈ writes, rows.effect write key = some value) :
    rows.row (writes.foldl rows.exec store) key = value := by
  induction writes generalizing store with
  | nil =>
      rcases touched with already | ⟨write, member, _⟩
      · exact already
      · simp at member
  | cons write rest ih =>
      rw [List.foldl_cons]
      refine ih _ (fun other member => agreed other (by simp [member])) ?_
      rw [rows.row_exec]
      cases here : rows.effect write key with
      | some left => exact .inl (agreed write (by simp) left here)
      | none =>
          rcases touched with already | ⟨other, member, effect⟩
          · exact .inl already
          · rcases List.mem_cons.mp member with same | later
            · rw [← same, effect] at here
              cases here
            · exact .inr ⟨other, later, effect⟩

theorem row_last (writes : List ω) (last : ω) (store : τ) (key : ρ) (value : ν)
    (effect : rows.effect last key = some value) :
    rows.row ((writes ++ [last]).foldl rows.exec store) key = value := by
  rw [List.foldl_append, List.foldl_cons, List.foldl_nil, rows.row_exec, effect, Option.getD_some]

theorem ends_with (writes : List ω) (last : ω) (member : last ∈ writes) :
    ∃ front, (front ++ [last]).Perm writes := by
  obtain ⟨before, after, same⟩ := List.append_of_mem member
  refine ⟨before ++ after, ?_⟩
  rw [same, List.append_assoc]
  exact List.Perm.append_left before (List.perm_append_singleton last after)

theorem orders_agree_iff (writes : List ω) (store : τ) :
    (∀ order : List ω, order.Perm writes → rows.Same (order.foldl rows.exec store) (writes.foldl rows.exec store)) ↔
      ∀ first ∈ writes, ∀ second ∈ writes, rows.Agree first second := by
  constructor
  · intro agree first firstMember second secondMember key left right firstEffect secondEffect
    obtain ⟨front, firstLast⟩ := ends_with writes first firstMember
    obtain ⟨back, secondLast⟩ := ends_with writes second secondMember
    have leftEnds := (row_last rows front first store key left firstEffect).symm.trans (agree _ firstLast key)
    have rightEnds := (row_last rows back second store key right secondEffect).symm.trans (agree _ secondLast key)
    exact leftEnds.trans rightEnds.symm
  · intro agree order perm key
    by_cases touched : ∃ write ∈ writes, ∃ value, rows.effect write key = some value
    · obtain ⟨write, member, value, effect⟩ := touched
      have decided : ∀ list : List ω, list.Perm writes → rows.row (list.foldl rows.exec store) key = value := by
        intro list permutes
        apply row_decided rows list store key value
        · intro other otherMember left otherEffect
          exact agree other (permutes.mem_iff.mp otherMember) write member key left value otherEffect effect
        · exact .inr ⟨write, permutes.mem_iff.mpr member, effect⟩
      rw [decided order perm, decided writes (List.Perm.refl _)]
    · have untouched : ∀ list : List ω, list.Perm writes → ∀ write ∈ list, rows.effect write key = none := by
        intro list permutes write member
        cases effect : rows.effect write key with
        | none => rfl
        | some value => exact absurd ⟨write, permutes.mem_iff.mp member, value, effect⟩ touched
      rw [row_untouched rows order store key (untouched order perm),
        row_untouched rows writes store key (untouched writes (List.Perm.refl _))]

end Rows

section Tasks

variable {σ α ω τ : Type}

structure System (σ ω τ : Type) where
  client : σ
  pending : List ω
  store : τ

inductive Event (α : Type) where
  | operation (op : α)
  | complete (task : Nat)

-- operate is the client, with the writes that each of its operations hands over.
variable (operate : σ → α → σ × List ω) (exec : τ → ω → τ)

def step (system : System σ ω τ) : Event α → System σ ω τ
  | .operation op =>
      { system with client := (operate system.client op).1, pending := system.pending ++ (operate system.client op).2 }
  | .complete task =>
      match system.pending[task]? with
      | some write => { system with pending := system.pending.eraseIdx task, store := exec system.store write }
      | none => system

def run (system : System σ ω τ) (events : List (Event α)) : System σ ω τ := events.foldl (step operate exec) system

def operations : List (Event α) → List α
  | [] => []
  | .operation op :: rest => op :: operations rest
  | .complete _ :: rest => operations rest

def issuedBy (client : σ) : List α → List ω
  | [] => []
  | op :: rest => (operate client op).2 ++ issuedBy (operate client op).1 rest

theorem run_order (system : System σ ω τ) (events : List (Event α)) :
    ∃ done : List ω, (run operate exec system events).store = done.foldl exec system.store ∧
      (done ++ (run operate exec system events).pending).Perm
        (system.pending ++ issuedBy operate system.client (operations events)) := by
  induction events generalizing system with
  | nil => exact ⟨[], rfl, by simp [run, operations, issuedBy]⟩
  | cons event rest ih =>
      obtain ⟨done, store, perm⟩ := ih (step operate exec system event)
      cases event with
      | operation op =>
          refine ⟨done, store, perm.trans ?_⟩
          rw [operations, issuedBy, step, List.append_assoc]
      | complete task =>
          cases held : system.pending[task]? with
          | none =>
              simp only [step, held] at store perm
              exact ⟨done, by simpa only [run, List.foldl_cons, step, held] using store,
                by simpa only [run, List.foldl_cons, step, held, operations] using perm⟩
          | some write =>
              simp only [step, held] at store perm
              obtain ⟨within, same⟩ := List.getElem?_eq_some_iff.mp held
              refine ⟨write :: done, by simpa only [run, List.foldl_cons, step, held] using store, ?_⟩
              have split := List.getElem_cons_eraseIdx_perm within
              rw [same] at split
              have taken := (perm.cons write).trans (split.append_right (issuedBy operate system.client (operations rest)))
              simpa only [run, List.foldl_cons, step, held, operations, List.cons_append] using taken

theorem completions_reach (system : System σ ω τ) (order : List ω) (perm : order.Perm system.pending) :
    ∃ events : List (Event α), operations events = [] ∧ (run operate exec system events).pending = [] ∧
      (run operate exec system events).store = order.foldl exec system.store := by
  induction order generalizing system with
  | nil => exact ⟨[], rfl, List.nil_perm.mp perm, rfl⟩
  | cons write rest ih =>
      obtain ⟨task, within, same⟩ := List.getElem_of_mem (perm.mem_iff.mp List.mem_cons_self)
      have held : system.pending[task]? = some write := List.getElem?_eq_some_iff.mpr ⟨within, same⟩
      have split := List.getElem_cons_eraseIdx_perm within
      rw [same] at split
      have remaining : rest.Perm (step operate exec system (.complete task : Event α)).pending := by
        simp only [step, held]
        exact List.Perm.cons_inv (perm.trans split.symm)
      obtain ⟨events, noOps, empty, store⟩ := ih _ remaining
      refine ⟨.complete task :: events, noOps, empty, store.trans ?_⟩
      simp only [step, held, List.foldl_cons]

-- Every order of the writes can happen: all tasks may wait until the operations are over.
theorem order_reached (system : System σ ω τ) (ops : List α) (order : List ω)
    (perm : order.Perm (system.pending ++ issuedBy operate system.client ops)) :
    ∃ events : List (Event α), operations events = ops ∧ (run operate exec system events).pending = [] ∧
      (run operate exec system events).store = order.foldl exec system.store := by
  induction ops generalizing system with
  | nil =>
      rw [issuedBy, List.append_nil] at perm
      exact completions_reach operate exec system order perm
  | cons op rest ih =>
      rw [issuedBy, ← List.append_assoc] at perm
      obtain ⟨events, sameOps, empty, store⟩ := ih (step operate exec system (.operation op)) perm
      exact ⟨.operation op :: events, by rw [operations, sameOps], empty, store⟩

variable {ρ ν : Type} (rows : RowStore ω τ ρ ν)

theorem settled_iff (client : σ) (store : τ) (ops : List α) :
    (∀ events : List (Event α), operations events = ops →
        (run operate rows.exec ⟨client, [], store⟩ events).pending = [] →
        rows.Same (run operate rows.exec ⟨client, [], store⟩ events).store
          ((issuedBy operate client ops).foldl rows.exec store)) ↔
      ∀ first ∈ issuedBy operate client ops, ∀ second ∈ issuedBy operate client ops, rows.Agree first second := by
  rw [← orders_agree_iff rows _ store]
  constructor
  · intro settled order perm
    obtain ⟨events, sameOps, empty, reached⟩ :=
      order_reached operate rows.exec ⟨client, [], store⟩ ops order (by simpa using perm)
    rw [← reached]
    exact settled events sameOps empty
  · intro agree events sameOps empty
    obtain ⟨done, reached, perm⟩ := run_order operate rows.exec ⟨client, [], store⟩ events
    rw [reached]
    exact agree done (by simpa [empty, sameOps] using perm)

end Tasks

end Deferred
