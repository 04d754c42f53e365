import Mathlib.Algebra.Group.Nat.Defs
import Mathlib.Data.List.Basic

set_option autoImplicit false

/- Computations over byte slices that return, fail with an error of the
   program, or panic. Slice indexing and fixed-width arithmetic panic exactly
   where the checked operation of a systems language does, so that the absence
   of panics is a theorem about a definition and not an assumption of it. -/
universe u v

inductive Outcome (ε : Type u) (α : Type v) where
  | ok (value : α)
  | err (error : ε)
  | panic
deriving DecidableEq, Repr

namespace Outcome

variable {ε : Type u} {α : Type v} {β : Type v} {γ : Type v}

def bind (first : Outcome ε α) (next : α → Outcome ε β) : Outcome ε β :=
  match first with
  | .ok value => next value
  | .err error => .err error
  | .panic => .panic

instance : Monad (Outcome ε) where
  pure := .ok
  bind := bind

@[simp] theorem pure_eq (value : α) : (pure value : Outcome ε α) = .ok value := rfl

@[simp] theorem ok_bind (value : α) (next : α → Outcome ε β) : (Outcome.ok value >>= next) = next value := rfl

@[simp] theorem err_bind (error : ε) (next : α → Outcome ε β) : (Outcome.err error >>= next) = .err error := rfl

@[simp] theorem panic_bind (next : α → Outcome ε β) : ((Outcome.panic : Outcome ε α) >>= next) = .panic := rfl

@[simp] theorem bind_ok (first : Outcome ε α) : (first >>= fun value => .ok value) = first := by
  cases first <;> rfl

theorem bind_ok_iff (first : Outcome ε α) (next : α → Outcome ε β) (result : β) :
    (first >>= next) = .ok result ↔ ∃ value, first = .ok value ∧ next value = .ok result := by
  cases first <;> simp

theorem bind_panic_iff (first : Outcome ε α) (next : α → Outcome ε β) :
    (first >>= next) = .panic ↔ first = .panic ∨ ∃ value, first = .ok value ∧ next value = .panic := by
  cases first <;> simp

theorem bind_no_panic (first : Outcome ε α) (next : α → Outcome ε β) (safe : first ≠ .panic)
    (after : ∀ value, first = .ok value → next value ≠ .panic) : (first >>= next) ≠ .panic := by
  cases first with
  | ok value => exact after value rfl
  | err error => simp
  | panic => exact absurd rfl safe

theorem bind_assoc (first : Outcome ε α) (second : α → Outcome ε β) (third : β → Outcome ε γ) :
    (first >>= second >>= third) = (first >>= fun value => second value >>= third) := by
  cases first <;> rfl

-- The slice operations of the source. An index or a range end past the slice panics.
def index (buf : List α) (i : Nat) : Outcome ε α :=
  match buf[i]? with
  | some value => .ok value
  | none => .panic

def sliceFrom (start : Nat) (buf : List α) : Outcome ε (List α) :=
  if start ≤ buf.length then .ok (buf.drop start) else .panic

def sliceTo (stop : Nat) (buf : List α) : Outcome ε (List α) :=
  if stop ≤ buf.length then .ok (buf.take stop) else .panic

@[simp] theorem index_cons_zero (head : α) (tail : List α) :
    (index (head :: tail) 0 : Outcome ε α) = .ok head := rfl

@[simp] theorem index_cons_succ (head : α) (tail : List α) (i : Nat) :
    (index (head :: tail) (i + 1) : Outcome ε α) = index tail i := rfl

theorem slice_from_within (start : Nat) (buf : List α) (within : start ≤ buf.length) :
    (sliceFrom start buf : Outcome ε (List α)) = .ok (buf.drop start) := by
  simp [sliceFrom, within]

theorem slice_to_within (stop : Nat) (buf : List α) (within : stop ≤ buf.length) :
    (sliceTo stop buf : Outcome ε (List α)) = .ok (buf.take stop) := by
  simp [sliceTo, within]

theorem slice_from_panic_iff (start : Nat) (buf : List α) :
    (sliceFrom start buf : Outcome ε (List α)) = .panic ↔ buf.length < start := by
  simp [sliceFrom]

theorem slice_from_ok (start : Nat) (buf rest : List α)
    (completed : (sliceFrom start buf : Outcome ε (List α)) = .ok rest) :
    ∃ taken, buf = taken ++ rest ∧ taken.length = start := by
  unfold sliceFrom at completed
  split at completed
  · rename_i within
    cases completed
    exact ⟨buf.take start, (List.take_append_drop _ _).symm, List.length_take_of_le within⟩
  · cases completed

@[simp] theorem slice_from_append (taken rest : List α) :
    (sliceFrom taken.length (taken ++ rest) : Outcome ε (List α)) = .ok rest := by
  rw [slice_from_within _ _ (by simp), List.drop_left]

@[simp] theorem slice_to_append (taken rest : List α) :
    (sliceTo taken.length (taken ++ rest) : Outcome ε (List α)) = .ok taken := by
  rw [slice_to_within _ _ (by simp), List.take_left]

-- Arithmetic on words of the given width, with the overflow check that panics.
def addWord (width a b : Nat) : Outcome ε Nat := if a + b < 2 ^ width then .ok (a + b) else .panic

def mulWord (width a b : Nat) : Outcome ε Nat := if a * b < 2 ^ width then .ok (a * b) else .panic

def subWord (a b : Nat) : Outcome ε Nat := if b ≤ a then .ok (a - b) else .panic

theorem add_word_fits (width a b : Nat) (fits : a + b < 2 ^ width) :
    (addWord width a b : Outcome ε Nat) = .ok (a + b) := by
  simp [addWord, fits]

theorem mul_word_fits (width a b : Nat) (fits : a * b < 2 ^ width) :
    (mulWord width a b : Outcome ε Nat) = .ok (a * b) := by
  simp [mulWord, fits]

theorem sub_word_fits (a b : Nat) (fits : b ≤ a) : (subWord a b : Outcome ε Nat) = .ok (a - b) := by
  simp [subWord, fits]

end Outcome
