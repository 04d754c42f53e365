import Mathlib.Data.List.Basic

set_option autoImplicit false

/- Trees whose nodes hold a value and at most one child for each label. A tree is
   seen from its root as a map from paths to values, with the value of the empty
   node where no node stands; planting and pruning change that map at one path. -/
universe u

structure TreeShape (N L V : Type u) where
  child : L → N → Option N
  setChild : L → Option N → N → N
  value : N → V
  setValue : V → N → N
  empty : N
  isEmpty : N → Bool
  child_set_same : ∀ label node next, child label (setChild label next node) = next
  child_set_other : ∀ label other node next, label ≠ other → child other (setChild label next node) = child other node
  value_set_child : ∀ label node next, value (setChild label next node) = value node
  child_set_value : ∀ label node held, child label (setValue held node) = child label node
  value_set_value : ∀ node held, value (setValue held node) = held
  child_empty : ∀ label, child label empty = none
  empty_child : ∀ node, isEmpty node = true → ∀ label, child label node = none
  empty_value : ∀ node, isEmpty node = true → value node = value empty

namespace TreeShape

variable {N L V R : Type u} (shape : TreeShape N L V)

def valueAt : List L → N → V
  | [], node => shape.value node
  | label :: path, node =>
      match shape.child label node with
      | none => shape.value shape.empty
      | some next => valueAt path next

-- Descend along the path, with new nodes where there are none, and change the last.
def plant (change : V → V) : List L → N → N
  | [], node => shape.setValue (change (shape.value node)) node
  | label :: path, node =>
      shape.setChild label (some (plant change path ((shape.child label node).getD shape.empty))) node

-- Descend along the path as far as there are nodes, change the last, and cut off
-- the children that this leaves empty.
def prune (change : V → V × R) (absent : R) : List L → N → N × R
  | [], node => (shape.setValue (change (shape.value node)).1 node, (change (shape.value node)).2)
  | label :: path, node =>
      match shape.child label node with
      | none => (node, absent)
      | some next =>
          let (pruned, result) := prune change absent path next
          (if shape.isEmpty pruned then shape.setChild label none node
            else shape.setChild label (some pruned) node, result)

theorem prune_missing (change : V → V × R) (absent : R) (label : L) (path : List L) (node : N)
    (missing : shape.child label node = none) : shape.prune change absent (label :: path) node = (node, absent) := by
  rw [prune, missing]

theorem prune_child (change : V → V × R) (absent : R) (label : L) (path : List L) (node next : N)
    (found : shape.child label node = some next) :
    shape.prune change absent (label :: path) node =
      (shape.setChild label (if shape.isEmpty (shape.prune change absent path next).1 then none
        else some (shape.prune change absent path next).1) node, (shape.prune change absent path next).2) := by
  rw [prune, found]
  dsimp only
  split <;> rfl

theorem value_at_cons (label : L) (path : List L) (node next : N) (found : shape.child label node = some next) :
    shape.valueAt (label :: path) node = shape.valueAt path next := by
  rw [valueAt, found]

theorem value_at_missing (label : L) (path : List L) (node : N) (missing : shape.child label node = none) :
    shape.valueAt (label :: path) node = shape.value shape.empty := by
  rw [valueAt, missing]

theorem value_at_empty (node : N) (vacant : shape.isEmpty node = true) (path : List L) :
    shape.valueAt path node = shape.value shape.empty := by
  cases path with
  | nil => exact shape.empty_value node vacant
  | cons label path => exact shape.value_at_missing label path node (shape.empty_child node vacant label)

theorem value_at_new (path : List L) : shape.valueAt path shape.empty = shape.value shape.empty := by
  cases path with
  | nil => rfl
  | cons label path => exact shape.value_at_missing label path _ (shape.child_empty label)

theorem value_at_child (label : L) (path : List L) (node : N) :
    shape.valueAt path ((shape.child label node).getD shape.empty) = shape.valueAt (label :: path) node := by
  cases found : shape.child label node with
  | none => rw [Option.getD_none, value_at_new, shape.value_at_missing label path node found]
  | some next => rw [Option.getD_some, shape.value_at_cons label path node next found]

theorem value_at_set_value (label : L) (path : List L) (node : N) (held : V) :
    shape.valueAt (label :: path) (shape.setValue held node) = shape.valueAt (label :: path) node := by
  rw [valueAt, shape.child_set_value, valueAt]

variable [DecidableEq L]

theorem value_at_set_child (label other : L) (path : List L) (node : N) (next : Option N) :
    shape.valueAt (other :: path) (shape.setChild label next node) =
      if label = other then shape.valueAt path (next.getD shape.empty) else shape.valueAt (other :: path) node := by
  by_cases same : label = other
  · subst same
    rw [if_pos rfl, ← shape.value_at_child, shape.child_set_same]
  · rw [if_neg same, valueAt, shape.child_set_other label other node next same, valueAt]

theorem value_at_plant (change : V → V) (path other : List L) (node : N) :
    shape.valueAt other (shape.plant change path node) =
      if other = path then change (shape.valueAt path node) else shape.valueAt other node := by
  induction path generalizing other node with
  | nil =>
      cases other with
      | nil => rw [if_pos rfl, plant, valueAt, shape.value_set_value, valueAt]
      | cons label tail => rw [if_neg (by simp), plant, shape.value_at_set_value]
  | cons label path ih =>
      cases other with
      | nil => rw [if_neg (by simp), plant, valueAt, shape.value_set_child, valueAt]
      | cons first tail =>
          rw [plant, value_at_set_child]
          by_cases same : label = first
          · subst same
            rw [if_pos rfl, Option.getD_some, ih, shape.value_at_child, shape.value_at_child]
            simp only [List.cons.injEq, true_and]
          · rw [if_neg same, if_neg (fun eq => same (List.cons.inj eq).1.symm)]

theorem value_at_prune (change : V → V × R) (absent : R)
    (vacant : change (shape.value shape.empty) = (shape.value shape.empty, absent)) (path other : List L) (node : N) :
    shape.valueAt other (shape.prune change absent path node).1 =
      if other = path then (change (shape.valueAt path node)).1 else shape.valueAt other node := by
  induction path generalizing other node with
  | nil =>
      cases other with
      | nil => rw [if_pos rfl, prune, valueAt, shape.value_set_value, valueAt]
      | cons label tail => rw [if_neg (by simp), prune, shape.value_at_set_value]
  | cons label path ih =>
      cases found : shape.child label node with
      | none =>
          rw [shape.prune_missing change absent label path node found]
          by_cases same : other = label :: path
          · rw [if_pos same, same, shape.value_at_missing label path node found, vacant]
          · rw [if_neg same]
      | some next =>
          rw [shape.prune_child change absent label path node next found, shape.value_at_cons label path node next found]
          have pruned := fun tail => ih tail next
          generalize shape.prune change absent path next = result at pruned ⊢
          have below : ∀ tail, shape.valueAt tail
              ((if shape.isEmpty result.1 then none else some result.1 : Option N).getD shape.empty) =
              shape.valueAt tail result.1 := by
            intro tail
            by_cases gone : shape.isEmpty result.1 = true
            · rw [if_pos gone, Option.getD_none, value_at_new, shape.value_at_empty _ gone]
            · rw [if_neg gone, Option.getD_some]
          cases other with
          | nil => rw [if_neg (List.cons_ne_nil label path).symm, valueAt, shape.value_set_child, valueAt]
          | cons first tail =>
              rw [value_at_set_child, below, pruned]
              by_cases same : label = first
              · subst same
                rw [if_pos rfl, shape.value_at_cons label tail node next found]
                simp only [List.cons.injEq, true_and]
              · rw [if_neg same, if_neg (fun eq => same (List.cons.inj eq).1.symm)]

omit [DecidableEq L] in
theorem prune_result (change : V → V × R) (absent : R)
    (vacant : change (shape.value shape.empty) = (shape.value shape.empty, absent)) (path : List L) (node : N) :
    (shape.prune change absent path node).2 = (change (shape.valueAt path node)).2 := by
  induction path generalizing node with
  | nil => rfl
  | cons label path ih =>
      cases found : shape.child label node with
      | none =>
          rw [shape.prune_missing change absent label path node found,
            shape.value_at_missing label path node found, vacant]
      | some next =>
          rw [shape.prune_child change absent label path node next found,
            shape.value_at_cons label path node next found, ih next]

end TreeShape
