import Pipistrelle.Lib.PathTree

set_option autoImplicit false

/- Trees of which every node is in order. What a node has to satisfy may depend on
   the label under which it stands, which a root does not have; planting and pruning
   keep it as soon as each of their single changes to a node does. -/
universe u

namespace TreeShape

variable {N L V R : Type u} (shape : TreeShape N L V)

def nodeAt : List L → N → Option N
  | [], node => some node
  | label :: path, node => (shape.child label node).bind (nodeAt path)

inductive Tidy (ok : Option L → N → Prop) : Option L → N → Prop
  | node (label : Option L) (node : N) (here : ok label node)
      (below : ∀ next child, shape.child next node = some child → Tidy ok (some next) child) : Tidy ok label node

def Walk (allowed : Option L → L → Prop) : Option L → List L → Prop
  | _, [] => True
  | label, next :: path => allowed label next ∧ Walk allowed (some next) path

variable {shape} {ok : Option L → N → Prop}

theorem tidy_here {label : Option L} {node : N} (tidy : shape.Tidy ok label node) : ok label node := by
  cases tidy with
  | node label node here below => exact here

theorem tidy_child {label : Option L} {node child : N} (next : L) (tidy : shape.Tidy ok label node)
    (found : shape.child next node = some child) : shape.Tidy ok (some next) child := by
  cases tidy with
  | node label node here below => exact below next child found

theorem tidy_node_at (path : List L) (label : Option L) (node found : N) (tidy : shape.Tidy ok label node)
    (reached : shape.nodeAt path node = some found) : shape.Tidy ok (path.getLast?.or label) found := by
  induction path generalizing label node with
  | nil =>
      cases reached
      exact tidy
  | cons next path ih =>
      obtain ⟨child, present, reached⟩ := Option.bind_eq_some_iff.mp reached
      have last := ih (some next) child (tidy_child next tidy present) reached
      rw [List.getLast?_cons]
      cases below : path.getLast? with
      | none => simpa [below] using last
      | some other => simpa [below] using last

theorem tidy_live (live : N → Prop)
    (occupied : ∀ label node, ok (some label) node → live node ∨ ∃ next child, shape.child next node = some child)
    (label : Option L) (node : N) (tidy : shape.Tidy ok label node) (labelled : label ≠ none) :
    ∃ path found, shape.nodeAt path node = some found ∧ live found := by
  induction tidy with
  | node label node here below ih =>
      obtain ⟨under, rfl⟩ := Option.ne_none_iff_exists'.mp labelled
      rcases occupied under node here with alive | ⟨next, child, present⟩
      · exact ⟨[], node, rfl, alive⟩
      · obtain ⟨path, found, reached, alive⟩ := ih next child present (Option.some_ne_none _)
        exact ⟨next :: path, found, by rw [nodeAt, present, Option.bind_some, reached], alive⟩

section Changes

variable [DecidableEq L]

-- New nodes are tidy only when the planting is done: on the way they are empty.
theorem plant_tidy (allowed : Option L → L → Prop) (change : V → V)
    (value : ∀ label node, node = shape.empty ∨ ok label node → ok label (shape.setValue (change (shape.value node)) node))
    (link : ∀ label node next child, allowed label next → node = shape.empty ∨ ok label node →
      ok label (shape.setChild next (some child) node))
    (path : List L) (label : Option L) (node : N) (walk : Walk allowed label path)
    (start : node = shape.empty ∨ shape.Tidy ok label node) : shape.Tidy ok label (shape.plant change path node) := by
  have here : node = shape.empty ∨ ok label node := start.imp_right tidy_here
  have old : ∀ next child, shape.child next node = some child → shape.Tidy ok (some next) child := by
    intro next child present
    rcases start with rfl | tidy
    · rw [shape.child_empty] at present
      cases present
    · exact tidy_child next tidy present
  induction path generalizing label node with
  | nil =>
      refine .node label _ (value label node here) ?_
      intro next child present
      rw [plant, shape.child_set_value] at present
      exact old next child present
  | cons next path ih =>
      obtain ⟨may, walk⟩ := walk
      have planted : shape.Tidy ok (some next) (shape.plant change path ((shape.child next node).getD shape.empty)) := by
        have inner : (shape.child next node).getD shape.empty = shape.empty ∨
            shape.Tidy ok (some next) ((shape.child next node).getD shape.empty) := by
          cases present : shape.child next node with
          | none => exact .inl rfl
          | some child => exact .inr (old next child present)
        refine ih (some next) _ walk inner (inner.imp_right tidy_here) ?_
        intro further child present
        rcases inner with vacant | tidy
        · rw [vacant, shape.child_empty] at present
          cases present
        · exact tidy_child further tidy present
      refine .node label _ (link label node next _ may here) ?_
      intro other child present
      rw [plant] at present
      by_cases same : next = other
      · subst same
        rw [shape.child_set_same] at present
        cases present
        exact planted
      · rw [shape.child_set_other next other _ _ same] at present
        exact old other child present

theorem prune_tidy (change : V → V × R) (absent : R)
    (value : ∀ label node, ok label node → shape.isEmpty (shape.setValue (change (shape.value node)).1 node) = false →
      ok label (shape.setValue (change (shape.value node)).1 node))
    (unlink : ∀ label node next, ok label node → shape.isEmpty (shape.setChild next none node) = false →
      ok label (shape.setChild next none node))
    (relink : ∀ label node next old child, ok label node → shape.child next node = some old →
      ok label (shape.setChild next (some child) node))
    (path : List L) (label : Option L) (node : N) (tidy : shape.Tidy ok label node)
    (left : shape.isEmpty (shape.prune change absent path node).1 = false) :
    shape.Tidy ok label (shape.prune change absent path node).1 := by
  induction path generalizing label node with
  | nil =>
      refine .node label _ (value label node (tidy_here tidy) left) ?_
      intro next child present
      rw [prune, shape.child_set_value] at present
      exact tidy_child next tidy present
  | cons next path ih =>
      cases present : shape.child next node with
      | none =>
          rw [shape.prune_missing change absent next path node present]
          exact tidy
      | some old =>
          have below := ih (some next) old (tidy_child next tidy present)
          rw [shape.prune_child change absent next path node old present] at left ⊢
          generalize (shape.prune change absent path old).1 = pruned at below left ⊢
          dsimp only at left ⊢
          have others : ∀ kept other child, next ≠ other → shape.child other (shape.setChild next kept node) = some child →
              shape.Tidy ok (some other) child := by
            intro kept other child apart found
            rw [shape.child_set_other next other _ _ apart] at found
            exact tidy_child other tidy found
          by_cases gone : shape.isEmpty pruned = true
          · rw [if_pos gone] at left ⊢
            refine .node label _ (unlink label node next (tidy_here tidy) left) ?_
            intro other child found
            by_cases same : next = other
            · subst same
              rw [shape.child_set_same] at found
              cases found
            · exact others none other child same found
          · rw [if_neg gone]
            refine .node label _ (relink label node next old pruned (tidy_here tidy) present) ?_
            intro other child found
            by_cases same : next = other
            · subst same
              rw [shape.child_set_same] at found
              cases found
              exact below (Bool.not_eq_true _ ▸ gone)
            · exact others (some pruned) other child same found

end Changes

end TreeShape
