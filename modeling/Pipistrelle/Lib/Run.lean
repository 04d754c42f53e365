import Mathlib.Data.List.Basic

set_option autoImplicit false

/- Runs of a machine that takes one event at a time: what holds in every state that
   a run passes through, and what holds of every step it takes. -/
namespace Run

variable {σ ε : Type} (step : σ → ε → σ)

-- In every state of the run, the first and the last included.
def Always (property : σ → Prop) (state : σ) : List ε → Prop
  | [] => property state
  | event :: rest => property state ∧ Always property (step state event) rest

-- Of every event, in the state in which it happens.
def Throughout (property : σ → ε → Prop) (state : σ) : List ε → Prop
  | [] => True
  | event :: rest => property state event ∧ Throughout property (step state event) rest

instance Throughout.decidable (property : σ → ε → Prop) [∀ state event, Decidable (property state event)] :
    ∀ (state : σ) (events : List ε), Decidable (Throughout step property state events)
  | _, [] => isTrue trivial
  | state, event :: rest =>
      have := Throughout.decidable property (step state event) rest
      inferInstanceAs (Decidable (property state event ∧ Throughout step property (step state event) rest))

theorem always_start (property : σ → Prop) (state : σ) (events : List ε)
    (always : Always step property state events) : property state := by
  cases events with
  | nil => exact always
  | cons event rest => exact always.1

theorem always_append (property : σ → Prop) (state : σ) (events more : List ε) :
    Always step property state (events ++ more) ↔
      Always step property state events ∧ Always step property (events.foldl step state) more := by
  induction events generalizing state with
  | nil =>
      refine ⟨fun always => ⟨always_start step property state more always, always⟩, And.right⟩
  | cons event rest ih => exact (and_congr_right fun _ => ih _).trans and_assoc.symm

theorem always_iff_prefixes (property : σ → Prop) (state : σ) (events : List ε) :
    Always step property state events ↔ ∀ n, property ((events.take n).foldl step state) := by
  induction events generalizing state with
  | nil =>
      simp only [List.take_nil, List.foldl_nil, forall_const]
      exact Iff.rfl
  | cons event rest ih =>
      constructor
      · intro ⟨here, later⟩ n
        cases n with
        | zero => exact here
        | succ n => exact (ih _).mp later n
      · intro every
        exact ⟨every 0, (ih _).mpr fun n => every (n + 1)⟩

theorem always_iff_throughout (property : σ → Prop) (good : σ → ε → Prop)
    (exactly : ∀ state event, property state → (property (step state event) ↔ good state event))
    (state : σ) (events : List ε) (start : property state) :
    Always step property state events ↔ Throughout step good state events := by
  induction events generalizing state with
  | nil => exact iff_of_true start trivial
  | cons event rest ih =>
      constructor
      · intro ⟨_, later⟩
        have next := always_start step property _ rest later
        exact ⟨(exactly state event start).mp next, (ih _ next).mp later⟩
      · intro ⟨here, later⟩
        have next := (exactly state event start).mpr here
        exact ⟨start, (ih _ next).mpr later⟩

theorem always_iff_throughout_under (invariant property : σ → Prop) (good : σ → ε → Prop)
    (keeps : ∀ state event, invariant state → invariant (step state event))
    (exactly : ∀ state event, invariant state → property state → (property (step state event) ↔ good state event))
    (state : σ) (events : List ε) (start : invariant state) (holds : property state) :
    Always step property state events ↔ Throughout step good state events := by
  induction events generalizing state with
  | nil => exact iff_of_true holds trivial
  | cons event rest ih =>
      constructor
      · intro ⟨_, later⟩
        have next := always_start step property _ rest later
        exact ⟨(exactly state event start holds).mp next, (ih _ (keeps state event start) next).mp later⟩
      · intro ⟨here, later⟩
        have next := (exactly state event start holds).mpr here
        exact ⟨holds, (ih _ (keeps state event start) next).mpr later⟩

theorem throughout_of_invariant (invariant : σ → Prop) (good shown : σ → ε → Prop)
    (keeps : ∀ state event, invariant state → good state event → invariant (step state event))
    (shows : ∀ state event, invariant state → good state event → shown state event)
    (state : σ) (events : List ε) (start : invariant state) (goods : Throughout step good state events) :
    Throughout step shown state events := by
  induction events generalizing state with
  | nil => trivial
  | cons event rest ih =>
      obtain ⟨here, later⟩ := goods
      exact ⟨shows state event start here, ih _ (keeps state event start here) later⟩

theorem throughout_of_kept (invariant : σ → Prop) (shown : σ → ε → Prop)
    (keeps : ∀ state event, invariant state → invariant (step state event))
    (shows : ∀ state event, invariant state → shown state event) (state : σ) (events : List ε) (start : invariant state) :
    Throughout step shown state events := by
  induction events generalizing state with
  | nil => trivial
  | cons event rest ih => exact ⟨shows state event start, ih _ (keeps state event start)⟩

theorem throughout_iff_splits (property : σ → ε → Prop) (state : σ) (events : List ε) :
    Throughout step property state events ↔
      ∀ before event after, events = before ++ event :: after → property (before.foldl step state) event := by
  induction events generalizing state with
  | nil => exact iff_of_true trivial fun before event after split => by simp at split
  | cons first rest ih =>
      constructor
      · intro ⟨here, later⟩ before event after split
        cases before with
        | nil =>
            cases split
            exact here
        | cons head tail =>
            cases split
            exact (ih _).mp later tail event after rfl
      · intro every
        refine ⟨every [] first rest rfl, (ih _).mpr ?_⟩
        intro before event after split
        exact every (first :: before) event after (by rw [split]; rfl)

theorem throughout_congr_within (allowed : ε → Prop) (invariant : σ → Prop) (first second : σ → ε → Prop)
    (keeps : ∀ state event, allowed event → invariant state → invariant (step state event))
    (same : ∀ state event, allowed event → invariant state → (first state event ↔ second state event))
    (state : σ) (events : List ε) (all : ∀ event ∈ events, allowed event) (start : invariant state) :
    Throughout step first state events ↔ Throughout step second state events := by
  induction events generalizing state with
  | nil => exact Iff.rfl
  | cons event rest ih =>
      obtain ⟨here, later⟩ := List.forall_mem_cons.mp all
      exact and_congr (same state event here start) (ih _ later (keeps state event here start))

theorem throughout_congr_under (invariant : σ → Prop) (first second : σ → ε → Prop)
    (keeps : ∀ state event, invariant state → invariant (step state event))
    (same : ∀ state event, invariant state → (first state event ↔ second state event))
    (state : σ) (events : List ε) (start : invariant state) :
    Throughout step first state events ↔ Throughout step second state events :=
  throughout_congr_within step (fun _ => True) invariant first second (fun state event _ => keeps state event)
    (fun state event _ => same state event) state events (fun _ _ => trivial) start

theorem throughout_congr (first second : σ → ε → Prop) (same : ∀ state event, first state event ↔ second state event)
    (state : σ) (events : List ε) : Throughout step first state events ↔ Throughout step second state events :=
  throughout_congr_under step (fun _ => True) first second (fun _ _ _ => trivial) (fun state event _ => same state event)
    state events trivial

def outputs {ω : Type} (out : σ → ε → List ω) (state : σ) : List ε → List ω
  | [] => []
  | event :: rest => out state event ++ outputs out (step state event) rest

theorem outputs_map {ω ω' : Type} (out : σ → ε → List ω) (change : ω → ω') (state : σ) (events : List ε) :
    outputs step (fun state event => (out state event).map change) state events =
      (outputs step out state events).map change := by
  induction events generalizing state with
  | nil => rfl
  | cons event rest ih => rw [outputs, outputs, List.map_append, ih]

theorem throughout_last (property : σ → ε → Prop) (state : σ) (events : List ε) (last : ε)
    (throughout : Throughout step property state (events ++ [last])) : property (events.foldl step state) last := by
  induction events generalizing state with
  | nil => exact throughout.1
  | cons event rest ih => exact ih _ throughout.2

end Run
