import Mathlib.Data.Finset.Max
import Mathlib.Logic.Hydra

set_option autoImplicit false

/- Threads over one shared state that guard its parts with read-write locks, in any
   interleaving of their atomic accesses. The rules for one thread speak of nothing but
   its own program, what each lock guards and what every thread promises; from them
   follows what holds of the whole pool. -/
namespace LockThreads

inductive Mode where
  | read
  | write
deriving DecidableEq, Repr

-- What a thread has still to do. What comes after an access may depend on the state it met.
inductive Prog (σ ι : Type) where
  | done
  | acquire (lock : ι) (mode : Mode) (next : Prog σ ι)
  | release (lock : ι) (next : Prog σ ι)
  | act (change : σ → σ) (next : σ → Prog σ ι)

variable {σ ι : Type}

def Prog.alone : Prog σ ι → σ → σ
  | .done, state => state
  | .acquire _ _ next, state => next.alone state
  | .release _ next, state => next.alone state
  | .act change next, state => (next state).alone (change state)

structure Thread (σ ι : Type) where
  held : List (ι × Mode)
  prog : Prog σ ι

structure Pool (σ ι : Type) where
  shared : σ
  threads : List (Thread σ ι)

def Pool.start (shared : σ) (programs : List (Prog σ ι)) : Pool σ ι := ⟨shared, programs.map fun prog => ⟨[], prog⟩⟩

def Pool.put (self : Pool σ ι) (i : Nat) (thread : Thread σ ι) : Pool σ ι :=
  { self with threads := self.threads.set i thread }

def without [DecidableEq ι] (held : List (ι × Mode)) (lock : ι) : List (ι × Mode) := held.filter fun entry => entry.1 ≠ lock

-- Readers share a lock; a writer has it alone.
def Pool.Free (self : Pool σ ι) (lock : ι) (mode : Mode) : Prop :=
  ∀ thread ∈ self.threads, ∀ entry ∈ thread.held, entry.1 = lock → mode = .read ∧ entry.2 = .read

instance [DecidableEq ι] (pool : Pool σ ι) (lock : ι) (mode : Mode) : Decidable (pool.Free lock mode) :=
  inferInstanceAs (Decidable (∀ _ ∈ _, ∀ _ ∈ _, _))

def Pool.step [DecidableEq ι] (self : Pool σ ι) (i : Nat) : Option (Pool σ ι) :=
  match self.threads[i]? with
  | none => none
  | some thread =>
      match thread.prog with
      | .done => none
      | .acquire lock mode next =>
          if self.Free lock mode then some (self.put i ⟨(lock, mode) :: thread.held, next⟩) else none
      | .release lock next => some (self.put i ⟨without thread.held lock, next⟩)
      | .act change next => some ({ self with shared := change self.shared }.put i ⟨thread.held, next self.shared⟩)

def Pool.Next [DecidableEq ι] (self after : Pool σ ι) : Prop := ∃ i, self.step i = some after

-- Whatever the scheduler picks.
def Pool.Reaches [DecidableEq ι] : Pool σ ι → Pool σ ι → Prop := Relation.ReflTransGen Pool.Next

-- The threads as a schedule picks them, but for those that cannot go on.
def Pool.scheduled [DecidableEq ι] (self : Pool σ ι) (schedule : List Nat) : Pool σ ι :=
  schedule.foldl (fun pool i => (pool.step i).getD pool) self

theorem scheduled_reaches [DecidableEq ι] (pool : Pool σ ι) (schedule : List Nat) : pool.Reaches (pool.scheduled schedule) := by
  induction schedule generalizing pool with
  | nil => exact .refl
  | cons i rest ih =>
      have unfolds : pool.scheduled (i :: rest) = ((pool.step i).getD pool).scheduled rest := rfl
      rw [unfolds]
      cases stepped : pool.step i with
      | none => exact ih pool
      | some after => exact .head ⟨i, stepped⟩ (ih after)

theorem scheduled_next [DecidableEq ι] (pool : Pool σ ι) (schedule : List Nat) (i : Nat)
    (goes : ((pool.scheduled schedule).step i).isSome = true) :
    (pool.scheduled schedule).Next (pool.scheduled (schedule ++ [i])) := by
  obtain ⟨after, stepped⟩ := Option.isSome_iff_exists.mp goes
  refine ⟨i, ?_⟩
  rw [Pool.scheduled, Pool.scheduled, List.foldl_append, List.foldl_cons, List.foldl_nil, ← Pool.scheduled, stepped,
    Option.getD_some]

def Pool.Finished (self : Pool σ ι) : Prop := ∀ thread ∈ self.threads, thread.prog = .done

inductive Access [DecidableEq ι] (pool : Pool σ ι) (i : Nat) (held : List (ι × Mode)) (after : Pool σ ι) :
    Prog σ ι → Prop where
  | acquire (lock : ι) (mode : Mode) (next : Prog σ ι) (free : pool.Free lock mode)
      (same : after = pool.put i ⟨(lock, mode) :: held, next⟩) : Access pool i held after (.acquire lock mode next)
  | release (lock : ι) (next : Prog σ ι) (same : after = pool.put i ⟨without held lock, next⟩) :
      Access pool i held after (.release lock next)
  | act (change : σ → σ) (next : σ → Prog σ ι)
      (same : after = { pool with shared := change pool.shared }.put i ⟨held, next pool.shared⟩) :
      Access pool i held after (.act change next)

theorem step_access [DecidableEq ι] (pool after : Pool σ ι) (i : Nat) (stepped : pool.step i = some after) :
    ∃ thread, pool.threads[i]? = some thread ∧ Access pool i thread.held after thread.prog := by
  unfold Pool.step at stepped
  cases found : pool.threads[i]? with
  | none =>
      rw [found] at stepped
      cases stepped
  | some thread =>
      rw [found] at stepped
      refine ⟨thread, rfl, ?_⟩
      obtain ⟨held, prog⟩ := thread
      cases prog with
      | done => cases stepped
      | acquire lock mode next =>
          dsimp only at stepped
          split at stepped
          · cases stepped
            exact .acquire lock mode next ‹_› rfl
          · cases stepped
      | release lock next =>
          cases stepped
          exact .release lock next rfl
      | act change next =>
          cases stepped
          exact .act change next rfl

theorem put_threads (pool : Pool σ ι) (i : Nat) (fresh old : Thread σ ι) (here : pool.threads[i]? = some old) (j : Nat)
    (thread : Thread σ ι) (found : (pool.put i fresh).threads[j]? = some thread) :
    (j = i ∧ thread = fresh) ∨ (j ≠ i ∧ pool.threads[j]? = some thread) := by
  rw [Pool.put, List.getElem?_set] at found
  by_cases same : i = j
  · obtain ⟨inside, _⟩ := List.getElem?_eq_some_iff.mp here
    rw [if_pos same, if_pos inside] at found
    exact .inl ⟨same.symm, (Option.some.inj found).symm⟩
  · rw [if_neg same] at found
    exact .inr ⟨fun eq => same eq.symm, found⟩

section Termination

inductive Prog.Goes : Prog σ ι → Prog σ ι → Prop where
  | acquire (lock : ι) (mode : Mode) (next : Prog σ ι) : Goes next (.acquire lock mode next)
  | release (lock : ι) (next : Prog σ ι) : Goes next (.release lock next)
  | act (change : σ → σ) (next : σ → Prog σ ι) (state : σ) : Goes (next state) (.act change next)

theorem goes_well_founded : WellFounded (Prog.Goes : Prog σ ι → Prog σ ι → Prop) := by
  refine ⟨fun prog => ?_⟩
  induction prog with
  | done => exact ⟨_, fun later goes => by cases goes⟩
  | acquire lock mode next ih =>
      refine ⟨_, fun later goes => ?_⟩
      cases goes
      exact ih
  | release lock next ih =>
      refine ⟨_, fun later goes => ?_⟩
      cases goes
      exact ih
  | act change next ih =>
      refine ⟨_, fun later goes => ?_⟩
      cases goes
      exact ih _

def Pool.programs (self : Pool σ ι) : Multiset (Prog σ ι) := ↑(self.threads.map Thread.prog)

theorem put_expands (pool : Pool σ ι) (i : Nat) (old fresh : Thread σ ι) (here : pool.threads[i]? = some old)
    (goes : Prog.Goes fresh.prog old.prog) : Relation.CutExpand Prog.Goes (pool.put i fresh).programs pool.programs := by
  obtain ⟨inside, rfl⟩ := List.getElem?_eq_some_iff.mp here
  refine ⟨{fresh.prog}, (pool.threads[i]).prog, fun later single => ?_, ?_⟩
  · rw [Multiset.mem_singleton.mp single]
    exact goes
  · have split : pool.threads = pool.threads.take i ++ pool.threads[i] :: pool.threads.drop (i + 1) := by
      rw [List.getElem_cons_drop, List.take_append_drop]
    rw [Pool.programs, Pool.programs, Pool.put, List.set_eq_take_append_cons_drop, if_pos inside]
    conv_rhs => rw [split]
    simp only [List.map_append, List.map_cons, ← Multiset.coe_add, ← Multiset.cons_coe, ← Multiset.singleton_add]
    ac_rfl

theorem next_well_founded [DecidableEq ι] : WellFounded fun after pool : Pool σ ι => pool.Next after := by
  refine Subrelation.wf ?_ (InvImage.wf Pool.programs (WellFounded.cutExpand goes_well_founded))
  intro after pool next
  obtain ⟨i, stepped⟩ := next
  obtain ⟨⟨held, prog⟩, here, access⟩ := step_access pool after i stepped
  cases access with
  | acquire lock mode next free same =>
      rw [same]
      exact put_expands pool i ⟨held, _⟩ _ here (.acquire lock mode next)
  | release lock next same =>
      rw [same]
      exact put_expands pool i ⟨held, _⟩ _ here (.release lock next)
  | act change next same =>
      rw [same]
      exact put_expands pool i ⟨held, _⟩ _ here (.act change next pool.shared)

theorem no_endless_run [DecidableEq ι] (run : Nat → Pool σ ι) : ¬∀ n, (run n).Next (run (n + 1)) := by
  intro goesOn
  have reachable := next_well_founded.apply (run 0)
  generalize start : run 0 = pool at reachable
  induction reachable generalizing run with
  | intro pool _ ih => exact ih (run 1) (start ▸ goesOn 0) (fun n => run (n + 1)) (fun n => goesOn (n + 1)) rfl

end Termination

-- What the threads agree on. The locks are ranked, Guarded says that what a lock guards is as it
-- was, and Promise is what every access keeps to.
structure Discipline (σ ι : Type) where
  rank : ι → Nat
  Guarded : ι → σ → σ → Prop
  Promise : σ → σ → Prop
  idle : ∀ state, Promise state state

section Rules

variable [DecidableEq ι] (rules : Discipline σ ι)

def Discipline.Stable (held : List (ι × Mode)) (known : σ → Prop) : Prop :=
  ∀ state after, rules.Promise state after → (∀ entry ∈ held, rules.Guarded entry.1 state after) → known state → known after

-- The program keeps to the rules from a state of which this is known, with these locks held: it
-- takes locks in the order of their rank and gives all of them back.
def Discipline.Verified : Prog σ ι → List (ι × Mode) → (σ → Prop) → Prop
  | .done, held, _ => held = []
  | .acquire lock mode next, held, known =>
      (∀ entry ∈ held, rules.rank entry.1 < rules.rank lock) ∧ Discipline.Verified next ((lock, mode) :: held) known
  | .release lock next, held, known =>
      ∃ left : σ → Prop, rules.Stable (without held lock) left ∧ (∀ state, known state → left state) ∧
        Discipline.Verified next (without held lock) left
  | .act change next, held, known =>
      ∀ state, known state → rules.Promise state (change state) ∧
        (∀ lock, rules.Guarded lock state (change state) ∨ (lock, .write) ∈ held) ∧
        ∃ learnt : σ → Prop, rules.Stable held learnt ∧ learnt (change state) ∧
          Discipline.Verified (next state) held learnt

omit [DecidableEq ι] in
theorem stable_more (held more : List (ι × Mode)) (within : ∀ entry ∈ held, entry ∈ more) (known : σ → Prop)
    (stable : rules.Stable held known) : rules.Stable more known :=
  fun state after promise guarded => stable state after promise fun entry member => guarded entry (within entry member)

theorem act_verified (held : List (ι × Mode)) (known : σ → Prop) (stable : rules.Stable held known) (change : σ → σ)
    (next : σ → Prog σ ι)
    (access : ∀ state, known state → rules.Promise state (change state) ∧
      (∀ lock, rules.Guarded lock state (change state) ∨ (lock, .write) ∈ held) ∧ known (change state))
    (later : ∀ state, known state → rules.Verified (next state) held known) : rules.Verified (.act change next) held known :=
  fun state given => ⟨(access state given).1, (access state given).2.1, known, stable, (access state given).2.2,
    later state given⟩

theorem without_taken (held : List (ι × Mode)) (lock : ι) (mode : Mode)
    (below : ∀ entry ∈ held, rules.rank entry.1 < rules.rank lock) : without ((lock, mode) :: held) lock = held := by
  rw [without, List.filter_cons_of_neg (by simp)]
  refine List.filter_eq_self.mpr fun entry member => decide_eq_true fun same => ?_
  have lower := below entry member
  rw [same] at lower
  exact absurd lower (lt_irrefl _)

theorem release_verified (held : List (ι × Mode)) (lock : ι) (mode : Mode)
    (below : ∀ entry ∈ held, rules.rank entry.1 < rules.rank lock) (known left : σ → Prop)
    (stable : rules.Stable held left) (keeps : ∀ state, known state → left state) (next : Prog σ ι)
    (later : rules.Verified next held left) : rules.Verified (.release lock next) ((lock, mode) :: held) known := by
  rw [Discipline.Verified, without_taken rules held lock mode below]
  exact ⟨left, stable, keeps, later⟩

structure Discipline.Sound (pool : Pool σ ι) : Prop where
  apart : ∀ (i j : Nat) first second, pool.threads[i]? = some first → pool.threads[j]? = some second → i ≠ j →
    ∀ entry ∈ first.held, ∀ other ∈ second.held, entry.1 = other.1 → entry.2 = .read ∧ other.2 = .read
  verified : ∀ (i : Nat) thread, pool.threads[i]? = some thread → ∃ known, rules.Stable thread.held known ∧
    known pool.shared ∧ rules.Verified thread.prog thread.held known

theorem sound_put (pool : Pool σ ι) (sound : rules.Sound pool) (shared : σ) (i : Nat) (old fresh : Thread σ ι)
    (here : pool.threads[i]? = some old)
    (apart : ∀ (j : Nat) other, pool.threads[j]? = some other → j ≠ i →
      ∀ entry ∈ fresh.held, ∀ theirs ∈ other.held, entry.1 = theirs.1 → entry.2 = .read ∧ theirs.2 = .read)
    (verified : ∃ known, rules.Stable fresh.held known ∧ known shared ∧ rules.Verified fresh.prog fresh.held known)
    (others : ∀ (j : Nat) other, pool.threads[j]? = some other → j ≠ i → ∀ known : σ → Prop,
      rules.Stable other.held known → known pool.shared → known shared) :
    rules.Sound ({ pool with shared }.put i fresh) := by
  have threads := put_threads { pool with shared } i fresh old here
  refine ⟨fun j k first second foundFirst foundSecond different => ?_, fun j thread found => ?_⟩
  · rcases threads j first foundFirst with ⟨atFirst, rfl⟩ | ⟨offFirst, oldFirst⟩
    · rcases threads k second foundSecond with ⟨atSecond, _⟩ | ⟨offSecond, oldSecond⟩
      · exact absurd (atFirst.trans atSecond.symm) different
      · exact apart k second oldSecond offSecond
    · rcases threads k second foundSecond with ⟨_, rfl⟩ | ⟨_, oldSecond⟩
      · intro entry member theirs other same
        exact (apart j first oldFirst offFirst theirs other entry member same.symm).symm
      · exact sound.apart j k first second oldFirst oldSecond different
  · rcases threads j thread found with ⟨_, rfl⟩ | ⟨off, oldThread⟩
    · exact verified
    · obtain ⟨known, stable, holds, proved⟩ := sound.verified j thread oldThread
      exact ⟨known, stable, others j thread oldThread off known stable holds, proved⟩

theorem mem_without (held : List (ι × Mode)) (lock : ι) : ∀ entry ∈ without held lock, entry ∈ held :=
  fun _ member => (List.mem_filter.mp member).1

theorem step_sound (pool after : Pool σ ι) (i : Nat) (sound : rules.Sound pool) (stepped : pool.step i = some after) :
    rules.Sound after ∧ rules.Promise pool.shared after.shared := by
  obtain ⟨⟨held, prog⟩, here, access⟩ := step_access pool after i stepped
  obtain ⟨known, stable, holds, verified⟩ := sound.verified i _ here
  have apart := fun (j : Nat) other (found : pool.threads[j]? = some other) (off : j ≠ i) =>
    sound.apart i j _ other here found fun same => off same.symm
  cases access with
  | acquire lock mode next free same =>
      rw [same]
      refine ⟨sound_put rules pool sound pool.shared i _ ⟨(lock, mode) :: held, next⟩ here ?_
        ⟨known, stable_more rules held _ (fun entry => List.mem_cons_of_mem _) known stable, holds, verified.2⟩
        fun _ _ _ _ _ _ given => given, rules.idle _⟩
      intro j other found off entry member theirs owned sameLock
      rcases List.mem_cons.mp member with new | earlier
      · rw [new] at sameLock ⊢
        exact free other (List.mem_of_getElem? found) theirs owned sameLock.symm
      · exact apart j other found off entry earlier theirs owned sameLock
  | release lock next same =>
      rw [same]
      obtain ⟨left, stableLeft, keeps, later⟩ := verified
      refine ⟨sound_put rules pool sound pool.shared i _ ⟨without held lock, next⟩ here ?_
        ⟨left, stableLeft, keeps _ holds, later⟩ fun _ _ _ _ _ _ given => given, rules.idle _⟩
      exact fun j other found off entry member => apart j other found off entry (mem_without held lock entry member)
  | act change next same =>
      rw [same]
      obtain ⟨promise, guarded, learnt, stableLearnt, learns, later⟩ := verified pool.shared holds
      refine ⟨sound_put rules pool sound (change pool.shared) i _ ⟨held, next pool.shared⟩ here apart
        ⟨learnt, stableLearnt, learns, later⟩ ?_, promise⟩
      -- What another thread has locked, this one does not hold for writing.
      intro j other found off theirKnown theirStable given
      refine theirStable pool.shared _ promise (fun entry member => ?_) given
      rcases guarded entry.1 with untouched | writes
      · exact untouched
      · have both := apart j other found off _ writes entry member rfl
        cases both.1

theorem reaches_sound (pool after : Pool σ ι) (sound : rules.Sound pool) (reaches : pool.Reaches after) :
    rules.Sound after := by
  induction reaches with
  | refl => exact sound
  | tail _ next ih =>
      obtain ⟨i, stepped⟩ := next
      exact (step_sound rules _ _ i ih stepped).1

theorem start_sound (shared : σ) (programs : List (Prog σ ι))
    (verified : ∀ prog ∈ programs, rules.Verified prog [] fun _ => True) : rules.Sound (Pool.start shared programs) := by
  have fresh : ∀ (i : Nat) thread, (Pool.start shared programs).threads[i]? = some thread →
      thread.held = [] ∧ thread.prog ∈ programs := by
    intro i thread found
    obtain ⟨prog, member, rfl⟩ := List.mem_map.mp (List.mem_of_getElem? found)
    exact ⟨rfl, member⟩
  refine ⟨fun i j first second foundFirst _ _ entry member => ?_, fun i thread found => ?_⟩
  · rw [(fresh i first foundFirst).1] at member
    cases member
  · obtain ⟨nothing, member⟩ := fresh i thread found
    rw [nothing]
    exact ⟨fun _ => True, fun _ _ _ _ _ => trivial, trivial, verified _ member⟩

-- The thread can go on even where readers have to let a waiting writer go first.
def Pool.Ready (self : Pool σ ι) (i : Nat) : Prop :=
  (self.step i).isSome = true ∧
    ∀ thread lock next, self.threads[i]? = some thread → thread.prog = .acquire lock .read next →
      ∀ other ∈ self.threads, ∀ later, other.prog ≠ .acquire lock .write later

theorem blocked (pool : Pool σ ι) (i : Nat) (thread : Thread σ ι) (here : pool.threads[i]? = some thread)
    (stuck : pool.step i = none) :
    thread.prog = .done ∨ ∃ lock mode next, thread.prog = .acquire lock mode next ∧ ¬pool.Free lock mode := by
  obtain ⟨held, prog⟩ := thread
  unfold Pool.step at stuck
  rw [here] at stuck
  cases prog with
  | done => exact .inl rfl
  | acquire lock mode next =>
      dsimp only at stuck
      split at stuck
      · cases stuck
      · exact .inr ⟨lock, mode, next, rfl, ‹_›⟩
  | release lock next => cases stuck
  | act change next => cases stuck

theorem waits_for_holder (pool : Pool σ ι) (nobody : ∀ i, ¬pool.Ready i) (i : Nat) (thread : Thread σ ι)
    (here : pool.threads[i]? = some thread) (unfinished : thread.prog ≠ .done) :
    ∃ lock mode next, thread.prog = .acquire lock mode next ∧
      ∃ other ∈ pool.threads, ∃ entry ∈ other.held, entry.1 = lock := by
  have holder : ∀ lock mode, ¬pool.Free lock mode → ∃ other ∈ pool.threads, ∃ entry ∈ other.held, entry.1 = lock := by
    intro lock mode taken
    simp only [Pool.Free, not_forall] at taken
    obtain ⟨other, member, entry, held, same, _⟩ := taken
    exact ⟨other, member, entry, held, same⟩
  cases stepped : pool.step i with
  | none =>
      rcases blocked pool i thread here stepped with finished | ⟨lock, mode, next, wants, taken⟩
      · exact absurd finished unfinished
      · exact ⟨lock, mode, next, wants, holder lock mode taken⟩
  | some after =>
      -- It could go on, so it is a reader that lets a writer go first, and the writer is stuck.
      have yields : ∃ lock next, thread.prog = .acquire lock .read next ∧
          ∃ other ∈ pool.threads, ∃ later, other.prog = .acquire lock .write later := by
        by_contra never
        refine nobody i ⟨by rw [stepped]; rfl, fun found lock next foundHere wants other member later writes => never ?_⟩
        rw [here] at foundHere
        cases foundHere
        exact ⟨lock, next, wants, other, member, later, writes⟩
      obtain ⟨lock, next, wants, other, member, later, writes⟩ := yields
      refine ⟨lock, .read, next, wants, ?_⟩
      obtain ⟨j, there⟩ := List.mem_iff_getElem?.mp member
      have stuck : pool.step j = none := by
        by_contra goes
        refine nobody j ⟨Option.isSome_iff_ne_none.mpr goes, fun found lock next foundThere reads => ?_⟩
        rw [there] at foundThere
        cases foundThere
        rw [writes] at reads
        cases reads
      rcases blocked pool j other there stuck with finished | ⟨lock', mode, next', wants', taken⟩
      · rw [finished] at writes
        cases writes
      · rw [writes] at wants'
        cases wants'
        exact holder lock .write taken

-- Otherwise each thread that waits waits for one that waits for a lock of a higher rank.
theorem some_ready (pool : Pool σ ι) (sound : rules.Sound pool) (unfinished : ¬pool.Finished) : ∃ i, pool.Ready i := by
  by_contra stuck
  have nobody : ∀ i, ¬pool.Ready i := fun i ready => stuck ⟨i, ready⟩
  have climbs : ∀ n, ∃ thread ∈ pool.threads, ∃ lock mode next, thread.prog = .acquire lock mode next ∧
      n ≤ rules.rank lock := by
    intro n
    induction n with
    | zero =>
        simp only [Pool.Finished, not_forall] at unfinished
        obtain ⟨thread, member, busy⟩ := unfinished
        obtain ⟨i, here⟩ := List.mem_iff_getElem?.mp member
        obtain ⟨lock, mode, next, wants, _⟩ := waits_for_holder pool nobody i thread here busy
        exact ⟨thread, member, lock, mode, next, wants, Nat.zero_le _⟩
    | succ n ih =>
        obtain ⟨thread, member, lock, mode, next, wants, high⟩ := ih
        obtain ⟨i, here⟩ := List.mem_iff_getElem?.mp member
        have busy : thread.prog ≠ .done := fun finished => by
          rw [wants] at finished
          cases finished
        obtain ⟨lock', mode', next', wants', other, memberOther, entry, held, same⟩ :=
          waits_for_holder pool nobody i thread here busy
        rw [wants] at wants'
        cases wants'
        obtain ⟨j, there⟩ := List.mem_iff_getElem?.mp memberOther
        obtain ⟨known, _, _, verified⟩ := sound.verified j other there
        have busyOther : other.prog ≠ .done := fun finished => by
          rw [finished] at verified
          have nothing : other.held = [] := verified
          rw [nothing] at held
          cases held
        obtain ⟨higher, modeHigher, nextHigher, wantsHigher, _⟩ := waits_for_holder pool nobody j other there busyOther
        rw [wantsHigher] at verified
        exact ⟨other, memberOther, higher, modeHigher, nextHigher, wantsHigher,
          lt_of_le_of_lt high (same ▸ verified.1 entry held)⟩
  -- But there are finitely many threads.
  let wanted : Thread σ ι → Nat := fun thread =>
    match thread.prog with
    | .acquire lock _ _ => rules.rank lock
    | _ => 0
  obtain ⟨thread, member, lock, mode, next, wants, high⟩ := climbs ((pool.threads.map wanted).sum + 1)
  have bound : wanted thread ≤ (pool.threads.map wanted).sum :=
    List.le_sum_of_mem (List.mem_map.mpr ⟨thread, member, rfl⟩)
  have reads : wanted thread = rules.rank lock := by simp only [wanted, wants]
  omega

theorem completes (pool : Pool σ ι) (sound : rules.Sound pool) : ∃ final, pool.Reaches final ∧ final.Finished := by
  have reachable := next_well_founded.apply pool
  induction reachable with
  | intro pool _ ih =>
      by_cases finished : pool.Finished
      · exact ⟨pool, .refl, finished⟩
      · obtain ⟨i, moves, _⟩ := some_ready rules pool sound finished
        obtain ⟨after, stepped⟩ := Option.isSome_iff_exists.mp moves
        obtain ⟨final, reaches, ends⟩ := ih after ⟨i, stepped⟩ (step_sound rules pool after i sound stepped).1
        exact ⟨final, .head ⟨i, stepped⟩ reaches, ends⟩

theorem alone_reached (prog : Prog σ ι) (held : List (ι × Mode)) (known : σ → Prop) (shared : σ)
    (verified : rules.Verified prog held known) (holds : known shared) :
    Pool.Reaches ⟨shared, [⟨held, prog⟩]⟩ ⟨prog.alone shared, [⟨[], .done⟩]⟩ := by
  induction prog generalizing held known shared with
  | done =>
      have nothing : held = [] := verified
      rw [nothing]
      exact .refl
  | acquire lock mode next ih =>
      refine .head ⟨0, ?_⟩ (ih ((lock, mode) :: held) known shared verified.2 holds)
      refine if_pos fun thread member entry owned same => ?_
      rw [List.mem_singleton.mp member] at owned
      have lower := verified.1 entry owned
      rw [same] at lower
      exact absurd lower (lt_irrefl _)
  | release lock next ih =>
      obtain ⟨left, _, keeps, later⟩ := verified
      exact .head ⟨0, rfl⟩ (ih (without held lock) left shared later (keeps shared holds))
  | act change next ih =>
      obtain ⟨_, _, learnt, _, learns, later⟩ := verified shared holds
      exact .head ⟨0, rfl⟩ (ih shared held learnt (change shared) later learns)

end Rules

end LockThreads
