import Mathlib.Algebra.BigOperators.Group.Finset.Basic
import Mathlib.Data.Finset.Card
import Mathlib.Data.Nat.Basic
import Mathlib.Logic.Function.Basic
import Mathlib.Order.Basic

/-!
Systems whose steps interleave: runs and their traces, invariants, threads that run one program over
shared data, the locks they take and an order of locks that rules out a deadlock.
-/

namespace KernelLake.Library.Interleavings

/-! ## Runs -/

/-- A labelled transition system with its initial states. -/
structure System (State Label : Type) where
  initial : State → Prop
  step : State → Label → State → Prop

section Runs

variable {State Label : Type} {system : System State Label}

/-- A run from an initial state with the labels of its steps, the latest first. -/
inductive Run (system : System State Label) : List Label → State → Prop
  | start {state : State} (initial : system.initial state) : Run system [] state
  | next {trace : List Label} {state state' : State} {label : Label} (run : Run system trace state)
      (step : system.step state label state') : Run system (label :: trace) state'

def Reachable (system : System State Label) (state : State) : Prop :=
  ∃ trace, Run system trace state

/-- What holds at the start and is kept by every step of a run holds at its end. -/
theorem Run.invariant {holds : List Label → State → Prop} {trace : List Label} {state : State}
    (run : Run system trace state) (start : ∀ state, system.initial state → holds [] state)
    (kept : ∀ trace state label state', Run system trace state → holds trace state →
      system.step state label state' → holds (label :: trace) state') : holds trace state := by
  induction run with
  | start initial => exact start _ initial
  | next run step hypothesis => exact kept _ _ _ _ run hypothesis step

/-- A step of a run is taken from a state that the run up to there ends in. -/
theorem Run.split {before after : List Label} {label : Label} {trace : List Label} {state : State}
    (run : Run system trace state) (parts : trace = after ++ label :: before) :
    ∃ left right, Run system before left ∧ system.step left label right := by
  induction run generalizing after with
  | start => simp at parts
  | @next trace state state' last run step hypothesis =>
    cases after with
    | nil =>
      obtain ⟨rfl, rfl⟩ := List.cons.inj parts
      exact ⟨_, _, run, step⟩
    | cons first rest => exact hypothesis (List.cons.inj parts).2

theorem Reachable.invariant {holds : State → Prop} {state : State} (reachable : Reachable system state)
    (start : ∀ state, system.initial state → holds state)
    (kept : ∀ state label state', holds state → system.step state label state' → holds state') :
    holds state := by
  obtain ⟨trace, run⟩ := reachable
  exact @Run.invariant _ _ system (fun _ state => holds state) trace state run start
    (fun _ state label state' _ held step => kept state label state' held step)

theorem Reachable.next {state state' : State} {label : Label} (reachable : Reachable system state)
    (step : system.step state label state') : Reachable system state' := by
  obtain ⟨trace, run⟩ := reachable
  exact ⟨label :: trace, run.next step⟩

end Runs

/-! ## Threads -/

/-- The data that threads share and the phase that each of them is in. -/
structure Threads (Thread Phase Shared : Type) where
  shared : Shared
  phases : Thread → Phase

/-- A program that every thread runs: where an action takes a thread, and what it does to the shared
data. An action that is not possible has no effect at all. -/
structure Program (Thread Phase Action Shared : Type) where
  initial : Shared → Prop
  idle : Phase
  moves : Phase → Action → Phase → Prop
  effect : Thread → Action → Shared → Option Shared

section Programs

variable {Thread Phase Action Shared : Type}

/-- One thread acts and the others stay where they are. -/
structure Step (program : Program Thread Phase Action Shared) (state : Threads Thread Phase Shared)
    (thread : Thread) (action : Action) (state' : Threads Thread Phase Shared) : Prop where
  moved : program.moves (state.phases thread) action (state'.phases thread)
  acted : program.effect thread action state.shared = some state'.shared
  others : ∀ other, other ≠ thread → state'.phases other = state.phases other

/-- Any number of threads running a program, their actions interleaved in any order. -/
def Program.system (program : Program Thread Phase Action Shared) :
    System (Threads Thread Phase Shared) (Thread × Action) where
  initial state := program.initial state.shared ∧ ∀ thread, state.phases thread = program.idle
  step state label state' := Step program state label.1 label.2 state'

theorem step_of_move [DecidableEq Thread] {program : Program Thread Phase Action Shared}
    {state : Threads Thread Phase Shared} {thread : Thread} {action : Action} {phase : Phase}
    {shared : Shared} (moved : program.moves (state.phases thread) action phase)
    (acted : program.effect thread action state.shared = some shared) :
    Step program state thread action
      ⟨shared, fun other => if other = thread then phase else state.phases other⟩ where
  moved := by simpa using moved
  acted := acted
  others other isOther := if_neg isOther

/-- The phase of a thread, set apart from the others. -/
theorem run_focus [DecidableEq Thread] {program : Program Thread Phase Action Shared}
    {trace : List (Thread × Action)} {phases : Thread → Phase} {shared : Shared} {phase : Phase}
    (run : Run program.system trace ⟨shared, phases⟩) (thread : Thread) (isPhase : phases thread = phase) :
    Run program.system trace ⟨shared, Function.update phases thread phase⟩ := by
  rw [← isPhase, Function.update_eq_self]
  exact run

/-- One thread makes a move that is possible, its phase set apart from the others. -/
theorem step_update [DecidableEq Thread] {program : Program Thread Phase Action Shared}
    {phases : Thread → Phase} {thread : Thread} {phase phase' : Phase} {action : Action}
    {shared shared' : Shared} (moved : program.moves phase action phase')
    (acted : program.effect thread action shared = some shared') :
    Step program ⟨shared, Function.update phases thread phase⟩ thread action
      ⟨shared', Function.update phases thread phase'⟩ := by
  refine ⟨?_, acted, fun other isOther => ?_⟩
  · simpa using moved
  · simp [isOther]

/-- A run goes on with any action that is possible for one of its threads. -/
theorem run_update [DecidableEq Thread] {program : Program Thread Phase Action Shared}
    {trace : List (Thread × Action)} {phases : Thread → Phase} {thread : Thread} {phase phase' : Phase}
    {action : Action} {shared shared' : Shared}
    (run : Run program.system trace ⟨shared, Function.update phases thread phase⟩)
    (moved : program.moves phase action phase') (acted : program.effect thread action shared = some shared') :
    Run program.system ((thread, action) :: trace) ⟨shared', Function.update phases thread phase'⟩ :=
  run.next (step_update moved acted)

/-- What a thread's own moves keep holds of the phase of every thread. -/
theorem phase_invariant {program : Program Thread Phase Action Shared} {holds : Phase → Prop}
    {state : Threads Thread Phase Shared} (reachable : Reachable program.system state)
    (idle : holds program.idle)
    (kept : ∀ phase action phase', holds phase → program.moves phase action phase' → holds phase')
    (thread : Thread) : holds (state.phases thread) := by
  refine @Reachable.invariant _ _ _ (fun state => ∀ thread, holds (state.phases thread)) state reachable
    (fun state initial thread => (initial.2 thread) ▸ idle)
    (fun state label state' held step other => ?_) thread
  by_cases same : other = label.1
  · rw [same]
    exact kept _ _ _ (held label.1) step.moved
  · rw [step.others other same]
    exact held other

/-! ### What a thread leaves behind -/

/-- The same program, from a given state on. -/
def Program.resume (program : Program Thread Phase Action Shared) (before : Threads Thread Phase Shared) :
    System (Threads Thread Phase Shared) (Thread × Action) where
  initial state := state = before
  step state label state' := Step program state label.1 label.2 state'

section Traces

variable {Value : Type} [DecidableEq Thread]

/-- What the actions of all other threads make of a value, the latest of them first in the trace. -/
def replay (contribute : Action → Value → Value) (thread : Thread) (trace : List (Thread × Action))
    (value : Value) : Value :=
  (trace.filter (fun label => label.1 ≠ thread)).foldr (fun label => contribute label.2) value

/-- An account of what a thread has added of its own to an observed part of the shared data, by its
phase. It is kept over the tracked phases while the thread's actions are allowed. -/
structure Account (program : Program Thread Phase Action Shared) (observe : Shared → Value)
    (contribute : Action → Value → Value) (own : Phase → Value → Value) (tracked : Phase → Prop)
    (allowed : Action → Prop) : Prop where
  follows : ∀ thread action shared shared', program.effect thread action shared = some shared' →
    observe shared' = contribute action (observe shared)
  commutes : ∀ phase action value, contribute action (own phase value) = own phase (contribute action value)
  moves : ∀ phase action phase', program.moves phase action phase' → allowed action → tracked phase' →
    tracked phase ∧ ∀ value, contribute action (own phase value) = own phase' value

/-- Along a run the observed data are what the other threads made of them, and on top of that what the
thread's phase accounts for. -/
theorem run_account {program : Program Thread Phase Action Shared} {observe : Shared → Value}
    {contribute : Action → Value → Value} {own : Phase → Value → Value} {tracked : Phase → Prop}
    {allowed : Action → Prop} (account : Account program observe contribute own tracked allowed)
    {before after : Threads Thread Phase Shared} {trace : List (Thread × Action)} {thread : Thread}
    (run : Run (program.resume before) trace after)
    (start : ∀ value, own (before.phases thread) value = value)
    (allowedActions : ∀ label ∈ trace, label.1 = thread → allowed label.2)
    (isTracked : tracked (after.phases thread)) :
    observe after.shared =
      own (after.phases thread) (replay contribute thread trace (observe before.shared)) := by
  induction run with
  | start initial =>
    have same : _ = before := initial
    rw [same]
    exact (start _).symm
  | @next trace state state' label run step hypothesis =>
    have earlier (action : Thread × Action) (member : action ∈ trace) : action.1 = thread → allowed action.2 :=
      allowedActions action (List.mem_cons_of_mem _ member)
    rw [account.follows _ _ _ _ step.acted]
    by_cases same : label.1 = thread
    · have moved := step.moved
      rw [same] at moved
      obtain ⟨wasTracked, added⟩ :=
        account.moves _ _ _ moved (allowedActions label (List.mem_cons_self ..) same) isTracked
      have skipped : replay contribute thread (label :: trace) (observe before.shared) =
          replay contribute thread trace (observe before.shared) := by
        rw [replay, List.filter_cons_of_neg (by simpa using same)]
        rfl
      rw [hypothesis earlier wasTracked, skipped]
      exact added _
    · have stays := step.others thread (fun isThread => same isThread.symm)
      rw [stays] at isTracked ⊢
      have counted : replay contribute thread (label :: trace) (observe before.shared) =
          contribute label.2 (replay contribute thread trace (observe before.shared)) := by
        rw [replay, List.filter_cons_of_pos (by simpa using same)]
        rfl
      rw [hypothesis earlier isTracked, counted]
      exact account.commutes _ _ _

end Traces

end Programs

/-! ## Locks -/

/-- A lock is free, or held by a thread that has taken it a number of times. -/
abbrev Lock (Thread : Type) := Option (Thread × Nat)

section Locks

variable {Thread : Type}

/-- Taking a lock that its holder cannot take again. -/
def Lock.acquire (thread : Thread) : Lock Thread → Option (Lock Thread)
  | none => some (some (thread, 1))
  | some _ => none

/-- A lock that is held once, by exactly the threads that are where it protects them. -/
def Guards (lock : Lock Thread) (holds : Thread → Prop) : Prop :=
  ∀ thread count, lock = some (thread, count) ↔ count = 1 ∧ holds thread

theorem Guards.held {lock : Lock Thread} {holds : Thread → Prop} (guards : Guards lock holds)
    {thread : Thread} (held : holds thread) : lock = some (thread, 1) :=
  (guards thread 1).mpr ⟨rfl, held⟩

theorem Guards.exclusive {lock : Lock Thread} {holds : Thread → Prop} (guards : Guards lock holds)
    {first second : Thread} (firstHolds : holds first) (secondHolds : holds second) : first = second := by
  have same := (guards.held firstHolds).symm.trans (guards.held secondHolds)
  exact congrArg Prod.fst (Option.some.inj same)

theorem guards_free {holds : Thread → Prop} (free : ∀ thread, ¬ holds thread) : Guards none holds :=
  fun thread _ => ⟨fun isSome => (by cases isSome), fun held => absurd held.2 (free thread)⟩

theorem Guards.not_held {holds : Thread → Prop} (guards : Guards none holds) (thread : Thread) :
    ¬ holds thread := fun held => by cases guards.held held

theorem Guards.congr {lock : Lock Thread} {holds holds' : Thread → Prop} (guards : Guards lock holds)
    (same : ∀ thread, holds' thread ↔ holds thread) : Guards lock holds' :=
  fun thread count => (guards thread count).trans (and_congr_right fun _ => (same thread).symm)

theorem guards_of_held {holds : Thread → Prop} {thread : Thread}
    (only : ∀ other, holds other ↔ other = thread) :
    Guards (some (thread, 1)) holds := by
  intro other count
  constructor
  · intro same
    cases same
    exact ⟨rfl, (only thread).mpr rfl⟩
  · rintro ⟨rfl, held⟩
    rw [(only other).mp held]

theorem Guards.acquire {lock lock' : Lock Thread} {holds holds' : Thread → Prop} {thread : Thread}
    (guards : Guards lock holds) (acquired : lock.acquire thread = some lock') (held : holds' thread)
    (others : ∀ other, other ≠ thread → (holds' other ↔ holds other)) : Guards lock' holds' := by
  cases lock with
  | some holder => cases acquired
  | none =>
    rw [← Option.some.inj acquired]
    refine guards_of_held (fun other => ⟨fun otherHeld => ?_, fun same => same ▸ held⟩)
    by_contra isOther
    exact guards.not_held other ((others other isOther).mp otherHeld)

/-- A lock can be taken unless a thread holds it. -/
theorem Guards.acquire_or {lock : Lock Thread} {holds : Thread → Prop} (guards : Guards lock holds)
    (thread : Thread) : (∃ lock', lock.acquire thread = some lock') ∨ ∃ holder, holds holder := by
  cases lock with
  | none => exact .inl ⟨_, rfl⟩
  | some taken => exact .inr ⟨taken.1, ((guards taken.1 taken.2).mp rfl).2⟩

/-- What the holder of a lock has to its account. -/
def Lock.account (lock : Lock Thread) (amount : Thread → Nat) : Nat :=
  match lock with
  | none => 0
  | some (holder, _) => amount holder

theorem account_lt {lock : Lock Thread} {amount : Thread → Nat} {bound : Nat} (positive : 0 < bound)
    (below : ∀ thread, amount thread < bound) : lock.account amount < bound := by
  cases lock with
  | none => exact positive
  | some taken => exact below taken.1

theorem Guards.account_held {lock : Lock Thread} {holds : Thread → Prop} (guards : Guards lock holds)
    {thread : Thread} (held : holds thread) (amount : Thread → Nat) : lock.account amount = amount thread := by
  rw [guards.held held]
  rfl

theorem Guards.account_free {lock : Lock Thread} {holds : Thread → Prop} (guards : Guards lock holds)
    (free : ∀ thread, ¬ holds thread) (amount : Thread → Nat) : lock.account amount = 0 := by
  cases lock with
  | none => rfl
  | some taken => exact absurd ((guards taken.1 taken.2).mp rfl).2 (free taken.1)

/-- Where one thread acts and only holders have anything to their accounts, the holder's account changes by
as much as the thread's own amount. -/
theorem Guards.account_step {lock lock' : Lock Thread} {holds holds' : Thread → Prop} {thread : Thread}
    {amount amount' : Thread → Nat} (guards : Guards lock holds) (guards' : Guards lock' holds')
    (others : ∀ other, other ≠ thread → (holds' other ↔ holds other) ∧ amount' other = amount other)
    (unheld : ¬ holds thread → amount thread = 0) (unheld' : ¬ holds' thread → amount' thread = 0) :
    lock'.account amount' + amount thread = lock.account amount + amount' thread := by
  by_cases held : holds thread
  · rw [guards.account_held held]
    by_cases held' : holds' thread
    · rw [guards'.account_held held', Nat.add_comm]
    · rw [guards'.account_free (fun other otherHolds => ?_), unheld' held']
      · omega
      by_cases same : other = thread
      · exact held' (same ▸ otherHolds)
      · exact same (guards.exclusive (((others other same).1).mp otherHolds) held)
  · rw [unheld held]
    by_cases held' : holds' thread
    · rw [guards'.account_held held', guards.account_free (fun other otherHolds => ?_)]
      · omega
      by_cases same : other = thread
      · exact held (same ▸ otherHolds)
      · exact same (guards'.exclusive (((others other same).1).mpr otherHolds) held')
    · rw [unheld' held']
      by_cases holder : ∃ other, holds other
      · obtain ⟨other, otherHolds⟩ := holder
        have isOther : other ≠ thread := fun same => held (same ▸ otherHolds)
        rw [guards.account_held otherHolds, guards'.account_held (((others other isOther).1).mpr otherHolds),
          (others other isOther).2]
      · rw [guards.account_free (fun other otherHolds => holder ⟨other, otherHolds⟩),
          guards'.account_free (fun other otherHolds => ?_)]
        by_cases same : other = thread
        · exact held' (same ▸ otherHolds)
        · exact holder ⟨other, ((others other same).1).mp otherHolds⟩

variable [DecidableEq Thread]

/-- Taking a lock that its holder can take again. -/
def Lock.acquireAgain (thread : Thread) : Lock Thread → Option (Lock Thread)
  | none => some (some (thread, 1))
  | some (holder, count) => if holder = thread then some (some (holder, count + 1)) else none

def Lock.release (thread : Thread) : Lock Thread → Option (Lock Thread)
  | none => none
  | some (holder, count) =>
    if holder = thread then some (if count ≤ 1 then none else some (holder, count - 1)) else none

@[simp] theorem release_own (thread : Thread) : Lock.release thread (some (thread, 1)) = some none := by
  simp [Lock.release]

theorem Guards.acquireAgain {lock lock' : Lock Thread} {holds holds' : Thread → Prop} {thread : Thread}
    (guards : Guards lock holds) (acquired : lock.acquireAgain thread = some lock') (absent : ¬ holds thread)
    (held : holds' thread) (others : ∀ other, other ≠ thread → (holds' other ↔ holds other)) :
    Guards lock' holds' := by
  cases lock with
  | none => exact guards.acquire acquired held others
  | some taken =>
    obtain ⟨holder, count⟩ := taken
    simp only [Lock.acquireAgain] at acquired
    split at acquired
    · rename_i same
      exact absurd (same ▸ ((guards holder count).mp rfl).2) absent
    · cases acquired

theorem Guards.release {lock lock' : Lock Thread} {holds holds' : Thread → Prop} {thread : Thread}
    (guards : Guards lock holds) (released : lock.release thread = some lock') (held : holds thread)
    (left : ¬ holds' thread) (others : ∀ other, other ≠ thread → (holds' other ↔ holds other)) :
    Guards lock' holds' := by
  rw [guards.held held] at released
  simp only [Lock.release, if_true, Nat.le_refl, Option.some.injEq] at released
  rw [← released]
  refine guards_free (fun other otherHeld => ?_)
  by_cases same : other = thread
  · exact left (same ▸ otherHeld)
  · exact same (guards.exclusive ((others other same).mp otherHeld) held)

theorem Guards.acquireAgain_or {lock : Lock Thread} {holds : Thread → Prop} (guards : Guards lock holds)
    (thread : Thread) : (∃ lock', lock.acquireAgain thread = some lock') ∨ ∃ holder, holds holder := by
  cases lock with
  | none => exact .inl ⟨_, rfl⟩
  | some taken => exact .inr ⟨taken.1, ((guards taken.1 taken.2).mp rfl).2⟩

theorem Guards.release_exists {lock : Lock Thread} {holds : Thread → Prop} (guards : Guards lock holds)
    {thread : Thread} (held : holds thread) : ∃ lock', lock.release thread = some lock' := by
  rw [guards.held held]
  exact ⟨none, release_own thread⟩

/-- What an action does with a lock. -/
inductive Use
  | take
  | leave
  | keep

def Use.apply (reentrant : Bool) (thread : Thread) (lock : Lock Thread) : Use → Option (Lock Thread)
  | .take => if reentrant then lock.acquireAgain thread else lock.acquire thread
  | .leave => lock.release thread
  | .keep => some lock

/-- Whether a lock is held before and after a use of it. -/
def Use.Describes (before after : Prop) : Use → Prop
  | .take => ¬ before ∧ after
  | .leave => before ∧ ¬ after
  | .keep => after ↔ before

/-- A lock goes on guarding the same places, whatever one thread does with it. -/
theorem Guards.use {lock lock' : Lock Thread} {holds holds' : Thread → Prop} {thread : Thread} {use : Use}
    {reentrant : Bool} (guards : Guards lock holds) (applied : use.apply reentrant thread lock = some lock')
    (described : use.Describes (holds thread) (holds' thread))
    (others : ∀ other, other ≠ thread → (holds' other ↔ holds other)) : Guards lock' holds' := by
  cases use with
  | take =>
    obtain ⟨absent, held⟩ := described
    cases reentrant with
    | true => exact guards.acquireAgain applied absent held others
    | false => exact guards.acquire applied held others
  | leave =>
    obtain ⟨held, left⟩ := described
    exact guards.release applied held left others
  | keep =>
    rw [← Option.some.inj applied]
    refine guards.congr (fun other => ?_)
    by_cases same : other = thread
    · rw [same]
      exact described
    · exact others other same

end Locks

/-! ## Counting threads -/

section Counting

variable {Thread : Type} {count : Nat} {holds holds' : Thread → Prop} {thread : Thread}

/-- Something holds of this many threads. -/
def Counts (count : Nat) (holds : Thread → Prop) : Prop :=
  ∃ members : Finset Thread, members.card = count ∧ ∀ thread, thread ∈ members ↔ holds thread

theorem counts_none (none : ∀ thread, ¬ holds thread) : Counts 0 holds :=
  ⟨∅, rfl, fun thread => by simp [none thread]⟩

theorem Counts.congr (counts : Counts count holds) (same : ∀ thread, holds' thread ↔ holds thread) :
    Counts count holds' := by
  obtain ⟨members, size, member⟩ := counts
  exact ⟨members, size, fun thread => (member thread).trans (same thread).symm⟩

theorem Counts.enter (counts : Counts count holds) (absent : ¬ holds thread) (entered : holds' thread)
    (others : ∀ other, other ≠ thread → (holds' other ↔ holds other)) : Counts (count + 1) holds' := by
  classical
  obtain ⟨members, size, member⟩ := counts
  refine ⟨insert thread members, ?_, fun other => ?_⟩
  · rw [Finset.card_insert_of_notMem (fun isMember => absent ((member thread).mp isMember)), size]
  · rw [Finset.mem_insert]
    by_cases same : other = thread
    · rw [same]
      exact ⟨fun _ => entered, fun _ => .inl rfl⟩
    · rw [others other same, member]
      exact ⟨fun either => either.resolve_left same, .inr⟩

theorem Counts.leave (counts : Counts count holds) (held : holds thread) (left : ¬ holds' thread)
    (others : ∀ other, other ≠ thread → (holds' other ↔ holds other)) :
    0 < count ∧ Counts (count - 1) holds' := by
  classical
  obtain ⟨members, size, member⟩ := counts
  have isMember := (member thread).mpr held
  refine ⟨size ▸ Finset.card_pos.mpr ⟨thread, isMember⟩, members.erase thread, ?_, fun other => ?_⟩
  · rw [Finset.card_erase_of_mem isMember, size]
  · rw [Finset.mem_erase]
    by_cases same : other = thread
    · rw [same]
      exact ⟨fun erased => absurd rfl erased.1, fun remains => absurd remains left⟩
    · rw [others other same, member]
      exact ⟨And.right, fun remains => ⟨same, remains⟩⟩

end Counting

/-! ## Adding up over threads -/

section Totals

variable {Thread : Type} {total : Nat} {amount amount' : Thread → Nat} {thread : Thread}

/-- The amounts of all threads add up to this; only finitely many threads have any. -/
def Totals (total : Nat) (amount : Thread → Nat) : Prop :=
  ∃ members : Finset Thread, (∀ thread, amount thread ≠ 0 → thread ∈ members) ∧ members.sum amount = total

theorem totals_zero (none : ∀ thread, amount thread = 0) : Totals 0 amount :=
  ⟨∅, fun thread some => absurd (none thread) some, rfl⟩

theorem Totals.congr (totals : Totals total amount) (same : ∀ thread, amount' thread = amount thread) :
    Totals total amount' := by
  rw [funext same]
  exact totals

theorem Totals.add {second : Nat} (totals : Totals total amount) (others : Totals second amount') :
    Totals (total + second) (fun thread => amount thread + amount' thread) := by
  classical
  obtain ⟨members, covered, isTotal⟩ := totals
  obtain ⟨members', covered', isSecond⟩ := others
  refine ⟨members ∪ members', fun thread some => ?_, ?_⟩
  · rw [Finset.mem_union]
    by_cases none : amount thread = 0
    · have some' : amount thread + amount' thread ≠ 0 := some
      exact .inr (covered' thread (by omega))
    · exact .inl (covered thread none)
  · rw [Finset.sum_add_distrib, ← isTotal, ← isSecond]
    congr 1
    · refine (Finset.sum_subset Finset.subset_union_left (fun thread _ outside => ?_)).symm
      by_contra some
      exact outside (covered thread some)
    · refine (Finset.sum_subset Finset.subset_union_right (fun thread _ outside => ?_)).symm
      by_contra some
      exact outside (covered' thread some)

theorem Totals.unique {second : Nat} (totals : Totals total amount) (again : Totals second amount) :
    total = second := by
  classical
  obtain ⟨members, covered, rfl⟩ := totals
  obtain ⟨members', covered', rfl⟩ := again
  have some (thread : Thread) : amount thread ≠ 0 → (thread ∈ members ↔ thread ∈ members') :=
    fun some => iff_of_true (covered thread some) (covered' thread some)
  rw [← Finset.sum_filter_ne_zero members, ← Finset.sum_filter_ne_zero members']
  congr 1
  ext thread
  simp only [Finset.mem_filter]
  exact and_congr_left (some thread)

theorem Totals.of_le (totals : Totals total amount) (below : ∀ thread, amount' thread ≤ amount thread) :
    ∃ total', Totals total' amount' := by
  obtain ⟨members, covered, _⟩ := totals
  exact ⟨members.sum amount', members, fun thread some =>
    covered thread (fun none => some (Nat.le_zero.mp (none ▸ below thread))), rfl⟩

/-- A thread with some amount has it within the total. When its amount changes, the total changes with it. -/
theorem Totals.move (totals : Totals total amount)
    (others : ∀ other, other ≠ thread → amount' other = amount other) :
    ∃ total', total' + amount thread = total + amount' thread ∧ Totals total' amount' := by
  classical
  obtain ⟨members, covered, isTotal⟩ := totals
  have isTotal' : (insert thread members).sum amount = total := by
    rw [← isTotal]
    refine (Finset.sum_subset (Finset.subset_insert _ _) (fun other _ outside => ?_)).symm
    by_contra some
    exact outside (covered other some)
  have before : amount thread + ((insert thread members).erase thread).sum amount = total :=
    (Finset.add_sum_erase _ amount (Finset.mem_insert_self thread members)).trans isTotal'
  have after : amount' thread + ((insert thread members).erase thread).sum amount' =
      (insert thread members).sum amount' :=
    Finset.add_sum_erase _ amount' (Finset.mem_insert_self thread members)
  have rest : ((insert thread members).erase thread).sum amount' =
      ((insert thread members).erase thread).sum amount :=
    Finset.sum_congr rfl (fun other member => others other (Finset.ne_of_mem_erase member))
  refine ⟨(insert thread members).sum amount', ?_, insert thread members, fun other some => ?_, rfl⟩
  · omega
  · by_cases same : other = thread
    · exact same ▸ Finset.mem_insert_self thread members
    · rw [others other same] at some
      exact Finset.mem_insert_of_mem (covered other some)

end Totals

/-! ## Lock order -/

/-- Where every busy thread can act or waits for a busy thread of a greater rank, and ranks are bounded,
some busy thread can act. -/
theorem exists_ready {Thread : Type} {busy ready : Thread → Prop} {rank : Thread → Nat} {bound : Nat}
    (bounded : ∀ thread, rank thread ≤ bound)
    (waits : ∀ thread, busy thread → ready thread ∨ ∃ holder, busy holder ∧ rank thread < rank holder)
    {thread : Thread} (isBusy : busy thread) : ∃ other, busy other ∧ ready other := by
  induction distance : bound - rank thread using Nat.strong_induction_on generalizing thread with
  | _ distance hypothesis =>
    rcases waits thread isBusy with isReady | ⟨holder, holderBusy, above⟩
    · exact ⟨thread, isBusy, isReady⟩
    · have bound' := bounded holder
      exact hypothesis (bound - rank holder) (by omega) holderBusy rfl

end KernelLake.Library.Interleavings
