import KernelLake.FlightSqlServer

/-! The registries of the server stay within their cap, and every reserved slot is accounted for. -/

namespace KernelLake.FlightSqlCapacity

open KernelLake.FlightSqlServer KernelLake.Library.Interleavings KernelLake.Library.Registries

section Reservations

variable {Call Plan Result : Type}

/-- An action that publishes or releases a reserved slot. -/
def givesBack : Action Plan Result → Bool
  | .release => true
  | .publish .. => true
  | .publishRaised => true
  | _ => false

/-- A call has reserved a slot and not yet published or released it. -/
def Outstanding (trace : Trace Call Plan Result) (call : Call) : Prop :=
  (call, .reserve) ∈ trace ∧ ∀ action, (call, action) ∈ trace → givesBack action = false

/-- The phases of a call that holds a slot. -/
def Holds : Phase Plan Result → Prop
  | .executing _ => True
  | .releasing => True
  | .publishing _ => True
  | _ => False

/-- The phases of a call that may still reserve a slot. -/
def MayReserve : Phase Plan Result → Prop
  | .idle => True
  | .explaining _ => True
  | .finding _ => True
  | .admitting _ => True
  | _ => False

/-- What a call has done about a slot in each phase. -/
structure Accounted (trace : Trace Call Plan Result) (call : Call) (phase : Phase Plan Result) : Prop where
  untouched : MayReserve phase → ∀ action, (call, action) ∈ trace → action ≠ .reserve ∧ givesBack action = false
  outstanding : Outstanding trace call ↔ Holds phase

theorem outstanding_cons {trace : Trace Call Plan Result} {call : Call} {action : Action Plan Result}
    (neutral : action ≠ .reserve) (keeps : givesBack action = false) :
    Outstanding ((call, action) :: trace) call ↔ Outstanding trace call := by
  constructor
  · rintro ⟨reserved, kept⟩
    refine ⟨?_, fun action' member => kept action' (List.mem_cons_of_mem _ member)⟩
    rcases List.mem_cons.mp reserved with same | member
    · exact absurd (Prod.mk.inj same).2.symm neutral
    · exact member
  · rintro ⟨reserved, kept⟩
    refine ⟨List.mem_cons_of_mem _ reserved, fun action' member => ?_⟩
    rcases List.mem_cons.mp member with same | member
    · rw [(Prod.mk.inj same).2]
      exact keeps
    · exact kept action' member

theorem outstanding_other {trace : Trace Call Plan Result} {call other : Call} {action : Action Plan Result}
    (isOther : other ≠ call) : Outstanding ((call, action) :: trace) other ↔ Outstanding trace other := by
  have same (action' : Action Plan Result) :
      (other, action') ∈ (call, action) :: trace ↔ (other, action') ∈ trace := by
    simp [isOther]
  simp only [Outstanding, same]

theorem outstanding_reserve {trace : Trace Call Plan Result} {call : Call}
    (untouched : ∀ action, (call, action) ∈ trace → action ≠ .reserve ∧ givesBack action = false) :
    Outstanding ((call, .reserve) :: trace) call := by
  refine ⟨List.mem_cons_self .., fun action member => ?_⟩
  rcases List.mem_cons.mp member with same | member
  · rw [(Prod.mk.inj same).2]
    rfl
  · exact (untouched action member).2

theorem not_outstanding_of_givesBack {trace : Trace Call Plan Result} {call : Call}
    {action : Action Plan Result} (gives : givesBack action = true) :
    ¬ Outstanding ((call, action) :: trace) call := by
  rintro ⟨_, kept⟩
  rw [kept action (List.mem_cons_self ..)] at gives
  cases gives

/-- An action that has nothing to do with slots leaves a call's account as it is. -/
theorem Accounted.neutral {trace : Trace Call Plan Result} {call : Call} {action : Action Plan Result}
    {phase phase' : Phase Plan Result} (accounted : Accounted trace call phase)
    (neutral : action ≠ .reserve) (keeps : givesBack action = false) (held : Holds phase' ↔ Holds phase)
    (early : MayReserve phase' → MayReserve phase) : Accounted ((call, action) :: trace) call phase' where
  untouched mayReserve action' member := by
    rcases List.mem_cons.mp member with same | member
    · rw [(Prod.mk.inj same).2]
      exact ⟨neutral, keeps⟩
    · exact accounted.untouched (early mayReserve) action' member
  outstanding := (outstanding_cons neutral keeps).trans (accounted.outstanding.trans held.symm)

theorem Accounted.givenBack {trace : Trace Call Plan Result} {call : Call} {action : Action Plan Result}
    (gives : givesBack action = true) : Accounted ((call, action) :: trace) call .finished where
  untouched mayReserve := mayReserve.elim
  outstanding := ⟨fun isOutstanding => absurd isOutstanding (not_outstanding_of_givesBack gives), False.elim⟩

theorem Accounted.moves {setting : Setting Plan Result} {trace : Trace Call Plan Result} {call : Call}
    {action : Action Plan Result} {phase phase' : Phase Plan Result} (accounted : Accounted trace call phase)
    (moved : Moves setting phase action phase') : Accounted ((call, action) :: trace) call phase' := by
  cases moved with
  | reserve =>
    have reserved := outstanding_reserve (accounted.untouched trivial)
    exact ⟨fun mayReserve => mayReserve.elim, fun _ => trivial, fun _ => reserved⟩
  | release | publish | publishRaised => exact Accounted.givenBack rfl
  | _ =>
    exact accounted.neutral (fun same => by cases same) rfl Iff.rfl (fun early => by trivial)

/-- Only a call that holds a slot gives one back. -/
theorem moves_givesBack {setting : Setting Plan Result} {action : Action Plan Result}
    {phase phase' : Phase Plan Result} (moved : Moves setting phase action phase')
    (gives : givesBack action = true) : Holds phase := by
  cases moved with
  | release | publish | publishRaised => exact trivial
  | _ => cases gives

end Reservations

section Runs

variable {Call Plan Result : Type} {setting : Setting Plan Result}

/-- The registries are within their cap, and the pending count counts the slots that are outstanding. -/
structure Bounded (setting : Setting Plan Result) (trace : Trace Call Plan Result)
    (shared : Shared Plan Result) : Prop where
  results : shared.results.entries.length + shared.pendingCount.toNat ≤ setting.maxPendingResults.toNat
  prepared : shared.prepared.entries.length ≤ setting.maxPendingResults.toNat
  counted : Counts shared.pendingCount.toNat (Outstanding trace)

theorem toNat_sub_one {count : UInt32} (positive : 0 < count.toNat) : (count - 1).toNat = count.toNat - 1 := by
  have one : (1 : UInt32).toNat = 1 := rfl
  rw [UInt32.toNat_sub_of_le _ _ (UInt32.le_iff_toNat_le.mpr (one ▸ positive)), one]

theorem toNat_add_one {count bound : UInt32} (below : count.toNat < bound.toNat) :
    (count + 1).toNat = count.toNat + 1 := by
  have fits := bound.toNat_lt
  have one : (1 : UInt32).toNat = 1 := rfl
  rw [UInt32.toNat_add, one, Nat.mod_eq_of_lt (by omega)]

/-- A step that gives a slot back finds the pending count above zero and takes one off. -/
theorem Bounded.giveBack {trace : Trace Call Plan Result} {shared : Shared Plan Result} {call : Call}
    (bounded : Bounded setting trace shared) (held : Outstanding trace call) (action : Action Plan Result)
    (gives : givesBack action = true) :
    0 < shared.pendingCount.toNat ∧
      Counts (shared.pendingCount - 1).toNat (Outstanding ((call, action) :: trace)) := by
  obtain ⟨positive, counted⟩ := bounded.counted.leave held (not_outstanding_of_givesBack gives)
    (fun other isOther => outstanding_other isOther)
  rw [toNat_sub_one positive]
  exact ⟨positive, counted⟩

theorem Bounded.neutral {trace : Trace Call Plan Result} {shared : Shared Plan Result} {call : Call}
    {action : Action Plan Result} (bounded : Bounded setting trace shared) (neutral : action ≠ .reserve)
    (keeps : givesBack action = false) :
    Counts shared.pendingCount.toNat (Outstanding ((call, action) :: trace)) := by
  refine bounded.counted.congr (fun other => ?_)
  by_cases same : other = call
  · rw [same]
    exact outstanding_cons neutral keeps
  · exact outstanding_other same

variable [DecidableEq Plan] [DecidableEq Result]

theorem run_accounted {trace : Trace Call Plan Result} {state : State Call Plan Result}
    (run : Run (system setting Call) trace state) (call : Call) :
    Accounted trace call (state.phases call) := by
  refine @Run.invariant _ _ _ (fun trace state => ∀ call, Accounted trace call (state.phases call)) trace
    state run (fun state initial call => ?_) (fun trace state label state' _ accounted step other => ?_) call
  · have idle : state.phases call = .idle := initial.2 call
    rw [idle]
    refine ⟨fun _ action member => ?_, fun isOutstanding => ?_, False.elim⟩
    · cases member
    · cases isOutstanding.1
  · by_cases same : other = label.1
    · rw [same]
      exact (accounted label.1).moves step.moved
    · have before := accounted other
      rw [← step.others other same] at before
      refine ⟨fun mayReserve action member => ?_, (outstanding_other same).trans before.outstanding⟩
      rcases List.mem_cons.mp member with isLabel | member
      · exact absurd (congrArg Prod.fst isLabel) same
      · exact before.untouched mayReserve action member

theorem bounded_step {trace : Trace Call Plan Result} {shared shared' : Shared Plan Result} {call : Call}
    {action : Action Plan Result} {phase phase' : Phase Plan Result}
    (bounded : Bounded setting trace shared) (accounted : Accounted trace call phase)
    (moved : Moves setting phase action phase')
    (acted : effect setting.maxPendingResults action shared = some shared') :
    Bounded setting ((call, action) :: trace) shared' := by
  have within := bounded.results
  have gaveBack (gives : givesBack action = true) :=
    bounded.giveBack (accounted.outstanding.mpr (moves_givesBack moved gives)) action gives
  cases action with
  | reserve =>
    simp only [effect, Option.ite_none_left_eq_some, Option.some.injEq] at acted
    obtain ⟨room, rfl⟩ := acted
    have below : shared.pendingCount.toNat < setting.maxPendingResults.toNat := by omega
    have absent : ¬ Outstanding trace call := by
      cases moved with
      | reserve => exact accounted.outstanding.mp
    have mayReserve : MayReserve phase := by
      cases moved with
      | reserve => exact trivial
    refine ⟨?_, bounded.prepared, ?_⟩
    · simp only [toNat_add_one below]
      omega
    · simp only [toNat_add_one below]
      exact bounded.counted.enter absent (outstanding_reserve (accounted.untouched mayReserve))
        (fun other isOther => outstanding_other isOther)
  | release | publishRaised =>
    simp only [effect, Option.some.injEq] at acted
    obtain ⟨positive, counted⟩ := gaveBack rfl
    rw [← acted]
    refine ⟨?_, bounded.prepared, counted⟩
    simp only [toNat_sub_one positive]
    omega
  | publish handle result =>
    simp only [effect, Option.ite_none_right_eq_some, Option.some.injEq] at acted
    obtain ⟨positive, counted⟩ := gaveBack rfl
    rw [← acted.2]
    refine ⟨?_, bounded.prepared, counted⟩
    have grown := length_emplace_le handle result shared.results
    simp only [toNat_sub_one positive]
    omega
  | prepare handle entry =>
    simp only [effect, Option.ite_none_left_eq_some, Option.ite_none_right_eq_some, Option.some.injEq] at acted
    obtain ⟨room, _, rfl⟩ := acted
    have grown := length_emplace_le handle entry shared.prepared
    refine ⟨bounded.results, ?_, bounded.neutral (fun same => by cases same) rfl⟩
    simp only
    omega
  | close handle =>
    simp only [effect, Option.some.injEq] at acted
    rw [← acted]
    refine ⟨bounded.results, ?_, bounded.neutral (fun same => by cases same) rfl⟩
    exact Nat.le_trans (length_erase_le handle shared.prepared) bounded.prepared
  | fetch handle result =>
    simp only [effect, Option.ite_none_right_eq_some, Option.some.injEq] at acted
    rw [← acted.2]
    refine ⟨?_, bounded.prepared, bounded.neutral (fun same => by cases same) rfl⟩
    have shrunk := length_erase_le handle shared.results
    simp only
    omega
  | _ =>
    have same : shared = shared' := by
      simp only [effect, Option.some.injEq, Option.ite_none_right_eq_some] at acted
      first | exact acted | exact acted.2
    rw [← same]
    exact ⟨bounded.results, bounded.prepared, bounded.neutral (fun same => by cases same) rfl⟩

theorem run_bounded {trace : Trace Call Plan Result} {state : State Call Plan Result}
    (run : Run (system setting Call) trace state) : Bounded setting trace state.shared := by
  refine @Run.invariant _ _ _ (fun trace state => Bounded setting trace state.shared) trace state run
    (fun state initial => ?_) (fun trace state label state' run bounded step => ?_)
  · rw [show state.shared = started from initial.1]
    exact ⟨Nat.zero_le _, Nat.zero_le _, counts_none (fun call isOutstanding => by cases isOutstanding.1)⟩
  · exact bounded_step bounded (run_accounted run label.1) step.moved step.acted

/-- In every run the registries are within their cap, the pending count is the number of slots that are
outstanding, giving one back never takes it below zero, and a call that has ended holds none. -/
theorem registries_within_cap {trace : Trace Call Plan Result} {state : State Call Plan Result}
    (run : Run (system setting Call) trace state) :
    state.shared.results.entries.length + state.shared.pendingCount.toNat ≤ setting.maxPendingResults.toNat ∧
      state.shared.prepared.entries.length ≤ setting.maxPendingResults.toNat ∧
      Counts state.shared.pendingCount.toNat (Outstanding trace) ∧
      (∀ call action state', (system setting Call).step state (call, action) state' →
        givesBack action = true → 0 < state.shared.pendingCount.toNat) ∧
      ∀ call, state.phases call = .finished → ¬ Outstanding trace call := by
  have bounded := run_bounded run
  refine ⟨bounded.results, bounded.prepared, bounded.counted, fun call action state' step gives => ?_,
    fun call finished isOutstanding => ?_⟩
  · have held := (run_accounted run call).outstanding.mpr (moves_givesBack step.moved gives)
    exact (bounded.giveBack held action gives).1
  · have held := (run_accounted run call).outstanding.mp isOutstanding
    rw [finished] at held
    exact held

end Runs

/-- One call holds the only slot of the server. -/
theorem registries_within_cap_reserved :
    reservedState.shared.results.entries.length + reservedState.shared.pendingCount.toNat ≤ 1 ∧
      Counts reservedState.shared.pendingCount.toNat (Outstanding reservedTrace) := by
  obtain ⟨within, _, counted, _⟩ := registries_within_cap run_reserved
  exact ⟨within, counted⟩

end KernelLake.FlightSqlCapacity
