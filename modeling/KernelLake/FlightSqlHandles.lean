import KernelLake.FlightSqlServer
import KernelLake.Library.Texts

/-!
What a handle stands for: a result is delivered under the handle it was published under, and once at most;
a prepared handle stands for the plan it was created with until it is closed.
-/

namespace KernelLake.FlightSqlHandles

open KernelLake.FlightSqlServer KernelLake.Library KernelLake.Library.Interleavings
  KernelLake.Library.Registries

/-! ## Handles -/

section Handles

variable {Call Plan Result : Type}

theorem resultHandle_inj {first second : UInt64} :
    resultHandle first = resultHandle second ↔ first = second := by
  rw [resultHandle, resultHandle, String.append_right_inj, Texts.repr_inj, UInt64.toNat_inj]

theorem preparedHandle_inj {first second : UInt64} :
    preparedHandle first = preparedHandle second ↔ first = second := by
  rw [preparedHandle, preparedHandle, String.append_right_inj, Texts.repr_inj, UInt64.toNat_inj]

theorem resultHandle_ne_preparedHandle (first second : UInt64) :
    resultHandle first ≠ preparedHandle second := by
  intro same
  have chars := congrArg String.toList same
  simp [resultHandle, preparedHandle] at chars

/-- The handle that an action gives out. -/
def issued : Action Plan Result → Option String
  | .publish handle _ => some handle
  | .prepare handle _ => some handle
  | _ => none

/-- The handles that have been given out, the latest first. -/
def issuedHandles (trace : Trace Call Plan Result) : List String :=
  trace.filterMap fun label => issued label.2

/-- An action that takes a number from the counter. -/
def drawsNumber : Action Plan Result → Bool
  | .publish .. => true
  | .publishRaised => true
  | .prepare .. => true
  | _ => false

def draws (trace : Trace Call Plan Result) : Nat :=
  trace.countP fun label => drawsNumber label.2

/-- A handle made of one of the first numbers. -/
def IssuedBelow (bound : Nat) (handle : String) : Prop :=
  ∃ number < bound, handle = resultHandle (.ofNat number) ∨ handle = preparedHandle (.ofNat number)

theorem not_issuedBelow {bound : Nat} {handle : String} (few : bound < 2 ^ 64)
    (next : handle = resultHandle (.ofNat bound) ∨ handle = preparedHandle (.ofNat bound)) :
    ¬ IssuedBelow bound handle := by
  rintro ⟨number, below, same⟩
  have distinct : UInt64.ofNat bound ≠ UInt64.ofNat number := by
    intro equal
    have numbers := congrArg UInt64.toNat equal
    rw [UInt64.toNat_ofNat_of_lt' few, UInt64.toNat_ofNat_of_lt' (Nat.lt_trans below few)] at numbers
    omega
  rcases next with rfl | rfl <;> rcases same with same | same
  · exact distinct (resultHandle_inj.mp same)
  · exact resultHandle_ne_preparedHandle _ _ same
  · exact resultHandle_ne_preparedHandle _ _ same.symm
  · exact distinct (preparedHandle_inj.mp same)

theorem draws_cons (label : Call × Action Plan Result) (trace : Trace Call Plan Result) :
    draws (label :: trace) = draws trace + if drawsNumber label.2 then 1 else 0 :=
  List.countP_cons

theorem draws_le_cons (label : Call × Action Plan Result) (trace : Trace Call Plan Result) :
    draws trace ≤ draws (label :: trace) := by
  rw [draws_cons]
  exact Nat.le_add_right _ _

theorem draws_le_append (after before : Trace Call Plan Result) : draws before ≤ draws (after ++ before) := by
  unfold draws
  rw [List.countP_append]
  exact Nat.le_add_left _ _

theorem issued_draws {action : Action Plan Result} {handle : String} (issues : issued action = some handle) :
    drawsNumber action = true := by
  cases action with
  | publish | prepare => rfl
  | _ => cases issues

end Handles

/-! ## The counter -/

section Numbers

variable {Call Plan Result : Type} [DecidableEq Plan] [DecidableEq Result] {setting : Setting Plan Result}
  {trace : Trace Call Plan Result} {state : State Call Plan Result}

theorem effect_nextHandle {cap : UInt32} {action : Action Plan Result} {shared shared' : Shared Plan Result}
    (acted : effect cap action shared = some shared') :
    shared'.nextHandle = shared.nextHandle + if drawsNumber action then 1 else 0 := by
  cases action <;>
    simp only [effect, Option.some.injEq, Option.ite_none_right_eq_some, Option.ite_none_left_eq_some]
      at acted
  case prepare handle entry =>
    rw [← acted.2.2]
    rfl
  case reserve | refuse | publish | refusePrepared | find | fetch =>
    rw [← acted.2]
    simp [drawsNumber]
  all_goals
    rw [← acted]
    simp [drawsNumber]

/-- The handle that an action gives out is made of the number it draws. -/
theorem effect_issued {cap : UInt32} {action : Action Plan Result} {shared shared' : Shared Plan Result}
    {handle : String} (acted : effect cap action shared = some shared') (issues : issued action = some handle) :
    handle = resultHandle shared.nextHandle ∨ handle = preparedHandle shared.nextHandle := by
  cases action with
  | publish own result =>
    simp only [effect, Option.ite_none_right_eq_some] at acted
    exact .inl ((Option.some.inj issues).symm.trans acted.1)
  | prepare own entry =>
    simp only [effect, Option.ite_none_right_eq_some, Option.ite_none_left_eq_some] at acted
    exact .inr ((Option.some.inj issues).symm.trans acted.2.1)
  | _ => cases issues

theorem run_nextHandle (run : Run (system setting Call) trace state) :
    state.shared.nextHandle = UInt64.ofNat (draws trace) := by
  refine @Run.invariant _ _ _ (fun trace state => state.shared.nextHandle = UInt64.ofNat (draws trace)) trace
    state run (fun state initial => ?_) (fun trace state label state' _ numbered step => ?_)
  · rw [show state.shared = started from initial.1]
    rfl
  · rw [effect_nextHandle step.acted, numbered, draws_cons, UInt64.ofNat_add]
    split <;> rfl

theorem run_issuedBelow (run : Run (system setting Call) trace state) {call : Call}
    {action : Action Plan Result} {handle : String} (member : (call, action) ∈ trace)
    (issues : issued action = some handle) : IssuedBelow (draws trace) handle := by
  obtain ⟨after, before, rfl⟩ := List.append_of_mem member
  obtain ⟨left, right, prior, step⟩ := run.split rfl
  have made := effect_issued step.acted issues
  rw [run_nextHandle prior] at made
  have more := draws_le_append after ((call, action) :: before)
  rw [draws_cons, if_pos (issued_draws issues)] at more
  exact ⟨draws before, by omega, made⟩

/-- A handle is not given out if it was before. -/
theorem step_fresh (run : Run (system setting Call) trace state) {label : Call × Action Plan Result}
    {state' : State Call Plan Result} (step : (system setting Call).step state label state') {handle : String}
    (issues : issued label.2 = some handle) (few : draws (label :: trace) ≤ 2 ^ 64) :
    ¬ IssuedBelow (draws trace) handle := by
  have made := effect_issued step.acted issues
  rw [run_nextHandle run] at made
  rw [draws_cons, if_pos (issued_draws issues)] at few
  exact not_issuedBelow (by omega) made

theorem run_issuedHandles (run : Run (system setting Call) trace state) (few : draws trace ≤ 2 ^ 64) :
    (issuedHandles trace).Nodup := by
  refine @Run.invariant _ _ _ (fun trace _ => draws trace ≤ 2 ^ 64 → (issuedHandles trace).Nodup) trace state
    run (fun _ _ _ => List.nodup_nil) (fun trace state label state' run distinct step few => ?_) few
  have rest := distinct (Nat.le_trans (draws_le_cons label trace) few)
  cases issues : issued label.2 with
  | none =>
    have same : issuedHandles (label :: trace) = issuedHandles trace := by
      simp [issuedHandles, issues]
    exact same ▸ rest
  | some handle =>
    have grown : issuedHandles (label :: trace) = handle :: issuedHandles trace := by
      simp [issuedHandles, issues]
    rw [grown]
    refine List.nodup_cons.mpr ⟨fun member => ?_, rest⟩
    obtain ⟨⟨call, action⟩, isLabel, issued⟩ := List.mem_filterMap.mp member
    exact step_fresh run step issues few (run_issuedBelow run isLabel issued)

end Numbers

/-! ## Calls -/

section Calls

variable {Call Plan Result : Type} {setting : Setting Plan Result} {trace : Trace Call Plan Result}
  {call : Call} {action : Action Plan Result} {phase phase' : Phase Plan Result}

/-- What a call has done by the time it is in a phase. -/
def Told (trace : Trace Call Plan Result) (call : Call) : Phase Plan Result → Prop
  | .idle => ∀ action, (call, action) ∉ trace
  | .explaining _ => ∀ action, (call, action) ∈ trace → ∃ request, action = .receive request
  | .finding _ => ∀ action, (call, action) ∈ trace → ∃ request, action = .receive request
  | .admitting plan => ∀ handle entry, (call, .find handle (some entry)) ∈ trace → plan = entry.physical
  | .executing plan => ∀ handle entry, (call, .find handle (some entry)) ∈ trace → plan = entry.physical
  | .publishing result => ∃ plan, (call, .execute plan (some result)) ∈ trace
  | .streaming handle result => (call, .fetch handle (some result)) ∈ trace
  | _ => True

theorem Told.moves (told : Told trace call phase) (moved : Moves setting phase action phase') :
    Told ((call, action) :: trace) call phase' := by
  cases moved with
  | getFlightInfoStatement | getFlightInfoPreparedStatement =>
    intro action' member
    rcases List.mem_cons.mp member with same | member
    · exact ⟨_, (Prod.mk.inj same).2⟩
    · exact absurd member (told action')
  | explained =>
    intro handle entry member
    rcases List.mem_cons.mp member with same | member
    · cases same
    · obtain ⟨_, isReceive⟩ := told _ member
      cases isReceive
  | found =>
    intro handle entry member
    rcases List.mem_cons.mp member with same | member
    · cases same
      rfl
    · obtain ⟨_, isReceive⟩ := told _ member
      cases isReceive
  | reserve =>
    intro handle entry member
    rcases List.mem_cons.mp member with same | member
    · cases same
    · exact told handle entry member
  | executed => exact ⟨_, List.mem_cons_self ..⟩
  | fetched => exact List.mem_cons_self ..
  | _ => exact trivial

theorem moves_publish {handle : String} {result : Result}
    (moved : Moves setting phase (.publish handle result) phase') : phase = .publishing result := by
  cases moved
  rfl

theorem moves_deliver {handle : String} {result : Result}
    (moved : Moves setting phase (.deliver handle result) phase') :
    phase = .streaming handle result ∧ phase' = .finished := by
  cases moved
  exact ⟨rfl, rfl⟩

theorem moves_execute {plan : Plan} {outcome : Option Result}
    (moved : Moves setting phase (.execute plan outcome) phase') : phase = .executing plan := by
  cases moved <;> rfl

theorem moves_find {handle : String} {outcome : Option (PreparedStatementEntry Plan)}
    (moved : Moves setting phase (.find handle outcome) phase') : phase = .finding handle := by
  cases moved <;> rfl

/-- An ended call stays so. -/
theorem not_moves_finished : ¬ Moves setting .finished action phase' := by
  intro moved
  cases moved

theorem Told.other {other : Call} (told : Told trace other phase) (isOther : other ≠ call) :
    Told ((call, action) :: trace) other phase := by
  have own {action' : Action Plan Result} :
      (other, action') ∈ (call, action) :: trace ↔ (other, action') ∈ trace := by
    simp [isOther]
  cases phase with
  | idle | explaining | finding | admitting | executing | publishing | streaming =>
    simpa only [Told, own] using told
  | _ => exact trivial

variable [DecidableEq Plan] [DecidableEq Result] {state : State Call Plan Result}

theorem run_told (run : Run (system setting Call) trace state) (call : Call) :
    Told trace call (state.phases call) := by
  refine @Run.invariant _ _ _ (fun trace state => ∀ call, Told trace call (state.phases call)) trace state
    run (fun state initial call => ?_) (fun trace state label state' _ told step other => ?_) call
  · have idle : state.phases call = .idle := initial.2 call
    rw [idle]
    exact fun action member => by cases member
  · by_cases same : other = label.1
    · rw [same]
      exact (told label.1).moves step.moved
    · have before := told other
      rw [← step.others other same] at before
      exact before.other same

end Calls

/-! ## Results -/

section Results

variable {Call Plan Result : Type} [DecidableEq Plan] [DecidableEq Result] {setting : Setting Plan Result}
  {trace : Trace Call Plan Result} {state : State Call Plan Result}

/-- What a step leaves in the results was there before, or the step has published it; a fetched result is
gone. -/
theorem effect_results {cap : UInt32} {action : Action Plan Result} {shared shared' : Shared Plan Result}
    {handle : String} {result : Result} (acted : effect cap action shared = some shared')
    (stored : shared'.results.lookup handle = some result) :
    action = .publish handle result ∨
      shared.results.lookup handle = some result ∧ ∀ outcome, action ≠ .fetch handle outcome := by
  cases action with
  | publish own ownResult =>
    simp only [effect, Option.ite_none_right_eq_some, Option.some.injEq] at acted
    rw [← acted.2] at stored
    rcases lookup_emplace stored with ⟨rfl, rfl⟩ | before
    · exact .inl rfl
    · exact .inr ⟨before, fun _ same => by cases same⟩
  | fetch own outcome =>
    simp only [effect, Option.ite_none_right_eq_some, Option.some.injEq] at acted
    rw [← acted.2] at stored
    obtain ⟨isOther, before⟩ := lookup_erase_some stored
    exact .inr ⟨before, fun _ same => isOther (Action.fetch.inj same).1.symm⟩
  | _ =>
    have same : shared.results = shared'.results := by
      simp only [effect, Option.some.injEq, Option.ite_none_right_eq_some, Option.ite_none_left_eq_some]
        at acted
      first
        | rw [← acted]
        | rw [← acted.2]
        | rw [← acted.2.2]
    exact .inr ⟨same ▸ stored, fun _ same => by cases same⟩

/-- A call has executed a plan and then published its result. -/
def Published (trace : Trace Call Plan Result) (call : Call) (handle : String) (result : Result) : Prop :=
  ∃ plan, [(call, .publish handle result), (call, .execute plan (some result))].Sublist trace

omit [DecidableEq Plan] [DecidableEq Result] in
theorem Published.member {call : Call} {handle : String} {result : Result}
    (published : Published trace call handle result) : (call, .publish handle result) ∈ trace := by
  obtain ⟨plan, inOrder⟩ := published
  exact inOrder.subset (List.mem_cons_self ..)

omit [DecidableEq Plan] [DecidableEq Result] in
theorem Published.cons {call : Call} {handle : String} {result : Result}
    (published : Published trace call handle result) (label : Call × Action Plan Result) :
    Published (label :: trace) call handle result := by
  obtain ⟨plan, inOrder⟩ := published
  exact ⟨plan, inOrder.cons label⟩

/-- Every result that waits was published under its handle by the call that has executed its plan. -/
theorem run_published (run : Run (system setting Call) trace state) {handle : String} {result : Result}
    (stored : state.shared.results.lookup handle = some result) :
    ∃ call, Published trace call handle result := by
  refine @Run.invariant _ _ _ (fun trace state => ∀ handle result,
      state.shared.results.lookup handle = some result → ∃ call, Published trace call handle result) trace
    state run (fun state initial handle result stored => ?_)
    (fun trace state label state' run published step handle result stored => ?_) handle result stored
  · rw [show state.shared = started from initial.1] at stored
    cases stored
  · rcases effect_results step.acted stored with publishes | ⟨before, _⟩
    · have isLabel : label = (label.1, .publish handle result) := Prod.ext rfl publishes
      rw [isLabel] at step ⊢
      have told := run_told run label.1
      rw [moves_publish step.moved] at told
      obtain ⟨plan, executed⟩ := told
      exact ⟨label.1, plan, (List.singleton_sublist.mpr executed).cons_cons _⟩
    · obtain ⟨call, earlier⟩ := published handle result before
      exact ⟨call, earlier.cons label⟩

/-- A fetch finds what waits under its handle. -/
theorem run_fetched (run : Run (system setting Call) trace state) {after before : Trace Call Plan Result}
    {call : Call} {handle : String} {outcome : Option Result}
    (parts : trace = after ++ (call, .fetch handle outcome) :: before) :
    ∃ left, Run (system setting Call) before left ∧ left.shared.results.lookup handle = outcome := by
  obtain ⟨left, right, prior, step⟩ := run.split parts
  have acted := step.acted
  simp only [program, effect, Option.ite_none_right_eq_some] at acted
  exact ⟨left, prior, acted.1⟩

theorem run_fetched_published (run : Run (system setting Call) trace state) {call : Call} {handle : String}
    {result : Result} (fetched : (call, .fetch handle (some result)) ∈ trace) :
    ∃ publisher plan, [(call, .fetch handle (some result)), (publisher, .publish handle result),
      (publisher, .execute plan (some result))].Sublist trace := by
  obtain ⟨after, before, rfl⟩ := List.append_of_mem fetched
  obtain ⟨left, prior, stored⟩ := run_fetched run rfl
  obtain ⟨publisher, plan, inOrder⟩ := run_published prior stored
  exact ⟨publisher, plan, (inOrder.cons_cons _).trans (List.sublist_append_right _ _)⟩

/-- What a call delivers, it has fetched. -/
theorem run_delivered (run : Run (system setting Call) trace state) {after before : Trace Call Plan Result}
    {call : Call} {handle : String} {result : Result}
    (parts : trace = after ++ (call, .deliver handle result) :: before) :
    ∃ left, Run (system setting Call) before left ∧ left.phases call = .streaming handle result ∧
      (call, .fetch handle (some result)) ∈ before := by
  obtain ⟨left, right, prior, step⟩ := run.split parts
  have streaming := (moves_deliver step.moved).1
  have told := run_told prior call
  rw [streaming] at told
  exact ⟨left, prior, streaming, told⟩

/-- A call that has delivered its result has ended. -/
theorem run_ended (run : Run (system setting Call) trace state) {call : Call} {handle : String}
    {result : Result} (delivered : (call, .deliver handle result) ∈ trace) : state.phases call = .finished := by
  refine @Run.invariant _ _ _ (fun trace state => (call, .deliver handle result) ∈ trace →
      state.phases call = .finished) trace state run (fun state initial member => by cases member)
    (fun trace state label state' run ended step member => ?_) delivered
  rcases List.mem_cons.mp member with rfl | earlier
  · exact (moves_deliver step.moved).2
  · by_cases same : call = label.1
    · have moved : Moves setting (state.phases label.1) label.2 (state'.phases label.1) := step.moved
      rw [← same, ended earlier] at moved
      exact absurd moved not_moves_finished
    · rw [step.others call same]
      exact ended earlier

/-- A result that has been fetched does not come back. -/
theorem run_consumed (run : Run (system setting Call) trace state) (few : draws trace ≤ 2 ^ 64) {call : Call}
    {handle : String} {result : Result} (fetched : (call, .fetch handle (some result)) ∈ trace) :
    state.shared.results.lookup handle = none := by
  refine @Run.invariant _ _ _ (fun trace state => draws trace ≤ 2 ^ 64 →
      (call, .fetch handle (some result)) ∈ trace → state.shared.results.lookup handle = none) trace state run
    (fun state initial few member => by cases member)
    (fun trace state label state' run consumed step few member => ?_) few fetched
  refine Option.eq_none_iff_forall_ne_some.mpr (fun found stored => ?_)
  rcases effect_results step.acted stored with publishes | ⟨before, notFetch⟩
  · rcases List.mem_cons.mp member with same | earlier
    · rw [← same] at publishes
      cases publishes
    · obtain ⟨publisher, plan, inOrder⟩ := run_fetched_published run earlier
      have issues : issued label.2 = some handle := by rw [publishes]; rfl
      have member := inOrder.subset (List.mem_cons_of_mem _ (List.mem_cons_self ..))
      exact step_fresh run step issues few (run_issuedBelow run member rfl)
  · rcases List.mem_cons.mp member with same | earlier
    · exact notFetch _ (congrArg Prod.snd same).symm
    · rw [consumed (Nat.le_trans (draws_le_cons label trace) few) earlier] at before
      cases before

end Results

/-! ## Prepared plans -/

section Plans

variable {Call Plan Result : Type}

/-- A handle was created with an entry and has not been closed since. -/
def Open (trace : Trace Call Plan Result) (handle : String) (entry : PreparedStatementEntry Plan) : Prop :=
  ∃ call later earlier, trace = later ++ (call, .prepare handle entry) :: earlier ∧
    ∀ other, (other, .close handle) ∉ later

theorem Open.member {trace : Trace Call Plan Result} {handle : String} {entry : PreparedStatementEntry Plan}
    (isOpen : Open trace handle entry) : ∃ call, (call, .prepare handle entry) ∈ trace := by
  obtain ⟨call, later, earlier, rfl, _⟩ := isOpen
  exact ⟨call, List.mem_append_right _ (List.mem_cons_self ..)⟩

/-- A handle is open after an action that creates it, or where it was and is not closed. -/
theorem open_cons {trace : Trace Call Plan Result} {label : Call × Action Plan Result} {handle : String}
    {entry : PreparedStatementEntry Plan} :
    Open (label :: trace) handle entry ↔
      label.2 = .prepare handle entry ∨ Open trace handle entry ∧ label.2 ≠ .close handle := by
  constructor
  · rintro ⟨call, later, earlier, parts, kept⟩
    cases later with
    | nil => exact .inl (congrArg Prod.snd (List.cons.inj parts).1)
    | cons first later =>
      obtain ⟨rfl, rfl⟩ := List.cons.inj parts
      refine .inr ⟨⟨call, later, earlier, rfl, fun other member => ?_⟩, fun closes => ?_⟩
      · exact kept other (List.mem_cons_of_mem _ member)
      · have isLabel : (label.1, .close handle) = label := Prod.ext rfl closes.symm
        exact kept label.1 (isLabel ▸ List.mem_cons_self ..)
  · rintro (creates | ⟨⟨call, later, earlier, rfl, kept⟩, notClosed⟩)
    · have isLabel : label = (label.1, .prepare handle entry) := Prod.ext rfl creates
      exact ⟨label.1, [], trace, congrArg (· :: trace) isLabel, fun _ member => by cases member⟩
    · refine ⟨call, label :: later, earlier, rfl, fun other member => ?_⟩
      rcases List.mem_cons.mp member with same | member
      · exact notClosed (congrArg Prod.snd same).symm
      · exact kept other member

variable [DecidableEq Plan] [DecidableEq Result] {setting : Setting Plan Result}
  {trace : Trace Call Plan Result} {state : State Call Plan Result}

/-- What a step does to the prepared plans. -/
theorem effect_prepared {cap : UInt32} {action : Action Plan Result} {shared shared' : Shared Plan Result}
    (acted : effect cap action shared = some shared') :
    (∃ handle entry, action = .prepare handle entry ∧
        shared'.prepared = emplace handle entry shared.prepared) ∨
      (∃ handle, action = .close handle ∧ shared'.prepared = shared.prepared.erase handle) ∨
      (∀ handle entry, action ≠ .prepare handle entry) ∧ (∀ handle, action ≠ .close handle) ∧
        shared'.prepared = shared.prepared := by
  cases action with
  | prepare handle entry =>
    simp only [effect, Option.ite_none_right_eq_some, Option.ite_none_left_eq_some, Option.some.injEq] at acted
    exact .inl ⟨handle, entry, rfl, acted.2.2 ▸ rfl⟩
  | close handle => exact .inr (.inl ⟨handle, rfl, Option.some.inj acted ▸ rfl⟩)
  | _ =>
    refine .inr (.inr ⟨fun _ _ same => (by cases same), fun _ same => (by cases same), ?_⟩)
    simp only [effect, Option.some.injEq, Option.ite_none_right_eq_some, Option.ite_none_left_eq_some]
      at acted
    first
      | rw [← acted]
      | rw [← acted.2]

/-- The prepared plans are those that are open. -/
theorem run_prepared (run : Run (system setting Call) trace state) (few : draws trace ≤ 2 ^ 64)
    {handle : String} {entry : PreparedStatementEntry Plan} :
    state.shared.prepared.lookup handle = some entry ↔ Open trace handle entry := by
  refine @Run.invariant _ _ _ (fun trace state => draws trace ≤ 2 ^ 64 → ∀ handle entry,
      state.shared.prepared.lookup handle = some entry ↔ Open trace handle entry) trace state run
    (fun state initial few handle entry => ?_)
    (fun trace state label state' run registered step few handle entry => ?_) few handle entry
  · rw [show state.shared = started from initial.1]
    refine ⟨fun found => (by cases found), fun isOpen => ?_⟩
    obtain ⟨call, member⟩ := isOpen.member
    cases member
  · have registered := registered (Nat.le_trans (draws_le_cons label trace) few)
    rw [open_cons]
    rcases effect_prepared step.acted with ⟨own, ownEntry, prepares, same⟩ | ⟨own, closes, same⟩ |
      ⟨notPrepare, notClose, same⟩
    · have issues : issued label.2 = some own := by rw [prepares]; rfl
      have fresh := step_fresh run step issues few
      have absent (found : PreparedStatementEntry Plan) : ¬ Open trace own found := by
        intro isOpen
        obtain ⟨call, member⟩ := isOpen.member
        exact fresh (run_issuedBelow run member rfl)
      rw [same, prepares, ← registered]
      by_cases isOwn : handle = own
      · have before : state.shared.prepared.lookup own = none :=
          Option.eq_none_iff_forall_ne_some.mpr
            (fun found isFound => absent found ((registered own found).mp isFound))
        rw [isOwn, lookup_emplace_absent before, before]
        simp
      · rw [lookup_emplace_ne isOwn]
        simp [Ne.symm isOwn]
    · rw [same, closes]
      by_cases isOwn : handle = own
      · rw [isOwn, AList.lookup_erase]
        simp
      · rw [AList.lookup_erase_ne isOwn, registered]
        simp [Ne.symm isOwn]
    · rw [same, registered]
      simp [notPrepare, notClose]

/-- A call executes the plan that it has found. -/
theorem run_executes (run : Run (system setting Call) trace state) {call : Call} {handle : String}
    {entry : PreparedStatementEntry Plan} {plan : Plan} {outcome : Option Result}
    (found : (call, .find handle (some entry)) ∈ trace) (executed : (call, .execute plan outcome) ∈ trace) :
    plan = entry.physical := by
  obtain ⟨after, before, rfl⟩ := List.append_of_mem executed
  obtain ⟨left, right, prior, step⟩ := run.split rfl
  have told := run_told prior call
  rw [moves_execute step.moved] at told
  rcases List.mem_append.mp found with later | member
  · -- a call looks its handle up before it executes anything
    obtain ⟨last, middle, rfl⟩ := List.append_of_mem later
    obtain ⟨left, right, prior, step⟩ := run.split
      (@List.append_assoc _ last ((call, .find handle (some entry)) :: middle) _)
    have untold := run_told prior call
    rw [moves_find step.moved] at untold
    obtain ⟨request, isReceive⟩ := untold _ (List.mem_append_right _ (List.mem_cons_self ..))
    cases isReceive
  · rcases List.mem_cons.mp member with same | earlier
    · cases same
    · exact told handle entry earlier

end Plans

/-! ## Every run -/

section Runs

variable {Call Plan Result : Type} [DecidableEq Plan] [DecidableEq Result] {setting : Setting Plan Result}
  {trace : Trace Call Plan Result} {state : State Call Plan Result}

theorem eq_of_nodup_filterMap {α β : Type} {f : α → Option β} {items : List α}
    (distinct : (items.filterMap f).Nodup) {first second : α} {value : β} (isFirst : first ∈ items)
    (isSecond : second ∈ items) (firstValue : f first = some value) (secondValue : f second = some value) :
    first = second := by
  induction items with
  | nil => cases isFirst
  | cons item items hypothesis =>
    have absent (found : f item = some value) {other : α} (member : other ∈ items) : f other ≠ some value := by
      intro same
      rw [List.filterMap_cons_some found] at distinct
      exact (List.nodup_cons.mp distinct).1 (List.mem_filterMap.mpr ⟨other, member, same⟩)
    rcases List.mem_cons.mp isFirst with rfl | isFirst <;> rcases List.mem_cons.mp isSecond with rfl | isSecond
    · rfl
    · exact absurd secondValue (absent firstValue isSecond)
    · exact absurd firstValue (absent secondValue (by assumption))
    · refine hypothesis ?_ isFirst isSecond
      cases found : f item with
      | none => exact (List.filterMap_cons_none found) ▸ distinct
      | some value => exact (List.nodup_cons.mp ((List.filterMap_cons_some found) ▸ distinct)).2

/-- A handle is published by one call only. -/
theorem run_publisher (run : Run (system setting Call) trace state) (few : draws trace ≤ 2 ^ 64)
    {first second : Call} {handle : String} {firstResult secondResult : Result}
    (isFirst : (first, .publish handle firstResult) ∈ trace)
    (isSecond : (second, .publish handle secondResult) ∈ trace) :
    first = second ∧ firstResult = secondResult := by
  have same := eq_of_nodup_filterMap (run_issuedHandles run few) isFirst isSecond rfl rfl
  cases same
  exact ⟨rfl, rfl⟩

/-- After a fetch that finds a result, fetches of the same handle find nothing. -/
theorem run_fetch_once (run : Run (system setting Call) trace state) (few : draws trace ≤ 2 ^ 64)
    {after before : Trace Call Plan Result} {first second : Call} {handle : String} {result : Result}
    {outcome : Option Result} (parts : trace = after ++ (first, .fetch handle (some result)) :: before)
    (later : (second, .fetch handle outcome) ∈ after) : outcome = none := by
  obtain ⟨last, middle, rfl⟩ := List.append_of_mem later
  rw [List.append_assoc, List.cons_append] at parts
  obtain ⟨left, prior, stored⟩ := run_fetched run parts
  rw [parts] at few
  have fewer := draws_le_append last ((second, .fetch handle outcome) ::
    (middle ++ (first, .fetch handle (some result)) :: before))
  have member : (first, .fetch handle (some result)) ∈ middle ++ (first, .fetch handle (some result)) :: before :=
    List.mem_append_right _ (List.mem_cons_self ..)
  rw [← stored]
  exact run_consumed prior (Nat.le_trans (draws_le_cons _ _) (Nat.le_trans fewer few)) member

theorem run_fetcher (run : Run (system setting Call) trace state) (few : draws trace ≤ 2 ^ 64)
    {first second : Call} {handle : String} {firstResult secondResult : Result}
    (isFirst : (first, .fetch handle (some firstResult)) ∈ trace)
    (isSecond : (second, .fetch handle (some secondResult)) ∈ trace) : first = second := by
  obtain ⟨after, before, rfl⟩ := List.append_of_mem isFirst
  rcases List.mem_append.mp isSecond with later | member
  · cases run_fetch_once run few rfl later
  · rcases List.mem_cons.mp member with same | earlier
    · exact (congrArg Prod.fst same).symm
    · obtain ⟨middle, start, rfl⟩ := List.append_of_mem earlier
      have parts := (@List.append_assoc _ after
        ((first, .fetch handle (some firstResult)) :: middle)
        ((second, .fetch handle (some secondResult)) :: start)).symm
      cases run_fetch_once run few parts (List.mem_append_right _ (List.mem_cons_self ..))

/-- After a delivery nothing is found under the handle, and nothing more is delivered. -/
theorem run_deliver_once (run : Run (system setting Call) trace state) (few : draws trace ≤ 2 ^ 64)
    {after before : Trace Call Plan Result} {call other : Call} {handle : String} {result result' : Result}
    (parts : trace = after ++ (call, .deliver handle result) :: before) :
    (∀ outcome, (other, .fetch handle outcome) ∈ after → outcome = none) ∧
      (other, .deliver handle result') ∉ after := by
  obtain ⟨_, _, _, fetched⟩ := run_delivered run parts
  obtain ⟨middle, earlier, rfl⟩ := List.append_of_mem fetched
  have fetchParts : trace = (after ++ (call, .deliver handle result) :: middle) ++
      (call, .fetch handle (some result)) :: earlier := by
    rw [parts, List.append_assoc, List.cons_append]
  refine ⟨fun outcome later => run_fetch_once run few fetchParts (List.mem_append_left _ later), fun again => ?_⟩
  obtain ⟨last, between, rfl⟩ := List.append_of_mem again
  have againParts : trace = last ++ (other, .deliver handle result') ::
      (between ++ (call, .deliver handle result) :: (middle ++ (call, .fetch handle (some result)) :: earlier)) := by
    rw [parts, List.append_assoc, List.cons_append]
  obtain ⟨left, prior, streaming, refetched⟩ := run_delivered run againParts
  have ended := run_ended prior (List.mem_append_right _ (List.mem_cons_self ..))
  rw [againParts] at few
  have fewer := Nat.le_trans (Nat.le_trans (draws_le_cons _ _) (draws_le_append last _)) few
  have same := run_fetcher prior fewer refetched (List.mem_append_right _ (List.mem_cons_of_mem _
    (List.mem_append_right _ (List.mem_cons_self ..))))
  rw [same, ended] at streaming
  cases streaming

/-- What a call delivers was fetched by that call under its handle, published before by a call under the same
handle and yielded before that by that call's execution. A call executes the plan it has found. As long as
the counter has not wrapped, no handle is given out twice, a handle is published by one call only and
delivered once, and a prepared handle is found exactly where it is open, with the plan it was created with. -/
theorem results_delivered_once (run : Run (system setting Call) trace state) :
    (∀ call handle result, (call, .deliver handle result) ∈ trace →
        ∃ publisher plan, [(call, .deliver handle result), (call, .fetch handle (some result)),
          (publisher, .publish handle result), (publisher, .execute plan (some result))].Sublist trace) ∧
      (∀ call handle entry plan outcome, (call, .find handle (some entry)) ∈ trace →
        (call, .execute plan outcome) ∈ trace → plan = entry.physical) ∧
      (draws trace ≤ 2 ^ 64 →
        (issuedHandles trace).Nodup ∧
        (∀ first second handle firstResult secondResult, (first, .publish handle firstResult) ∈ trace →
          (second, .publish handle secondResult) ∈ trace → first = second ∧ firstResult = secondResult) ∧
        (∀ after before call handle result, trace = after ++ (call, .deliver handle result) :: before →
          ∀ other result', (∀ outcome, (other, .fetch handle outcome) ∈ after → outcome = none) ∧
            (other, .deliver handle result') ∉ after) ∧
        ∀ after before call handle outcome, trace = after ++ (call, .find handle outcome) :: before →
          ∀ entry, outcome = some entry ↔ Open before handle entry) := by
  refine ⟨fun call handle result delivered => ?_, fun call handle entry plan outcome => run_executes run,
    fun few => ⟨run_issuedHandles run few, fun first second handle firstResult secondResult =>
      run_publisher run few, fun after before call handle result parts other result' =>
      run_deliver_once run few parts, fun after before call handle outcome parts entry => ?_⟩⟩
  · obtain ⟨after, before, rfl⟩ := List.append_of_mem delivered
    obtain ⟨left, prior, _, fetched⟩ := run_delivered run rfl
    obtain ⟨publisher, plan, inOrder⟩ := run_fetched_published prior fetched
    exact ⟨publisher, plan, (inOrder.cons_cons _).trans (List.sublist_append_right _ _)⟩
  · obtain ⟨left, right, prior, step⟩ := run.split parts
    have acted := step.acted
    simp only [program, effect, Option.ite_none_right_eq_some] at acted
    rw [parts] at few
    have fewer := Nat.le_trans (Nat.le_trans (draws_le_cons _ _) (draws_le_append after _)) few
    rw [← acted.1]
    exact run_prepared prior fewer

end Runs

/-- A result is fetched once and delivered. -/
theorem results_delivered_once_delivered :
    (∃ publisher plan, [(false, .deliver (resultHandle 0) 8), (false, .fetch (resultHandle 0) (some 8)),
        (publisher, .publish (resultHandle 0) 8), (publisher, .execute plan (some 8))].Sublist
        deliveredTrace) ∧
      (issuedHandles deliveredTrace).Nodup := by
  obtain ⟨state, run⟩ := run_deliveredTrace
  obtain ⟨delivered, _, unique⟩ := results_delivered_once run
  exact ⟨delivered false (resultHandle 0) 8 (List.mem_cons_self ..), (unique (by decide)).1⟩

end KernelLake.FlightSqlHandles
