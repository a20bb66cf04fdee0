import KernelLake.Library.Interleavings
import KernelLake.Library.Results
import Mathlib.Data.Int.CardIntervalMod
import Mathlib.Data.List.Sort

/-!
The devices that queries run on, and how many run on each at once.

The server keeps one semaphore for each of its devices. A call takes the next device in turn, waits for a permit
of it and gives the permit back when its query is over, also where the query raises. Any number of calls run at
once, one action at a time.
-/

namespace KernelLake.GpuDispatch

open KernelLake.Library.Interleavings KernelLake.Library.Results

/-! ## Configuration -/

/-- What the configuration of the server says about devices. -/
structure ServerConfig where
  maxConcurrentGpuQueries : Int
  gpuDeviceIds : List Int

def hasAdjacentEqual : List Int → Bool
  | first :: second :: rest => first == second || hasAdjacentEqual (second :: rest)
  | _ => false

/-- The checks that need no device. -/
def validateServerConfig (config : ServerConfig) : Except String Unit :=
  if config.maxConcurrentGpuQueries ≤ 0 then
    .error ("engine.max_concurrent_gpu_queries must be > 0, got " ++ toString config.maxConcurrentGpuQueries)
  else
    match config.gpuDeviceIds.find? (· < 0) with
    | some deviceId => .error ("engine.gpu_device_ids entries must be >= 0, got " ++ toString deviceId)
    | none =>
      if hasAdjacentEqual (config.gpuDeviceIds.insertionSort (· ≤ ·)) then
        .error "engine.gpu_device_ids must not contain duplicate entries"
      else .ok ()

def noDeviceMessage : String :=
  "server.engine.backend 'gpu' requires at least one visible CUDA device, but " ++
    "cudaGetDeviceCount() reported none"

def unknownDeviceMessage (deviceId realDeviceCount : Int) : String :=
  "engine.gpu_device_ids names device " ++ toString deviceId ++ ", but cudaGetDeviceCount() reports only " ++
    toString realDeviceCount ++ " visible device(s) (valid range: 0-" ++ toString (realDeviceCount - 1) ++ ")"

/-- The devices of the server: those it names, or all that are visible. -/
def deviceIds (config : ServerConfig) (realDeviceCount : Int) : Except String (List Int) :=
  if realDeviceCount ≤ 0 then .error noDeviceMessage
  else if config.gpuDeviceIds.isEmpty then
    .ok ((List.range realDeviceCount.toNat).map Int.ofNat)
  else
    match config.gpuDeviceIds.find? (realDeviceCount ≤ ·) with
    | some deviceId => .error (unknownDeviceMessage deviceId realDeviceCount)
    | none => .ok config.gpuDeviceIds

theorem deviceIds_ne_nil {config : ServerConfig} {realDeviceCount : Int} {devices : List Int}
    (made : deviceIds config realDeviceCount = .ok devices) : devices ≠ [] := by
  unfold deviceIds at made
  split at made
  · cases made
  · rename_i visible
    split at made
    · obtain rfl := Except.ok.inj made
      simp only [ne_eq, List.map_eq_nil_iff, List.range_eq_nil]
      omega
    · rename_i named
      split at made
      · cases made
      · obtain rfl := Except.ok.inj made
        exact fun isNil => named (isNil ▸ rfl)

theorem nodup_of_sorted : {ids : List Int} → ids.Pairwise (· ≤ ·) → hasAdjacentEqual ids = false → ids.Nodup
  | [], _, _ => List.nodup_nil
  | [_], _, _ => List.nodup_singleton _
  | first :: second :: rest, sorted, distinct => by
    simp only [hasAdjacentEqual, Bool.or_eq_false_iff, beq_eq_false_iff_ne] at distinct
    obtain ⟨least, sortedRest⟩ := List.pairwise_cons.mp sorted
    refine List.nodup_cons.mpr ⟨fun member => ?_, nodup_of_sorted sortedRest distinct.2⟩
    -- A repetition further on would be squeezed in between.
    rcases List.mem_cons.mp member with same | later
    · exact distinct.1 same
    · have below := (List.pairwise_cons.mp sortedRest).1 first later
      exact distinct.1 (le_antisymm (least second (List.mem_cons_self ..)) below)

/-- What the checks establish. -/
theorem validateServerConfig_ok {config : ServerConfig} (valid : validateServerConfig config = .ok ()) :
    0 < config.maxConcurrentGpuQueries ∧ (∀ deviceId ∈ config.gpuDeviceIds, 0 ≤ deviceId) ∧
      config.gpuDeviceIds.Nodup := by
  unfold validateServerConfig at valid
  split at valid
  · cases valid
  · rename_i positive
    split at valid
    · cases valid
    · rename_i noneNegative
      split at valid
      · cases valid
      · rename_i distinct
        refine ⟨by omega, fun deviceId member => ?_, ?_⟩
        · simpa using List.find?_eq_none.mp noneNegative deviceId member
        · have sorted := List.pairwise_insertionSort (· ≤ ·) config.gpuDeviceIds
          exact (List.perm_insertionSort (· ≤ ·) config.gpuDeviceIds).nodup_iff.mp
            (nodup_of_sorted sorted (by simpa using distinct))

/-- The devices of a valid configuration are visible, and none is listed twice. -/
theorem deviceIds_valid {config : ServerConfig} {realDeviceCount : Int} {devices : List Int}
    (valid : validateServerConfig config = .ok ()) (made : deviceIds config realDeviceCount = .ok devices) :
    devices.Nodup ∧ ∀ deviceId ∈ devices, 0 ≤ deviceId ∧ deviceId < realDeviceCount := by
  obtain ⟨_, nonnegative, nodup⟩ := validateServerConfig_ok valid
  unfold deviceIds at made
  split at made
  · cases made
  · split at made
    · obtain rfl := Except.ok.inj made
      refine ⟨List.nodup_range.map (fun _ _ same => Int.ofNat.inj same), fun deviceId member => ?_⟩
      obtain ⟨number, below, rfl⟩ := List.mem_map.mp member
      have := List.mem_range.mp below
      simp only [Int.ofNat_eq_natCast]
      omega
    · split at made
      · cases made
      · rename_i noneBeyond
        obtain rfl := Except.ok.inj made
        refine ⟨nodup, fun deviceId member => ⟨nonnegative deviceId member, ?_⟩⟩
        simpa using List.find?_eq_none.mp noneBeyond deviceId member

/-! ## Calls -/

/-- The devices of a server and the number of permits of each. -/
structure GpuExecutionCoordinator where
  devices : List Int
  maxConcurrentGpuQueries : Nat
  nonempty : devices ≠ []

/-- The constructor. -/
def GpuExecutionCoordinator.make (config : ServerConfig) (realDeviceCount : Int) :
    Except String GpuExecutionCoordinator :=
  match made : deviceIds config realDeviceCount with
  | .error message => .error message
  | .ok devices => .ok ⟨devices, config.maxConcurrentGpuQueries.toNat, deviceIds_ne_nil made⟩

theorem make_ok {config : ServerConfig} {realDeviceCount : Int} {coordinator : GpuExecutionCoordinator}
    (made : GpuExecutionCoordinator.make config realDeviceCount = .ok coordinator) :
    deviceIds config realDeviceCount = .ok coordinator.devices ∧
      coordinator.maxConcurrentGpuQueries = config.maxConcurrentGpuQueries.toNat := by
  unfold GpuExecutionCoordinator.make at made
  split at made
  · cases made
  · rename_i devices isDevices
    obtain rfl := Except.ok.inj made
    exact ⟨isDevices, rfl⟩

section Calls

variable (coordinator : GpuExecutionCoordinator)

/-- A device by its place in the list. -/
abbrev DeviceIndex := Fin coordinator.devices.length

/-- The device that a ticket stands for. -/
def deviceIndex (ticket : UInt64) : DeviceIndex coordinator :=
  ⟨ticket.toNat % coordinator.devices.length, Nat.mod_lt _ (List.length_pos_of_ne_nil coordinator.nonempty)⟩

@[simp] theorem deviceIndex_val (ticket : UInt64) :
    (deviceIndex coordinator ticket).val = ticket.toNat % coordinator.devices.length := rfl

/-- The counter that the devices are taken from in turn, and the permits left of each. -/
structure Shared where
  nextDevice : UInt64
  executeSemaphores : DeviceIndex coordinator → Nat

inductive Phase
  | idle
  | acquiring (device : DeviceIndex coordinator)
  | executing (device : DeviceIndex coordinator)

/-- A query that is over has returned or raised. -/
inductive Action
  | dispatch (device : DeviceIndex coordinator)
  | acquire (device : DeviceIndex coordinator)
  | release (device : DeviceIndex coordinator) (raised : Bool)

inductive Moves : Phase coordinator → Action coordinator → Phase coordinator → Prop
  | dispatch {device : DeviceIndex coordinator} : Moves .idle (.dispatch device) (.acquiring device)
  | acquire {device : DeviceIndex coordinator} : Moves (.acquiring device) (.acquire device) (.executing device)
  | release {device : DeviceIndex coordinator} {raised : Bool} :
      Moves (.executing device) (.release device raised) .idle

def effect (action : Action coordinator) (shared : Shared coordinator) : Option (Shared coordinator) :=
  match action with
  | .dispatch device =>
    if device = deviceIndex coordinator shared.nextDevice then
      some { shared with nextDevice := shared.nextDevice + 1 }
    else none
  | .acquire device =>
    if 0 < shared.executeSemaphores device then
      some { shared with
        executeSemaphores := Function.update shared.executeSemaphores device (shared.executeSemaphores device - 1) }
    else none
  | .release device _ =>
    some { shared with
      executeSemaphores := Function.update shared.executeSemaphores device (shared.executeSemaphores device + 1) }

/-- `execute`, which any number of threads call any number of times. -/
def executeProgram (Call : Type) : Program Call (Phase coordinator) (Action coordinator) (Shared coordinator) where
  initial shared := shared = ⟨0, fun _ => coordinator.maxConcurrentGpuQueries⟩
  idle := .idle
  moves := Moves coordinator
  effect _ := effect coordinator

end Calls

/-! ## Permits -/

section Permits

variable {coordinator : GpuExecutionCoordinator} {Call : Type}

/-- Each permit of a device is free or with a call that runs there. -/
def PermitsKept (state : Threads Call (Phase coordinator) (Shared coordinator)) : Prop :=
  ∀ device, ∃ running, Counts running (fun call => state.phases call = .executing device) ∧
    running + state.shared.executeSemaphores device = coordinator.maxConcurrentGpuQueries

theorem permitsKept_step {state state' : Threads Call (Phase coordinator) (Shared coordinator)} {call : Call}
    {action : Action coordinator} (kept : PermitsKept state)
    (step : Step (executeProgram coordinator Call) state call action state') : PermitsKept state' := by
  intro device
  obtain ⟨running, counts, total⟩ := kept device
  have others (other : Call) (isOther : other ≠ call) :
      state'.phases other = .executing device ↔ state.phases other = .executing device := by
    rw [step.others other isOther]
  have same (neither : state.phases call ≠ .executing device) (nor : state'.phases call ≠ .executing device)
      (other : Call) : state'.phases other = .executing device ↔ state.phases other = .executing device := by
    by_cases isCall : other = call
    · rw [isCall]
      exact ⟨fun now => absurd now nor, fun before => absurd before neither⟩
    · exact others other isCall
  have moved := step.moved
  have acted := step.acted
  generalize isBefore : state.phases call = before at moved
  generalize isAfter : state'.phases call = after at moved
  cases moved with
  | dispatch =>
    simp only [executeProgram, effect, Option.ite_none_right_eq_some, Option.some.injEq] at acted
    refine ⟨running, counts.congr (same ?_ ?_), ?_⟩
    · rw [isBefore]; exact fun wrong => by cases wrong
    · rw [isAfter]; exact fun wrong => by cases wrong
    · rw [← acted.2]
      exact total
  | @acquire acquired =>
    simp only [executeProgram, effect, Option.ite_none_right_eq_some, Option.some.injEq] at acted
    by_cases isDevice : acquired = device
    · obtain rfl := isDevice
      refine ⟨running + 1, counts.enter ?_ isAfter others, ?_⟩
      · rw [isBefore]; exact fun wrong => by cases wrong
      · rw [← acted.2]
        simp only [Function.update_self]
        omega
    · refine ⟨running, counts.congr (same ?_ ?_), ?_⟩
      · rw [isBefore]; exact fun wrong => by cases wrong
      · rw [isAfter]; exact fun wrong => isDevice (Phase.executing.inj wrong)
      · rw [← acted.2]
        simp only [Function.update_of_ne (Ne.symm isDevice)]
        exact total
  | @release released raised =>
    simp only [executeProgram, effect, Option.some.injEq] at acted
    by_cases isDevice : released = device
    · obtain rfl := isDevice
      obtain ⟨positive, counts'⟩ := counts.leave isBefore
        (by rw [isAfter]; exact fun wrong => by cases wrong) others
      refine ⟨running - 1, counts', ?_⟩
      rw [← acted]
      simp only [Function.update_self]
      omega
    · refine ⟨running, counts.congr (same ?_ ?_), ?_⟩
      · rw [isBefore]; exact fun wrong => isDevice (Phase.executing.inj wrong)
      · rw [isAfter]; exact fun wrong => by cases wrong
      · rw [← acted]
        simp only [Function.update_of_ne (Ne.symm isDevice)]
        exact total

theorem permitsKept_reachable {state : Threads Call (Phase coordinator) (Shared coordinator)}
    (reachable : Reachable (executeProgram coordinator Call).system state) : PermitsKept state := by
  refine reachable.invariant (fun state initial device => ⟨0, ?_, ?_⟩)
    (fun _ _ _ kept step => permitsKept_step kept step)
  · refine counts_none (fun call => ?_)
    rw [initial.2 call]
    exact fun wrong => by cases wrong
  · rw [initial.1, Nat.zero_add]

/-- Where a call waits for a device without a permit, another call runs on that device; so some busy call can
act. -/
theorem exists_step [DecidableEq Call] {state : Threads Call (Phase coordinator) (Shared coordinator)}
    (kept : PermitsKept state) (positive : 0 < coordinator.maxConcurrentGpuQueries) {call : Call}
    (busy : state.phases call ≠ .idle) :
    ∃ other action state', state.phases other ≠ .idle ∧
      Step (executeProgram coordinator Call) state other action state' := by
  have finishes {other : Call} {device : DeviceIndex coordinator}
      (running : state.phases other = .executing device) :
      ∃ other action state', state.phases other ≠ .idle ∧
        Step (executeProgram coordinator Call) state other action state' := by
    have moved : Moves coordinator (state.phases other) (.release device false) .idle := running ▸ .release
    refine ⟨other, .release device false, _, ?_, step_of_move moved rfl⟩
    rw [running]
    exact fun wrong => by cases wrong
  cases isPhase : state.phases call with
  | idle => exact absurd isPhase busy
  | executing device => exact finishes isPhase
  | acquiring device =>
    by_cases permit : 0 < state.shared.executeSemaphores device
    · have moved : Moves coordinator (state.phases call) (.acquire device) (.executing device) :=
        isPhase ▸ .acquire
      exact ⟨call, .acquire device, _, busy, step_of_move moved (if_pos permit)⟩
    · obtain ⟨running, ⟨members, size, member⟩, total⟩ := kept device
      obtain ⟨other, isMember⟩ := Finset.card_pos.mp (by omega : 0 < members.card)
      exact finishes ((member other).mp isMember)

end Permits

/-! ## Turns -/

section Turns

variable {coordinator : GpuExecutionCoordinator} {Call : Type}

/-- The devices that calls were given, the latest first. -/
def dispatched (trace : List (Call × Action coordinator)) : List (DeviceIndex coordinator) :=
  trace.filterMap (fun label => match label.2 with
    | .dispatch device => some device
    | _ => none)

/-- Devices are handed out by the number of calls before, as a 64-bit counter has it. -/
theorem dispatched_run {trace : List (Call × Action coordinator)}
    {state : Threads Call (Phase coordinator) (Shared coordinator)}
    (run : Run (executeProgram coordinator Call).system trace state) :
    state.shared.nextDevice = UInt64.ofNat (dispatched trace).length ∧
      (dispatched trace).reverse =
        (List.range (dispatched trace).length).map (fun turn => deviceIndex coordinator (UInt64.ofNat turn)) := by
  induction run with
  | start initial =>
    rw [initial.1]
    exact ⟨rfl, rfl⟩
  | @next trace state state' label _ step hypothesis =>
    obtain ⟨isNext, inTurn⟩ := hypothesis
    obtain ⟨call, action⟩ := label
    have acted := step.acted
    cases action with
    | dispatch device =>
      simp only [executeProgram, effect, Option.ite_none_right_eq_some, Option.some.injEq] at acted
      obtain ⟨isDevice, isShared⟩ := acted
      have isCons : dispatched ((call, Action.dispatch device) :: trace) = device :: dispatched trace := rfl
      rw [isCons, List.length_cons, List.reverse_cons, List.range_succ, List.map_append, ← inTurn,
        List.map_singleton, isDevice, isNext, ← isShared, isNext]
      refine ⟨?_, rfl⟩
      simp [UInt64.ofNat_add]
    | acquire device =>
      simp only [executeProgram, effect, Option.ite_none_right_eq_some, Option.some.injEq] at acted
      rw [← acted.2]
      exact ⟨isNext, inTurn⟩
    | release device raised =>
      simp only [executeProgram, effect, Option.some.injEq] at acted
      rw [← acted]
      exact ⟨isNext, inTurn⟩

/-- How often a device comes up among so many turns. -/
theorem count_turns (turns : Nat) (fits : turns ≤ 2 ^ 64) (device : DeviceIndex coordinator) :
    ((List.range turns).map (fun turn => deviceIndex coordinator (UInt64.ofNat turn))).count device =
      turns / coordinator.devices.length + if device.val < turns % coordinator.devices.length then 1 else 0 := by
  have positive := List.length_pos_of_ne_nil coordinator.nonempty
  have counted : ((List.range turns).map (fun turn => deviceIndex coordinator (UInt64.ofNat turn))).count device =
      Nat.count (· ≡ device.val [MOD coordinator.devices.length]) turns := by
    rw [List.count, List.countP_map, Nat.count]
    refine List.countP_congr (fun turn member => ?_)
    have isTurn : (UInt64.ofNat turn).toNat = turn := by
      rw [UInt64.toNat_ofNat']
      exact Nat.mod_eq_of_lt (by have := List.mem_range.mp member; omega)
    rw [Function.comp_apply, beq_iff_eq, decide_eq_true_iff, Fin.ext_iff, deviceIndex_val, isTurn, Nat.ModEq,
      Nat.mod_eq_of_lt device.isLt]
  rw [counted, Nat.count_modEq_card _ positive, Nat.mod_eq_of_lt device.isLt]

/-- At most as many queries run on a device as it has permits, whatever the order of calls and however their
queries end; no permit is lost, no call waits where no other can go on, and the devices take turns. -/
theorem dispatch_safe {config : ServerConfig} {realDeviceCount : Int} (Call : Type) [DecidableEq Call]
    (valid : validateServerConfig config = .ok ())
    (made : GpuExecutionCoordinator.make config realDeviceCount = .ok coordinator)
    {trace : List (Call × Action coordinator)} {state : Threads Call (Phase coordinator) (Shared coordinator)}
    (run : Run (executeProgram coordinator Call).system trace state) :
    (coordinator.devices.Nodup ∧ ∀ deviceId ∈ coordinator.devices, 0 ≤ deviceId ∧ deviceId < realDeviceCount) ∧
    (∀ device, ∃ running : Finset Call,
      (∀ call, call ∈ running ↔ state.phases call = .executing device) ∧
      (running.card + state.shared.executeSemaphores device : Int) = config.maxConcurrentGpuQueries) ∧
    (∀ call, state.phases call ≠ .idle → ∃ other action state', state.phases other ≠ .idle ∧
      Step (executeProgram coordinator Call) state other action state') ∧
    ((dispatched trace).length ≤ 2 ^ 64 → ∀ device, (dispatched trace).count device =
      (dispatched trace).length / coordinator.devices.length +
        if device.val < (dispatched trace).length % coordinator.devices.length then 1 else 0) := by
  obtain ⟨positive, _, _⟩ := validateServerConfig_ok valid
  obtain ⟨madeDevices, isPermits⟩ := make_ok made
  have kept := permitsKept_reachable ⟨trace, run⟩
  refine ⟨deviceIds_valid valid madeDevices, fun device => ?_, fun call busy => ?_, fun fits device => ?_⟩
  · obtain ⟨running, ⟨members, size, member⟩, total⟩ := kept device
    refine ⟨members, member, ?_⟩
    rw [isPermits] at total
    omega
  · exact exists_step kept (by omega) busy
  · rw [← count_turns _ fits device, ← (dispatched_run run).2, List.count_reverse]

/-- Two devices, each with a permit. -/
def twoDevices : ServerConfig := ⟨1, [3, 1]⟩

def twoDeviceCoordinator : GpuExecutionCoordinator := ⟨[3, 1], 1, by decide⟩

/-- Two calls are dispatched, and the first of them runs. -/
theorem dispatch_safe_two :
    ∃ (trace : List (Bool × Action twoDeviceCoordinator))
      (state : Threads Bool (Phase twoDeviceCoordinator) (Shared twoDeviceCoordinator)),
      Run (executeProgram twoDeviceCoordinator Bool).system trace state ∧
        state.phases true = .executing (deviceIndex _ 0) ∧ (dispatched trace).count (deviceIndex _ 1) = 1 := by
  have start : Run (executeProgram twoDeviceCoordinator Bool).system [] ⟨⟨0, fun _ => 1⟩, fun _ => .idle⟩ :=
    .start ⟨rfl, fun _ => rfl⟩
  have idle : Run (executeProgram twoDeviceCoordinator Bool).system _ _ := run_focus start true rfl
  have first : Run (executeProgram twoDeviceCoordinator Bool).system _ _ :=
    run_update idle (@Moves.dispatch _ (deviceIndex _ 0)) rfl
  have waiting : Run (executeProgram twoDeviceCoordinator Bool).system _ _ := run_focus first false rfl
  have second : Run (executeProgram twoDeviceCoordinator Bool).system _ _ :=
    run_update waiting (@Moves.dispatch _ (deviceIndex _ 1)) rfl
  have next : Run (executeProgram twoDeviceCoordinator Bool).system _ _ := run_focus second true rfl
  have acquired : Run (executeProgram twoDeviceCoordinator Bool).system _ _ :=
    run_update next (@Moves.acquire _ (deviceIndex _ 0)) rfl
  have safe := @dispatch_safe twoDeviceCoordinator twoDevices 4 Bool _ (by decide) (by rfl) _ _ acquired
  exact ⟨_, _, acquired, by simp, safe.2.2.2 (by decide) (deviceIndex _ 1)⟩

end Turns

end KernelLake.GpuDispatch
