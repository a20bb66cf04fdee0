import KernelLake.Library.Interleavings

/-!
The counters of device memory.

Every allocation and every deallocation of a device is counted, and so is every allocation that fails. The
counters are atomic variables without a lock. Each atomic operation is one action here, and the operations of
any number of blocks interleave in any order. A load may return a value that its variable had before.
-/

namespace KernelLake.GpuMemoryMetrics

open KernelLake.Library.Interleavings

/-! ## Counters -/

def kMaxTrackedGpuDevices : Nat := 16

/-- The counters of one device. -/
structure DeviceState where
  active : Bool
  currentBytes : UInt64
  peakBytes : UInt64
  allocations : UInt64
  deallocations : UInt64
  allocatedTotalBytes : UInt64
  allocationFailures : UInt64

def DeviceState.initial : DeviceState := ⟨false, 0, 0, 0, 0, 0, 0⟩

abbrev Slot := Fin kMaxTrackedGpuDevices

abbrev Devices := Slot → DeviceState

/-- The place of a device among those that are tracked. -/
def inRange (deviceId : Int) : Option Slot :=
  if fits : 0 ≤ deviceId ∧ deviceId < kMaxTrackedGpuDevices then some ⟨deviceId.toNat, by omega⟩ else none

/-! ## Blocks -/

/-- Where a block of memory is, from the request for it to its end. From `activating` to `comparing` its
allocation is being recorded. -/
inductive Phase
  | idle
  | requesting (deviceId : Int) (bytes : UInt64)
  | activating (slot : Slot) (bytes : UInt64)
  | counting (slot : Slot) (bytes : UInt64)
  | totalling (slot : Slot) (bytes : UInt64)
  | adding (slot : Slot) (bytes : UInt64)
  | loading (slot : Slot) (bytes current : UInt64)
  | comparing (slot : Slot) (bytes current peak : UInt64)
  | live (slot : Option Slot) (bytes : UInt64)
  | uncounting (slot : Slot) (bytes : UInt64)
  | subtracting (slot : Slot) (bytes : UInt64)
  | freed (slot : Option Slot) (bytes : UInt64)
  | failing (slot : Slot)
  | countingFailure (slot : Slot)
  | failed (slot : Option Slot)

inductive Action
  | request (deviceId : Int) (bytes : UInt64)
  | allocate
  | fail
  | activate (slot : Slot)
  | countAllocation (slot : Slot)
  | addTotal (slot : Slot) (bytes : UInt64)
  | addCurrent (slot : Slot) (bytes current : UInt64)
  | loadPeak (slot : Slot) (peak : UInt64)
  | keepPeak
  | exchange (slot : Slot) (peak current : UInt64)
  | missExchange (slot : Slot) (peak : UInt64)
  | deallocate
  | countDeallocation (slot : Slot)
  | subtractCurrent (slot : Slot) (bytes : UInt64)
  | countFailure (slot : Slot)

/-- The moves of a block. What the resource below says to a request is left to it; a device that is not
tracked is not recorded. -/
inductive Moves : Phase → Action → Phase → Prop
  | request {deviceId : Int} {bytes : UInt64} : Moves .idle (.request deviceId bytes) (.requesting deviceId bytes)
  | allocate {deviceId : Int} {bytes : UInt64} {slot : Slot} (tracked : inRange deviceId = some slot) :
      Moves (.requesting deviceId bytes) .allocate (.activating slot bytes)
  | allocateUntracked {deviceId : Int} {bytes : UInt64} (untracked : inRange deviceId = none) :
      Moves (.requesting deviceId bytes) .allocate (.live none bytes)
  | activate {slot : Slot} {bytes : UInt64} :
      Moves (.activating slot bytes) (.activate slot) (.counting slot bytes)
  | countAllocation {slot : Slot} {bytes : UInt64} :
      Moves (.counting slot bytes) (.countAllocation slot) (.totalling slot bytes)
  | addTotal {slot : Slot} {bytes : UInt64} :
      Moves (.totalling slot bytes) (.addTotal slot bytes) (.adding slot bytes)
  | addCurrent {slot : Slot} {bytes current : UInt64} :
      Moves (.adding slot bytes) (.addCurrent slot bytes current) (.loading slot bytes current)
  | loadPeak {slot : Slot} {bytes current peak : UInt64} :
      Moves (.loading slot bytes current) (.loadPeak slot peak) (.comparing slot bytes current peak)
  | keepPeak {slot : Slot} {bytes current peak : UInt64} (reached : ¬ current > peak) :
      Moves (.comparing slot bytes current peak) .keepPeak (.live (some slot) bytes)
  | exchange {slot : Slot} {bytes current peak : UInt64} (above : current > peak) :
      Moves (.comparing slot bytes current peak) (.exchange slot peak current) (.live (some slot) bytes)
  | missExchange {slot : Slot} {bytes current peak seen : UInt64} (above : current > peak) :
      Moves (.comparing slot bytes current peak) (.missExchange slot seen) (.comparing slot bytes current seen)
  | deallocate {slot : Slot} {bytes : UInt64} :
      Moves (.live (some slot) bytes) .deallocate (.uncounting slot bytes)
  | deallocateUntracked {bytes : UInt64} : Moves (.live none bytes) .deallocate (.freed none bytes)
  | countDeallocation {slot : Slot} {bytes : UInt64} :
      Moves (.uncounting slot bytes) (.countDeallocation slot) (.subtracting slot bytes)
  | subtractCurrent {slot : Slot} {bytes : UInt64} :
      Moves (.subtracting slot bytes) (.subtractCurrent slot bytes) (.freed (some slot) bytes)
  | fail {deviceId : Int} {bytes : UInt64} {slot : Slot} (tracked : inRange deviceId = some slot) :
      Moves (.requesting deviceId bytes) .fail (.failing slot)
  | failUntracked {deviceId : Int} {bytes : UInt64} (untracked : inRange deviceId = none) :
      Moves (.requesting deviceId bytes) .fail (.failed none)
  | activateFailing {slot : Slot} : Moves (.failing slot) (.activate slot) (.countingFailure slot)
  | countFailure {slot : Slot} : Moves (.countingFailure slot) (.countFailure slot) (.failed (some slot))

def updateDevice (slot : Slot) (change : DeviceState → DeviceState) (devices : Devices) : Devices :=
  Function.update devices slot (change (devices slot))

/-- What an action does to the counters. A value that they do not bear out makes an action impossible. -/
def effect (action : Action) (devices : Devices) : Option Devices :=
  match action with
  | .activate slot => some (updateDevice slot (fun device => { device with active := true }) devices)
  | .countAllocation slot =>
    some (updateDevice slot (fun device => { device with allocations := device.allocations + 1 }) devices)
  | .addTotal slot bytes =>
    some (updateDevice slot
      (fun device => { device with allocatedTotalBytes := device.allocatedTotalBytes + bytes }) devices)
  | .addCurrent slot bytes current =>
    if current = (devices slot).currentBytes + bytes then
      some (updateDevice slot (fun device => { device with currentBytes := device.currentBytes + bytes }) devices)
    else none
  | .loadPeak slot peak => if peak ≤ (devices slot).peakBytes then some devices else none
  | .exchange slot peak current =>
    if peak = (devices slot).peakBytes then
      some (updateDevice slot (fun device => { device with peakBytes := current }) devices)
    else none
  | .missExchange slot peak => if peak ≤ (devices slot).peakBytes then some devices else none
  | .countDeallocation slot =>
    some (updateDevice slot (fun device => { device with deallocations := device.deallocations + 1 }) devices)
  | .subtractCurrent slot bytes =>
    some (updateDevice slot (fun device => { device with currentBytes := device.currentBytes - bytes }) devices)
  | .countFailure slot =>
    some (updateDevice slot
      (fun device => { device with allocationFailures := device.allocationFailures + 1 }) devices)
  | .request .. => some devices
  | .allocate => some devices
  | .fail => some devices
  | .keepPeak => some devices
  | .deallocate => some devices

/-- The life of every block, from `do_allocate` to `do_deallocate`, from a start without any. -/
def memoryProgram (Block : Type) : Program Block Phase Action Devices where
  initial devices := devices = fun _ => .initial
  idle := .idle
  moves := Moves
  effect _ := effect

/-! ## What the blocks add up to -/

inductive Counter
  | currentBytes
  | allocations
  | deallocations
  | allocatedTotalBytes
  | allocationFailures

/-- A counter as `snapshot` reads it. -/
def DeviceState.read (device : DeviceState) : Counter → UInt64
  | .currentBytes => device.currentBytes
  | .allocations => device.allocations
  | .deallocations => device.deallocations
  | .allocatedTotalBytes => device.allocatedTotalBytes
  | .allocationFailures => device.allocationFailures

/-- The device of a block whose allocation or failure has begun to be recorded. -/
def Phase.slot : Phase → Option Slot
  | .idle => none
  | .requesting .. => none
  | .activating slot _ => some slot
  | .counting slot _ => some slot
  | .totalling slot _ => some slot
  | .adding slot _ => some slot
  | .loading slot _ _ => some slot
  | .comparing slot _ _ _ => some slot
  | .live slot _ => slot
  | .uncounting slot _ => some slot
  | .subtracting slot _ => some slot
  | .freed slot _ => slot
  | .failing slot => some slot
  | .countingFailure slot => some slot
  | .failed slot => slot

/-- What a block has to its account at a counter of its device. -/
def Phase.amount : Counter → Phase → Nat
  | .currentBytes, .loading _ bytes _ => bytes.toNat
  | .currentBytes, .comparing _ bytes _ _ => bytes.toNat
  | .currentBytes, .live _ bytes => bytes.toNat
  | .currentBytes, .uncounting _ bytes => bytes.toNat
  | .currentBytes, .subtracting _ bytes => bytes.toNat
  | .allocations, .totalling .. => 1
  | .allocations, .adding .. => 1
  | .allocations, .loading .. => 1
  | .allocations, .comparing .. => 1
  | .allocations, .live .. => 1
  | .allocations, .uncounting .. => 1
  | .allocations, .subtracting .. => 1
  | .allocations, .freed .. => 1
  | .deallocations, .subtracting .. => 1
  | .deallocations, .freed .. => 1
  | .allocatedTotalBytes, .adding _ bytes => bytes.toNat
  | .allocatedTotalBytes, .loading _ bytes _ => bytes.toNat
  | .allocatedTotalBytes, .comparing _ bytes _ _ => bytes.toNat
  | .allocatedTotalBytes, .live _ bytes => bytes.toNat
  | .allocatedTotalBytes, .uncounting _ bytes => bytes.toNat
  | .allocatedTotalBytes, .subtracting _ bytes => bytes.toNat
  | .allocatedTotalBytes, .freed _ bytes => bytes.toNat
  | .allocationFailures, .failed _ => 1
  | _, _ => 0

/-- The same at the counters of a given device. -/
def Phase.share (slot : Slot) (counter : Counter) (phase : Phase) : Nat :=
  if phase.slot = some slot then phase.amount counter else 0

@[simp] theorem updateDevice_same (slot : Slot) (change : DeviceState → DeviceState) (devices : Devices) :
    updateDevice slot change devices slot = change (devices slot) :=
  Function.update_self ..

theorem updateDevice_other {slot other : Slot} (isOther : other ≠ slot) (change : DeviceState → DeviceState)
    (devices : Devices) : updateDevice slot change devices other = devices other :=
  Function.update_of_ne isOther ..

theorem share_other {slot other : Slot} {phase : Phase} (isOther : other ≠ slot) (there : phase.slot = some slot)
    (counter : Counter) : phase.share other counter = 0 := by
  rw [Phase.share, if_neg (fun same => isOther (Option.some.inj (same.symm.trans there)))]

theorem share_same {slot : Slot} {phase : Phase} (there : phase.slot = some slot) (counter : Counter) :
    phase.share slot counter = phase.amount counter := if_pos there

theorem share_none {phase : Phase} (nowhere : phase.slot = none) (slot : Slot) (counter : Counter) :
    phase.share slot counter = 0 := by
  rw [Phase.share, nowhere]
  exact if_neg (fun wrong => by cases wrong)

theorem counter_update {phase phase' : Phase} {devices : Devices} {place : Slot} {change : DeviceState → DeviceState}
    (before : phase.slot = some place) (after : phase'.slot = some place)
    (changes : ∀ counter, (change (devices place)).read counter + UInt64.ofNat (phase.amount counter) =
      (devices place).read counter + UInt64.ofNat (phase'.amount counter)) (slot : Slot) (counter : Counter) :
    (updateDevice place change devices slot).read counter + UInt64.ofNat (phase.share slot counter) =
      (devices slot).read counter + UInt64.ofNat (phase'.share slot counter) := by
  by_cases same : slot = place
  · obtain rfl := same
    rw [updateDevice_same, share_same before, share_same after]
    exact changes counter
  · rw [updateDevice_other same, share_other same before, share_other same after]

/-- An action changes a counter by as much as the block's share in it changes. -/
theorem counter_step {phase phase' : Phase} {action : Action} {devices devices' : Devices}
    (moved : Moves phase action phase') (acted : effect action devices = some devices') (slot : Slot)
    (counter : Counter) :
    (devices' slot).read counter + UInt64.ofNat (phase.share slot counter) =
      (devices slot).read counter + UInt64.ofNat (phase'.share slot counter) := by
  cases moved with
  | activate | countAllocation | addTotal | countDeallocation | subtractCurrent | activateFailing | countFailure =>
    obtain rfl := Option.some.inj acted
    refine counter_update rfl rfl (fun counter => ?_) slot counter
    cases counter <;> simp [DeviceState.read, Phase.amount]
  | addCurrent | exchange =>
    obtain ⟨_, acted⟩ := Option.ite_none_right_eq_some.mp acted
    obtain rfl := Option.some.inj acted
    refine counter_update rfl rfl (fun counter => ?_) slot counter
    cases counter <;> simp [DeviceState.read, Phase.amount]
  | loadPeak | missExchange =>
    obtain ⟨_, acted⟩ := Option.ite_none_right_eq_some.mp acted
    obtain rfl := Option.some.inj acted
    cases counter <;> rfl
  | request | keepPeak | deallocate | allocateUntracked | failUntracked | deallocateUntracked =>
    obtain rfl := Option.some.inj acted
    cases counter <;> rfl
  | allocate | fail =>
    -- Nothing has been recorded yet, so no device has a share of the block.
    obtain rfl := Option.some.inj acted
    cases counter <;> simp [Phase.share, Phase.amount]

section Blocks

variable {Block : Type}

/-- Every counter is the sum of what the blocks have to their account, as 64 bits hold it. -/
def CountersKept (state : Threads Block Phase Devices) : Prop :=
  ∀ slot counter, ∃ total, Totals total (fun block => (state.phases block).share slot counter) ∧
    (state.shared slot).read counter = UInt64.ofNat total

theorem countersKept_reachable {state : Threads Block Phase Devices}
    (reachable : Reachable (memoryProgram Block).system state) : CountersKept state := by
  apply reachable.invariant
  · intro state initial slot counter
    refine ⟨0, totals_zero (fun block => ?_), ?_⟩
    · rw [initial.2 block]
      exact share_none rfl slot counter
    · rw [initial.1]
      cases counter <;> rfl
  · intro state label state' kept step slot counter
    obtain ⟨total, totals, isTotal⟩ := kept slot counter
    obtain ⟨total', exchanged, totals'⟩ := @Totals.move _ _ _
      (fun block => (state'.phases block).share slot counter) label.1 totals
      (fun other isOther => by rw [step.others other isOther])
    refine ⟨total', totals', ?_⟩
    have stepped := counter_step step.moved step.acted slot counter
    rw [isTotal, ← UInt64.ofNat_add, ← exchanged, UInt64.ofNat_add] at stepped
    exact (UInt64.add_left_inj _).mp stepped

/-! ## The peak -/

/-- The value that an action raises the current bytes of a device to. -/
def rise (slot : Slot) : Action → List UInt64
  | .addCurrent place _ current => if place = slot then [current] else []
  | _ => []

/-- The values that the current bytes of a device have risen to, the latest first. Those they have fallen to, below
values risen to before, are left out: the code compares none of them with the peak. -/
def risen (slot : Slot) (trace : List (Block × Action)) : List UInt64 :=
  trace.flatMap (fun label => rise slot label.2)

/-- A block with a value that has not been compared with the peak to the end. -/
def Pending (slot : Slot) (value : UInt64) (phase : Phase) : Prop :=
  ∃ bytes, phase = .loading slot bytes value ∨ ∃ peak, phase = .comparing slot bytes value peak

/-- What one action does about the peak of a device: it never falls, it rises to pending values only, and a
value stops being pending once the peak has reached it. -/
structure PeakStep (slot : Slot) (values : List UInt64) (phase : Phase) (action : Action) (phase' : Phase)
    (before after : UInt64) : Prop where
  rises : before ≤ after
  source : after = before ∨ after ∈ values
  entered : ∀ value ∈ rise slot action, Pending slot value phase'
  reached : ∀ value, Pending slot value phase → value ≤ after ∨ Pending slot value phase'
  pending : ∀ value, Pending slot value phase' → value ∈ rise slot action ++ values
  loaded : ∀ bytes current peak, phase' = .comparing slot bytes current peak → peak ≤ after

theorem peakStep_neutral {slot : Slot} {values : List UInt64} {phase phase' : Phase} {action : Action}
    {peak : UInt64} (nothing : rise slot action = []) (neither : ∀ value, ¬ Pending slot value phase)
    (nor : ∀ value, ¬ Pending slot value phase') : PeakStep slot values phase action phase' peak peak where
  rises := UInt64.le_refl peak
  source := .inl rfl
  entered value member := by
    rw [nothing] at member
    cases member
  reached value isPending := absurd isPending (neither value)
  pending value isPending := absurd isPending (nor value)
  loaded bytes current seen isPhase := absurd ⟨bytes, .inr ⟨seen, isPhase⟩⟩ (nor current)

/-- Another device's peak is left alone. -/
theorem peakStep_other {slot place : Slot} {values : List UInt64} {phase phase' : Phase} {action : Action}
    {peak : UInt64} (isOther : slot ≠ place) (nothing : rise slot action = []) (there : phase.slot = some place)
    (there' : phase'.slot = some place) : PeakStep slot values phase action phase' peak peak := by
  have away {phase : Phase} (there : phase.slot = some place) (value : UInt64) : ¬ Pending slot value phase := by
    rintro ⟨bytes, rfl | ⟨peak, rfl⟩⟩
    · exact isOther (Option.some.inj there)
    · exact isOther (Option.some.inj there)
  exact peakStep_neutral nothing (away there) (away there')

/-- A field that a change leaves alone is the same on every device. -/
theorem updateDevice_field {Value : Type} {place : Slot} {change : DeviceState → DeviceState} {devices : Devices}
    (field : DeviceState → Value) (keeps : ∀ device, field (change device) = field device) (slot : Slot) :
    field (updateDevice place change devices slot) = field (devices slot) := by
  by_cases same : slot = place
  · rw [same, updateDevice_same, keeps]
  · rw [updateDevice_other same]

theorem peak_step {phase phase' : Phase} {action : Action} {devices devices' : Devices}
    (moved : Moves phase action phase') (acted : effect action devices = some devices') (slot : Slot)
    {values : List UInt64} (pending : ∀ value, Pending slot value phase → value ∈ values)
    (loaded : ∀ bytes current peak, phase = .comparing slot bytes current peak → peak ≤ (devices slot).peakBytes) :
    PeakStep slot values phase action phase' (devices slot).peakBytes (devices' slot).peakBytes := by
  cases moved with
  | activate | countAllocation | addTotal | countDeallocation | subtractCurrent | activateFailing | countFailure =>
    obtain rfl := Option.some.inj acted
    rw [updateDevice_field DeviceState.peakBytes]
    · exact peakStep_neutral rfl (by simp [Pending]) (by simp [Pending])
    · exact fun _ => rfl
  | request | deallocate | allocateUntracked | failUntracked | deallocateUntracked | allocate | fail =>
    obtain rfl := Option.some.inj acted
    exact peakStep_neutral rfl (by simp [Pending]) (by simp [Pending])
  | @addCurrent place bytes current =>
    obtain ⟨_, acted⟩ := Option.ite_none_right_eq_some.mp acted
    obtain rfl := Option.some.inj acted
    rw [updateDevice_field DeviceState.peakBytes _ slot]
    swap
    · exact fun _ => rfl
    by_cases same : slot = place
    · obtain rfl := same
      refine ⟨UInt64.le_refl _, .inl rfl, fun value member => ?_, by simp [Pending], fun value isPending => ?_, by simp⟩
      · obtain rfl : value = current := by simpa [rise] using member
        exact ⟨bytes, .inl rfl⟩
      · obtain rfl : current = value := by simpa [Pending] using isPending
        simp [rise]
    · exact peakStep_other same (if_neg (Ne.symm same)) rfl rfl
  | @loadPeak place bytes current peak =>
    obtain ⟨below, acted⟩ := Option.ite_none_right_eq_some.mp acted
    obtain rfl := Option.some.inj acted
    by_cases same : slot = place
    · obtain rfl := same
      refine ⟨UInt64.le_refl _, .inl rfl, by simp [rise], fun value isPending => ?_, fun value isPending => ?_,
        fun bytes' current' peak' isPhase => ?_⟩
      · obtain rfl : current = value := by simpa [Pending] using isPending
        exact .inr ⟨bytes, .inr ⟨peak, rfl⟩⟩
      · obtain rfl : current = value := by simpa [Pending] using isPending
        exact pending current ⟨bytes, .inl rfl⟩
      · obtain rfl : peak = peak' := by injection isPhase
        exact below
    · exact peakStep_other same rfl rfl rfl
  | @missExchange place bytes current peak seen =>
    obtain ⟨below, acted⟩ := Option.ite_none_right_eq_some.mp acted
    obtain rfl := Option.some.inj acted
    by_cases same : slot = place
    · obtain rfl := same
      refine ⟨UInt64.le_refl _, .inl rfl, by simp [rise], fun value isPending => ?_, fun value isPending => ?_,
        fun bytes' current' peak' isPhase => ?_⟩
      · obtain rfl : current = value := by simpa [Pending] using isPending
        exact .inr ⟨bytes, .inr ⟨seen, rfl⟩⟩
      · obtain rfl : current = value := by simpa [Pending] using isPending
        exact pending current ⟨bytes, .inr ⟨peak, rfl⟩⟩
      · obtain rfl : seen = peak' := by injection isPhase
        exact below
    · exact peakStep_other same rfl rfl rfl
  | @keepPeak place bytes current peak reached =>
    obtain rfl := Option.some.inj acted
    by_cases same : slot = place
    · obtain rfl := same
      refine ⟨UInt64.le_refl _, .inl rfl, by simp [rise], fun value isPending => ?_, by simp [Pending], by simp⟩
      obtain rfl : current = value := by simpa [Pending] using isPending
      exact .inl (UInt64.le_trans (UInt64.not_lt.mp reached) (loaded bytes current peak rfl))
    · exact peakStep_other same rfl rfl rfl
  | @exchange place bytes current peak above =>
    obtain ⟨isPeak, acted⟩ := Option.ite_none_right_eq_some.mp acted
    obtain rfl := Option.some.inj acted
    by_cases same : slot = place
    · obtain rfl := same
      rw [updateDevice_same]
      refine ⟨?_, .inr (pending current ⟨bytes, .inr ⟨peak, rfl⟩⟩), by simp [rise], fun value isPending => ?_,
        by simp [Pending], by simp⟩
      · rw [← isPeak]
        exact UInt64.le_of_lt above
      · obtain rfl : current = value := by simpa [Pending] using isPending
        exact .inl (UInt64.le_refl _)
    · rw [updateDevice_other same]
      exact peakStep_other same rfl rfl rfl

/-- The peak is zero or one of the values the current bytes have risen to, and it has reached every other such
value that is not still to be compared with it. -/
structure PeakKept (slot : Slot) (trace : List (Block × Action)) (state : Threads Block Phase Devices) : Prop where
  source : (state.shared slot).peakBytes ∈ 0 :: risen slot trace
  reached : ∀ value ∈ risen slot trace, value ≤ (state.shared slot).peakBytes ∨
    ∃ block, Pending slot value (state.phases block)
  pending : ∀ block value, Pending slot value (state.phases block) → value ∈ risen slot trace
  loaded : ∀ block bytes current peak, state.phases block = .comparing slot bytes current peak →
    peak ≤ (state.shared slot).peakBytes

theorem PeakKept.step {slot : Slot} {trace : List (Block × Action)} {state state' : Threads Block Phase Devices}
    {label : Block × Action} (kept : PeakKept slot trace state)
    (step : Step (memoryProgram Block) state label.1 label.2 state') :
    (state.shared slot).peakBytes ≤ (state'.shared slot).peakBytes ∧ PeakKept slot (label :: trace) state' := by
  have stepped := peak_step step.moved step.acted slot (kept.pending label.1) (kept.loaded label.1)
  have isRisen : risen slot (label :: trace) = rise slot label.2 ++ risen slot trace := List.flatMap_cons ..
  refine ⟨stepped.rises, ?_, fun value member => ?_, fun block value isPending => ?_,
    fun block bytes current peak isPhase => ?_⟩
  · rw [isRisen]
    rcases stepped.source with same | member
    · rw [same]
      rcases List.mem_cons.mp kept.source with isZero | earlier
      · exact isZero ▸ List.mem_cons_self ..
      · exact List.mem_cons_of_mem _ (List.mem_append_right _ earlier)
    · exact List.mem_cons_of_mem _ (List.mem_append_right _ member)
  · rw [isRisen] at member
    rcases List.mem_append.mp member with new | earlier
    · exact .inr ⟨label.1, stepped.entered value new⟩
    · rcases kept.reached value earlier with below | ⟨block, isPending⟩
      · exact .inl (UInt64.le_trans below stepped.rises)
      · by_cases same : block = label.1
        · rw [same] at isPending
          exact (stepped.reached value isPending).imp_right (fun still => ⟨label.1, still⟩)
        · exact .inr ⟨block, by rw [step.others block same]; exact isPending⟩
  · rw [isRisen]
    by_cases same : block = label.1
    · rw [same] at isPending
      exact stepped.pending value isPending
    · rw [step.others block same] at isPending
      exact List.mem_append_right _ (kept.pending block value isPending)
  · by_cases same : block = label.1
    · rw [same] at isPhase
      exact stepped.loaded bytes current peak isPhase
    · rw [step.others block same] at isPhase
      exact UInt64.le_trans (kept.loaded block bytes current peak isPhase) stepped.rises

theorem peakKept_run {trace : List (Block × Action)} {state : Threads Block Phase Devices}
    (run : Run (memoryProgram Block).system trace state) (slot : Slot) : PeakKept slot trace state := by
  apply run.invariant
  · intro state initial
    have never (block : Block) (value : UInt64) : ¬ Pending slot value (state.phases block) := by
      rw [initial.2 block]
      simp [Pending, memoryProgram]
    refine ⟨?_, by simp [risen], fun block value isPending => absurd isPending (never block value),
      fun block bytes current peak isPhase => absurd ⟨bytes, .inr ⟨peak, isPhase⟩⟩ (never block current)⟩
    rw [initial.1]
    exact List.mem_cons_self ..
  · intro trace state label state' _ kept step
    exact (kept.step step).2

/-! ## Devices in use -/

/-- A block whose allocation or failure has marked its device as active. -/
def Attempted (slot : Slot) : Phase → Prop
  | .activating .. => False
  | .failing _ => False
  | phase => phase.slot = some slot

theorem attempted_step {phase phase' : Phase} {action : Action} {devices devices' : Devices}
    (moved : Moves phase action phase') (acted : effect action devices = some devices') (slot : Slot) :
    ((devices' slot).active = true ↔ (devices slot).active = true ∨ Attempted slot phase' ∧ ¬ Attempted slot phase) ∧
      (Attempted slot phase → Attempted slot phase') := by
  cases moved with
  | @activate place bytes =>
    obtain rfl := Option.some.inj acted
    by_cases same : slot = place
    · obtain rfl := same
      simp [Attempted, Phase.slot]
    · simp [updateDevice_other same, Attempted, Phase.slot, Ne.symm same]
  | @activateFailing place =>
    obtain rfl := Option.some.inj acted
    by_cases same : slot = place
    · obtain rfl := same
      simp [Attempted, Phase.slot]
    · simp [updateDevice_other same, Attempted, Phase.slot, Ne.symm same]
  | countAllocation | addTotal | countDeallocation | subtractCurrent | countFailure =>
    obtain rfl := Option.some.inj acted
    rw [updateDevice_field DeviceState.active]
    · exact ⟨by simp [Attempted, Phase.slot], id⟩
    · exact fun _ => rfl
  | addCurrent | exchange =>
    obtain ⟨_, acted⟩ := Option.ite_none_right_eq_some.mp acted
    obtain rfl := Option.some.inj acted
    rw [updateDevice_field DeviceState.active]
    · exact ⟨by simp [Attempted, Phase.slot], id⟩
    · exact fun _ => rfl
  | loadPeak | missExchange =>
    obtain ⟨_, acted⟩ := Option.ite_none_right_eq_some.mp acted
    obtain rfl := Option.some.inj acted
    exact ⟨by simp [Attempted, Phase.slot], id⟩
  | keepPeak | deallocate | deallocateUntracked =>
    obtain rfl := Option.some.inj acted
    exact ⟨by simp [Attempted, Phase.slot], id⟩
  | request | allocate | fail | allocateUntracked | failUntracked =>
    obtain rfl := Option.some.inj acted
    exact ⟨by simp [Attempted, Phase.slot], fun before => by cases before⟩

/-- A device is active exactly if some block has marked it. -/
def ActiveKept (state : Threads Block Phase Devices) : Prop :=
  ∀ slot, (state.shared slot).active = true ↔ ∃ block, Attempted slot (state.phases block)

theorem activeKept_reachable {state : Threads Block Phase Devices}
    (reachable : Reachable (memoryProgram Block).system state) : ActiveKept state := by
  apply reachable.invariant
  · intro state initial slot
    rw [initial.1]
    refine iff_of_false Bool.false_ne_true ?_
    rintro ⟨block, attempted⟩
    rw [initial.2 block] at attempted
    cases attempted
  · intro state label state' kept step slot
    obtain ⟨isActive, stays⟩ := attempted_step step.moved step.acted slot
    rw [isActive, kept slot]
    constructor
    · rintro (⟨block, attempted⟩ | ⟨attempted, _⟩)
      · by_cases same : block = label.1
        · exact ⟨label.1, stays (same ▸ attempted)⟩
        · exact ⟨block, by rw [step.others block same]; exact attempted⟩
      · exact ⟨label.1, attempted⟩
    · rintro ⟨block, attempted⟩
      by_cases same : block = label.1
      · rw [same] at attempted
        by_cases before : Attempted slot (state.phases label.1)
        · exact .inl ⟨label.1, before⟩
        · exact .inr ⟨attempted, before⟩
      · rw [step.others block same] at attempted
        exact .inl ⟨block, attempted⟩

/-! ## At rest -/

/-- A block that no call is about to record anything of. -/
def Phase.settled : Phase → Bool
  | .idle => true
  | .requesting .. => true
  | .live .. => true
  | .freed .. => true
  | .failed _ => true
  | _ => false

/-- One for a block that is allocated on a device. -/
def Phase.liveBlocks (slot : Slot) : Phase → Nat
  | .live place _ => if place = some slot then 1 else 0
  | _ => 0

def Phase.liveBytes (slot : Slot) : Phase → Nat
  | .live place bytes => if place = some slot then bytes.toNat else 0
  | _ => 0

theorem share_currentBytes {phase : Phase} (settled : phase.settled = true) (slot : Slot) :
    phase.share slot .currentBytes = phase.liveBytes slot := by
  cases phase with
  | live place bytes => rfl
  | idle | requesting | freed | failed => exact ite_self 0
  | _ => cases settled

theorem share_allocations {phase : Phase} (settled : phase.settled = true) (slot : Slot) :
    phase.share slot .allocations = phase.share slot .deallocations + phase.liveBlocks slot := by
  cases phase with
  | live place bytes =>
    have nothing : (Phase.live place bytes).share slot .deallocations = 0 := ite_self 0
    rw [nothing, Nat.zero_add]
    rfl
  | freed place bytes => simp [Phase.share, Phase.amount, Phase.liveBlocks]
  | idle | requesting | failed => simp [Phase.share, Phase.amount, Phase.liveBlocks]
  | _ => cases settled

/-- Whatever the order of the atomic operations: every counter is what the blocks have to their account, a device
is known once it was asked for memory, and the peak only rises, to values the current bytes have had. While no
call is at work the counters describe the blocks that are allocated, and the peak has reached every value. -/
theorem memoryMetrics_exact (Block : Type) {trace : List (Block × Action)} {state : Threads Block Phase Devices}
    (run : Run (memoryProgram Block).system trace state) (slot : Slot) :
    (∀ counter, ∃ total, Totals total (fun block => (state.phases block).share slot counter) ∧
      (state.shared slot).read counter = UInt64.ofNat total) ∧
    ((state.shared slot).active = true ↔ ∃ block, Attempted slot (state.phases block)) ∧
    (state.shared slot).peakBytes ∈ 0 :: risen slot trace ∧
    (∀ block action state', Step (memoryProgram Block) state block action state' →
      (state.shared slot).peakBytes ≤ (state'.shared slot).peakBytes) ∧
    ((∀ block, (state.phases block).settled = true) →
      (∀ value ∈ risen slot trace, value ≤ (state.shared slot).peakBytes) ∧
      ∃ blocks bytes, Totals blocks (fun block => (state.phases block).liveBlocks slot) ∧
        Totals bytes (fun block => (state.phases block).liveBytes slot) ∧
        (state.shared slot).allocations = (state.shared slot).deallocations + UInt64.ofNat blocks ∧
        (state.shared slot).currentBytes = UInt64.ofNat bytes) := by
  have counters := countersKept_reachable ⟨trace, run⟩ slot
  have peak := peakKept_run run slot
  refine ⟨counters, activeKept_reachable ⟨trace, run⟩ slot, peak.source,
    fun block action state' step => (@PeakKept.step _ _ _ _ _ (block, action) peak step).1, fun settled => ⟨?_, ?_⟩⟩
  · intro value member
    rcases peak.reached value member with below | ⟨block, bytes, isPhase | ⟨seen, isPhase⟩⟩
    · exact below
    · have isSettled := settled block
      rw [isPhase] at isSettled
      cases isSettled
    · have isSettled := settled block
      rw [isPhase] at isSettled
      cases isSettled
  · obtain ⟨bytes, bytesTotal, isBytes⟩ := counters .currentBytes
    obtain ⟨allocated, allocatedTotal, isAllocated⟩ := counters .allocations
    obtain ⟨deallocated, deallocatedTotal, isDeallocated⟩ := counters .deallocations
    obtain ⟨blocks, blocksTotal⟩ := @Totals.of_le _ _ _
      (fun block => (state.phases block).liveBlocks slot) allocatedTotal (fun block => by
        rw [share_allocations (settled block)]
        exact Nat.le_add_left _ _)
    have isSum := (deallocatedTotal.add blocksTotal).congr (fun block => share_allocations (settled block) slot)
    refine ⟨blocks, bytes, blocksTotal, bytesTotal.congr (fun block => (share_currentBytes (settled block) slot).symm),
      ?_, isBytes⟩
    have isRead : (state.shared slot).allocations = UInt64.ofNat allocated := isAllocated
    have isRead' : (state.shared slot).deallocations = UInt64.ofNat deallocated := isDeallocated
    rw [isRead, isRead', allocatedTotal.unique isSum, UInt64.ofNat_add]

/-- Two blocks on the first device whose allocations overlap, so that one finds the peak raised by the other; the
first of them is freed. -/
theorem memoryMetrics_exact_overlapping :
    ∃ (trace : List (Bool × Action)) (state : Threads Bool Phase Devices) (blocks bytes : Nat),
      Run (memoryProgram Bool).system trace state ∧ state.phases true = .freed (some ⟨0, by decide⟩) 64 ∧
        state.phases false = .live (some ⟨0, by decide⟩) 32 ∧
        Totals blocks (fun block => (state.phases block).liveBlocks ⟨0, by decide⟩) ∧
        Totals bytes (fun block => (state.phases block).liveBytes ⟨0, by decide⟩) ∧
        (state.shared ⟨0, by decide⟩).allocations =
          (state.shared ⟨0, by decide⟩).deallocations + UInt64.ofNat blocks ∧
        (state.shared ⟨0, by decide⟩).currentBytes = UInt64.ofNat bytes := by
  have start : Run (memoryProgram Bool).system [] ⟨fun _ => .initial, fun _ => .idle⟩ := .start ⟨rfl, fun _ => rfl⟩
  have idle : Run (memoryProgram Bool).system _ _ := run_focus start true rfl
  have requested : Run (memoryProgram Bool).system _ _ := run_update idle (@Moves.request 0 64) rfl
  have allocated : Run (memoryProgram Bool).system _ _ :=
    run_update requested (@Moves.allocate 0 64 ⟨0, by decide⟩ rfl) rfl
  have activated : Run (memoryProgram Bool).system _ _ := run_update allocated .activate rfl
  have counted : Run (memoryProgram Bool).system _ _ := run_update activated .countAllocation rfl
  have totalled : Run (memoryProgram Bool).system _ _ := run_update counted .addTotal rfl
  have added : Run (memoryProgram Bool).system _ _ := run_update totalled (@Moves.addCurrent _ _ 64) rfl
  have loaded : Run (memoryProgram Bool).system _ _ := run_update added (@Moves.loadPeak _ _ _ 0) rfl
  have other : Run (memoryProgram Bool).system _ _ := run_focus loaded false rfl
  have requested : Run (memoryProgram Bool).system _ _ := run_update other (@Moves.request 0 32) rfl
  have allocated : Run (memoryProgram Bool).system _ _ :=
    run_update requested (@Moves.allocate 0 32 ⟨0, by decide⟩ rfl) rfl
  have activated : Run (memoryProgram Bool).system _ _ := run_update allocated .activate rfl
  have counted : Run (memoryProgram Bool).system _ _ := run_update activated .countAllocation rfl
  have totalled : Run (memoryProgram Bool).system _ _ := run_update counted .addTotal rfl
  have added : Run (memoryProgram Bool).system _ _ := run_update totalled (@Moves.addCurrent _ _ 96) rfl
  have loaded : Run (memoryProgram Bool).system _ _ := run_update added (@Moves.loadPeak _ _ _ 0) rfl
  have raised : Run (memoryProgram Bool).system _ _ := run_update loaded (.exchange (by decide)) rfl
  have first : Run (memoryProgram Bool).system _ _ := run_focus raised true rfl
  have missed : Run (memoryProgram Bool).system _ _ :=
    run_update first (@Moves.missExchange _ _ _ _ 96 (by decide)) rfl
  have kept : Run (memoryProgram Bool).system _ _ := run_update missed (.keepPeak (by decide)) rfl
  have deallocated : Run (memoryProgram Bool).system _ _ := run_update kept .deallocate rfl
  have uncounted : Run (memoryProgram Bool).system _ _ := run_update deallocated .countDeallocation rfl
  have freed : Run (memoryProgram Bool).system _ _ := run_update uncounted .subtractCurrent rfl
  obtain ⟨-, blocks, bytes, described⟩ := (memoryMetrics_exact Bool freed ⟨0, by decide⟩).2.2.2.2
    (fun block => by cases block <;> rfl)
  exact ⟨_, _, blocks, bytes, freed, rfl, rfl, described⟩

end Blocks

end KernelLake.GpuMemoryMetrics
