import KernelLake.Library.Interleavings
import KernelLake.PartitionedScans

/-!
The prefetch pipeline of a scan.

A thread of its own decodes a scan's chunks and hands them to `next` through a queue with room for one, under
one mutex and one condition variable. Chunks without rows are skipped. What the thread throws is kept for `next`
to raise. Closing asks the thread to stop, waits for it and drops what it left behind.
-/

namespace KernelLake.ScanPrefetch

open KernelLake.PartitionedScans KernelLake.Library.Interleavings

/-! ## The parties -/

/-- What a scan without partition columns reads, and the chunks that cuDF's reader decodes from it. -/
structure ScanSource where
  fragments : List PartitionedFragment
  chunks : List Table

/-- Where the decoding thread is in its loop. -/
inductive Producer (Error : Type)
  | decoding
  | reading
  | recording (chunk : Table)
  | waiting (chunk : Table)
  | stopping
  | failing (error : Error)
  | finishing
  | exited

/-- What the thread does in its loop can throw, up to the last lock it takes. -/
def Producer.mayThrow {Error : Type} : Producer Error → Bool
  | .decoding | .reading | .recording _ | .waiting _ | .stopping => true
  | .failing _ | .finishing | .exited => false

/-- Where the thread that pulls and closes the scan is. After an exception of its own CUDA calls it only
closes: nothing that pulls a scan goes on after that. -/
inductive Consumer
  | idle
  | waiting
  | delivering (chunk : Table)
  | failed
  | joining
  | draining

structure State (Error : Type) where
  remaining : List Table
  queue : List Table
  producerDone : Bool
  stopRequested : Bool
  producerException : Option Error
  joinable : Bool
  producer : Producer Error
  consumer : Consumer

/-- The state that opening a scan leaves: without fragments there is no thread. -/
def opened {Error : Type} (source : ScanSource) : State Error where
  remaining := source.chunks
  queue := []
  producerDone := false
  stopRequested := false
  producerException := none
  joinable := !source.fragments.isEmpty
  producer := if source.fragments.isEmpty then .exited else .decoding
  consumer := .idle

/-! ## Steps -/

inductive Action (Error : Type)
  | hasNext
  | exhausted
  | readChunk
  | recordEvent
  | push
  | stop
  | leave
  | throw (error : Error)
  | keepException (error : Error)
  | finish
  | next
  | take
  | deliver (chunk : Table)
  | abort (error : Error)
  | raise (error : Error)
  | endOfStream
  | close
  | join
  | discard
  | failToDiscard (error : Error)
  | reset

section Steps

variable {Error : Type}

/-- A step of `prefetch_loop`. What happens under the mutex is one step. -/
inductive ProducerStep (state : State Error) : Action Error → State Error → Prop
  | hasNext (phase : state.producer = .decoding) (more : state.remaining ≠ []) :
      ProducerStep state .hasNext { state with producer := .reading }
  | exhausted (phase : state.producer = .decoding) (nothing : state.remaining = []) :
      ProducerStep state .exhausted { state with producer := .finishing }
  | readChunk {chunk : Table} {rest : List Table} (phase : state.producer = .reading)
      (first : state.remaining = chunk :: rest) :
      ProducerStep state .readChunk
        { state with
          remaining := rest
          producer := if chunk.numRows = 0 then .decoding else .recording chunk }
  | recordEvent {chunk : Table} (phase : state.producer = .recording chunk) :
      ProducerStep state .recordEvent { state with producer := .waiting chunk }
  | push {chunk : Table} (phase : state.producer = .waiting chunk) (free : state.queue = [])
      (goesOn : state.stopRequested = false) :
      ProducerStep state .push { state with queue := [chunk], producer := .decoding }
  | stop {chunk : Table} (phase : state.producer = .waiting chunk) (stopped : state.stopRequested = true) :
      ProducerStep state .stop { state with producer := .stopping }
  | leave (phase : state.producer = .stopping) : ProducerStep state .leave { state with producer := .exited }
  | throw {error : Error} (phase : state.producer.mayThrow = true) :
      ProducerStep state (.throw error) { state with producer := .failing error }
  | keepException {error : Error} (phase : state.producer = .failing error) :
      ProducerStep state (.keepException error)
        { state with producerException := some error, producer := .exited }
  | finish (phase : state.producer = .finishing) :
      ProducerStep state .finish { state with producerDone := true, producer := .exited }

/-- Whether a call of `next` that waits for the thread goes on. -/
def State.wakesNext (state : State Error) : Bool :=
  !state.queue.isEmpty || state.producerDone || state.producerException.isSome

/-- A step of `next` or of `stop_decode_thread`. -/
inductive ConsumerStep (state : State Error) : Action Error → State Error → Prop
  | next (phase : state.consumer = .idle) : ConsumerStep state .next { state with consumer := .waiting }
  | take {chunk : Table} {rest : List Table} (phase : state.consumer = .waiting) (started : state.joinable = true)
      (sound : state.producerException = none) (first : state.queue = chunk :: rest) :
      ConsumerStep state .take { state with queue := rest, consumer := .delivering chunk }
  | deliver {chunk : Table} (phase : state.consumer = .delivering chunk) :
      ConsumerStep state (.deliver chunk) { state with consumer := .idle }
  | abort {chunk : Table} {error : Error} (phase : state.consumer = .delivering chunk) :
      ConsumerStep state (.abort error) { state with consumer := .failed }
  | raise {error : Error} (phase : state.consumer = .waiting) (started : state.joinable = true)
      (kept : state.producerException = some error) :
      ConsumerStep state (.raise error) { state with consumer := .idle }
  | notStarted (phase : state.consumer = .waiting) (noThread : state.joinable = false) :
      ConsumerStep state .endOfStream { state with consumer := .idle }
  | endOfStream (phase : state.consumer = .waiting) (started : state.joinable = true)
      (woken : state.wakesNext = true) (sound : state.producerException = none) (empty : state.queue = []) :
      ConsumerStep state .endOfStream { state with consumer := .idle }
  | close (phase : state.consumer = .idle ∨ state.consumer = .failed) :
      ConsumerStep state .close
        { state with stopRequested := state.stopRequested || state.joinable, consumer := .joining }
  | join (phase : state.consumer = .joining) (left : state.joinable = true → state.producer = .exited) :
      ConsumerStep state .join { state with joinable := false, consumer := .draining }
  | discard {chunk : Table} {rest : List Table} (phase : state.consumer = .draining)
      (first : state.queue = chunk :: rest) : ConsumerStep state .discard { state with queue := rest }
  | failToDiscard {chunk : Table} {rest : List Table} {error : Error} (phase : state.consumer = .draining)
      (first : state.queue = chunk :: rest) :
      ConsumerStep state (.failToDiscard error) { state with queue := rest, consumer := .idle }
  | reset (phase : state.consumer = .draining) (empty : state.queue = []) :
      ConsumerStep state .reset
        { state with
          producerDone := false
          stopRequested := false
          producerException := none
          remaining := []
          consumer := .idle }

inductive Step (state : State Error) (action : Action Error) (state' : State Error) : Prop
  | producer (step : ProducerStep state action state')
  | consumer (step : ConsumerStep state action state')

/-- A scan from its opening on, the steps of both threads interleaved in any order. -/
def prefetchSystem (Error : Type) (source : ScanSource) : System (State Error) (Action Error) where
  initial state := state = opened source
  step := Step

end Steps

/-! ## Batches -/

section Batches

variable {Error : Type}

/-- The chunks that are worth delivering. -/
def nonEmpty (chunks : List Table) : List Table :=
  chunks.filter (fun chunk => chunk.numRows ≠ 0)

/-- The non-empty chunks of a scan. -/
def ScanSource.batches (source : ScanSource) : List Table :=
  if source.fragments.isEmpty then [] else nonEmpty source.chunks

def Action.returned : Action Error → List Table
  | .deliver chunk => [chunk]
  | _ => []

/-- The batches that `next` returned along a trace, in their order. -/
def returned : List (Action Error) → List Table
  | [] => []
  | action :: trace => returned trace ++ action.returned

/-- What the thread is going to hand over if nothing goes wrong. -/
def Producer.pending (remaining : List Table) : Producer Error → List Table
  | .decoding | .reading => nonEmpty remaining
  | .recording chunk | .waiting chunk => chunk :: nonEmpty remaining
  | .stopping | .failing _ | .finishing | .exited => []

def State.upcoming (state : State Error) : List Table :=
  state.queue ++ state.producer.pending state.remaining

/-- What calls of `next` are still to return if nothing goes wrong. -/
def State.pending (state : State Error) : List Table :=
  match state.consumer with
  | .idle | .waiting => if state.joinable then state.upcoming else []
  | .delivering chunk => chunk :: state.upcoming
  | .failed | .joining | .draining => []

/-- A scan in whose runs chunks arrive in order and once, its end is not told early, and an exception of the
thread is raised and not taken for the end. -/
structure DeliversInOrder (source : ScanSource) (trace : List (Action Error)) (state : State Error) : Prop where
  ordered : returned trace <+: source.batches
  complete : ∀ after before, trace = after ++ .endOfStream :: before → .close ∉ before →
    returned before = source.batches
  raised : ∀ error, .throw error ∈ trace → .close ∉ trace →
    .endOfStream ∉ trace ∧ (state.producer = .failing error ∨ state.producer = .exited) ∧
      (state.consumer = .waiting → state.producer = .exited →
        ∀ action, (∃ state', Step state action state') ↔ action = .raise error)

theorem opened_pending (source : ScanSource) : (opened source : State Error).pending = source.batches := by
  cases empty : source.fragments.isEmpty <;>
    simp [opened, State.pending, State.upcoming, Producer.pending, ScanSource.batches, empty]

@[simp] theorem nonEmpty_nil : nonEmpty [] = [] := rfl

/-- A chunk that was read is passed on unless it is empty. -/
theorem pending_read (chunk : Table) (rest : List Table) :
    (if chunk.numRows = 0 then .decoding else .recording chunk : Producer Error).pending rest =
      nonEmpty (chunk :: rest) := by
  by_cases empty : chunk.numRows = 0
  · rw [if_pos empty, nonEmpty, List.filter_cons_of_neg (by simp [empty])]
    rfl
  · rw [if_neg empty, nonEmpty, List.filter_cons_of_pos (by simp [empty])]
    rfl

end Batches

section Invariants

variable {Error : Type} {source : ScanSource} {trace : List (Action Error)} {action : Action Error}
  {state state' : State Error}

/-! ## What every run keeps -/

/-- How the flags and the parties fit together. -/
structure Arranged (state : State Error) : Prop where
  oneSlot : state.queue.length ≤ 1
  delivering : ∀ chunk, state.consumer = .delivering chunk → state.joinable = true ∧ state.stopRequested = false
  draining : state.consumer = .draining → state.joinable = false
  stopped : state.stopRequested = true → state.consumer = .joining ∨ state.joinable = false
  joining : state.consumer = .joining → state.joinable = true → state.stopRequested = true
  stopping : state.producer = .stopping → state.joinable = true → state.stopRequested = true
  exited : state.producer = .exited → state.joinable = true →
    state.producerDone = true ∨ state.producerException ≠ none ∨ state.stopRequested = true

theorem arranged_opened (source : ScanSource) : Arranged (opened source : State Error) := by
  constructor <;> cases empty : source.fragments.isEmpty <;> simp [opened, empty]

theorem ProducerStep.frame (step : ProducerStep state action state') :
    state'.consumer = state.consumer ∧ state'.joinable = state.joinable ∧
      state'.stopRequested = state.stopRequested := by
  cases step <;> exact ⟨rfl, rfl, rfl⟩

theorem ProducerStep.not_exited (step : ProducerStep state action state') : state.producer ≠ .exited := by
  intro exited
  cases step with
  | throw phase =>
    rw [exited] at phase
    cases phase
  | _ => simp_all

/-- The thread stops only when it is asked to. -/
theorem ProducerStep.stop_requested (step : ProducerStep state action state')
    (stopping : state'.producer = .stopping) : state.stopRequested = true := by
  cases step with
  | stop phase stopped => exact stopped
  | readChunk phase first =>
    simp only at stopping
    split at stopping <;> cases stopping
  | _ => cases stopping

/-- The thread leaves when it is done, with an exception kept, or because it stops. -/
theorem ProducerStep.left (step : ProducerStep state action state') (exited : state'.producer = .exited) :
    state'.producerDone = true ∨ state'.producerException ≠ none ∨ state.producer = .stopping := by
  cases step with
  | leave phase => exact .inr (.inr phase)
  | keepException phase => exact .inr (.inl (Option.some_ne_none _))
  | finish phase => exact .inl rfl
  | readChunk phase first =>
    simp only at exited
    split at exited <;> cases exited
  | _ => cases exited

theorem ProducerStep.arranged (step : ProducerStep state action state') (arranged : Arranged state) :
    Arranged state' := by
  obtain ⟨sameConsumer, sameThread, sameStop⟩ := step.frame
  have oneSlot : state'.queue.length ≤ 1 := by
    cases step with
    | push phase free goesOn => exact le_rfl
    | _ => exact arranged.oneSlot
  constructor
  case oneSlot => exact oneSlot
  case delivering =>
    rw [sameConsumer, sameThread, sameStop]
    exact arranged.delivering
  case draining =>
    rw [sameConsumer, sameThread]
    exact arranged.draining
  case stopped =>
    rw [sameConsumer, sameThread, sameStop]
    exact arranged.stopped
  case joining =>
    rw [sameConsumer, sameThread, sameStop]
    exact arranged.joining
  case stopping =>
    rw [sameStop]
    exact fun stopping _ => step.stop_requested stopping
  case exited =>
    rw [sameThread, sameStop]
    intro exited started
    rcases step.left exited with done | kept | stopping
    · exact .inl done
    · exact .inr (.inl kept)
    · exact .inr (.inr (arranged.stopping stopping started))

theorem ConsumerStep.producer_eq (step : ConsumerStep state action state') :
    state'.producer = state.producer := by
  cases step <;> rfl

theorem ConsumerStep.not_throw (step : ConsumerStep state action state') (error : Error) :
    .throw error ≠ action := by
  cases step <;> nofun

theorem ConsumerStep.queue_suffix (step : ConsumerStep state action state') : state'.queue <:+ state.queue := by
  cases step with
  | take phase started sound first => exact first ▸ List.suffix_cons _ _
  | discard phase first => exact first ▸ List.suffix_cons _ _
  | failToDiscard phase first => exact first ▸ List.suffix_cons _ _
  | _ => exact List.suffix_rfl

theorem ConsumerStep.arranged (step : ConsumerStep state action state') (arranged : Arranged state) :
    Arranged state' := by
  have sameProducer := step.producer_eq
  have oneSlot := step.queue_suffix.length_le.trans arranged.oneSlot
  have notStopped (notJoining : state.consumer ≠ .joining) (stopped : state.stopRequested = true) :
      state.joinable = false := (arranged.stopped stopped).resolve_left notJoining
  constructor
  case oneSlot => exact oneSlot
  case delivering =>
    intro chunk delivering
    cases step with
    | take phase started sound first =>
      refine ⟨started, ?_⟩
      by_contra stopped
      have noThread := notStopped (by simp [phase]) (by simpa using stopped)
      rw [started] at noThread
      cases noThread
    | discard phase first =>
      rw [phase] at delivering
      cases delivering
    | _ => cases delivering
  case draining =>
    intro draining
    cases step with
    | join phase left => rfl
    | discard phase first => exact arranged.draining phase
    | _ => cases draining
  case stopped =>
    intro stopped
    cases step with
    | close phase => exact .inl rfl
    | join phase left => exact .inr rfl
    | reset phase empty => cases stopped
    | _ => exact .inr (notStopped (by simp [*]) stopped)
  case joining =>
    intro joining started
    cases step with
    | close phase =>
      have isStarted : state.joinable = true := started
      simp [isStarted]
    | discard phase first =>
      rw [phase] at joining
      cases joining
    | _ => cases joining
  case stopping =>
    rw [sameProducer]
    intro stopping started
    cases step with
    | close phase => simp [arranged.stopping stopping started]
    | join phase left => cases started
    | reset phase empty =>
      have noThread := arranged.draining phase
      simp [noThread] at started
    | _ => exact arranged.stopping stopping started
  case exited =>
    rw [sameProducer]
    intro exited started
    cases step with
    | close phase =>
      have isStarted : state.joinable = true := started
      simp [isStarted]
    | join phase left => cases started
    | reset phase empty =>
      have noThread := arranged.draining phase
      simp [noThread] at started
    | _ => exact arranged.exited exited started

theorem run_arranged (run : Run (prefetchSystem Error source) trace state) : Arranged state := by
  refine @Run.invariant _ _ _ (fun _ state => Arranged state) trace state run ?_ ?_
  · rintro _ rfl
    exact arranged_opened source
  · intro _ _ _ _ _ arranged step
    cases step with
    | producer step => exact step.arranged arranged
    | consumer step => exact step.arranged arranged

/-! ## Chunks in order -/

/-- Whether an action gives up chunks that were still to come. -/
def Action.givesUp : Action Error → Bool
  | .stop | .throw _ | .abort _ | .close => true
  | _ => false

theorem ProducerStep.returned_eq (step : ProducerStep state action state') : action.returned = [] := by
  cases step <;> rfl

theorem ProducerStep.upcoming (step : ProducerStep state action state') :
    state'.upcoming <+: state.upcoming ∧ (action.givesUp = false → state'.upcoming = state.upcoming) := by
  cases step with
  | readChunk phase first =>
    simp only [State.upcoming, phase, first, pending_read]
    exact ⟨List.prefix_rfl, fun _ => rfl⟩
  | _ => simp_all [State.upcoming, Producer.pending, Action.givesUp]

theorem ProducerStep.pending (step : ProducerStep state action state') :
    state'.pending <+: state.pending ∧ (action.givesUp = false → state'.pending = state.pending) := by
  obtain ⟨sameConsumer, sameThread, -⟩ := step.frame
  obtain ⟨fewer, same⟩ := step.upcoming
  unfold State.pending
  rw [sameConsumer, sameThread]
  cases state.consumer with
  | delivering chunk => exact ⟨List.cons_prefix_cons.mpr ⟨rfl, fewer⟩, fun keeps => congrArg _ (same keeps)⟩
  | idle | waiting =>
    by_cases started : state.joinable = true
    · simp only [if_pos started]
      exact ⟨fewer, same⟩
    · simp [started]
  | failed | joining | draining => exact ⟨List.prefix_rfl, fun _ => rfl⟩

theorem ConsumerStep.pending (step : ConsumerStep state action state') (arranged : Arranged state) :
    action.returned ++ state'.pending <+: state.pending ∧
      (action.givesUp = false → action.returned ++ state'.pending = state.pending) := by
  unfold State.pending State.upcoming
  cases step with
  | next phase => simp [phase, Action.returned]
  | take phase started sound first => simp [phase, started, first, Action.returned]
  | deliver phase => simp [phase, (arranged.delivering _ phase).1, Action.returned]
  | raise phase started kept => simp [phase, Action.returned]
  | notStarted phase noThread => simp [phase, Action.returned]
  | endOfStream phase started woken sound empty => simp [phase, Action.returned]
  | failToDiscard phase first => simp [phase, arranged.draining phase, Action.returned]
  | reset phase empty => simp [phase, arranged.draining phase, Action.returned]
  -- nothing is still to come while the thread is joined, and with `abort` and `close` chunks are given up
  | abort phase => simp [Action.returned, Action.givesUp]
  | close phase => simp [Action.returned, Action.givesUp]
  | join phase left => simp [phase, Action.returned]
  | discard phase first => simp [phase, Action.returned]

theorem Step.pending (step : Step state action state') (arranged : Arranged state) :
    action.returned ++ state'.pending <+: state.pending ∧
      (action.givesUp = false → action.returned ++ state'.pending = state.pending) := by
  cases step with
  | producer step =>
    rw [step.returned_eq]
    exact step.pending
  | consumer step => exact step.pending arranged

/-- What `next` has returned and what is still to come are the first of a scan's batches. -/
theorem run_ordered (run : Run (prefetchSystem Error source) trace state) :
    returned trace ++ state.pending <+: source.batches := by
  refine @Run.invariant _ _ _ (fun trace state => returned trace ++ state.pending <+: source.batches)
    trace state run ?_ ?_
  · rintro _ rfl
    rw [opened_pending]
    exact List.prefix_rfl
  · intro trace state action state' run ordered step
    refine List.IsPrefix.trans ?_ ordered
    rw [returned, List.append_assoc]
    exact (List.prefix_append_right_inj _).mpr (Step.pending step (run_arranged run)).1

/-- Unless chunks are given up, they are all returned or still to come. -/
theorem run_complete (run : Run (prefetchSystem Error source) trace state)
    (keeps : ∀ action ∈ trace, action.givesUp = false) : returned trace ++ state.pending = source.batches := by
  revert keeps
  refine @Run.invariant _ _ _ (fun trace state => (∀ action ∈ trace, action.givesUp = false) →
    returned trace ++ state.pending = source.batches) trace state run ?_ ?_
  · rintro _ rfl -
    exact opened_pending source
  · intro trace state action state' run complete step keeps
    have here := (Step.pending step (run_arranged run)).2 (keeps action (List.mem_cons_self ..))
    rw [returned, List.append_assoc, here]
    exact complete (fun earlier member => keeps earlier (List.mem_cons_of_mem _ member))

/-! ## Runs without a close -/

/-- What the thread has thrown, whether it has kept it yet or not. -/
def State.thrown (state : State Error) : List Error :=
  match state.producer with
  | .failing error => [error]
  | _ => state.producerException.toList

/-- A scan that nobody has asked to stop yet. -/
structure Undisturbed (source : ScanSource) (state : State Error) : Prop where
  notStopped : state.stopRequested = false
  calling : state.consumer ≠ .joining ∧ state.consumer ≠ .draining
  started : state.joinable = !source.fragments.isEmpty
  kept : state.producerException ≠ none → state.producer = .exited
  done : state.producerDone = true → state.producer = .exited ∧ state.producerException = none
  unstarted : state.joinable = false → state.producer = .exited ∧ state.producerException = none
  stopping : state.producer ≠ .stopping

theorem undisturbed_opened (source : ScanSource) : Undisturbed source (opened source : State Error) := by
  constructor <;> cases empty : source.fragments.isEmpty <;> simp [opened, empty]

theorem ne_exited_of_mayThrow {producer : Producer Error} (mayThrow : producer.mayThrow = true) :
    producer ≠ .exited := by
  rintro rfl
  cases mayThrow

theorem ProducerStep.undisturbed (step : ProducerStep state action state')
    (undisturbed : Undisturbed source state) : Undisturbed source state' := by
  obtain ⟨sameConsumer, sameThread, sameStop⟩ := step.frame
  -- the thread takes a step, so nothing is done, kept or missing yet
  have running := step.not_exited
  constructor
  case notStopped => exact sameStop.trans undisturbed.notStopped
  case calling =>
    rw [sameConsumer]
    exact undisturbed.calling
  case started => exact sameThread.trans undisturbed.started
  case kept =>
    intro kept
    cases step with
    | keepException phase => rfl
    | _ => exact absurd (undisturbed.kept kept) running
  case done =>
    intro done
    cases step with
    | finish phase => exact ⟨rfl, by_contra fun kept => running (undisturbed.kept kept)⟩
    | _ => exact absurd (undisturbed.done done).1 running
  case unstarted =>
    rw [sameThread]
    exact fun noThread => absurd (undisturbed.unstarted noThread).1 running
  case stopping =>
    intro stopping
    have stopped := step.stop_requested stopping
    rw [undisturbed.notStopped] at stopped
    cases stopped

/-- A call of `next` leaves the thread and what it has reported. -/
theorem ConsumerStep.call_frame (step : ConsumerStep state action state')
    (calling : state.consumer ≠ .joining ∧ state.consumer ≠ .draining) (goesOn : action ≠ .close) :
    state'.joinable = state.joinable ∧ state'.stopRequested = state.stopRequested ∧
      state'.producerDone = state.producerDone ∧ state'.producerException = state.producerException ∧
      state'.consumer ≠ .joining ∧ state'.consumer ≠ .draining := by
  cases step with
  | close phase => exact absurd rfl goesOn
  | join phase left => exact absurd phase calling.1
  | discard phase first => exact absurd phase calling.2
  | failToDiscard phase first => exact absurd phase calling.2
  | reset phase empty => exact absurd phase calling.2
  | _ => exact ⟨rfl, rfl, rfl, rfl, nofun, nofun⟩

theorem ConsumerStep.undisturbed (step : ConsumerStep state action state')
    (undisturbed : Undisturbed source state) (goesOn : action ≠ .close) : Undisturbed source state' := by
  obtain ⟨sameThread, sameStop, sameDone, sameException, calling⟩ := step.call_frame undisturbed.calling goesOn
  obtain ⟨notStopped, -, started, kept, done, unstarted, stopping⟩ := undisturbed
  rw [← step.producer_eq] at kept done unstarted stopping
  rw [← sameException] at kept done unstarted
  exact ⟨sameStop.trans notStopped, calling, sameThread.trans started, kept, fun isDone => done (sameDone ▸ isDone),
    fun noThread => unstarted (sameThread ▸ noThread), stopping⟩

theorem run_undisturbed (run : Run (prefetchSystem Error source) trace state) (notClosed : .close ∉ trace) :
    Undisturbed source state := by
  revert notClosed
  refine @Run.invariant _ _ _ (fun trace state => .close ∉ trace → Undisturbed source state) trace state run ?_ ?_
  · rintro _ rfl -
    exact undisturbed_opened source
  · intro trace state action state' _ undisturbed step notClosed
    obtain ⟨notClose, notBefore⟩ := not_or.mp (List.mem_cons.not.mp notClosed)
    cases step with
    | producer step => exact step.undisturbed (undisturbed notBefore)
    | consumer step => exact step.undisturbed (undisturbed notBefore) (Ne.symm notClose)

theorem thrown_of_mayThrow (mayThrow : state.producer.mayThrow = true) (sound : state.producerException = none) :
    state.thrown = [] := by
  unfold State.thrown
  cases phase : state.producer with
  | failing error => rw [phase] at mayThrow; cases mayThrow
  | _ => simp [sound]

/-- What the thread threw is kept or about to be. -/
theorem run_thrown (run : Run (prefetchSystem Error source) trace state) (notClosed : .close ∉ trace)
    (error : Error) : .throw error ∈ trace ↔ error ∈ state.thrown := by
  revert notClosed
  refine @Run.invariant _ _ _ (fun trace state => .close ∉ trace →
    (.throw error ∈ trace ↔ error ∈ state.thrown)) trace state run ?_ ?_
  · rintro _ rfl -
    cases empty : source.fragments.isEmpty <;> simp [opened, State.thrown, empty]
  · intro trace state action state' run same step notClosed
    obtain ⟨notClose, notBefore⟩ := not_or.mp (List.mem_cons.not.mp notClosed)
    obtain ⟨-, calling, -, kept, -⟩ := run_undisturbed run notBefore
    rw [List.mem_cons, same notBefore]
    cases step with
    | producer step =>
      cases step with
      | throw phase =>
        have sound : state.producerException = none := by
          by_contra isKept
          exact ne_exited_of_mayThrow phase (kept isKept)
        rw [thrown_of_mayThrow phase sound]
        simp [State.thrown]
      | @readChunk chunk rest phase first =>
        by_cases empty : chunk.numRows = 0 <;> simp_all [State.thrown]
      | _ => simp_all [State.thrown]
    | consumer step =>
      obtain ⟨-, -, -, sameException, -⟩ := step.call_frame calling (Ne.symm notClose)
      have notThrow : .throw error ≠ action := step.not_throw error
      unfold State.thrown
      rw [step.producer_eq, sameException]
      simp [notThrow]

/-- Without a close, chunks are given up only after an exception, one of the thread or one of `next`. -/
theorem run_keeps (run : Run (prefetchSystem Error source) trace state) (notClosed : .close ∉ trace)
    (sound : state.thrown = []) (goesOn : state.consumer ≠ .failed) :
    ∀ action ∈ trace, action.givesUp = false := by
  have notThrown (error : Error) : .throw error ∉ trace := by
    rw [run_thrown run notClosed error, sound]
    exact List.not_mem_nil
  clear sound
  revert notClosed goesOn notThrown
  refine @Run.invariant _ _ _ (fun trace state => .close ∉ trace → state.consumer ≠ .failed →
    (∀ error, .throw error ∉ trace) → ∀ action ∈ trace, action.givesUp = false) trace state run ?_ ?_
  · simp
  · intro trace state action state' run keeps step notClosed goesOn notThrown
    obtain ⟨notClose, notBefore⟩ := not_or.mp (List.mem_cons.not.mp notClosed)
    have notStopped := (run_undisturbed run notBefore).notStopped
    have thrownBefore (error : Error) : .throw error ∉ trace :=
      fun member => notThrown error (List.mem_cons_of_mem _ member)
    have goesOnBefore : state.consumer ≠ .failed := by
      intro failed
      cases step with
      | producer step => exact goesOn (step.frame.1.trans failed)
      | consumer step =>
        cases step with
        | close phase => exact notClose rfl
        | _ phase =>
          rw [failed] at phase
          cases phase
    have here : action.givesUp = false := by
      cases step with
      | producer step =>
        cases step with
        | stop phase stopped =>
          rw [notStopped] at stopped
          cases stopped
        | @throw error phase => exact absurd (List.mem_cons_self ..) (notThrown error)
        | _ => rfl
      | consumer step =>
        cases step with
        | abort phase => exact absurd rfl goesOn
        | close phase => exact absurd rfl notClose
        | _ => rfl
    exact List.forall_mem_cons.mpr ⟨here, keeps notBefore goesOnBefore thrownBefore⟩

/-! ## The end and exceptions -/

/-- Only a call of `next` that finds nothing more to come reports the end. -/
theorem ended (run : Run (prefetchSystem Error source) trace state) (notClosed : .close ∉ trace)
    (step : Step state .endOfStream state') : returned trace = source.batches ∧ state.thrown = [] := by
  obtain ⟨-, -, started, kept, done, unstarted, -⟩ := run_undisturbed run notClosed
  have nothing : state.thrown = [] ∧ state.consumer = .waiting ∧ state.pending = [] := by
    cases step with
    | producer step => cases step
    | consumer step =>
      cases step with
      | notStarted phase noThread =>
        obtain ⟨exited, sound⟩ := unstarted noThread
        simp [State.thrown, State.pending, exited, sound, phase, noThread]
      | endOfStream phase isStarted woken sound empty =>
        have isDone : state.producerDone = true := by simpa [State.wakesNext, sound, empty] using woken
        simp [State.thrown, State.pending, State.upcoming, Producer.pending, (done isDone).1, sound, phase, empty]
  obtain ⟨sound, waiting, empty⟩ := nothing
  have complete := run_complete run (run_keeps run notClosed sound (by simp [waiting]))
  rw [empty, List.append_nil] at complete
  exact ⟨complete, sound⟩

/-- An exception that was kept is what a waiting call of `next` goes on to raise, and there is nothing else
that can happen. -/
theorem step_of_exited {error : Error} (started : state.joinable = true) (exited : state.producer = .exited)
    (kept : state.producerException = some error) (waiting : state.consumer = .waiting) :
    (∃ state', Step state action state') ↔ action = .raise error := by
  constructor
  · rintro ⟨state', step⟩
    cases step with
    | producer step => cases step <;> simp_all [Producer.mayThrow]
    | consumer step => cases step <;> simp_all
  · rintro rfl
    exact ⟨_, .consumer (.raise waiting started kept)⟩

/-- After the end there is no thread that could throw. -/
theorem run_ended (run : Run (prefetchSystem Error source) trace state) (notClosed : .close ∉ trace)
    (reported : .endOfStream ∈ trace) : state.producer = .exited ∧ state.producerException = none := by
  revert notClosed reported
  refine @Run.invariant _ _ _ (fun trace state => .close ∉ trace → .endOfStream ∈ trace →
    state.producer = .exited ∧ state.producerException = none) trace state run ?_ ?_
  · simp
  · intro trace state action state' run before step notClosed reported
    obtain ⟨notClose, notBefore⟩ := not_or.mp (List.mem_cons.not.mp notClosed)
    obtain ⟨-, calling, -, -, done, unstarted, -⟩ := run_undisturbed run notBefore
    have earlier := before notBefore
    cases step with
    | producer step => cases step <;> simp_all [Producer.mayThrow]
    | consumer step =>
      cases step with
      | endOfStream phase started woken sound empty =>
        exact done (by simpa [State.wakesNext, sound, empty] using woken)
      | _ => simp_all

/-- The pipeline delivers every chunk once and in order, whatever the interleaving. -/
theorem scan_delivers_in_order (run : Run (prefetchSystem Error source) trace state) :
    DeliversInOrder source trace state where
  ordered := List.IsPrefix.trans (List.prefix_append _ _) (run_ordered run)
  complete after before parts notClosed := by
    obtain ⟨left, right, runBefore, step⟩ := run.split parts
    exact (ended runBefore notClosed step).1
  raised error thrown notClosed := by
    obtain ⟨-, -, -, kept, -, unstarted, -⟩ := run_undisturbed run notClosed
    have isThrown := (run_thrown run notClosed error).mp thrown
    refine ⟨fun reported => ?_, ?_, fun waiting exited action => ?_⟩
    · obtain ⟨exited, sound⟩ := run_ended run notClosed reported
      simp [State.thrown, exited, sound] at isThrown
    · unfold State.thrown at isThrown
      cases phase : state.producer <;> simp_all
    · have isKept : state.producerException = some error := by simpa [State.thrown, exited] using isThrown
      have started : state.joinable = true := by
        by_contra noThread
        have sound := (unstarted (by simpa using noThread)).2
        rw [isKept] at sound
        cases sound
      exact step_of_exited started exited isKept waiting

end Invariants

/-- A scan of one file, of which the reader makes an empty chunk and one with a row. -/
def twoChunks : ScanSource where
  fragments := [{ path := "/data/a.parquet", fileRowCount := 1, selectedRowGroups := [0], partitionValues := [] }]
  chunks := [⟨[[]]⟩, ⟨[[.bool true]]⟩]

theorem twoChunks_run : ∃ state, Run (prefetchSystem String twoChunks)
    [.endOfStream, .next, .finish, .exhausted, .deliver ⟨[[.bool true]]⟩, .take, .next, .push, .recordEvent,
      .readChunk, .hasNext, .readChunk, .hasNext] state := by
  have started := Run.start (show (prefetchSystem String twoChunks).initial (opened twoChunks) from rfl)
  have skipped := (started.next (.producer (.hasNext rfl (by simp [opened, twoChunks])))).next
    (.producer (.readChunk rfl rfl))
  have decoded := (skipped.next (.producer (.hasNext rfl (by simp)))).next (.producer (.readChunk rfl rfl))
  have pushed := (decoded.next (.producer (.recordEvent rfl))).next (.producer (.push rfl rfl rfl))
  have taken := (pushed.next (.consumer (.next rfl))).next (.consumer (.take rfl rfl rfl rfl))
  have finished := ((taken.next (.consumer (.deliver rfl))).next (.producer (.exhausted rfl rfl))).next
    (.producer (.finish rfl))
  exact ⟨_, (finished.next (.consumer (.next rfl))).next (.consumer (.endOfStream rfl rfl rfl rfl rfl))⟩

theorem scan_delivers_in_order_two : ∃ (trace : List (Action String)) (state : State String),
    .endOfStream ∈ trace ∧ returned trace = [⟨[[.bool true]]⟩] ∧ DeliversInOrder twoChunks trace state := by
  obtain ⟨state, run⟩ := twoChunks_run
  exact ⟨_, state, by simp, rfl, scan_delivers_in_order run⟩

/-- Closing a scan drops an exception that nothing has raised, and `next` reports the end from then on. -/
theorem close_drops_exception : ¬ ∀ (source : ScanSource) (trace : List (Action String)) (state : State String),
    Run (prefetchSystem String source) trace state →
      ∀ error, .throw error ∈ trace → .endOfStream ∉ trace := by
  intro never
  have started := Run.start (show (prefetchSystem String twoChunks).initial (opened twoChunks) from rfl)
  have thrown := (started.next (.producer (@ProducerStep.throw _ _ "read failed" rfl))).next
    (.producer (.keepException rfl))
  have joined := (thrown.next (.consumer (.close (.inl rfl)))).next (.consumer (.join rfl (fun _ => rfl)))
  have reset := joined.next (.consumer (.reset rfl rfl))
  have told := (reset.next (.consumer (.next rfl))).next (.consumer (.notStarted rfl rfl))
  exact never _ _ _ told "read failed" (by simp) (by simp)

/-! ## Waiting -/

/-- Whether the thread is there and has nothing to wait for. -/
def State.producerRuns {Error : Type} (state : State Error) : Prop :=
  state.producer ≠ .exited ∧
    ∀ chunk, state.producer = .waiting chunk → state.queue = [] ∨ state.stopRequested = true

/-- The two parties never wait for each other, neither in `next` nor in `close`. -/
theorem never_both_wait {Error : Type} {source : ScanSource} {trace : List (Action Error)} {state : State Error}
    (run : Run (prefetchSystem Error source) trace state) (started : state.joinable = true) :
    (state.consumer = .waiting → state.wakesNext = true ∨ state.producerRuns) ∧
      (state.consumer = .joining → state.producer = .exited ∨ state.producerRuns) := by
  obtain ⟨-, -, -, stopped, joining, -, exited⟩ := run_arranged run
  constructor
  · intro waiting
    by_cases woken : state.wakesNext = true
    · exact .inl woken
    · refine .inr ⟨fun isExited => ?_, fun chunk _ => .inl ?_⟩
      · rcases exited isExited started with isDone | isKept | isStopped
        · simp [State.wakesNext, isDone] at woken
        · simp [State.wakesNext, Option.isSome_iff_ne_none.mpr isKept] at woken
        · rcases stopped isStopped with isJoining | noThread
          · simp [waiting] at isJoining
          · simp [started] at noThread
      · simp_all [State.wakesNext]
  · intro isJoining
    by_cases isExited : state.producer = .exited
    · exact .inl isExited
    · exact .inr ⟨isExited, fun _ _ => .inr (joining isJoining started)⟩

/-! ## The batches of a scan -/

/-- What a scan without partition columns reads, as the reader delivers it. -/
def scanSource (reader : ChunkedReader) (rowGroups : RowGroups) (node : ParquetScanNode) : ScanSource where
  fragments := node.fragments
  chunks :=
    (reader.chunks (node.fragments.flatMap (fun fragment =>
      selectedRows rowGroups fragment.toPhysicalFileFragment))).map (chunkTable node.columns)

theorem batches_scanSource (reader : ChunkedReader) (rowGroups : RowGroups) (node : ParquetScanNode)
    (unpartitioned : node.partitionColumns.isEmpty = true) :
    (scanSource reader rowGroups node).batches = scanBatches reader rowGroups node := by
  rw [scanBatches, if_pos unpartitioned]
  by_cases empty : node.fragments.isEmpty = true
  · have none : node.fragments = [] := List.isEmpty_iff.mp empty
    rw [ScanSource.batches, scanSource, if_pos empty, none, readChunks, eq_comm, List.filter_eq_nil_iff]
    intro table member
    obtain ⟨chunk, isChunk, rfl⟩ := List.mem_map.mp member
    have nothing : chunk = [] := List.flatten_eq_nil_iff.mp (reader.complete []) chunk isChunk
    cases node.columns <;> simp [nothing, chunkTable, Table.numRows]
  · rw [ScanSource.batches, scanSource, if_neg empty]
    rfl

/-- A scan that was pulled to its end has returned the batches of the plain scan. -/
theorem returned_at_end {Error : Type} {reader : ChunkedReader} {rowGroups : RowGroups} {node : ParquetScanNode}
    {trace : List (Action Error)} {state state' : State Error}
    (run : Run (prefetchSystem Error (scanSource reader rowGroups node)) trace state)
    (unpartitioned : node.partitionColumns.isEmpty = true) (notClosed : .close ∉ trace)
    (step : Step state .endOfStream state') : returned trace = scanBatches reader rowGroups node := by
  rw [(ended run notClosed step).1]
  exact batches_scanSource reader rowGroups node unpartitioned

end KernelLake.ScanPrefetch
