import KernelLake.FlightSqlServer

/-!
What a statement leaves behind when `ExecuteAndBuffer` returns an error.

A call publishes its result before it makes the reply, and two fallible steps remain: the ticket for the
handle and the flight information with the schema. Neither takes the result back when it fails. The
reservation of a failed execution is given back after the error is reported to the trace, so a report
that raises keeps the reservation.

Where none of these three steps fails, a call that returns an error has added nothing to the registry or
to the pending count, whatever the other calls do meanwhile, and the handle of every result that waits is
with the call that published it (`failed_leaves_nothing`).
-/

namespace KernelLake.FlightSqlFailures

open KernelLake.FlightSqlServer KernelLake.Library.Interleavings KernelLake.Library.Registries

/-! ## Replies -/

/-- The steps of a call, those between its sections with what they may raise. -/
inductive ReplyAction (Plan Result : Type)
  | server (action : Action Plan Result)
  | startSpanRaised
  | finishErrorRaised
  | createStatementQueryTicket (handle : String) (created : Bool)
  | makeFlightInfo (handle : String) (made : Bool)

/-- Where a call is, the end of `ExecuteAndBuffer` included. A call that is answered has given the handle
to its client. -/
inductive ReplyPhase (Plan Result : Type)
  | server (phase : Phase Plan Result)
  | ticketing (handle : String)
  | describing (handle : String)
  | answered (handle : String)
  | failed

section Replies

variable {Plan Result : Type}

/-- Where a move of the server takes a call: a published result still needs a reply, and the other ends of
`ExecuteAndBuffer` return an error. -/
def reply (action : Action Plan Result) (phase : Phase Plan Result) : ReplyPhase Plan Result :=
  match action with
  | .publish handle _ => .ticketing handle
  | .refuse => .failed
  | .release => .failed
  | .publishRaised => .failed
  | _ => .server phase

inductive ReplyMoves (setting : Setting Plan Result) : ReplyPhase Plan Result → ReplyAction Plan Result →
    ReplyPhase Plan Result → Prop
  | server {phase phase' : Phase Plan Result} {action : Action Plan Result}
      (moved : Moves setting phase action phase') :
      ReplyMoves setting (.server phase) (.server action) (reply action phase')
  | startSpanRaised {plan : Plan} : ReplyMoves setting (.server (.admitting plan)) .startSpanRaised .failed
  | finishErrorRaised : ReplyMoves setting (.server .releasing) .finishErrorRaised .failed
  | ticketCreated {handle : String} :
      ReplyMoves setting (.ticketing handle) (.createStatementQueryTicket handle true) (.describing handle)
  | ticketRaised {handle : String} :
      ReplyMoves setting (.ticketing handle) (.createStatementQueryTicket handle false) .failed
  | infoMade {handle : String} :
      ReplyMoves setting (.describing handle) (.makeFlightInfo handle true) (.answered handle)
  | infoRaised {handle : String} :
      ReplyMoves setting (.describing handle) (.makeFlightInfo handle false) .failed

variable [DecidableEq Plan] [DecidableEq Result]

/-- A reply is made outside the sections, from what the call holds. -/
def replyEffect (maxPendingResults : UInt32) (action : ReplyAction Plan Result)
    (shared : Shared Plan Result) : Option (Shared Plan Result) :=
  match action with
  | .server action => effect maxPendingResults action shared
  | _ => some shared

/-- Calls to one server, with all that `ExecuteAndBuffer` does after it has published a result, up to their replies. -/
def replyProgram (setting : Setting Plan Result) (Call : Type) :
    Program Call (ReplyPhase Plan Result) (ReplyAction Plan Result) (Shared Plan Result) where
  initial shared := shared = started
  idle := .server .idle
  moves := ReplyMoves setting
  effect _ := replyEffect setting.maxPendingResults

end Replies

abbrev ReplyState (Call Plan Result : Type) := Threads Call (ReplyPhase Plan Result) (Shared Plan Result)

abbrev ReplyTrace (Call Plan Result : Type) := List (Call × ReplyAction Plan Result)

/-! ## The buffered results -/

/-- The results that wait and the slots that are reserved. -/
structure Buffer (Result : Type) where
  results : Registry String Result
  pendingCount : UInt32

section Buffers

variable {Plan Result : Type}

def bufferOf (shared : Shared Plan Result) : Buffer Result :=
  ⟨shared.results, shared.pendingCount⟩

/-- What a step of a call does to the buffer. -/
def contribute (action : ReplyAction Plan Result) (buffer : Buffer Result) : Buffer Result :=
  match action with
  | .server .reserve => { buffer with pendingCount := buffer.pendingCount + 1 }
  | .server .release => { buffer with pendingCount := buffer.pendingCount - 1 }
  | .server .publishRaised => { buffer with pendingCount := buffer.pendingCount - 1 }
  | .server (.publish handle result) =>
    ⟨emplace handle result buffer.results, buffer.pendingCount - 1⟩
  | .server (.fetch handle _) => { buffer with results := buffer.results.erase handle }
  | _ => buffer

/-- The slots that a call has reserved in a phase. -/
def slots : ReplyPhase Plan Result → UInt32
  | .server (.executing _) => 1
  | .server .releasing => 1
  | .server (.publishing _) => 1
  | _ => 0

/-- A buffer with the slots of a phase on top. -/
def reserved (phase : ReplyPhase Plan Result) (buffer : Buffer Result) : Buffer Result :=
  { buffer with pendingCount := buffer.pendingCount + slots phase }

/-- The phases of a statement up to its publication, and its end with an error. -/
def Unpublished : ReplyPhase Plan Result → Prop
  | .server .idle => True
  | .server (.explaining _) => True
  | .server (.finding _) => True
  | .server (.admitting _) => True
  | .server (.executing _) => True
  | .server .releasing => True
  | .server (.publishing _) => True
  | .failed => True
  | _ => False

/-- The steps that leave something behind are those that fail after a reservation or a publication and
do not take it back. -/
def Recoverable : ReplyAction Plan Result → Prop
  | .finishErrorRaised => False
  | .createStatementQueryTicket _ created => created = true
  | .makeFlightInfo _ made => made = true
  | _ => True

/-- The handle of a result is with its call, which has yet to reply or has replied with it. -/
def Keeps (handle : String) : ReplyPhase Plan Result → Prop
  | .ticketing kept => kept = handle
  | .describing kept => kept = handle
  | .answered kept => kept = handle
  | _ => False

end Buffers

/-! ## Runs -/

section Runs

variable {Call Plan Result : Type} {setting : Setting Plan Result}

theorem contribute_reserved (phase : ReplyPhase Plan Result) (action : ReplyAction Plan Result)
    (buffer : Buffer Result) :
    contribute action (reserved phase buffer) = reserved phase (contribute action buffer) := by
  have more (count slot : UInt32) : count + slot + 1 = count + 1 + slot := by grind
  have less (count slot : UInt32) : count + slot - 1 = count - 1 + slot := by grind
  cases action with
  | server action =>
    cases action with
    | reserve => exact congrArg (Buffer.mk _) (more _ _)
    | release | publishRaised | publish => exact congrArg (Buffer.mk _) (less _ _)
    | _ => rfl
  | _ => rfl

variable [DecidableEq Plan] [DecidableEq Result]

theorem bufferOf_effect {maxPendingResults : UInt32} {action : Action Plan Result}
    {shared shared' : Shared Plan Result} (acted : effect maxPendingResults action shared = some shared') :
    bufferOf shared' = contribute (.server action) (bufferOf shared) := by
  cases action with
  | reserve =>
    simp only [effect, Option.ite_none_left_eq_some, Option.some.injEq] at acted
    rw [← acted.2]
    rfl
  | prepare =>
    simp only [effect, Option.ite_none_left_eq_some, Option.ite_none_right_eq_some, Option.some.injEq] at acted
    rw [← acted.2.2]
    rfl
  | _ =>
    simp only [effect, Option.ite_none_right_eq_some, Option.some.injEq] at acted
    first
    | (rw [← acted]; rfl)
    | (rw [← acted.2]; rfl)

theorem bufferOf_replyEffect {maxPendingResults : UInt32} {action : ReplyAction Plan Result}
    {shared shared' : Shared Plan Result} (acted : replyEffect maxPendingResults action shared = some shared') :
    bufferOf shared' = contribute action (bufferOf shared) := by
  cases action with
  | server action => exact bufferOf_effect acted
  | _ =>
    rw [← Option.some.inj acted]
    rfl

omit [DecidableEq Plan] [DecidableEq Result] in
/-- A move into a phase before the publication, or to an error, comes from such a phase, and the slots of
the phase are what the move did to the pending count. -/
theorem moves_unpublished {phase phase' : ReplyPhase Plan Result} {action : ReplyAction Plan Result}
    (moved : ReplyMoves setting phase action phase') (recovers : Recoverable action)
    (unpublished : Unpublished phase') :
    Unpublished phase ∧
      ∀ buffer : Buffer Result, contribute action (reserved phase buffer) = reserved phase' buffer := by
  have given (count : UInt32) : count + 1 - 1 = count + 0 := by grind
  have taken (count : UInt32) : count + 0 + 1 = count + 1 := by grind
  cases moved with
  | server moved =>
    cases moved with
    | reserve => exact ⟨trivial, fun buffer => congrArg (Buffer.mk _) (taken _)⟩
    | release | publishRaised => exact ⟨trivial, fun buffer => congrArg (Buffer.mk _) (given _)⟩
    | getFlightInfoStatement | getFlightInfoPreparedStatement | explained | found | refuse | executed
    | executeRaised => exact ⟨trivial, fun buffer => rfl⟩
    | _ => exact unpublished.elim
  | startSpanRaised => exact ⟨trivial, fun buffer => rfl⟩
  | finishErrorRaised => exact recovers.elim
  | ticketRaised => cases recovers
  | infoRaised => cases recovers
  | ticketCreated => exact unpublished.elim
  | infoMade => exact unpublished.elim

theorem account_reply (Call : Type) :
    Account (replyProgram setting Call) bufferOf contribute reserved Unpublished Recoverable where
  follows _ _ _ _ acted := bufferOf_replyEffect acted
  commutes phase action buffer := contribute_reserved phase action buffer
  moves _ _ _ moved recovers unpublished := moves_unpublished moved recovers unpublished

omit [DecidableEq Plan] [DecidableEq Result] in
/-- A result that waits after a step waited before it, or the step published it. -/
theorem mem_contribute {action : ReplyAction Plan Result} {buffer : Buffer Result} {handle : String}
    (waits : handle ∈ (contribute action buffer).results) :
    handle ∈ buffer.results ∨ ∃ result, action = .server (.publish handle result) := by
  cases action with
  | server action =>
    cases action with
    | publish published result =>
      by_cases same : published = handle
      · exact .inr ⟨result, by rw [same]⟩
      · simp only [contribute, emplace] at waits
        split at waits
        · exact .inl waits
        · rw [AList.mem_insert] at waits
          exact .inl (waits.resolve_left (fun isSame => same isSame.symm))
    | fetch fetched result =>
      simp only [contribute, AList.mem_erase] at waits
      exact .inl waits.2
    | _ => exact .inl waits
  | _ => exact .inl waits

omit [DecidableEq Plan] [DecidableEq Result] in
theorem keeps_moves {phase phase' : ReplyPhase Plan Result} {action : ReplyAction Plan Result}
    {handle : String} (moved : ReplyMoves setting phase action phase') (recovers : Recoverable action)
    (keeps : Keeps handle phase) : Keeps handle phase' := by
  cases moved with
  | ticketCreated => exact keeps
  | infoMade => exact keeps
  | ticketRaised => cases recovers
  | infoRaised => cases recovers
  | server _ => exact keeps.elim
  | startSpanRaised => exact keeps.elim
  | finishErrorRaised => exact keeps.elim

/-- The handle of every result that has come to wait is with the call that published it. -/
theorem results_kept {before after : ReplyState Call Plan Result} {trace : ReplyTrace Call Plan Result}
    (run : Run ((replyProgram setting Call).resume before) trace after)
    (recovers : ∀ label ∈ trace, Recoverable label.2) {handle : String}
    (waits : handle ∈ after.shared.results) :
    handle ∈ before.shared.results ∨ ∃ call, Keeps handle (after.phases call) := by
  induction run with
  | start initial =>
    have same : _ = before := initial
    exact .inl (same ▸ waits)
  | @next trace state state' label run step hypothesis =>
    have recovered : Recoverable label.2 := recovers label (List.mem_cons_self ..)
    have followed : bufferOf state'.shared = contribute label.2 (bufferOf state.shared) :=
      bufferOf_replyEffect step.acted
    have waits' : handle ∈ (contribute label.2 (bufferOf state.shared)).results := followed ▸ waits
    rcases mem_contribute waits' with waited | ⟨result, published⟩
    · refine (hypothesis (fun other member => recovers other (List.mem_cons_of_mem _ member)) waited).imp_right ?_
      rintro ⟨call, keeps⟩
      refine ⟨call, ?_⟩
      by_cases same : call = label.1
      · rw [same] at keeps ⊢
        exact keeps_moves step.moved recovered keeps
      · rwa [step.others call same]
    · refine .inr ⟨label.1, ?_⟩
      have moved := step.moved
      rw [published] at moved
      generalize state.phases label.1 = phase at moved
      generalize state'.phases label.1 = phase' at moved ⊢
      cases moved with
      | server moved => exact rfl

variable [DecidableEq Call]

/-- From any state of the server, where no error report, ticket or flight information fails: a statement
that returns an error leaves the registry and the pending count as the steps of the others make them, and
no result comes to wait whose handle is not with its call. -/
theorem failed_leaves_nothing {before after : ReplyState Call Plan Result}
    {trace : ReplyTrace Call Plan Result}
    (run : Run ((replyProgram setting Call).resume before) trace after)
    (recovers : ∀ label ∈ trace, Recoverable label.2) :
    (∀ call plan, before.phases call = .server (.admitting plan) → after.phases call = .failed →
      bufferOf after.shared = replay contribute call trace (bufferOf before.shared)) ∧
    ∀ handle, handle ∈ after.shared.results →
      handle ∈ before.shared.results ∨ ∃ call, Keeps handle (after.phases call) := by
  refine ⟨fun call plan admitting failed => ?_, fun handle waits => results_kept run recovers waits⟩
  have nothing (count : UInt32) : count + 0 = count := by grind
  have unreserved (buffer : Buffer Result) : reserved (before.phases call) buffer = buffer := by
    rw [admitting]
    exact congrArg (Buffer.mk _) (nothing _)
  have unpublished : Unpublished (after.phases call) := by
    rw [failed]
    exact trivial
  have left : bufferOf after.shared =
      reserved (after.phases call) (replay contribute call trace (bufferOf before.shared)) :=
    run_account (account_reply Call) run unreserved (fun label member _ => recovers label member) unpublished
  rw [failed] at left
  exact left.trans (congrArg (Buffer.mk _) (nothing _))

end Runs

/-! ## Two runs -/

/-- A run from a state goes on with a move of a call. -/
theorem reply_next {Call Plan Result : Type} [DecidableEq Call] [DecidableEq Plan] [DecidableEq Result]
    {setting : Setting Plan Result} {before : ReplyState Call Plan Result} {trace : ReplyTrace Call Plan Result}
    {phases : Call → ReplyPhase Plan Result} {call : Call} {phase phase' : ReplyPhase Plan Result}
    {action : ReplyAction Plan Result} {shared shared' : Shared Plan Result}
    (run : Run ((replyProgram setting Call).resume before) trace ⟨shared, Function.update phases call phase⟩)
    (moved : ReplyMoves setting phase action phase')
    (acted : replyEffect setting.maxPendingResults action shared = some shared') :
    Run ((replyProgram setting Call).resume before) ((call, action) :: trace)
      ⟨shared', Function.update phases call phase'⟩ :=
  run.next (step_update moved acted)

/-- A call is about to execute its statement and another has not begun. -/
def admittingState : ReplyState Bool String Nat :=
  ⟨started, Function.update (fun _ => .server .idle) true (.server (.admitting "SELECT 1"))⟩

/-- The execution raises, and the slot is given back. -/
def raisedTrace : ReplyTrace Bool String Nat :=
  [(true, .server .release), (true, .server (.execute "SELECT 1" none)), (true, .server .reserve)]

theorem run_admitting : Run ((replyProgram tinySetting Bool).resume admittingState) []
    ⟨started, Function.update (fun _ => .server .idle) true (.server (.admitting "SELECT 1"))⟩ :=
  .start rfl

theorem failed_leaves_nothing_raised :
    ∃ after, Run ((replyProgram tinySetting Bool).resume admittingState) raisedTrace after ∧
      bufferOf after.shared = replay contribute true raisedTrace (bufferOf admittingState.shared) := by
  have reserved : Run ((replyProgram tinySetting Bool).resume admittingState) _ _ :=
    reply_next run_admitting (.server .reserve) rfl
  have raised : Run ((replyProgram tinySetting Bool).resume admittingState) _ _ :=
    reply_next reserved (.server .executeRaised) rfl
  have released : Run ((replyProgram tinySetting Bool).resume admittingState) raisedTrace _ :=
    reply_next raised (.server .release) rfl
  refine ⟨_, released, (failed_leaves_nothing released ?_).1 true "SELECT 1" rfl rfl⟩
  simp [raisedTrace, Recoverable]

/-- The result is published and its schema cannot be written. -/
def undescribedTrace : ReplyTrace Bool String Nat :=
  [(true, .makeFlightInfo (resultHandle 0) false), (true, .createStatementQueryTicket (resultHandle 0) true),
    (true, .server (.publish (resultHandle 0) 8)), (true, .server (.execute "SELECT 1" (some 8))),
    (true, .server .reserve)]

theorem run_undescribed :
    ∃ after, Run ((replyProgram tinySetting Bool).resume admittingState) undescribedTrace after ∧
      after.phases true = .failed ∧ (bufferOf after.shared).results.entries.length = 1 := by
  have reserved : Run ((replyProgram tinySetting Bool).resume admittingState) _ _ :=
    reply_next run_admitting (.server .reserve) rfl
  have executed : Run ((replyProgram tinySetting Bool).resume admittingState) _ _ :=
    reply_next reserved (.server (.executed (show 8 = "SELECT 1".length from rfl))) rfl
  have published : Run ((replyProgram tinySetting Bool).resume admittingState) _ _ :=
    reply_next executed (.server (@Moves.publish _ _ _ (resultHandle 0) _)) rfl
  have ticketed : Run ((replyProgram tinySetting Bool).resume admittingState) _ _ :=
    reply_next published .ticketCreated rfl
  have undescribed : Run ((replyProgram tinySetting Bool).resume admittingState) undescribedTrace _ :=
    reply_next ticketed .infoRaised rfl
  exact ⟨_, undescribed, rfl, rfl⟩

/-- A call that fails after its publication leaves its result, and its handle is with nobody. -/
theorem failed_leaves_result :
    ¬ ∀ (before after : ReplyState Bool String Nat) (trace : ReplyTrace Bool String Nat),
      Run ((replyProgram tinySetting Bool).resume before) trace after →
      ∀ call plan, before.phases call = .server (.admitting plan) → after.phases call = .failed →
        bufferOf after.shared = replay contribute call trace (bufferOf before.shared) := by
  intro nothing
  obtain ⟨after, run, failed, left⟩ := run_undescribed
  have same := nothing _ _ _ run true "SELECT 1" rfl failed
  rw [same] at left
  cases left

end KernelLake.FlightSqlFailures
