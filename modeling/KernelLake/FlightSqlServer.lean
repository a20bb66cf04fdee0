import KernelLake.Library.Interleavings
import KernelLake.Library.Registries

/-!
The Flight SQL server: the result of a query waits under a handle until it is fetched, and a prepared plan
waits under a handle until it is closed.

Any number of calls run at once. Each makes one request and runs the program below one action at a time:
a section under the results mutex is one action, and so is what lies between two sections. What a query
compiles to, what an execution yields and whether either raises is left to the engine. What a call does
after its last section touches nothing that is shared, except that a fetched result still has to be
delivered.
-/

namespace KernelLake.FlightSqlServer

open KernelLake.Library.Interleavings KernelLake.Library.Registries

structure PreparedStatementEntry (Plan : Type) where
  sql : String
  physical : Plan
  deriving DecidableEq

/-- The cap of both registries, and what the engine can do. -/
structure Setting (Plan Result : Type) where
  maxPendingResults : UInt32
  explain : String → Plan → Prop
  execute : Plan → Result → Prop

/-- What the results mutex protects. -/
structure Shared (Plan Result : Type) where
  results : Registry String Result
  pendingCount : UInt32
  nextHandle : UInt64
  prepared : Registry String (PreparedStatementEntry Plan)

def resultHandle (number : UInt64) : String :=
  "q-" ++ Nat.repr number.toNat

def preparedHandle (number : UInt64) : String :=
  "p-" ++ Nat.repr number.toNat

inductive Request
  | getFlightInfoStatement (query : String)
  | createPreparedStatement (query : String)
  | closePreparedStatement (handle : String)
  | getFlightInfoPreparedStatement (handle : String)
  | doGetStatement (handle : String)

/-- An outcome is missing where the engine raises or a handle is not registered. -/
inductive Action (Plan Result : Type)
  | receive (request : Request)
  | explain (plan : Option Plan)
  | reserve
  | refuse
  | execute (plan : Plan) (result : Option Result)
  | release
  | publish (handle : String) (result : Result)
  | publishRaised
  | prepare (handle : String) (entry : PreparedStatementEntry Plan)
  | refusePrepared
  | close (handle : String)
  | find (handle : String) (entry : Option (PreparedStatementEntry Plan))
  | fetch (handle : String) (result : Option Result)
  | deliver (handle : String) (result : Result)
  | deliverRaised

/-- Where a call is. From `admitting` to `publishing` it is in `ExecuteAndBuffer`. -/
inductive Phase (Plan Result : Type)
  | idle
  | explaining (sql : String)
  | compiling (sql : String)
  | registering (entry : PreparedStatementEntry Plan)
  | closing (handle : String)
  | finding (handle : String)
  | admitting (plan : Plan)
  | executing (plan : Plan)
  | releasing
  | publishing (result : Result)
  | fetching (handle : String)
  | streaming (handle : String) (result : Result)
  | finished

section Effects

variable {Plan Result : Type} [DecidableEq Plan] [DecidableEq Result]

/-- What an action does to the registries. An outcome that they do not bear out makes an action
impossible. The sum with the pending count is one of 64 bits, far from its bound. -/
def effect (maxPendingResults : UInt32) (action : Action Plan Result) (shared : Shared Plan Result) :
    Option (Shared Plan Result) :=
  match action with
  | .reserve =>
    if shared.results.entries.length + shared.pendingCount.toNat ≥ maxPendingResults.toNat then none
    else some { shared with pendingCount := shared.pendingCount + 1 }
  | .refuse =>
    if shared.results.entries.length + shared.pendingCount.toNat ≥ maxPendingResults.toNat then some shared
    else none
  | .release => some { shared with pendingCount := shared.pendingCount - 1 }
  | .publish handle result =>
    if handle = resultHandle shared.nextHandle then
      some { shared with
        pendingCount := shared.pendingCount - 1
        nextHandle := shared.nextHandle + 1
        results := emplace handle result shared.results }
    else none
  | .publishRaised =>
    some { shared with pendingCount := shared.pendingCount - 1, nextHandle := shared.nextHandle + 1 }
  | .prepare handle entry =>
    if shared.prepared.entries.length ≥ maxPendingResults.toNat then none
    else if handle = preparedHandle shared.nextHandle then
      some { shared with
        nextHandle := shared.nextHandle + 1
        prepared := emplace handle entry shared.prepared }
    else none
  | .refusePrepared =>
    if shared.prepared.entries.length ≥ maxPendingResults.toNat then some shared else none
  | .close handle => some { shared with prepared := shared.prepared.erase handle }
  | .find handle entry => if shared.prepared.lookup handle = entry then some shared else none
  | .fetch handle result =>
    if shared.results.lookup handle = result then
      some { shared with results := shared.results.erase handle }
    else none
  | .receive _ => some shared
  | .explain _ => some shared
  | .execute .. => some shared
  | .deliver .. => some shared
  | .deliverRaised => some shared

end Effects

section Calls

variable {Plan Result : Type}

/-- The moves of a call. -/
inductive Moves (setting : Setting Plan Result) : Phase Plan Result → Action Plan Result →
    Phase Plan Result → Prop
  | getFlightInfoStatement {query : String} :
      Moves setting .idle (.receive (.getFlightInfoStatement query)) (.explaining query)
  | createPreparedStatement {query : String} :
      Moves setting .idle (.receive (.createPreparedStatement query)) (.compiling query)
  | closePreparedStatement {handle : String} :
      Moves setting .idle (.receive (.closePreparedStatement handle)) (.closing handle)
  | getFlightInfoPreparedStatement {handle : String} :
      Moves setting .idle (.receive (.getFlightInfoPreparedStatement handle)) (.finding handle)
  | doGetStatement {handle : String} :
      Moves setting .idle (.receive (.doGetStatement handle)) (.fetching handle)
  | explainRaised {sql : String} : Moves setting (.explaining sql) (.explain none) .finished
  | explained {sql : String} {plan : Plan} (explains : setting.explain sql plan) :
      Moves setting (.explaining sql) (.explain (some plan)) (.admitting plan)
  | compileRaised {sql : String} : Moves setting (.compiling sql) (.explain none) .finished
  | compiled {sql : String} {plan : Plan} (explains : setting.explain sql plan) :
      Moves setting (.compiling sql) (.explain (some plan)) (.registering ⟨sql, plan⟩)
  | refusePrepared {entry : PreparedStatementEntry Plan} :
      Moves setting (.registering entry) .refusePrepared .finished
  | prepare {entry : PreparedStatementEntry Plan} {handle : String} :
      Moves setting (.registering entry) (.prepare handle entry) .finished
  | close {handle : String} : Moves setting (.closing handle) (.close handle) .finished
  | notFound {handle : String} : Moves setting (.finding handle) (.find handle none) .finished
  | found {handle : String} {entry : PreparedStatementEntry Plan} :
      Moves setting (.finding handle) (.find handle (some entry)) (.admitting entry.physical)
  | refuse {plan : Plan} : Moves setting (.admitting plan) .refuse .finished
  | reserve {plan : Plan} : Moves setting (.admitting plan) .reserve (.executing plan)
  | executeRaised {plan : Plan} : Moves setting (.executing plan) (.execute plan none) .releasing
  | executed {plan : Plan} {result : Result} (executes : setting.execute plan result) :
      Moves setting (.executing plan) (.execute plan (some result)) (.publishing result)
  | release : Moves setting .releasing .release .finished
  | publish {handle : String} {result : Result} :
      Moves setting (.publishing result) (.publish handle result) .finished
  | publishRaised {result : Result} : Moves setting (.publishing result) .publishRaised .finished
  | missing {handle : String} : Moves setting (.fetching handle) (.fetch handle none) .finished
  | fetched {handle : String} {result : Result} :
      Moves setting (.fetching handle) (.fetch handle (some result)) (.streaming handle result)
  | deliver {handle : String} {result : Result} :
      Moves setting (.streaming handle result) (.deliver handle result) .finished
  | deliverRaised {handle : String} {result : Result} :
      Moves setting (.streaming handle result) .deliverRaised .finished

/-- A server that has just started. -/
def started : Shared Plan Result :=
  ⟨∅, 0, 0, ∅⟩

variable [DecidableEq Plan] [DecidableEq Result]

/-- Calls to one server. -/
def program (setting : Setting Plan Result) (Call : Type) :
    Program Call (Phase Plan Result) (Action Plan Result) (Shared Plan Result) where
  initial shared := shared = started
  idle := .idle
  moves := Moves setting
  effect _ := effect setting.maxPendingResults

end Calls

abbrev State (Call Plan Result : Type) := Threads Call (Phase Plan Result) (Shared Plan Result)

/-- What has happened, the latest first. -/
abbrev Trace (Call Plan Result : Type) := List (Call × Action Plan Result)

def system {Plan Result : Type} [DecidableEq Plan] [DecidableEq Result] (setting : Setting Plan Result)
    (Call : Type) : System (State Call Plan Result) (Call × Action Plan Result) :=
  (program setting Call).system

/-! ## A short run -/

/-- A cap of one, and an engine that yields the length of a query. -/
def tinySetting : Setting String Nat where
  maxPendingResults := 1
  explain sql plan := plan = sql
  execute plan result := result = plan.length

/-- One call has reserved a slot for its query. -/
def reservedTrace : Trace Bool String Nat :=
  [(true, .reserve), (true, .explain (some "SELECT 1")), (true, .receive (.getFlightInfoStatement "SELECT 1"))]

def reservedState : State Bool String Nat :=
  ⟨{ started with pendingCount := 1 }, Function.update (fun _ => .idle) true (.executing "SELECT 1")⟩

theorem run_reserved : Run (system tinySetting Bool) reservedTrace reservedState := by
  have start : Run (system tinySetting Bool) [] ⟨started, fun _ => .idle⟩ := .start ⟨rfl, fun _ => rfl⟩
  have run : Run (system tinySetting Bool) _ _ := run_focus start true rfl
  have received : Run (system tinySetting Bool) _ _ :=
    run_update run (@Moves.getFlightInfoStatement _ _ _ "SELECT 1") rfl
  have explained : Run (system tinySetting Bool) _ _ := run_update received (.explained rfl) rfl
  exact run_update explained .reserve rfl

/-- Another call has fetched and delivered the result. -/
def deliveredTrace : Trace Bool String Nat :=
  [(false, .deliver (resultHandle 0) 8), (false, .fetch (resultHandle 0) (some 8)),
    (false, .receive (.doGetStatement (resultHandle 0))), (true, .publish (resultHandle 0) 8),
    (true, .execute "SELECT 1" (some 8))] ++ reservedTrace

theorem run_deliveredTrace : ∃ state, Run (system tinySetting Bool) deliveredTrace state := by
  have executed : Run (system tinySetting Bool) _ _ :=
    run_update run_reserved (.executed (show 8 = "SELECT 1".length from rfl)) rfl
  have published : Run (system tinySetting Bool) _ _ := run_update executed
    (@Moves.publish _ _ _ (resultHandle 0) _) rfl
  have waiting : Run (system tinySetting Bool) _ _ := run_focus published false rfl
  have received : Run (system tinySetting Bool) _ _ :=
    run_update waiting (@Moves.doGetStatement _ _ _ (resultHandle 0)) rfl
  have fetched : Run (system tinySetting Bool) _ _ := run_update received (@Moves.fetched _ _ _ _ 8) rfl
  exact ⟨_, run_update fetched .deliver rfl⟩

end KernelLake.FlightSqlServer
