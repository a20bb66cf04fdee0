import KernelLake.UnityCatalogTokens

/-!
Whose tokens a client uses. Where instances that share a server also share their credentials, every cached
token was issued to the client's own instance and is at least 30 seconds away from its expiry. The shared
cache knows an instance by its server only, and so two instances of one server use each other's tokens.
-/

namespace KernelLake.UnityCatalogTokenProofs

open KernelLake.UnityCatalogTokens KernelLake.Library.Interleavings KernelLake.Library.Registries

variable {Thread : Type} {instances : Instances} {trace : Trace Thread} {thread : Thread}
  {state : Threads Thread Phase Entries}

/-! ## What is to hold -/

/-- A token was issued to an instance, and there are 30 seconds left of its lifetime. -/
def OwnAndFresh (trace : Trace Thread) (config : UnityCatalogInstanceSection) (now : Time) (token : String) :
    Prop :=
  ∃ issuer requested lifetime, (issuer, .issue (tokenRequest config) requested token (some lifetime)) ∈ trace ∧
    now + 30 ≤ requested + lifetime

/-- A client that can use the shared cache was constructed for an instance. -/
def Shares (trace : Trace Thread) (config : UnityCatalogInstanceSection) : Prop :=
  config.credentialsKind = "oauth2_client_credentials" ∧ ∃ thread, (thread, .construct config true) ∈ trace

/-- Instances with one server have the same credentials, no token is empty, and the clock does not go back
behind a request whose reply has no readable lifetime. -/
structure Regular (trace : Trace Thread) : Prop where
  identified : ∀ first second, Shares trace first → Shares trace second → first.ucUrl = second.ucUrl →
    tokenRequest first = tokenRequest second
  nonempty : ∀ thread request requested token lifetime,
    (thread, .issue request requested token lifetime) ∈ trace → token ≠ ""
  forward : ∀ after before thread request requested token,
    trace = after ++ (thread, .issue request requested token none) :: before →
    ∀ reader now, (reader, .readClock now) ∈ after → requested ≤ now

theorem Shares.cons {config : UnityCatalogInstanceSection} (shares : Shares trace config)
    (label : Thread × Action) : Shares (label :: trace) config := by
  obtain ⟨kind, thread, constructed⟩ := shares
  exact ⟨kind, thread, List.mem_cons_of_mem _ constructed⟩

theorem Regular.tail {label : Thread × Action} (regular : Regular (label :: trace)) : Regular trace where
  identified first second isFirst isSecond :=
    regular.identified first second (isFirst.cons label) (isSecond.cons label)
  nonempty thread request requested token lifetime member :=
    regular.nonempty thread request requested token lifetime (List.mem_cons_of_mem _ member)
  forward after before thread request requested token parts reader now read :=
    regular.forward (label :: after) before thread request requested token (congrArg (label :: ·) parts)
      reader now (List.mem_cons_of_mem _ read)

theorem Regular.tails {after : Trace Thread} (regular : Regular (after ++ trace)) : Regular trace := by
  induction after with
  | nil => exact regular
  | cons label after hypothesis => exact hypothesis regular.tail

theorem OwnAndFresh.cons {config : UnityCatalogInstanceSection} {now : Time} {token : String}
    (ownAndFresh : OwnAndFresh trace config now token) (label : Thread × Action) :
    OwnAndFresh (label :: trace) config now token := by
  obtain ⟨issuer, requested, lifetime, issued, fresh⟩ := ownAndFresh
  exact ⟨issuer, requested, lifetime, List.mem_cons_of_mem _ issued, fresh⟩

/-! ## The shared cache -/

/-- An entry holds a token that was issued to an instance of its server, and the time up to which it is
fresh. -/
def Stored (trace : Trace Thread) (key : String) (entry : Entry) : Prop :=
  ∃ config issuer requested lifetime, Shares trace config ∧ config.ucUrl = key ∧
    (issuer, .issue (tokenRequest config) requested entry.token (some lifetime)) ∈ trace ∧
    entry.expiry = requested + lifetime - 30

theorem Stored.cons {key : String} {entry : Entry} (stored : Stored trace key entry)
    (label : Thread × Action) : Stored (label :: trace) key entry := by
  obtain ⟨config, issuer, requested, lifetime, shares, isKey, issued, isExpiry⟩ := stored
  exact ⟨config, issuer, requested, lifetime, shares.cons label, isKey, List.mem_cons_of_mem _ issued, isExpiry⟩

theorem tryGet_some {entries : Entries} {key token : String} {now : Time}
    (found : tryGet entries key now = some token) :
    ∃ entry, entries.lookup key = some entry ∧ now < entry.expiry ∧ entry.token = token := by
  unfold tryGet at found
  cases isEntry : entries.lookup key with
  | none => simp [isEntry] at found
  | some entry =>
    simp only [isEntry, Option.ite_none_left_eq_some, not_le, ge_iff_le, Option.some.injEq] at found
    exact ⟨entry, rfl, found⟩

/-! ## Clients -/

/-- The token of a client was issued to its instance, and for as long as the client takes it to be current
it is fresh; a lifetime that could not be read is no concern before the token's request. -/
structure Kept (trace : Trace Thread) (client : Client) : Prop where
  empty : client.cachedToken = "" → client.expiry = 0
  shares : client.sharing = true → client.config.credentialsKind = "oauth2_client_credentials" →
    Shares trace client.config
  current : ∀ now, 0 ≤ now → Current client now →
    OwnAndFresh trace client.config now client.cachedToken ∨
      ∃ issuer request requested, (issuer, .issue request requested client.cachedToken none) ∈ trace ∧
        now < requested

/-- What is known of a client in each phase. -/
def Told (trace : Trace Thread) : Phase → Prop
  | .idle => True
  | .ready client => Kept trace client
  | .deciding client now =>
    Kept trace client ∧ client.config.credentialsKind = "oauth2_client_credentials" ∧ 0 ≤ now ∧
      (Current client now → OwnAndFresh trace client.config now client.cachedToken)
  | .consulting client now =>
    Kept trace client ∧ client.config.credentialsKind = "oauth2_client_credentials" ∧ 0 ≤ now ∧
      ¬ Current client now ∧ client.sharing = true
  | .requesting client now =>
    Kept trace client ∧ client.config.credentialsKind = "oauth2_client_credentials" ∧ 0 ≤ now ∧
      ¬ Current client now
  | .storing client =>
    Kept trace client ∧ client.config.credentialsKind = "oauth2_client_credentials" ∧
      client.sharing = true ∧ ∃ issuer requested lifetime,
        (issuer, .issue (tokenRequest client.config) requested client.cachedToken (some lifetime)) ∈ trace ∧
          client.expiry = requested + lifetime

theorem Kept.cons {client : Client} (kept : Kept trace client) (label : Thread × Action) :
    Kept (label :: trace) client where
  empty := kept.empty
  shares sharing kind := (kept.shares sharing kind).cons label
  current now sinceEpoch current := by
    rcases kept.current now sinceEpoch current with ownAndFresh | ⟨issuer, request, requested, issued, early⟩
    · exact .inl (ownAndFresh.cons label)
    · exact .inr ⟨issuer, request, requested, List.mem_cons_of_mem _ issued, early⟩

theorem Told.cons {phase : Phase} (told : Told trace phase) (label : Thread × Action) :
    Told (label :: trace) phase := by
  cases phase with
  | idle => exact trivial
  | ready client => exact Kept.cons told label
  | deciding client now =>
    obtain ⟨kept, kind, sinceEpoch, fresh⟩ := told
    exact ⟨kept.cons label, kind, sinceEpoch, fun current => (fresh current).cons label⟩
  | consulting client now | requesting client now => exact ⟨Kept.cons told.1 label, told.2⟩
  | storing client =>
    obtain ⟨kept, kind, sharing, issuer, requested, lifetime, issued, isExpiry⟩ := told
    exact ⟨kept.cons label, kind, sharing, issuer, requested, lifetime, List.mem_cons_of_mem _ issued, isExpiry⟩

/-- A client that finds no current token of its own has none that a later time makes current again, unless
the clock goes back. -/
theorem Kept.stale {client : Client} (kept : Kept trace client) {now : Time} (sinceEpoch : 0 ≤ now)
    (stale : ¬ Current client now) : client.expiry - 30 ≤ now := by
  by_cases empty : client.cachedToken = ""
  · rw [kept.empty empty]
    linarith
  · by_contra early
    exact stale ⟨empty, not_le.mp early⟩

/-- A token that a client has just got is kept with the expiry that it came with. -/
theorem kept_issued {client : Client} {now lifetime : Time} {token : String}
    (kept : Kept trace client)
    (regular : Regular ((thread, .issue (tokenRequest client.config) now token (some lifetime)) :: trace)) :
    Kept ((thread, .issue (tokenRequest client.config) now token (some lifetime)) :: trace)
      { client with cachedToken := token, expiry := now + lifetime } where
  empty isEmpty := absurd isEmpty (regular.nonempty _ _ _ _ _ (List.mem_cons_self ..))
  shares sharing kind := (kept.shares sharing kind).cons _
  current now' _ current := by
    refine .inl ⟨thread, now, lifetime, List.mem_cons_self .., ?_⟩
    have early := current.2
    simp only at early
    linarith

/-- A token out of the shared cache outlasts what the client last knew of an expiry. -/
theorem kept_shared {client : Client} {now : Time} {token : String} {entries : Entries}
    (regular : Regular trace) (kept : Kept trace client)
    (kind : client.config.credentialsKind = "oauth2_client_credentials") (sharing : client.sharing = true)
    (late : client.expiry - 30 ≤ now)
    (stored : ∀ key entry, entries.lookup key = some entry → Stored trace key entry)
    (found : tryGet entries client.config.ucUrl now = some token) :
    OwnAndFresh trace client.config now token ∧ Kept trace { client with cachedToken := token } := by
  obtain ⟨entry, isEntry, early, rfl⟩ := tryGet_some found
  obtain ⟨config, issuer, requested, lifetime, shares, isKey, issued, isExpiry⟩ := stored _ _ isEntry
  rw [regular.identified config client.config shares (kept.shares sharing kind) isKey] at issued
  refine ⟨⟨issuer, requested, lifetime, issued, ?_⟩, fun isEmpty => ?_, kept.shares, fun now' _ current => ?_⟩
  · linarith
  · exact absurd isEmpty (regular.nonempty _ _ _ _ _ issued)
  · refine .inl ⟨issuer, requested, lifetime, issued, ?_⟩
    have before := current.2
    simp only at before
    linarith

theorem Told.moves {entries entries' : Entries} {action : Action} {phase phase' : Phase}
    (told : Told trace phase) (regular : Regular ((thread, action) :: trace))
    (stored : ∀ key entry, entries.lookup key = some entry → Stored trace key entry)
    (moved : Moves instances phase action phase') (acted : effect action entries = some entries') :
    Told ((thread, action) :: trace) phase' := by
  cases moved with
  | construct configured =>
    refine ⟨fun _ => rfl, fun sharing kind => ⟨kind, thread, ?_⟩, fun now _ current => absurd rfl current.1⟩
    simp only at sharing
    rw [sharing]
    exact List.mem_cons_self ..
  | bearerToken | noToken | useOwn | requestRaised | store =>
    first
      | exact Kept.cons told _
      | exact Kept.cons told.1 _
  | @readClock client now kind sinceEpoch =>
    have kept : Kept trace client := told
    refine ⟨kept.cons _, kind, sinceEpoch, fun current => ?_⟩
    rcases kept.current now sinceEpoch current with ownAndFresh | ⟨issuer, request, requested, issued, early⟩
    · exact ownAndFresh.cons _
    · obtain ⟨after, before, rfl⟩ := List.append_of_mem issued
      have forward := regular.forward ((thread, .readClock now) :: after) before issuer request requested _ rfl
        thread now (List.mem_cons_self ..)
      exact absurd early (not_lt.mpr forward)
  | consult stale sharing => exact ⟨told.1.cons _, told.2.1, told.2.2.1, stale, sharing⟩
  | skip stale alone => exact ⟨told.1.cons _, told.2.1, told.2.2.1, stale⟩
  | useShared =>
    obtain ⟨kept, kind, sinceEpoch, stale, sharing⟩ := told
    simp only [effect, if_true, Option.ite_none_right_eq_some] at acted
    have late := kept.stale sinceEpoch stale
    exact (kept_shared regular.tail kept kind sharing late stored acted.1).2.cons _
  | missShared => exact ⟨told.1.cons _, told.2.1, told.2.2.1, told.2.2.2.1⟩
  | @unreadable client now token =>
    obtain ⟨kept, kind, sinceEpoch, stale⟩ := told
    refine ⟨fun isEmpty => ?_, fun sharing kind => (kept.shares sharing kind).cons _, fun now' _ current => ?_⟩
    · exact absurd isEmpty (regular.nonempty _ _ _ _ _ (List.mem_cons_self ..))
    · refine .inr ⟨thread, tokenRequest client.config, now, List.mem_cons_self .., ?_⟩
      exact lt_of_lt_of_le current.2 (kept.stale sinceEpoch stale)
  | issued read alone => exact kept_issued told.1 regular
  | issuedShared read sharing =>
    exact ⟨kept_issued told.1 regular, told.2.1, sharing, thread, _, _, List.mem_cons_self .., rfl⟩

theorem stored_step {entries entries' : Entries} {action : Action} {phase phase' : Phase}
    (told : Told trace phase)
    (stored : ∀ key entry, entries.lookup key = some entry → Stored trace key entry)
    (moved : Moves instances phase action phase') (acted : effect action entries = some entries')
    {key : String} {entry : Entry} (found : entries'.lookup key = some entry) :
    Stored ((thread, action) :: trace) key entry := by
  cases moved with
  | @store client =>
    obtain ⟨kept, kind, sharing, issuer, requested, lifetime, issued, isExpiry⟩ := told
    obtain rfl : UnityCatalogTokens.store entries _ _ = entries' := Option.some.inj acted
    by_cases same : key = client.config.ucUrl
    · rw [same, UnityCatalogTokens.store, AList.lookup_insert] at found
      rw [← Option.some.inj found, same]
      refine Stored.cons ⟨client.config, issuer, requested, lifetime, kept.shares sharing kind, rfl, issued, ?_⟩ _
      simp only [isExpiry]
    · rw [UnityCatalogTokens.store, AList.lookup_insert_ne same] at found
      exact (stored key entry found).cons _
  | _ =>
    have same : entries = entries' := by
      simp only [effect, Option.some.injEq, Option.ite_none_right_eq_some, if_true, if_false,
        Bool.false_eq_true] at acted
      first
        | exact acted
        | exact acted.2
    exact (stored key entry (same ▸ found)).cons _

/-! ## Runs -/

/-- What is known in a run: of every client, and of every entry of the shared cache. -/
structure Known (trace : Trace Thread) (state : Threads Thread Phase Entries) : Prop where
  told : ∀ thread, Told trace (state.phases thread)
  stored : ∀ key entry, state.shared.lookup key = some entry → Stored trace key entry

theorem run_known (run : Run (system instances Thread) trace state) (regular : Regular trace) :
    Known trace state := by
  refine @Run.invariant _ _ _ (fun trace state => Regular trace → Known trace state) trace state run
    (fun state initial _ => ⟨fun thread => ?_, fun key entry found => ?_⟩)
    (fun trace state label state' _ known step regular => ?_) regular
  · rw [show state.phases thread = .idle from initial.2 thread]
    exact trivial
  · rw [show state.shared = ∅ from initial.1] at found
    cases found
  · obtain ⟨told, stored⟩ := known regular.tail
    refine ⟨fun thread => ?_, fun key entry => stored_step (told label.1) stored step.moved step.acted⟩
    by_cases same : thread = label.1
    · rw [same]
      exact (told label.1).moves regular stored step.moved step.acted
    · rw [step.others thread same]
      exact (told thread).cons label

/-- In every regular run, every cached token that a client uses was issued to the client's own instance and is at
least 30 seconds away from its expiry. -/
theorem cached_tokens_own_and_fresh (run : Run (system instances Thread) trace state)
    (regular : Regular trace) {after before : Trace Thread} {shared : Bool}
    {config : UnityCatalogInstanceSection} {now : Time} {token : String}
    (parts : trace = after ++ (thread, .useCached shared config now token) :: before) :
    OwnAndFresh before config now token := by
  obtain ⟨left, right, prior, step⟩ := run.split parts
  rw [parts] at regular
  have regularBefore := regular.tails.tail
  obtain ⟨told, stored⟩ := run_known prior regularBefore
  have toldThread := told thread
  have moved : Moves instances (left.phases thread) (.useCached shared config now token)
    (right.phases thread) := step.moved
  have acted : effect (.useCached shared config now token) left.shared = some right.shared := step.acted
  generalize left.phases thread = phase at moved toldThread
  generalize right.phases thread = phase' at moved
  cases moved with
  | useOwn current => exact toldThread.2.2.2 current
  | useShared =>
    obtain ⟨kept, kind, sinceEpoch, stale, sharing⟩ := toldThread
    simp only [effect, if_true, Option.ite_none_right_eq_some] at acted
    exact (kept_shared regularBefore kept kind sharing (kept.stale sinceEpoch stale) stored acted.1).1

/-! ## Two instances of one server -/

def east : UnityCatalogInstanceSection where
  ucUrl := "https://lake/api"
  oauth2TokenEndpoint := "https://lake/token"
  credentialsKind := "oauth2_client_credentials"
  bearerToken := ""
  oauth2ClientId := "east"
  oauth2ClientSecret := "first"
  oauth2Scope := ""

/-- The same server under other credentials. -/
def west : UnityCatalogInstanceSection :=
  { east with oauth2ClientId := "west", oauth2ClientSecret := "second" }

def bothInstances : Instances :=
  (AList.insert "west" west (AList.insert "east" east ∅))

/-- One client has stored a token of the first instance. -/
def storedTrace : Trace Bool :=
  [(true, .store "https://lake/api" ⟨"token", 1000 + 3600 - 30⟩),
    (true, .issue (tokenRequest east) 1000 "token" (some 3600)), (true, .missShared "https://lake/api" 1000),
    (true, .internal), (true, .readClock 1000), (true, .construct east true)]

/-- Another client uses the shared token for an instance. -/
def usedTrace (config : UnityCatalogInstanceSection) : Trace Bool :=
  [(false, .useCached true config 1001 "token"), (false, .internal), (false, .readClock 1001),
    (false, .construct config true)] ++ storedTrace

theorem run_used {name : String} {config : UnityCatalogInstanceSection}
    (configured : bothInstances.lookup name = some config)
    (kind : config.credentialsKind = "oauth2_client_credentials") (sameServer : config.ucUrl = east.ucUrl) :
    ∃ state, Run (system bothInstances Bool) (usedTrace config) state := by
  have start : Run (system bothInstances Bool) [] ⟨∅, fun _ => .idle⟩ := .start ⟨rfl, fun _ => rfl⟩
  have idle : Run (system bothInstances Bool) _ _ := run_focus start true rfl
  have constructed : Run (system bothInstances Bool) _ _ :=
    run_update idle (@Moves.construct _ "east" east true rfl) rfl
  have read : Run (system bothInstances Bool) _ _ :=
    run_update constructed (@Moves.readClock _ _ 1000 rfl (by norm_num)) rfl
  have consulted : Run (system bothInstances Bool) _ _ :=
    run_update read (.consult (fun current => current.1 rfl) rfl) rfl
  have missed : Run (system bothInstances Bool) _ _ := run_update consulted .missShared rfl
  have issued : Run (system bothInstances Bool) _ _ :=
    run_update missed (@Moves.issuedShared _ _ _ 3600 "token" .missing rfl rfl) rfl
  have stored : Run (system bothInstances Bool) _ _ := run_update issued .store rfl
  have other : Run (system bothInstances Bool) _ _ := run_focus stored false rfl
  have otherConstructed : Run (system bothInstances Bool) _ _ :=
    run_update other (@Moves.construct _ name config true configured) rfl
  have otherRead : Run (system bothInstances Bool) _ _ :=
    run_update otherConstructed (@Moves.readClock _ _ 1001 kind (by norm_num)) rfl
  have otherConsulted : Run (system bothInstances Bool) _ _ :=
    run_update otherRead (.consult (fun current => current.1 rfl) rfl) rfl
  let entries := UnityCatalogTokens.store ∅ east.ucUrl ⟨"token", 1000 + 3600 - 30⟩
  have fresh : ¬ (1001 : Time) ≥ 1000 + 3600 - 30 := by norm_num
  have found : tryGet entries config.ucUrl 1001 = some "token" := by
    have isEntry : entries.lookup east.ucUrl = some ⟨"token", 1000 + 3600 - 30⟩ := AList.lookup_insert _
    rw [sameServer, tryGet, isEntry]
    exact if_neg fresh
  have used : effect (.useCached true config 1001 "token") entries = some entries := if_pos found
  exact ⟨_, run_update otherConsulted .useShared used⟩

/-- A client of the same instance may use the token. -/
theorem regular_used : Regular (usedTrace east) where
  identified first second isFirst isSecond _ := by
    obtain ⟨_, firstThread, isFirst⟩ := isFirst
    obtain ⟨_, secondThread, isSecond⟩ := isSecond
    simp [usedTrace, storedTrace] at isFirst isSecond
    rcases isFirst with isFirst | isFirst <;> rcases isSecond with isSecond | isSecond <;>
      rw [isFirst.2, isSecond.2]
  nonempty thread request requested token lifetime issued := by
    simp [usedTrace, storedTrace] at issued
    rw [issued.2.2.2.1]
    decide
  forward after before thread request requested token parts := by
    have member : (thread, .issue request requested token none) ∈ usedTrace east := by
      rw [parts]
      exact List.mem_append_right _ (List.mem_cons_self ..)
    simp [usedTrace, storedTrace] at member

theorem cached_tokens_own_and_fresh_shared :
    OwnAndFresh ((usedTrace east).tail) east 1001 "token" := by
  obtain ⟨state, run⟩ := @run_used "east" east rfl rfl rfl
  exact @cached_tokens_own_and_fresh Bool bothInstances _ false state run regular_used [] _ true east 1001
    "token" rfl

/-- The configuration is accepted, and a client of one instance uses a token of the other. -/
theorem cached_tokens_of_another_instance :
    validateInstances bothInstances = .ok () ∧
      (∃ state, Run (system bothInstances Bool) (usedTrace west) state) ∧
      (false, .useCached true west 1001 "token") ∈ usedTrace west ∧
      ¬ OwnAndFresh (usedTrace west) west 1001 "token" := by
  refine ⟨rfl, @run_used "west" west rfl rfl rfl, List.mem_cons_self .., ?_⟩
  rintro ⟨issuer, requested, lifetime, issued, _⟩
  simp [usedTrace, storedTrace, tokenRequest, east, west] at issued

end KernelLake.UnityCatalogTokenProofs
