import KernelLake.Library.Interleavings
import KernelLake.Library.Registries
import Mathlib.Algebra.Order.Ring.Rat
import Mathlib.Tactic.Linarith

/-!
The access tokens of Unity Catalog clients: a token of its own that each client keeps, and a cache that all
clients share.

Any number of clients are constructed for configured instances, and each is asked for a bearer token any
number of times. A client runs the program below one action at a time; each access to the shared cache is
one action. The clock and the token endpoints are free to answer anything, except that the clock reads no
time before the epoch. Times are exact numbers of seconds.
-/

namespace KernelLake.UnityCatalogTokens

open KernelLake.Library.Interleavings KernelLake.Library.Registries

/-- Seconds since the epoch. -/
abbrev Time := ℚ

/-! ## Configuration -/

structure UnityCatalogInstanceSection where
  ucUrl : String
  oauth2TokenEndpoint : String
  credentialsKind : String := "none"
  bearerToken : String
  oauth2ClientId : String
  oauth2ClientSecret : String
  oauth2Scope : String
  deriving DecidableEq

abbrev Instances := Registry String UnityCatalogInstanceSection

def credentialsKinds : List String := ["none", "bearer_token", "oauth2_client_credentials"]

/-- What `validate_config` checks of one instance. -/
def validateInstance (name : String) (config : UnityCatalogInstanceSection) : Except String Unit := do
  if config.ucUrl = "" then
    throw ("unity_catalog.instances." ++ name ++ ".uc_url must not be empty")
  if config.credentialsKind ∉ credentialsKinds then
    throw ("unity_catalog.instances." ++ name ++ ".credentials_kind '" ++ config.credentialsKind ++
      "' is unsupported (expected 'none', 'bearer_token', or 'oauth2_client_credentials')")
  if config.credentialsKind = "bearer_token" ∧ config.bearerToken = "" then
    throw ("unity_catalog.instances." ++ name ++ ".bearer_token must not be empty when credentials_kind is " ++
      "'bearer_token'")
  if config.credentialsKind = "oauth2_client_credentials" then
    if config.oauth2ClientId = "" ∨ config.oauth2ClientSecret = "" then
      throw ("unity_catalog.instances." ++ name ++ ".oauth2_client_id and oauth2_client_secret must both be " ++
        "set when credentials_kind is 'oauth2_client_credentials'")
    if config.oauth2TokenEndpoint = "" then
      throw ("unity_catalog.instances." ++ name ++ ".oauth2_token_endpoint must not be empty when " ++
        "credentials_kind is 'oauth2_client_credentials'")

/-- What `validate_config` asks of `unity_catalog.instances`. -/
def validateInstances (instances : Instances) : Except String Unit :=
  instances.entries.forM fun entry => validateInstance entry.1 entry.2

/-- What a token endpoint is asked for. An empty scope is left out of the request. -/
structure TokenRequest where
  endpoint : String
  clientId : String
  clientSecret : String
  scope : String
  deriving DecidableEq

def tokenRequest (config : UnityCatalogInstanceSection) : TokenRequest where
  endpoint := config.oauth2TokenEndpoint
  clientId := config.oauth2ClientId
  clientSecret := config.oauth2ClientSecret
  scope := config.oauth2Scope

/-- The `expires_in` of a reply. -/
inductive ExpiresIn
  | missing
  | seconds (value : Time)
  | unreadable

def ExpiresIn.read : ExpiresIn → Option Time
  | .missing => some 3600
  | .seconds value => some value
  | .unreadable => none

/-! ## The shared cache -/

structure Entry where
  token : String
  expiry : Time

abbrev Entries := Registry String Entry

def tryGet (entries : Entries) (key : String) (now : Time) : Option String :=
  match entries.lookup key with
  | none => none
  | some entry => if now ≥ entry.expiry then none else some entry.token

def store (entries : Entries) (key : String) (entry : Entry) : Entries :=
  entries.insert key entry

/-! ## Clients -/

/-- A client, and whether it was given the shared cache. -/
structure Client where
  config : UnityCatalogInstanceSection
  sharing : Bool
  cachedToken : String
  expiry : Time

/-- A lifetime is missing where the reply's could not be read. -/
inductive Action
  | construct (config : UnityCatalogInstanceSection) (sharing : Bool)
  | useConfigured (token : String)
  | readClock (now : Time)
  | useCached (shared : Bool) (config : UnityCatalogInstanceSection) (now : Time) (token : String)
  | missShared (key : String) (now : Time)
  | issue (request : TokenRequest) (requested : Time) (token : String) (lifetime : Option Time)
  | store (key : String) (entry : Entry)
  | internal

inductive Phase
  | idle
  | ready (client : Client)
  | deciding (client : Client) (now : Time)
  | consulting (client : Client) (now : Time)
  | requesting (client : Client) (now : Time)
  | storing (client : Client)

/-- The client's own token is there and not about to expire. -/
def Current (client : Client) (now : Time) : Prop :=
  client.cachedToken ≠ "" ∧ now < client.expiry - 30

/-- The moves of a client. -/
inductive Moves (instances : Instances) : Phase → Action → Phase → Prop
  | construct {name : String} {config : UnityCatalogInstanceSection} {sharing : Bool}
      (configured : instances.lookup name = some config) :
      Moves instances .idle (.construct config sharing) (.ready ⟨config, sharing, "", 0⟩)
  | bearerToken {client : Client} (kind : client.config.credentialsKind = "bearer_token") :
      Moves instances (.ready client) (.useConfigured client.config.bearerToken) (.ready client)
  | noToken {client : Client} (notBearer : client.config.credentialsKind ≠ "bearer_token")
      (notOauth : client.config.credentialsKind ≠ "oauth2_client_credentials") :
      Moves instances (.ready client) (.useConfigured "") (.ready client)
  | readClock {client : Client} {now : Time}
      (kind : client.config.credentialsKind = "oauth2_client_credentials") (sinceEpoch : 0 ≤ now) :
      Moves instances (.ready client) (.readClock now) (.deciding client now)
  | useOwn {client : Client} {now : Time} (current : Current client now) :
      Moves instances (.deciding client now) (.useCached false client.config now client.cachedToken)
        (.ready client)
  | consult {client : Client} {now : Time} (stale : ¬ Current client now) (sharing : client.sharing = true) :
      Moves instances (.deciding client now) .internal (.consulting client now)
  | skip {client : Client} {now : Time} (stale : ¬ Current client now) (alone : client.sharing = false) :
      Moves instances (.deciding client now) .internal (.requesting client now)
  | useShared {client : Client} {now : Time} {token : String} :
      Moves instances (.consulting client now) (.useCached true client.config now token)
        (.ready { client with cachedToken := token })
  | missShared {client : Client} {now : Time} :
      Moves instances (.consulting client now) (.missShared client.config.ucUrl now) (.requesting client now)
  | requestRaised {client : Client} {now : Time} :
      Moves instances (.requesting client now) .internal (.ready client)
  | unreadable {client : Client} {now : Time} {token : String} {expiresIn : ExpiresIn}
      (unread : expiresIn.read = none) :
      Moves instances (.requesting client now) (.issue (tokenRequest client.config) now token none)
        (.ready { client with cachedToken := token })
  | issued {client : Client} {now lifetime : Time} {token : String} {expiresIn : ExpiresIn}
      (read : expiresIn.read = some lifetime) (alone : client.sharing = false) :
      Moves instances (.requesting client now) (.issue (tokenRequest client.config) now token (some lifetime))
        (.ready { client with cachedToken := token, expiry := now + lifetime })
  | issuedShared {client : Client} {now lifetime : Time} {token : String} {expiresIn : ExpiresIn}
      (read : expiresIn.read = some lifetime) (sharing : client.sharing = true) :
      Moves instances (.requesting client now) (.issue (tokenRequest client.config) now token (some lifetime))
        (.storing { client with cachedToken := token, expiry := now + lifetime })
  | store {client : Client} :
      Moves instances (.storing client) (.store client.config.ucUrl ⟨client.cachedToken, client.expiry - 30⟩)
        (.ready client)

/-- What an action does to the shared cache. An outcome that it does not bear out makes an action
impossible. -/
def effect (action : Action) (entries : Entries) : Option Entries :=
  match action with
  | .useCached shared config now token =>
    if shared then if tryGet entries config.ucUrl now = some token then some entries else none
    else some entries
  | .missShared key now => if tryGet entries key now = none then some entries else none
  | .store key entry => some (store entries key entry)
  | _ => some entries

/-- Calls of `bearer_token_for_request`, by clients of the configured instances with one shared cache, which is empty
at first. -/
def program (instances : Instances) (Thread : Type) : Program Thread Phase Action Entries where
  initial entries := entries = ∅
  idle := .idle
  moves := Moves instances
  effect _ := effect

abbrev Trace (Thread : Type) := List (Thread × Action)

def system (instances : Instances) (Thread : Type) : System (Threads Thread Phase Entries) (Thread × Action) :=
  (program instances Thread).system

end KernelLake.UnityCatalogTokens
