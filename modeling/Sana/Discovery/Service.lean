import Sana.Shared.Basic

/-!
# One discovery call and its circuit breaker

`DiscoveryService._search_one` asks one provider one query. It runs between
awaits without interruption, so a call is a phase that names the await it is
suspended in, and a step takes it to the next one. The breaker of the provider is
shared by all calls to it: a call asks it for admission once it holds the
concurrency gates, and reports to it after it has given them back. What lies
between the two is two awaits, and each of them can be cancelled.
-/

namespace Sana.Discovery

/-! ## Queries and responses -/

/-- `DiscoveryQuery`. -/
@[ext]
structure DiscoveryQuery where
  key : String
  text : String
  locale : String
  freshnessDays : Option Int := none
  directUrls : List String := []
  required : Text.isBlank key = false ∧ Text.isBlank text = false ∧ Text.isBlank locale = false
deriving Repr

instance : DecidableEq DiscoveryQuery := fun _ _ => decidable_of_iff _ DiscoveryQuery.ext_iff.symm

/-- `SearchHit`. -/
structure SearchHit where
  provider : String
  queryKey : String
  rank : Nat
  url : String
  canonicalUrl : String
  title : String
  snippet : String
  score : Rat
  publishedAt : Option Time := none
deriving DecidableEq, Repr

/-- `ProviderResponse`, without its measurements. -/
structure ProviderResponse where
  provider : String
  queryKey : String
  hits : List SearchHit
  error : Option TypedError := none
  required : Text.isBlank provider = false ∧ Text.isBlank queryKey = false
  own : ∀ hit ∈ hits, hit.provider = provider ∧ hit.queryKey = queryKey
deriving DecidableEq, Repr

/-- `ProviderResponse.ok`. -/
def ProviderResponse.ok (r : ProviderResponse) : Bool := r.error.isNone

/-- A provider, as the service knows it: by its name. -/
structure Provider where
  name : String
  required : Text.isBlank name = false
deriving DecidableEq, Repr

/-- The response of a call that ended with an error. -/
def Provider.failed (provider : Provider) (query : DiscoveryQuery) (error : TypedError) :
    ProviderResponse where
  provider := provider.name
  queryKey := query.key
  hits := []
  error := some error
  required := ⟨provider.required, query.required.1⟩
  own := by simp

/-! ## The circuit breaker -/

/-- `CircuitState`. -/
inductive CircuitState
  | closed | opened | halfOpen
deriving DecidableEq, Repr

/-- `CircuitBreaker`. `recovery` is `timedelta(seconds=recovery_seconds)`. -/
structure CircuitBreaker where
  failureThreshold : Nat := 3
  recovery : Duration := seconds 30
  state : CircuitState := .closed
  failureCount : Nat := 0
  openedAt : Option Time := none
  probeInFlight : Bool := false
  positive : 1 ≤ failureThreshold ∧ 0 ≤ recovery
  /-- What `allow_request` asserts. -/
  timed : state = .opened → openedAt.isSome = true
deriving DecidableEq, Repr

namespace CircuitBreaker

/-- The half-open breaker with no probe out. -/
def halfOpened (b : CircuitBreaker) : CircuitBreaker :=
  { b with state := .halfOpen, probeInFlight := false, timed := by simp }

/-- The last two statements of `allow_request`: one request at a time. -/
def admitProbe (b : CircuitBreaker) : Bool × CircuitBreaker :=
  if b.probeInFlight then (false, b) else (true, { b with probeInFlight := true })

/-- `allow_request`, at the reading `now` of the clock. -/
def allowRequest (b : CircuitBreaker) (now : Time) : Bool × CircuitBreaker :=
  match hs : b.state with
  | .closed => (true, b)
  | .opened =>
      if now < b.openedAt.get (b.timed hs) + b.recovery then (false, b)
      else b.halfOpened.admitProbe
  | .halfOpen => b.admitProbe

/-- `record_success`. -/
def recordSuccess (b : CircuitBreaker) : CircuitBreaker :=
  { b with
    state := .closed, failureCount := 0, openedAt := none, probeInFlight := false
    timed := by simp }

/-- `_open`. -/
def open_ (b : CircuitBreaker) (now : Time) : CircuitBreaker :=
  { b with state := .opened, openedAt := some now, timed := by simp }

/-- `record_failure`. The count is kept when a half-open breaker opens again. -/
def recordFailure (b : CircuitBreaker) (now : Time) : CircuitBreaker :=
  let b := { b with probeInFlight := false }
  if b.state = .halfOpen then b.open_ now
  else
    let b := { b with failureCount := b.failureCount + 1 }
    if b.failureThreshold ≤ b.failureCount then b.open_ now else b

end CircuitBreaker

/-! ## `_search_one` -/

/-- How the await of `provider.search` ends, cancellation apart. -/
inductive ProviderOutcome
  | returned (response : ProviderResponse)
  /-- `asyncio.timeout(remaining)` expired, or the provider raised a `TimeoutError`. -/
  | timedOut
  | raised (error : TypedError)
  /-- Any other `Exception`. -/
  | crashed
deriving DecidableEq, Repr

/-- The response `_search_one` makes of it. -/
def ProviderOutcome.response (provider : Provider) (query : DiscoveryQuery) :
    ProviderOutcome → ProviderResponse
  | .returned response => response
  | .timedOut => provider.failed query
      { category := .transient, code := "provider_timeout"
        message := s!"Provider timed out: {provider.name}", retryable := true }
  | .raised error => provider.failed query error
  | .crashed => provider.failed query
      { category := .internal, code := "provider_unexpected_error"
        message := s!"Provider failed unexpectedly: {provider.name}", retryable := false }

/-- The await a call is suspended in, or how it ended. -/
inductive Phase
  /-- On its way into `self._concurrency.acquire`. -/
  | acquiring
  /-- Admitted, in `provider.search`. -/
  | searching
  /-- Admitted and answered, on its way out of the concurrency gates. -/
  | answered (response : ProviderResponse)
  /-- Not admitted, on its way out of the concurrency gates. -/
  | refused (response : ProviderResponse)
  /-- Cancelled, on its way out of the concurrency gates. -/
  | unwinding (admitted : Bool)
  | returned (response : ProviderResponse)
  | cancelled
deriving DecidableEq, Repr

/-- The admitted requests that have not ended. -/
def Phase.inProgress : Phase → Bool
  | .searching | .answered _ => true
  | .unwinding admitted => admitted
  | .acquiring | .refused _ | .returned _ | .cancelled => false

/-- A call of `_search_one`: its arguments and where it is. -/
structure Call where
  query : DiscoveryQuery
  deadline : Time
  phase : Phase := .acquiring
deriving DecidableEq, Repr

/-- `discovery_deadline_exceeded`. -/
def deadlineExceeded : TypedError where
  category := .budget
  code := "discovery_deadline_exceeded"
  message := "Discovery deadline was exhausted before provider call"
  retryable := false

/-- `provider_circuit_open`. -/
def circuitOpen (provider : Provider) : TypedError where
  category := .transient
  code := "provider_circuit_open"
  message := s!"Provider circuit is open: {provider.name}"
  retryable := true

/-- The categories `_search_one` reports as a failure of the provider. -/
def countsAsFailure (error : TypedError) : Bool :=
  error.category ∈ [ErrorCategory.transient, ErrorCategory.internal]

/--
From the concurrency gates to the next await. `now` and `later` are the readings
of the clock for the deadline and for the breaker.
-/
def enter (provider : Provider) (b : CircuitBreaker) (call : Call) (now later : Time) :
    CircuitBreaker × Phase :=
  if call.deadline - now ≤ 0 then
    (b, .refused (provider.failed call.query deadlineExceeded))
  else
    match b.allowRequest later with
    | (false, b) => (b, .refused (provider.failed call.query (circuitOpen provider)))
    | (true, b) => (b, .searching)

/-- What the breaker is told of a response. -/
def report (b : CircuitBreaker) (response : ProviderResponse) (now : Time) : CircuitBreaker :=
  match response.error with
  | none => b.recordSuccess
  | some error => if countsAsFailure error then b.recordFailure now else b

/-- The calls to one provider and the breaker they share. -/
structure Circuit where
  provider : Provider
  breaker : CircuitBreaker
  calls : List Call := []
deriving DecidableEq, Repr

namespace Circuit

/-- One call runs from one await to the next. Calls are named by their position. -/
inductive Action
  /-- `asyncio.create_task(self._search_one(...))`. -/
  | start (query : DiscoveryQuery) (deadline : Time)
  /-- The concurrency gates are held. -/
  | entered (i : Nat) (now later : Time)
  /-- `provider.search` is over. -/
  | ended (i : Nat) (outcome : ProviderOutcome)
  /-- The concurrency gates are given back. -/
  | left (i : Nat) (now : Time)
  /-- `CancelledError` is raised at the await. -/
  | cancel (i : Nat)
deriving DecidableEq, Repr

/-- The circuit with a call moved to a phase. -/
def move (c : Circuit) (i : Nat) (call : Call) (phase : Phase) (b : CircuitBreaker) : Circuit :=
  { c with breaker := b, calls := c.calls.set i { call with phase } }

/-- What an action does, when the call it names is at that await. -/
def act (c : Circuit) : Action → Option Circuit
  | .start query deadline => some { c with calls := c.calls ++ [{ query, deadline }] }
  | .entered i now later => do
      let call ← c.calls[i]?
      match call.phase with
      | .acquiring =>
          let (b, phase) := enter c.provider c.breaker call now later
          some (c.move i call phase b)
      | _ => none
  | .ended i outcome => do
      let call ← c.calls[i]?
      match call.phase with
      | .searching =>
          some (c.move i call (.answered (outcome.response c.provider call.query)) c.breaker)
      | _ => none
  | .left i now => do
      let call ← c.calls[i]?
      match call.phase with
      | .answered r => some (c.move i call (.returned r) (report c.breaker r now))
      | .refused r => some (c.move i call (.returned r) c.breaker)
      | .unwinding _ => some (c.move i call .cancelled c.breaker)
      | _ => none
  | .cancel i => do
      let call ← c.calls[i]?
      match call.phase with
      -- the `finally` of `acquire` still gives its reference back
      | .acquiring => some (c.move i call (.unwinding false) c.breaker)
      | .searching => some (c.move i call (.unwinding true) c.breaker)
      -- already in that `finally`: nothing is left to run
      | .answered _ | .refused _ | .unwinding _ => some (c.move i call .cancelled c.breaker)
      | .returned _ | .cancelled => none

/-- A breaker as it is built, before any call. -/
def Init (c : Circuit) : Prop :=
  c.breaker.state = .closed ∧ c.breaker.failureCount = 0 ∧ c.breaker.openedAt = none
    ∧ c.breaker.probeInFlight = false ∧ c.calls = []

/-- One call runs on. -/
def Step (c c' : Circuit) : Prop := ∃ a, c.act a = some c'

end Circuit

end Sana.Discovery
