import Mathlib.Data.Rat.Floor

/-! # Circuit breaking and rate limiting

Times are exact, in milliseconds. -/
namespace Tracking

inductive CircuitStatus where
  | closed
  | «open»
  | halfOpen
  deriving DecidableEq

structure CircuitBreakerDescriptor where
  failureThreshold : ℕ
  resetTimeoutMs : ℚ
  halfOpenSuccesses : ℕ

structure CircuitState where
  status : CircuitStatus
  consecutiveFailures : ℕ
  halfOpenSuccesses : ℕ
  openedUntilMs : Option ℚ
  lastTransitionAtMs : Option ℚ

def initialCircuit : CircuitState := ⟨.closed, 0, 0, none, none⟩

def canAttempt (state : CircuitState) (nowMs : ℚ) : Bool :=
  match state.status with
  | .closed => true
  | .halfOpen => true
  | .open => state.openedUntilMs.any (· ≤ nowMs)

def refreshCircuit (state : CircuitState) (nowMs : ℚ) : CircuitState :=
  if state.status = .open ∧ state.openedUntilMs.any (· ≤ nowMs) then
    { state with status := .halfOpen, halfOpenSuccesses := 0, lastTransitionAtMs := some nowMs }
  else state

def recordSuccess (state : CircuitState) (descriptor : CircuitBreakerDescriptor) (nowMs : ℚ) :
    CircuitState :=
  if state.status = .halfOpen then
    if descriptor.halfOpenSuccesses ≤ state.halfOpenSuccesses + 1 then
      { initialCircuit with lastTransitionAtMs := some nowMs }
    else { state with halfOpenSuccesses := state.halfOpenSuccesses + 1 }
  else { state with status := .closed, consecutiveFailures := 0, halfOpenSuccesses := 0 }

def openedBy (state : CircuitState) (descriptor : CircuitBreakerDescriptor) (nowMs : ℚ) :
    CircuitState :=
  ⟨.open, state.consecutiveFailures + 1, 0, some (nowMs + descriptor.resetTimeoutMs), some nowMs⟩

def recordFailure (state : CircuitState) (descriptor : CircuitBreakerDescriptor) (nowMs : ℚ) :
    CircuitState :=
  if state.status = .halfOpen then openedBy state descriptor nowMs
  else if descriptor.failureThreshold ≤ state.consecutiveFailures + 1 then
    openedBy state descriptor nowMs
  else
    { state with status := .closed, consecutiveFailures := state.consecutiveFailures + 1 }

/-- A rate and a burst, neither of them negative. -/
structure RateLimitDescriptor where
  requestsPerSecond : ℚ
  burst : ℚ
  rate_nonneg : 0 ≤ requestsPerSecond
  burst_nonneg : 0 ≤ burst

structure RateLimitState where
  tokens : ℚ
  lastRefillMs : ℚ

def initialRateLimit (descriptor : RateLimitDescriptor) (nowMs : ℚ) : RateLimitState :=
  ⟨descriptor.burst, nowMs⟩

def refill (state : RateLimitState) (descriptor : RateLimitDescriptor) (nowMs : ℚ) :
    RateLimitState :=
  let elapsedMs := max 0 (nowMs - state.lastRefillMs)
  let replenished := elapsedMs / 1000 * descriptor.requestsPerSecond
  ⟨min descriptor.burst (state.tokens + replenished), nowMs⟩

structure RateLimitDecision where
  allowed : Bool
  state : RateLimitState
  retryAfterMs : ℚ

def consumeToken (state : RateLimitState) (descriptor : RateLimitDescriptor) (nowMs : ℚ) :
    RateLimitDecision :=
  let refilled := refill state descriptor nowMs
  if 1 ≤ refilled.tokens then ⟨true, { refilled with tokens := refilled.tokens - 1 }, 0⟩
  else
    let deficit := 1 - refilled.tokens
    ⟨false, refilled, ⌈deficit / descriptor.requestsPerSecond * 1000⌉⟩

section Facts

variable {state : CircuitState} {descriptor : CircuitBreakerDescriptor} {nowMs : ℚ}

theorem refreshCircuit_cases :
    refreshCircuit state nowMs = state ∨
      state.status = .open ∧ (refreshCircuit state nowMs).status = .halfOpen ∧
        (refreshCircuit state nowMs).halfOpenSuccesses = 0 ∧
          (refreshCircuit state nowMs).consecutiveFailures = state.consecutiveFailures := by
  unfold refreshCircuit
  split
  · rename_i h
    exact .inr ⟨h.1, rfl, rfl, rfl⟩
  · exact .inl rfl

theorem not_open_of_canAttempt (h : canAttempt (refreshCircuit state nowMs) nowMs = true) :
    (refreshCircuit state nowMs).status ≠ .open := by
  unfold refreshCircuit at h ⊢
  split
  · exact fun heq => by cases heq
  · rename_i hnot
    rw [if_neg hnot] at h
    intro hopen
    rw [canAttempt, hopen] at h
    exact hnot ⟨hopen, h⟩

theorem recordFailure_opens (h : state.status = .halfOpen ∨
    descriptor.failureThreshold ≤ state.consecutiveFailures + 1) :
    recordFailure state descriptor nowMs = openedBy state descriptor nowMs := by
  unfold recordFailure
  split
  · rfl
  · rename_i hhalf
    rw [if_pos (h.resolve_left hhalf)]

theorem recordFailure_stays (hhalf : state.status ≠ .halfOpen)
    (h : ¬ descriptor.failureThreshold ≤ state.consecutiveFailures + 1) :
    recordFailure state descriptor nowMs =
      { state with status := .closed, consecutiveFailures := state.consecutiveFailures + 1 } := by
  rw [recordFailure, if_neg hhalf, if_neg h]

theorem recordFailure_status :
    (recordFailure state descriptor nowMs).status = .open ↔
      state.status = .halfOpen ∨ descriptor.failureThreshold ≤ state.consecutiveFailures + 1 := by
  constructor
  · intro h
    by_contra hnot
    obtain ⟨hhalf, hbelow⟩ := not_or.mp hnot
    rw [recordFailure_stays hhalf hbelow] at h
    cases h
  · intro h
    rw [recordFailure_opens h]
    rfl

variable {bucket : RateLimitState} {limit : RateLimitDescriptor}

theorem consumeToken_of_token (h : 1 ≤ (refill bucket limit nowMs).tokens) :
    consumeToken bucket limit nowMs = ⟨true,
      { refill bucket limit nowMs with tokens := (refill bucket limit nowMs).tokens - 1 }, 0⟩ :=
  if_pos h

theorem consumeToken_of_empty (h : ¬ 1 ≤ (refill bucket limit nowMs).tokens) :
    (consumeToken bucket limit nowMs).allowed = false ∧
      (consumeToken bucket limit nowMs).state = refill bucket limit nowMs := by
  simp only [consumeToken, if_neg h, and_self]

theorem consumeToken_allowed :
    (consumeToken bucket limit nowMs).allowed = true ↔ 1 ≤ (refill bucket limit nowMs).tokens := by
  by_cases h : 1 ≤ (refill bucket limit nowMs).tokens
  · simp [consumeToken_of_token h, h]
  · simp [(consumeToken_of_empty h).1, h]

end Facts

end Tracking

/-! ## The delivery of one event to one destination

`deliver`, taken apart where it waits for something else. The payload of the request, the metrics
and what a refusal says in detail are not modelled. -/
namespace Tracking

inductive Gate where
  | validation
  | consent
  | identityStitching
  | piiHashing
  | mapping
  | formatting
  | routing

structure EnforcementFailure where
  gate : Gate
  detail : String

inductive DeliveryOutcome where
  | delivered (attempts : ℕ) (latencyMs : ℚ)
  | skippedDuplicate
  | blocked (failure : EnforcementFailure)
  | circuitOpen
  | rateLimited (retryAfterMs : ℚ)
  | deadLettered (attempts : ℕ) (error : String)

structure DeliveryResponse where
  ok : Bool
  statusCode : Option ℕ
  retryable : Bool
  error : Option String
  latencyMs : ℚ

/-- Of a destination, what its delivery is governed by; the retries come from the policy. -/
structure DeliveryPolicy where
  rateLimit : Option RateLimitDescriptor
  circuitBreaker : Option CircuitBreakerDescriptor
  maxAttempts : ℕ
  attempts_pos : 1 ≤ maxAttempts

namespace DeliveryPolicy

def breaker (policy : DeliveryPolicy) : CircuitBreakerDescriptor :=
  policy.circuitBreaker.getD ⟨5, 30000, 2⟩

end DeliveryPolicy

structure DestinationRuntimeState where
  circuit : CircuitState
  rateLimit : RateLimitState

/-- Where a delivery is: before its start, at the claim of the event, about to make a request, at
the dead letter, or back. -/
inductive DeliveryPoint where
  | starting (held : DestinationRuntimeState)
  | claiming (held : DestinationRuntimeState)
  | attempting (attempts : ℕ) (held : DestinationRuntimeState)
  | burying (attempts : ℕ) (lastError : String) (held : DestinationRuntimeState)
  | returned (outcome : DeliveryOutcome) (held : DestinationRuntimeState)

/-- How the loop waits before a further request: the clock when it asks for a token, the backoff of
the policy, and the clock when it is awake again. -/
structure Pacing where
  probedAt : ℚ
  backoffMs : ℚ
  resumedAt : ℚ

/-- What the delivery is answered, with the readings of the clock. -/
inductive DeliveryAnswer where
  /-- It starts, and the preconditions hold or are breached. -/
  | starts (startedAt : ℚ) (breach : Option EnforcementFailure)
  /-- The key was new or not, and the payload and the adapter are there or not. -/
  | claims (isNew : Bool) (unready : Option EnforcementFailure)
  /-- A request, after the pacing of a further one, and the response to it. -/
  | sends (pacing : Pacing) (sentAt answeredAt : ℚ) (response : DeliveryResponse)
  | buries

/-- The rate limiter and then the circuit breaker. -/
def admission (policy : DeliveryPolicy) (held : DestinationRuntimeState) (startedAt : ℚ) :
    DeliveryPoint :=
  match policy.rateLimit with
  | none =>
    let circuit := refreshCircuit held.circuit startedAt
    if canAttempt circuit startedAt then .claiming ⟨circuit, held.rateLimit⟩
    else .returned .circuitOpen ⟨circuit, held.rateLimit⟩
  | some limit =>
    let decision := consumeToken held.rateLimit limit startedAt
    if decision.allowed then
      let circuit := refreshCircuit held.circuit startedAt
      if canAttempt circuit startedAt then .claiming ⟨circuit, decision.state⟩
      else .returned .circuitOpen ⟨circuit, decision.state⟩
    else .returned (.rateLimited decision.retryAfterMs) ⟨held.circuit, decision.state⟩

/-- The token of a further request. Where the bucket is empty the loop sleeps until it should have
one, and asks for it at a moment that has the wait added once more. -/
def pace (policy : DeliveryPolicy) (rateLimit : RateLimitState) (pacing : Pacing) :
    RateLimitState :=
  match policy.rateLimit with
  | none => rateLimit
  | some limit =>
    let probe := consumeToken rateLimit limit pacing.probedAt
    if probe.allowed then probe.state
    else
      let backoffMs := max pacing.backoffMs probe.retryAfterMs
      (consumeToken probe.state limit (pacing.resumedAt + backoffMs)).state

/-- `String(response.statusCode ?? 0)`, where the response has no error of its own. -/
def errorOf (response : DeliveryResponse) : String :=
  response.error.getD s!"status {response.statusCode.getD 0}"

def afterResponse (policy : DeliveryPolicy) (attempts : ℕ) (held : DestinationRuntimeState)
    (answeredAt : ℚ) (response : DeliveryResponse) : DeliveryPoint :=
  if response.ok then
    .returned (.delivered attempts response.latencyMs)
      { held with circuit := recordSuccess held.circuit policy.breaker answeredAt }
  else
    let failed : DestinationRuntimeState :=
      { held with circuit := recordFailure held.circuit policy.breaker answeredAt }
    if response.retryable = true ∧ attempts < policy.maxAttempts then .attempting attempts failed
    else .burying attempts (errorOf response) failed

/-- A step of `deliver`. -/
def deliver (policy : DeliveryPolicy) : DeliveryPoint → DeliveryAnswer → Option DeliveryPoint
  | .starting held, .starts _ (some breach) => some (.returned (.blocked breach) held)
  | .starting held, .starts startedAt none => some (admission policy held startedAt)
  | .claiming held, .claims false _ => some (.returned .skippedDuplicate held)
  | .claiming held, .claims true (some failure) => some (.returned (.blocked failure) held)
  | .claiming held, .claims true none => some (.attempting 0 held)
  | .attempting attempts held, .sends pacing _ answeredAt response =>
    let rateLimit := if attempts = 0 then held.rateLimit else pace policy held.rateLimit pacing
    some (afterResponse policy (attempts + 1) { held with rateLimit := rateLimit } answeredAt
      response)
  | .burying attempts lastError held, .buries =>
    some (.returned (.deadLettered attempts lastError) held)
  | _, _ => none

end Tracking
