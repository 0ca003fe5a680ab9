import Lumo.Calendars
import Lumo.TieredCaches

/-! # The entitlement guard

Policies, quotas, the decision and its pipeline, and the calls of the guard. What the collaborators
of a call do is given with the call. Latencies, traces, explanations and the invalidation of the
cache are not modelled; what the distributed cache gives back is what it was given. -/
namespace Entitlement

inductive EntitlementPolicy where
  | allow
  | deny
  | readOnly
  | limited
  | trial
  | gracePeriod
  | expired
  | suspended
  | internal
  | preview

def EntitlementPolicy.text : EntitlementPolicy → String
  | allow => "allow"
  | deny => "deny"
  | readOnly => "read_only"
  | limited => "limited"
  | trial => "trial"
  | gracePeriod => "grace_period"
  | expired => "expired"
  | suspended => "suspended"
  | internal => "internal"
  | preview => "preview"

inductive EnforcementAction where
  | read
  | write
  deriving DecidableEq

def EnforcementAction.text : EnforcementAction → String
  | read => "read"
  | write => "write"

inductive EnforcementTarget where
  | command
  | api
  | graphql
  | adminAction
  | backgroundJob
  | workflow
  | scheduledTask
  | aiRequest
  | marketplaceOperation
  | sdk
  | cli

def policyPermits : EntitlementPolicy → EnforcementAction → Bool
  | .allow, _ | .limited, _ | .trial, _ | .gracePeriod, _ | .internal, _ | .preview, _ => true
  | .readOnly, action => action == .read
  | .deny, _ | .expired, _ | .suspended, _ => false

inductive QuotaState where
  | ok
  | warning
  | softExceeded
  | hardExceeded
  | throttled
  deriving DecidableEq

def QuotaState.text : QuotaState → String
  | ok => "ok"
  | warning => "warning"
  | softExceeded => "soft_exceeded"
  | hardExceeded => "hard_exceeded"
  | throttled => "throttled"

structure QuotaVerdict where
  resource : String
  state : QuotaState
  used : ℚ
  limit : ℚ
  ratio : ℚ

structure QuotaRequest where
  tenant : String
  resource : String
  amount : Option ℚ

def quotaBlocks (state : QuotaState) : Bool := state == .hardExceeded || state == .throttled

structure EntitlementExplanationData where
  requiredPlan : Option String
  currentPlan : Option String
  missingCapability : Option String
  missingDependency : Option String
  merchantOverride : Option String
  platformOverride : Option String
  featureFlagStatus : Option String

inductive PrincipalKind where
  | customer
  | staff
  | service
  deriving DecidableEq

structure EntitlementRequest where
  tenant : String
  featureKey : String
  action : Option EnforcementAction
  resource : Option String
  amount : Option ℚ
  principalId : Option String
  principalKind : Option PrincipalKind
  correlationId : Option String
  deriving DecidableEq

/-- `request.action ?? "write"`. -/
def EntitlementRequest.enforced (request : EntitlementRequest) : EnforcementAction :=
  request.action.getD .write

structure EntitlementDecision where
  featureKey : String
  allowed : Bool
  source : String
  policy : Option EntitlementPolicy
  quota : Option QuotaVerdict
  reason : Option String
  explain : Option EntitlementExplanationData
  decisionId : Option String
  correlationId : Option String

structure AuditMetadata where
  source : String
  target : EnforcementTarget
  action : EnforcementAction
  policy : Option EntitlementPolicy
  quota : Option QuotaState
  reason : Option String

structure AuditEvent where
  principalId : String
  principalKind : PrincipalKind
  permission : String
  /-- `"allow"`, as against `"deny"`. -/
  allow : Bool
  occurredAt : String
  tenantId : String
  metadata : AuditMetadata

/-- What the collaborators of a guard do in one call. An error stands for one that is thrown. The
policy port, the quota port and the audit trail may be absent; a sink that is absent throws
nothing. -/
structure Collaborators where
  check : EntitlementRequest → Except Unit EntitlementDecision
  resolve : Option (EntitlementRequest → Except Unit EntitlementPolicy)
  quota : Option (QuotaRequest → Except Unit QuotaVerdict)
  record : Option (AuditEvent → Except Unit Unit)
  now : ℤ
  reading : TieredCache.Access
  writing : TieredCache.Access
  metrics : Except Unit Unit
  telemetry : Except Unit Unit
  onDecision : Except Unit Unit

def codeUnits (s : String) : List ℕ :=
  s.toList.flatMap fun c =>
    if c.toNat < 0x10000 then [c.toNat]
    else [0xD800 + (c.toNat - 0x10000) / 0x400, 0xDC00 + (c.toNat - 0x10000) % 0x400]

def hashOf (seed : String) : ℕ :=
  (codeUnits seed).foldl (fun hash unit => (hash * 32 + hash + unit) % 2 ^ 32) 5381

def deriveDecisionId (tenant featureKey : String) (action : EnforcementAction) (source : String)
    (allowed : Bool) : String :=
  let seed := tenant ++ "|" ++ featureKey ++ "|" ++ action.text ++ "|" ++ source ++ "|" ++
    (if allowed then "1" else "0")
  let hex := Nat.toDigits 16 (hashOf seed)
  "dec_" ++ String.ofList (List.replicate (8 - hex.length) '0' ++ hex)

def refusal (request : EntitlementRequest) (source : String) (policy : EntitlementPolicy)
    (reason : String) : EntitlementDecision where
  featureKey := request.featureKey
  allowed := false
  source := source
  policy := some policy
  quota := none
  reason := some reason
  explain := none
  decisionId := none
  correlationId := none

def baseOf (request : EntitlementRequest) (raw : EntitlementDecision) : EntitlementDecision where
  featureKey := request.featureKey
  allowed := raw.allowed
  source := raw.source
  policy := raw.policy
  quota := none
  reason := none
  explain := raw.explain
  decisionId := none
  correlationId := none

def resolvePolicy (c : Collaborators) (request : EntitlementRequest) (base : EntitlementDecision) :
    Except Unit EntitlementPolicy :=
  match c.resolve with
  | none => .ok (base.policy.getD .allow)
  | some resolve => resolve request

/-- The usage quota, where the action declares a metered resource. -/
def meter (c : Collaborators) (request : EntitlementRequest) (base : EntitlementDecision)
    (policy : EntitlementPolicy) : EntitlementDecision :=
  let permitted := { base with allowed := true, policy := some policy }
  match c.quota, request.resource with
  | some check, some resource =>
    match check ⟨request.tenant, resource, request.amount⟩ with
    | .error _ => refusal request "guard_error" policy "quota unavailable"
    | .ok verdict =>
      if quotaBlocks verdict.state then
        { refusal request "quota_exceeded" policy
            ("quota " ++ verdict.state.text ++ " for \"" ++ verdict.resource ++ "\"") with
          quota := some verdict }
      else { permitted with quota := some verdict }
  | _, _ => permitted

def decide (c : Collaborators) (request : EntitlementRequest) (action : EnforcementAction) :
    EntitlementDecision :=
  match c.check request with
  | .error _ => refusal request "guard_error" .deny "entitlement decision unavailable"
  | .ok raw =>
    let base := baseOf request raw
    if base.allowed = false then { base with policy := some (base.policy.getD .deny) }
    else
      match resolvePolicy c request base with
      | .error _ => refusal request "guard_error" .deny "policy unavailable"
      | .ok policy =>
        if policyPermits policy action = false then
          refusal request "policy_denied" policy
            ("policy \"" ++ policy.text ++ "\" does not permit " ++ action.text)
        else meter c request base policy

def stamp (decision : EntitlementDecision) (request : EntitlementRequest)
    (action : EnforcementAction) : EntitlementDecision :=
  { decision with
    decisionId := some (deriveDecisionId request.tenant request.featureKey action decision.source
      decision.allowed)
    correlationId := request.correlationId.or decision.correlationId }

/-- `started` are the requests whose commands have been run. -/
structure GuardState where
  cache : Option (TieredCache String EntitlementDecision)
  trail : List AuditEvent
  started : List EntitlementRequest

def cacheKey (request : EntitlementRequest) : String :=
  "entitlement:" ++ request.tenant ++ ":" ++ request.featureKey ++ ":" ++ request.enforced.text

def readCache (c : Collaborators) (request : EntitlementRequest) (s : GuardState) :
    GuardState × Option EntitlementDecision :=
  match s.cache, request.resource with
  | some cache, none =>
    match cache.get c.reading (cacheKey request) with
    | (cache, .ok held) => ({ s with cache := some cache }, held)
    | (cache, .error _) => ({ s with cache := some cache }, none)
  | _, _ => (s, none)

def writeCache (c : Collaborators) (request : EntitlementRequest) (decision : EntitlementDecision)
    (s : GuardState) : GuardState :=
  match s.cache, request.resource with
  | some cache, none =>
    if decision.source = "guard_error" ∨ decision.source = "audit_failure" then s
    else { s with cache := some (cache.set c.writing (cacheKey request) decision).1 }
  | _, _ => s

def auditEvent (c : Collaborators) (decision : EntitlementDecision) (request : EntitlementRequest)
    (target : EnforcementTarget) : AuditEvent where
  principalId := request.principalId.getD "system"
  principalKind := request.principalKind.getD .service
  permission := "entitlement:" ++ request.featureKey
  allow := decision.allowed
  occurredAt := IsoTimes.isoText c.now
  tenantId := request.tenant
  metadata := ⟨decision.source, target, request.enforced, decision.policy,
    decision.quota.map (·.state), decision.reason⟩

def recordAudit (c : Collaborators) (decision : EntitlementDecision) (request : EntitlementRequest)
    (target : EnforcementTarget) (s : GuardState) : GuardState × EntitlementDecision :=
  match c.record with
  | none => (s, decision)
  | some record =>
    let event := auditEvent c decision request target
    match record event with
    | .ok _ => ({ s with trail := s.trail ++ [event] }, decision)
    | .error _ => (s, refusal request "audit_failure" .deny
        "entitlement decision could not be audited")

inductive Mode where
  | enforced
  | simulated

def decideAnew (mode : Mode) (c : Collaborators) (target : EnforcementTarget)
    (request : EntitlementRequest) (s : GuardState) : GuardState × EntitlementDecision :=
  let decided := stamp (decide c request request.enforced) request request.enforced
  match mode with
  | .simulated => (s, decided)
  | .enforced =>
    let (s, decision) := recordAudit c decided request target s
    (writeCache c request decision s, decision)

structure Settled where
  decision : EntitlementDecision
  cacheHit : Bool

def settle (mode : Mode) (c : Collaborators) (target : EnforcementTarget)
    (request : EntitlementRequest) (s : GuardState) : GuardState × Settled :=
  match readCache c request s with
  | (s, some held) => (s, ⟨held, true⟩)
  | (s, none) =>
    let (s, decision) := decideAnew mode c target request s
    (s, ⟨decision, false⟩)

def emit (mode : Mode) (c : Collaborators) : Except Unit Unit :=
  match mode with
  | .enforced => do
    c.metrics
    c.telemetry
    c.onDecision
  | .simulated => c.telemetry

/-- An error is a promise that is rejected. -/
def run (mode : Mode) (c : Collaborators) (target : EnforcementTarget)
    (request : EntitlementRequest) (s : GuardState) : GuardState × Except Unit Settled :=
  let (s, settled) := settle mode c target request s
  (s, (emit mode c).map fun _ => settled)

def evaluate (c : Collaborators) (target : EnforcementTarget) (request : EntitlementRequest)
    (s : GuardState) : GuardState × Except Unit EntitlementDecision :=
  let (s, result) := run .enforced c target request s
  (s, result.map (·.decision))

structure AuthorizationError where
  message : String
  featureKey : String
  source : String
  target : EnforcementTarget
  policy : Option EntitlementPolicy

def ensure (c : Collaborators) (target : EnforcementTarget) (request : EntitlementRequest)
    (s : GuardState) :
    GuardState × Except Unit (Except AuthorizationError EntitlementDecision) :=
  let (s, result) := evaluate c target request s
  (s, result.map fun decision =>
    if decision.allowed then .ok decision
    else .error
      { message := decision.reason.getD
          ("Feature \"" ++ request.featureKey ++ "\" is not enabled for this tenant")
        featureKey := request.featureKey
        source := decision.source
        target := target
        policy := decision.policy })

/-- The command is run, or the denial is returned. -/
def enforce (c : Collaborators) (target : EnforcementTarget) (request : EntitlementRequest)
    (s : GuardState) : GuardState × Except Unit (Except AuthorizationError Unit) :=
  match ensure c target request s with
  | (s, .error e) => (s, .error e)
  | (s, .ok (.error denial)) => (s, .ok (.error denial))
  | (s, .ok (.ok _)) => ({ s with started := s.started ++ [request] }, .ok (.ok ()))

def can (c : Collaborators) (target : EnforcementTarget) (request : EntitlementRequest)
    (s : GuardState) : GuardState × Except Unit Bool :=
  let (s, result) := run .simulated c target request s
  (s, result.map (·.decision.allowed))

def simulate (c : Collaborators) (target : EnforcementTarget) (request : EntitlementRequest)
    (s : GuardState) : GuardState × Except Unit Settled :=
  run .simulated c target request s

end Entitlement
