import Lumo.OrderedMap
import Lumo.TrackingDelivery
import Lumo.TrackingPayload

/-! # The event record

Consent, routing, the history of each destination, and the store that keeps them. The snapshots
that are copied into the record and out of it again unread are not modelled. -/
namespace Tracking

open SharedKernel

variable {ν : Type}

inductive ConsentCategory where
  | necessary
  | analyticsStorage
  | adStorage
  | adUserData
  | adPersonalization
  | personalization

inductive ConsentPurpose where
  | analytics
  | marketing
  | personalization

def consentRequirements : ConsentPurpose → List ConsentCategory
  | .analytics => [.analyticsStorage]
  | .marketing => [.adStorage, .adUserData]
  | .personalization => [.personalization]

structure ConsentSnapshot where
  analytics : Bool
  marketing : Bool
  personalization : Bool
  grants : ConsentCategory → Option Bool

def grantFor (consent : ConsentSnapshot) (category : ConsentCategory) : Bool :=
  (consent.grants category).getD <|
    match category with
    | .necessary => true
    | .analyticsStorage => consent.analytics
    | .adStorage => consent.marketing
    | .adUserData => consent.marketing
    | .adPersonalization => consent.marketing
    | .personalization => consent.personalization

def evaluateConsent (consent : ConsentSnapshot) (purpose : ConsentPurpose) :
    List ConsentCategory :=
  (consentRequirements purpose).filter fun category => !grantFor consent category

def Allows (consent : ConsentSnapshot) (purpose : ConsentPurpose) : Prop :=
  evaluateConsent consent purpose = []

instance (consent : ConsentSnapshot) (purpose : ConsentPurpose) :
    Decidable (Allows consent purpose) :=
  inferInstanceAs (Decidable (_ = _))

def ConsentCategory.text : ConsentCategory → String
  | .necessary => "necessary"
  | .analyticsStorage => "analytics_storage"
  | .adStorage => "ad_storage"
  | .adUserData => "ad_user_data"
  | .adPersonalization => "ad_personalization"
  | .personalization => "personalization"

inductive HashStatus where
  | raw
  | sha256
  | mixed
  deriving DecidableEq

def HashStatus.text : HashStatus → String
  | .raw => "raw"
  | .sha256 => "sha256"
  | .mixed => "mixed"

structure IdentityContext where
  hashStatus : Option HashStatus

structure EnrichedEnvelope where
  eventId : String
  dedupId : String
  tenantId : String
  eventName : String
  timestamp : ℚ
  consent : ConsentSnapshot
  identity : Option IdentityContext

inductive DestinationTransport where
  | httpJson
  | httpForm
  | noop

def DestinationTransport.text : DestinationTransport → String
  | .httpJson => "http_json"
  | .httpForm => "http_form"
  | .noop => "noop"

structure DestinationDefinition where
  key : String
  transport : DestinationTransport
  consentPurpose : ConsentPurpose
  mappingProfileKey : String
  credentialRef : Option String
  rateLimit : Option RateLimitDescriptor
  circuitBreaker : Option CircuitBreakerDescriptor
  enabled : Bool

/-- `enforceDeliveryPreconditions`, where the validation of the envelope finds these fields. -/
def enforceDeliveryPreconditions (violations : List String) (envelope : EnrichedEnvelope)
    (destination : DestinationDefinition) : Option EnforcementFailure :=
  if violations ≠ [] then some ⟨.validation, ",".intercalate violations⟩
  else if ¬ Allows envelope.consent destination.consentPurpose then
    some ⟨.consent, ",".intercalate
      ((evaluateConsent envelope.consent destination.consentPurpose).map (·.text))⟩
  else
    match envelope.identity with
    | none => some ⟨.identityStitching, "identity block absent"⟩
    | some identity =>
      if identity.hashStatus ≠ some .sha256 then
        some ⟨.piiHashing, "hashStatus=" ++ (identity.hashStatus.elim "unset" HashStatus.text)⟩
      else if isBlank envelope.dedupId then some ⟨.routing, "dedupId missing"⟩
      else none

inductive RoutingExclusionCode where
  | notRegistered
  | disabled
  | consentDenied
  | ruleNotMatched

structure RoutingDecision where
  routed : List DestinationDefinition
  excluded : List (String × RoutingExclusionCode)
  degraded : Bool

/-- The keys that the rules chose, each of them once. -/
def routeOutcomes (resolve : String → Option DestinationDefinition) (consent : ConsentSnapshot) :
    List String → RoutingDecision → RoutingDecision
  | [], decision => decision
  | key :: keys, decision =>
    routeOutcomes resolve consent keys <|
      match resolve key with
      | none => { decision with excluded := decision.excluded ++ [(key, .notRegistered)] }
      | some destination =>
        if !destination.enabled then
          { decision with excluded := decision.excluded ++ [(key, .disabled)] }
        else if ¬ Allows consent destination.consentPurpose then
          { decision with excluded := decision.excluded ++ [(key, .consentDenied)] }
        else { decision with routed := decision.routed ++ [destination] }

/-- `route`, for what the rules chose and what they did not match. -/
def route (resolve : String → Option DestinationDefinition) (consent : ConsentSnapshot)
    (outcomes notMatched : List String) (degraded : Bool) : RoutingDecision :=
  let decision := routeOutcomes resolve consent outcomes.eraseDups ⟨[], [], degraded⟩
  let unseen := notMatched.eraseDups.filter fun key => !outcomes.contains key
  { decision with excluded := decision.excluded ++ unseen.map fun key => (key, .ruleNotMatched) }

variable {consent : ConsentSnapshot} {resolve : String → Option DestinationDefinition}

theorem routeOutcomes_consented (keys : List String) (decision : RoutingDecision)
    (h : ∀ d ∈ decision.routed, Allows consent d.consentPurpose) :
    ∀ d ∈ (routeOutcomes resolve consent keys decision).routed, Allows consent d.consentPurpose := by
  induction keys generalizing decision with
  | nil => exact h
  | cons key keys ih =>
    refine ih _ ?_
    split
    · exact h
    · split
      · exact h
      · split
        · exact h
        · rename_i hallows
          intro d hd
          rcases List.mem_append.mp hd with hd | hd
          · exact h d hd
          · rw [List.mem_singleton.mp hd]
            exact of_not_not hallows

theorem route_consented {outcomes notMatched : List String} {degraded : Bool} :
    ∀ d ∈ (route resolve consent outcomes notMatched degraded).routed,
      Allows consent d.consentPurpose :=
  routeOutcomes_consented _ ⟨[], [], degraded⟩ (by simp)

inductive DeliveryState where
  | pending
  | delivered
  | retrying
  | rateLimited
  | deadLettered
  | blocked
  | excluded
  deriving DecidableEq

inductive AttemptOutcome where
  | delivered
  | retryableFailure
  | permanentFailure
  | rateLimited
  | circuitOpen
  | blocked
  | skippedDuplicate

structure RetryHistoryEntry where
  attempt : ℕ
  at_ : ℚ
  outcome : AttemptOutcome
  error : Option String
  latencyMs : Option ℚ

structure DestinationHistoryEntry (ν : Type) where
  destination : String
  destinationVersion : ℕ
  mappingKey : String
  mappingVersion : ℕ
  renderedPayload : Payload ν
  payloadHash : Option String
  strippedTransportKeys : List String
  status : DeliveryState
  attempts : List RetryHistoryEntry
  firstAttemptAt : Option ℚ
  lastAttemptAt : Option ℚ
  exclusionReason : Option RoutingExclusionCode

def toDeliveryState : DeliveryOutcome → DeliveryState
  | .delivered _ _ => .delivered
  | .deadLettered _ _ => .deadLettered
  | .blocked _ => .blocked
  | .rateLimited _ => .rateLimited
  | .circuitOpen => .retrying
  -- As if the delivery that claimed the event had succeeded.
  | .skippedDuplicate => .delivered

def toAttemptOutcome : DeliveryOutcome → AttemptOutcome
  | .delivered _ _ => .delivered
  | .deadLettered _ _ => .permanentFailure
  | .blocked _ => .blocked
  | .rateLimited _ => .rateLimited
  | .circuitOpen => .circuitOpen
  | .skippedDuplicate => .skippedDuplicate

def Gate.text : Gate → String
  | .validation => "validation"
  | .consent => "consent"
  | .identityStitching => "identity_stitching"
  | .piiHashing => "pii_hashing"
  | .mapping => "mapping"
  | .formatting => "formatting"
  | .routing => "routing"

def EnforcementFailure.text (failure : EnforcementFailure) : String :=
  failure.gate.text ++ ": " ++ failure.detail

def attemptCount : DeliveryOutcome → ℕ
  | .delivered attempts _ => attempts
  | .deadLettered attempts _ => attempts
  | _ => 1

def attemptError : DeliveryOutcome → Option String
  | .deadLettered _ error => some error
  | .blocked failure => some failure.text
  | _ => none

def attemptLatency : DeliveryOutcome → Option ℚ
  | .delivered _ latencyMs => some latencyMs
  | _ => none

def buildRetryHistory (outcome : DeliveryOutcome) (now : ℚ) : List RetryHistoryEntry :=
  (List.range (attemptCount outcome - 1)).map (fun i =>
      ⟨i + 1, now, .retryableFailure, none, none⟩) ++
    [⟨attemptCount outcome, now, toAttemptOutcome outcome, attemptError outcome,
      attemptLatency outcome⟩]

inductive EventState where
  | captured
  | processing
  | delivered
  | partiallyDelivered
  | failed
  | blocked

def isTerminalFailure (state : DeliveryState) : Bool :=
  state = .deadLettered || state = .blocked

def deriveEventState (history : List (DestinationHistoryEntry ν)) : EventState :=
  let attempted := history.filter fun entry => entry.status ≠ .excluded
  if attempted.length = 0 then (if history.length = 0 then .captured else .blocked)
  else
    let delivered := (attempted.filter fun entry => entry.status = .delivered).length
    let terminalFailures := (attempted.filter fun entry => isTerminalFailure entry.status).length
    if 0 < attempted.length - delivered - terminalFailures then .processing
    else if delivered = attempted.length then .delivered
    else if delivered = 0 then
      (if terminalFailures = attempted.length then .failed else .processing)
    else .partiallyDelivered

def isRefusal : DeliveryState → Bool
  | .blocked => true
  | .deadLettered => true
  | .rateLimited => true
  | .retrying => true
  | _ => false

inductive PipelineStage where
  | capture
  | normalize
  | piiHashing
  | platformMapping
  | destinationFormatting
  | destinationRouting
  | delivery
  | retry

inductive StageStatus where
  | completed
  | skipped
  | failed

structure StageHistoryEntry where
  stage : PipelineStage
  status : StageStatus
  at_ : ℚ
  detail : Option String

structure EventRecord (ν : Type) where
  eventId : String
  dedupId : String
  tenantId : String
  eventName : String
  capturedAt : ℚ
  consentSnapshot : ConsentSnapshot
  hashStatus : Option HashStatus
  stageHistory : List StageHistoryEntry
  destinationHistory : List (DestinationHistoryEntry ν)
  state : EventState
  updatedAt : ℚ

/-! The store: a base row that is inserted once, and revisions that are added to it. -/

structure Revision (ν : Type) where
  revisionSeq : ℕ
  stages : List StageHistoryEntry
  destinations : List (DestinationHistoryEntry ν)
  state : EventState
  at_ : ℚ

/-- The entries by destination, of the base row and then of each revision: a later one takes the
place of an earlier one. -/
def foldDestinations (base : List (DestinationHistoryEntry ν)) (revisions : List (Revision ν)) :
    List (DestinationHistoryEntry ν) :=
  (revisions.foldl (fun history revision => history.setAll (·.destination) revision.destinations)
    ((OrderedMap.empty).setAll (·.destination) base)).values

def foldRecord (base : EventRecord ν) (revisions : List (Revision ν)) : EventRecord ν :=
  let ordered := revisions.insertionSort fun a b => a.revisionSeq ≤ b.revisionSeq
  { base with
    stageHistory := base.stageHistory ++ ordered.flatMap (·.stages)
    destinationHistory := foldDestinations base.destinationHistory ordered
    state := (ordered.getLast?.map (·.state)).getD base.state
    updatedAt := (ordered.getLast?.map (·.at_)).getD base.capturedAt }

end Tracking
