import Lumo.TrackingRecord

/-! # The recording delivery runtime

`receiveAndDeliver` as a function of what its collaborators do. A script says how each of them
behaves in one call, and the call stops where a collaborator throws or where the process ends. -/
namespace Tracking

variable {ν : Type}

inductive Effect (ν : Type) where
  | appended (record : EventRecord ν)
  | claimed (key : String)
  /-- A request to the vendor of a destination, which accepts the event or does not. -/
  | requested (destination : String) (accepted : Bool)
  | buried (destination : String)
  | revised (revision : Revision ν)

namespace Effect

def appended? : Effect ν → Option (EventRecord ν)
  | .appended record => some record
  | _ => none

def revised? : Effect ν → Option (Revision ν)
  | .revised revision => some revision
  | _ => none

def isAppended : Effect ν → Bool
  | .appended _ => true
  | _ => false

def isRequested : Effect ν → Bool
  | .requested _ _ => true
  | _ => false

def accepts (destination : String) : Effect ν → Bool
  | .requested key accepted => key = destination && accepted
  | _ => false

def buries (destination : String) : Effect ν → Bool
  | .buried key => key = destination
  | _ => false

def claims (key : String) : Effect ν → Bool
  | .claimed key' => key' = key
  | _ => false

end Effect

abbrev Log (ν : Type) := List (Effect ν)

namespace Log

/-- The base row and the revisions. -/
def base (log : Log ν) : Option (EventRecord ν) := log.findSome? Effect.appended?

def revisions (log : Log ν) : List (Revision ν) := log.filterMap Effect.revised?

/-- The vendor of the destination has accepted the event. -/
def Accepted (log : Log ν) (destination : String) : Prop :=
  log.any (Effect.accepts destination) = true

def Buried (log : Log ν) (destination : String) : Prop :=
  log.any (Effect.buries destination) = true

instance (log : Log ν) (destination : String) : Decidable (log.Accepted destination) :=
  inferInstanceAs (Decidable (_ = _))

instance (log : Log ν) (destination : String) : Decidable (log.Buried destination) :=
  inferInstanceAs (Decidable (_ = _))

end Log

inductive Write where
  | done
  | failed
  | unconfirmed
  deriving DecidableEq

structure Exchange where
  pacing : Pacing
  sentAt : ℚ
  answeredAt : ℚ
  response : DeliveryResponse

structure DeliveryScript where
  held : DestinationRuntimeState
  startedAt : ℚ
  violations : List String
  claim : Write
  hasAdapter : Bool
  exchanges : List Exchange
  /-- A further request that is not answered, and whether the vendor accepted it. -/
  unanswered : Option Bool
  burial : Write
  completedAt : ℚ

inductive RenderOutcome (ν : Type) where
  | rendered (payload : Payload ν)
  | refused (failure : EnforcementFailure)

/-- The collaborators of one call. -/
structure Script (ν : Type) where
  now : ℚ
  /-- The identity block is hashed without an error. -/
  hashes : Bool
  /-- `renderPayload`, or a mapping that throws. -/
  renderPayload : DestinationDefinition → Option (RenderOutcome ν)
  /-- The versions in force, or a registry that throws. -/
  destinationVersion : String → Option ℕ
  mappingVersion : String → Option ℕ
  append : Write
  deliveries : List DeliveryScript
  finishedAt : ℚ
  history : Write

structure RuntimeDeps (ν : Type) where
  text : Builtins.TextOps
  hasher : HashPort ν
  maxAttempts : ℕ
  attempts_pos : 1 ≤ maxAttempts

structure ReceiveEventInput where
  envelope : EnrichedEnvelope
  routing : RoutingDecision

def DestinationDefinition.policy (destination : DestinationDefinition) (deps : RuntimeDeps ν) :
    DeliveryPolicy :=
  ⟨destination.rateLimit, destination.circuitBreaker, deps.maxAttempts, deps.attempts_pos⟩

/-- The requests of the attempt loop, and where it stops. -/
def exchange (policy : DeliveryPolicy) (destination : String) (unanswered : Option Bool) :
    DeliveryPoint → List Exchange → Log ν × DeliveryPoint
  | .attempting attempts held, [] =>
    (unanswered.toList.map (.requested destination), .attempting attempts held)
  | .attempting attempts held, first :: rest =>
    match deliver policy (.attempting attempts held)
      (.sends first.pacing first.sentAt first.answeredAt first.response) with
    | none => ([], .attempting attempts held)
    | some point =>
      let (effects, last) := exchange policy destination unanswered point rest
      (.requested destination first.response.ok :: effects, last)
  | point, _ => ([], point)

def bury (policy : DeliveryPolicy) (destination : String) (burial : Write) (point : DeliveryPoint) :
    Log ν × Option DeliveryOutcome :=
  match point with
  | .returned outcome _ => ([], some outcome)
  | .burying _ _ _ =>
    match burial with
    | .failed => ([], none)
    | .unconfirmed => ([.buried destination], none)
    | .done =>
      match deliver policy point .buries with
      | some (.returned outcome _) => ([.buried destination], some outcome)
      | _ => ([.buried destination], none)
  | _ => ([], none)

def idempotencyKey (destination : DestinationDefinition) (envelope : EnrichedEnvelope) : String :=
  destination.key ++ ":" ++ envelope.eventId

def deliverClaimed (policy : DeliveryPolicy) (destination : DestinationDefinition)
    (script : DeliveryScript) (point : DeliveryPoint) : Log ν × Option DeliveryOutcome :=
  let unready : Option EnforcementFailure :=
    if script.hasAdapter then none
    else some ⟨.formatting, "no adapter for " ++ destination.transport.text⟩
  match deliver policy point (.claims true unready) with
  | none => ([], none)
  | some point =>
    let (requests, last) := exchange policy destination.key script.unanswered point script.exchanges
    let (burials, outcome) := bury policy destination.key script.burial last
    (requests ++ burials, outcome)

/-- `deliver` to one destination: its effects, and its outcome unless it throws. -/
def deliverOnce (deps : RuntimeDeps ν) (envelope : EnrichedEnvelope) (log : Log ν)
    (destination : DestinationDefinition) (script : DeliveryScript) :
    Log ν × Option DeliveryOutcome :=
  let policy := destination.policy deps
  let key := idempotencyKey destination envelope
  match deliver policy (.starting script.held) (.starts script.startedAt
    (enforceDeliveryPreconditions script.violations envelope destination)) with
  | some (.returned outcome _) => ([], some outcome)
  | some (.claiming held) =>
    match script.claim with
    | .failed => ([], none)
    | .unconfirmed => (if log.any (Effect.claims key) then [] else [.claimed key], none)
    | .done =>
      if log.any (Effect.claims key) then
        match deliver policy (.claiming held) (.claims false none) with
        | some (.returned outcome _) => ([], some outcome)
        | _ => ([], none)
      else
        let (effects, outcome) := deliverClaimed policy destination script (.claiming held)
        (.claimed key :: effects, outcome)
  | _ => ([], none)

def prepareIdentity (hashes : Bool) (identity : IdentityContext) : Option IdentityContext :=
  if identity.hashStatus ≠ some .raw then some identity
  else if hashes then some ⟨some .sha256⟩
  else none

def identityAfter (hashes : Bool) : Option IdentityContext → Option (Option IdentityContext)
  | none => some none
  | some identity => (prepareIdentity hashes identity).map some

def identityStages (now : ℚ) : Option IdentityContext → List StageHistoryEntry
  | none => [⟨.normalize, .skipped, now, some "no identity block"⟩]
  | some identity =>
    [⟨.normalize, .completed, now, none⟩,
      ⟨.piiHashing, if identity.hashStatus = some .sha256 then .completed else .skipped, now,
        some ("hashStatus=" ++ identity.hashStatus.elim "unset" HashStatus.text)⟩]

/-- The entry of a destination before any vendor call, or none where a collaborator throws. -/
def prepareEntry (deps : RuntimeDeps ν) (script : Script ν) (destination : DestinationDefinition) :
    Option (DestinationHistoryEntry ν) := do
  let rendered ← script.renderPayload destination
  let destinationVersion ← script.destinationVersion destination.key
  let mappingVersion ← script.mappingVersion destination.mappingProfileKey
  match rendered with
  | .refused failure =>
    return {
      destination := destination.key
      destinationVersion := destinationVersion
      mappingKey := destination.mappingProfileKey
      mappingVersion := mappingVersion
      renderedPayload := []
      payloadHash := none
      strippedTransportKeys := []
      status := .blocked
      attempts := [⟨1, script.now, .blocked, some failure.text, none⟩]
      firstAttemptAt := some script.now
      lastAttemptAt := some script.now
      exclusionReason := none }
  | .rendered payload =>
    let business := toBusinessPayload deps.text payload
    let payloadHash ← computePayloadDigest deps.hasher business.payload
    return {
      destination := destination.key
      destinationVersion := destinationVersion
      mappingKey := destination.mappingProfileKey
      mappingVersion := mappingVersion
      renderedPayload := business.payload
      payloadHash := some payloadHash
      strippedTransportKeys := business.stripped
      status := .pending
      attempts := []
      firstAttemptAt := none
      lastAttemptAt := none
      exclusionReason := none }

def prepareAll (deps : RuntimeDeps ν) (script : Script ν) :
    List DestinationDefinition → Option (List (DestinationDefinition × DestinationHistoryEntry ν))
  | [] => some []
  | destination :: rest => do
    let entry ← prepareEntry deps script destination
    let entries ← prepareAll deps script rest
    return (destination, entry) :: entries

def excludedEntry (excluded : String × RoutingExclusionCode) : DestinationHistoryEntry ν where
  destination := excluded.1
  destinationVersion := 0
  mappingKey := "n/a"
  mappingVersion := 0
  renderedPayload := []
  payloadHash := none
  strippedTransportKeys := []
  status := .excluded
  attempts := []
  firstAttemptAt := none
  lastAttemptAt := none
  exclusionReason := some excluded.2

structure Preparation (ν : Type) where
  envelope : EnrichedEnvelope
  entries : List (DestinationDefinition × DestinationHistoryEntry ν)

namespace Preparation

def pending (preparation : Preparation ν) : List (DestinationHistoryEntry ν) :=
  preparation.entries.map Prod.snd

/-- The destinations whose payload could be rendered. -/
def prepared (preparation : Preparation ν) : List DestinationDefinition :=
  (preparation.entries.filter fun pair => pair.2.status = .pending).map Prod.fst

def blocked (preparation : Preparation ν) : List (DestinationHistoryEntry ν) :=
  preparation.pending.filter fun entry => entry.status = .blocked

end Preparation

def prepare (deps : RuntimeDeps ν) (input : ReceiveEventInput) (script : Script ν) :
    Option (Preparation ν) := do
  let identity ← identityAfter script.hashes input.envelope.identity
  let entries ← prepareAll deps script input.routing.routed
  return ⟨{ input.envelope with identity := identity }, entries⟩

def stagesBefore (input : ReceiveEventInput) (script : Script ν) (preparation : Preparation ν) :
    List StageHistoryEntry :=
  ⟨.capture, .completed, script.now, none⟩ ::
    identityStages script.now preparation.envelope.identity ++
    [⟨.destinationRouting, if input.routing.degraded then .failed else .completed, script.now,
        none⟩,
      ⟨.platformMapping, if preparation.blocked.length = 0 then .completed else .failed,
        script.now, none⟩,
      ⟨.destinationFormatting, .completed, script.now, none⟩]

def buildEventRecord (input : ReceiveEventInput) (script : Script ν)
    (preparation : Preparation ν) : EventRecord ν :=
  let destinationHistory := preparation.pending ++ input.routing.excluded.map excludedEntry
  { eventId := preparation.envelope.eventId
    dedupId := preparation.envelope.dedupId
    tenantId := preparation.envelope.tenantId
    eventName := preparation.envelope.eventName
    capturedAt := preparation.envelope.timestamp
    consentSnapshot := preparation.envelope.consent
    hashStatus := preparation.envelope.identity.bind (·.hashStatus)
    stageHistory := stagesBefore input script preparation
    destinationHistory := destinationHistory
    state := deriveEventState destinationHistory
    updatedAt := script.now }

structure Delivered where
  destination : DestinationDefinition
  outcome : DeliveryOutcome
  completedAt : ℚ

def deliverAll (deps : RuntimeDeps ν) (envelope : EnrichedEnvelope) (log : Log ν) :
    List DestinationDefinition → List DeliveryScript → Log ν × Option (List Delivered)
  | [], _ => ([], some [])
  | _ :: _, [] => ([], none)
  | destination :: rest, script :: scripts =>
    let (effects, outcome) := deliverOnce deps envelope log destination script
    match outcome with
    | none => (effects, none)
    | some outcome =>
      let (more, results) := deliverAll deps envelope (log ++ effects) rest scripts
      (effects ++ more, results.map (⟨destination, outcome, script.completedAt⟩ :: ·))

def finalEntry (pending : List (DestinationHistoryEntry ν)) (now : ℚ) (result : Delivered) :
    Option (DestinationHistoryEntry ν) :=
  (pending.find? fun entry => entry.destination = result.destination.key).map fun entry =>
    { entry with
      status := toDeliveryState result.outcome
      attempts := buildRetryHistory result.outcome result.completedAt
      firstAttemptAt := some now
      lastAttemptAt := some result.completedAt }

def finalEntries (preparation : Preparation ν) (now : ℚ) (results : List Delivered) :
    List (DestinationHistoryEntry ν) :=
  results.filterMap (finalEntry preparation.pending now)

def isDelivered : DeliveryOutcome → Bool
  | .delivered _ _ => true
  | _ => false

def isDeadLettered : DeliveryOutcome → Bool
  | .deadLettered _ _ => true
  | _ => false

def stagesAfter (finishedAt : ℚ) (results : List Delivered) : List StageHistoryEntry :=
  [⟨.delivery, if results.any (isDelivered ·.outcome) then .completed else .failed, finishedAt,
      none⟩,
    ⟨.retry, if results.any (isDeadLettered ·.outcome) then .failed else .completed, finishedAt,
      none⟩]

def finalHistory (input : ReceiveEventInput) (script : Script ν) (preparation : Preparation ν)
    (results : List Delivered) : List (DestinationHistoryEntry ν) :=
  finalEntries preparation script.now results ++ preparation.blocked ++
    input.routing.excluded.map excludedEntry

def finalRevision (input : ReceiveEventInput) (script : Script ν) (preparation : Preparation ν)
    (results : List Delivered) (revisionSeq : ℕ) : Revision ν where
  revisionSeq := revisionSeq
  stages := stagesAfter script.finishedAt results
  destinations := finalEntries preparation script.now results
  state := deriveEventState (finalHistory input script preparation results)
  at_ := script.finishedAt

def finalRecord (input : ReceiveEventInput) (script : Script ν) (preparation : Preparation ν)
    (results : List Delivered) : EventRecord ν :=
  let initial := buildEventRecord input script preparation
  let history := finalHistory input script preparation results
  { initial with
    stageHistory := initial.stageHistory ++ stagesAfter script.finishedAt results
    destinationHistory := history
    state := deriveEventState history
    updatedAt := script.finishedAt }

inductive CallEnd (ν : Type) where
  | returned (record : EventRecord ν)
  | storeFailed
  | threw

structure Call (ν : Type) where
  effects : Log ν
  ending : CallEnd ν

def finish (input : ReceiveEventInput) (script : Script ν) (preparation : Preparation ν)
    (log : Log ν) (results : List Delivered) : Call ν :=
  let revision := finalRevision input script preparation results (log.revisions.length + 1)
  match script.history with
  | .failed => ⟨[], .storeFailed⟩
  | .unconfirmed => ⟨[.revised revision], .storeFailed⟩
  | .done => ⟨[.revised revision], .returned (finalRecord input script preparation results)⟩

/-- From the append on. The base row of an event that has one is not inserted again. -/
def record (deps : RuntimeDeps ν) (input : ReceiveEventInput) (log : Log ν) (script : Script ν)
    (preparation : Preparation ν) : Call ν :=
  let initial := buildEventRecord input script preparation
  if log.base.isSome then ⟨[], .storeFailed⟩
  else
    match script.append with
    | .failed => ⟨[], .storeFailed⟩
    | .unconfirmed => ⟨[.appended initial], .storeFailed⟩
    | .done =>
      let (effects, results) := deliverAll deps preparation.envelope (log ++ [.appended initial])
        preparation.prepared script.deliveries
      match results with
      | none => ⟨.appended initial :: effects, .threw⟩
      | some results =>
        let last := finish input script preparation (log ++ .appended initial :: effects) results
        ⟨.appended initial :: effects ++ last.effects, last.ending⟩

def receiveAndDeliver (deps : RuntimeDeps ν) (input : ReceiveEventInput) (log : Log ν)
    (script : Script ν) : Call ν :=
  match prepare deps input script with
  | none => ⟨[], .threw⟩
  | some preparation => record deps input log script preparation

end Tracking
