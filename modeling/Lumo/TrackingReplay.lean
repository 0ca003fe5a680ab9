import Mathlib.Data.List.Infix
import Lumo.TrackingRedelivery

/-! # Replay

A plan is made from the stored entries of a list of records, and its targets are sent again. -/
namespace Tracking

open SharedKernel

variable {ν : Type}

inductive ReplayScope where
  | single
  | batch
  | filter
  | deadLetter
  deriving DecidableEq

/-- The records have been selected by the scope; of it, the plan only asks for dead letters. -/
structure ReplayRequest where
  scope : ReplayScope
  destinations : Option (List String)
  failureReason : Option String

inductive ReplayRefusal where
  | noRenderedPayload (destination : String)
  | payloadCorrupted (destination : String) (reason : IntegrityReason)
  | destinationMissing (destination : String)
  | configurationRemoved (destination : String) (historicalVersion : ℕ)
  | credentialsUnavailable (destination : String)
  | destinationDisabled (destination : String)
  | noEligibleDestinations
  | neverConsented

/-- The destination that a refusal names. -/
def ReplayRefusal.destination : ReplayRefusal → Option String
  | .noRenderedPayload destination => some destination
  | .payloadCorrupted destination _ => some destination
  | .destinationMissing destination => some destination
  | .configurationRemoved destination _ => some destination
  | .credentialsUnavailable destination => some destination
  | .destinationDisabled destination => some destination
  | .noEligibleDestinations => none
  | .neverConsented => none

structure ReplayTarget (ν : Type) where
  eventId : String
  destination : String
  renderedPayload : Payload ν
  mappingKey : String
  mappingVersion : ℕ
  destinationVersion : ℕ
  dedupId : String
  payloadHash : Option String

structure ReplayPlan (ν : Type) where
  targets : List (ReplayTarget ν)
  refusals : List (String × ReplayRefusal)
  eventCount : ℕ
  targetCount : ℕ

/-- The registries as they are now; the historical versions and the credentials may be missing. -/
structure PlanDeps where
  resolve : String → Option DestinationDefinition
  resolveVersion : Option (String → ℕ → Option DestinationDefinition)
  isAvailable : Option (String → Bool)

/-- `text.includes(part)`. -/
def includes (text part : String) : Bool := decide (part.toList <:+: text.toList)

def selects (request : ReplayRequest) (entry : DestinationHistoryEntry ν) : Bool :=
  request.destinations.all (·.contains entry.destination) &&
    (request.scope ≠ .deadLetter || entry.status = .deadLettered) &&
    request.failureReason.all fun reason =>
      entry.attempts.any fun attempt => attempt.error.any (includes · reason)

def eligibleEntries (record : EventRecord ν) (request : ReplayRequest) :
    List (DestinationHistoryEntry ν) :=
  record.destinationHistory.filter fun entry =>
    selects request entry && entry.status ≠ .excluded

/-- Why an entry cannot be sent again. -/
def refusalOf (deps : PlanDeps) (entry : DestinationHistoryEntry ν) : Option ReplayRefusal :=
  match deps.resolve entry.destination with
  | none => some (.destinationMissing entry.destination)
  | some definition =>
    if entry.destinationVersion > 0 ∧ deps.resolveVersion.any fun resolveVersion =>
      (resolveVersion entry.destination entry.destinationVersion).isNone then
      some (.configurationRemoved entry.destination entry.destinationVersion)
    else if !definition.enabled then some (.destinationDisabled entry.destination)
    else if deps.isAvailable.any fun isAvailable =>
      definition.credentialRef.any fun ref => !isAvailable ref then
      some (.credentialsUnavailable entry.destination)
    else if entry.renderedPayload.isEmpty then some (.noRenderedPayload entry.destination)
    else none

def targetOf (record : EventRecord ν) (entry : DestinationHistoryEntry ν) : ReplayTarget ν where
  eventId := record.eventId
  destination := entry.destination
  renderedPayload := entry.renderedPayload
  mappingKey := entry.mappingKey
  mappingVersion := entry.mappingVersion
  destinationVersion := entry.destinationVersion
  dedupId := record.dedupId
  payloadHash := entry.payloadHash

def plannedEntries (deps : PlanDeps) (request : ReplayRequest) (record : EventRecord ν) :
    List (DestinationHistoryEntry ν) :=
  if !record.consentSnapshot.marketing then []
  else (eligibleEntries record request).filter fun entry => (refusalOf deps entry).isNone

def recordRefusals (deps : PlanDeps) (request : ReplayRequest) (record : EventRecord ν) :
    List (String × ReplayRefusal) :=
  if !record.consentSnapshot.marketing then [(record.eventId, .neverConsented)]
  else if (eligibleEntries record request).isEmpty then [(record.eventId, .noEligibleDestinations)]
  else
    (eligibleEntries record request).filterMap fun entry =>
      (refusalOf deps entry).map (Prod.mk record.eventId)

def planReplay (deps : PlanDeps) (request : ReplayRequest) (records : List (EventRecord ν)) :
    ReplayPlan ν :=
  let targets := records.flatMap fun record =>
    (plannedEntries deps request record).map (targetOf record)
  { targets := targets
    refusals := records.flatMap (recordRefusals deps request)
    eventCount := records.length
    targetCount := targets.length }

def corruption (hasher : HashPort ν) (entry : DestinationHistoryEntry ν) : Option IntegrityReason :=
  if entry.renderedPayload.isEmpty then none
  else
    match verifyPayloadDigest hasher entry.renderedPayload entry.payloadHash with
    | .valid _ => none
    | .invalid reason => some reason

def verified (hasher : HashPort ν) (record : EventRecord ν) : EventRecord ν :=
  { record with
    destinationHistory := record.destinationHistory.filter fun entry =>
      (corruption hasher entry).isNone }

def integrityRefusals (hasher : HashPort ν) (record : EventRecord ν) :
    List (String × ReplayRefusal) :=
  record.destinationHistory.filterMap fun entry =>
    (corruption hasher entry).map fun reason =>
      (record.eventId, .payloadCorrupted entry.destination reason)

def planReplayVerified (deps : PlanDeps) (hasher : HashPort ν) (request : ReplayRequest)
    (records : List (EventRecord ν)) : ReplayPlan ν :=
  let plan := planReplay deps request (records.map (verified hasher))
  { plan with
    refusals := records.flatMap (integrityRefusals hasher) ++ plan.refusals
    eventCount := records.length }

inductive ReplayStatus where
  | running
  | completed
  | cancelled
  | failed

structure ReplayProgress where
  status : ReplayStatus
  attempted : ℕ
  succeeded : ℕ
  failed : ℕ

/-- What the ports of an execution do at a target: whether the replay has been cancelled, and how
the dispatch ends, if it does not throw. -/
structure ExecuteDeps (ν : Type) where
  isCancelled : ℕ → Bool
  dispatch : ReplayTarget ν → Option Bool
  hasher : Option (HashPort ν)

def vouches (deps : ExecuteDeps ν) (target : ReplayTarget ν) : Bool :=
  deps.hasher.all fun hasher =>
    match verifyPayloadDigest hasher target.renderedPayload target.payloadHash with
    | .valid _ => true
    | .invalid _ => false

/-- The targets that are dispatched, and how the execution ends unless a dispatch throws. -/
def executeTargets (deps : ExecuteDeps ν) :
    List (ReplayTarget ν) → ReplayProgress → List (ReplayTarget ν) × Option ReplayProgress
  | [], progress =>
    ([], some { progress with status := if progress.failed = 0 then .completed else .failed })
  | target :: rest, progress =>
    if deps.isCancelled progress.attempted then ([], some { progress with status := .cancelled })
    else if !vouches deps target then
      executeTargets deps rest
        { progress with attempted := progress.attempted + 1, failed := progress.failed + 1 }
    else
      match deps.dispatch target with
      | none => ([target], none)
      | some true =>
        let (dispatched, last) := executeTargets deps rest
          { progress with attempted := progress.attempted + 1, succeeded := progress.succeeded + 1 }
        (target :: dispatched, last)
      | some false =>
        let (dispatched, last) := executeTargets deps rest
          { progress with attempted := progress.attempted + 1, failed := progress.failed + 1 }
        (target :: dispatched, last)

def executeReplay (deps : ExecuteDeps ν) (plan : ReplayPlan ν) :
    List (ReplayTarget ν) × Option ReplayProgress :=
  executeTargets deps plan.targets ⟨.running, 0, 0, 0⟩

theorem executeTargets_sublist (deps : ExecuteDeps ν) (targets : List (ReplayTarget ν))
    (progress : ReplayProgress) : (executeTargets deps targets progress).1.Sublist targets := by
  induction targets generalizing progress with
  | nil => exact List.Sublist.slnil
  | cons target rest ih =>
    rw [executeTargets]
    split
    · exact List.nil_sublist _
    · split
      · exact (ih _).cons _
      · split
        · exact List.Sublist.cons_cons _ (List.nil_sublist _)
        · exact List.Sublist.cons_cons _ (ih _)
        · exact List.Sublist.cons_cons _ (ih _)

def Produces (call : Call ν) (record : EventRecord ν) : Prop :=
  call.effects.base = some record ∨ call.ending = .returned record ∨
    ∃ base, call.effects.base = some base ∧ record = foldRecord base call.effects.revisions

structure Production (ν : Type) where
  deps : RuntimeDeps ν
  input : ReceiveEventInput
  log : Log ν
  script : Script ν
  record : EventRecord ν
  routing : ∃ resolve outcomes notMatched degraded,
    input.routing = route resolve input.envelope.consent outcomes notMatched degraded
  produces : Produces (receiveAndDeliver deps input log script) record

variable {input : ReceiveEventInput} {script : Script ν} {preparation : Preparation ν}
  {deps : RuntimeDeps ν} {log : Log ν} {entry : DestinationHistoryEntry ν}

def Known (input : ReceiveEventInput) (entry : DestinationHistoryEntry ν) : Prop :=
  (∃ d ∈ input.routing.routed, entry.destination = d.key) ∨ entry.status = .excluded

/-- A record of the event, with its entries known. -/
structure Recorded (input : ReceiveEventInput) (record : EventRecord ν) : Prop where
  consent : record.consentSnapshot = input.envelope.consent
  known : ∀ entry ∈ record.destinationHistory, Known input entry

theorem prepare_consent (h : prepare deps input script = some preparation) :
    preparation.envelope.consent = input.envelope.consent := by
  unfold prepare at h
  obtain ⟨identity, -, h⟩ := Option.bind_eq_some_iff.mp h
  obtain ⟨entries, -, h⟩ := Option.bind_eq_some_iff.mp h
  cases h
  rfl

theorem recorded_base (h : prepare deps input script = some preparation) :
    Recorded input (buildEventRecord input script preparation) where
  consent := prepare_consent h
  known := by
    intro entry hentry
    rcases base_entries h hentry with ⟨d, hd, hkey, -⟩ | hexcluded
    · exact .inl ⟨d, hd, hkey⟩
    · exact .inr hexcluded

theorem known_final (h : prepare deps input script = some preparation) {results : List Delivered}
    (hresults : results.map (·.destination) = preparation.prepared)
    (hentry : entry ∈ finalEntries preparation script.now results) : Known input entry := by
  obtain ⟨result, hresult, hfound⟩ := List.mem_filterMap.mp hentry
  have hprepared : result.destination ∈ preparation.prepared :=
    hresults ▸ List.mem_map_of_mem hresult
  exact .inl ⟨result.destination, prepared_routed h hprepared, (finalEntry_spec hfound).1⟩

theorem recorded_final (h : prepare deps input script = some preparation) {results : List Delivered}
    (hresults : results.map (·.destination) = preparation.prepared) :
    Recorded input (finalRecord input script preparation results) where
  consent := prepare_consent h
  known := by
    intro entry hentry
    rcases List.mem_append.mp hentry with hentry | hexcluded
    · rcases List.mem_append.mp hentry with hfinal | hblocked
      · exact known_final h hresults hfinal
      · exact (recorded_base h).known entry
          (List.mem_append_left _ (List.mem_of_mem_filter hblocked))
    · exact (recorded_base h).known entry (List.mem_append_right _ hexcluded)

theorem mem_foldDestinations {base : List (DestinationHistoryEntry ν)}
    {revisions : List (Revision ν)} (h : entry ∈ foldDestinations base revisions) :
    entry ∈ base ∨ ∃ revision ∈ revisions, entry ∈ revision.destinations := by
  have hfold : ∀ (revisions : List (Revision ν))
      (history : OrderedMap String (DestinationHistoryEntry ν)),
      entry ∈ (revisions.foldl (fun history revision =>
        history.setAll (·.destination) revision.destinations) history).values →
      entry ∈ history.values ∨ ∃ revision ∈ revisions, entry ∈ revision.destinations := by
    intro revisions
    induction revisions with
    | nil => exact fun history h => .inl h
    | cons revision rest ih =>
      intro history h
      rcases ih _ h with hset | ⟨later, hlater, hentry⟩
      · rcases OrderedMap.mem_setAll hset with hold | hnew
        · exact .inl hold
        · exact .inr ⟨revision, List.mem_cons_self, hnew⟩
      · exact .inr ⟨later, List.mem_cons_of_mem _ hlater, hentry⟩
  refine (hfold revisions _ h).imp_left fun hbase => ?_
  rcases OrderedMap.mem_setAll hbase with hempty | hbase
  · cases hempty
  · exact hbase

theorem recorded_fold {base : EventRecord ν} {revisions : List (Revision ν)}
    (hbase : Recorded input base)
    (hrevisions : ∀ revision ∈ revisions, ∀ entry ∈ revision.destinations, Known input entry) :
    Recorded input (foldRecord base revisions) where
  consent := hbase.consent
  known := by
    intro entry hentry
    rcases mem_foldDestinations hentry with hold | ⟨revision, hrevision, hnew⟩
    · exact hbase.known entry hold
    · refine hrevisions revision ?_ entry hnew
      exact (List.perm_insertionSort _ revisions).subset hrevision

structure WritesRecorded (input : ReceiveEventInput) (call : Call ν) : Prop where
  base : ∀ base, call.effects.base = some base → Recorded input base
  revisions : ∀ revision ∈ call.effects.revisions, ∀ entry ∈ revision.destinations,
    Known input entry
  returned : ∀ record, call.ending = .returned record → Recorded input record

theorem record_writes (h : prepare deps input script = some preparation) :
    WritesRecorded input (record deps input log script preparation) := by
  generalize hcall : record deps input log script preparation = call
  cases record_case hcall with
  | refused hrefused heffects =>
    subst heffects
    exact ⟨fun _ hbase => (by cases hbase), fun _ hrevision => (by cases hrevision),
      fun _ hending => (by cases hending)⟩
  | unconfirmed hbase happend =>
    refine ⟨fun base hbase => ?_, fun _ hrevision => (by cases hrevision),
      fun _ hending => (by cases hending)⟩
    cases hbase
    exact recorded_base h
  | broken hbase happend hdeliver =>
    refine ⟨fun base hbase => ?_, fun revision hrevision => ?_, fun _ hending => (by cases hending)⟩
    · cases hbase
      exact recorded_base h
    · have hnone := (outward_of_deliverAll hdeliver).revisions
      rw [Log.revisions] at hnone hrevision
      rw [List.filterMap_cons_none rfl, hnone] at hrevision
      cases hrevision
  | @delivered revisionSeq effects results last hbase happend hdeliver hlast =>
    have hresults : results.map (·.destination) = preparation.prepared :=
      deliverAll_destinations (by rw [hdeliver])
    have houtward := outward_of_deliverAll hdeliver
    have hrevised : ∀ revision ∈ [finalRevision input script preparation results revisionSeq],
        ∀ entry ∈ revision.destinations, Known input entry := by
      intro revision hrevision entry hentry
      rw [List.mem_singleton.mp hrevision] at hentry
      exact known_final h hresults hentry
    rcases hlast with ⟨-, rfl⟩ | ⟨-, rfl⟩ | ⟨-, rfl⟩
    · refine ⟨fun base hbase => ?_, fun revision hrevision => ?_,
        fun _ hending => (by cases hending)⟩
      · cases hbase
        exact recorded_base h
      · have hnone := houtward.revisions
        rw [Log.revisions] at hnone hrevision
        rw [List.append_nil, List.filterMap_cons_none rfl, hnone] at hrevision
        cases hrevision
    · refine ⟨fun base hbase => ?_, ?_, fun _ hending => (by cases hending)⟩
      · cases hbase
        exact recorded_base h
      · dsimp only
        rw [houtward.revisions_append]
        exact hrevised
    · refine ⟨fun base hbase => ?_, ?_, fun record hending => ?_⟩
      · cases hbase
        exact recorded_base h
      · dsimp only
        rw [houtward.revisions_append]
        exact hrevised
      · cases hending
        exact recorded_final h hresults

theorem call_writes (deps : RuntimeDeps ν) (input : ReceiveEventInput) (log : Log ν)
    (script : Script ν) : WritesRecorded input (receiveAndDeliver deps input log script) := by
  rw [receiveAndDeliver]
  cases hprepare : prepare deps input script with
  | none =>
    exact ⟨fun _ hbase => (by cases hbase), fun _ hrevision => (by cases hrevision),
      fun _ hending => (by cases hending)⟩
  | some preparation => exact record_writes hprepare

theorem Production.recorded (production : Production ν) :
    Recorded production.input production.record := by
  have hwrites := call_writes production.deps production.input production.log production.script
  rcases production.produces with hbase | hreturned | ⟨base, hbase, hrecord⟩
  · exact hwrites.base _ hbase
  · exact hwrites.returned _ hreturned
  · rw [hrecord]
    exact recorded_fold (hwrites.base base hbase) hwrites.revisions

theorem Production.allows (production : Production ν) :
    ∀ d ∈ production.input.routing.routed,
      Allows production.record.consentSnapshot d.consentPurpose := by
  obtain ⟨resolve, outcomes, notMatched, degraded, hrouting⟩ := production.routing
  rw [production.recorded.consent, hrouting]
  exact route_consented

section Plans

variable {ports : PlanDeps} {hasher : HashPort ν} {request : ReplayRequest}
  {record : EventRecord ν} {production : Production ν}

/-- The entries of a record that the plan targets. -/
def targeted (ports : PlanDeps) (hasher : HashPort ν) (request : ReplayRequest)
    (record : EventRecord ν) : List (DestinationHistoryEntry ν) :=
  plannedEntries ports request (verified hasher record)

/-- A stored entry that was offered and passed the gates, on a record whose consent allows its
destination, with a digest that verifies. -/
structure Sourced (hasher : HashPort ν) (production : Production ν)
    (entry : DestinationHistoryEntry ν) : Prop where
  stored : entry ∈ production.record.destinationHistory
  offered : entry.status ≠ .excluded
  passed : entry.status ≠ .blocked
  marketing : production.record.consentSnapshot.marketing = true
  allowed : ∃ d ∈ production.input.routing.routed, entry.destination = d.key ∧
    Allows production.record.consentSnapshot d.consentPurpose
  verifies : ∃ digest, verifyPayloadDigest hasher entry.renderedPayload entry.payloadHash =
    .valid digest

def keyOf (record : EventRecord ν) (entry : DestinationHistoryEntry ν) : String × String :=
  (record.eventId, entry.destination)

/-- What the items of a plan name. -/
def ReplayPlan.keys (plan : ReplayPlan ν) : List (String × String) :=
  plan.targets.map (fun target => (target.eventId, target.destination)) ++
    plan.refusals.filterMap fun refusal => refusal.2.destination.map (Prod.mk refusal.1)

def requested (request : ReplayRequest) (record : EventRecord ν)
    (entry : DestinationHistoryEntry ν) : Bool :=
  record.consentSnapshot.marketing && (selects request entry && entry.status ≠ .excluded)

/-- Each entry that the request asks for is in the plan once, as a target or as a refusal that names
its destination. Besides these, the plan names the corrupted entries. -/
def Accounted (ports : PlanDeps) (hasher : HashPort ν) (request : ReplayRequest)
    (records : List (EventRecord ν)) : Prop :=
  (planReplayVerified ports hasher request records).keys.Perm
    ((records.flatMap fun record =>
        (record.destinationHistory.filter (requested request record)).map (keyOf record)) ++
      records.flatMap fun record =>
        (record.destinationHistory.filter fun entry =>
          !requested request record entry && (corruption hasher entry).isSome).map (keyOf record))

structure Replays (ports : PlanDeps) (hasher : HashPort ν) (request : ReplayRequest)
    (productions : List (Production ν)) : Prop where
  targets : (planReplayVerified ports hasher request (productions.map (·.record))).targets =
    productions.flatMap fun production =>
      (targeted ports hasher request production.record).map (targetOf production.record)
  sourced : ∀ production ∈ productions,
    ∀ entry ∈ targeted ports hasher request production.record, Sourced hasher production entry
  dispatched : ∀ execute : ExecuteDeps ν,
    (executeReplay execute (planReplayVerified ports hasher request
      (productions.map (·.record)))).1.Sublist
        (planReplayVerified ports hasher request (productions.map (·.record))).targets
  accounted : Accounted ports hasher request (productions.map (·.record))

/-- An entry that was blocked with its payload rendered, on a record with marketing consent, is not
among what the request asks for, or the registries refuse it. -/
def LeavesBlocked (ports : PlanDeps) (hasher : HashPort ν) (request : ReplayRequest)
    (record : EventRecord ν) : Prop :=
  ∀ entry ∈ record.destinationHistory, entry.status = .blocked →
    record.consentSnapshot.marketing = true → selects request entry = true →
      corruption hasher entry = none → (refusalOf ports entry).isSome

instance : Decidable (LeavesBlocked ports hasher request record) := by
  unfold LeavesBlocked
  infer_instance

theorem mem_targeted : entry ∈ targeted ports hasher request record ↔
    entry ∈ record.destinationHistory ∧ corruption hasher entry = none ∧
      record.consentSnapshot.marketing = true ∧ selects request entry = true ∧
      entry.status ≠ .excluded ∧ refusalOf ports entry = none := by
  unfold targeted plannedEntries verified eligibleEntries
  cases hmarketing : record.consentSnapshot.marketing with
  | false => simp
  | true =>
    simp only [Bool.not_true, Bool.false_eq_true, if_false, List.mem_filter,
      Option.isNone_iff_eq_none, Bool.and_eq_true, decide_eq_true_eq, true_and, and_assoc]

theorem verifies_of_targeted (hcorruption : corruption hasher entry = none)
    (hrefusal : refusalOf ports entry = none) :
    ∃ digest, verifyPayloadDigest hasher entry.renderedPayload entry.payloadHash =
      .valid digest := by
  have hpayload : entry.renderedPayload.isEmpty = false := by
    unfold refusalOf at hrefusal
    split at hrefusal
    · cases hrefusal
    · split at hrefusal
      · cases hrefusal
      · split at hrefusal
        · cases hrefusal
        · split at hrefusal
          · cases hrefusal
          · split at hrefusal
            · cases hrefusal
            · rename_i hempty
              simpa using hempty
  unfold corruption at hcorruption
  rw [hpayload] at hcorruption
  cases hverify : verifyPayloadDigest hasher entry.renderedPayload entry.payloadHash with
  | valid digest => exact ⟨digest, rfl⟩
  | invalid reason =>
    rw [hverify] at hcorruption
    cases hcorruption

theorem sourced_of_targeted (h : entry ∈ targeted ports hasher request production.record)
    (hpassed : entry.status ≠ .blocked) : Sourced hasher production entry := by
  obtain ⟨hstored, hcorruption, hmarketing, -, hoffered, hrefusal⟩ := mem_targeted.mp h
  refine ⟨hstored, hoffered, hpassed, hmarketing, ?_, verifies_of_targeted hcorruption hrefusal⟩
  rcases production.recorded.known entry hstored with ⟨d, hd, hkey⟩ | hexcluded
  · exact ⟨d, hd, hkey, production.allows d hd⟩
  · exact absurd hexcluded hoffered

theorem passed_iff : (∀ entry ∈ targeted ports hasher request record, entry.status ≠ .blocked) ↔
    LeavesBlocked ports hasher request record := by
  constructor
  · intro h entry hstored hblocked hmarketing hselects hcorruption
    rw [Option.isSome_iff_ne_none]
    intro hrefusal
    refine h entry (mem_targeted.mpr ?_) hblocked
    exact ⟨hstored, hcorruption, hmarketing, hselects, by simp [hblocked], hrefusal⟩
  · intro h entry htargeted hblocked
    obtain ⟨hstored, hcorruption, hmarketing, hselects, -, hrefusal⟩ := mem_targeted.mp htargeted
    have hsome := h entry hstored hblocked hmarketing hselects hcorruption
    rw [hrefusal] at hsome
    cases hsome

theorem refusalOf_destination {refusal : ReplayRefusal} (h : refusalOf ports entry = some refusal) :
    refusal.destination = some entry.destination := by
  unfold refusalOf at h
  split at h
  · cases h
    rfl
  · split at h
    · cases h
      rfl
    · split at h
      · cases h
        rfl
      · split at h
        · cases h
          rfl
        · split at h
          · cases h
            rfl
          · cases h

theorem filterMap_refusals (eventId : String) {f : DestinationHistoryEntry ν → Option ReplayRefusal}
    (hf : ∀ entry refusal, f entry = some refusal →
      refusal.destination = some entry.destination) (entries : List (DestinationHistoryEntry ν)) :
    (entries.filterMap fun entry => (f entry).map (Prod.mk eventId)).filterMap
        (fun refusal => refusal.2.destination.map (Prod.mk refusal.1)) =
      (entries.filter fun entry => (f entry).isSome).map
        fun entry => (eventId, entry.destination) := by
  induction entries with
  | nil => rfl
  | cons entry rest ih =>
    cases hfound : f entry with
    | none => simp [hfound, ih]
    | some refusal => simp [hfound, hf entry refusal hfound, ih]

theorem filter_exchange {α : Type} (p q : α → Bool) (l : List α) :
    ((l.filter p).filter q ++ l.filter fun a => !p a).Perm
      (l.filter q ++ l.filter fun a => !q a && !p a) := by
  induction l with
  | nil => exact List.Perm.refl _
  | cons a l ih =>
    cases hp : p a with
    | true =>
      cases hq : q a with
      | true | false => simpa [hp, hq] using ih
    | false =>
      cases hq : q a with
      | true =>
        simp only [hp, hq, List.filter_cons, Bool.false_eq_true, if_false, Bool.not_false, if_true,
          Bool.not_true, Bool.false_and, List.cons_append]
        exact List.perm_middle.trans (ih.cons a)
      | false =>
        simp only [hp, hq, List.filter_cons, Bool.false_eq_true, if_false, Bool.not_false, if_true,
          Bool.and_self]
        exact List.perm_middle.trans ((ih.cons a).trans List.perm_middle.symm)

theorem integrityRefusals_keys : (integrityRefusals hasher record).filterMap
    (fun refusal => refusal.2.destination.map (Prod.mk refusal.1)) =
      (record.destinationHistory.filter fun entry => (corruption hasher entry).isSome).map
        (keyOf record) := by
  have hkeys := filterMap_refusals record.eventId
    (f := fun entry => (corruption hasher entry).map (.payloadCorrupted entry.destination))
    (fun entry refusal h => by
      obtain ⟨reason, -, rfl⟩ := Option.map_eq_some_iff.mp h
      rfl) record.destinationHistory
  have hkeyOf : keyOf record = fun entry => (record.eventId, entry.destination) := rfl
  rw [hkeyOf]
  simpa [integrityRefusals, Function.comp_def] using hkeys

theorem recordRefusals_keys (hmarketing : record.consentSnapshot.marketing = true) :
    (recordRefusals ports request record).filterMap
        (fun refusal => refusal.2.destination.map (Prod.mk refusal.1)) =
      ((eligibleEntries record request).filter fun entry =>
        (refusalOf ports entry).isSome).map (keyOf record) := by
  unfold recordRefusals
  rw [hmarketing]
  cases heligible : eligibleEntries record request with
  | nil => rfl
  | cons entry rest =>
    exact filterMap_refusals _ (fun _ _ h => refusalOf_destination h) (entry :: rest)

/-- The items of one record. -/
theorem record_accounted (ports : PlanDeps) (hasher : HashPort ν) (request : ReplayRequest)
    (record : EventRecord ν) :
    ((targeted ports hasher request record).map (keyOf record) ++
      ((integrityRefusals hasher record).filterMap
        (fun refusal => refusal.2.destination.map (Prod.mk refusal.1)) ++
      (recordRefusals ports request (verified hasher record)).filterMap
        (fun refusal => refusal.2.destination.map (Prod.mk refusal.1)))).Perm
      ((record.destinationHistory.filter (requested request record)).map (keyOf record) ++
        (record.destinationHistory.filter fun entry =>
          !requested request record entry && (corruption hasher entry).isSome).map
            (keyOf record)) := by
  rw [integrityRefusals_keys]
  cases hmarketing : record.consentSnapshot.marketing with
  | false =>
    have hnone : recordRefusals ports request (verified hasher record) =
        [(record.eventId, .neverConsented)] := by
      rw [recordRefusals]
      exact if_pos (by simp [verified, hmarketing])
    have htargeted : targeted ports hasher request record = [] := by
      rw [targeted, plannedEntries]
      exact if_pos (by simp [verified, hmarketing])
    have hrequested : requested request record = fun _ => false := by
      funext entry
      rw [requested, hmarketing, Bool.false_and]
    simp [hnone, htargeted, hrequested, ReplayRefusal.destination]
  | true =>
    have hverified : (verified hasher record).consentSnapshot.marketing = true := hmarketing
    have htargeted : targeted ports hasher request record =
        (eligibleEntries (verified hasher record) request).filter fun entry =>
          (refusalOf ports entry).isNone := by
      rw [targeted, plannedEntries, hverified]
      rfl
    have hrequested : requested request record =
        fun entry => selects request entry && entry.status ≠ .excluded := by
      funext entry
      rw [requested, hmarketing, Bool.true_and]
    rw [recordRefusals_keys hverified, htargeted, hrequested]
    have heligible := List.filter_append_perm (fun entry => (refusalOf ports entry).isNone)
      (eligibleEntries (verified hasher record) request)
    have hexchange := filter_exchange (fun entry => (corruption hasher entry).isNone)
      (fun entry => selects request entry && decide (entry.status ≠ .excluded))
      record.destinationHistory
    have hsome : ∀ entry : DestinationHistoryEntry ν,
        (!(refusalOf ports entry).isNone) = (refusalOf ports entry).isSome := by
      intro entry
      cases refusalOf ports entry <;> rfl
    have hcorrupted : ∀ entry : DestinationHistoryEntry ν,
        (!(corruption hasher entry).isNone) = (corruption hasher entry).isSome := by
      intro entry
      cases corruption hasher entry <;> rfl
    simp only [hsome] at heligible
    simp only [hcorrupted] at hexchange
    refine List.Perm.trans ?_ ((hexchange.map (keyOf record)).trans (by rw [List.map_append]))
    rw [List.map_append]
    refine List.Perm.trans ?_ (((heligible.map (keyOf record)).append_right _).trans (.refl _))
    rw [List.map_append, List.append_assoc]
    exact (List.perm_append_comm).append_left _

theorem planned_targets (ports : PlanDeps) (hasher : HashPort ν) (request : ReplayRequest)
    (records : List (EventRecord ν)) :
    (planReplayVerified ports hasher request records).targets =
      records.flatMap fun record =>
        (targeted ports hasher request record).map (targetOf record) := by
  simp only [planReplayVerified, planReplay, List.flatMap_map]
  rfl

theorem accounted (ports : PlanDeps) (hasher : HashPort ν) (request : ReplayRequest)
    (records : List (EventRecord ν)) : Accounted ports hasher request records := by
  have hkeys : (planReplayVerified ports hasher request records).keys =
      (records.flatMap fun record =>
        (targeted ports hasher request record).map (keyOf record)) ++
      ((records.flatMap fun record => (integrityRefusals hasher record).filterMap
          fun refusal => refusal.2.destination.map (Prod.mk refusal.1)) ++
        records.flatMap fun record =>
          (recordRefusals ports request (verified hasher record)).filterMap
            fun refusal => refusal.2.destination.map (Prod.mk refusal.1)) := by
    rw [ReplayPlan.keys, planned_targets, List.map_flatMap]
    simp only [planReplayVerified, planReplay, List.filterMap_append, List.filterMap_flatMap,
      List.flatMap_map, List.map_map]
    rfl
  rw [Accounted, hkeys]
  refine List.Perm.trans ?_ (List.flatMap_append_perm records _ _).symm
  refine List.Perm.trans ?_
    (List.Perm.flatMap_left records fun record _ => record_accounted ports hasher request record)
  refine List.Perm.trans ?_ (List.flatMap_append_perm records _ _)
  exact (List.flatMap_append_perm records _ _).append_left _

/-- Every target of a plan is sourced, and nothing that was asked for is lost, exactly when no blocked
entry with a payload is asked for that the registries would take. -/
theorem planReplayVerified_iff (ports : PlanDeps) (hasher : HashPort ν) (request : ReplayRequest)
    (productions : List (Production ν)) :
    Replays ports hasher request productions ↔
      ∀ production ∈ productions, LeavesBlocked ports hasher request production.record := by
  have htargets : (planReplayVerified ports hasher request (productions.map (·.record))).targets =
      productions.flatMap fun production =>
        (targeted ports hasher request production.record).map (targetOf production.record) := by
    rw [planned_targets, List.flatMap_map]
  constructor
  · intro h production hproduction
    exact passed_iff.mp fun entry htargeted => (h.sourced production hproduction entry htargeted).passed
  · intro h
    refine ⟨htargets, fun production hproduction entry htargeted => ?_, fun execute => ?_,
      accounted _ _ _ _⟩
    · exact sourced_of_targeted htargeted (passed_iff.mpr (h production hproduction) entry htargeted)
    · exact executeTargets_sublist execute _ _

end Plans

section Samples

/-- The record as it is read after a call. -/
def Production.reread (deps : RuntimeDeps ν) (envelope : EnrichedEnvelope) (script : Script ν)
    (resolve : String → Option DestinationDefinition) (outcomes : List String)
    (h : (receiveAndDeliver deps ⟨envelope, route resolve envelope.consent outcomes [] false⟩ []
      script).effects.base.isSome) : Production ν where
  deps := deps
  input := ⟨envelope, route resolve envelope.consent outcomes [] false⟩
  log := []
  script := script
  record := foldRecord (Option.get _ h) (receiveAndDeliver deps
    ⟨envelope, route resolve envelope.consent outcomes [] false⟩ [] script).effects.revisions
  routing := ⟨resolve, outcomes, [], false, rfl⟩
  produces := .inr (.inr ⟨_, (Option.some_get h).symm, rfl⟩)

/-- An event that has not been stitched to an identity. -/
private def unstitched : EnrichedEnvelope := { purchase with identity := none }

private def rendersPurchase : Script ℤ where
  now := 0
  hashes := true
  renderPayload := fun _ => some (.rendered [("event", .string "purchase")])
  destinationVersion := fun _ => some 1
  mappingVersion := fun _ => some 1
  append := .done
  deliveries := [acceptedAtOnce]
  finishedAt := 0
  history := .done

private def registered (key : String) : Option DestinationDefinition := some (vendor key)

/-- The delivery is blocked, and its payload is replayed. -/
theorem planReplayVerified_fails :
    ¬ ∀ (ports : PlanDeps) (hasher : HashPort ℤ) (request : ReplayRequest)
      (productions : List (Production ℤ)), Replays ports hasher request productions := by
  intro h
  have hsourced := (h ⟨registered, none, none⟩ plainDeps.hasher ⟨.single, none, none⟩
    [.reread plainDeps unstitched rendersPurchase registered ["first"] (by decide +kernel)]).sourced
  have hleaves := passed_iff.mp fun entry htargeted =>
    (hsourced _ List.mem_cons_self entry htargeted).passed
  exact absurd hleaves (by decide +kernel)

end Samples

end Tracking
