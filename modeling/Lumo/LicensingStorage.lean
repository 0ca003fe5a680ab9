import Lumo.Calendars
import Lumo.FallibleFolds
import Lumo.LicensingRenewal
import Lumo.OrderedMap

/-! # `MerchantCapabilities`: what is granted to a merchant, and its storage

The grants and their audit history are stored in columns of JSON, which the mapper reads back as
they come. Events are not modelled. -/
namespace LicensingStorage

open SharedKernel LabelledRuns

/-- What a property of the type `Date` holds: a date, by its time in milliseconds, or the text that
JSON has made of one. -/
inductive Stamp where
  | date (t : ℚ)
  | text (s : String)
  deriving DecidableEq

def toISOString (t : ℚ) : String := IsoTimes.isoText ⌊t⌋

/-- A property after `JSON.stringify` and `JSON.parse`. -/
def Stamp.json : Stamp → Stamp
  | date t => text (toISOString t)
  | text s => text s

inductive CapabilityGrantSource where
  | manual
  | temporary
  | trial
  | beta
  | enterprise
  | sales
  | support
  deriving DecidableEq

structure CapabilityGrant where
  featureKey : String
  enabled : Bool
  source : CapabilityGrantSource
  expiresAt : Option Stamp
  reason : Option String
  notes : Option String
  deriving DecidableEq

inductive CapabilityAction where
  | granted
  | revoked

/-- `occurredAt` is the property `at` of the source. -/
structure CapabilityAuditEntry where
  featureKey : String
  action : CapabilityAction
  source : CapabilityGrantSource
  occurredAt : Stamp
  eventId : String

structure MerchantCapabilities where
  id : UniqueEntityId
  tenantRef : String
  grants : OrderedMap String CapabilityGrant
  auditHistory : List CapabilityAuditEntry
  version : ℕ

namespace MerchantCapabilities

def create (id : UniqueEntityId) (tenantRef : String) : MerchantCapabilities :=
  ⟨id, tenantRef, .empty, [], 0⟩

def reconstitute (id : UniqueEntityId) (tenantRef : String) (grants : List CapabilityGrant)
    (auditHistory : List CapabilityAuditEntry) (version : ℕ) : MerchantCapabilities :=
  ⟨id, tenantRef, OrderedMap.empty.setAll (·.featureKey) grants, auditHistory, version⟩

/-- `grant`, of a grant that is given as a whole. -/
def grant (given : CapabilityGrant) (eventId : String) (occurredAt : ℚ)
    (capabilities : MerchantCapabilities) : MerchantCapabilities :=
  { capabilities with
    grants := capabilities.grants.set given.featureKey given
    auditHistory := capabilities.auditHistory ++
      [⟨given.featureKey, .granted, given.source, .date occurredAt, eventId⟩] }

def revoke (featureKey eventId : String) (occurredAt : ℚ) (capabilities : MerchantCapabilities) :
    MerchantCapabilities :=
  { capabilities with
    grants := capabilities.grants.erase featureKey
    auditHistory := capabilities.auditHistory ++ [⟨featureKey, .revoked,
      ((capabilities.grants.find? featureKey).map (·.source)).getD .manual, .date occurredAt,
      eventId⟩] }

/-- `getTime` is a method of dates and of nothing else. -/
def resolve (featureKey : String) (now : ℚ) (capabilities : MerchantCapabilities) :
    Except String (Option CapabilityGrant) :=
  match capabilities.grants.find? featureKey with
  | none => .ok none
  | some held =>
    match held.expiresAt with
    | none => .ok (some held)
    | some (.date t) => .ok (if t ≤ now then none else some held)
    | some (.text _) => .error "grant.expiresAt.getTime is not a function"

end MerchantCapabilities

structure MerchantCapabilitiesRow where
  id : String
  tenantId : String
  tenantRef : String
  grants : List CapabilityGrant
  auditHistory : List CapabilityAuditEntry
  version : ℕ

def CapabilityGrant.json (held : CapabilityGrant) : CapabilityGrant :=
  { held with expiresAt := held.expiresAt.map Stamp.json }

def CapabilityAuditEntry.json (entry : CapabilityAuditEntry) : CapabilityAuditEntry :=
  { entry with occurredAt := entry.occurredAt.json }

/-- The row as it is read, with the version under which it is stored. -/
def MerchantCapabilitiesRow.stored (version : ℕ) (row : MerchantCapabilitiesRow) :
    MerchantCapabilitiesRow :=
  { row with
    grants := row.grants.map CapabilityGrant.json
    auditHistory := row.auditHistory.map CapabilityAuditEntry.json
    version := version }

namespace MerchantCapabilitiesMapper

def toDomain (row : MerchantCapabilitiesRow) : Except DomainError MerchantCapabilities := do
  let id ← UniqueEntityId.from row.id
  return MerchantCapabilities.reconstitute id row.tenantRef row.grants row.auditHistory row.version

def toRow (capabilities : MerchantCapabilities) (tenantId : String) : MerchantCapabilitiesRow :=
  ⟨capabilities.id.value, tenantId, capabilities.tenantRef, capabilities.grants.values,
    capabilities.auditHistory, 1⟩

/-- The aggregate that is read back after it has been stored. -/
def reload (tenantId : String) (version : ℕ) (capabilities : MerchantCapabilities) :
    Except DomainError MerchantCapabilities :=
  toDomain ((toRow capabilities tenantId).stored version)

end MerchantCapabilitiesMapper

/-- `expiresAt` is a date here. -/
inductive CapabilityCall where
  | grant (featureKey : String) (enabled : Bool) (source : CapabilityGrantSource)
      (expiresAt : Option ℚ) (reason notes : Option String) (eventId : String) (occurredAt : ℚ)
  | revoke (featureKey eventId : String) (occurredAt : ℚ)

def CapabilityCall.run : CapabilityCall → MerchantCapabilities → MerchantCapabilities
  | grant featureKey enabled source expiresAt reason notes eventId occurredAt =>
    MerchantCapabilities.grant
      ⟨featureKey, enabled, source, expiresAt.map Stamp.date, reason, notes⟩ eventId occurredAt
  | revoke featureKey eventId occurredAt =>
    MerchantCapabilities.revoke featureKey eventId occurredAt

abbrev ReachedCapabilities : MerchantCapabilities → Prop :=
  Reachable (fun capabilities => ∃ id tenantRef, capabilities = .create id tenantRef)
    fun capabilities (call : CapabilityCall) next => call.run capabilities = next

structure Dated (capabilities : MerchantCapabilities) : Prop where
  keyed : OrderedMap.Keyed (·.featureKey) capabilities.grants
  grants : ∀ held ∈ capabilities.grants.values, ∀ stamp, held.expiresAt = some stamp →
    ∃ t, stamp = .date t
  auditHistory : ∀ entry ∈ capabilities.auditHistory, ∃ t, entry.occurredAt = .date t

variable {capabilities : MerchantCapabilities}

theorem run_dated (call : CapabilityCall) (h : Dated capabilities) :
    Dated (call.run capabilities) := by
  cases call with
  | grant featureKey enabled source expiresAt reason notes eventId occurredAt =>
    refine ⟨h.keyed.set _, ?_, ?_⟩
    · intro held hheld stamp hstamp
      obtain ⟨e, he, rfl⟩ := List.mem_map.mp hheld
      rcases OrderedMap.mem_set he with rfl | hold
      · obtain ⟨t, -, ht⟩ := Option.map_eq_some_iff.mp hstamp
        exact ⟨t, ht.symm⟩
      · exact h.grants _ (List.mem_map_of_mem hold) stamp hstamp
    · intro entry hentry
      rcases List.mem_append.mp hentry with hold | hnew
      · exact h.auditHistory entry hold
      · rw [List.mem_singleton.mp hnew]
        exact ⟨occurredAt, rfl⟩
  | revoke featureKey eventId occurredAt =>
    refine ⟨h.keyed.erase _, ?_, ?_⟩
    · intro held hheld stamp hstamp
      obtain ⟨e, he, rfl⟩ := List.mem_map.mp hheld
      exact h.grants _ (List.mem_map_of_mem (List.mem_filter.mp he).1) stamp hstamp
    · intro entry hentry
      rcases List.mem_append.mp hentry with hold | hnew
      · exact h.auditHistory entry hold
      · rw [List.mem_singleton.mp hnew]
        exact ⟨occurredAt, rfl⟩

theorem reached_dated (h : ReachedCapabilities capabilities) : Dated capabilities := by
  refine reachable_invariant ?_ ?_ h
  · rintro _ ⟨id, tenantRef, rfl⟩
    refine ⟨OrderedMap.keyed_empty, ?_, ?_⟩ <;>
      simp [MerchantCapabilities.create, OrderedMap.values]
  · rintro s call _ hs rfl
    exact run_dated call hs

def MerchantCapabilities.unrevived (version : ℕ) (capabilities : MerchantCapabilities) :
    MerchantCapabilities :=
  { capabilities with
    grants := capabilities.grants.mapValues fun _ held => held.json
    auditHistory := capabilities.auditHistory.map CapabilityAuditEntry.json
    version := version }

theorem reload_eq (h : Dated capabilities) (tenantId : String) (version : ℕ) :
    MerchantCapabilitiesMapper.reload tenantId version capabilities =
      .ok (capabilities.unrevived version) := by
  have hkeyed : OrderedMap.Keyed (·.featureKey)
      (capabilities.grants.mapValues fun _ held => held.json) := by
    intro e he
    obtain ⟨held, hheld, hjson⟩ := OrderedMap.mem_mapValues.mp he
    rw [← hjson]
    exact h.keyed _ hheld
  have hvalues : capabilities.grants.values.map CapabilityGrant.json =
      (capabilities.grants.mapValues fun _ held => held.json).values := by
    simp [OrderedMap.values, OrderedMap.mapValues]
  have hid := UniqueEntityId.from_of_notEmpty capabilities.id.notEmpty
  simp only [MerchantCapabilitiesMapper.reload, MerchantCapabilitiesMapper.toDomain,
    MerchantCapabilitiesMapper.toRow, MerchantCapabilitiesRow.stored, hid, ok_bind,
    MerchantCapabilities.reconstitute, hvalues, hkeyed.setAll_values]
  rfl

/-- A query of the aggregate. -/
inductive CapabilityQuery where
  | tenantRef
  | resolve (featureKey : String) (now : ℚ)
  | grants
  | auditHistory

inductive CapabilityAnswer where
  | text (s : String)
  | resolved (held : Except String (Option CapabilityGrant))
  | grants (held : List CapabilityGrant)
  | auditHistory (entries : List CapabilityAuditEntry)

def CapabilityQuery.answer : CapabilityQuery → MerchantCapabilities → CapabilityAnswer
  | tenantRef, capabilities => .text capabilities.tenantRef
  | resolve featureKey now, capabilities => .resolved (capabilities.resolve featureKey now)
  | grants, capabilities => .grants capabilities.grants.values
  | auditHistory, capabilities => .auditHistory capabilities.auditHistory

/-- The query reads no date. -/
def CapabilityQuery.Dateless : CapabilityQuery → MerchantCapabilities → Prop
  | tenantRef, _ => True
  | resolve featureKey _, capabilities =>
    ∀ held, capabilities.grants.find? featureKey = some held → held.expiresAt = none
  | grants, capabilities => ∀ held ∈ capabilities.grants.values, held.expiresAt = none
  | auditHistory, capabilities => capabilities.auditHistory = []

theorem json_eq_iff {held : CapabilityGrant}
    (h : ∀ stamp, held.expiresAt = some stamp → ∃ t, stamp = .date t) :
    held.json = held ↔ held.expiresAt = none := by
  constructor
  · intro hsame
    cases hexpiry : held.expiresAt with
    | none => rfl
    | some stamp =>
      obtain ⟨t, rfl⟩ := h stamp hexpiry
      have hjson := congrArg CapabilityGrant.expiresAt hsame
      rw [CapabilityGrant.json, hexpiry] at hjson
      cases hjson
  · intro hnone
    rw [CapabilityGrant.json, hnone]
    cases held
    simp only at hnone
    rw [hnone]
    rfl

theorem map_json_eq_iff {entries : List CapabilityAuditEntry}
    (h : ∀ entry ∈ entries, ∃ t, entry.occurredAt = .date t) :
    entries.map CapabilityAuditEntry.json = entries ↔ entries = [] := by
  constructor
  · intro hsame
    cases entries with
    | nil => rfl
    | cons entry rest =>
      obtain ⟨t, ht⟩ := h entry List.mem_cons_self
      have hjson := congrArg CapabilityAuditEntry.occurredAt (List.cons.inj hsame).1
      rw [CapabilityAuditEntry.json, ht] at hjson
      cases hjson
  · rintro rfl
    rfl

theorem resolve_unrevived_iff (h : Dated capabilities) (version : ℕ) (featureKey : String) (now : ℚ) :
    (capabilities.unrevived version).resolve featureKey now = capabilities.resolve featureKey now ↔
      ∀ held, capabilities.grants.find? featureKey = some held → held.expiresAt = none := by
  have hfind : (capabilities.unrevived version).grants.find? featureKey =
      (capabilities.grants.find? featureKey).map CapabilityGrant.json :=
    OrderedMap.find?_mapValues _ _ _
  simp only [MerchantCapabilities.resolve, hfind]
  cases hheld : capabilities.grants.find? featureKey with
  | none =>
    simp only [Option.map_none, true_iff]
    rintro held ⟨⟩
  | some held =>
    have hmem : held ∈ capabilities.grants.values :=
      List.mem_map_of_mem (OrderedMap.find?_eq_some.mp hheld)
    simp only [Option.map_some, CapabilityGrant.json]
    cases hexpiry : held.expiresAt with
    | none =>
      have hsame : held.json = held := (json_eq_iff (h.grants _ hmem)).mpr hexpiry
      rw [CapabilityGrant.json, hexpiry] at hsame
      simp only [Option.map_none] at hsame ⊢
      rw [hsame]
      simp [hexpiry]
    | some stamp =>
      obtain ⟨t, rfl⟩ := h.grants _ hmem stamp hexpiry
      constructor
      · intro hthrown
        cases hthrown
      · intro hnone
        have hcontra := hnone held rfl
        rw [hexpiry] at hcontra
        cases hcontra

theorem grants_unrevived_iff (h : Dated capabilities) (version : ℕ) :
    (capabilities.unrevived version).grants.values = capabilities.grants.values ↔
      ∀ held ∈ capabilities.grants.values, held.expiresAt = none := by
  have hvalues : (capabilities.unrevived version).grants.values =
      capabilities.grants.values.map CapabilityGrant.json := by
    simp [MerchantCapabilities.unrevived, OrderedMap.values, OrderedMap.mapValues]
  constructor
  · intro hsame held hheld
    have hall : ∀ g ∈ capabilities.grants.values, g.json = g := by
      apply List.map_eq_map_iff.mp
      rw [List.map_id', ← hvalues, hsame]
    exact (json_eq_iff (h.grants _ hheld)).mp (hall held hheld)
  · intro hnone
    rw [hvalues]
    conv_rhs => rw [← List.map_id' capabilities.grants.values]
    apply List.map_congr_left
    intro held hheld
    exact (json_eq_iff (h.grants _ hheld)).mpr (hnone held hheld)

theorem answer_unrevived_iff (h : Dated capabilities) (version : ℕ) (query : CapabilityQuery) :
    query.answer (capabilities.unrevived version) = query.answer capabilities ↔
      query.Dateless capabilities := by
  cases query with
  | tenantRef => exact ⟨fun _ => trivial, fun _ => rfl⟩
  | resolve featureKey now =>
    rw [CapabilityQuery.answer, CapabilityQuery.answer, CapabilityAnswer.resolved.injEq]
    exact resolve_unrevived_iff h version featureKey now
  | grants =>
    rw [CapabilityQuery.answer, CapabilityQuery.answer, CapabilityAnswer.grants.injEq]
    exact grants_unrevived_iff h version
  | auditHistory =>
    rw [CapabilityQuery.answer, CapabilityQuery.answer, CapabilityAnswer.auditHistory.injEq]
    exact map_json_eq_iff h.auditHistory

end LicensingStorage

/-! ## The licensing aggregates as rows

The mappers of plans, subscriptions, invoices and coupons, and what comes back when an aggregate is
read after it has been stored. A column of JSON keeps a date as its text. -/
namespace LicensingStorage

open SharedKernel Builtins Licensing LabelledRuns

inductive Unread where
  | domain (e : DomainError)
  | error (message : String)
  | invalidDate

def entityId (value : String) : Except Unread String :=
  ((UniqueEntityId.from value).map (·.value)).mapError .domain

theorem entityId_of_notEmpty {value : String} (h : isBlank value = false) :
    entityId value = .ok value := by
  rw [entityId, UniqueEntityId.from_of_notEmpty h]
  rfl

/-- A whole number of milliseconds that a `Date` can hold. -/
def IsDate (t : ℚ) : Prop := ∃ n : ℤ, t = n ∧ |n| ≤ IsoTimes.maxTime

/-- `new Date`, of a date or of its text. -/
def newDate : Stamp → Except Unread ℚ
  | .date t => .ok t
  | .text s =>
    match IsoTimes.readTime s with
    | none => .error .invalidDate
    | some n => .ok n

theorem newDate_toISOString {t : ℚ} (h : IsDate t) : newDate (.text (toISOString t)) = .ok t := by
  obtain ⟨n, rfl, hn⟩ := h
  have hread : IsoTimes.readTime (toISOString n) = some n := by
    rw [toISOString, Int.floor_intCast]
    exact IsoTimes.readTime_isoText hn
  rw [newDate, hread]

theorem newDate_json {t : ℚ} (h : IsDate t) : newDate (Stamp.date t).json = .ok t :=
  newDate_toISOString h

def optional {α β : Type} (read : α → Except Unread β) : Option α → Except Unread (Option β)
  | none => .ok none
  | some a => (read a).map some

theorem optional_ok {α β γ : Type} {read : β → Except Unread γ} {write : α → β} {value : γ → α}
    {given : Option γ} (h : ∀ c, given = some c → read (write (value c)) = .ok c) :
    optional read ((given.map value).map write) = .ok given := by
  cases given with
  | none => rfl
  | some c =>
    have hc := h c rfl
    simp only [Option.map_some, optional, hc]
    rfl

/-- `new Date`, of a text or of nothing. -/
def optionalDate (text : Option String) : Except Unread (Option ℚ) :=
  optional (fun s => newDate (.text s)) text

theorem optionalDate_toISOString {given : Option ℚ} (h : ∀ t, given = some t → IsDate t) :
    optionalDate (given.map toISOString) = .ok given := by
  have hread : optionalDate ((given.map id).map toISOString) = .ok given :=
    optional_ok fun t ht => newDate_toISOString (h t ht)
  rwa [Option.map_id] at hread

theorem optional_json {given : Option ℚ} (h : ∀ t, given = some t → IsDate t) :
    optional newDate ((given.map Stamp.date).map Stamp.json) = .ok given :=
  optional_ok fun t ht => newDate_json (h t ht)

structure PlanVersionRow where
  id : String
  spec : PlanSpec
  status : PlanVersionStatus
  scheduledPublishAt : Option String

structure PlanRow where
  id : String
  key : String
  name : String
  tier : PlanTier
  versions : List PlanVersionRow
  publishedVersionId : Option String

namespace PlanMapper

def versionToDomain (row : PlanVersionRow) : Except Unread PlanVersion := do
  let id ← entityId row.id
  let scheduledPublishAt ← optionalDate row.scheduledPublishAt
  return ⟨id, row.spec, row.status, scheduledPublishAt⟩

def versionToRow (v : PlanVersion) : PlanVersionRow :=
  ⟨v.id, v.spec, v.status, v.scheduledPublishAt.map toISOString⟩

def toDomain (row : PlanRow) : Except Unread Plan := do
  let versions ← row.versions.mapM versionToDomain
  let id ← (UniqueEntityId.from row.id).mapError .domain
  return ⟨id, row.key, row.name, row.tier, versions, row.publishedVersionId⟩

def toRow (plan : Plan) : PlanRow :=
  ⟨plan.id.value, plan.key, plan.name, plan.tier, plan.versions.map versionToRow,
    plan.publishedVersionId⟩

/-- Nothing in the row is a date, so that JSON leaves it as it is. -/
def reload (plan : Plan) : Except Unread Plan := toDomain (toRow plan)

end PlanMapper

structure Storable (v : PlanVersion) : Prop where
  entity : isBlank v.id = false
  date : ∀ t, v.scheduledPublishAt = some t → IsDate t

theorem versionToDomain_versionToRow {v : PlanVersion} (h : Storable v) :
    PlanMapper.versionToDomain (PlanMapper.versionToRow v) = .ok v := by
  have hdate := optionalDate_toISOString h.date
  simp only [PlanMapper.versionToDomain, PlanMapper.versionToRow, entityId_of_notEmpty h.entity,
    hdate, ok_bind]
  rfl

variable {plan : Plan}

theorem plan_reload (h : ∀ v ∈ plan.versions, Storable v) : PlanMapper.reload plan = .ok plan := by
  have hversions : (plan.versions.map PlanMapper.versionToRow).mapM PlanMapper.versionToDomain =
      .ok plan.versions := by
    rw [FallibleFolds.mapM_written fun v hv => versionToDomain_versionToRow (h v hv)]
    exact congrArg _ plan.versions.map_id
  have hid := UniqueEntityId.from_of_notEmpty plan.id.notEmpty
  simp only [PlanMapper.reload, PlanMapper.toDomain, PlanMapper.toRow, hversions, hid, ok_bind,
    Except.mapError]
  rfl

def WellDated : PlanCall → Prop
  | .schedule _ publishAt => IsDate publishAt
  | _ => True

def afterCall (plan : Plan) (call : PlanCall) : Plan :=
  match call.run plan with
  | .ok plan => plan
  | .error _ => plan

abbrev ReachedPlan : Plan → Prop :=
  Reachable (fun plan => ∃ id key name tier, plan = .create id key name tier)
    fun plan (call : PlanCall) next => WellDated call ∧ afterCall plan call = next

theorem versionRef_notEmpty (planId : String) (n : ℕ) : isBlank (versionRef planId n) = false := by
  rw [isBlank, versionRef, List.all_eq_false]
  refine ⟨'v', ?_, by decide⟩
  simp

theorem transition_storable {toStatus : PlanVersionStatus} {v w : PlanVersion} (h : Storable v)
    (hw : v.transition toStatus = .ok w) : Storable w := by
  obtain ⟨-, -, rfl⟩ := PlanVersion.transition_ok hw
  exact ⟨h.entity, h.date⟩

theorem changeVersion_storable {versionId : String}
    {change : PlanVersion → Except DomainError PlanVersion} {vs ws : List PlanVersion}
    (hchange : ∀ v w, Storable v → change v = .ok w → Storable w) (h : ∀ v ∈ vs, Storable v)
    (hws : changeVersion versionId change vs = .ok ws) : ∀ w ∈ ws, Storable w := by
  obtain ⟨before, v, w, after, rfl, -, hw, rfl⟩ := changeVersion_ok hws
  intro x hx
  rcases List.mem_append.mp hx with hbefore | hrest
  · exact h x (List.mem_append_left _ hbefore)
  · rcases List.mem_cons.mp hrest with rfl | hafter
    · exact hchange v _ (h v (by simp)) hw
    · exact h x (by simp [hafter])

theorem createDraft_storable {spec : PlanSpec} {new : Plan} (h : ∀ v ∈ plan.versions, Storable v)
    (hnew : plan.createDraft spec = .ok new) : ∀ v ∈ new.versions, Storable v := by
  obtain ⟨draft, hdraft, hrest⟩ := bind_eq_ok.mp hnew
  cases hrest
  obtain rfl := PlanVersion.createDraft_ok hdraft
  intro v hv
  rcases List.mem_append.mp hv with hold | hlast
  · exact h v hold
  · rw [List.mem_singleton.mp hlast]
    refine ⟨versionRef_notEmpty _ _, ?_⟩
    rintro t ⟨⟩

theorem run_storable {call : PlanCall} {new : Plan} (hcall : WellDated call)
    (h : ∀ v ∈ plan.versions, Storable v) (hnew : call.run plan = .ok new) :
    ∀ v ∈ new.versions, Storable v := by
  cases call with
  | createDraft spec => exact createDraft_storable h hnew
  | clone fromVersionId =>
    obtain ⟨source, -, hdraft⟩ := bind_eq_ok.mp hnew
    exact createDraft_storable h hdraft
  | schedule versionId publishAt =>
    obtain ⟨versions, hversions, hrest⟩ := bind_eq_ok.mp (mapError_ok.mp hnew)
    cases hrest
    refine changeVersion_storable ?_ h hversions
    intro v w hv hw
    obtain ⟨moved, hmoved, hset⟩ := bind_eq_ok.mp hw
    cases hset
    refine ⟨(transition_storable hv hmoved).entity, ?_⟩
    rintro t ⟨⟩
    exact hcall
  | publish versionId =>
    obtain ⟨versions, hversions, hrest⟩ := bind_eq_ok.mp (mapError_ok.mp hnew)
    cases hrest
    exact changeVersion_storable (fun _ _ hv hw => transition_storable hv hw) h hversions
  | rollback toVersionId =>
    obtain ⟨target, -, hrest⟩ := bind_eq_ok.mp (mapError_ok.mp hnew)
    split at hrest
    · cases hrest
    · cases hrest
      exact h
  | archive versionId =>
    obtain ⟨versions, hversions, hrest⟩ := bind_eq_ok.mp (mapError_ok.mp hnew)
    cases hrest
    exact changeVersion_storable (fun _ _ hv hw => transition_storable hv hw) h hversions

theorem reachedPlan_storable (h : ReachedPlan plan) : ∀ v ∈ plan.versions, Storable v := by
  refine reachable_invariant (I := fun plan => ∀ v ∈ plan.versions, Storable v) ?_ ?_ h
  · rintro _ ⟨id, key, name, tier, rfl⟩ v hv
    cases hv
  · rintro s call _ hs ⟨hcall, rfl⟩
    rw [afterCall]
    split
    · rename_i new hnew
      exact run_storable hcall hs hnew
    · exact hs

structure Subscription extends toRenewing : LicensingRenewal.Subscription where
  cancellationReason : Option String
  pausedUntil : Option ℚ

namespace Subscription

def startTrial (id : UniqueEntityId) (tenantRef planVersionRef : String) : Subscription where
  id := id.value
  status := .trial
  gracePeriodDays := none
  retryPolicy := none
  version := 0
  tenantRef := tenantRef
  planVersionRef := planVersionRef
  renewalSchedule := none
  cancellationReason := none
  pausedUntil := none

/-- What the table does not allow is thrown, and leaves the subscription as it is by then. -/
def transition (toStatus : SubscriptionStatus) (s : Subscription) :
    Subscription × Except DomainError Unit :=
  if s.status.transitions.contains toStatus then ({ s with status := toStatus }, .ok ())
  else (s, .error (.businessRule
    ("Cannot transition subscription from " ++ s.status.text ++ " to " ++ toStatus.text)))

end Subscription

inductive SubscriptionCall where
  | activate
  | repin (newPlanVersionRef : String)
  | enterGrace (gracePeriodDays : ℚ)
  | expire
  | recoverFromGrace
  | exhaustDunning
  | suspend
  | cancel (reason : String)
  | pause (resumeDate : ℚ)
  | resume
  | setRenewalSchedule (schedule : LicensingRenewal.RenewalSchedule)
  | setRetryPolicy (policy : Option RetryPolicy)

def SubscriptionCall.run : SubscriptionCall → Subscription → Subscription × Except DomainError Unit
  | activate, s => s.transition .active
  | repin newPlanVersionRef, s => ({ s with planVersionRef := newPlanVersionRef }, .ok ())
  | enterGrace gracePeriodDays, s =>
    { s with gracePeriodDays := some gracePeriodDays }.transition .grace
  | expire, s => s.transition .expired
  | recoverFromGrace, s => s.transition .active
  | exhaustDunning, s => s.transition .expired
  | suspend, s => s.transition .suspended
  | cancel reason, s => { s with cancellationReason := some reason }.transition .cancelled
  | pause resumeDate, s => ({ s with pausedUntil := some resumeDate }, .ok ())
  | resume, s => ({ s with pausedUntil := none }, .ok ())
  | setRenewalSchedule schedule, s => ({ s with renewalSchedule := some schedule }, .ok ())
  | setRetryPolicy policy, s => ({ s with retryPolicy := policy }, .ok ())

def SubscriptionCall.WellDated : SubscriptionCall → Prop
  | pause resumeDate => IsDate resumeDate
  | setRenewalSchedule schedule => IsDate schedule.nextRenewalAt
  | setRetryPolicy policy => ∀ p, policy = some p → ∀ t, p.nextRetryAt = some t → IsDate t
  | _ => True

abbrev ReachedSubscription : Subscription → Prop :=
  Reachable (fun s => ∃ id tenantRef planVersionRef, s = .startTrial id tenantRef planVersionRef)
    fun s (call : SubscriptionCall) next => call.WellDated ∧ (call.run s).1 = next

/-- The columns `renewalSchedule` and `retryPolicy`. -/
structure RenewalScheduleColumn where
  cycleDays : ℚ
  nextRenewalAt : Stamp

structure RetryPolicyColumn where
  maxAttempts : ℚ
  attempt : ℕ
  nextRetryAt : Option Stamp
  invoiceRef : Option String

structure SubscriptionRow where
  id : String
  tenantId : String
  tenantRef : String
  planVersionRef : String
  status : SubscriptionStatus
  renewalSchedule : Option RenewalScheduleColumn
  gracePeriodDays : Option ℚ
  retryPolicy : Option RetryPolicyColumn
  cancellationReason : Option String
  pausedUntil : Option String
  version : ℕ

def RenewalScheduleColumn.json (column : RenewalScheduleColumn) : RenewalScheduleColumn :=
  { column with nextRenewalAt := column.nextRenewalAt.json }

def RetryPolicyColumn.json (column : RetryPolicyColumn) : RetryPolicyColumn :=
  { column with nextRetryAt := column.nextRetryAt.map Stamp.json }

def SubscriptionRow.stored (version : ℕ) (row : SubscriptionRow) : SubscriptionRow :=
  { row with
    renewalSchedule := row.renewalSchedule.map RenewalScheduleColumn.json
    retryPolicy := row.retryPolicy.map RetryPolicyColumn.json
    version := version }

namespace SubscriptionMapper

def scheduleToDomain (column : RenewalScheduleColumn) :
    Except Unread LicensingRenewal.RenewalSchedule := do
  let nextRenewalAt ← newDate column.nextRenewalAt
  return ⟨column.cycleDays, nextRenewalAt⟩

def policyToDomain (column : RetryPolicyColumn) : Except Unread RetryPolicy := do
  let nextRetryAt ← optional newDate column.nextRetryAt
  return ⟨column.maxAttempts, column.attempt, nextRetryAt, column.invoiceRef⟩

def scheduleToRow (schedule : LicensingRenewal.RenewalSchedule) : RenewalScheduleColumn :=
  ⟨schedule.cycleDays, .date schedule.nextRenewalAt⟩

def policyToRow (policy : RetryPolicy) : RetryPolicyColumn :=
  ⟨policy.maxAttempts, policy.attempt, policy.nextRetryAt.map Stamp.date, policy.invoiceRef⟩

def toDomain (row : SubscriptionRow) : Except Unread Subscription := do
  let id ← entityId row.id
  let renewalSchedule ← optional scheduleToDomain row.renewalSchedule
  let retryPolicy ← optional policyToDomain row.retryPolicy
  let pausedUntil ← optionalDate row.pausedUntil
  return {
    id := id
    status := row.status
    gracePeriodDays := row.gracePeriodDays
    retryPolicy := retryPolicy
    version := row.version
    tenantRef := row.tenantRef
    planVersionRef := row.planVersionRef
    renewalSchedule := renewalSchedule
    cancellationReason := row.cancellationReason
    pausedUntil := pausedUntil }

def toRow (s : Subscription) (tenantId : String) : SubscriptionRow where
  id := s.id
  tenantId := tenantId
  tenantRef := s.tenantRef
  planVersionRef := s.planVersionRef
  status := s.status
  renewalSchedule := s.renewalSchedule.map scheduleToRow
  gracePeriodDays := s.gracePeriodDays
  retryPolicy := s.retryPolicy.map policyToRow
  cancellationReason := s.cancellationReason
  pausedUntil := s.pausedUntil.map toISOString
  version := 1

def reload (tenantId : String) (version : ℕ) (s : Subscription) : Except Unread Subscription :=
  toDomain ((toRow s tenantId).stored version)

end SubscriptionMapper

/-- Every date of a subscription is one. -/
structure Timely (s : Subscription) : Prop where
  entity : isBlank s.id = false
  schedule : ∀ schedule, s.renewalSchedule = some schedule → IsDate schedule.nextRenewalAt
  policy : ∀ policy, s.retryPolicy = some policy → ∀ t, policy.nextRetryAt = some t → IsDate t
  paused : ∀ t, s.pausedUntil = some t → IsDate t

variable {s : Subscription}

theorem Timely.transition (h : Timely s) (toStatus : SubscriptionStatus) :
    Timely (s.transition toStatus).1 := by
  rw [Subscription.transition]
  split
  · exact ⟨h.entity, h.schedule, h.policy, h.paused⟩
  · exact h

theorem Timely.run {call : SubscriptionCall} (hcall : call.WellDated) (h : Timely s) :
    Timely (call.run s).1 := by
  cases call with
  | activate => exact h.transition _
  | repin newPlanVersionRef => exact ⟨h.entity, h.schedule, h.policy, h.paused⟩
  | enterGrace gracePeriodDays =>
    apply Timely.transition
    exact ⟨h.entity, h.schedule, h.policy, h.paused⟩
  | expire | recoverFromGrace | exhaustDunning | suspend => exact h.transition _
  | cancel reason =>
    apply Timely.transition
    exact ⟨h.entity, h.schedule, h.policy, h.paused⟩
  | pause resumeDate =>
    refine ⟨h.entity, h.schedule, h.policy, ?_⟩
    rintro t ⟨⟩
    exact hcall
  | resume =>
    refine ⟨h.entity, h.schedule, h.policy, ?_⟩
    rintro t ⟨⟩
  | setRenewalSchedule schedule =>
    refine ⟨h.entity, ?_, h.policy, h.paused⟩
    rintro _ ⟨⟩
    exact hcall
  | setRetryPolicy policy => exact ⟨h.entity, h.schedule, hcall, h.paused⟩

theorem reachedSubscription_timely (h : ReachedSubscription s) : Timely s := by
  refine reachable_invariant ?_ ?_ h
  · rintro _ ⟨id, tenantRef, planVersionRef, rfl⟩
    refine ⟨id.notEmpty, ?_, ?_, ?_⟩ <;> rintro _ ⟨⟩
  · rintro s call _ hs ⟨hcall, rfl⟩
    exact hs.run hcall

theorem subscription_reload (h : Timely s) (tenantId : String) (version : ℕ) :
    SubscriptionMapper.reload tenantId version s = .ok { s with version := version } := by
  have hschedule : optional SubscriptionMapper.scheduleToDomain
      ((s.renewalSchedule.map SubscriptionMapper.scheduleToRow).map RenewalScheduleColumn.json) =
        .ok s.renewalSchedule := by
    apply optional_ok
    intro schedule hgiven
    have hdate := newDate_json (h.schedule schedule hgiven)
    simp only [SubscriptionMapper.scheduleToDomain, SubscriptionMapper.scheduleToRow,
      RenewalScheduleColumn.json, hdate, ok_bind]
    rfl
  have hpolicy : optional SubscriptionMapper.policyToDomain
      ((s.retryPolicy.map SubscriptionMapper.policyToRow).map RetryPolicyColumn.json) =
        .ok s.retryPolicy := by
    apply optional_ok
    intro policy hgiven
    have hdate := optional_json (h.policy policy hgiven)
    simp only [SubscriptionMapper.policyToDomain, SubscriptionMapper.policyToRow,
      RetryPolicyColumn.json, hdate, ok_bind]
    rfl
  have hpaused := optionalDate_toISOString h.paused
  simp only [SubscriptionMapper.reload, SubscriptionMapper.toDomain, SubscriptionMapper.toRow,
    SubscriptionRow.stored, entityId_of_notEmpty h.entity, hschedule, hpolicy, hpaused, ok_bind]
  rfl

end LicensingStorage
