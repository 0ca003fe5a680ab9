import Lumo.LabelledRuns
import Lumo.LicensingBilling

/-! # Plans and their versions

The plan aggregate with its append-only version history, and how a pinned reference finds its
version. A history is the plan with every plan it has been. Events are not modelled. -/
namespace Licensing

open SharedKernel Builtins LabelledRuns

inductive PlanVersionStatus where
  | draft
  | scheduled
  | published
  | archived
  deriving DecidableEq

namespace PlanVersionStatus

def text : PlanVersionStatus → String
  | draft => "draft"
  | scheduled => "scheduled"
  | published => "published"
  | archived => "archived"

def transitions : PlanVersionStatus → List PlanVersionStatus
  | draft => [scheduled, published, archived]
  | scheduled => [published, draft, archived]
  | published => [archived]
  | archived => []

end PlanVersionStatus

structure PlanLimits where
  maxProducts : Option ℚ
  maxOrders : Option ℚ
  maxStaff : Option ℚ
  maxAiCredits : Option ℚ
  maxIntegrations : Option ℚ
  maxWorkflows : Option ℚ
  maxExperiments : Option ℚ

inductive BillingCycle where
  | monthly
  | annual

structure PlanPricing where
  basePriceMinor : ℚ
  currency : String
  billingCycle : BillingCycle
  trialDays : Option ℚ
  creditAllowances : List (String × ℚ)

structure PlanSpec where
  limits : PlanLimits
  featureEntitlements : List String
  pricing : PlanPricing

inductive PlanError where
  | price (basePriceMinor : ℚ)
  | domain (e : DomainError)

structure PlanVersion where
  id : String
  spec : PlanSpec
  status : PlanVersionStatus
  scheduledPublishAt : Option ℚ

namespace PlanVersion

def assertPricing (spec : PlanSpec) : Except PlanError Unit := do
  let price := spec.pricing.basePriceMinor
  if ¬ (isInteger price = true ∧ 0 ≤ price ∧ price ≤ 9007199254740991) then
    throw (.price price)
  if ¬ isValidCurrencyCode spec.pricing.currency then
    throw (.domain (.businessRule
      ("Plan pricing currency \"" ++ spec.pricing.currency ++ "\" is not an ISO-4217 code")))

def createDraft (id : String) (spec : PlanSpec) : Except PlanError PlanVersion := do
  assertPricing spec
  return ⟨id, spec, .draft, none⟩

/-- The table is asked first, and a published version is then refused whatever it says. -/
def transition (toStatus : PlanVersionStatus) (v : PlanVersion) : Except DomainError PlanVersion :=
  if ¬ v.status.transitions.contains toStatus then
    .error (.businessRule
      ("Cannot transition plan version from " ++ v.status.text ++ " to " ++ toStatus.text))
  else if v.status = .published then
    .error (.businessRule "A published plan version is immutable")
  else .ok { v with status := toStatus }

def schedule (publishAt : ℚ) (v : PlanVersion) : Except DomainError PlanVersion := do
  let v ← v.transition .scheduled
  return { v with scheduledPublishAt := some publishAt }

def publish (v : PlanVersion) : Except DomainError PlanVersion := v.transition .published

def archive (v : PlanVersion) : Except DomainError PlanVersion := v.transition .archived

theorem createDraft_ok {id : String} {spec : PlanSpec} {v : PlanVersion}
    (h : createDraft id spec = .ok v) : v = ⟨id, spec, .draft, none⟩ := by
  cases hp : assertPricing spec with
  | error e => simp [createDraft, hp] at h
  | ok _ =>
    simp only [createDraft, hp, ok_bind, pure, Except.pure, Except.ok.injEq] at h
    exact h.symm

variable {toStatus : PlanVersionStatus}

theorem transition_ok {v w : PlanVersion} (h : v.transition toStatus = .ok w) :
    toStatus ∈ v.status.transitions ∧ v.status ≠ .published ∧ w = { v with status := toStatus } := by
  rw [transition] at h
  split at h
  · cases h
  · rename_i hto
    split at h
    · cases h
    · rename_i hstatus
      cases h
      exact ⟨List.contains_iff_mem.mp (not_not.mp hto), hstatus, rfl⟩

theorem transition_accepted {v : PlanVersion} (hto : toStatus ∈ v.status.transitions)
    (hstatus : v.status ≠ .published) :
    v.transition toStatus = .ok { v with status := toStatus } := by
  rw [transition, if_neg (by simpa using hto), if_neg hstatus]

end PlanVersion

/-- The characters that `.` does not match. -/
def isLineTerminator (c : Char) : Bool :=
  c == '\n' || c == '\r' || c == '\u2028' || c == '\u2029'

/-- `^(.+)-v(\d+)$`, read from the end: the digits, then `-v`, then the plan's id. -/
def planIdOfVersionRef (planVersionRef : String) : Option String :=
  let back := planVersionRef.toList.reverse
  match back.takeWhile Char.isDigit, back.dropWhile Char.isDigit with
  | _ :: _, 'v' :: '-' :: c :: rest =>
    if (c :: rest).all fun d => !isLineTerminator d then some (String.ofList (c :: rest).reverse)
    else none
  | _, _ => none

def versionRef (planId : String) (n : ℕ) : String := planId ++ "-v" ++ toString n

inductive PlanTier where
  | free
  | starter
  | growth
  | pro
  | enterprise
  | custom

structure Plan where
  id : UniqueEntityId
  key : String
  name : String
  tier : PlanTier
  versions : List PlanVersion
  publishedVersionId : Option String

def changeVersion (versionId : String) (change : PlanVersion → Except DomainError PlanVersion) :
    List PlanVersion → Except DomainError (List PlanVersion)
  | [] => .error (.notFound ("Plan version " ++ versionId ++ " not found"))
  | v :: rest =>
    if v.id = versionId then (change v).map fun w => w :: rest
    else (changeVersion versionId change rest).map fun ws => v :: ws

variable {versionId : String} {change : PlanVersion → Except DomainError PlanVersion}

theorem changeVersion_at {before after : List PlanVersion} {v : PlanVersion}
    (hbefore : ∀ x ∈ before, x.id ≠ versionId) (hv : v.id = versionId) :
    changeVersion versionId change (before ++ v :: after) =
      (change v).map fun w => before ++ w :: after := by
  induction before with
  | nil => simp [changeVersion, hv]
  | cons x before ih =>
    have hx : x.id ≠ versionId := hbefore x List.mem_cons_self
    have hrest : ∀ y ∈ before, y.id ≠ versionId := fun y hy => hbefore y (List.mem_cons_of_mem _ hy)
    rw [List.cons_append, changeVersion, if_neg hx, ih hrest]
    cases change v <;> rfl

theorem changeVersion_ok {vs ws : List PlanVersion}
    (h : changeVersion versionId change vs = .ok ws) :
    ∃ before v w after, vs = before ++ v :: after ∧ v.id = versionId ∧ change v = .ok w ∧
      ws = before ++ w :: after := by
  induction vs generalizing ws with
  | nil => cases h
  | cons x vs ih =>
    rw [changeVersion] at h
    by_cases hx : x.id = versionId
    · rw [if_pos hx] at h
      obtain ⟨w, hw, rfl⟩ := map_eq_ok.mp h
      exact ⟨[], x, w, vs, rfl, hx, hw, rfl⟩
    · rw [if_neg hx] at h
      obtain ⟨ws', hws, rfl⟩ := map_eq_ok.mp h
      obtain ⟨before, v, w, after, rfl, hv, hw, rfl⟩ := ih hws
      exact ⟨x :: before, v, w, after, rfl, hv, hw, rfl⟩

namespace Plan

def create (id : UniqueEntityId) (key name : String) (tier : PlanTier) : Plan where
  id := id
  key := key
  name := name
  tier := tier
  versions := []
  publishedVersionId := none

def versionById (versionId : String) (plan : Plan) : Option PlanVersion :=
  plan.versions.find? fun v => v.id == versionId

def findVersion (versionId : String) (plan : Plan) : Except DomainError PlanVersion :=
  match plan.versionById versionId with
  | none => .error (.notFound ("Plan version " ++ versionId ++ " not found"))
  | some v => .ok v

def createDraft (spec : PlanSpec) (plan : Plan) : Except PlanError Plan := do
  let draft ← PlanVersion.createDraft (versionRef plan.id.value (plan.versions.length + 1)) spec
  return { plan with versions := plan.versions ++ [draft] }

def clone (fromVersionId : String) (plan : Plan) : Except PlanError Plan := do
  let source ← (plan.findVersion fromVersionId).mapError PlanError.domain
  plan.createDraft source.spec

def schedule (versionId : String) (publishAt : ℚ) (plan : Plan) : Except DomainError Plan := do
  let versions ← changeVersion versionId (PlanVersion.schedule publishAt) plan.versions
  return { plan with versions := versions }

def publish (versionId : String) (plan : Plan) : Except DomainError Plan := do
  let versions ← changeVersion versionId PlanVersion.publish plan.versions
  return { plan with versions := versions, publishedVersionId := some versionId }

def rollback (toVersionId : String) (plan : Plan) : Except DomainError Plan := do
  let target ← plan.findVersion toVersionId
  if target.status ≠ .published ∧ target.status ≠ .archived then
    throw (.businessRule "Can only roll back to a version that was published")
  return { plan with publishedVersionId := some toVersionId }

def archive (versionId : String) (plan : Plan) : Except DomainError Plan := do
  let versions ← changeVersion versionId PlanVersion.archive plan.versions
  return { plan with versions := versions }

end Plan

def findPinnedVersion (findById : String → Option Plan) (planVersionRef : String) :
    Option PlanVersion := do
  let planId ← planIdOfVersionRef planVersionRef
  let plan ← findById planId
  plan.versionById planVersionRef

inductive PlanCall where
  | createDraft (spec : PlanSpec)
  | clone (fromVersionId : String)
  | schedule (versionId : String) (publishAt : ℚ)
  | publish (versionId : String)
  | rollback (toVersionId : String)
  | archive (versionId : String)

def PlanCall.run : PlanCall → Plan → Except PlanError Plan
  | createDraft spec, plan => plan.createDraft spec
  | clone fromVersionId, plan => plan.clone fromVersionId
  | schedule versionId publishAt, plan => (plan.schedule versionId publishAt).mapError .domain
  | publish versionId, plan => (plan.publish versionId).mapError .domain
  | rollback toVersionId, plan => (plan.rollback toVersionId).mapError .domain
  | archive versionId, plan => (plan.archive versionId).mapError .domain

/-- A plan and the plans it has been, the latest first. -/
structure PlanHistory where
  plan : Plan
  past : List Plan

/-- A failing call leaves the plan as it was. -/
def PlanHistory.next (h : PlanHistory) (c : PlanCall) : PlanHistory :=
  match c.run h.plan with
  | .ok plan => ⟨plan, h.plan :: h.past⟩
  | .error _ => ⟨h.plan, h.plan :: h.past⟩

def PlanHistory.Step (h : PlanHistory) (c : PlanCall) (u : PlanHistory) : Prop := h.next c = u

end Licensing

/-! ## The history of a plan

Version ids are distinct and keep their order, no spec changes, and a pinned reference finds its
version. The pointer names a version that was published unless a rollback asks for an archived
one, and the table is followed unless a published version is to be archived. -/
namespace Licensing

open SharedKernel Builtins LabelledRuns

def Plan.entries (plan : Plan) : List (String × PlanSpec) :=
  plan.versions.map fun v => (v.id, v.spec)

/-- Which version a call moves along the table, and to which status. -/
def PlanCall.move : PlanCall → Option (String × PlanVersionStatus)
  | schedule versionId _ => some (versionId, .scheduled)
  | publish versionId => some (versionId, .published)
  | archive versionId => some (versionId, .archived)
  | _ => none

/-- A call that moves a version succeeds exactly on the edges of the table. -/
def OnEdges (h : PlanHistory) (c : PlanCall) : Prop :=
  ∀ versionId toStatus, c.move = some (versionId, toStatus) →
    ((∃ plan, c.run h.plan = .ok plan) ↔
      ∃ v ∈ h.plan.versions, v.id = versionId ∧ toStatus ∈ v.status.transitions)

def PlanHistory.EverPublished (h : PlanHistory) (versionId : String) : Prop :=
  ∃ plan ∈ h.plan :: h.past, ∃ v ∈ plan.versions, v.id = versionId ∧ v.status = .published

/-- The history is append-only and its pointer is honest. -/
structure PlanHistory.Honest (h : PlanHistory) : Prop where
  distinct : (h.plan.versions.map PlanVersion.id).Nodup
  append_only : ∀ plan ∈ h.past, plan.entries <+: h.plan.entries
  pointer : ∀ versionId, h.plan.publishedVersionId = some versionId → h.EverPublished versionId
  pinned : ∀ findById : String → Option Plan, findById h.plan.id.value = some h.plan →
    ∀ plan ∈ h.plan :: h.past, ∀ v ∈ plan.versions,
      ∃ w, findPinnedVersion findById v.id = some w ∧ w.id = v.id ∧ w.spec = v.spec

def OneLine (planId : String) : Prop := ∀ c ∈ planId.toList, isLineTerminator c = false

/-- What the calls must not ask: that a published version be archived, that the plan go back to
an archived version, or that a plan whose id breaks a line get a version. -/
def Allowed (h : PlanHistory) : PlanCall → Prop
  | .archive versionId => ∀ v ∈ h.plan.versions, v.id = versionId → v.status ≠ .published
  | .rollback versionId => ∀ v ∈ h.plan.versions, v.id = versionId → v.status ≠ .archived
  | .createDraft spec => PlanVersion.assertPricing spec = .ok () → OneLine h.plan.id.value
  | _ => True

theorem toList_versionRef (planId : String) (n : ℕ) :
    (versionRef planId n).toList = planId.toList ++ '-' :: 'v' :: Nat.toDigits 10 n := by
  simp [versionRef]

variable {planId versionId : String} {plan : Plan} {c : PlanCall} {h : PlanHistory}

/-- Reading from the end stops before the plan's id. -/
theorem planIdOfVersionRef_versionRef (hne : planId.toList ≠ []) (n : ℕ) :
    planIdOfVersionRef (versionRef planId n) =
      if planId.toList.all fun d => !isLineTerminator d then some planId else none := by
  have hdigits : ∀ c ∈ (Nat.toDigits 10 n).reverse, c.isDigit = true := fun c hc =>
    Nat.isDigit_of_mem_toDigits (by omega) (by omega) (List.mem_reverse.mp hc)
  obtain ⟨d, ds, hds⟩ := List.exists_cons_of_ne_nil
    (List.reverse_ne_nil_iff.mpr (Nat.toDigits_ne_nil (n := n) (b := 10)))
  obtain ⟨c, rest, hrest⟩ := List.exists_cons_of_ne_nil
    (show planId.toList.reverse ≠ [] from List.reverse_ne_nil_iff.mpr hne)
  have hback : (versionRef planId n).toList.reverse =
      (d :: ds) ++ 'v' :: '-' :: (c :: rest) := by
    rw [toList_versionRef, ← hds, ← hrest]
    simp
  have hall : ∀ x ∈ d :: ds, x.isDigit = true := hds ▸ hdigits
  have htake : ((d :: ds) ++ 'v' :: '-' :: (c :: rest)).takeWhile Char.isDigit = d :: ds := by
    rw [List.takeWhile_append_of_pos hall]
    simp
  have hdrop : ((d :: ds) ++ 'v' :: '-' :: (c :: rest)).dropWhile Char.isDigit =
      'v' :: '-' :: (c :: rest) := by
    rw [List.dropWhile_append_of_pos hall]
    simp
  have hid : (c :: rest).reverse = planId.toList := by
    rw [← hrest, List.reverse_reverse]
  have hshape : planIdOfVersionRef (versionRef planId n) =
      if (c :: rest).all fun d => !isLineTerminator d then some (String.ofList (c :: rest).reverse)
      else none := by
    rw [planIdOfVersionRef, hback, htake, hdrop]
    rfl
  rw [hshape, hid, String.ofList_toList, ← List.all_reverse, hid]

theorem planIdOfVersionRef_oneLine (hne : planId.toList ≠ []) (hline : OneLine planId) (n : ℕ) :
    planIdOfVersionRef (versionRef planId n) = some planId := by
  rw [planIdOfVersionRef_versionRef hne, if_pos]
  exact List.all_eq_true.mpr fun c hc => by simp [hline c hc]

theorem planIdOfVersionRef_broken (hne : planId.toList ≠ []) (hline : ¬ OneLine planId) (n : ℕ) :
    planIdOfVersionRef (versionRef planId n) = none := by
  rw [planIdOfVersionRef_versionRef hne, if_neg]
  intro hall
  apply hline
  intro c hc
  have hc := List.all_eq_true.mp hall c hc
  simpa using hc

theorem versionRef_injective {m n : ℕ} (h : versionRef planId m = versionRef planId n) : m = n := by
  have hl : (versionRef planId m).toList = (versionRef planId n).toList := congrArg String.toList h
  rw [toList_versionRef, toList_versionRef] at hl
  have hdigits := List.append_cancel_left hl
  simp only [List.cons.injEq, true_and] at hdigits
  have hread := congrArg (fun l => Nat.ofDigitChars 10 l 0) hdigits
  simpa only [Nat.ofDigitChars_ten_toDigits] using hread

inductive Changed (plan : Plan) : PlanCall → Plan → Prop where
  | drafted {c spec} : PlanVersion.assertPricing spec = .ok () →
      c = .createDraft spec ∨ plan.versions ≠ [] → c.move = none →
      Changed plan c { plan with
        versions := plan.versions ++ [⟨versionRef plan.id.value (plan.versions.length + 1), spec,
          .draft, none⟩] }
  | moved {c versionId toStatus before v after t} :
      c.move = some (versionId, toStatus) → plan.versions = before ++ v :: after →
      v.id = versionId → toStatus ∈ v.status.transitions → v.status ≠ .published →
      Changed plan c { plan with
        versions := before ++ { v with status := toStatus, scheduledPublishAt := t } :: after
        publishedVersionId :=
          if toStatus = .published then some versionId else plan.publishedVersionId }
  | repointed {versionId v} : v ∈ plan.versions → v.id = versionId →
      v.status = .published ∨ v.status = .archived →
      Changed plan (.rollback versionId) { plan with publishedVersionId := some versionId }

variable {u : Plan}

theorem createDraft_ok {spec : PlanSpec} (h : plan.createDraft spec = .ok u) :
    PlanVersion.assertPricing spec = .ok () ∧ u = { plan with
      versions := plan.versions ++ [⟨versionRef plan.id.value (plan.versions.length + 1), spec,
        .draft, none⟩] } := by
  rw [Plan.createDraft] at h
  obtain ⟨draft, hdraft, h⟩ := bind_eq_ok.mp h
  simp only [pure, Except.pure, Except.ok.injEq] at h
  subst h
  refine ⟨?_, by rw [PlanVersion.createDraft_ok hdraft]⟩
  rw [PlanVersion.createDraft] at hdraft
  obtain ⟨_, hpriced, _⟩ := bind_eq_ok.mp hdraft
  exact hpriced

theorem findVersion_ok {v : PlanVersion} (h : plan.findVersion versionId = .ok v) :
    v ∈ plan.versions ∧ v.id = versionId := by
  rw [Plan.findVersion] at h
  split at h
  · cases h
  · rename_i w hw
    cases h
    exact ⟨List.mem_of_find?_eq_some hw, by simpa using List.find?_some hw⟩

theorem run_ok (h : c.run plan = .ok u) : Changed plan c u := by
  cases c with
  | createDraft spec =>
    obtain ⟨hpriced, rfl⟩ := createDraft_ok h
    exact .drafted hpriced (Or.inl rfl) rfl
  | clone fromVersionId =>
    rw [PlanCall.run, Plan.clone] at h
    obtain ⟨source, hsource, h⟩ := bind_eq_ok.mp h
    obtain ⟨hmem, -⟩ := findVersion_ok (mapError_ok.mp hsource)
    obtain ⟨hpriced, rfl⟩ := createDraft_ok h
    exact .drafted hpriced (Or.inr (List.ne_nil_of_mem hmem)) rfl
  | schedule versionId publishAt =>
    rw [PlanCall.run, mapError_ok, Plan.schedule] at h
    obtain ⟨ws, hws, h⟩ := bind_eq_ok.mp h
    simp only [pure, Except.pure, Except.ok.injEq] at h
    subst h
    obtain ⟨before, v, w, after, hvs, hv, hw, rfl⟩ := changeVersion_ok hws
    rw [PlanVersion.schedule] at hw
    obtain ⟨x, hx, hw⟩ := bind_eq_ok.mp hw
    simp only [pure, Except.pure, Except.ok.injEq] at hw
    obtain ⟨hto, hstatus, rfl⟩ := PlanVersion.transition_ok hx
    subst hw
    exact .moved (v := v) (t := some publishAt) rfl hvs hv hto hstatus
  | publish versionId =>
    rw [PlanCall.run, mapError_ok, Plan.publish] at h
    obtain ⟨ws, hws, h⟩ := bind_eq_ok.mp h
    simp only [pure, Except.pure, Except.ok.injEq] at h
    subst h
    obtain ⟨before, v, w, after, hvs, hv, hw, rfl⟩ := changeVersion_ok hws
    obtain ⟨hto, hstatus, rfl⟩ := PlanVersion.transition_ok hw
    exact .moved (v := v) (t := v.scheduledPublishAt) rfl hvs hv hto hstatus
  | rollback toVersionId =>
    rw [PlanCall.run, mapError_ok, Plan.rollback] at h
    obtain ⟨v, hv, h⟩ := bind_eq_ok.mp h
    obtain ⟨hmem, hid⟩ := findVersion_ok hv
    by_cases hstatus : v.status ≠ .published ∧ v.status ≠ .archived
    · rw [if_pos hstatus] at h
      cases h
    · rw [if_neg hstatus] at h
      cases h
      exact .repointed hmem hid (by tauto)
  | archive versionId =>
    rw [PlanCall.run, mapError_ok, Plan.archive] at h
    obtain ⟨ws, hws, h⟩ := bind_eq_ok.mp h
    simp only [pure, Except.pure, Except.ok.injEq] at h
    subst h
    obtain ⟨before, v, w, after, hvs, hv, hw, rfl⟩ := changeVersion_ok hws
    obtain ⟨hto, hstatus, rfl⟩ := PlanVersion.transition_ok hw
    exact .moved (v := v) (t := v.scheduledPublishAt) rfl hvs hv hto hstatus

structure PlanHistory.Kept (h : PlanHistory) : Prop where
  ids : h.plan.versions.map PlanVersion.id =
    (List.range h.plan.versions.length).map fun n => versionRef h.plan.id.value (n + 1)
  append_only : ∀ plan ∈ h.past, plan.entries <+: h.plan.entries
  pointer : ∀ versionId, h.plan.publishedVersionId = some versionId → h.EverPublished versionId
  published_stays : ∀ plan ∈ h.past, ∀ v ∈ plan.versions, v.status = .published →
    ∃ w ∈ h.plan.versions, w.id = v.id ∧ w.status = .published
  oneLine : h.plan.versions ≠ [] → OneLine h.plan.id.value

theorem planId_ne_nil (plan : Plan) : plan.id.value.toList ≠ [] := by
  intro hnil
  have hblank : isBlank plan.id.value = true := by simp [isBlank, hnil]
  rw [plan.id.notEmpty] at hblank
  cases hblank

theorem PlanHistory.Kept.distinct (hk : h.Kept) : (h.plan.versions.map PlanVersion.id).Nodup := by
  rw [hk.ids]
  apply List.Nodup.map _ List.nodup_range
  intro m n hmn
  have := versionRef_injective hmn
  omega

theorem PlanHistory.Kept.eq_of_id (hk : h.Kept) {v w : PlanVersion} (hv : v ∈ h.plan.versions)
    (hw : w ∈ h.plan.versions) (hid : v.id = w.id) : v = w :=
  List.inj_on_of_nodup_map hk.distinct hv hw hid

theorem PlanHistory.Kept.everPublished (hk : h.Kept) (he : h.EverPublished versionId) :
    ∃ v ∈ h.plan.versions, v.id = versionId ∧ v.status = .published := by
  obtain ⟨plan, hplan, v, hv, rfl, hstatus⟩ := he
  rcases List.mem_cons.mp hplan with rfl | hpast
  · exact ⟨v, hv, rfl, hstatus⟩
  · exact hk.published_stays plan hpast v hv hstatus

theorem versionById_of_mem (hk : h.Kept) {v : PlanVersion} (hv : v ∈ h.plan.versions) :
    h.plan.versionById v.id = some v := by
  cases hfind : h.plan.versionById v.id with
  | none =>
    have hnone := List.find?_eq_none.mp hfind v hv
    simp at hnone
  | some w =>
    have hid : w.id = v.id := by simpa using List.find?_some hfind
    rw [hk.eq_of_id (List.mem_of_find?_eq_some hfind) hv hid]

theorem PlanHistory.Kept.id_eq (hk : h.Kept) {v : PlanVersion} (hv : v ∈ h.plan.versions) :
    ∃ n, v.id = versionRef h.plan.id.value n := by
  have hmem : v.id ∈ h.plan.versions.map PlanVersion.id := List.mem_map_of_mem hv
  rw [hk.ids] at hmem
  obtain ⟨n, -, hn⟩ := List.mem_map.mp hmem
  exact ⟨n + 1, hn.symm⟩

theorem findPinnedVersion_of_mem (hk : h.Kept) {findById : String → Option Plan}
    (hfind : findById h.plan.id.value = some h.plan) {v : PlanVersion} (hv : v ∈ h.plan.versions) :
    findPinnedVersion findById v.id = some v := by
  obtain ⟨n, hn⟩ := hk.id_eq hv
  have hline := hk.oneLine (List.ne_nil_of_mem hv)
  have hplan : planIdOfVersionRef v.id = some h.plan.id.value := by
    rw [hn]
    exact planIdOfVersionRef_oneLine (planId_ne_nil _) hline n
  simp [findPinnedVersion, hplan, hfind, versionById_of_mem hk hv]

theorem PlanHistory.Kept.survives (hk : h.Kept) (hplan : plan ∈ h.plan :: h.past) {v : PlanVersion}
    (hv : v ∈ plan.versions) : ∃ w ∈ h.plan.versions, w.id = v.id ∧ w.spec = v.spec := by
  rcases List.mem_cons.mp hplan with rfl | hpast
  · exact ⟨v, hv, rfl, rfl⟩
  · have hentry : (v.id, v.spec) ∈ h.plan.entries :=
      (hk.append_only plan hpast).subset (List.mem_map_of_mem hv)
    obtain ⟨w, hw, hws⟩ := List.mem_map.mp hentry
    simp only [Prod.mk.injEq] at hws
    exact ⟨w, hw, hws.1, hws.2⟩

theorem PlanHistory.Kept.honest (hk : h.Kept) : h.Honest where
  distinct := hk.distinct
  append_only := hk.append_only
  pointer := hk.pointer
  pinned findById hfind plan hplan v hv := by
    obtain ⟨w, hw, hid, hspec⟩ := hk.survives hplan hv
    refine ⟨w, ?_, hid, hspec⟩
    rw [← hid]
    exact findPinnedVersion_of_mem hk hfind hw

theorem create_kept (id : UniqueEntityId) (key name : String) (tier : PlanTier) :
    PlanHistory.Kept ⟨Plan.create id key name tier, []⟩ where
  ids := rfl
  append_only plan hplan := absurd hplan List.not_mem_nil
  pointer versionId hid := by cases hid
  published_stays plan hplan := absurd hplan List.not_mem_nil
  oneLine hne := absurd rfl hne

theorem PlanHistory.EverPublished.later (plan : Plan) (he : h.EverPublished versionId) :
    PlanHistory.EverPublished ⟨plan, h.plan :: h.past⟩ versionId := by
  obtain ⟨p, hp, hv⟩ := he
  exact ⟨p, List.mem_cons_of_mem _ hp, hv⟩

theorem PlanHistory.Kept.later (hk : h.Kept) (hids : plan.versions.map PlanVersion.id =
      (List.range plan.versions.length).map fun n => versionRef plan.id.value (n + 1))
    (hentries : h.plan.entries <+: plan.entries)
    (hpointer : ∀ versionId, plan.publishedVersionId = some versionId →
      PlanHistory.EverPublished ⟨plan, h.plan :: h.past⟩ versionId)
    (hstays : ∀ v ∈ h.plan.versions, v.status = .published →
      ∃ w ∈ plan.versions, w.id = v.id ∧ w.status = .published)
    (hline : plan.versions ≠ [] → OneLine plan.id.value) :
    PlanHistory.Kept ⟨plan, h.plan :: h.past⟩ where
  ids := hids
  append_only p hp := by
    rcases List.mem_cons.mp hp with rfl | hpast
    · exact hentries
    · exact (hk.append_only p hpast).trans hentries
  pointer := hpointer
  published_stays p hp v hv hstatus := by
    rcases List.mem_cons.mp hp with rfl | hpast
    · exact hstays v hv hstatus
    · obtain ⟨w, hw, hid, hwstatus⟩ := hk.published_stays p hpast v hv hstatus
      obtain ⟨x, hx, hxid, hxstatus⟩ := hstays w hw hwstatus
      exact ⟨x, hx, hxid.trans hid, hxstatus⟩
  oneLine := hline

theorem kept_failed (hk : h.Kept) : PlanHistory.Kept ⟨h.plan, h.plan :: h.past⟩ :=
  hk.later hk.ids (List.prefix_refl _) (fun _ hid => (hk.pointer _ hid).later _)
    (fun v hv hstatus => ⟨v, hv, rfl, hstatus⟩) hk.oneLine

theorem kept_changed (hk : h.Kept) (hc : Changed h.plan c plan) (ha : Allowed h c) :
    PlanHistory.Kept ⟨plan, h.plan :: h.past⟩ := by
  cases hc with
  | @drafted _ spec hpriced hasked _ =>
    have hline : OneLine h.plan.id.value := by
      rcases hasked with rfl | hne
      · exact ha hpriced
      · exact hk.oneLine hne
    apply hk.later
    · simp [hk.ids, List.range_succ]
    · simp only [Plan.entries, List.map_append]
      exact List.prefix_append _ _
    · exact fun _ hid => (hk.pointer _ hid).later _
    · exact fun v hv hstatus => ⟨v, List.mem_append_left _ hv, rfl, hstatus⟩
    · exact fun _ => hline
  | @moved _ versionId toStatus before v after t hmove hvs hv hto hstatus =>
    have hids : (before ++ { v with status := toStatus, scheduledPublishAt := t } :: after).map
        PlanVersion.id = h.plan.versions.map PlanVersion.id := by
      simp [hvs]
    apply hk.later
    · rw [hids, hk.ids, hvs]
      simp
    · simp only [Plan.entries, hvs, List.map_append, List.map_cons]
      exact List.prefix_refl _
    · intro id hid
      dsimp only at hid
      by_cases hpublished : toStatus = .published
      · rw [if_pos hpublished] at hid
        cases hid
        exact ⟨_, List.mem_cons_self, { v with status := toStatus, scheduledPublishAt := t },
          by simp, hv, hpublished⟩
      · rw [if_neg hpublished] at hid
        exact (hk.pointer id hid).later _
    · intro w hw hwstatus
      refine ⟨w, ?_, rfl, hwstatus⟩
      rw [hvs] at hw
      rcases List.mem_append.mp hw with hw | hw
      · exact List.mem_append_left _ hw
      · rcases List.mem_cons.mp hw with rfl | hw
        · exact absurd hwstatus hstatus
        · exact List.mem_append_right _ (List.mem_cons_of_mem _ hw)
    · intro _
      apply hk.oneLine
      simp [hvs]
  | @repointed versionId v hv hid hstatus =>
    apply PlanHistory.Kept.later hk
    · exact hk.ids
    · exact List.prefix_refl _
    · intro id hsome
      cases hsome
      have hpublished : v.status = .published := by
        rcases hstatus with hp | harchived
        · exact hp
        · exact absurd harchived (ha v hv hid)
      exact ⟨h.plan, by simp, v, hv, hid, hpublished⟩
    · exact fun w hw hwstatus => ⟨w, hw, rfl, hwstatus⟩
    · exact hk.oneLine

theorem kept_step (h : PlanHistory) (c : PlanCall) (u : PlanHistory) (hk : h.Kept)
    (hst : h.Step c u) (ha : Allowed h c) : u.Kept := by
  rw [PlanHistory.Step, PlanHistory.next] at hst
  cases hrun : c.run h.plan with
  | error e =>
    rw [hrun] at hst
    subst hst
    exact kept_failed hk
  | ok plan =>
    rw [hrun] at hst
    subst hst
    exact kept_changed hk (run_ok hrun) ha

theorem exists_split (hk : h.Kept) {v : PlanVersion} (hv : v ∈ h.plan.versions) :
    ∃ before after, h.plan.versions = before ++ v :: after ∧
      ∀ x ∈ before, x.id ≠ v.id := by
  obtain ⟨before, after, hvs⟩ := List.append_of_mem hv
  refine ⟨before, after, hvs, fun x hx hid => ?_⟩
  have hnodup := hk.distinct
  rw [hvs, List.map_append, List.nodup_append] at hnodup
  exact hnodup.2.2 x.id (List.mem_map_of_mem hx) v.id (by simp) hid

theorem accepted_iff {toStatus : PlanVersionStatus} (hk : h.Kept)
    (hmove : c.move = some (versionId, toStatus)) :
    (∃ plan, c.run h.plan = .ok plan) ↔ ∃ v ∈ h.plan.versions, v.id = versionId ∧
      toStatus ∈ v.status.transitions ∧ v.status ≠ .published := by
  constructor
  · rintro ⟨plan, hrun⟩
    cases run_ok hrun with
    | drafted _ _ hnone =>
      rw [hnone] at hmove
      cases hmove
    | moved hmove' hvs hv hto hstatus =>
      rw [hmove'] at hmove
      cases hmove
      exact ⟨_, by simp [hvs], hv, hto, hstatus⟩
    | repointed => cases hmove
  · rintro ⟨v, hv, hid, hto, hstatus⟩
    obtain ⟨before, after, hvs, hbefore⟩ := exists_split hk hv
    rw [hid] at hbefore
    have hmoved := PlanVersion.transition_accepted hto hstatus
    cases c with
    | createDraft | clone | rollback => cases hmove
    | schedule id publishAt =>
      cases hmove
      simp [PlanCall.run, Plan.schedule, hvs, changeVersion_at hbefore hid, PlanVersion.schedule,
        hmoved, Except.map, pure, Except.pure, Except.mapError]
    | publish id =>
      cases hmove
      simp [PlanCall.run, Plan.publish, hvs, changeVersion_at hbefore hid, PlanVersion.publish,
        hmoved, Except.map, pure, Except.pure, Except.mapError]
    | archive id =>
      cases hmove
      simp [PlanCall.run, Plan.archive, hvs, changeVersion_at hbefore hid, PlanVersion.archive,
        hmoved, Except.map, pure, Except.pure, Except.mapError]

theorem onEdges_of_allowed (h : PlanHistory) (c : PlanCall) (hk : h.Kept) (ha : Allowed h c) :
    OnEdges h c := by
  intro versionId toStatus hmove
  rw [accepted_iff hk hmove]
  constructor
  · rintro ⟨v, hv, hid, hto, -⟩
    exact ⟨v, hv, hid, hto⟩
  · rintro ⟨v, hv, hid, hto⟩
    refine ⟨v, hv, hid, hto, fun hstatus => ?_⟩
    rw [hstatus] at hto
    -- the table's only edge out of a published version is to archive it
    have harchived : toStatus = .archived := by simpa [PlanVersionStatus.transitions] using hto
    subst harchived
    cases c with
    | archive id =>
      cases hmove
      exact ha v hv hid hstatus
    | _ => cases hmove

/-- A call that is not allowed leaves the table, or leaves a history that is not honest. -/
theorem broken_step (h : PlanHistory) (c : PlanCall) (u : PlanHistory) (hk : h.Kept)
    (hst : h.Step c u) (ha : ¬ Allowed h c) (hedges : OnEdges h c) : ¬ u.Honest := by
  cases c with
  | archive versionId =>
    exfalso
    simp only [Allowed, not_forall, not_not] at ha
    obtain ⟨v, hv, hid, hstatus⟩ := ha
    have hedge := (hedges versionId .archived rfl).mpr
      ⟨v, hv, hid, by simp [hstatus, PlanVersionStatus.transitions]⟩
    obtain ⟨w, hw, hwid, -, hwstatus⟩ := (accepted_iff hk rfl).mp hedge
    rw [hk.eq_of_id hw hv (hwid.trans hid.symm)] at hwstatus
    exact hwstatus hstatus
  | rollback versionId =>
    simp only [Allowed, not_forall, not_not] at ha
    obtain ⟨v, hv, hid, hstatus⟩ := ha
    intro hhonest
    have hfound : h.plan.findVersion versionId = .ok v := by
      rw [Plan.findVersion, ← hid, versionById_of_mem hk hv]
    have hrun : (PlanCall.rollback versionId).run h.plan =
        .ok { h.plan with publishedVersionId := some versionId } := by
      simp [PlanCall.run, Plan.rollback, hfound, hstatus, pure, Except.pure, Except.mapError]
    rw [PlanHistory.Step, PlanHistory.next, hrun] at hst
    subst hst
    -- the plan that the call left has the versions of the plan it found
    obtain ⟨p, hp, w, hw, hwid, hwstatus⟩ := hhonest.pointer versionId rfl
    have hever : h.EverPublished versionId := by
      rcases List.mem_cons.mp hp with rfl | hp
      · exact ⟨h.plan, List.mem_cons_self, w, hw, hwid, hwstatus⟩
      · exact ⟨p, hp, w, hw, hwid, hwstatus⟩
    obtain ⟨x, hx, hxid, hxstatus⟩ := hk.everPublished hever
    rw [hk.eq_of_id hx hv (hxid.trans hid.symm), hstatus] at hxstatus
    cases hxstatus
  | createDraft spec =>
    simp only [Allowed, Classical.not_imp] at ha
    obtain ⟨hpriced, hline⟩ := ha
    intro hhonest
    have hrun : (PlanCall.createDraft spec).run h.plan = .ok { h.plan with
        versions := h.plan.versions ++
          [⟨versionRef h.plan.id.value (h.plan.versions.length + 1), spec, .draft, none⟩] } := by
      simp [PlanCall.run, Plan.createDraft, PlanVersion.createDraft, hpriced, pure, Except.pure]
    rw [PlanHistory.Step, PlanHistory.next, hrun] at hst
    subst hst
    obtain ⟨w, hw, -⟩ := hhonest.pinned (fun _ => some _) rfl _ List.mem_cons_self
      ⟨versionRef h.plan.id.value (h.plan.versions.length + 1), spec, .draft, none⟩ (by simp)
    rw [findPinnedVersion, planIdOfVersionRef_broken (planId_ne_nil _) hline] at hw
    cases hw
  | clone fromVersionId | schedule versionId publishAt | publish versionId =>
    exact absurd trivial ha

/-- From the plan's creation on, its history is append-only, its pointer honest and the table
followed exactly as long as no call asks what it must not. -/
theorem history_honest_iff (id : UniqueEntityId) (key name : String) (tier : PlanTier)
    (calls : List PlanCall) :
    let start : PlanHistory := ⟨Plan.create id key name tier, []⟩
    let run := follow PlanHistory.next start calls
    (Always PlanHistory.Honest start run ∧ EveryStep OnEdges start run) ↔
      EveryStep Allowed start run :=
  always_and_everyStep_iff kept_step (fun _ hk => hk.honest) onEdges_of_allowed broken_step
    (create_kept id key name tier) (run_follow (fun _ _ => rfl) _ calls)

def starterPlan : Plan := Plan.create ⟨"starter-plan", by decide⟩ "starter" "Starter" .starter

def starterSpec : PlanSpec where
  limits := ⟨some 100, none, none, none, none, none, none⟩
  featureEntitlements := ["storefront"]
  pricing := ⟨49900, "EGP", .monthly, none, []⟩

/-- A draft that is archived and then rolled back to is the plan's published version, and no
version was ever published. -/
def archivedRollback : List PlanCall :=
  [.createDraft starterSpec, .archive "starter-plan-v1", .rollback "starter-plan-v1"]

theorem history_dishonest :
    ¬ (Always PlanHistory.Honest ⟨starterPlan, []⟩
        (follow PlanHistory.next ⟨starterPlan, []⟩ archivedRollback) ∧
      EveryStep OnEdges ⟨starterPlan, []⟩
        (follow PlanHistory.next ⟨starterPlan, []⟩ archivedRollback)) := by
  rintro ⟨honest, -⟩
  obtain ⟨p, hp, v, hv, -, hstatus⟩ := honest.last.pointer "starter-plan-v1" (by decide +kernel)
  have hnever : ∀ p ∈ (lastState ⟨starterPlan, []⟩
      (follow PlanHistory.next ⟨starterPlan, []⟩ archivedRollback)).plan ::
      (lastState ⟨starterPlan, []⟩
        (follow PlanHistory.next ⟨starterPlan, []⟩ archivedRollback)).past,
      ∀ v ∈ p.versions, v.status ≠ .published := by
    decide +kernel
  exact hnever p hp v hv hstatus

end Licensing
