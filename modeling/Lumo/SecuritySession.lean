import Lumo.Builtins

/-! # Sessions

The lifecycle of a session and the calls that establish, refresh and revoke one. The domain events,
the audit records and the telemetry are not modelled. -/
namespace Security

open SharedKernel Builtins Dates

inductive SessionStatus where
  | active
  | expired
  | revoked
  deriving DecidableEq

/-- The value, as a message shows it. -/
def SessionStatus.text : SessionStatus → String
  | active => "active"
  | expired => "expired"
  | revoked => "revoked"

structure Session where
  id : UniqueEntityId
  principalRef : String
  status : SessionStatus
  externalRef : Option String
  deviceRef : Option String
  refreshFingerprint : String
  refreshCount : ℕ
  riskAtLastEval : ℤ
  impersonatedBy : Option String
  delegationRef : Option String
  establishedAt : ℤ
  lastSeenAt : ℤ
  expiresAt : Date
  deriving DecidableEq

structure EstablishInput where
  principalRef : String
  refreshFingerprint : String
  externalRef : Option String
  deviceRef : Option String
  riskAtLastEval : Option ℚ
  impersonatedBy : Option String
  delegationRef : Option String
  expiresAt : Date

def normalizeExternalRef : Option String → Except DomainError (Option String)
  | none => .ok none
  | some value =>
    if isBlank value then .error (.businessRule "An external session ref cannot be blank")
    else .ok (some (trim value))

def clampRisk (value : ℚ) : ℤ := min 100 (max 0 (mathRound value))

namespace Session

def establish (id : UniqueEntityId) (input : EstablishInput) (occurredAt : ℤ) :
    Except DomainError Session :=
  if isBlank input.principalRef then .error (.businessRule "A session needs a principalRef")
  else if isBlank input.refreshFingerprint then
    .error (.businessRule "A session needs a refresh token fingerprint")
  else if isDue input.expiresAt occurredAt then
    .error (.businessRule "A session cannot be established already expired")
  else if input.impersonatedBy.isNone ≠ input.delegationRef.isNone then
    .error (.businessRule
      "An impersonation session requires both impersonatedBy and delegationRef")
  else do
    let externalRef ← normalizeExternalRef input.externalRef
    return {
      id := id
      principalRef := trim input.principalRef
      status := .active
      externalRef := externalRef
      deviceRef := input.deviceRef
      refreshFingerprint := trim input.refreshFingerprint
      refreshCount := 0
      riskAtLastEval := clampRisk (input.riskAtLastEval.getD 0)
      impersonatedBy := input.impersonatedBy
      delegationRef := input.delegationRef
      establishedAt := occurredAt
      lastSeenAt := occurredAt
      expiresAt := input.expiresAt }

variable (session : Session)

def refresh (newFingerprint : String) (expiresAt : Date) (occurredAt : ℤ) :
    Except DomainError Session :=
  if session.status ≠ .active then
    .error (.businessRule
      s!"Only an active session can be refreshed (is \"{session.status.text}\")")
  else if isBlank newFingerprint then
    .error (.businessRule "Refresh requires a new token fingerprint")
  else if trim newFingerprint = session.refreshFingerprint then
    .error (.businessRule "Refresh must rotate the token (reuse rejected)")
  else if isDue expiresAt occurredAt then
    .error (.businessRule "Refreshed session expiry must be in the future")
  else
    .ok { session with
      refreshFingerprint := trim newFingerprint
      refreshCount := session.refreshCount + 1
      lastSeenAt := occurredAt
      expiresAt := expiresAt }

def revoke : Session :=
  if session.status = .revoked then session else { session with status := .revoked }

def expireIfDue (now : ℤ) : Session × Bool :=
  if session.status ≠ .active then (session, false)
  else if isAfter session.expiresAt now then (session, false)
  else ({ session with status := .expired }, true)

def isValidAt (now : ℤ) : Bool := session.status = .active && isAfter session.expiresAt now

end Session

/-- What a call answers with instead of a session: an error of the domain, a refusal to
authenticate, or the `RangeError` of a date that cannot be shown. -/
inductive SessionFailure where
  | domain (error : DomainError)
  | authentication (message : String)
  | invalidDate

/-- `present`, which shows the expiry and is the last thing that a transaction does. -/
def present (session : Session) : Except SessionFailure Session :=
  if session.expiresAt.isSome then .ok session else .error .invalidDate

def domainResult : Except DomainError Session → Except SessionFailure Session
  | .ok session => .ok session
  | .error e => .error (.domain e)

/-- `new Date(now.getTime() + ttlSeconds * 1000)`. -/
def expiryAfter (ttlSeconds : ℚ) (now : ℤ) : Date := newDate (now + ttlSeconds * 1000)

structure EstablishSessionInput where
  refreshFingerprint : String
  externalRef : Option String
  deviceRef : Option String
  ttlSeconds : ℚ

/-- `EstablishSession.execute` for the principal that was found, by its id. -/
def establishSession (id : UniqueEntityId) (principal : Option String)
    (input : EstablishSessionInput) (now : ℤ) : Except SessionFailure Session :=
  match principal with
  | none => .error (.domain (.notFound "Principal not found"))
  | some principalRef => do
    let session ← domainResult (Session.establish id {
      principalRef := principalRef
      refreshFingerprint := input.refreshFingerprint
      externalRef := input.externalRef
      deviceRef := input.deviceRef
      riskAtLastEval := none
      impersonatedBy := none
      delegationRef := none
      expiresAt := expiryAfter input.ttlSeconds now } now)
    present session

/-- `RefreshSession.execute` of the session that was found. -/
def refreshSession (session : Session) (newRefreshFingerprint : String) (ttlSeconds : ℚ) (now : ℤ) :
    Except SessionFailure Session := do
  let refreshed ← domainResult
    (session.refresh newRefreshFingerprint (expiryAfter ttlSeconds now) now)
  present refreshed

/-- What federation does: it takes the mirror that it finds, rejects the call, refuses a mirror
that has ended, or mirrors the external session for the first time. -/
inductive Federation where
  | accepted (session : Session)
  | rejected (failure : SessionFailure)
  | ended (failure : SessionFailure)
  | firstSight (externalRef : String)

/-- `FederateExternalSession.execute`, given the mirror that is found, up to the establishing. -/
def federate (principal : Option String) (externalRef : String) (existing : Option Session)
    (now : ℤ) : Federation :=
  if isBlank externalRef then
    .rejected (.domain (.validation "An external session ref is required" []))
  else
    match principal with
    | none => .rejected (.domain (.notFound "Principal not found"))
    | some principalRef =>
      match existing with
      | none => .firstSight (trim externalRef)
      | some session =>
        if session.principalRef ≠ principalRef then
          .rejected (.authentication "External session is bound to a different principal")
        else if session.isValidAt now then .accepted session
        else .ended
          (.authentication s!"External session is no longer valid ({session.status.text})")

section Facts

variable {session after : Session} {now t : ℤ}

theorem Session.isValidAt_eq_true :
    session.isValidAt t = true ↔
      session.status = .active ∧ ∃ e, session.expiresAt = some e ∧ t < e := by
  simp [Session.isValidAt]

theorem Session.isValidAt_mono (hle : now ≤ t) (h : session.isValidAt t = true) :
    session.isValidAt now = true := by
  obtain ⟨hactive, e, he, hlt⟩ := Session.isValidAt_eq_true.mp h
  exact Session.isValidAt_eq_true.mpr ⟨hactive, e, he, by omega⟩

structure Refreshable (session : Session) (newFingerprint : String) (ttlSeconds : ℚ) (now : ℤ) :
    Prop where
  active : session.status = .active
  given : isBlank newFingerprint = false
  rotates : trim newFingerprint ≠ session.refreshFingerprint
  lasts : isAfter (expiryAfter ttlSeconds now) now = true

instance (session : Session) (newFingerprint : String) (ttlSeconds : ℚ) (now : ℤ) :
    Decidable (Refreshable session newFingerprint ttlSeconds now) :=
  decidable_of_iff (session.status = .active ∧ isBlank newFingerprint = false ∧
      trim newFingerprint ≠ session.refreshFingerprint ∧
        isAfter (expiryAfter ttlSeconds now) now = true)
    ⟨fun h => ⟨h.1, h.2.1, h.2.2.1, h.2.2.2⟩, fun h => ⟨h.active, h.given, h.rotates, h.lasts⟩⟩

theorem isAfter_iff {date : Date} :
    isAfter date now = true ↔ isDue date now = false ∧ date.isSome = true := by
  cases date <;> simp [isAfter, isDue]

variable {newFingerprint : String} {id : UniqueEntityId} {existing : Option Session}

theorem refresh_ok {expiresAt : Date} :
    session.refresh newFingerprint expiresAt now = .ok after ↔
      session.status = .active ∧ isBlank newFingerprint = false ∧
        trim newFingerprint ≠ session.refreshFingerprint ∧ isDue expiresAt now = false ∧
          after = { session with
            refreshFingerprint := trim newFingerprint
            refreshCount := session.refreshCount + 1
            lastSeenAt := now
            expiresAt := expiresAt } := by
  unfold Session.refresh
  constructor
  · intro h
    split at h
    · cases h
    split at h
    · cases h
    split at h
    · cases h
    split at h
    · cases h
    · rename_i hactive hgiven hrotates hdue
      cases h
      exact ⟨by simpa using hactive, by simpa using hgiven, hrotates, Bool.eq_false_iff.mpr hdue,
        rfl⟩
  · rintro ⟨hactive, hgiven, hrotates, hdue, rfl⟩
    simp [hactive, hgiven, hrotates, hdue]

theorem present_ok : present session = .ok after ↔ session.expiresAt.isSome = true ∧ after = session := by
  unfold present
  constructor
  · intro h
    split at h
    · cases h
      exact ⟨‹_›, rfl⟩
    · cases h
  · rintro ⟨hshown, rfl⟩
    rw [if_pos hshown]

theorem domainResult_ok {result : Except DomainError Session} :
    domainResult result = .ok session ↔ result = .ok session := by
  cases result <;> simp [domainResult]

theorem refreshSession_ok {ttlSeconds : ℚ} :
    refreshSession session newFingerprint ttlSeconds now = .ok after ↔
      Refreshable session newFingerprint ttlSeconds now ∧
        after = { session with
          refreshFingerprint := trim newFingerprint
          refreshCount := session.refreshCount + 1
          lastSeenAt := now
          expiresAt := expiryAfter ttlSeconds now } := by
  simp only [refreshSession, bind_eq_ok, domainResult_ok, refresh_ok, present_ok]
  constructor
  · rintro ⟨_, ⟨hactive, hgiven, hrotates, hdue, rfl⟩, hshown, rfl⟩
    exact ⟨⟨hactive, hgiven, hrotates, isAfter_iff.mpr ⟨hdue, hshown⟩⟩, rfl⟩
  · rintro ⟨hchecks, rfl⟩
    obtain ⟨hdue, hshown⟩ := isAfter_iff.mp hchecks.lasts
    exact ⟨_, ⟨hchecks.active, hchecks.given, hchecks.rotates, hdue, rfl⟩, hshown, rfl⟩

theorem normalizeExternalRef_ok {value normalized : Option String} :
    normalizeExternalRef value = .ok normalized ↔
      (∀ externalRef ∈ value, isBlank externalRef = false) ∧ normalized = value.map trim := by
  unfold normalizeExternalRef
  split
  · constructor
    · intro h
      cases h
      exact ⟨fun _ h => (by cases h), rfl⟩
    · rintro ⟨-, rfl⟩
      rfl
  · rename_i externalRef
    constructor
    · intro h
      split at h
      · cases h
      · rename_i hblank
        cases h
        refine ⟨?_, rfl⟩
        rintro _ ⟨⟩
        exact Bool.eq_false_iff.mpr hblank
    · rintro ⟨hgiven, rfl⟩
      rw [hgiven externalRef rfl]
      rfl

/-- The call passes the checks that establish a session. -/
structure Establishable (principal : Option String) (input : EstablishSessionInput) (now : ℤ) :
    Prop where
  known : principal.any (isBlank · = false) = true
  given : isBlank input.refreshFingerprint = false
  mirrors : ∀ externalRef ∈ input.externalRef, isBlank externalRef = false
  lasts : isAfter (expiryAfter input.ttlSeconds now) now = true

instance (principal : Option String) (input : EstablishSessionInput) (now : ℤ) :
    Decidable (Establishable principal input now) :=
  decidable_of_iff (principal.any (isBlank · = false) = true ∧
      isBlank input.refreshFingerprint = false ∧
      (∀ externalRef ∈ input.externalRef, isBlank externalRef = false) ∧
        isAfter (expiryAfter input.ttlSeconds now) now = true)
    ⟨fun h => ⟨h.1, h.2.1, h.2.2.1, h.2.2.2⟩, fun h => ⟨h.known, h.given, h.mirrors, h.lasts⟩⟩

/-- What a session is when it has just been established. -/
structure Fresh (id : UniqueEntityId) (input : EstablishSessionInput) (now : ℤ) (session : Session) :
    Prop where
  id : session.id = id
  active : session.status = .active
  externalRef : session.externalRef = input.externalRef.map trim
  fingerprint : session.refreshFingerprint = trim input.refreshFingerprint
  establishedAt : session.establishedAt = now
  expiresAt : session.expiresAt = expiryAfter input.ttlSeconds now

variable {input : EstablishSessionInput} {principal : Option String} {externalRef : String}

theorem establishSession_ok (h : establishSession id principal input now = .ok session) :
    Establishable principal input now ∧ Fresh id input now session := by
  unfold establishSession at h
  split at h
  · cases h
  rename_i principalRef
  obtain ⟨established, hestablished, hpresent⟩ := bind_eq_ok.mp h
  obtain ⟨hshown, rfl⟩ := present_ok.mp hpresent
  rw [domainResult_ok, Session.establish] at hestablished
  split at hestablished
  · cases hestablished
  split at hestablished
  · cases hestablished
  split at hestablished
  · cases hestablished
  split at hestablished
  · cases hestablished
  rename_i hknown hgiven hdue _
  obtain ⟨externalRef, href, hsession⟩ := bind_eq_ok.mp hestablished
  obtain ⟨hmirrors, rfl⟩ := normalizeExternalRef_ok.mp href
  cases hsession
  refine ⟨⟨by simpa using hknown, by simpa using hgiven, hmirrors, ?_⟩, ?_⟩
  · exact isAfter_iff.mpr ⟨Bool.eq_false_iff.mpr hdue, hshown⟩
  · exact ⟨rfl, rfl, rfl, rfl, rfl, rfl⟩

theorem exists_established (id : UniqueEntityId) (h : Establishable principal input now) :
    ∃ session, establishSession id principal input now = .ok session := by
  obtain ⟨principalRef, rfl, hknown⟩ := (Option.any_eq_true _ _).mp h.known
  obtain ⟨hdue, hshown⟩ := isAfter_iff.mp h.lasts
  have href := normalizeExternalRef_ok.mpr ⟨h.mirrors, rfl⟩
  simp only [decide_eq_true_eq] at hknown
  simp [establishSession, Session.establish, domainResult, present, hknown, h.given, hdue, hshown,
    href, pure, Except.pure]

theorem Fresh.isValidAt (h : Fresh id input now session)
    (hlasts : isAfter (expiryAfter input.ttlSeconds now) now = true) :
    session.isValidAt now = true := by
  simp only [Session.isValidAt, h.active, h.expiresAt, hlasts, decide_true, Bool.and_self]

theorem federate_firstSight {normalized : String} (h : federate principal externalRef existing now =
      .firstSight normalized) : existing = none ∧ normalized = trim externalRef := by
  unfold federate at h
  split at h
  · cases h
  split at h
  · cases h
  split at h
  · cases h
    exact ⟨rfl, rfl⟩
  · split at h
    · cases h
    · split at h <;> cases h

theorem federate_ended {failure : SessionFailure}
    (h : federate principal externalRef existing now = .ended failure) :
    isBlank externalRef = false ∧ ∃ mirror, existing = some mirror ∧
      principal = some mirror.principalRef ∧ mirror.isValidAt now = false := by
  unfold federate at h
  split at h
  · cases h
  rename_i hgiven
  split at h
  · cases h
  split at h
  · cases h
  · rename_i mirror
    split at h
    · cases h
    · rename_i hprincipal
      split at h
      · cases h
      · rename_i hinvalid
        refine ⟨Bool.eq_false_iff.mpr hgiven, mirror, rfl, ?_, Bool.eq_false_iff.mpr hinvalid⟩
        rw [Decidable.not_not.mp hprincipal]

theorem federate_invalid (hgiven : isBlank externalRef = false)
    (hinvalid : session.isValidAt now = false) :
    ∃ failure, federate (some session.principalRef) externalRef (some session) now =
      .ended failure := by
  simp [federate, hgiven, hinvalid]

theorem revoke_isValidAt : session.revoke.isValidAt t = false := by
  unfold Session.revoke
  split
  · rename_i hrevoked
    simp [Session.isValidAt, hrevoked]
  · rfl

theorem expireIfDue_cases (session : Session) (now : ℤ) :
    session.expireIfDue now = (session, false) ∨
      session.expireIfDue now = ({ session with status := .expired }, true) := by
  unfold Session.expireIfDue
  split
  · exact .inl rfl
  · split
    · exact .inl rfl
    · exact .inr rfl

end Facts

end Security
