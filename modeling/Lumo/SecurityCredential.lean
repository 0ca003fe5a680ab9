import Lumo.Builtins
import Lumo.LabelledRuns
import Mathlib.Logic.Function.Basic

/-! # Credentials

An authenticator of a principal and the schedule of its rotation. The moments that a caller hands
in are valid dates; the domain events are not modelled. -/
namespace Security

open SharedKernel Builtins Dates

/-- A rotation policy, whose numbers have passed the checks of `create`. -/
structure RotationPolicy where
  intervalDays : ℚ
  graceSeconds : ℚ
  autoRotate : Bool
  interval_positive : isInteger intervalDays = true ∧ 0 < intervalDays
  grace_amount : isInteger graceSeconds = true ∧ 0 ≤ graceSeconds
  deriving DecidableEq

namespace RotationPolicy

def create (intervalDays graceSeconds : ℚ) (autoRotate : Bool) :
    Except DomainError RotationPolicy :=
  if hinterval : isInteger intervalDays = true ∧ 0 < intervalDays then
    if hgrace : isInteger graceSeconds = true ∧ 0 ≤ graceSeconds then
      .ok ⟨intervalDays, graceSeconds, autoRotate, hinterval, hgrace⟩
    else
      .error (.validation "rotation grace is invalid"
        [⟨"graceSeconds", "must be a non-negative integer"⟩])
  else
    .error (.validation "rotation interval is invalid"
      [⟨"intervalDays", "must be a positive integer"⟩])

def nextDue (policy : RotationPolicy) (fromTime : ℤ) : Date :=
  newDate (fromTime + policy.intervalDays * 86400000)

end RotationPolicy

inductive CredentialKind where
  | apiKey
  | secret
  | certificate
  | signingKey
  | oauthClient
  deriving DecidableEq

inductive CredentialStatus where
  | active
  | rotated
  | revoked
  | expired
  deriving DecidableEq

/-- The value, as a message shows it. -/
def CredentialStatus.text : CredentialStatus → String
  | active => "active"
  | rotated => "rotated"
  | revoked => "revoked"
  | expired => "expired"

structure Credential where
  id : UniqueEntityId
  principalRef : String
  kind : CredentialKind
  fingerprint : String
  kmsKeyRef : Option String
  status : CredentialStatus
  supersedesRef : Option String
  issuedAt : ℤ
  expiresAt : Option ℤ
  rotationPolicy : Option RotationPolicy
  rotationDueAt : Option Date
  graceUntil : Option Date
  deriving DecidableEq

structure IssueInput where
  principalRef : String
  kind : CredentialKind
  fingerprint : String
  kmsKeyRef : Option String
  supersedesRef : Option String
  expiresAt : Option ℤ
  rotationPolicy : Option RotationPolicy

namespace Credential

def issue (id : UniqueEntityId) (input : IssueInput) (occurredAt : ℤ) :
    Except DomainError Credential :=
  if isBlank input.principalRef then .error (.businessRule "A credential needs a principalRef")
  else if isBlank input.fingerprint then
    .error (.businessRule "A credential needs a fingerprint (the secret value is never stored)")
  else if input.expiresAt.any (· ≤ occurredAt) then
    .error (.businessRule "A credential cannot be issued already expired")
  else
    .ok {
      id := id
      principalRef := trim input.principalRef
      kind := input.kind
      fingerprint := trim input.fingerprint
      kmsKeyRef := input.kmsKeyRef
      status := .active
      supersedesRef := input.supersedesRef
      issuedAt := occurredAt
      expiresAt := input.expiresAt
      rotationPolicy := input.rotationPolicy
      rotationDueAt := input.rotationPolicy.map fun policy => policy.nextDue occurredAt
      graceUntil := none }

variable (credential : Credential)

def isActive : Bool := decide (credential.status = .active)

def scheduleRotation (policy : RotationPolicy) (occurredAt : ℤ) : Except DomainError Credential :=
  if credential.status = .active then
    .ok { credential with
      rotationPolicy := some policy
      rotationDueAt := some (policy.nextDue occurredAt) }
  else .error (.businessRule "Only an active credential can be scheduled for rotation")

/-- How long a rotation leaves it valid: `override ?? policy?.graceSeconds ?? 0`. -/
def graceFor (graceSecondsOverride : Option ℚ) : ℚ :=
  graceSecondsOverride.getD ((credential.rotationPolicy.map RotationPolicy.graceSeconds).getD 0)

def graceEnd (occurredAt : ℤ) (graceSeconds : ℚ) : Option Date :=
  if 0 < graceSeconds then some (newDate (occurredAt + graceSeconds * 1000)) else none

def markRotated (occurredAt : ℤ) (graceSecondsOverride : Option ℚ) :
    Except DomainError Credential :=
  if credential.status = .active then
    .ok { credential with
      status := .rotated
      graceUntil := graceEnd occurredAt (credential.graceFor graceSecondsOverride)
      rotationDueAt := none }
  else
    .error (.businessRule
      s!"Only an active credential can be rotated (is \"{credential.status.text}\")")

def isValidAt (now : ℤ) : Bool :=
  match credential.status with
  | .active => credential.expiresAt.all (now < ·)
  | .rotated => credential.graceUntil.any fun graceUntil => isAfter graceUntil now
  | .revoked => false
  | .expired => false

def revoke : Except DomainError Credential :=
  match credential.status with
  | .revoked => .ok credential
  | .expired => .error (.businessRule "An expired credential cannot be revoked")
  | .active => .ok { credential with status := .revoked }
  | .rotated => .ok { credential with status := .revoked }

def expireIfDue (now : ℤ) : Credential × Bool :=
  if credential.status = .active ∧ credential.expiresAt.any (· ≤ now) then
    ({ credential with status := .expired }, true)
  else (credential, false)

variable {credential} {after : Credential} {now t : ℤ}

variable {input : IssueInput}

variable {id : UniqueEntityId}

theorem issue_named (h : issue id input now = .ok credential) :
    isBlank credential.principalRef = false := by
  unfold issue at h
  split at h
  · cases h
  · rename_i hnamed
    split at h
    · cases h
    · split at h
      · cases h
      · cases h
        rw [isBlank_trim]
        simpa using hnamed

theorem issue_checked (h : issue id input now = .ok credential) :
    isBlank input.fingerprint = false ∧ input.expiresAt.any (· ≤ now) = false := by
  unfold issue at h
  split at h
  · cases h
  · split at h
    · cases h
    · split at h
      · cases h
      · rename_i hfingerprint hdue
        exact ⟨by simpa using hfingerprint, by simpa using hdue⟩

theorem issue_of_checks (id : UniqueEntityId) (input : IssueInput) (now : ℤ)
    (hprincipal : isBlank input.principalRef = false)
    (hfingerprint : isBlank input.fingerprint = false)
    (hdue : input.expiresAt.any (· ≤ now) = false) : ∃ issued, issue id input now = .ok issued := by
  simp [issue, hprincipal, hfingerprint, hdue]

theorem issue_ok (h : issue id input now = .ok credential) :
    credential.status = .active ∧ credential.expiresAt = input.expiresAt ∧
      ∀ e, credential.expiresAt = some e → now < e := by
  unfold issue at h
  split at h
  · cases h
  · split at h
    · cases h
    · split at h
      · cases h
      · rename_i hexpires
        cases h
        refine ⟨rfl, rfl, ?_⟩
        intro e he
        have he : input.expiresAt = some e := he
        simpa [he] using hexpires

theorem scheduleRotation_ok {policy : RotationPolicy}
    (h : credential.scheduleRotation policy now = .ok after) :
    after.status = credential.status ∧ after.expiresAt = credential.expiresAt ∧
      after.graceUntil = credential.graceUntil ∧
      after.principalRef = credential.principalRef := by
  unfold scheduleRotation at h
  split at h
  · cases h
    exact ⟨rfl, rfl, rfl, rfl⟩
  · cases h

theorem markRotated_ok {graceSecondsOverride : Option ℚ}
    (h : credential.markRotated now graceSecondsOverride = .ok after) :
    credential.status = .active ∧ after.status = .rotated ∧
      after.expiresAt = credential.expiresAt ∧
      after.graceUntil = graceEnd now (credential.graceFor graceSecondsOverride) ∧
      after.principalRef = credential.principalRef := by
  unfold markRotated at h
  split at h
  · rename_i hactive
    cases h
    exact ⟨hactive, rfl, rfl, rfl, rfl⟩
  · cases h

theorem markRotated_active (h : credential.status = .active) (now : ℤ)
    (graceSecondsOverride : Option ℚ) :
    ∃ after, credential.markRotated now graceSecondsOverride = .ok after := by
  rw [markRotated, if_pos h]
  exact ⟨_, rfl⟩

theorem revoke_ok (h : credential.revoke = .ok after) :
    after.status = .revoked ∧ after.principalRef = credential.principalRef := by
  unfold revoke at h
  split at h
  · rename_i hrevoked
    cases h
    exact ⟨hrevoked, rfl⟩
  · cases h
  · cases h
    exact ⟨rfl, rfl⟩
  · cases h
    exact ⟨rfl, rfl⟩

variable (credential) in
theorem expireIfDue_cases (now : ℤ) :
    credential.expireIfDue now = (credential, false) ∨
      (credential.expireIfDue now).1.status = .expired ∧
        (credential.expireIfDue now).1.principalRef = credential.principalRef := by
  unfold expireIfDue
  split
  · exact .inr ⟨rfl, rfl⟩
  · exact .inl rfl

theorem isValidAt_active (h : credential.status = .active) :
    credential.isValidAt t = true ↔ ∀ e, credential.expiresAt = some e → t < e := by
  simp [isValidAt, h, Option.all_eq_true]

theorem isValidAt_rotated (h : credential.status = .rotated) :
    credential.isValidAt t = true ↔ ∃ g, credential.graceUntil = some (some g) ∧ t < g := by
  simp only [isValidAt, h]
  cases credential.graceUntil with
  | none | some graceUntil => simp

theorem status_of_isValidAt (h : credential.isValidAt t = true) :
    credential.status = .active ∨ credential.status = .rotated := by
  unfold isValidAt at h
  split at h
  · exact .inl ‹_›
  · exact .inr ‹_›
  · cases h
  · cases h

end Credential

end Security

/-! ## Credentials over whole runs

The stored credentials, under calls at moments that never go back, and what a secret that has
stopped being valid may still do. -/
namespace Security

open SharedKernel Builtins Dates LabelledRuns

inductive CredentialCall where
  | issue (input : IssueInput)
  | scheduleRotation (policy : RotationPolicy)
  | markRotated (graceSecondsOverride : Option ℚ)
  /-- `RotateCredential`, with what the key management answers. -/
  | rotate (replacementId : UniqueEntityId) (nextKeyRef fingerprint : String)
  | revoke
  | expireIfDue
  | authenticate

/-- A call on one credential, at a moment. -/
structure CredentialLabel where
  id : UniqueEntityId
  call : CredentialCall
  time : ℤ

structure Held where
  credential : Credential
  refused : Bool

structure Vault where
  now : ℤ
  held : UniqueEntityId → Option Held

namespace Vault

variable (vault : Vault)

def put (id : UniqueEntityId) (entry : Held) : Vault :=
  { vault with held := Function.update vault.held id (some entry) }

/-- What a method leaves is saved; a call that throws leaves everything as it was. -/
def save (id : UniqueEntityId) (entry : Held) : Except DomainError Credential → Vault
  | .ok after => vault.put id { entry with credential := after }
  | .error _ => vault

def replacement (credential : Credential) (nextKeyRef fingerprint : String) : IssueInput where
  principalRef := credential.principalRef
  kind := credential.kind
  fingerprint := fingerprint
  kmsKeyRef := some nextKeyRef
  supersedesRef := some credential.id.value
  expiresAt := credential.expiresAt
  rotationPolicy := credential.rotationPolicy

/-- `RotateCredential.execute`: both credentials are saved, or neither is. -/
def rotate (id replacementId : UniqueEntityId) (entry : Held) (nextKeyRef fingerprint : String)
    (now : ℤ) : Vault :=
  if entry.credential.isActive then
    match entry.credential.markRotated now none with
    | .error _ => vault
    | .ok rotated =>
      match Credential.issue replacementId (replacement rotated nextKeyRef fingerprint) now with
      | .error _ => vault
      | .ok issued =>
        (vault.put id { entry with credential := rotated }).put replacementId ⟨issued, false⟩
  else vault

/-- A call at its moment. Ids are generated: an issued credential gets one that is not taken. -/
def next (label : CredentialLabel) : Option Vault :=
  if label.time < vault.now then none
  else
    let vault := { vault with now := label.time }
    match label.call, vault.held label.id with
    | .issue input, none =>
      match Credential.issue label.id input label.time with
      | .ok issued => some (vault.put label.id ⟨issued, false⟩)
      | .error _ => some vault
    | .issue _, some _ => none
    | _, none => some vault
    | .scheduleRotation policy, some entry =>
      some (vault.save label.id entry (entry.credential.scheduleRotation policy label.time))
    | .markRotated graceSecondsOverride, some entry =>
      some (vault.save label.id entry
        (entry.credential.markRotated label.time graceSecondsOverride))
    | .rotate replacementId nextKeyRef fingerprint, some entry =>
      if (vault.held replacementId).isSome then none
      else some (vault.rotate label.id replacementId entry nextKeyRef fingerprint label.time)
    | .revoke, some entry => some (vault.save label.id entry entry.credential.revoke)
    | .expireIfDue, some entry =>
      some (vault.put label.id
        { entry with credential := (entry.credential.expireIfDue label.time).1 })
    | .authenticate, some entry =>
      some (vault.put label.id
        { entry with refused := entry.refused || !entry.credential.isValidAt label.time })

variable {vault} {id other : UniqueEntityId} {entry : Held}

@[simp] theorem put_held_self : (vault.put id entry).held id = some entry :=
  Function.update_self _ _ _

theorem put_held_of_ne (h : other ≠ id) : (vault.put id entry).held other = vault.held other :=
  Function.update_of_ne h _ _

def Step (vault : Vault) (label : CredentialLabel) (after : Vault) : Prop :=
  vault.next label = some after

end Vault

/-- Wherever the secret would be accepted from now on, it has not expired and was never refused. -/
def NeverAgain (vault : Vault) : Prop :=
  ∀ id entry, vault.held id = some entry → ∀ t, vault.now ≤ t →
    entry.credential.isValidAt t = true →
      (∀ e, entry.credential.expiresAt = some e → t < e) ∧ entry.refused = false

def GraceWithin (credential : Credential) (graceSecondsOverride : Option ℚ) (now : ℤ) : Prop :=
  ∀ e ∈ credential.expiresAt,
    ∀ graceUntil ∈ Credential.graceEnd now (credential.graceFor graceSecondsOverride),
      ∀ g ∈ graceUntil, g ≤ max now e

instance (credential : Credential) (graceSecondsOverride : Option ℚ) (now : ℤ) :
    Decidable (GraceWithin credential graceSecondsOverride now) :=
  inferInstanceAs (Decidable (∀ e ∈ credential.expiresAt,
    ∀ graceUntil ∈ Credential.graceEnd now (credential.graceFor graceSecondsOverride),
      ∀ g ∈ graceUntil, g ≤ max now e))

/-- A call that rotates a credential leaves it valid no longer than it would have been. -/
def InOrder (vault : Vault) (label : CredentialLabel) : Prop :=
  match label.call, vault.held label.id with
  | .markRotated graceSecondsOverride, some entry =>
    entry.credential.status = .active →
      GraceWithin entry.credential graceSecondsOverride label.time
  | .rotate _ _ fingerprint, some entry =>
    entry.credential.status = .active → isBlank fingerprint = false →
      entry.credential.expiresAt.any (· ≤ label.time) = false →
        GraceWithin entry.credential none label.time
  | _, _ => True

instance (vault : Vault) (label : CredentialLabel) : Decidable (InOrder vault label) := by
  unfold InOrder
  split <;> infer_instance

/-- What a stored credential keeps, at a moment. -/
structure Standing (now : ℤ) (entry : Held) : Prop where
  named : isBlank entry.credential.principalRef = false
  active : entry.credential.status = .active → entry.refused = true →
    ∃ e, entry.credential.expiresAt = some e ∧ e ≤ now
  rotated : entry.credential.status = .rotated → ∀ g, entry.credential.graceUntil = some (some g) →
    g ≤ now ∨ (∀ e, entry.credential.expiresAt = some e → g ≤ e) ∧ entry.refused = false

namespace Standing

variable {now later : ℤ} {entry : Held} {after : Credential}

theorem mono (h : Standing now entry) (hle : now ≤ later) : Standing later entry where
  named := h.named
  active hactive hrefused := by
    obtain ⟨e, he, hdue⟩ := h.active hactive hrefused
    exact ⟨e, he, by omega⟩
  rotated hrotated g hg := by
    rcases h.rotated hrotated g hg with hover | hkept
    · exact .inl (by omega)
    · exact .inr hkept

theorem issued {id : UniqueEntityId} {input : IssueInput}
    (h : Credential.issue id input now = .ok after) : Standing now ⟨after, false⟩ := by
  obtain ⟨hactive, -, -⟩ := Credential.issue_ok h
  refine ⟨Credential.issue_named h, ?_, ?_⟩
  · intro _ hrefused
    cases hrefused
  · intro hrotated
    rw [hactive] at hrotated
    cases hrotated

theorem scheduled {policy : RotationPolicy} (h : Standing now entry)
    (hafter : entry.credential.scheduleRotation policy later = .ok after) :
    Standing now { entry with credential := after } := by
  obtain ⟨hstatus, hexpires, hgrace, hprincipal⟩ := Credential.scheduleRotation_ok hafter
  refine ⟨?_, ?_, ?_⟩
  · simpa only [hprincipal] using h.named
  · simpa only [hstatus, hexpires] using h.active
  · simpa only [hstatus, hexpires, hgrace] using h.rotated

theorem markedRotated {graceSecondsOverride : Option ℚ} (h : Standing now entry)
    (hafter : entry.credential.markRotated now graceSecondsOverride = .ok after)
    (hwithin : GraceWithin entry.credential graceSecondsOverride now) :
    Standing now { entry with credential := after } := by
  obtain ⟨hactive, hrotated, hexpires, hgrace, hprincipal⟩ := Credential.markRotated_ok hafter
  refine ⟨?_, ?_, ?_⟩
  · simpa only [hprincipal] using h.named
  · intro hstatus
    rw [hrotated] at hstatus
    cases hstatus
  · intro _ g hg
    rw [hgrace] at hg
    by_cases hover : g ≤ now
    · exact .inl hover
    · right
      have hbefore (e : ℤ) (he : entry.credential.expiresAt = some e) : g ≤ e := by
        have hmax := hwithin e he _ hg g rfl
        omega
      refine ⟨fun e he => hbefore e (hexpires ▸ he), ?_⟩
      by_contra hrefused
      obtain ⟨e, he, hdue⟩ := h.active hactive (by simpa using hrefused)
      have hle := hbefore e he
      omega

theorem ended (h : Standing now entry) (hprincipal : after.principalRef = entry.credential.principalRef)
    (hactive : after.status ≠ .active) (hrotated : after.status ≠ .rotated) :
    Standing now { entry with credential := after } where
  named := by simpa only [hprincipal] using h.named
  active hstatus := absurd hstatus hactive
  rotated hstatus := absurd hstatus hrotated

theorem authenticated (h : Standing now entry) :
    Standing now { entry with refused := entry.refused || !entry.credential.isValidAt now } := by
  refine ⟨h.named, ?_, ?_⟩
  · intro hactive hrefused
    by_cases hbefore : entry.refused = true
    · exact h.active hactive hbefore
    · have hinvalid : ¬ entry.credential.isValidAt now = true := by simpa [hbefore] using hrefused
      rw [Credential.isValidAt_active hactive] at hinvalid
      push Not at hinvalid
      exact hinvalid
  · intro hrotated g hg
    rcases h.rotated hrotated g hg with hover | ⟨hwithin, hrefused⟩
    · exact .inl hover
    by_cases hvalid : entry.credential.isValidAt now = true
    · exact .inr ⟨hwithin, by simp [hrefused, hvalid]⟩
    · rw [Credential.isValidAt_rotated hrotated] at hvalid
      refine .inl (Int.not_lt.mp fun hlt => hvalid ⟨g, hg, hlt⟩)

theorem never_again (h : Standing now entry) {t : ℤ} (hle : now ≤ t)
    (hvalid : entry.credential.isValidAt t = true) :
    (∀ e, entry.credential.expiresAt = some e → t < e) ∧ entry.refused = false := by
  rcases Credential.status_of_isValidAt hvalid with hactive | hrotated
  · have hunexpired := (Credential.isValidAt_active hactive).mp hvalid
    refine ⟨hunexpired, ?_⟩
    by_contra hrefused
    obtain ⟨e, he, hdue⟩ := h.active hactive (by simpa using hrefused)
    have hlt := hunexpired e he
    omega
  · obtain ⟨g, hg, hlt⟩ := (Credential.isValidAt_rotated hrotated).mp hvalid
    rcases h.rotated hrotated g hg with hover | ⟨hwithin, hrefused⟩
    · omega
    · refine ⟨fun e he => ?_, hrefused⟩
      have hle := hwithin e he
      omega

end Standing

/-- Every stored credential is in order. -/
def Kept (vault : Vault) : Prop :=
  ∀ id entry, vault.held id = some entry → Standing vault.now entry

namespace Kept

variable {vault after : Vault} {entry : Held} {label : CredentialLabel}

variable {now : ℤ} {id : UniqueEntityId}

theorem later (h : Kept vault) (hle : vault.now ≤ now) : Kept { vault with now := now } :=
  fun id entry hentry => (h id entry hentry).mono hle

theorem put (h : Kept vault) (hentry : Standing vault.now entry) : Kept (vault.put id entry) := by
  intro other stored hstored
  by_cases heq : other = id
  · subst heq
    rw [Vault.put_held_self] at hstored
    cases hstored
    exact hentry
  · rw [Vault.put_held_of_ne heq] at hstored
    exact h other stored hstored

theorem save {result : Except DomainError Credential} (h : Kept vault)
    (hafter : ∀ after, result = .ok after → Standing vault.now { entry with credential := after }) :
    Kept (vault.save id entry result) := by
  cases result with
  | error e => exact h
  | ok after => exact h.put (hafter after rfl)

theorem rotate {replacementId : UniqueEntityId} {nextKeyRef fingerprint : String} (h : Kept vault)
    (hnow : vault.now = now) (hentry : Standing now entry)
    (hwithin : entry.credential.status = .active → isBlank fingerprint = false →
      entry.credential.expiresAt.any (· ≤ now) = false → GraceWithin entry.credential none now) :
    Kept (vault.rotate id replacementId entry nextKeyRef fingerprint now) := by
  subst hnow
  unfold Vault.rotate
  split
  · split
    · exact h
    · rename_i hactive _ rotated hrotated
      split
      · exact h
      · rename_i issued hissued
        obtain ⟨-, -, hexpires, -, -⟩ := Credential.markRotated_ok hrotated
        obtain ⟨hfingerprint, hdue⟩ := Credential.issue_checked hissued
        refine (h.put (hentry.markedRotated hrotated ?_)).put (.issued hissued)
        refine hwithin (of_decide_eq_true hactive) hfingerprint ?_
        rw [← hexpires]
        exact hdue
  · exact h

/-- A call in order keeps every credential in order. -/
theorem step (h : Kept vault) (hst : Vault.Step vault label after) (horder : InOrder vault label) :
    Kept after := by
  obtain ⟨id, call, time⟩ := label
  rw [Vault.Step, Vault.next] at hst
  split at hst
  · cases hst
  rename_i hclock
  have hlater : Kept { vault with now := time } := h.later (Int.not_lt.mp hclock)
  have hstanding (entry : Held) (hentry : vault.held id = some entry) : Standing time entry :=
    hlater id entry hentry
  rw [InOrder] at horder
  cases hentry : vault.held id with
  | none =>
    simp only [hentry] at hst
    cases call with
    | issue input =>
      simp only at hst
      split at hst
      · rename_i issued hissued
        cases hst
        exact hlater.put (.issued hissued)
      · cases hst
        exact hlater
    | _ =>
      cases hst
      exact hlater
  | some entry =>
    have hkept := hstanding entry hentry
    simp only [hentry] at hst horder
    cases call with
    | issue input => cases hst
    | scheduleRotation policy =>
      cases hst
      exact hlater.save fun after hafter => hkept.scheduled hafter
    | markRotated graceSecondsOverride =>
      cases hst
      refine hlater.save fun after hafter => hkept.markedRotated hafter ?_
      exact horder (Credential.markRotated_ok hafter).1
    | rotate replacementId nextKeyRef fingerprint =>
      simp only at hst
      split at hst
      · cases hst
      · cases hst
        exact hlater.rotate rfl hkept horder
    | revoke =>
      cases hst
      refine hlater.save fun after hafter => ?_
      obtain ⟨hrevoked, hprincipal⟩ := Credential.revoke_ok hafter
      exact hkept.ended hprincipal (by simp [hrevoked]) (by simp [hrevoked])
    | expireIfDue =>
      cases hst
      apply hlater.put
      rcases entry.credential.expireIfDue_cases time with
        hsame | ⟨hexpired, hprincipal⟩
      · rw [hsame]
        exact hkept
      · exact hkept.ended hprincipal (by simp [hexpired]) (by simp [hexpired])
    | authenticate =>
      cases hst
      exact hlater.put hkept.authenticated

theorem outlasts (id : UniqueEntityId) {graceSecondsOverride : Option ℚ} {rotated : Credential}
    (hrotated : entry.credential.markRotated now graceSecondsOverride = .ok rotated)
    (hwithin : ¬ GraceWithin entry.credential graceSecondsOverride now) (hnow : after.now = now)
    (hafter : after.held id = some { entry with credential := rotated }) : ¬ NeverAgain after := by
  intro hnever
  obtain ⟨-, hstatus, hexpires, hgrace, -⟩ := Credential.markRotated_ok hrotated
  rw [GraceWithin] at hwithin
  push Not at hwithin
  obtain ⟨e, he, graceUntil, hgraceUntil, g, rfl, hlt⟩ := hwithin
  -- the first moment at which it should no longer be valid, and still is
  have hvalid : rotated.isValidAt (max now e) = true :=
    (Credential.isValidAt_rotated hstatus).mpr ⟨g, hgrace.trans hgraceUntil, hlt⟩
  have hunexpired := (hnever id _ hafter (max now e) (by omega) hvalid).1 e (hexpires.trans he)
  omega

/-- A call out of order shows at once. -/
theorem broken (h : Kept vault) (hst : Vault.Step vault label after)
    (horder : ¬ InOrder vault label) : ¬ NeverAgain after := by
  obtain ⟨id, call, time⟩ := label
  rw [Vault.Step, Vault.next] at hst
  split at hst
  · cases hst
  rw [InOrder] at horder
  cases hentry : vault.held id with
  | none =>
    simp only [hentry] at horder
    cases call <;> exact absurd trivial horder
  | some entry =>
    simp only [hentry] at hst horder
    cases call with
    | markRotated graceSecondsOverride =>
      obtain ⟨hactive, hwithin⟩ := Classical.not_imp.mp horder
      cases hst
      obtain ⟨rotated, hrotated⟩ := Credential.markRotated_active hactive time graceSecondsOverride
      rw [hrotated]
      exact outlasts id hrotated hwithin rfl Vault.put_held_self
    | rotate replacementId nextKeyRef fingerprint =>
      obtain ⟨hactive, horder⟩ := Classical.not_imp.mp horder
      obtain ⟨hfingerprint, horder⟩ := Classical.not_imp.mp horder
      obtain ⟨hdue, hwithin⟩ := Classical.not_imp.mp horder
      simp only at hst
      split at hst
      · cases hst
      rename_i hfresh
      have hne : id ≠ replacementId := by
        rintro rfl
        exact hfresh (by rw [hentry]; rfl)
      obtain ⟨rotated, hrotated⟩ := Credential.markRotated_active hactive time none
      obtain ⟨-, -, hexpires, -, hprincipal⟩ := Credential.markRotated_ok hrotated
      obtain ⟨issued, hissued⟩ := Credential.issue_of_checks replacementId
        (Vault.replacement rotated nextKeyRef fingerprint) time
        (by rw [Vault.replacement, hprincipal]; exact (h id entry hentry).named) hfingerprint
        (by rw [Vault.replacement, hexpires]; exact hdue)
      cases hst
      simp only [Vault.rotate, Credential.isActive, hactive, decide_true, if_true, hrotated,
        hissued]
      refine outlasts id hrotated hwithin rfl ?_
      rw [Vault.put_held_of_ne hne, Vault.put_held_self]
    | _ => exact absurd trivial horder

theorem neverAgain (h : Kept vault) : NeverAgain vault :=
  fun id entry hentry _ hle hvalid => (h id entry hentry).never_again hle hvalid

end Kept

/-- A vault in which nothing has been issued yet. -/
def Opened (vault : Vault) : Prop := ∀ id, vault.held id = none

variable {vault : Vault}

theorem kept_of_opened (h : Opened vault) : Kept vault := by
  intro id entry hentry
  rw [h id] at hentry
  cases hentry

/-- No secret works again in a run exactly when no rotation of it gives a credential a grace that
outlasts its expiry. -/
theorem run_neverAgain_iff {tr : List (CredentialLabel × Vault)} (hs : Opened vault)
    (hr : Run Vault.Step vault tr) : Always NeverAgain vault tr ↔ EveryStep InOrder vault tr :=
  always_iff_everyStep (I := Kept) (G := InOrder) (fun _ _ _ h hst horder => h.step hst horder)
    (fun _ h => h.neverAgain) (fun _ _ _ h hst horder => h.broken hst horder)
    (kept_of_opened hs) hr

section Samples

private def sampleId : UniqueEntityId := ⟨"credential", by decide⟩

private def emptyVault : Vault := ⟨0, fun _ => none⟩

private def hourly : IssueInput :=
  ⟨"principal", .apiKey, "fingerprint", none, none, some 3600000, none⟩

private def hourOfGrace : RotationPolicy := ⟨30, 3600, true, by decide +kernel, by decide +kernel⟩

private def calls (grace : Option ℚ) : List CredentialLabel :=
  [⟨sampleId, .issue hourly, 0⟩, ⟨sampleId, .scheduleRotation hourOfGrace, 1000⟩,
    ⟨sampleId, .markRotated grace, 2000⟩, ⟨sampleId, .authenticate, 3601000⟩]

private theorem emptyVault_opened : Opened emptyVault := fun _ => rfl

/-- A grace of half an hour ends before the key expires. -/
theorem run_neverAgain_iff_within :
    Always NeverAgain emptyVault (attempt Vault.next emptyVault (calls (some 1800))) ∧
      EveryStep InOrder emptyVault (attempt Vault.next emptyVault (calls (some 1800))) := by
  have hruns := run_neverAgain_iff emptyVault_opened (run_attempt Vault.next emptyVault
    (calls (some 1800)))
  have horder : EveryStep InOrder emptyVault
      (attempt Vault.next emptyVault (calls (some 1800))) := by
    decide +kernel
  exact ⟨hruns.mpr horder, horder⟩

/-- With the hour of the policy the rotated key is accepted a second after its expiry. -/
theorem neverAgain_fails :
    ¬ ∀ (vault : Vault) (tr : List (CredentialLabel × Vault)), Opened vault →
      Run Vault.Step vault tr → Always NeverAgain vault tr := by
  intro h
  have hlast := (h emptyVault _ emptyVault_opened (run_attempt Vault.next emptyVault
    (calls none))).last
  have haccepted : ((lastState emptyVault (attempt Vault.next emptyVault (calls none))).held
      sampleId).any (fun entry => entry.credential.isValidAt 3601000 ∧
        entry.credential.expiresAt = some 3600000) = true := by
    decide +kernel
  obtain ⟨entry, hentry, hvalid⟩ := (Option.any_eq_true _ _).mp haccepted
  obtain ⟨hvalid, hexpires⟩ := of_decide_eq_true hvalid
  have hunexpired := (hlast sampleId entry hentry 3601000 (by decide +kernel) hvalid).1 _ hexpires
  omega

end Samples

end Security
