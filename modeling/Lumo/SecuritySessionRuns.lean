import Lumo.LabelledRuns
import Lumo.SecuritySession

/-! # Sessions over whole runs

The stored sessions of a tenant, under calls at moments that never go back: whether one that has
ended, or an external one that was refused, is ever valid again, and which fingerprints come back. -/
namespace Security

open SharedKernel Builtins Dates LabelledRuns

/-- The calls. What a call reads elsewhere comes with it: the id of the principal that is found,
and for federation the mirror, of which the store may take any that was established last. -/
inductive SessionCall where
  | establish (principal : Option String) (input : EstablishSessionInput)
  | federate (principal : Option String) (found : Option UniqueEntityId) (externalRef : String)
      (input : EstablishSessionInput)
  | refresh (newRefreshFingerprint : String) (ttlSeconds : ℚ)
  | revoke
  | expireIfDue

/-- A call at a moment, on a session or with the id that a new one gets. -/
structure SessionLabel where
  id : UniqueEntityId
  call : SessionCall
  time : ℤ

/-- A session, its fingerprints from the first to the current one, and whether there was a moment
at which it was not valid. -/
structure HeldSession where
  session : Session
  fingerprints : List String
  ended : Bool
  deriving DecidableEq

def HeldSession.noticed (time : ℤ) (entry : HeldSession) : HeldSession :=
  { entry with ended := entry.ended || !entry.session.isValidAt time }

/-- The store, and the external refs that federation has refused as no longer valid. -/
structure SessionStore where
  now : ℤ
  sessions : List HeldSession
  refused : List String

namespace SessionStore

variable (store : SessionStore)

def findById (id : UniqueEntityId) : Option HeldSession :=
  store.sessions.find? fun entry => entry.session.id = id

def map (g : HeldSession → HeldSession) : SessionStore :=
  { store with sessions := store.sessions.map g }

/-- The session with the id is read, changed and saved. -/
def update (id : UniqueEntityId) (change : HeldSession → HeldSession) : SessionStore :=
  store.map fun entry => if entry.session.id = id then change entry else entry

def insert (session : Session) : SessionStore :=
  { store with sessions := store.sessions ++ [⟨session, [session.refreshFingerprint], false⟩] }

/-- The time passes, and what is no longer valid has ended. -/
def advance (time : ℤ) : SessionStore :=
  { store.map (HeldSession.noticed time) with now := time }

/-- `findByExternalRef` may answer with this session: none with the ref was established later. -/
def Latest (externalRef : String) (entry : HeldSession) : Prop :=
  entry ∈ store.sessions ∧ entry.session.externalRef = some externalRef ∧
    ∀ other ∈ store.sessions, other.session.externalRef = some externalRef →
      other.session.establishedAt ≤ entry.session.establishedAt

instance (externalRef : String) (entry : HeldSession) :
    Decidable (store.Latest externalRef entry) :=
  inferInstanceAs (Decidable (_ ∧ _ ∧ ∀ other ∈ store.sessions, _))

/-- What the store answers, where it may answer so. -/
def answer (externalRef : String) : Option UniqueEntityId → Option (Option HeldSession)
  | none =>
    if ∀ entry ∈ store.sessions, entry.session.externalRef ≠ some externalRef then some none
    else none
  | some found =>
    match store.findById found with
    | some entry => if store.Latest externalRef entry then some (some entry) else none
    | none => none

def establish (id : UniqueEntityId) (principal : Option String) (input : EstablishSessionInput) :
    SessionStore :=
  match establishSession id principal input store.now with
  | .ok session => store.insert session
  | .error _ => store

def federated (id : UniqueEntityId) (principal : Option String) (externalRef : String)
    (input : EstablishSessionInput) (existing : Option HeldSession) : SessionStore :=
  match federate principal externalRef (existing.map HeldSession.session) store.now with
  | .accepted _ => store
  | .rejected _ => store
  | .ended _ => { store with refused := store.refused ++ [trim externalRef] }
  | .firstSight normalized =>
    store.establish id principal { input with externalRef := some normalized }

end SessionStore

namespace HeldSession

variable (entry : HeldSession)

def refreshed (newRefreshFingerprint : String) (ttlSeconds : ℚ) (now : ℤ) : HeldSession :=
  match refreshSession entry.session newRefreshFingerprint ttlSeconds now with
  | .ok session =>
    { entry with
      session := session
      fingerprints := entry.fingerprints ++ [session.refreshFingerprint] }
  | .error _ => entry

def revoked : HeldSession := { entry with session := entry.session.revoke }

def expiredIfDue (now : ℤ) : HeldSession :=
  { entry with session := (entry.session.expireIfDue now).1 }

variable {entry} {newRefreshFingerprint : String} {ttlSeconds : ℚ} {now : ℤ}

theorem refreshed_of (h : Refreshable entry.session newRefreshFingerprint ttlSeconds now) :
    entry.refreshed newRefreshFingerprint ttlSeconds now = { entry with
      session := { entry.session with
        refreshFingerprint := trim newRefreshFingerprint
        refreshCount := entry.session.refreshCount + 1
        lastSeenAt := now
        expiresAt := expiryAfter ttlSeconds now }
      fingerprints := entry.fingerprints ++ [trim newRefreshFingerprint] } := by
  rw [refreshed, refreshSession_ok.mpr ⟨h, rfl⟩]

theorem refreshed_of_not (h : ¬ Refreshable entry.session newRefreshFingerprint ttlSeconds now) :
    entry.refreshed newRefreshFingerprint ttlSeconds now = entry := by
  unfold refreshed
  split
  · rename_i session hsession
    exact absurd (refreshSession_ok.mp hsession).1 h
  · rfl

theorem revoked_kept : entry.revoked.session.externalRef = entry.session.externalRef ∧
    entry.revoked.session.establishedAt = entry.session.establishedAt := by
  unfold revoked Session.revoke
  split
  · exact ⟨rfl, rfl⟩
  · exact ⟨rfl, rfl⟩

end HeldSession

namespace SessionStore

/-- A call at its moment. Ids are generated: a new session gets one that is not taken. -/
def next (store : SessionStore) (label : SessionLabel) : Option SessionStore :=
  if label.time < store.now then none
  else
    let store := store.advance label.time
    match label.call with
    | .establish principal input =>
      if (store.findById label.id).isSome then none
      else some (store.establish label.id principal input)
    | .federate principal found externalRef input =>
      if (store.findById label.id).isSome then none
      else (store.answer (trim externalRef) found).map fun existing =>
        store.federated label.id principal externalRef input existing
    | .refresh newRefreshFingerprint ttlSeconds =>
      some (store.update label.id fun entry =>
        entry.refreshed newRefreshFingerprint ttlSeconds label.time)
    | .revoke => some (store.update label.id HeldSession.revoked)
    | .expireIfDue =>
      some (store.update label.id fun entry => entry.expiredIfDue label.time)

def Step (store : SessionStore) (label : SessionLabel) (after : SessionStore) : Prop :=
  store.next label = some after

end SessionStore

/-- What has ended stays so: a session that was not valid at some moment, and an external one that
was refused. No session has a fingerprint twice. -/
structure EndsForGood (store : SessionStore) : Prop where
  ended : ∀ entry ∈ store.sessions, entry.ended = true → ∀ t, store.now ≤ t →
    entry.session.isValidAt t = false
  refused : ∀ externalRef ∈ store.refused, ∀ entry, store.Latest externalRef entry →
    ∀ t, store.now ≤ t → entry.session.isValidAt t = false
  fingerprints : ∀ entry ∈ store.sessions, entry.fingerprints.Nodup

/-- What is asked of a call: a session is refreshed while it is valid and with a fingerprint that
it has not had, a refused external ref is not established again, and a mirror is refused when none
of the same moment is valid. -/
def CallInOrder (store : SessionStore) (id : UniqueEntityId) : SessionCall → Prop
  | .establish principal input =>
    Establishable principal input store.now →
      ∀ externalRef ∈ input.externalRef, trim externalRef ∉ store.refused
  | .federate principal found externalRef _ =>
    ∀ entry ∈ found.bind store.findById, isBlank externalRef = false →
      principal = some entry.session.principalRef → entry.session.isValidAt store.now = false →
        ∀ other ∈ store.sessions, store.Latest (trim externalRef) other →
          other.session.isValidAt store.now = false
  | .refresh newRefreshFingerprint ttlSeconds =>
    ∀ entry ∈ store.sessions, entry.session.id = id →
      Refreshable entry.session newRefreshFingerprint ttlSeconds store.now →
        entry.session.isValidAt store.now = true ∧
          trim newRefreshFingerprint ∉ entry.fingerprints
  | .revoke => True
  | .expireIfDue => True

instance (store : SessionStore) (id : UniqueEntityId) :
    (call : SessionCall) → Decidable (CallInOrder store id call) := by
  intro call
  unfold CallInOrder
  split <;> infer_instance

/-- The store is the one at the moment of the call. -/
def SessionInOrder (store : SessionStore) (label : SessionLabel) : Prop :=
  CallInOrder (store.advance label.time) label.id label.call

instance (store : SessionStore) (label : SessionLabel) : Decidable (SessionInOrder store label) :=
  inferInstanceAs (Decidable (CallInOrder _ _ _))

/-- What the stored sessions and the refusals keep. -/
structure StoreStanding (store : SessionStore) : Prop where
  ended : ∀ entry ∈ store.sessions, entry.ended = true → entry.session.isValidAt store.now = false
  fingerprints : ∀ entry ∈ store.sessions, entry.fingerprints.Nodup
  dated : ∀ entry ∈ store.sessions, entry.session.establishedAt ≤ store.now
  mirrored : ∀ externalRef ∈ store.refused, ∃ entry ∈ store.sessions,
    entry.session.externalRef = some externalRef
  refused : ∀ externalRef ∈ store.refused, ∀ entry, store.Latest externalRef entry →
    entry.session.isValidAt store.now = false

/-- A change of the sessions that leaves alone what they mirror and when they began. -/
structure Preserves (store : SessionStore) (g : HeldSession → HeldSession) : Prop where
  externalRef : ∀ entry, (g entry).session.externalRef = entry.session.externalRef
  establishedAt : ∀ entry, (g entry).session.establishedAt = entry.session.establishedAt
  ended : ∀ entry ∈ store.sessions, (g entry).ended = entry.ended
  invalid : ∀ entry ∈ store.sessions, entry.session.isValidAt store.now = false →
    (g entry).session.isValidAt store.now = false
  fingerprints : ∀ entry ∈ store.sessions, entry.fingerprints.Nodup →
    (g entry).fingerprints.Nodup

namespace Preserves

variable {store : SessionStore} {id : UniqueEntityId} {change : HeldSession → HeldSession}

theorem only (href : ∀ entry, (change entry).session.externalRef = entry.session.externalRef)
    (hdate : ∀ entry, (change entry).session.establishedAt = entry.session.establishedAt)
    (hended : ∀ entry, (change entry).ended = entry.ended)
    (h : ∀ entry ∈ store.sessions, entry.session.id = id →
      (entry.session.isValidAt store.now = false →
        (change entry).session.isValidAt store.now = false) ∧
      (entry.fingerprints.Nodup → (change entry).fingerprints.Nodup)) :
    Preserves store fun entry => if entry.session.id = id then change entry else entry := by
  constructor
  · intro entry
    split
    · exact href entry
    · rfl
  · intro entry
    split
    · exact hdate entry
    · rfl
  · intro entry _
    split
    · exact hended entry
    · rfl
  · intro entry hentry
    split
    · rename_i hid
      exact (h entry hentry hid).1
    · exact fun hinvalid => hinvalid
  · intro entry hentry
    split
    · rename_i hid
      exact (h entry hentry hid).2
    · exact fun hnodup => hnodup

theorem refreshed {newRefreshFingerprint : String} {ttlSeconds : ℚ}
    (h : ∀ entry ∈ store.sessions, entry.session.id = id →
      Refreshable entry.session newRefreshFingerprint ttlSeconds store.now →
        entry.session.isValidAt store.now = true ∧
          trim newRefreshFingerprint ∉ entry.fingerprints) :
    Preserves store fun entry => if entry.session.id = id then
      entry.refreshed newRefreshFingerprint ttlSeconds store.now else entry := by
  have hsame (entry : HeldSession) :
      (entry.refreshed newRefreshFingerprint ttlSeconds store.now).session.externalRef =
          entry.session.externalRef ∧
        (entry.refreshed newRefreshFingerprint ttlSeconds store.now).session.establishedAt =
          entry.session.establishedAt ∧
        (entry.refreshed newRefreshFingerprint ttlSeconds store.now).ended = entry.ended := by
    by_cases hchecks : Refreshable entry.session newRefreshFingerprint ttlSeconds store.now
    · rw [HeldSession.refreshed_of hchecks]
      exact ⟨rfl, rfl, rfl⟩
    · rw [HeldSession.refreshed_of_not hchecks]
      exact ⟨rfl, rfl, rfl⟩
  refine only (fun entry => (hsame entry).1) (fun entry => (hsame entry).2.1)
    (fun entry => (hsame entry).2.2) ?_
  intro entry hentry hid
  by_cases hchecks : Refreshable entry.session newRefreshFingerprint ttlSeconds store.now
  · obtain ⟨hvalid, hnew⟩ := h entry hentry hid hchecks
    rw [HeldSession.refreshed_of hchecks]
    refine ⟨fun hinvalid => ?_, fun hnodup => ?_⟩
    · rw [hvalid] at hinvalid
      cases hinvalid
    · exact List.nodup_append'.mpr ⟨hnodup, List.nodup_singleton _, by simpa using hnew⟩
  · rw [HeldSession.refreshed_of_not hchecks]
    exact ⟨fun hinvalid => hinvalid, fun hnodup => hnodup⟩

theorem revoked :
    Preserves store fun entry => if entry.session.id = id then entry.revoked else entry :=
  only (fun _ => HeldSession.revoked_kept.1) (fun _ => HeldSession.revoked_kept.2) (fun _ => rfl)
    fun _ _ _ => ⟨fun _ => revoke_isValidAt, fun hnodup => hnodup⟩

theorem expiredIfDue {now : ℤ} :
    Preserves store fun entry =>
      if entry.session.id = id then entry.expiredIfDue now else entry := by
  have hcases (entry : HeldSession) : entry.expiredIfDue now = entry ∨
      entry.expiredIfDue now =
        { entry with session := { entry.session with status := .expired } } := by
    unfold HeldSession.expiredIfDue
    rcases expireIfDue_cases entry.session now with hsame | hexpired
    · exact .inl (by rw [hsame])
    · exact .inr (by rw [hexpired])
  refine only (fun entry => ?_) (fun entry => ?_) (fun _ => rfl) fun entry _ _ =>
    ⟨fun hinvalid => ?_, fun hnodup => hnodup⟩
  · rcases hcases entry with h | h <;> rw [h]
  · rcases hcases entry with h | h <;> rw [h]
  · rcases hcases entry with h | h
    · rw [h]
      exact hinvalid
    · rw [h]
      rfl

end Preserves

namespace StoreStanding

variable {store after : SessionStore} {label : SessionLabel}

variable {ref : String} {input : EstablishSessionInput} {principal : Option String}
  {found : Option UniqueEntityId}

theorem latest_map (g : HeldSession → HeldSession) {x : HeldSession}
    (href : ∀ entry, (g entry).session.externalRef = entry.session.externalRef)
    (hdate : ∀ entry, (g entry).session.establishedAt = entry.session.establishedAt)
    (h : (store.map g).Latest ref x) : ∃ entry, store.Latest ref entry ∧ g entry = x := by
  obtain ⟨hx, hxref, hlast⟩ := h
  obtain ⟨entry, hentry, rfl⟩ := List.mem_map.mp hx
  refine ⟨entry, ⟨hentry, by rw [← href, hxref], ?_⟩, rfl⟩
  intro other hother hotherRef
  have hle := hlast (g other) (List.mem_map_of_mem hother) (by rw [href, hotherRef])
  rw [hdate, hdate] at hle
  exact hle

theorem map {g : HeldSession → HeldSession} (h : StoreStanding store) (hg : Preserves store g) :
    StoreStanding (store.map g) := by
  constructor
  · intro x hx hended
    obtain ⟨entry, hentry, rfl⟩ := List.mem_map.mp hx
    rw [hg.ended entry hentry] at hended
    exact hg.invalid entry hentry (h.ended entry hentry hended)
  · intro x hx
    obtain ⟨entry, hentry, rfl⟩ := List.mem_map.mp hx
    exact hg.fingerprints entry hentry (h.fingerprints entry hentry)
  · intro x hx
    obtain ⟨entry, hentry, rfl⟩ := List.mem_map.mp hx
    rw [hg.establishedAt]
    exact h.dated entry hentry
  · intro ref href
    obtain ⟨entry, hentry, hmirror⟩ := h.mirrored ref href
    exact ⟨g entry, List.mem_map_of_mem hentry, by rw [hg.externalRef, hmirror]⟩
  · intro ref href x hx
    obtain ⟨entry, hlatest, rfl⟩ := latest_map g hg.externalRef hg.establishedAt hx
    exact hg.invalid entry hlatest.1 (h.refused ref href entry hlatest)

variable {time : ℤ} {id : UniqueEntityId} {existing : Option HeldSession} {externalRef : String}

theorem advance (h : StoreStanding store) (hle : store.now ≤ time) :
    StoreStanding (store.advance time) := by
  have hlater (session : Session) (hinvalid : session.isValidAt store.now = false) :
      session.isValidAt time = false := by
    rw [Bool.eq_false_iff] at hinvalid ⊢
    exact fun hvalid => hinvalid (Session.isValidAt_mono hle hvalid)
  constructor
  · intro x hx hended
    obtain ⟨entry, hentry, rfl⟩ := List.mem_map.mp hx
    rcases Bool.or_eq_true _ _ ▸ hended with hbefore | hnow
    · exact hlater _ (h.ended entry hentry hbefore)
    · exact Bool.not_eq_true' _ ▸ hnow
  · intro x hx
    obtain ⟨entry, hentry, rfl⟩ := List.mem_map.mp hx
    exact h.fingerprints entry hentry
  · intro x hx
    obtain ⟨entry, hentry, rfl⟩ := List.mem_map.mp hx
    exact (h.dated entry hentry).trans hle
  · intro ref href
    obtain ⟨entry, hentry, hmirror⟩ := h.mirrored ref href
    exact ⟨_, List.mem_map_of_mem hentry, hmirror⟩
  · intro ref href x hx
    obtain ⟨entry, hlatest, rfl⟩ :=
      latest_map (HeldSession.noticed time) (fun _ => rfl) (fun _ => rfl) hx
    exact hlater _ (h.refused ref href entry hlatest)

theorem update {change : HeldSession → HeldSession} (h : StoreStanding store)
    (hg : Preserves store fun entry => if entry.session.id = id then change entry else entry) :
    StoreStanding (store.update id change) :=
  h.map hg

theorem insert {session : Session} (h : StoreStanding store)
    (hdated : session.establishedAt ≤ store.now)
    (href : ∀ externalRef ∈ session.externalRef, externalRef ∉ store.refused) :
    StoreStanding (store.insert session) := by
  have hmem {x : HeldSession} (hx : x ∈ (store.insert session).sessions) :
      x ∈ store.sessions ∨ x = ⟨session, [session.refreshFingerprint], false⟩ := by
    simpa [SessionStore.insert] using hx
  constructor
  · intro x hx hended
    rcases hmem hx with hold | rfl
    · exact h.ended x hold hended
    · cases hended
  · intro x hx
    rcases hmem hx with hold | rfl
    · exact h.fingerprints x hold
    · exact List.nodup_singleton _
  · intro x hx
    rcases hmem hx with hold | rfl
    · exact h.dated x hold
    · exact hdated
  · intro ref hrefused
    obtain ⟨entry, hentry, hmirror⟩ := h.mirrored ref hrefused
    exact ⟨entry, List.mem_append_left _ hentry, hmirror⟩
  · intro ref hrefused x ⟨hx, hxref, hlast⟩
    rcases hmem hx with hold | rfl
    · exact h.refused ref hrefused x
        ⟨hold, hxref, fun other hother => hlast other (List.mem_append_left _ hother)⟩
    · exact absurd hrefused (href ref hxref)

theorem establish (h : StoreStanding store) (href : Establishable principal input store.now →
      ∀ externalRef ∈ input.externalRef, trim externalRef ∉ store.refused) :
    StoreStanding (store.establish id principal input) := by
  unfold SessionStore.establish
  split
  · rename_i session hsession
    obtain ⟨hchecks, hfresh⟩ := establishSession_ok hsession
    refine h.insert hfresh.establishedAt.le ?_
    intro externalRef hmirror
    rw [hfresh.externalRef] at hmirror
    obtain ⟨given, hgiven, rfl⟩ := Option.map_eq_some_iff.mp hmirror
    exact href hchecks given hgiven
  · exact h

theorem federated (h : StoreStanding store) (hnone : existing = none →
      ∀ entry ∈ store.sessions, entry.session.externalRef ≠ some (trim externalRef))
    (hsome : ∀ entry ∈ existing, store.Latest (trim externalRef) entry)
    (hended : ∀ entry ∈ existing, ∀ failure,
      federate principal externalRef (some entry.session) store.now = .ended failure →
        ∀ other ∈ store.sessions, store.Latest (trim externalRef) other →
          other.session.isValidAt store.now = false) :
    StoreStanding (store.federated id principal externalRef input existing) := by
  unfold SessionStore.federated
  split
  · exact h
  · exact h
  · rename_i failure hfederate
    obtain ⟨-, mirror, hmirror, -⟩ := federate_ended hfederate
    obtain ⟨entry, rfl, rfl⟩ := Option.map_eq_some_iff.mp hmirror
    refine ⟨h.ended, h.fingerprints, h.dated, ?_, ?_⟩
    · intro ref href
      rcases List.mem_append.mp href with hold | hnew
      · exact h.mirrored ref hold
      · obtain rfl := List.mem_singleton.mp hnew
        obtain ⟨hmem, hentryRef, -⟩ := hsome entry rfl
        exact ⟨entry, hmem, hentryRef⟩
    · intro ref href other hlatest
      rcases List.mem_append.mp href with hold | hnew
      · exact h.refused ref hold other hlatest
      · obtain rfl := List.mem_singleton.mp hnew
        exact hended entry rfl failure hfederate other hlatest.1 hlatest
  · rename_i normalized hfederate
    obtain ⟨hexisting, rfl⟩ := federate_firstSight hfederate
    apply h.establish
    intro _ ref href hrefused
    obtain rfl := Option.some.inj href
    obtain ⟨entry, hentry, hmirror⟩ := h.mirrored _ hrefused
    rw [trim_trim] at hmirror
    exact hnone (by simpa using hexisting) entry hentry hmirror

theorem answer_some {entry : HeldSession} (h : store.answer ref found = some (some entry)) :
    found.bind store.findById = some entry ∧ store.Latest ref entry := by
  unfold SessionStore.answer at h
  split at h
  · split at h <;> cases h
  · split at h
    · rename_i hfound
      split at h
      · rename_i hlatest
        cases h
        exact ⟨hfound, hlatest⟩
      · cases h
    · cases h

theorem answer_none (h : store.answer ref found = some none) :
    ∀ entry ∈ store.sessions, entry.session.externalRef ≠ some ref := by
  unfold SessionStore.answer at h
  split at h
  · split at h
    · rename_i hnone
      exact hnone
    · cases h
  · split at h
    · split at h <;> cases h
    · cases h

theorem endsForGood (h : StoreStanding store) : EndsForGood store := by
  have hlater {session : Session} (hinvalid : session.isValidAt store.now = false) {t : ℤ}
      (hle : store.now ≤ t) : session.isValidAt t = false := by
    rw [Bool.eq_false_iff] at hinvalid ⊢
    exact fun hvalid => hinvalid (Session.isValidAt_mono hle hvalid)
  exact ⟨fun entry hentry hended _ hle => hlater (h.ended entry hentry hended) hle,
    fun ref href entry hlatest _ hle => hlater (h.refused ref href entry hlatest) hle,
    h.fingerprints⟩

theorem establish_broken (h : StoreStanding store)
    (horder : ¬ CallInOrder store id (.establish principal input)) :
    ¬ EndsForGood (store.establish id principal input) := by
  intro hgood
  obtain ⟨hchecks, hrefs⟩ := Classical.not_imp.mp horder
  push Not at hrefs
  obtain ⟨externalRef, href, hrefused⟩ := hrefs
  obtain ⟨session, hsession⟩ := exists_established id hchecks
  obtain ⟨-, hfresh⟩ := establishSession_ok hsession
  have hafter : store.establish id principal input = store.insert session := by
    simp only [SessionStore.establish, hsession]
  rw [hafter] at hgood
  have hlatest : (store.insert session).Latest (trim externalRef)
      ⟨session, [session.refreshFingerprint], false⟩ := by
    refine ⟨List.mem_append_right _ (List.mem_singleton_self _), ?_, ?_⟩
    · rw [hfresh.externalRef, Option.mem_def.mp href]
      rfl
    · intro other hother _
      change other.session.establishedAt ≤ session.establishedAt
      rw [hfresh.establishedAt]
      rcases List.mem_append.mp hother with hold | hnew
      · exact h.dated other hold
      · obtain rfl := List.mem_singleton.mp hnew
        exact hfresh.establishedAt.le
  have hinvalid := hgood.refused _ hrefused _ hlatest store.now le_rfl
  rw [hfresh.isValidAt hchecks.lasts] at hinvalid
  cases hinvalid

theorem federated_broken (hexisting : store.answer (trim externalRef) found = some existing)
    (horder : ¬ CallInOrder store id (.federate principal found externalRef input)) :
    ¬ EndsForGood (store.federated id principal externalRef input existing) := by
  intro hgood
  rw [CallInOrder] at horder
  push Not at horder
  obtain ⟨entry, hentry, hgiven, rfl, hinvalid, other, -, hlatest, hvalid⟩ := horder
  have hsome : existing = some entry := by
    cases existing with
    | none =>
      cases found with
      | none => cases hentry
      | some found =>
        have hfound : store.findById found = some entry := hentry
        rw [SessionStore.answer, hfound] at hexisting
        simp only at hexisting
        split at hexisting <;> cases hexisting
    | some answered =>
      have hanswered := (answer_some hexisting).1
      rw [Option.mem_def.mp hentry] at hanswered
      rw [hanswered]
  obtain ⟨failure, hfederate⟩ := federate_invalid hgiven hinvalid
  subst hsome
  simp only [SessionStore.federated, Option.map_some, hfederate] at hgood
  exact hvalid (hgood.refused (trim externalRef)
    (List.mem_append_right _ (List.mem_singleton_self _)) other hlatest store.now le_rfl)

theorem refresh_broken {newRefreshFingerprint : String} {ttlSeconds : ℚ}
    (horder : ¬ CallInOrder (store.advance time) id (.refresh newRefreshFingerprint ttlSeconds)) :
    ¬ EndsForGood ((store.advance time).update id fun entry =>
      entry.refreshed newRefreshFingerprint ttlSeconds time) := by
  intro hgood
  rw [CallInOrder] at horder
  push Not at horder
  obtain ⟨entry, hentry, hid, hchecks, hbad⟩ := horder
  have hmem : entry.refreshed newRefreshFingerprint ttlSeconds time ∈
      ((store.advance time).update id fun entry =>
        entry.refreshed newRefreshFingerprint ttlSeconds time).sessions :=
    List.mem_map.mpr ⟨entry, hentry, if_pos hid⟩
  have hchecks : Refreshable entry.session newRefreshFingerprint ttlSeconds time := hchecks
  rw [HeldSession.refreshed_of hchecks] at hmem
  by_cases hvalid : entry.session.isValidAt time = true
  · have hnodup := List.nodup_append'.mp (hgood.fingerprints _ hmem)
    exact hnodup.2.2 (hbad hvalid) (List.mem_singleton_self _)
  · have hended : entry.ended = true := by
      obtain ⟨before, -, rfl⟩ := List.mem_map.mp hentry
      have hbefore : before.session.isValidAt time = false := Bool.eq_false_iff.mpr hvalid
      simp [HeldSession.noticed, hbefore]
    have hinvalid := hgood.ended _ hmem hended time le_rfl
    have hactive := hchecks.active
    simp only [Session.isValidAt, hactive, hchecks.lasts] at hinvalid
    cases hinvalid

theorem turn (h : StoreStanding store) (hst : SessionStore.Step store label after) :
    (SessionInOrder store label → StoreStanding after) ∧
      (¬ SessionInOrder store label → ¬ EndsForGood after) := by
  obtain ⟨id, call, time⟩ := label
  rw [SessionStore.Step, SessionStore.next] at hst
  split at hst
  · cases hst
  rename_i hclock
  have hlater : StoreStanding (store.advance time) := h.advance (Int.not_lt.mp hclock)
  cases call with
  | establish principal input =>
    simp only at hst
    split at hst
    · cases hst
    · cases hst
      exact ⟨hlater.establish, hlater.establish_broken⟩
  | federate principal found externalRef input =>
    simp only at hst
    split at hst
    · cases hst
    obtain ⟨existing, hexisting, rfl⟩ := Option.map_eq_some_iff.mp hst
    refine ⟨fun horder => ?_, federated_broken hexisting⟩
    apply hlater.federated
    · rintro rfl
      exact answer_none hexisting
    · rintro entry ⟨⟩
      exact (answer_some hexisting).2
    · rintro entry ⟨⟩ failure hended
      obtain ⟨hgiven, _, ⟨⟩, hprincipal, hinvalid⟩ := federate_ended hended
      exact horder entry (answer_some hexisting).1 hgiven hprincipal hinvalid
  | refresh newRefreshFingerprint ttlSeconds =>
    cases hst
    exact ⟨fun horder => hlater.update (.refreshed horder), refresh_broken⟩
  | revoke =>
    cases hst
    exact ⟨fun _ => hlater.update .revoked, absurd trivial⟩
  | expireIfDue =>
    cases hst
    exact ⟨fun _ => hlater.update .expiredIfDue, absurd trivial⟩

end StoreStanding

/-- A store without sessions, where nothing has been refused yet. -/
structure Unused (store : SessionStore) : Prop where
  sessions : store.sessions = []
  refused : store.refused = []

theorem Unused.standing {store : SessionStore} (h : Unused store) : StoreStanding store := by
  constructor <;> simp [h.sessions, h.refused]

/-- What has ended stays so in every state of a run exactly when every call of it is in order. -/
theorem run_endsForGood_iff {store : SessionStore} {tr : List (SessionLabel × SessionStore)}
    (hs : Unused store) (hr : Run SessionStore.Step store tr) :
    Always EndsForGood store tr ↔ EveryStep SessionInOrder store tr :=
  always_iff_everyStep (I := StoreStanding) (G := SessionInOrder)
    (fun _ _ _ h hst => (h.turn hst).1) (fun _ h => h.endsForGood)
    (fun _ _ _ h hst => (h.turn hst).2) hs.standing hr

section Samples

private def loginId : UniqueEntityId := ⟨"session", by decide⟩

private def unusedStore : SessionStore := ⟨0, [], []⟩

private theorem unusedStore_unused : Unused unusedStore := ⟨rfl, rfl⟩

/-- A session of ten minutes that mirrors an upstream one. -/
private def login : EstablishSessionInput := ⟨"first", some "kratos-1", none, 600⟩

private def refreshes (fingerprint : String) (time : ℤ) : SessionLabel :=
  ⟨loginId, .refresh fingerprint 600, time⟩

private def established : SessionLabel := ⟨loginId, .establish (some "principal") login, 0⟩

/-- It is refreshed twice in time, revoked, and refused. -/
theorem run_endsForGood_iff_refreshed :
    let calls := [established, refreshes "second" 1000, refreshes "third" 2000,
      ⟨loginId, .revoke, 3000⟩,
      ⟨⟨"other", by decide⟩, .federate (some "principal") (some loginId) "kratos-1" login, 4000⟩]
    Always EndsForGood unusedStore (attempt SessionStore.next unusedStore calls) ∧
      EveryStep SessionInOrder unusedStore (attempt SessionStore.next unusedStore calls) := by
  intro calls
  have horder : EveryStep SessionInOrder unusedStore
      (attempt SessionStore.next unusedStore calls) := by
    decide +kernel
  exact ⟨(run_endsForGood_iff unusedStore_unused (run_attempt _ _ _)).mpr horder, horder⟩

/-- A session that ended at ten minutes is valid again after a refresh at eleven; and the third
fingerprint may be the first. -/
theorem endsForGood_fails :
    (¬ ∀ (store : SessionStore) (tr : List (SessionLabel × SessionStore)), Unused store →
      Run SessionStore.Step store tr → Always (fun store => ∀ entry ∈ store.sessions,
        entry.ended = true → entry.session.isValidAt store.now = false) store tr) ∧
    ¬ ∀ (store : SessionStore) (tr : List (SessionLabel × SessionStore)), Unused store →
      Run SessionStore.Step store tr → Always (fun store => ∀ entry ∈ store.sessions,
        entry.fingerprints.Nodup) store tr := by
  constructor
  · intro h
    have hlast := (h unusedStore _ unusedStore_unused (run_attempt _ _
      [established, refreshes "second" 660000])).last
    exact absurd hlast (by decide +kernel)
  · intro h
    have hlast := (h unusedStore _ unusedStore_unused (run_attempt _ _
      [established, refreshes "second" 1000, refreshes "first" 2000])).last
    exact absurd hlast (by decide +kernel)

end Samples

end Security
