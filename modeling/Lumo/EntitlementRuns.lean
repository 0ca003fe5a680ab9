import Lumo.Entitlement
import Lumo.LabelledRuns

/-! # Runs of the entitlement guard

Sequences of calls over one cache, each with collaborators that may throw anywhere, and with every
call remembered together with the state that it met. -/
namespace Entitlement

open LabelledRuns

inductive CallKind where
  | evaluate
  | ensure
  | enforce
  | can
  | simulate

def CallKind.mode : CallKind → Mode
  | evaluate => .enforced
  | ensure => .enforced
  | enforce => .enforced
  | can => .simulated
  | simulate => .simulated

structure Call where
  kind : CallKind
  request : EntitlementRequest
  target : EnforcementTarget
  collaborators : Collaborators

namespace Call

def mode (call : Call) : Mode := call.kind.mode

def after (call : Call) (s : GuardState) : GuardState :=
  match call.kind with
  | .evaluate => (evaluate call.collaborators call.target call.request s).1
  | .ensure => (ensure call.collaborators call.target call.request s).1
  | .enforce => (enforce call.collaborators call.target call.request s).1
  | .can => (can call.collaborators call.target call.request s).1
  | .simulate => (simulate call.collaborators call.target call.request s).1

/-- What the call comes to before the sinks are told. -/
def settled (call : Call) (s : GuardState) : Settled :=
  (settle call.mode call.collaborators call.target call.request s).2

end Call

structure Session where
  state : GuardState
  past : List (Call × GuardState)

def Session.next (s : Session) (call : Call) : Session :=
  ⟨call.after s.state, (call, s.state) :: s.past⟩

def Session.Step (s : Session) (call : Call) (u : Session) : Prop := s.next call = u

/-- Nothing is cached when a session begins. -/
structure Session.Fresh (s : Session) : Prop where
  past : s.past = []
  cache : ∀ cache, s.state.cache = some cache → cache.Holds fun _ _ => False

/-- The call decided anew on what its collaborators said, and they granted it. -/
structure Granted (call : Call) (s : GuardState) (d : EntitlementDecision) : Prop where
  enforced : call.mode = .enforced
  settled : call.settled s = ⟨d, false⟩
  port : ∃ raw, call.collaborators.check call.request = .ok raw ∧ raw.allowed = true ∧
    ∃ policy, resolvePolicy call.collaborators call.request (baseOf call.request raw) =
        .ok policy ∧
      policyPermits policy call.request.enforced = true
  quota : ∀ check resource, call.collaborators.quota = some check →
    call.request.resource = some resource →
      ∃ verdict, check ⟨call.request.tenant, resource, call.request.amount⟩ = .ok verdict ∧
        quotaBlocks verdict.state = false
  audited : ∀ record, call.collaborators.record = some record →
    auditEvent call.collaborators d call.request call.target ∈ (call.after s).trail ∧
      (auditEvent call.collaborators d call.request call.target).allow = true

def Remembered (past : List (Call × GuardState)) (request : EntitlementRequest)
    (d : EntitlementDecision) : Prop :=
  request.resource = none ∧ ∃ earlier ∈ past, Granted earlier.1 earlier.2 d ∧
    earlier.1.request.resource = none ∧ cacheKey earlier.1.request = cacheKey request ∧
      earlier.1.request.enforced = request.enforced

structure FailsClosed (s : Session) (call : Call) : Prop where
  resolves : call.mode = .enforced →
    ∃ d, (evaluate call.collaborators call.target call.request s.state).2 = .ok d
  granted : call.mode = .enforced → (call.settled s.state).decision.allowed = true →
    Granted call s.state (call.settled s.state).decision ∨
      Remembered s.past call.request (call.settled s.state).decision
  silent : call.mode = .simulated → (call.after s.state).trail = s.state.trail ∧
    ∀ P, (∀ cache, s.state.cache = some cache → cache.Holds P) →
      ∀ cache, (call.after s.state).cache = some cache → cache.Holds P
  gated : (call.after s.state).started = s.state.started ∨
    call.kind = .enforce ∧ (call.settled s.state).decision.allowed = true

/-- No sink throws that is told of an enforced decision. -/
def Quiet (call : Call) : Prop :=
  call.mode = .enforced → call.collaborators.metrics = .ok () ∧
    call.collaborators.telemetry = .ok () ∧ call.collaborators.onDecision = .ok ()

variable {c : Collaborators} {request : EntitlementRequest} {s : GuardState} {call : Call}

theorem emit_ok_iff : emit .enforced c = .ok () ↔
    c.metrics = .ok () ∧ c.telemetry = .ok () ∧ c.onDecision = .ok () := by
  cases hm : c.metrics with
  | error e => simp [emit, hm, bind, Except.bind]
  | ok m =>
    cases ht : c.telemetry with
    | error e | ok t => simp [emit, hm, ht, bind, Except.bind]

theorem resolves_iff (c : Collaborators) (target : EnforcementTarget) (request : EntitlementRequest)
    (s : GuardState) : (∃ d, (evaluate c target request s).2 = .ok d) ↔
      c.metrics = .ok () ∧ c.telemetry = .ok () ∧ c.onDecision = .ok () := by
  rw [← emit_ok_iff]
  cases hemit : emit .enforced c with
  | error e | ok u => simp [evaluate, run, hemit, Except.map]

theorem meter_allowed {base : EntitlementDecision} {policy : EntitlementPolicy}
    (h : (meter c request base policy).allowed = true) :
    ∀ check resource, c.quota = some check → request.resource = some resource →
      ∃ verdict, check ⟨request.tenant, resource, request.amount⟩ = .ok verdict ∧
        quotaBlocks verdict.state = false := by
  intro check resource hcheck hresource
  simp only [meter, hcheck, hresource] at h
  cases hverdict : check ⟨request.tenant, resource, request.amount⟩ with
  | error e =>
    simp only [hverdict, refusal] at h
    cases h
  | ok verdict =>
    refine ⟨verdict, rfl, ?_⟩
    by_contra hblocks
    rw [Bool.not_eq_false] at hblocks
    simp only [hverdict, hblocks, if_true, refusal] at h
    cases h

theorem decide_allowed {action : EnforcementAction} (h : (decide c request action).allowed = true) :
    (∃ raw, c.check request = .ok raw ∧ raw.allowed = true ∧
      ∃ policy, resolvePolicy c request (baseOf request raw) = .ok policy ∧
        policyPermits policy action = true) ∧
      ∀ check resource, c.quota = some check → request.resource = some resource →
        ∃ verdict, check ⟨request.tenant, resource, request.amount⟩ = .ok verdict ∧
          quotaBlocks verdict.state = false := by
  rw [decide] at h
  split at h
  · cases h
  · rename_i raw hraw
    dsimp only at h
    split at h
    · rename_i hdenied
      simp only [hdenied] at h
      cases h
    · rename_i hallowed
      split at h
      · cases h
      · rename_i policy hpolicy
        split at h
        · cases h
        · rename_i hpermits
          have hport : raw.allowed = true := by
            rw [← Bool.not_eq_false]
            exact hallowed
          rw [Bool.not_eq_false] at hpermits
          exact ⟨⟨raw, hraw, hport, policy, hpolicy, hpermits⟩, meter_allowed h⟩

theorem recordAudit_allowed {decision : EntitlementDecision} {target : EnforcementTarget}
    (h : (recordAudit c decision request target s).2.allowed = true) :
    (recordAudit c decision request target s).2 = decision ∧
      ∀ record, c.record = some record →
        auditEvent c decision request target ∈
          (recordAudit c decision request target s).1.trail := by
  cases hrecord : c.record with
  | none =>
    simp only [recordAudit, hrecord] at h ⊢
    exact ⟨trivial, by simp⟩
  | some record =>
    simp only [recordAudit, hrecord] at h ⊢
    cases hresult : record (auditEvent c decision request target) with
    | error e =>
      simp only [hresult, refusal] at h
      cases h
    | ok u =>
      simp only
      refine ⟨trivial, ?_⟩
      intro _ _
      exact List.mem_append_right _ (List.mem_singleton_self _)

theorem writeCache_trail (c : Collaborators) (request : EntitlementRequest)
    (decision : EntitlementDecision) (s : GuardState) :
    (writeCache c request decision s).trail = s.trail ∧
      (writeCache c request decision s).started = s.started := by
  rw [writeCache]
  split
  · split <;> exact ⟨rfl, rfl⟩
  · exact ⟨rfl, rfl⟩

theorem readCache_trail (c : Collaborators) (request : EntitlementRequest) (s : GuardState) :
    (readCache c request s).1.trail = s.trail ∧
      (readCache c request s).1.started = s.started := by
  rw [readCache]
  split
  · split <;> exact ⟨rfl, rfl⟩
  · exact ⟨rfl, rfl⟩

def Caches (P : String → EntitlementDecision → Prop) (s : GuardState) : Prop :=
  ∀ cache, s.cache = some cache → cache.Holds P

theorem Caches.read {P : String → EntitlementDecision → Prop} (h : Caches P s) (c : Collaborators)
    (request : EntitlementRequest) :
    Caches P (readCache c request s).1 ∧
      ∀ d, (readCache c request s).2 = some d →
        request.resource = none ∧ P (cacheKey request) d := by
  rw [readCache]
  split
  · rename_i cache hcache hresource
    obtain ⟨hheld, hfound⟩ := (h cache hcache).get c.reading (cacheKey request)
    split
    · rename_i cache' held hget
      rw [hget] at hheld hfound
      refine ⟨?_, ?_⟩
      · rintro _ ⟨⟩
        exact hheld
      · intro d hd
        exact ⟨hresource, hfound d (congrArg _ hd)⟩
    · rename_i cache' e hget
      rw [hget] at hheld
      refine ⟨?_, ?_⟩
      · rintro _ ⟨⟩
        exact hheld
      · rintro d ⟨⟩
  · refine ⟨h, ?_⟩
    rintro d ⟨⟩

theorem Caches.write {P : String → EntitlementDecision → Prop} (h : Caches P s) (c : Collaborators)
    {d : EntitlementDecision} (hd : request.resource = none → P (cacheKey request) d) :
    Caches P (writeCache c request d s) := by
  rw [writeCache]
  split
  · rename_i cache hcache hresource
    split
    · exact h
    · rintro _ ⟨⟩
      exact (h cache hcache).set c.writing (hd hresource)
  · exact h

theorem recordAudit_cache (c : Collaborators) (decision : EntitlementDecision)
    (request : EntitlementRequest) (target : EnforcementTarget) (s : GuardState) :
    (recordAudit c decision request target s).1.cache = s.cache ∧
      (recordAudit c decision request target s).1.started = s.started := by
  rw [recordAudit]
  split
  · exact ⟨rfl, rfl⟩
  · dsimp only
    split <;> exact ⟨rfl, rfl⟩

theorem after_settle (call : Call) (s : GuardState) :
    (call.after s).cache =
        (settle call.mode call.collaborators call.target call.request s).1.cache ∧
      (call.after s).trail =
        (settle call.mode call.collaborators call.target call.request s).1.trail := by
  obtain ⟨kind, request, target, c⟩ := call
  cases kind with
  | evaluate | ensure => exact ⟨rfl, rfl⟩
  | enforce =>
    simp only [Call.after, enforce]
    split
    · rename_i s' e hensure
      have hs := congrArg Prod.fst hensure
      exact ⟨(congrArg GuardState.cache hs).symm, (congrArg GuardState.trail hs).symm⟩
    · rename_i s' denial hensure
      have hs := congrArg Prod.fst hensure
      exact ⟨(congrArg GuardState.cache hs).symm, (congrArg GuardState.trail hs).symm⟩
    · rename_i s' d hensure
      have hs := congrArg Prod.fst hensure
      exact ⟨(congrArg GuardState.cache hs).symm, (congrArg GuardState.trail hs).symm⟩
  | can | simulate => exact ⟨rfl, rfl⟩

theorem settle_started (mode : Mode) (c : Collaborators) (target : EnforcementTarget)
    (request : EntitlementRequest) (s : GuardState) :
    (settle mode c target request s).1.started = s.started := by
  have hread := readCache_trail c request s
  rw [settle]
  split
  · rename_i s' held hheld
    rw [hheld] at hread
    exact hread.2
  · rename_i s' hnone
    rw [hnone] at hread
    cases mode with
    | simulated => exact hread.2
    | enforced =>
      let decided := stamp (decide c request request.enforced) request request.enforced
      have hrecorded := (recordAudit_cache c decided request target s').2
      have hwritten := (writeCache_trail c request (recordAudit c decided request target s').2
        (recordAudit c decided request target s').1).2
      exact (hwritten.trans hrecorded).trans hread.2

theorem after_started (call : Call) (s : GuardState) :
    (call.after s).started = s.started ∨
      call.kind = .enforce ∧ (call.settled s).decision.allowed = true := by
  obtain ⟨kind, request, target, c⟩ := call
  have hsettled := settle_started kind.mode c target request s
  cases kind with
  | evaluate | ensure => exact .inl hsettled
  | enforce =>
    simp only [Call.after, enforce]
    split
    · rename_i s' e hensure
      have hs := congrArg Prod.fst hensure
      exact .inl ((congrArg GuardState.started hs).symm.trans hsettled)
    · rename_i s' denial hensure
      have hs := congrArg Prod.fst hensure
      exact .inl ((congrArg GuardState.started hs).symm.trans hsettled)
    · rename_i s' d hensure
      refine .inr ⟨trivial, ?_⟩
      have hok := congrArg Prod.snd hensure
      simp only [ensure, evaluate, run] at hok
      cases hemit : emit .enforced c with
      | error e =>
        rw [hemit] at hok
        cases hok
      | ok u =>
        simp only [hemit, Except.map, Except.ok.injEq] at hok
        split at hok
        · rename_i hallowed
          exact hallowed
        · cases hok
  | can | simulate => exact .inl hsettled

def Sourced (past : List (Call × GuardState)) (k : String) (d : EntitlementDecision) : Prop :=
  d.allowed = true → ∃ earlier ∈ past, Granted earlier.1 earlier.2 d ∧
    earlier.1.request.resource = none ∧ cacheKey earlier.1.request = k

def Session.Kept (s : Session) : Prop := Caches (Sourced s.past) s.state

theorem granted_anew {s' : GuardState} (hmode : call.mode = .enforced)
    (hread : readCache call.collaborators call.request s = (s', none))
    (hallowed : (call.settled s).decision.allowed = true) :
    Granted call s (call.settled s).decision := by
  have hsettle : settle call.mode call.collaborators call.target call.request s =
      ((decideAnew .enforced call.collaborators call.target call.request s').1,
        ⟨(decideAnew .enforced call.collaborators call.target call.request s').2, false⟩) := by
    rw [settle, hread, hmode]
  have hsettled : call.settled s =
      ⟨(decideAnew .enforced call.collaborators call.target call.request s').2, false⟩ := by
    rw [Call.settled, hsettle]
  rw [hsettled] at hallowed ⊢
  obtain ⟨hdecided, haudited⟩ := recordAudit_allowed hallowed
  have hdecision : (decideAnew .enforced call.collaborators call.target call.request s').2 =
      stamp (decide call.collaborators call.request call.request.enforced) call.request
        call.request.enforced := hdecided
  rw [hdecision] at hsettled hallowed ⊢
  obtain ⟨hport, hquota⟩ := decide_allowed hallowed
  refine ⟨hmode, hsettled, hport, hquota, ?_⟩
  intro record hrecord
  refine ⟨?_, hallowed⟩
  rw [(after_settle call s).2, hsettle]
  change _ ∈ (writeCache _ _ _ _).trail
  rw [(writeCache_trail _ _ _ _).1]
  exact haudited record hrecord

theorem cacheKey_last (request : EntitlementRequest) :
    (cacheKey request).toList.getLast? = request.enforced.text.toList.getLast? := by
  have htext : request.enforced.text.toList ≠ [] := by cases request.enforced <;> decide
  rw [cacheKey, String.toList_append, List.getLast?_append_of_ne_nil _ htext]

theorem enforced_of_cacheKey {r r' : EntitlementRequest} (h : cacheKey r = cacheKey r') :
    r.enforced = r'.enforced := by
  have hlast := cacheKey_last r
  rw [h, cacheKey_last] at hlast
  revert hlast
  cases r.enforced <;> cases r'.enforced <;> decide

theorem Sourced.mono {past : List (Call × GuardState)} {k : String} {d : EntitlementDecision}
    (h : Sourced past k d) (x : Call × GuardState) : Sourced (x :: past) k d := by
  intro hallowed
  obtain ⟨earlier, hin, hgranted⟩ := h hallowed
  exact ⟨earlier, List.mem_cons_of_mem x hin, hgranted⟩

theorem Caches.congr {P : String → EntitlementDecision → Prop} {s' : GuardState} (h : Caches P s)
    (hcache : s'.cache = s.cache) : Caches P s' :=
  fun cache hs => h cache (hcache ▸ hs)

theorem granted_call {s : Session} (h : s.Kept) (hmode : call.mode = .enforced)
    (hallowed : (call.settled s.state).decision.allowed = true) :
    Granted call s.state (call.settled s.state).decision ∨
      Remembered s.past call.request (call.settled s.state).decision := by
  rcases hread : readCache call.collaborators call.request s.state with ⟨s', held⟩
  cases held with
  | none => exact .inl (granted_anew hmode hread hallowed)
  | some d =>
    obtain ⟨-, hfound⟩ := Caches.read h call.collaborators call.request
    rw [hread] at hfound
    obtain ⟨hresource, hsourced⟩ := hfound d rfl
    have hsettled : call.settled s.state = ⟨d, true⟩ := by rw [Call.settled, settle, hread]
    rw [hsettled] at hallowed ⊢
    obtain ⟨earlier, hin, hgranted, hunmetered, hkey⟩ := hsourced hallowed
    exact .inr ⟨hresource, earlier, hin, hgranted, hunmetered, hkey, enforced_of_cacheKey hkey⟩

theorem silent_call (hmode : call.mode = .simulated) (s : GuardState) :
    (call.after s).trail = s.trail ∧ ∀ P, Caches P s → Caches P (call.after s) := by
  obtain ⟨hcache, htrail⟩ := after_settle call s
  have hsettle : (settle call.mode call.collaborators call.target call.request s).1 =
      (readCache call.collaborators call.request s).1 := by
    rw [settle, hmode]
    split
    · rename_i s' held hread
      rw [hread]
    · rename_i s' hread
      rw [hread]
      rfl
  rw [hsettle] at hcache htrail
  refine ⟨htrail.trans (readCache_trail _ _ _).1, ?_⟩
  intro P hp
  exact (hp.read call.collaborators call.request).1.congr hcache

theorem kept_next {s : Session} (h : s.Kept) (call : Call) : (s.next call).Kept := by
  have hlater : Caches (Sourced ((call, s.state) :: s.past)) s.state :=
    fun cache hcache => (h cache hcache).mono fun k d hd => hd.mono (call, s.state)
  cases hmode : call.mode with
  | simulated => exact (silent_call hmode s.state).2 _ hlater
  | enforced =>
    obtain ⟨hread, hfound⟩ := hlater.read call.collaborators call.request
    apply Caches.congr (s := (settle call.mode call.collaborators call.target call.request
      s.state).1) _ (after_settle call s.state).1
    rcases hlook : readCache call.collaborators call.request s.state with ⟨s', held⟩
    rw [hlook] at hread
    cases held with
    | some d =>
      rw [settle, hlook]
      exact hread
    | none =>
      have hsettle : (settle call.mode call.collaborators call.target call.request s.state) =
          ((decideAnew .enforced call.collaborators call.target call.request s').1,
            ⟨(decideAnew .enforced call.collaborators call.target call.request s').2, false⟩) := by
        rw [settle, hlook, hmode]
      have hsettled : call.settled s.state =
          ⟨(decideAnew .enforced call.collaborators call.target call.request s').2, false⟩ := by
        rw [Call.settled, hsettle]
      rw [hsettle]
      apply Caches.write
      · exact hread.congr (recordAudit_cache _ _ _ _ _).1
      · intro hresource hallowed
        have hgranted := granted_anew hmode hlook (by rw [hsettled]; exact hallowed)
        rw [hsettled] at hgranted
        exact ⟨_, List.mem_cons_self, hgranted, hresource, rfl⟩

theorem failsClosed_iff {s : Session} (h : s.Kept) (call : Call) :
    FailsClosed s call ↔ Quiet call := by
  constructor
  · intro hclosed hmode
    exact (resolves_iff _ _ _ _).mp (hclosed.resolves hmode)
  · intro hquiet
    refine ⟨?_, granted_call h, ?_, after_started call s.state⟩
    · intro hmode
      exact (resolves_iff _ _ _ _).mpr (hquiet hmode)
    · intro hmode
      exact silent_call hmode s.state

/-- Every call of a run fails closed exactly when no sink throws that is told of an enforced
decision. -/
theorem fails_closed_iff {s : Session} (hs : s.Fresh) {tr : List (Call × Session)}
    (hr : Run Session.Step s tr) :
    EveryStep FailsClosed s tr ↔ EveryStep (fun _ call => Quiet call) s tr := by
  have hkept : s.Kept := by
    intro cache hcache
    refine (hs.cache cache hcache).mono ?_
    rintro k d ⟨⟩
  apply everyStep_congr (I := Session.Kept) ?_ ?_ hkept hr
  · rintro s call _ hs rfl
    exact kept_next hs call
  · intro s call hs
    exact failsClosed_iff hs call

/-- Everything is entitled and audited; only the telemetry may fail. -/
def entitled (telemetry : Except Unit Unit) : Collaborators where
  check := fun asked => .ok { refusal asked "subscription" .allow "" with
    allowed := true, reason := none }
  resolve := none
  quota := none
  record := some fun _ => .ok ()
  now := 0
  reading := .fine 0
  writing := .fine 0
  metrics := .ok ()
  telemetry := telemetry
  onDecision := .ok ()

def askFor (kind : CallKind) (telemetry : Except Unit Unit) : Call where
  kind := kind
  request := ⟨"tenant-1", "loyalty", none, none, none, none, none, none⟩
  target := .command
  collaborators := entitled telemetry

def newSession : Session := ⟨⟨some ⟨30000, fun _ => none, none⟩, [], []⟩, []⟩

theorem fresh_newSession : newSession.Fresh where
  past := rfl
  cache := by
    rintro _ ⟨⟩
    refine ⟨?_, ?_⟩
    · rintro k e ⟨⟩
    · rintro f ⟨⟩

/-- A command that is granted, and an evaluation that finds the grant in the cache. -/
theorem fails_closed_cached : EveryStep FailsClosed newSession (follow Session.next newSession
    [askFor .enforce (.ok ()), askFor .evaluate (.ok ())]) := by
  apply (fails_closed_iff fresh_newSession (run_follow (fun _ _ => rfl) _ _)).mpr
  exact ⟨fun _ => ⟨rfl, rfl, rfl⟩, fun _ => ⟨rfl, rfl, rfl⟩, trivial⟩

/-- The grant is on the trail when the telemetry throws, and the evaluation throws with it. -/
theorem evaluation_throws :
    (evaluate (entitled (.error ())) .command (askFor .evaluate (.error ())).request
        newSession.state).2 = .error () ∧
      ((askFor .evaluate (.error ())).after newSession.state).trail.map (·.allow) = [true] ∧
      ¬ EveryStep FailsClosed newSession
        (follow Session.next newSession [askFor .evaluate (.error ())]) := by
  refine ⟨rfl, by decide +kernel, ?_⟩
  rintro ⟨hclosed, -⟩
  obtain ⟨d, hd⟩ := hclosed.resolves rfl
  cases hd

end Entitlement
