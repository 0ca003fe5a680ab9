import Lumo.Entitlement
import Lumo.SharedEvaluations

/-! # Batches of entitlement requests

`evaluateMany` and `simulateMany`: the promise of the first request of a key answers every request
of the key. -/
namespace Entitlement

open LabelledRuns Interleavings SharedEvaluations

structure Ports where
  check : EntitlementRequest → Except Unit EntitlementDecision
  resolve : Option (EntitlementRequest → Except Unit EntitlementPolicy)
  quota : Option (QuotaRequest → Except Unit QuotaVerdict)

/-- With an audit trail that accepts every record, or with none, and sinks that throw nothing. -/
def Ports.collaborators (p : Ports) (audited : Bool) (now : ℤ) : Collaborators where
  check := p.check
  resolve := p.resolve
  quota := p.quota
  record := if audited then some fun _ => .ok () else none
  now := now
  reading := .fine now
  writing := .fine now
  metrics := .ok ()
  telemetry := .ok ()
  onDecision := .ok ()

def evaluateKey (request : EntitlementRequest) : String :=
  request.tenant ++ ":" ++ request.featureKey ++ ":" ++ request.enforced.text

def simulateKey (request : EntitlementRequest) : String :=
  evaluateKey request ++ ":" ++ request.resource.getD ""

/-- The pipeline up to the cache, and from there on. -/
def evaluation (mode : Mode) (c : Collaborators) (target : EnforcementTarget) :
    Evaluation EntitlementRequest GuardState EntitlementDecision where
  look := readCache c
  finish := decideAnew mode c target

structure Agrees (d single : EntitlementDecision) : Prop where
  allowed : d.allowed = single.allowed
  source : d.source = single.source
  policy : d.policy = single.policy
  quota : d.quota = single.quota

section

variable (mode : Mode) (p : Ports) (audited : Bool) (now : ℤ) (target : EnforcementTarget)

theorem run_evaluation (request : EntitlementRequest) (s : GuardState) :
    (run mode (p.collaborators audited now) target request s).2.map (·.decision) =
      .ok ((evaluation mode (p.collaborators audited now) target).evaluate request s).2 := by
  have hemit : emit mode (p.collaborators audited now) = .ok () := by cases mode <;> rfl
  rcases hread : readCache (p.collaborators audited now) request s with ⟨s', held⟩
  cases held <;> simp [run, settle, hread, hemit, Evaluation.evaluate, evaluation, Except.map]

theorem readCache_answer (request : EntitlementRequest) (s : GuardState) :
    (readCache (p.collaborators audited now) request s).2 =
      match s.cache, request.resource with
      | some cache, none => cache.serves now (cacheKey request)
      | _, _ => none := by
  have haccess : (p.collaborators audited now).reading = .fine now := rfl
  cases hcache : s.cache with
  | none => simp [readCache, hcache]
  | some cache =>
    cases hresource : request.resource with
    | some resource => simp [readCache, hcache, hresource]
    | none =>
      have hserved := TieredCache.get_fine now (cacheKey request) cache
      rcases hget : cache.get (.fine now) (cacheKey request) with ⟨cache', held⟩
      rw [hget] at hserved
      cases hserved
      simp [readCache, hcache, hresource, haccess, hget]

theorem readCache_congr {request : EntitlementRequest} {s s' : GuardState}
    (h : s'.cache.bind (·.serves now (cacheKey request)) =
      s.cache.bind (·.serves now (cacheKey request))) :
    (readCache (p.collaborators audited now) request s').2 =
      (readCache (p.collaborators audited now) request s).2 := by
  rw [readCache_answer, readCache_answer]
  cases request.resource with
  | some resource => cases s.cache <;> cases s'.cache <;> rfl
  | none =>
    cases hs : s.cache <;> cases hs' : s'.cache <;> rw [hs, hs'] at h <;> exact h

theorem readCache_served (request other : EntitlementRequest) (s : GuardState) :
    (readCache (p.collaborators audited now) request s).1.cache.bind
        (·.serves now (cacheKey other)) =
      s.cache.bind (·.serves now (cacheKey other)) := by
  rw [readCache]
  split
  · rename_i cache hcache hresource
    have hserved := TieredCache.serves_get now (cacheKey request) (cacheKey other) cache
    have haccess : (p.collaborators audited now).reading = .fine now := rfl
    rw [haccess]
    split <;>
    · rename_i hget
      rw [hget] at hserved
      simp [hcache, hserved]
  · rfl

theorem recordAudit_accepted (decision : EntitlementDecision) (request : EntitlementRequest)
    (s : GuardState) :
    (recordAudit (p.collaborators audited now) decision request target s).2 = decision ∧
      (recordAudit (p.collaborators audited now) decision request target s).1.cache = s.cache := by
  cases audited <;> exact ⟨rfl, rfl⟩

theorem writeCache_served {request other : EntitlementRequest} (decision : EntitlementDecision)
    (s : GuardState) (h : cacheKey other ≠ cacheKey request) :
    (writeCache (p.collaborators audited now) request decision s).cache.bind
        (·.serves now (cacheKey other)) =
      s.cache.bind (·.serves now (cacheKey other)) := by
  rw [writeCache]
  split
  · rename_i cache hcache hresource
    split
    · rfl
    · have hserved := TieredCache.serves_set_of_ne (now : ℚ) decision cache h
      have haccess : (p.collaborators audited now).writing = .fine now := rfl
      rw [haccess]
      simp [hcache, hserved]
  · rfl

theorem cacheKey_eq (request : EntitlementRequest) :
    cacheKey request = "entitlement:" ++ evaluateKey request := by
  simp [cacheKey, evaluateKey, String.append_assoc]

theorem decideAnew_answer (request : EntitlementRequest) (s : GuardState) :
    (decideAnew mode (p.collaborators audited now) target request s).2 =
      stamp (decide (p.collaborators audited now) request request.enforced) request
        request.enforced := by
  cases mode with
  | enforced => exact (recordAudit_accepted p audited now target _ request s).1
  | simulated => rfl

theorem separate_evaluateMany :
    Separate (evaluation .enforced (p.collaborators audited now) target) evaluateKey where
  look := fun r r' s => readCache_congr p audited now (readCache_served p audited now r r' s)
  finish := by
    intro r r' s hkeys
    apply readCache_congr
    have hdistinct : cacheKey r' ≠ cacheKey r := by
      rw [cacheKey_eq, cacheKey_eq]
      intro hsame
      exact hkeys (String.append_right_inj "entitlement:" |>.mp hsame)
    have hrecorded := recordAudit_accepted p audited now target
      (stamp (decide (p.collaborators audited now) r r.enforced) r r.enforced) r s
    have hwritten := writeCache_served p audited now
      (recordAudit (p.collaborators audited now)
        (stamp (decide (p.collaborators audited now) r r.enforced) r r.enforced) r target s).2
      (recordAudit (p.collaborators audited now)
        (stamp (decide (p.collaborators audited now) r r.enforced) r r.enforced) r target s).1
      hdistinct
    rw [hrecorded.2] at hwritten
    exact hwritten
  same := by
    intro r a b
    simp only [evaluation, decideAnew_answer]

theorem separate_simulateMany :
    Separate (evaluation .simulated (p.collaborators audited now) target) simulateKey where
  look := fun r r' s => readCache_congr p audited now (readCache_served p audited now r r' s)
  finish := fun _ _ _ _ => rfl
  same := fun _ _ _ => rfl

end

/-- Whatever the ports and whatever the cache holds, and in every order in which the promises go on:
the batch can go on until it is finished, and an answer that it has is the single call's. -/
def BatchAgrees (mode : Mode) (key : EntitlementRequest → String)
    (requests : List EntitlementRequest) (target : EnforcementTarget)
    (single : Collaborators → EntitlementRequest → GuardState → Except Unit EntitlementDecision) :
    Prop :=
  ∀ (p : Ports) (audited : Bool) (now : ℤ) (start : GuardState) s,
    Reached (evaluation mode (p.collaborators audited now) target) key requests start s →
      (∃ u, Later (evaluation mode (p.collaborators audited now) target) s u ∧
        ∀ r ∈ requests, (answer key u r).isSome) ∧
      ∀ r ∈ requests, ∀ d, answer key s r = some d →
        ∃ alone, single (p.collaborators audited now) r start = .ok alone ∧ Agrees d alone

def EvaluateManyAgrees (requests : List EntitlementRequest) (target : EnforcementTarget) : Prop :=
  BatchAgrees .enforced evaluateKey requests target fun c r s => (evaluate c target r s).2

def SimulateManyAgrees (requests : List EntitlementRequest) (target : EnforcementTarget) : Prop :=
  BatchAgrees .simulated simulateKey requests target fun c r s =>
    (simulate c target r s).2.map (·.decision)

/-- A decision point that grants what is asked by one request, and no more. -/
def only (request : EntitlementRequest) : Ports where
  check := fun asked => .ok { refusal asked "none" .deny "" with
    allowed := asked == request, policy := none, reason := none }
  resolve := none
  quota := none

def noCache : GuardState := ⟨none, [], []⟩

theorem only_allows (mode : Mode) (granted request : EntitlementRequest)
    (target : EnforcementTarget) :
    ((evaluation mode ((only granted).collaborators false 0) target).evaluate request
        noCache).2.allowed = (request == granted) := by
  have hmissed : (readCache ((only granted).collaborators false 0) request noCache) =
      (noCache, none) := rfl
  have hanswer := decideAnew_answer mode (only granted) false 0 target request noCache
  simp only [Evaluation.evaluate, evaluation, hmissed, hanswer]
  cases hgranted : request == granted with
  | true =>
    simp [stamp, decide, Ports.collaborators, only, baseOf, hgranted, resolvePolicy, policyPermits,
      meter]
  | false => simp [stamp, decide, Ports.collaborators, only, baseOf, hgranted]

section

variable {mode : Mode} {key : EntitlementRequest → String} {requests : List EntitlementRequest}
  {target : EnforcementTarget}

theorem agrees_of_same (h : ∀ r ∈ requests, ∀ r' ∈ requests, key r = key r' → r = r')
    (E : Evaluation EntitlementRequest GuardState EntitlementDecision) (start : GuardState) :
    ∀ r ∈ requests, ∀ first, firstOf key requests (key r) = some first →
      Agrees (E.evaluate first start).2 (E.evaluate r start).2 := by
  intro r hr first hfirst
  obtain ⟨hmem, hkey⟩ := firstOf_some hfirst
  obtain rfl := h first hmem r hr hkey
  exact ⟨rfl, rfl, rfl, rfl⟩

theorem same_of_agrees
    (h : ∀ p : Ports, ∀ r ∈ requests, ∀ first, firstOf key requests (key r) = some first →
      Agrees ((evaluation mode (p.collaborators false 0) target).evaluate first noCache).2
        ((evaluation mode (p.collaborators false 0) target).evaluate r noCache).2) :
    ∀ r ∈ requests, ∀ r' ∈ requests, key r = key r' → r = r' := by
  have hfirst : ∀ r ∈ requests, ∀ first, firstOf key requests (key r) = some first → first = r := by
    intro r hr first hfound
    have hallowed := (h (only r) r hr first hfound).allowed
    rw [only_allows, only_allows, beq_self_eq_true] at hallowed
    exact eq_of_beq hallowed
  intro r hr r' hr' hkey
  have hexists : ∃ first, firstOf key requests (key r) = some first := firstOf_of_mem hr
  obtain ⟨first, hfound⟩ := hexists
  have hr_eq := hfirst r hr first hfound
  rw [hkey] at hfound
  rw [← hr_eq, hfirst r' hr' first hfound]

theorem batch_agrees_iff
    (hE : ∀ (p : Ports) audited now, Separate (evaluation mode (p.collaborators audited now) target)
      key) :
    BatchAgrees mode key requests target
        (fun c r s => (run mode c target r s).2.map (·.decision)) ↔
      ∀ r ∈ requests, ∀ r' ∈ requests, key r = key r' → r = r' := by
  constructor
  · intro hagrees
    refine same_of_agrees fun p => (agrees_iff (hE p false 0) Agrees).mp ?_
    intro s hs r hr d hd
    obtain ⟨alone, heq, hd⟩ := (hagrees p false 0 noCache s hs).2 r hr d hd
    have halone := (run_evaluation mode p false 0 target r noCache).symm.trans heq
    cases halone
    exact hd
  · intro hsame p audited now start s hs
    refine ⟨can_finish (hE p audited now) hs, ?_⟩
    intro r hr d hd
    refine ⟨_, run_evaluation mode p audited now target r start, ?_⟩
    have hfirsts := agrees_of_same hsame
      (evaluation mode (p.collaborators audited now) target) start
    exact (agrees_iff (hE p audited now) Agrees).mpr hfirsts s hs r hr d hd

theorem answered_first {p : Ports} {audited : Bool} {now : ℤ}
    (hE : Separate (evaluation mode (p.collaborators audited now) target) key) (start : GuardState)
    {r r' : EntitlementRequest} (hkey : key r = key r') :
    ∃ s, Reached (evaluation mode (p.collaborators audited now) target) key [r, r'] start s ∧
      answer key s r' =
        some ((evaluation mode (p.collaborators audited now) target).evaluate r start).2 := by
  have hstart : Reached (evaluation mode (p.collaborators audited now) target) key [r, r'] start
      (batch key [r, r'] start) := .start rfl
  obtain ⟨s, hs, hfinished⟩ := can_finish hE hstart
  obtain ⟨d, hd⟩ := Option.isSome_iff_exists.mp (hfinished r' (by simp))
  obtain ⟨first, hfirst, heq⟩ := answer_eq hE hs hd
  have hr : firstOf key [r, r'] (key r') = some r := by simp [firstOf, hkey]
  rw [hr] at hfirst
  cases hfirst
  exact ⟨s, hs, hd.trans (congrArg some heq)⟩

end

/-- The batches answer as the single calls do exactly when requests that have the same key are the
same request. -/
theorem batches_agree_iff (requests : List EntitlementRequest) (target : EnforcementTarget) :
    (EvaluateManyAgrees requests target ↔
        ∀ r ∈ requests, ∀ r' ∈ requests, evaluateKey r = evaluateKey r' → r = r') ∧
      (SimulateManyAgrees requests target ↔
        ∀ r ∈ requests, ∀ r' ∈ requests, simulateKey r = simulateKey r' → r = r') :=
  ⟨batch_agrees_iff fun p audited now => separate_evaluateMany p audited now target,
    batch_agrees_iff fun p audited now => separate_simulateMany p audited now target⟩

/-- Everything is entitled. A hundred units are left of every resource but the images, which have
run out. -/
def limited : Ports where
  check := fun asked => .ok { refusal asked "subscription" .allow "" with
    allowed := true, reason := none }
  resolve := none
  quota := some fun asked =>
    let used := asked.amount.getD 1
    let state := if asked.resource = "images" ∨ 100 < used then .hardExceeded else .ok
    .ok ⟨asked.resource, state, used, 100, used / 100⟩

def metered (resource : String) (amount : ℚ) : EntitlementRequest :=
  ⟨"tenant-1", "ai_studio", none, some resource, some amount, none, none, none⟩

/-- Images that have run out are granted with the tokens that have not, and a thousand tokens with
the one. -/
theorem batches_disagree :
    (∃ s d, Reached (evaluation .enforced (limited.collaborators true 0) .command) evaluateKey
          [metered "tokens" 1, metered "images" 1] noCache s ∧
        answer evaluateKey s (metered "images" 1) = some d ∧ d.allowed = true ∧
        (evaluate (limited.collaborators true 0) .command (metered "images" 1) noCache).2.map
          (fun alone => (alone.allowed, alone.source)) = .ok (false, "quota_exceeded")) ∧
      ∃ s d, Reached (evaluation .simulated (limited.collaborators true 0) .command) simulateKey
          [metered "tokens" 1, metered "tokens" 1000] noCache s ∧
        answer simulateKey s (metered "tokens" 1000) = some d ∧ d.allowed = true ∧
        (simulate (limited.collaborators true 0) .command (metered "tokens" 1000) noCache).2.map
          (fun alone => (alone.decision.allowed, alone.decision.source)) =
            .ok (false, "quota_exceeded") := by
  constructor
  · obtain ⟨s, hs, hanswer⟩ := answered_first
      (separate_evaluateMany limited true 0 .command) noCache
      (show evaluateKey (metered "tokens" 1) = evaluateKey (metered "images" 1) by rfl)
    exact ⟨s, _, hs, hanswer, by decide +kernel, by decide +kernel⟩
  · obtain ⟨s, hs, hanswer⟩ := answered_first
      (separate_simulateMany limited true 0 .command) noCache
      (show simulateKey (metered "tokens" 1) = simulateKey (metered "tokens" 1000) by rfl)
    exact ⟨s, _, hs, hanswer, by decide +kernel, by decide +kernel⟩

end Entitlement
