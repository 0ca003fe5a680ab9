import Lumo.TrackingCalls

/-! # The circuit over whole runs

What the circuit breaker is there for, at every step that the deliveries to one destination can
take next. -/
namespace Tracking

open LabelledRuns

variable {policy : DeliveryPolicy} {calls after : Calls} {answer : DeliveryAnswer}
  {circuit : CircuitState} {descriptor : CircuitBreakerDescriptor} {failures probes : ℕ}
  {nowMs : ℚ}

def KeepsAway (calls : Calls) : DeliveryAnswer → Prop
  | .sends _ sentAt _ _ =>
    calls.circuit.status = .open → calls.circuit.openedUntilMs.any (· ≤ sentAt) = true
  | _ => True

def OpensInTime (policy : DeliveryPolicy) (calls after : Calls) : DeliveryAnswer → Prop
  | .sends _ _ _ response =>
    response.ok = false → policy.breaker.failureThreshold ≤ calls.failuresInRow + 1 →
      after.circuit.status = .open
  | _ => True

def Recovers (policy : DeliveryPolicy) (calls : Calls) : DeliveryAnswer → Prop
  | .sends _ _ _ response =>
    response.ok = true ∧ calls.circuit.status = .halfOpen ∧
      policy.breaker.halfOpenSuccesses ≤ calls.probesInRow + 1
  | _ => False

structure Guarded (policy : DeliveryPolicy) (calls : Calls) (answer : DeliveryAnswer)
    (after : Calls) : Prop where
  away : KeepsAway calls answer
  opens : OpensInTime policy calls after answer
  closes : calls.circuit.status ≠ .closed → after.circuit.status = .closed →
    Recovers policy calls answer

/-- Whatever the next step is. -/
def Guards (policy : DeliveryPolicy) (calls : Calls) : Prop :=
  ∀ answer after, Calls.Step policy calls answer after → Guarded policy calls answer after

/-- A failure that the loop retries is not one that opens the circuit. -/
def GivesUp (policy : DeliveryPolicy) (calls : Calls) : DeliveryAnswer → Prop
  | .sends _ _ _ response =>
    match calls.point with
    | .attempting attempts held =>
      response.ok = false → response.retryable = true → attempts + 1 < policy.maxAttempts →
        held.circuit.status ≠ .halfOpen ∧
          held.circuit.consecutiveFailures + 1 < policy.breaker.failureThreshold
    | _ => True
  | _ => True

instance : Decidable (GivesUp policy calls answer) := by
  unfold GivesUp
  split
  · split <;> infer_instance
  · infer_instance

structure Counts (circuit : CircuitState) (failures probes : ℕ) : Prop where
  failures : circuit.status = .closed → circuit.consecutiveFailures = failures
  probes : circuit.status = .halfOpen → circuit.halfOpenSuccesses = probes

namespace Counts

theorem refreshed (h : Counts circuit failures probes) :
    Counts (refreshCircuit circuit nowMs) failures
      (if circuit.status = .open ∧ (refreshCircuit circuit nowMs).status = .halfOpen then 0
        else probes) := by
  rcases refreshCircuit_cases with hsame | ⟨hopen, hhalf, hzero, -⟩
  · rw [hsame, if_neg (fun hboth => by rw [hboth.1] at hboth; cases hboth.2)]
    exact h
  · rw [if_pos ⟨hopen, hhalf⟩]
    refine ⟨fun hclosed => ?_, fun _ => hzero⟩
    rw [hhalf] at hclosed
    cases hclosed

variable (descriptor nowMs) in
theorem succeeded (h : Counts circuit failures probes) :
    Counts (recordSuccess circuit descriptor nowMs) 0
      (if circuit.status = .halfOpen then probes + 1 else 0) := by
  unfold recordSuccess
  by_cases hhalf : circuit.status = .halfOpen
  · rw [if_pos hhalf, if_pos hhalf]
    split
    · exact ⟨fun _ => rfl, fun heq => by cases heq⟩
    · refine ⟨fun hclosed => ?_, fun _ => congrArg (· + 1) (h.probes hhalf)⟩
      rw [hhalf] at hclosed
      cases hclosed
  · rw [if_neg hhalf, if_neg hhalf]
    exact ⟨fun _ => rfl, fun heq => by cases heq⟩

variable (descriptor nowMs) in
theorem failed (h : Counts circuit failures probes) (hopen : circuit.status ≠ .open) :
    Counts (recordFailure circuit descriptor nowMs) (failures + 1) 0 := by
  by_cases hopens : circuit.status = .halfOpen ∨
      descriptor.failureThreshold ≤ circuit.consecutiveFailures + 1
  · rw [recordFailure_opens hopens]
    exact ⟨fun heq => (by cases heq), fun heq => (by cases heq)⟩
  · obtain ⟨hhalf, hbelow⟩ := not_or.mp hopens
    rw [recordFailure_stays hhalf hbelow]
    have hclosed : circuit.status = .closed := by
      cases hstatus : circuit.status with
      | closed => rfl
      | «open» => exact absurd hstatus hopen
      | halfOpen => exact absurd hstatus hhalf
    exact ⟨fun _ => congrArg (· + 1) (h.failures hclosed), fun heq => by cases heq⟩

end Counts

theorem refreshCircuit_closed (h : (refreshCircuit circuit nowMs).status = .closed) :
    circuit.status = .closed := by
  rcases refreshCircuit_cases with hsame | ⟨-, hhalf, -, -⟩
  · rw [hsame] at h
    exact h
  · rw [hhalf] at h
    cases h

theorem recordSuccess_closes (hopen : circuit.status ≠ .open) (hnot : circuit.status ≠ .closed)
    (h : (recordSuccess circuit descriptor nowMs).status = .closed) :
    circuit.status = .halfOpen ∧
      descriptor.halfOpenSuccesses ≤ circuit.halfOpenSuccesses + 1 := by
  have hhalf : circuit.status = .halfOpen := by
    cases hstatus : circuit.status with
    | closed => exact absurd hstatus hnot
    | «open» => exact absurd hstatus hopen
    | halfOpen => rfl
  refine ⟨hhalf, ?_⟩
  rw [recordSuccess, if_pos hhalf] at h
  split at h
  · assumption
  · rw [hhalf] at h
    cases h

def DeliveryPoint.isPast : DeliveryPoint → Bool
  | .claiming _ => true
  | .attempting _ _ => true
  | _ => false

/-- Past the circuit breaker the circuit is not open, and it counts what happens. -/
structure Watched (calls : Calls) : Prop where
  away : calls.point.isPast = true → calls.circuit.status ≠ .open
  counts : Counts calls.circuit calls.failuresInRow calls.probesInRow

theorem admit_circuit (policy : DeliveryPolicy) (held : DestinationRuntimeState) (startedAt : ℚ) :
    ((admission policy held startedAt).held.circuit = held.circuit ∧
        (admission policy held startedAt).isPast = false) ∨
      (admission policy held startedAt).held.circuit = refreshCircuit held.circuit startedAt ∧
        ((admission policy held startedAt).isPast = true →
          (refreshCircuit held.circuit startedAt).status ≠ .open) := by
  unfold admission
  dsimp only
  split
  · split
    · rename_i hmay
      exact .inr ⟨rfl, fun _ => not_open_of_canAttempt hmay⟩
    · exact .inr ⟨rfl, fun h => by cases h⟩
  · split
    · split
      · rename_i hmay
        exact .inr ⟨rfl, fun _ => not_open_of_canAttempt hmay⟩
      · exact .inr ⟨rfl, fun h => by cases h⟩
    · exact .inl ⟨rfl, rfl⟩

/-- Where a step makes no request, it leaves the circuit or refreshes it. -/
theorem circuit_same_or_refreshed (h : CallStep policy calls answer after)
    (hanswer : ∀ pacing sentAt answeredAt response,
      answer ≠ .sends pacing sentAt answeredAt response) :
    after.failuresInRow = calls.failuresInRow ∧
      after.probesInRow = calls.probesAfter after.point answer ∧
      ((after.circuit = calls.circuit ∧ (after.point.isPast = true → calls.point.isPast = true)) ∨
        ∃ startedAt, after.circuit = refreshCircuit calls.circuit startedAt ∧
          (after.point.isPast = true → after.circuit.status ≠ .open)) := by
  cases h with
  | sent => exact absurd rfl (hanswer _ _ _ _)
  | @blocked startedAt breach held hpoint hclock =>
    refine ⟨rfl, rfl, .inl ⟨?_, fun h => by cases h⟩⟩
    change held.circuit = calls.point.held.circuit
    rw [← calls.point.again_held, hpoint]
    rfl
  | @admitted startedAt held hpoint hclock =>
    refine ⟨rfl, rfl, ?_⟩
    have hheld : held = calls.point.held := by
      rw [← calls.point.again_held, hpoint]
      rfl
    rcases admit_circuit policy held startedAt with ⟨hsame, hpast⟩ | ⟨hrefreshed, hpast⟩
    · refine .inl ⟨hsame.trans (congrArg _ hheld), fun h => ?_⟩
      change (admission policy held startedAt).isPast = true at h
      rw [hpast] at h
      cases h
    · subst hheld
      refine .inr ⟨startedAt, hrefreshed, fun h => ?_⟩
      change (admission policy calls.point.held startedAt).held.circuit.status ≠ .open
      rw [hrefreshed]
      exact hpast h
  | @claimed isNew unready held point hpoint hafter =>
    refine ⟨rfl, rfl, .inl ⟨?_, fun _ => by rw [hpoint]; rfl⟩⟩
    change point.held.circuit = calls.point.held.circuit
    rw [hpoint]
    rcases hafter with rfl | ⟨outcome, rfl⟩
    · rfl
    · rfl
  | @buried attempts lastError held hpoint =>
    refine ⟨rfl, rfl, .inl ⟨?_, fun h => by cases h⟩⟩
    change held.circuit = calls.point.held.circuit
    rw [hpoint]
    rfl

theorem probesAfter_quiet (point : DeliveryPoint) (hanswer : ∀ pacing sentAt answeredAt response,
      answer ≠ .sends pacing sentAt answeredAt response) :
    calls.probesAfter point answer =
      if calls.circuit.status = .open ∧ point.held.circuit.status = .halfOpen then 0
      else calls.probesInRow := by
  cases answer with
  | sends pacing sentAt answeredAt response => exact absurd rfl (hanswer _ _ _ _)
  | _ => rfl

namespace Watched

theorem quiet (h : Watched calls) (hst : CallStep policy calls answer after)
    (hanswer : ∀ pacing sentAt answeredAt response,
      answer ≠ .sends pacing sentAt answeredAt response) :
    Watched after ∧ (after.circuit.status = .closed → calls.circuit.status = .closed) := by
  obtain ⟨hfailures, hprobes, hcircuit⟩ := circuit_same_or_refreshed hst hanswer
  rw [probesAfter_quiet _ hanswer] at hprobes
  change after.probesInRow = if calls.circuit.status = .open ∧
    after.circuit.status = .halfOpen then 0 else calls.probesInRow at hprobes
  rcases hcircuit with ⟨hsame, hpast⟩ | ⟨startedAt, hrefreshed, hpast⟩
  · refine ⟨⟨fun hafter => ?_, ?_⟩, fun hclosed => ?_⟩
    · rw [hsame]
      exact h.away (hpast hafter)
    · rw [hprobes, hsame, hfailures, if_neg (fun hboth => by rw [hboth.1] at hboth; cases hboth.2)]
      exact h.counts
    · rw [← hsame]
      exact hclosed
  · refine ⟨⟨hpast, ?_⟩, fun hclosed => ?_⟩
    · rw [hprobes, hrefreshed, hfailures]
      exact h.counts.refreshed
    · rw [hrefreshed] at hclosed
      exact refreshCircuit_closed hclosed

theorem accepted (h : Watched calls) {attempts : ℕ} {held : DestinationRuntimeState}
    (hpoint : calls.point = .attempting attempts held)
    (hclosed : (recordSuccess held.circuit descriptor nowMs).status = .closed)
    (hnot : calls.circuit.status ≠ .closed) :
    calls.circuit.status = .halfOpen ∧ descriptor.halfOpenSuccesses ≤ calls.probesInRow + 1 := by
  have hheld : calls.circuit = held.circuit := by
    rw [Calls.circuit, hpoint]
    rfl
  have hopen := h.away (by rw [hpoint]; rfl)
  rw [hheld] at hopen hnot ⊢
  obtain ⟨hhalf, hlast⟩ := recordSuccess_closes hopen hnot hclosed
  have hprobes := h.counts.probes (by rw [hheld]; exact hhalf)
  rw [hheld] at hprobes
  rw [hprobes] at hlast
  exact ⟨hhalf, hlast⟩

end Watched

theorem afterResponse_circuit (policy : DeliveryPolicy) (attempts : ℕ)
    (held : DestinationRuntimeState) (answeredAt : ℚ) (response : DeliveryResponse) :
    (afterResponse policy attempts held answeredAt response).held.circuit =
      if response.ok then recordSuccess held.circuit policy.breaker answeredAt
      else recordFailure held.circuit policy.breaker answeredAt := by
  unfold afterResponse
  split
  · rfl
  · dsimp only
    split
    · rfl
    · rfl

variable {attempts : ℕ} {held : DestinationRuntimeState}

theorem afterResponse_isPast {answeredAt : ℚ} {response : DeliveryResponse}
    (h : (afterResponse policy attempts held answeredAt response).isPast = true) :
    response.ok = false ∧ response.retryable = true ∧ attempts < policy.maxAttempts := by
  unfold afterResponse at h
  split at h
  · cases h
  · rename_i hok
    dsimp only at h
    split at h
    · rename_i hretry
      exact ⟨by simpa using hok, hretry⟩
    · cases h

theorem GivesUp.at_attempting {pacing : Pacing} {sentAt answeredAt : ℚ}
    {response : DeliveryResponse} (hpoint : calls.point = .attempting attempts held) :
    GivesUp policy calls (.sends pacing sentAt answeredAt response) ↔
      (response.ok = false → response.retryable = true → attempts + 1 < policy.maxAttempts →
        held.circuit.status ≠ .halfOpen ∧
          held.circuit.consecutiveFailures + 1 < policy.breaker.failureThreshold) := by
  rw [GivesUp, hpoint]

namespace Watched

theorem step (h : Watched calls) (hst : CallStep policy calls answer after)
    (hgives : GivesUp policy calls answer) : Watched after := by
  by_cases hanswer : ∃ pacing sentAt answeredAt response,
      answer = .sends pacing sentAt answeredAt response
  · obtain ⟨pacing, sentAt, answeredAt, response, rfl⟩ := hanswer
    cases hst with
    | @sent attempts held _ _ _ _ rateLimit hpoint hpace hfirst hlater hclock =>
      have hheld : calls.circuit = held.circuit := by
        rw [Calls.circuit, hpoint]
        rfl
      have hopen := h.away (by rw [hpoint]; rfl)
      have hcounts := h.counts
      rw [hheld] at hopen hcounts
      refine ⟨fun hpast => ?_, ?_⟩
      · obtain ⟨hok, hretryable, hattempts⟩ := afterResponse_isPast hpast
        obtain ⟨hhalf, hbelow⟩ :=
          (GivesUp.at_attempting hpoint).mp hgives hok hretryable hattempts
        rw [Calls.circuit, afterResponse_circuit, hok]
        intro hopened
        rcases recordFailure_status.mp hopened with hreached | hreached
        · exact hhalf hreached
        · exact absurd hreached (not_le.mpr hbelow)
      · rw [Calls.circuit, afterResponse_circuit, hheld]
        cases hok : response.ok with
        | true =>
          have hsucceeded := hcounts.succeeded policy.breaker answeredAt
          simpa [hok] using hsucceeded
        | false =>
          have hfailed := hcounts.failed policy.breaker answeredAt hopen
          simpa [hok] using hfailed
  · push Not at hanswer
    exact (h.quiet hst hanswer).1

/-- In a state that is watched, every next step is guarded. -/
theorem guards (h : Watched calls) : Guards policy calls := by
  intro answer after hst
  have hstep := Calls.step_cases hst
  by_cases hanswer : ∃ pacing sentAt answeredAt response,
      answer = .sends pacing sentAt answeredAt response
  · obtain ⟨pacing, sentAt, answeredAt, response, rfl⟩ := hanswer
    cases hstep with
    | @sent attempts held _ _ _ _ rateLimit hpoint hpace hfirst hlater hclock =>
      have hheld : calls.circuit = held.circuit := by
        rw [Calls.circuit, hpoint]
        rfl
      have hopen := h.away (by rw [hpoint]; rfl)
      refine ⟨fun hbroken => absurd hbroken hopen, fun hok hreached => ?_, fun hnot hclosed => ?_⟩
      · rw [Calls.circuit, afterResponse_circuit, hok]
        refine recordFailure_status.mpr ?_
        rw [hheld] at hopen
        cases hstatus : held.circuit.status with
        | closed =>
          have hfailures := h.counts.failures (by rw [hheld]; exact hstatus)
          rw [hheld] at hfailures
          rw [← hfailures] at hreached
          exact .inr hreached
        | «open» => exact absurd hstatus hopen
        | halfOpen => exact .inl rfl
      · rw [Calls.circuit, afterResponse_circuit] at hclosed
        cases hok : response.ok with
        | true =>
          rw [hok, if_pos rfl] at hclosed
          exact ⟨hok, h.accepted hpoint hclosed hnot⟩
        | false =>
          -- A failure closes nothing: it opens the circuit, or leaves it as it was.
          rw [hok, if_neg (by decide)] at hclosed
          by_cases hopens : held.circuit.status = .halfOpen ∨
              policy.breaker.failureThreshold ≤ held.circuit.consecutiveFailures + 1
          · rw [recordFailure_opens hopens] at hclosed
            cases hclosed
          · rw [hheld] at hopen hnot
            cases hstatus : held.circuit.status with
            | closed => exact absurd hstatus hnot
            | «open» => exact absurd hstatus hopen
            | halfOpen => exact absurd (.inl hstatus) hopens
  · push Not at hanswer
    have hclosed := (h.quiet hstep hanswer).2
    cases answer with
    | sends pacing sentAt answeredAt response => exact absurd rfl (hanswer _ _ _ _)
    | _ => exact ⟨trivial, trivial, fun hnot hafter => absurd (hclosed hafter) hnot⟩

end Watched

/-- A request that is made, accepted and answered at one moment. -/
def acceptedAt (now : ℚ) : DeliveryAnswer :=
  .sends ⟨now, 0, now⟩ now now ⟨true, some 200, false, none, 0⟩

variable (policy) in
theorem Calls.may_accept (hpoint : calls.point = .attempting attempts held) :
    ∃ after, Calls.Step policy calls (acceptedAt calls.now) after ∧
      after.circuit = recordSuccess held.circuit policy.breaker calls.now := by
  have hagain : calls.point.again = .attempting attempts held := by
    rw [hpoint]
    rfl
  have hclock : clockAfter calls.now (readings calls.point.again (acceptedAt calls.now)) =
      some calls.now := by
    rw [hagain]
    cases attempts with
    | zero | succ attempts => simp [readings, acceptedAt, clockAfter]
  have hdeliver : deliver policy calls.point.again (acceptedAt calls.now) =
      some (.returned (.delivered (attempts + 1) 0)
        ⟨recordSuccess held.circuit policy.breaker calls.now, if attempts = 0
          then held.rateLimit else pace policy held.rateLimit ⟨calls.now, 0, calls.now⟩⟩) := by
    rw [hagain]
    rfl
  simp only [Calls.Step, Calls.next, hdeliver, hclock]
  exact ⟨_, rfl, rfl⟩

theorem opened_of_not_givesUp (hst : CallStep policy calls answer after)
    (hgives : ¬ GivesUp policy calls answer) :
    ∃ attempts held, after.point = .attempting attempts held ∧ held.circuit.status = .open := by
  cases hst with
  | @sent attempts held pacing sentAt answeredAt response rateLimit hpoint hpace hfirst hlater
      hclock =>
    rw [GivesUp.at_attempting hpoint] at hgives
    push Not at hgives
    obtain ⟨hok, hretryable, hattempts, hopens⟩ := hgives
    have hreached : held.circuit.status = .halfOpen ∨
        policy.breaker.failureThreshold ≤ held.circuit.consecutiveFailures + 1 := by
      by_cases hhalf : held.circuit.status = .halfOpen
      · exact .inl hhalf
      · exact .inr (hopens hhalf)
    refine ⟨attempts + 1, ⟨openedBy held.circuit policy.breaker answeredAt, rateLimit⟩, ?_, rfl⟩
    change afterResponse policy (attempts + 1) { held with rateLimit := rateLimit }
      answeredAt response = _
    rw [afterResponse, if_neg (by simp [hok])]
    dsimp only
    rw [if_pos ⟨hretryable, hattempts⟩, recordFailure_opens hreached]
  | _ => exact absurd trivial hgives

theorem not_guards (hpoint : calls.point = .attempting attempts held)
    (hopen : held.circuit.status = .open) : ¬ Guards policy calls := by
  intro hguards
  have hheld : calls.circuit = held.circuit := by
    rw [Calls.circuit, hpoint]
    rfl
  obtain ⟨after, hst, hcircuit⟩ := Calls.may_accept policy hpoint
  have hclosed : after.circuit.status = .closed := by
    rw [hcircuit, recordSuccess, if_neg (by simp [hopen])]
  have hrecovers := (hguards _ _ hst).closes (by simp [hheld, hopen]) hclosed
  have hhalf := hrecovers.2.1
  rw [hheld, hopen] at hhalf
  cases hhalf

theorem first_watched (now : ℚ) : Watched (Calls.first policy now) where
  away := fun h => by cases h
  counts := ⟨fun _ => rfl, fun h => by cases h⟩

/-- The circuit guards every step, in every state of a run, exactly when no failure of the run that
opens the circuit is retried. -/
theorem run_guards_iff {now : ℚ} {tr : List (DeliveryAnswer × Calls)}
    (hr : Run (Calls.Step policy) (Calls.first policy now) tr) :
    Always (Guards policy) (Calls.first policy now) tr ↔
      EveryStep (GivesUp policy) (Calls.first policy now) tr := by
  refine always_iff_everyStep (I := Watched) (G := GivesUp policy) ?_ (fun _ h => h.guards) ?_
    (first_watched now) hr
  · intro calls answer after h hst hgives
    exact h.step (Calls.step_cases hst) hgives
  · intro calls answer after h hst hgives
    obtain ⟨attempts, held, hpoint, hopen⟩ := opened_of_not_givesUp (Calls.step_cases hst) hgives
    exact not_guards hpoint hopen

section Samples

/-- Two failures open the circuit for half a minute, and two successes close it. -/
private def guardedBy (maxAttempts : ℕ) (h : 1 ≤ maxAttempts) : DeliveryPolicy :=
  ⟨none, some ⟨2, 30000, 2⟩, maxAttempts, h⟩

private def refusedAt (now : ℚ) : DeliveryAnswer :=
  .sends ⟨now, 0, now⟩ now now ⟨false, some 503, true, none, 0⟩

/-- Two calls that fail, a call that is kept away, and two that succeed. -/
theorem run_guards_iff_recovering :
    Always (Guards (guardedBy 1 le_rfl)) (Calls.first (guardedBy 1 le_rfl) 0)
      (attempt (Calls.next (guardedBy 1 le_rfl)) (Calls.first (guardedBy 1 le_rfl) 0)
        [.starts 0 none, .claims true none, refusedAt 0, .buries,
          .starts 0 none, .claims true none, refusedAt 0, .buries, .starts 1000 none,
          .starts 30000 none, .claims true none, acceptedAt 30000,
          .starts 30000 none, .claims true none, acceptedAt 30000]) :=
  (run_guards_iff (run_attempt _ _ _)).mpr (by decide +kernel)

/-- The second failure of a call opens the circuit. Its third attempt follows at once, and closes
it. -/
theorem guards_fails :
    ¬ ∀ (policy : DeliveryPolicy) (now : ℚ) (tr : List (DeliveryAnswer × Calls)),
      Run (Calls.Step policy) (Calls.first policy now) tr →
        Always (Guards policy) (Calls.first policy now) tr := by
  intro h
  have hlast := (h (guardedBy 3 (by decide)) 0 _ (run_attempt (Calls.next (guardedBy 3 (by decide)))
    (Calls.first (guardedBy 3 (by decide)) 0)
    [.starts 0 none, .claims true none, refusedAt 0, refusedAt 0])).last
  have hguarded := hlast (acceptedAt 0) _ rfl
  exact absurd (hguarded.away rfl) (by decide +kernel)

end Samples

/-- The vendor answers well again: the circuit after one request at each of the times, none if it
keeps one of them away. -/
def succeedAt (descriptor : CircuitBreakerDescriptor) (circuit : CircuitState) :
    List ℚ → Option CircuitState
  | [] => some circuit
  | now :: later =>
    if canAttempt (refreshCircuit circuit now) now then
      succeedAt descriptor (recordSuccess (refreshCircuit circuit now) descriptor now) later
    else none

theorem succeedAt_closed (times : List ℚ) (h : circuit.status = .closed) :
    ∃ after, succeedAt descriptor circuit times = some after ∧ after.status = .closed := by
  induction times generalizing circuit with
  | nil => exact ⟨circuit, rfl, h⟩
  | cons now later ih =>
    have hrefresh : refreshCircuit circuit now = circuit := by simp [refreshCircuit, h]
    rw [succeedAt, hrefresh, if_pos (by simp [canAttempt, h])]
    apply ih
    simp [recordSuccess, h]

theorem succeedAt_halfOpen (times : List ℚ) (h : circuit.status = .halfOpen) :
    ∃ after, succeedAt descriptor circuit times = some after ∧ (after.status = .closed ↔
      times ≠ [] ∧ descriptor.halfOpenSuccesses ≤ circuit.halfOpenSuccesses + times.length) := by
  induction times generalizing circuit with
  | nil => exact ⟨circuit, rfl, by simp [h]⟩
  | cons now later ih =>
    have hrefresh : refreshCircuit circuit now = circuit := by simp [refreshCircuit, h]
    rw [succeedAt, hrefresh, if_pos (by simp [canAttempt, h]), recordSuccess, if_pos h,
      List.length_cons]
    by_cases henough : descriptor.halfOpenSuccesses ≤ circuit.halfOpenSuccesses + 1
    · rw [if_pos henough]
      obtain ⟨after, hafter, hclosed⟩ :=
        @succeedAt_closed { initialCircuit with lastTransitionAtMs := some now } descriptor later rfl
      exact ⟨after, hafter, iff_of_true hclosed ⟨List.cons_ne_nil _ _, by omega⟩⟩
    · rw [if_neg henough]
      obtain ⟨after, hafter, hclosed⟩ :=
        @ih { circuit with halfOpenSuccesses := circuit.halfOpenSuccesses + 1 } h
      refine ⟨after, hafter, hclosed.trans ?_⟩
      rw [Nat.add_right_comm, Nat.add_assoc]
      refine and_congr_left fun hle => iff_of_true ?_ (List.cons_ne_nil _ _)
      rintro rfl
      exact henough hle

/-- A circuit that is open until a moment lets every request from then on through as long as they
succeed, and is closed by the number of successes that its descriptor asks for, not by fewer. -/
theorem succeedAt_open (openedUntil : ℚ) (times : List ℚ)
    (hopen : circuit.status = .open) (huntil : circuit.openedUntilMs = some openedUntil)
    (htimes : ∀ now ∈ times, openedUntil ≤ now) :
    ∃ after, succeedAt descriptor circuit times = some after ∧ (after.status = .closed ↔
      times ≠ [] ∧ descriptor.halfOpenSuccesses ≤ times.length) := by
  cases times with
  | nil => exact ⟨circuit, rfl, by simp [hopen]⟩
  | cons now later =>
    have helapsed : circuit.status = .open ∧ circuit.openedUntilMs.any (· ≤ now) := by
      simpa [hopen, huntil] using htimes now List.mem_cons_self
    have hhalf : (refreshCircuit circuit now).status = .halfOpen ∧
        (refreshCircuit circuit now).halfOpenSuccesses = 0 := by
      rw [refreshCircuit, if_pos helapsed]
      exact ⟨rfl, rfl⟩
    have hfirst : refreshCircuit (refreshCircuit circuit now) now = refreshCircuit circuit now :=
      if_neg (by simp [hhalf.1])
    obtain ⟨after, hafter, hclosed⟩ :=
      @succeedAt_halfOpen _ descriptor (now :: later) hhalf.1
    rw [hhalf.2, Nat.zero_add] at hclosed
    rw [succeedAt, hfirst] at hafter
    exact ⟨after, hafter, hclosed⟩

/-- Two successes half a minute after the failure. -/
theorem succeedAt_open_two : ∃ after,
    succeedAt ⟨5, 30000, 2⟩ ⟨.open, 5, 0, some 30000, some 0⟩ [30000, 30001] = some after ∧
      (after.status = .closed ↔ [(30000 : ℚ), 30001] ≠ [] ∧ 2 ≤ [(30000 : ℚ), 30001].length) :=
  succeedAt_open 30000 [30000, 30001] rfl rfl (by decide +kernel)

end Tracking
