import Mathlib.Data.Fintype.Basic
import Lumo.LicensingDunning

/-! # Counting the attempts of dunning

Every failed collection is counted as one attempt, and the subscription expires at the last of
them, exactly when the policy allows an attempt at all, an attempt is counted only for a failure
that has not been, and the last run that has seen such a failure does not leave without. -/
namespace Licensing

open SharedKernel Builtins Interleavings LabelledRuns

variable {ι : Type} {policy : DunningPolicy} {b : Shared} {k k' : Point}
  {s u : State Shared Point ι} {c : ι}

/-- What is asked of the attempts. While a run has still to count what it has seen, the attempts
may lag behind the failures. -/
structure Exact (policy : DunningPolicy) (s : State Shared Point ι) : Prop where
  scheduled : ∀ i ∈ s.shared.lookups, i < policy.retryIntervalsDays.length
  counted : s.shared.attempts ≤ s.shared.failures
  attempt : s.shared.subscription.status = .grace →
    s.shared.subscription.retryPolicy.map (·.attempt) = some s.shared.attempts
  settled : (∀ c k, s.processes c = .live k → ¬ Observes k) →
    s.shared.attempts = s.shared.failures ∧
      (s.shared.subscription.status = .expired ↔ (s.shared.failures : ℚ) = policy.maxAttempts)

def Others (s : State Shared Point ι) (c : ι) : Prop :=
  ∃ d k, d ≠ c ∧ s.processes d = .live k ∧ Observes k

instance [Fintype ι] [DecidableEq ι] (s : State Shared Point ι) (c : ι) :
    Decidable (Others s c) :=
  decidable_of_iff (∃ d, d ≠ c ∧ ∃ k ∈ [(s.processes d).point], s.processes d = .live k ∧
      Observes k) <| by
    constructor
    · rintro ⟨d, hd, k, -, hlive, hk⟩
      exact ⟨d, k, hd, hlive, hk⟩
    · rintro ⟨d, k, hd, hlive, hk⟩
      exact ⟨d, hd, k, by rw [hlive]; exact List.mem_singleton_self k, hlive, hk⟩

/-- An attempt is counted for a failure that has not been, and whoever is the last to have seen
one leaves none uncounted. -/
def Accounted (s : State Shared Point ι) : Label Choice ι → Prop
  | .turn c _ =>
    (Counts s.shared (s.processes c).point → s.shared.attempts < s.shared.failures ∧
      (Others s c ∨ s.shared.attempts + 1 = s.shared.failures)) ∧
    (Quits s.shared (s.processes c).point →
      Others s c ∨ s.shared.attempts = s.shared.failures)
  | .crash c => Observes (s.processes c).point →
      Others s c ∨ s.shared.attempts = s.shared.failures

instance [Fintype ι] [DecidableEq ι] (s : State Shared Point ι) : (l : Label Choice ι) →
    Decidable (Accounted s l)
  | .turn _ _ => inferInstanceAs (Decidable (_ ∧ _))
  | .crash _ => inferInstanceAs (Decidable (_ → _))

/-- `EnterDunning` has been called on an active subscription, nothing has been counted, and every
run is a retry. -/
structure Entered (policy : DunningPolicy) (s : State Shared Point ι) : Prop where
  entered : ∃ (before : Subscription) (now : ℚ), before.status = .active ∧
    s.shared.lookups = (enterDunning policy s.shared.invoice.id now before).lookups ∧
    s.shared.subscription =
      match (enterDunning policy s.shared.invoice.id now before).decision with
      | .answer _ => before
      | .save new _ => { new with version := before.version + 1 }
  uncounted : s.shared.attempts = 0 ∧ s.shared.failures = 0
  calls : ∀ c, s.processes c = .live .retrying

theorem enterGrace_active {before : Subscription} (hactive : before.status = .active) (days : ℚ) :
    before.enterGrace days = .ok
      { before with gracePeriodDays := some days, status := .grace } := by
  rw [Subscription.enterGrace, Subscription.transition]
  simp only [hactive]
  rfl

theorem enterDunning_first (invoiceId : String) (now : ℚ) {before : Subscription}
    (hactive : before.status = .active) (h : 0 < policy.retryIntervalsDays.length) :
    ∃ new p answer, enterDunning policy invoiceId now before = ⟨[0], .save new answer⟩ ∧
      new.status = .grace ∧ new.retryPolicy = some p ∧ p.attempt = 0 := by
  unfold enterDunning
  rw [if_neg (by rw [hactive]; decide), if_neg (not_not.mpr hactive),
    enterGrace_active hactive, retryIntervalDays_ok h]
  exact ⟨_, _, _, rfl, rfl, rfl, rfl⟩

theorem enterDunning_none (invoiceId : String) (now : ℚ) {before : Subscription}
    (hactive : before.status = .active) (h : policy.retryIntervalsDays = []) :
    (enterDunning policy invoiceId now before).lookups = [0] := by
  unfold enterDunning
  rw [if_neg (by rw [hactive]; decide), if_neg (not_not.mpr hactive),
    enterGrace_active hactive, retryIntervalDays, h]
  rfl

/-- The attempts lag behind only while a run is about to count. -/
structure Tallied (policy : DunningPolicy) (s : State Shared Point ι) : Prop where
  relied : Holds (Schedule policy) (Coherent policy) s
  counted : s.shared.attempts ≤ s.shared.failures
  observed : s.shared.attempts < s.shared.failures →
    ∃ c k, s.processes c = .live k ∧ Observes k

namespace Tallied

theorem start (h : Entered policy s) (hlength : 0 < policy.retryIntervalsDays.length) :
    Tallied policy s := by
  obtain ⟨⟨before, now, hactive, hlookups, hsubscription⟩, ⟨hattempts, hfailures⟩, hcalls⟩ := h
  obtain ⟨new, p, answer, hentered, hgrace, hpolicy, hattempt⟩ :=
    enterDunning_first s.shared.invoice.id now hactive hlength
  rw [hentered] at hlookups hsubscription
  dsimp only at hlookups hsubscription
  have hschedule : Schedule policy s.shared := by
    refine ⟨fun i hi => ?_, fun _ => ⟨p, ?_, by omega, by omega⟩, fun hexpired => ?_,
      fun _ => by omega, .inl ?_⟩
    · rw [hlookups] at hi
      rw [List.mem_singleton.mp hi]
      exact hlength
    · rw [hsubscription]
      exact hpolicy
    · rw [hsubscription] at hexpired
      simp [hgrace] at hexpired
    · rw [hsubscription]
      exact hgrace
  refine ⟨⟨hschedule, fun c => ?_⟩, by omega, by omega⟩
  rw [hcalls c]
  trivial

theorem exact (h : Tallied policy s)
    (hlength : (policy.retryIntervalsDays.length : ℚ) = policy.maxAttempts) : Exact policy s := by
  refine ⟨h.relied.shared.lookups, h.counted, fun hgrace => ?_, fun hnone => ?_⟩
  · obtain ⟨p, hpolicy, hattempt, -⟩ := h.relied.shared.grace hgrace
    rw [hpolicy, Option.map_some, hattempt]
  · have heq : s.shared.attempts = s.shared.failures := by
      refine le_antisymm h.counted (Nat.le_of_not_lt fun hlt => ?_)
      obtain ⟨c, k, hc, hk⟩ := h.observed hlt
      exact hnone c k hc hk
    refine ⟨heq, fun hexpired => ?_, fun hmax => ?_⟩
    · rw [← heq, h.relied.shared.expired hexpired]
      exact hlength
    · have hall : s.shared.attempts = policy.retryIntervalsDays.length := by
        rw [← hlength, ← heq] at hmax
        exact_mod_cast hmax
      rcases h.relied.shared.known with hgrace | hexpired | hactive
      · obtain ⟨-, -, -, hlt⟩ := h.relied.shared.grace hgrace
        omega
      · exact hexpired
      · have hlt := h.relied.shared.active hactive
        omega

variable [DecidableEq ι]

theorem others_set (h : Others s c) (x : Process Point) :
    ∃ d k, (s.set c x b).processes d = .live k ∧ Observes k := by
  obtain ⟨d, k, hd, hlive, hk⟩ := h
  refine ⟨d, k, ?_, hk⟩
  rw [set_processes_of_ne s hd]
  exact hlive

theorem observed_set (h : Tallied policy s) (hc : s.processes c = .live k)
    (hlt : s.shared.attempts < s.shared.failures) (hleft : Observes k → Observes k' ∨ Others s c) :
    ∃ d k, (s.set c (.live k') b).processes d = .live k ∧ Observes k := by
  obtain ⟨d, kd, hd, hkd⟩ := h.observed hlt
  by_cases hdc : d = c
  · subst hdc
    rw [hc] at hd
    cases hd
    rcases hleft hkd with hk' | hothers
    · exact ⟨d, k', set_processes_self _ _ _ _, hk'⟩
    · exact others_set hothers _
  · exact others_set ⟨d, kd, hdc, hd, hkd⟩ _

theorem turned (hlength : (policy.retryIntervalsDays.length : ℚ) = policy.maxAttempts)
    (h : Tallied policy s) (hc : s.processes c = .live k) {choice : Choice}
    (hk : turn policy k choice s.shared = some (k', b))
    (haccounted : Accounted s (.turn c choice)) : Tallied policy (s.set c (.live k') b) := by
  have hst : Step (turn policy) s (.turn c choice) (s.set c (.live k') b) := by
    simp [Step, next, hc, hk]
  have hrelied := h.relied.step (dunned_keeps hlength) hst
  have hcoherent := h.relied.points c
  rw [hc] at hcoherent
  obtain ⟨hcounts, hquits⟩ := haccounted
  rw [hc] at hcounts hquits
  have hcounted := h.counted
  cases turned_dunned hlength hcoherent (turn_turned hk) with
  | looks _ _ hattempts hfailures _ _ hobserves =>
    refine ⟨hrelied, by rw [set_shared]; omega, fun hlt => ?_⟩
    rw [set_shared, hattempts, hfailures] at hlt
    refine h.observed_set hc hlt fun hk => ?_
    by_cases hk' : Observes k'
    · exact .inl hk'
    · refine .inr ((hquits ((hobserves hk).mpr hk')).resolve_right ?_)
      omega
  | fails _ _ hattempts hfailures =>
    refine ⟨hrelied, by rw [set_shared]; omega, fun _ => ⟨c, _, set_processes_self _ _ _ _, ?_⟩⟩
    trivial
  | recovers | recovered =>
    exact ⟨hrelied, h.counted, fun hlt => h.observed_set hc hlt fun hk => False.elim hk⟩
  | reschedules =>
    exact ⟨hrelied, h.counted, fun hlt => h.observed_set hc hlt fun _ => .inl trivial⟩
  | counts hversion =>
    obtain ⟨hlt, hothers⟩ := hcounts hversion
    refine ⟨hrelied, hlt, fun hlt' => others_set (hothers.resolve_right ?_) _⟩
    rw [set_shared] at hlt'
    exact hlt'.ne

theorem crash (hlength : (policy.retryIntervalsDays.length : ℚ) = policy.maxAttempts)
    (h : Tallied policy s) (hc : s.processes c = .live k)
    (haccounted : Accounted s (.crash c : Label Choice ι)) :
    Tallied policy (s.set c (.crashed k) s.shared) := by
  have hst : Step (turn policy) s (.crash c) (s.set c (.crashed k) s.shared) := by
    simp [Step, next, hc]
  refine ⟨h.relied.step (dunned_keeps hlength) hst, h.counted, fun hlt => ?_⟩
  rw [set_shared] at hlt
  rw [Accounted, hc] at haccounted
  obtain ⟨d, kd, hd, hkd⟩ := h.observed hlt
  by_cases hdc : d = c
  · subst hdc
    rw [hc] at hd
    cases hd
    exact others_set ((haccounted hkd).resolve_right hlt.ne) _
  · exact others_set ⟨d, kd, hdc, hd, hkd⟩ _

theorem step (hlength : (policy.retryIntervalsDays.length : ℚ) = policy.maxAttempts)
    {l : Label Choice ι} (h : Tallied policy s) (hst : Step (turn policy) s l u)
    (haccounted : Accounted s l) : Tallied policy u := by
  cases step_move hst with
  | turn hc hk => exact h.turned hlength hc hk haccounted
  | crash hc => exact h.crash hlength hc haccounted

theorem unsettled {x : Process Point} (hexact : Exact policy (s.set c x b))
    (hx : ∀ k, x = .live k → ¬ Observes k) (hothers : ¬ Others s c) : b.attempts = b.failures := by
  refine (hexact.settled fun d kd hd hkd => ?_).1
  by_cases hdc : d = c
  · subst hdc
    rw [set_processes_self] at hd
    exact hx kd hd hkd
  · rw [set_processes_of_ne s hdc] at hd
    exact hothers ⟨d, kd, hdc, hd, hkd⟩

/-- A step that miscounts shows at once. -/
theorem broken (hlength : (policy.retryIntervalsDays.length : ℚ) = policy.maxAttempts)
    {l : Label Choice ι} (h : Tallied policy s) (hst : Step (turn policy) s l u)
    (haccounted : ¬ Accounted s l) : ¬ Exact policy u := by
  intro hexact
  have hcounted := h.counted
  cases step_move hst with
  | @crash c k hc =>
    rw [Accounted, hc] at haccounted
    obtain ⟨-, hlost⟩ := Classical.not_imp.mp haccounted
    obtain ⟨hothers, hne⟩ := not_or.mp hlost
    exact hne (unsettled hexact (fun _ hlive => by cases hlive) hothers)
  | @turn c k choice k' shared hc hk =>
    have hcoherent := h.relied.points c
    rw [hc] at hcoherent
    rw [Accounted, hc] at haccounted
    cases turned_dunned hlength hcoherent (turn_turned hk) with
    | looks _ _ hattempts hfailures _ hcounts hobserves =>
      obtain ⟨hquits, hlost⟩ := Classical.not_imp.mp fun hquits =>
        haccounted ⟨fun h => absurd h hcounts, hquits⟩
      obtain ⟨hothers, hne⟩ := not_or.mp hlost
      have hobserved : Observes k := by
        cases k with
        | rereading | rescheduling | savingSchedule => trivial
        | _ => cases hquits
      have hdone := (hobserves hobserved).mp hquits
      have hequal := unsettled hexact (fun _ hlive => by cases hlive; exact hdone) hothers
      omega
    | counts hversion =>
      obtain ⟨-, hmiscounted⟩ := Classical.not_imp.mp fun hcounts =>
        haccounted ⟨hcounts, fun hquits => absurd hversion hquits⟩
      have hle : s.shared.attempts + 1 ≤ s.shared.failures := hexact.counted
      obtain ⟨hothers, hne⟩ := not_or.mp fun h => hmiscounted ⟨hle, h⟩
      exact hne (unsettled hexact (fun _ hlive => by cases hlive; exact id) hothers)
    | reschedules hgrace => exact haccounted ⟨nofun, fun hquits => absurd hgrace hquits⟩
    | fails | recovers | recovered => exact haccounted ⟨nofun, nofun⟩

end Tallied

theorem scheduled_pos (h : Entered policy s) (hexact : Exact policy s) :
    0 < policy.retryIntervalsDays.length := by
  obtain ⟨before, now, hactive, hlookups, -⟩ := h.entered
  by_contra hnone
  have hnil : policy.retryIntervalsDays = [] := List.eq_nil_of_length_eq_zero (by omega)
  have hzero : 0 ∈ s.shared.lookups := by
    rw [hlookups, enterDunning_none s.shared.invoice.id now hactive hnil]
    exact List.mem_singleton_self 0
  exact hnone (hexact.scheduled 0 hzero)

/-- The attempts are exact in every state of a run precisely when the policy has an attempt, and
every step accounts for the failures that were seen. -/
theorem exact_iff [DecidableEq ι] {given : Option DunningPolicy}
    (hp : buildPolicy given = .ok policy) (hs : Entered policy s)
    {tr : List (Label Choice ι × State Shared Point ι)} (hr : Run (Step (turn policy)) s tr) :
    Always (Exact policy) s tr ↔ 1 ≤ policy.maxAttempts ∧ EveryStep Accounted s tr := by
  have hlength := buildPolicy_length hp
  have hpos : 0 < policy.retryIntervalsDays.length ↔ 1 ≤ policy.maxAttempts := by
    rw [← hlength, Nat.one_le_cast]
    exact Nat.succ_le_iff.symm
  have hiff (hany : 0 < policy.retryIntervalsDays.length) :
      Always (Exact policy) s tr ↔ EveryStep Accounted s tr :=
    always_iff_everyStep (I := Tallied policy) (fun _ _ _ h hst => h.step hlength hst)
      (fun _ h => h.exact hlength) (fun _ _ _ h hst => h.broken hlength hst)
      (.start hs hany) hr
  constructor
  · intro halways
    have hany := scheduled_pos hs halways.head
    exact ⟨hpos.mp hany, (hiff hany).mp halways⟩
  · rintro ⟨hmax, haccounted⟩
    exact (hiff (hpos.mpr hmax)).mpr haccounted

section Samples

private def failedInvoice : Invoice :=
  ⟨"invoice", "tenant", "AED", [⟨"Plan", 9900⟩], .failed, none, none, 3⟩

private def active : Subscription := ⟨"subscription", .active, none, none, 1⟩

/-- Two retries on a subscription that `EnterDunning` has just put in grace. -/
private def inGrace : State Shared Point (Fin 2) where
  shared := ⟨failedInvoice, ⟨"subscription", .grace, some 11,
    some ⟨3, 0, some 86400000, some "invoice"⟩, 2⟩, [], [], 0, 0, [0]⟩
  processes _ := .live .retrying

/-- The same where the policy allows no attempt. -/
private def refused : State Shared Point (Fin 2) where
  shared := ⟨failedInvoice, active, [], [], 0, 0, [0]⟩
  processes _ := .live .retrying

private theorem inGrace_entered : Entered defaultDunningPolicy inGrace :=
  ⟨⟨active, 0, by decide +kernel⟩, ⟨rfl, rfl⟩, fun _ => rfl⟩

private theorem refused_entered : Entered ⟨0, [], 0⟩ refused :=
  ⟨⟨active, 0, by decide +kernel⟩, ⟨rfl, rfl⟩, fun _ => rfl⟩

private def retries (c : Fin 2) (turns : ℕ) : List (Label Choice (Fin 2)) :=
  List.replicate turns (.turn c (.proceeds 0))

/-- One retry fails and is counted. -/
theorem exact_iff_counted :
    Always (Exact defaultDunningPolicy) inGrace (attempt (next (turn defaultDunningPolicy)) inGrace
      (retries 0 5 ++ [.turn 0 (.rejects "declined")] ++ retries 0 5)) ∧
      1 ≤ defaultDunningPolicy.maxAttempts ∧
      EveryStep Accounted inGrace (attempt (next (turn defaultDunningPolicy)) inGrace
        (retries 0 5 ++ [.turn 0 (.rejects "declined")] ++ retries 0 5)) := by
  have haccounted : EveryStep Accounted inGrace (attempt (next (turn defaultDunningPolicy)) inGrace
      (retries 0 5 ++ [.turn 0 (.rejects "declined")] ++ retries 0 5)) := by
    decide +kernel
  have hmax : 1 ≤ defaultDunningPolicy.maxAttempts := by decide +kernel
  exact ⟨(exact_iff buildPolicy_default inGrace_entered (run_attempt _ _ _)).mpr
    ⟨hmax, haccounted⟩, hmax, haccounted⟩

/-- Two retries are rejected under one key and both count the one failure that is settled, and a
policy without an attempt is looked up at the first. -/
theorem exact_fails :
    ¬ (∀ (given : Option DunningPolicy) (policy : DunningPolicy) (s : State Shared Point (Fin 2))
        (tr : List (Label Choice (Fin 2) × State Shared Point (Fin 2))),
        buildPolicy given = .ok policy → Entered policy s → Run (Step (turn policy)) s tr →
        1 ≤ policy.maxAttempts → Always (Exact policy) s tr) ∧
      ¬ ∀ (given : Option DunningPolicy) (policy : DunningPolicy) (s : State Shared Point (Fin 2)),
        buildPolicy given = .ok policy → Entered policy s → Exact policy s := by
  constructor
  · intro h
    have hcounted := (h none _ inGrace _ buildPolicy_default inGrace_entered (run_attempt _ _
      (retries 0 5 ++ retries 1 3 ++
        [.turn 0 (.rejects "declined"), .turn 1 (.rejects "declined")] ++
        retries 0 5 ++ retries 1 4)) (by decide +kernel)).last.counted
    exact absurd hcounted (by decide +kernel)
  · intro h
    have hscheduled := (h (some ⟨0, [], 0⟩) ⟨0, [], 0⟩ refused (by decide +kernel)
      refused_entered).scheduled
    exact absurd hscheduled (by decide +kernel)

end Samples

end Licensing
