import Lumo.TokenBucket
import Lumo.TrackingCalls

/-! # The rate limit over whole runs

The requests of any sequence of deliveries, against the bound of the destination's descriptor. -/
namespace Tracking

open LabelledRuns TokenBucket

variable {policy : DeliveryPolicy} {limit : RateLimitDescriptor} {calls after : Calls}
  {answer : DeliveryAnswer} {bucket : RateLimitState} {sends : List ℚ} {now t : ℚ}

namespace RateLimitDescriptor

/-- Tokens for a millisecond. -/
def rate (limit : RateLimitDescriptor) : ℚ := limit.requestsPerSecond / 1000

theorem rate_pos (limit : RateLimitDescriptor) : 0 ≤ limit.rate :=
  div_nonneg limit.rate_nonneg (by norm_num)

end RateLimitDescriptor

/-- In no interval are there more requests than the burst and the rate admission. -/
def WithinLimit (limit : RateLimitDescriptor) (calls : Calls) : Prop :=
  Bounded limit.burst limit.rate calls.sends

/-- A bucket of which every request takes a token at the moment when it is made has one left. -/
def HasToken (limit : RateLimitDescriptor) (calls : Calls) : DeliveryAnswer → Prop
  | .sends _ sentAt _ _ => 1 ≤ level limit.burst limit.rate calls.sends sentAt
  | _ => True

/-- A request is made at the moment at which its token is taken, and none waits for a token. -/
def Punctual (limit : RateLimitDescriptor) (calls : Calls) : DeliveryAnswer → Prop
  | .sends pacing sentAt _ _ =>
    match calls.point with
    | .attempting 0 _ => sentAt = calls.now
    | .attempting (_ + 1) held =>
      (consumeToken held.rateLimit limit pacing.probedAt).allowed = true ∧
        sentAt = pacing.probedAt
    | _ => True
  | _ => True

instance : Decidable (Punctual limit calls answer) :=
  match answer, calls with
  | .sends _ _ _ _, { point := .attempting 0 _, .. } => inferInstanceAs (Decidable (_ = _))
  | .sends _ _ _ _, { point := .attempting (_ + 1) _, .. } =>
    inferInstanceAs (Decidable (_ ∧ _ = _))
  | .sends _ _ _ _, { point := .starting _, .. } => .isTrue trivial
  | .sends _ _ _ _, { point := .claiming _, .. } => .isTrue trivial
  | .sends _ _ _ _, { point := .burying _ _ _, .. } => .isTrue trivial
  | .sends _ _ _ _, { point := .returned _ _, .. } => .isTrue trivial
  | .starts _ _, _ => .isTrue trivial
  | .claims _ _, _ => .isTrue trivial
  | .buries, _ => .isTrue trivial

/-- The requests so far are within the limit, and none is later than the clock. -/
structure Limited (limit : RateLimitDescriptor) (calls : Calls) : Prop where
  within : WithinLimit limit calls
  dated : (calls.now :: calls.sends).Pairwise (· ≥ ·)

theorem pairwise_later {now t : ℚ} (h : (now :: sends).Pairwise (· ≥ ·)) (hle : now ≤ t) :
    (t :: sends).Pairwise (· ≥ ·) := by
  obtain ⟨hlatest, hrest⟩ := List.pairwise_cons.mp h
  exact List.pairwise_cons.mpr ⟨fun x hx => (hlatest x hx).trans hle, hrest⟩

theorem sent_after (h : CallStep policy calls answer after) {pacing : Pacing}
    {sentAt answeredAt : ℚ} {response : DeliveryResponse}
    (hanswer : answer = .sends pacing sentAt answeredAt response) :
    calls.now ≤ sentAt ∧ sentAt ≤ answeredAt ∧ after.now = answeredAt ∧
      after.sends = sentAt :: calls.sends := by
  cases h with
  | @sent attempts _ _ _ _ _ _ _ _ hfirst hlater hclock =>
    cases hanswer
    refine ⟨?_, hclock, rfl, rfl⟩
    by_cases hzero : attempts = 0
    · exact hfirst hzero
    · obtain ⟨hprobed, hresumed, hsent⟩ := hlater hzero
      exact (hprobed.trans hresumed).trans hsent
  | _ => cases hanswer

theorem sends_same (h : CallStep policy calls answer after)
    (hanswer : ∀ pacing sentAt answeredAt response,
      answer ≠ .sends pacing sentAt answeredAt response) :
    after.sends = calls.sends ∧ calls.now ≤ after.now := by
  cases h with
  | sent => exact absurd rfl (hanswer _ _ _ _)
  | blocked _ hclock | admitted _ hclock => exact ⟨rfl, hclock⟩
  | claimed | buried => exact ⟨rfl, le_rfl⟩

namespace Limited

theorem dated_after (h : Limited limit calls) (hst : CallStep policy calls answer after) :
    (after.now :: after.sends).Pairwise (· ≥ ·) := by
  by_cases hanswer : ∃ pacing sentAt answeredAt response,
      answer = .sends pacing sentAt answeredAt response
  · obtain ⟨pacing, sentAt, answeredAt, response, heq⟩ := hanswer
    obtain ⟨hle, hanswered, hnow, hsends⟩ := sent_after hst heq
    rw [hnow, hsends]
    refine List.pairwise_cons.mpr ⟨?_, pairwise_later h.dated hle⟩
    intro x hx
    rcases List.mem_cons.mp hx with rfl | hx
    · exact hanswered
    · have hx := (List.pairwise_cons.mp h.dated).1 x hx
      exact (hx.le.trans hle).trans hanswered
  · push Not at hanswer
    obtain ⟨hsends, hle⟩ := sends_same hst hanswer
    rw [hsends]
    exact pairwise_later h.dated hle

theorem within_iff (h : Limited limit calls) (hst : CallStep policy calls answer after) :
    WithinLimit limit after ↔ HasToken limit calls answer := by
  by_cases hanswer : ∃ pacing sentAt answeredAt response,
      answer = .sends pacing sentAt answeredAt response
  · obtain ⟨pacing, sentAt, answeredAt, response, heq⟩ := hanswer
    obtain ⟨hle, -, -, hsends⟩ := sent_after hst heq
    subst heq
    rw [WithinLimit, hsends, bounded_cons_iff limit.rate_pos (pairwise_later h.dated hle)]
    exact and_iff_right h.within
  · push Not at hanswer
    obtain ⟨hsends, -⟩ := sends_same hst hanswer
    have htoken : HasToken limit calls answer := by
      cases answer with
      | sends pacing sentAt answeredAt response => exact absurd rfl (hanswer _ _ _ _)
      | _ => trivial
    rw [WithinLimit, hsends]
    exact iff_of_true h.within htoken

end Limited

structure Spare (limit : RateLimitDescriptor) (sends : List ℚ) (now : ℚ)
    (bucket : RateLimitState) : Prop where
  refilled : bucket.lastRefillMs ≤ now
  tokens : (refill bucket limit now).tokens ≤ level limit.burst limit.rate sends now

structure Reserved (limit : RateLimitDescriptor) (sends : List ℚ) (now : ℚ)
    (bucket : RateLimitState) : Prop where
  refilled : bucket.lastRefillMs = now
  nonneg : 0 ≤ bucket.tokens
  tokens : bucket.tokens + 1 ≤ level limit.burst limit.rate sends now

theorem refill_tokens (h : bucket.lastRefillMs ≤ t) :
    (refill bucket limit t).tokens =
      min limit.burst (bucket.tokens + limit.rate * (t - bucket.lastRefillMs)) := by
  have hmax : max 0 (t - bucket.lastRefillMs) = t - bucket.lastRefillMs :=
    max_eq_right (by linarith)
  simp only [refill, hmax, RateLimitDescriptor.rate]
  congr 2
  ring

theorem refill_later (hrefilled : bucket.lastRefillMs ≤ now) (hle : now ≤ t) :
    (refill bucket limit t).tokens =
      min limit.burst ((refill bucket limit now).tokens + limit.rate * (t - now)) := by
  have hgain : 0 ≤ limit.rate * (t - now) := mul_nonneg limit.rate_pos (by linarith)
  rw [refill_tokens hrefilled, refill_tokens (hrefilled.trans hle), min_add, ← min_assoc,
    min_eq_left (by linarith : limit.burst ≤ limit.burst + _)]
  congr 1
  ring

namespace Spare

theorem later (h : Spare limit sends now bucket) (hle : now ≤ t) : Spare limit sends t bucket where
  refilled := h.refilled.trans hle
  tokens := by
    rw [refill_later h.refilled hle, level_later limit.rate_pos sends hle]
    have htokens := h.tokens
    exact min_le_min le_rfl (by linarith)

theorem take (h : Spare limit sends now bucket) (htoken : 1 ≤ (refill bucket limit now).tokens) :
    Reserved limit sends now
      { refill bucket limit now with tokens := (refill bucket limit now).tokens - 1 } := by
  have htokens := h.tokens
  refine ⟨rfl, ?_, ?_⟩
  · change 0 ≤ (refill bucket limit now).tokens - 1
    linarith
  · change (refill bucket limit now).tokens - 1 + 1 ≤ _
    linarith

theorem refused (h : Spare limit sends now bucket) :
    Spare limit sends now (refill bucket limit now) := by
  refine ⟨le_rfl, le_trans ?_ h.tokens⟩
  have hagain : (refill (refill bucket limit now) limit now).tokens =
      min limit.burst ((refill bucket limit now).tokens + limit.rate * (now - now)) :=
    refill_tokens le_rfl
  rw [hagain, sub_self, mul_zero, add_zero]
  exact min_le_right _ _

end Spare

namespace Reserved

theorem spare (h : Reserved limit sends now bucket) : Spare limit sends now bucket := by
  refine ⟨h.refilled.le, ?_⟩
  have htokens := h.tokens
  rw [refill_tokens h.refilled.le, h.refilled, sub_self, mul_zero, add_zero]
  exact (min_le_right _ _).trans (by linarith)

theorem hasToken (h : Reserved limit sends now bucket) :
    1 ≤ level limit.burst limit.rate sends now := by
  have hnonneg := h.nonneg
  have htokens := h.tokens
  linarith

theorem send (h : Reserved limit sends now bucket) : Spare limit (now :: sends) now bucket := by
  refine ⟨h.refilled.le, ?_⟩
  have htokens := h.tokens
  rw [refill_tokens h.refilled.le, h.refilled, sub_self, mul_zero, add_zero, level_cons_self]
  exact min_le_min le_rfl (by linarith)

end Reserved

/-- Between the token and the request it is reserved; everywhere else it is spare. -/
def InTurn (limit : RateLimitDescriptor) (calls : Calls) : Prop :=
  match calls.point with
  | .claiming held => Reserved limit calls.sends calls.now held.rateLimit
  | .attempting 0 held => Reserved limit calls.sends calls.now held.rateLimit
  | point => Spare limit calls.sends calls.now point.held.rateLimit

theorem InTurn.spare (h : InTurn limit calls) :
    Spare limit calls.sends calls.now calls.point.held.rateLimit := by
  unfold InTurn at h
  split at h
  · rename_i held hpoint
    rw [hpoint]
    exact h.spare
  · rename_i held hpoint
    rw [hpoint]
    exact h.spare
  · exact h

theorem afterResponse_point (policy : DeliveryPolicy) (attempts : ℕ) (held : DestinationRuntimeState) (answeredAt : ℚ)
    (response : DeliveryResponse) :
    (afterResponse policy (attempts + 1) held answeredAt response).held.rateLimit =
        held.rateLimit ∧
      ((∃ outcome state, afterResponse policy (attempts + 1) held answeredAt response =
          .returned outcome state) ∨
        (∃ state, afterResponse policy (attempts + 1) held answeredAt response =
          .attempting (attempts + 1) state) ∨
        ∃ lastError state, afterResponse policy (attempts + 1) held answeredAt response =
          .burying (attempts + 1) lastError state) := by
  unfold afterResponse
  split
  · exact ⟨rfl, .inl ⟨_, _, rfl⟩⟩
  · split
    · exact ⟨rfl, .inr (.inl ⟨_, rfl⟩)⟩
    · exact ⟨rfl, .inr (.inr ⟨_, _, rfl⟩)⟩

theorem admit_inTurn (hlimit : policy.rateLimit = some limit) {held : DestinationRuntimeState}
    (h : Spare limit sends now held.rateLimit) {calls : Calls}
    (hpoint : calls.point = admission policy held now) (hnow : calls.now = now)
    (hsends : calls.sends = sends) : InTurn limit calls := by
  rw [InTurn, hpoint, hnow, hsends, admission, hlimit]
  by_cases htoken : 1 ≤ (refill held.rateLimit limit now).tokens
  · simp only [consumeToken_of_token htoken, if_true]
    split
    · rename_i hadmitted
      split at hadmitted
      · cases hadmitted
        exact h.take htoken
      · cases hadmitted
    · rename_i hadmitted
      split at hadmitted
      · cases hadmitted
      · cases hadmitted
    · split
      · exact (h.take htoken).spare
      · exact (h.take htoken).spare
  · obtain ⟨hrefused, hstate⟩ := consumeToken_of_empty htoken
    simp only [hrefused, hstate, Bool.false_eq_true, if_false]
    exact h.refused

/-- A punctual step has its token, and keeps the bucket in turn. -/
theorem InTurn.step (hlimit : policy.rateLimit = some limit) (h : InTurn limit calls)
    (hst : CallStep policy calls answer after) (hpunctual : Punctual limit calls answer) :
    HasToken limit calls answer ∧ InTurn limit after := by
  cases hst with
  | @blocked startedAt breach held hpoint hclock =>
    refine ⟨trivial, ?_⟩
    have hheld : held = calls.point.held := by
      rw [← calls.point.again_held, hpoint]
      rfl
    subst hheld
    exact h.spare.later hclock
  | @admitted startedAt held hpoint hclock =>
    refine ⟨trivial, ?_⟩
    have hheld : held = calls.point.held := by
      rw [← calls.point.again_held, hpoint]
      rfl
    subst hheld
    exact admit_inTurn hlimit (h.spare.later hclock) rfl rfl rfl
  | @claimed isNew unready held after hpoint hafter =>
    refine ⟨trivial, ?_⟩
    rw [InTurn, hpoint] at h
    rcases hafter with rfl | ⟨outcome, rfl⟩
    · exact h
    · exact Reserved.spare h
  | @sent attempts held pacing sentAt answeredAt response rateLimit hpoint hpace hfirst hlater hclock =>
    rw [Punctual, hpoint] at hpunctual
    rw [InTurn, hpoint] at h
    have hreserved : Reserved limit calls.sends sentAt rateLimit := by
      cases attempts with
      | zero =>
        obtain rfl : sentAt = calls.now := hpunctual
        rw [hpace, if_pos rfl]
        exact h
      | succ attempts =>
        obtain ⟨hallowed, rfl⟩ := hpunctual
        have htoken := consumeToken_allowed.mp hallowed
        obtain ⟨hprobed, -, -⟩ := hlater (Nat.succ_ne_zero _)
        have hspare : Spare limit calls.sends calls.now held.rateLimit := h
        rw [hpace, if_neg (Nat.succ_ne_zero _), pace, hlimit]
        simp only [consumeToken_of_token htoken, if_true]
        exact (hspare.later hprobed).take htoken
    refine ⟨hreserved.hasToken, ?_⟩
    have hspare := hreserved.send.later hclock
    obtain ⟨hsame, hpoints⟩ := afterResponse_point policy attempts
      { held with rateLimit := rateLimit } answeredAt response
    rcases hpoints with ⟨outcome, state, hafter⟩ | ⟨state, hafter⟩ | ⟨lastError, state, hafter⟩
    · rw [hafter] at hsame ⊢
      change state.rateLimit = rateLimit at hsame
      rw [← hsame] at hspare
      exact hspare
    · rw [hafter] at hsame ⊢
      change state.rateLimit = rateLimit at hsame
      rw [← hsame] at hspare
      exact hspare
    · rw [hafter] at hsame ⊢
      change state.rateLimit = rateLimit at hsame
      rw [← hsame] at hspare
      exact hspare
  | @buried attempts lastError held hpoint =>
    refine ⟨trivial, ?_⟩
    rw [InTurn, hpoint] at h
    exact h

theorem first_inTurn (hlimit : policy.rateLimit = some limit) (now : ℚ) :
    InTurn limit (Calls.first policy now) := by
  have hpoint : (Calls.first policy now).point = .starting ⟨initialCircuit, initialRateLimit limit now⟩ := by
    rw [Calls.first, hlimit]
  rw [InTurn, hpoint]
  refine ⟨le_rfl, ?_⟩
  exact min_le_left _ _

theorem first_limited (now : ℚ) : Limited limit (Calls.first policy now) where
  within := bounded_nil limit.burst_nonneg limit.rate_pos
  dated := List.pairwise_singleton _ _

theorem everyStep_hasToken (hlimit : policy.rateLimit = some limit)
    {tr : List (DeliveryAnswer × Calls)} (h : InTurn limit calls)
    (hr : Run (Calls.Step policy) calls tr) (hpunctual : EveryStep (Punctual limit) calls tr) :
    EveryStep (HasToken limit) calls tr := by
  induction tr generalizing calls with
  | nil => trivial
  | cons x rest ih =>
    obtain ⟨htoken, hafter⟩ := h.step hlimit (Calls.step_cases hr.1) hpunctual.1
    exact ⟨htoken, ih hafter hr.2 hpunctual.2⟩

section Samples

/-- Two requests at once, and one a second. -/
private def twoAtOnce : RateLimitDescriptor := ⟨1, 2, by decide, by decide⟩

private def paced : DeliveryPolicy := ⟨some twoAtOnce, none, 4, by decide⟩

private def accepted : DeliveryResponse := ⟨true, some 200, false, none, 0⟩

private def unavailable : DeliveryResponse := ⟨false, some 503, true, none, 0⟩

/-- A request that is accepted at the moment when the delivery starts. -/
private def delivers (time : ℚ) : List DeliveryAnswer :=
  [.starts time none, .claims true none, .sends ⟨time, 0, time⟩ time time accepted]

end Samples

end Tracking
