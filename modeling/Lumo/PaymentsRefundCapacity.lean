import Lumo.PaymentsIntentRuns
import Mathlib.Data.List.Chain

/-! # No over-refund in the aggregate

Completing a refund that has already failed takes back the capacity its failure released.
Along a run the refunds fit the charges exactly when no step completes a failed refund that
no longer fits. -/
namespace PaymentsIntent

open SharedKernel LabelledRuns PaymentIntent

variable {p q : PaymentIntent}

variable {r : Refund}

theorem refundTotal_push (keep : RefundStatus → Bool) (h : q.refunds = p.refunds ++ [r]) :
    refundTotal keep q = refundTotal keep p + if keep r.status then r.amount.amountMinor else 0 := by
  unfold refundTotal
  rw [h]
  by_cases hk : keep r.status = true
  · simp [List.filter_append, hk]
  · simp [List.filter_append, hk]

def totalWithout (keep : RefundStatus → Bool) (before after : List Refund) : ℕ :=
  (((before ++ after).filter fun r => keep r.status).map fun r => r.amount.amountMinor).sum

theorem refundTotal_split {before after : List Refund} (keep : RefundStatus → Bool)
    (h : p.refunds = before ++ r :: after) :
    refundTotal keep p = totalWithout keep before after +
      if keep r.status then r.amount.amountMinor else 0 := by
  unfold refundTotal totalWithout
  rw [h]
  by_cases hk : keep r.status = true
  · simp [List.filter_append, hk]; omega
  · simp [List.filter_append, hk]

theorem refundTotal_congr (keep : RefundStatus → Bool) (h : q.refunds = p.refunds) :
    refundTotal keep q = refundTotal keep p := by
  simp [refundTotal, h]

theorem captured_congr (h : q.charges = p.charges) : q.captured = p.captured := by
  simp [captured, h]

theorem captured_push {c : Charge} (h : q.charges = p.charges ++ [c]) :
    q.captured = p.captured + c.amount.amountMinor := by
  simp [captured, h]

theorem SameOrder.oneCurrency (h : SameOrder p q) (hp : OneCurrency p)
    (hc : ∀ c ∈ q.charges, c.amount.currency = p.amount.currency)
    (hr : ∀ r ∈ q.refunds, r.amount.currency = p.amount.currency) : OneCurrency q where
  charges c hm := by rw [h.amount]; exact hc c hm
  refunds r hm := by rw [h.amount]; exact hr r hm
  authorized m hm := by
    rw [h.amount]
    rcases h.authorized m hm with hm | hm
    · exact hp.authorized m hm
    · exact hm

theorem recordedCharge_currency {op : Operation} {m : Money} (hp : OneCurrency p)
    (h : recordedCharge p op = some m) : m.currency = p.amount.currency := by
  cases op with
  | capture _ eventId =>
    by_cases hs : p.status = .requiresPayment ∧ isBlank eventId = false
    · simp only [recordedCharge, hs, and_self, if_true, Option.some.injEq] at h
      rw [← h]
    · simp [recordedCharge, hs] at h
  | markCaptured eventId =>
    by_cases hb : isBlank eventId = false
    · simp only [recordedCharge, hb, if_true, Option.some.injEq] at h
      cases ha : p.authorizedAmount with
      | none => rw [← h, ha]; rfl
      | some a =>
        rw [← h, ha]
        exact hp.authorized a ha
    · simp [recordedCharge, hb] at h
  | _ => simp [recordedCharge] at h

theorem remaining_currency {left : Money} (hp : OneCurrency p) (h : p.remaining = .ok left) :
    left.currency = p.amount.currency ∧ p.reserved + left.amountMinor = p.captured := by
  rw [remaining_eq hp] at h
  split at h
  · cases h
  · cases h
    exact ⟨rfl, by simp; omega⟩

theorem oneCurrency_step (hp : OneCurrency p) (op : Operation) : OneCurrency (final op.run p) := by
  have he := operation_effect p op
  generalize final op.run p = q at he
  cases he with
  | quiet _ ho hc hr =>
    exact ho.oneCurrency hp (by rw [hc]; exact hp.charges) (by rw [hr]; exact hp.refunds)
  | charge ho hc hr hm =>
    refine ho.oneCurrency hp ?_ (by rw [hr]; exact hp.refunds)
    intro c hmem
    rw [hc] at hmem
    rcases List.mem_append.mp hmem with hmem | hmem
    · exact hp.charges c hmem
    · rw [List.mem_singleton.mp hmem]
      exact recordedCharge_currency hp hm
  | refund ho hc hr hl hcur | reserve ho hc hr hl hcur =>
    refine ho.oneCurrency hp (by rw [hc]; exact hp.charges) ?_
    intro r hmem
    rw [hr] at hmem
    rcases List.mem_append.mp hmem with hmem | hmem
    · exact hp.refunds r hmem
    · rw [List.mem_singleton.mp hmem]
      exact hcur.trans (remaining_currency hp hl).1
  | @complete _ r q before after ho hc _ hs hr | @release _ r q before after ho hc _ hs hr =>
    refine ho.oneCurrency hp (by rw [hc]; exact hp.charges) ?_
    intro x hmem
    rw [hr] at hmem
    have hold : ∀ r ∈ p.refunds, r.amount.currency = p.amount.currency := hp.refunds
    rw [hs] at hold
    rcases List.mem_append.mp hmem with hmem | hmem
    · exact hold x (List.mem_append_left _ hmem)
    · rcases List.mem_cons.mp hmem with rfl | hmem
      · exact hold r (by simp)
      · exact hold x (List.mem_append_right _ (List.mem_cons_of_mem _ hmem))

theorem Created.oneCurrency (h : Created p) : OneCurrency p := by
  obtain ⟨id, amount, provider, rfl | rfl⟩ := h
  · exact ⟨by simp [create], by simp [create], by simp [create]⟩
  · exact ⟨by simp [create, createIntent], by simp [create, createIntent],
      by simp [create, createIntent]⟩

/-- The refunds that have not failed fit the charges, in the currency of the intent, and
`remaining` answers. -/
structure WithinCapacity (p : PaymentIntent) : Prop where
  covered : p.reserved ≤ p.captured
  currency : ∀ r ∈ p.refunds, r.amount.currency = p.amount.currency
  remaining : ∃ left, p.remaining = .ok left

theorem withinCapacity_iff (hp : OneCurrency p) : WithinCapacity p ↔ p.reserved ≤ p.captured := by
  refine ⟨fun h => h.covered, fun h => ⟨h, hp.refunds, ?_⟩⟩
  rw [remaining_eq hp, if_neg (by omega)]
  exact ⟨_, rfl⟩

/-- The step completes a failed refund, and its amount is more than what is left. -/
def OvercompletesFailed (p : PaymentIntent) : Operation → Prop
  | .completeRefund refundId => ∃ r, p.findReservedRefund refundId = .ok r ∧ r.status = .failed ∧
      p.captured < p.reserved + r.amount.amountMinor
  | _ => False

theorem capacity_step (hp : OneCurrency p) (hcap : p.reserved ≤ p.captured) (op : Operation) :
    (final op.run p).reserved ≤ (final op.run p).captured ↔
      ¬ OvercompletesFailed p op := by
  have he := operation_effect p op
  generalize final op.run p = q at he
  cases he with
  | quiet hq _ hc hr =>
    have hno : ¬ OvercompletesFailed p op := by
      cases op <;> try exact id
      rintro ⟨r, hf, _⟩
      exact hq.settled r hf
    rw [reserved, refundTotal_congr _ hr, captured_congr hc]
    exact iff_of_true hcap hno
  | charge _ hc hr hm =>
    have hno : ¬ OvercompletesFailed p op := by
      cases op <;> first | exact id | simp [recordedCharge] at hm
    rw [reserved, refundTotal_congr _ hr, captured_push hc]
    exact iff_of_true (Nat.le_add_right_of_le hcap) hno
  | refund _ hc hr hl _ hle | reserve _ hc hr hl _ hle =>
    have hleft := (remaining_currency hp hl).2
    rw [reserved, refundTotal_push _ hr, captured_congr hc]
    refine iff_of_true ?_ id
    simp [reserved] at hleft ⊢
    omega
  | @complete refundId r q before after _ hc hf hs hr =>
    have hold := refundTotal_split (· != .failed) hs
    have hnew := refundTotal_split (· != .failed) hr
    simp only [OvercompletesFailed, hf, Except.ok.injEq, exists_eq_left', reserved] at hcap ⊢
    rw [hnew, captured_congr hc]
    cases hst : r.status <;> simp [hst, Refund.markCompleted] at hold ⊢ <;> omega
  | @release refundId r q before after _ hc hf hs hr =>
    have hold := refundTotal_split (· != .failed) hs
    have hnew := refundTotal_split (· != .failed) hr
    refine iff_of_true ?_ id
    simp only [reserved] at hcap ⊢
    rw [hnew, captured_congr hc]
    simp [Refund.markFailed]
    omega

/-- Along any run the refunds stay within the captured amount if and only if no step completes
a failed refund that no longer fits. -/
theorem run_withinCapacity_iff {p : PaymentIntent} {tr : List (Operation × PaymentIntent)}
    (hc : Created p) (hr : Run Step p tr) :
    Always WithinCapacity p tr ↔ EveryStep (fun s op => ¬ OvercompletesFailed s op) p tr := by
  refine always_iff_everyStep (I := fun s => OneCurrency s ∧ s.reserved ≤ s.captured)
    ?_ ?_ ?_ ⟨hc.oneCurrency, ?_⟩ hr
  · rintro s op u ⟨hs, hcap⟩ rfl hg
    exact ⟨oneCurrency_step hs op, (capacity_step hs hcap op).mpr hg⟩
  · rintro s ⟨hs, hcap⟩
    exact (withinCapacity_iff hs).mpr hcap
  · rintro s op u ⟨hs, hcap⟩ rfl hg hw
    exact hg ((capacity_step hs hcap op).mp hw.covered)
  · obtain ⟨id, amount, provider, rfl | rfl⟩ := hc
    · simp [reserved, refundTotal, create]
    · simp [reserved, refundTotal, create, createIntent]

/-- A failed refund is completed after its capacity went to another one. -/
def lateCompletion : List Operation :=
  [.capture sampleToken "charge-1", .requestRefund (usd 100) "refund-1" none,
    .failRefund "refund-1", .requestRefund (usd 100) "refund-2" none, .completeRefund "refund-1"]

theorem withinCapacity_fails : ¬ ∀ (p : PaymentIntent) (tr : List (Operation × PaymentIntent)),
    Created p → Run Step p tr → Always WithinCapacity p tr := by
  intro h
  have hlast := (h sampleIntent (trace sampleIntent lateCompletion)
    ⟨_, _, _, Or.inl rfl⟩ (run_trace _ _)).last
  exact absurd hlast.covered (by decide)

theorem run_withinCapacity_iff_refunded :
    Always WithinCapacity sampleIntent (trace sampleIntent
      [.capture sampleToken "charge-1", .requestRefund (usd 40) "refund-1" none,
        .completeRefund "refund-1", .failRefund "refund-1"]) := by
  refine (run_withinCapacity_iff ⟨_, _, _, Or.inl rfl⟩ (run_trace _ _)).mpr ?_
  refine ⟨id, id, ?_, id, trivial⟩
  rintro ⟨r, hr, hf, _⟩
  have hp : r.status = .pending := by
    cases hr
    rfl
  rw [hp] at hf
  cases hf

end PaymentsIntent

/-! ## What the payment status says about the money

A completion decides the status from the capacity left, which counts pending refunds too, and a
failure leaves it alone. -/
namespace PaymentsIntent

open SharedKernel LabelledRuns PaymentIntent

/-- `refunded` means that all of a positive amount went back, `partially_refunded` that some
but not all did. -/
def Truthful (status : PaymentStatusValue) (completed captured : ℕ) : Prop :=
  (status = .refunded ↔ completed = captured ∧ 0 < captured) ∧
    (status = .partiallyRefunded ↔ 0 < completed ∧ completed < captured)

def pendingCount (p : PaymentIntent) : ℕ := p.refunds.countP (·.status == .pending)

/-- With no refund pending, the status tells the truth, intents in `closed` aside. -/
def StatusTruthful (p : PaymentIntent) : Prop :=
  pendingCount p = 0 → p.status ≠ .closed → Truthful p.status p.completed p.captured

/-- When a step leaves the status truthful, told from the state it is taken in. -/
def StaysTruthful (p : PaymentIntent) : Operation → Prop
  | .transition toStatus => 0 < pendingCount p ∨ canTransitionPayment p.status toStatus = false ∨
      toStatus ≠ .refunded ∧ toStatus ≠ .partiallyRefunded
  | .refund amount eventId => AcceptsRefund p amount eventId →
      0 < pendingCount p ∨ (0 < amount.amountMinor ↔ p.reserved + amount.amountMinor = p.captured)
  | .completeRefund refundId => ∀ r, p.findReservedRefund refundId = .ok r →
      (if r.status = .pending then 1 else 0) < pendingCount p ∨
      (p.reserved + (if r.status = .failed then r.amount.amountMinor else 0) ≤ p.captured ∧
        0 < p.completed + r.amount.amountMinor) ∨
      (p.captured < p.reserved + (if r.status = .failed then r.amount.amountMinor else 0) ∧
        p.status ≠ .refunded ∧ p.status ≠ .partiallyRefunded)
  | .failRefund refundId => ∀ r, p.findReservedRefund refundId = .ok r →
      (if r.status = .pending then 1 else 0) < pendingCount p ∨ p.status = .closed ∨
      Truthful p.status
        (p.completed - if r.status = .completed then r.amount.amountMinor else 0) p.captured
  | op => ∀ m, recordedCharge p op = some m →
      0 < pendingCount p ∨ p.status = .closed ∨ p.status = .partiallyRefunded ∨
      (if p.status = .refunded then m.amountMinor = 0
        else p.completed = 0 ∨ p.captured + m.amountMinor < p.completed)

variable {p q : PaymentIntent} {before after : List Refund} {r : Refund} {op : Operation}

theorem reserved_eq_completed (h : pendingCount p = 0) : p.reserved = p.completed := by
  unfold reserved completed refundTotal
  congr 2
  refine List.filter_congr fun r hr => ?_
  have hne : r.status ≠ .pending := by
    have hall := List.countP_eq_zero.mp h r hr
    simpa using hall
  cases hs : r.status <;> simp_all

theorem pendingCount_split (h : p.refunds = before ++ r :: after) :
    pendingCount p = (before ++ after).countP (·.status == .pending) +
      if r.status = .pending then 1 else 0 := by
  rw [pendingCount]
  rw [h]
  simp [List.countP_cons]
  omega

theorem pendingCount_push (h : q.refunds = p.refunds ++ [r]) :
    pendingCount q = pendingCount p + if r.status = .pending then 1 else 0 := by
  unfold pendingCount
  rw [h]
  simp [List.countP_cons]

variable {t : PaymentStatusValue} {amount : Money} {refundId eventId : String}
  {tr : List (Operation × PaymentIntent)}

theorem target_edge (h : target p op = some t) :
    canTransitionPayment p.status t = true ∨
      walksToCaptureRequested p.status = true ∧ t = .captureRequested := by
  cases op with
  | fail =>
    by_cases hs : p.status = .requiresPayment
    · simp [target, hs] at h
      subst h
      exact Or.inl (by rw [hs]; rfl)
    · simp [target, hs] at h
  | transition _ | authorize _ _ _ =>
    simp only [target, Option.ite_none_right_eq_some, Option.some.injEq] at h
    exact Or.inl (h.2 ▸ h.1)
  | prepareDirectCapture _ =>
    simp only [target, Option.ite_none_right_eq_some, Option.some.injEq] at h
    exact Or.inr ⟨h.1, h.2.symm⟩
  | _ => simp [target] at h

theorem truthful_move {s : PaymentStatusValue} {completed captured : ℕ}
    (he : canTransitionPayment s t = true ∨
      walksToCaptureRequested s = true ∧ t = .captureRequested) (hs : Truthful s completed captured)
    (ht : t ≠ .closed) :
    Truthful t completed captured ↔ t ≠ .refunded ∧ t ≠ .partiallyRefunded := by
  unfold Truthful at *
  cases s <;> cases t <;>
    simp_all [canTransitionPayment, PaymentStatusValue.transitions, walksToCaptureRequested]

theorem quiet_stays (hp : StatusTruthful p) (hq : Quiet p op) (hc : q.charges = p.charges)
    (hr : q.refunds = p.refunds) (hs : q.status = (target p op).getD p.status) :
    StatusTruthful q ↔ StaysTruthful p op := by
  have hpend : pendingCount q = pendingCount p := by simp [pendingCount, hr]
  have hcomp : q.completed = p.completed := refundTotal_congr _ hr
  have hcap : q.captured = p.captured := captured_congr hc
  cases ht : target p op with
  | none =>
    have hst : q.status = p.status := by simpa [ht] using hs
    have hq' : StatusTruthful q := by
      rw [StatusTruthful]
      rw [hpend, hcomp, hcap, hst]
      exact hp
    apply iff_of_true hq'
    cases op with
    | transition t =>
      refine Or.inr (Or.inl ?_)
      by_contra hn
      simp [target, hn] at ht
    | refund amount eventId => exact fun ha => absurd ha hq.refund
    | completeRefund refundId | failRefund refundId => exact fun r hf => absurd hf (hq.settled r)
    | _ => exact fun m hm => absurd hm (by simp [hq.charge])
  | some t =>
    have hst : q.status = t := by simpa [ht] using hs
    have hedge := target_edge ht
    have hnc : p.status ≠ .closed := by
      intro hcl
      rcases hedge with he | ⟨he, _⟩
      · simp [hcl, canTransitionPayment, PaymentStatusValue.transitions] at he
      · simp [hcl, walksToCaptureRequested] at he
    have key : StatusTruthful q ↔
        0 < pendingCount p ∨ t ≠ .refunded ∧ t ≠ .partiallyRefunded := by
      rw [StatusTruthful]
      rw [hpend, hcomp, hcap, hst]
      by_cases hz : pendingCount p = 0
      · by_cases htc : t = .closed
        · simp [htc]
        · simp only [hz, htc, ne_eq, not_false_eq_true, forall_const, lt_self_iff_false, false_or]
          exact truthful_move hedge (hp hz hnc) htc
      · have : 0 < pendingCount p := by omega
        simp [hz, this]
    rw [key]
    cases op with
    | transition t' =>
      simp only [target, Option.ite_none_right_eq_some, Option.some.injEq] at ht
      obtain ⟨hcan, rfl⟩ := ht
      simp [StaysTruthful, hcan]
    | fail =>
      have : t = .failed := by
        by_cases hs : p.status = .requiresPayment
        · simpa [target, hs, eq_comm] using ht
        · simp [target, hs] at ht
      simp [StaysTruthful, recordedCharge, this]
    | authorize _ _ _ | prepareDirectCapture _ =>
      simp only [target, Option.ite_none_right_eq_some, Option.some.injEq] at ht
      simp [StaysTruthful, recordedCharge, ← ht.2]
    | _ => simp [target] at ht

theorem charge_stays {c : Charge} (hp : StatusTruthful p) (hc : q.charges = p.charges ++ [c])
    (hr : q.refunds = p.refunds) (hm : recordedCharge p op = some c.amount)
    (hs : q.status = p.status ∨
      canTransitionPayment p.status .captured = true ∧ q.status = .captured) :
    StatusTruthful q ↔ StaysTruthful p op := by
  have hpend : pendingCount q = pendingCount p := by simp [pendingCount, hr]
  have hcomp : q.completed = p.completed := refundTotal_congr _ hr
  have hcap := captured_push hc
  have hstays : StaysTruthful p op ↔ (0 < pendingCount p ∨ p.status = .closed ∨
      p.status = .partiallyRefunded ∨ (if p.status = .refunded then c.amount.amountMinor = 0
        else p.completed = 0 ∨ p.captured + c.amount.amountMinor < p.completed)) := by
    cases op <;> simp [recordedCharge] at hm <;> simp [StaysTruthful, recordedCharge, hm]
  rw [hstays]
  unfold StatusTruthful at *
  rw [hpend, hcomp, hcap]
  by_cases hz : pendingCount p = 0
  · rcases hs with hs | ⟨he, hs⟩
    · rw [hs]
      by_cases hcl : p.status = .closed
      · simp [hcl]
      · have ht := hp hz hcl
        unfold Truthful at *
        by_cases h1 : p.status = .refunded
        · simp [h1, hz] at ht ⊢; omega
        · by_cases h2 : p.status = .partiallyRefunded
          · simp [h2] at ht ⊢; omega
          · simp [h1, h2, hcl, hz] at ht ⊢; omega
    · rw [hs]
      have hsource : p.status = .requiresPayment ∨ p.status = .captureRequested := by
        cases hst : p.status <;>
          simp [hst, canTransitionPayment, PaymentStatusValue.transitions] at he ⊢
      have ht := hp hz (by rcases hsource with h | h <;> simp [h])
      unfold Truthful at *
      rcases hsource with h | h <;> simp [h, hz] at ht ⊢ <;> omega
  · have hpos : 0 < pendingCount p := by omega
    simp [hz, hpos]

theorem acceptsRefund_of (hq : q = final (Operation.refund amount eventId).run p)
    (hne : q.refunds ≠ p.refunds) : AcceptsRefund p amount eventId := by
  rcases refund_result p amount eventId with ⟨_, e, he⟩ | ⟨hs, id, left, hid, hl, hcur, hle, _⟩
  · refine absurd ?_ hne
    simp [hq, final, Operation.run, he]
  · exact ⟨hs, hid ▸ id.notEmpty, left, hl, hcur, hle⟩

theorem refund_stays {left : Money} {id : UniqueEntityId} (ho : OneCurrency p)
    (hp : StatusTruthful p) (ha : AcceptsRefund p amount eventId) (hc : q.charges = p.charges)
    (hr : q.refunds = p.refunds ++ [⟨id, amount, .completed, none⟩]) (hl : p.remaining = .ok left)
    (hle : amount.amountMinor ≤ left.amountMinor) (hst : p.status = .captured)
    (hs : q.status = if left.amountMinor = amount.amountMinor then .refunded else .captured) :
    StatusTruthful q ↔ StaysTruthful p (.refund amount eventId) := by
  have hpend : pendingCount q = pendingCount p := by simp [pendingCount_push hr]
  have hcomp : q.completed = p.completed + amount.amountMinor := by
    simp [completed, refundTotal_push _ hr]
  have hcap : q.captured = p.captured := captured_congr hc
  have hleft := (remaining_currency ho hl).2
  simp only [StaysTruthful, ha, forall_const]
  unfold StatusTruthful at *
  rw [hpend, hcomp, hcap]
  by_cases hz : pendingCount p = 0
  · have hres := reserved_eq_completed hz
    have ht := hp hz (by simp [hst])
    unfold Truthful at *
    by_cases he : left.amountMinor = amount.amountMinor
    · simp [hst, hs, he, hz] at ht ⊢; omega
    · simp [hst, hs, he, hz] at ht ⊢; omega
  · have hpos : 0 < pendingCount p := by omega
    simp [hz, hpos]

theorem complete_stays (hoq : OneCurrency q) (hc : q.charges = p.charges)
    (hf : p.findReservedRefund refundId = .ok r) (hsplit : p.refunds = before ++ r :: after)
    (hr : q.refunds = before ++ r.markCompleted :: after)
    (hs : (∃ e, q.remaining = .error e) ∧ q.status = p.status ∨ ∃ left, q.remaining = .ok left ∧
      q.status = if left.isZero then .refunded else .partiallyRefunded) :
    StatusTruthful q ↔ StaysTruthful p (.completeRefund refundId) := by
  have hpend := pendingCount_split hsplit
  have hpend' := pendingCount_split hr
  have hcomp := refundTotal_split (· == .completed) hsplit
  have hcomp' := refundTotal_split (· == .completed) hr
  have hres := refundTotal_split (· != .failed) hsplit
  have hres' := refundTotal_split (· != .failed) hr
  have hcap : q.captured = p.captured := captured_congr hc
  change p.completed = _ at hcomp
  change q.completed = _ at hcomp'
  change p.reserved = _ at hres
  change q.reserved = _ at hres'
  simp only [Refund.markCompleted, reduceCtorEq, if_false, beq_self_eq_true, if_true, bne_iff_ne,
    ne_eq, not_false_eq_true] at hpend' hcomp' hres'
  have hother : (if r.status = .pending then 1 else 0) < pendingCount p ↔
      0 < pendingCount q := by omega
  have hreserved : q.reserved = p.reserved +
      if r.status = .failed then r.amount.amountMinor else 0 := by
    rw [hres', hres]
    cases r.status <;> simp
  have hcompleted : 0 < q.completed ↔ 0 < p.completed + r.amount.amountMinor := by
    rw [hcomp', hcomp]
    cases r.status with
    | completed =>
      rw [if_pos (beq_self_eq_true _)]
      omega
    | pending | failed => simp
  simp only [StaysTruthful, hf, Except.ok.injEq, forall_eq', hother, ← hreserved, ← hcompleted]
  rw [StatusTruthful]
  rw [hcap]
  by_cases hz : pendingCount q = 0
  · have heq := reserved_eq_completed hz
    rw [remaining_eq hoq, hcap] at hs
    rw [Truthful]
    rcases hs with ⟨⟨e, he⟩, hst⟩ | ⟨left, hl, hst⟩
    · have hlt : p.captured < q.reserved := by
        by_contra hn
        simp [hn] at he
      rw [hst]
      by_cases hcl : p.status = .closed
      · simp [hz, hcl, hlt]
      · have h1 : q.completed ≠ p.captured := by omega
        have h2 : ¬ q.completed < p.captured := by omega
        have h3 : ¬ q.reserved ≤ p.captured := by omega
        simp [hz, hcl, hlt, h1, h2, h3]
    · have hle : q.reserved ≤ p.captured := by
        by_contra hn
        simp [show p.captured < q.reserved by omega] at hl
      simp only [show ¬ p.captured < q.reserved by omega, if_false, Except.ok.injEq] at hl
      subst hl
      by_cases he : p.captured - q.reserved = 0
      · simp [hst, Money.isZero, he, hz]; omega
      · simp [hst, Money.isZero, he, hz]; omega
  · have hpos : 0 < pendingCount q := by omega
    simp [hz, hpos]

theorem release_stays (hc : q.charges = p.charges) (hf : p.findReservedRefund refundId = .ok r)
    (hsplit : p.refunds = before ++ r :: after) (hr : q.refunds = before ++ r.markFailed :: after)
    (hs : q.status = p.status) : StatusTruthful q ↔ StaysTruthful p (.failRefund refundId) := by
  have hpend := pendingCount_split hsplit
  have hpend' := pendingCount_split hr
  have hcomp := refundTotal_split (· == .completed) hsplit
  have hcomp' := refundTotal_split (· == .completed) hr
  have hcap : q.captured = p.captured := captured_congr hc
  change p.completed = _ at hcomp
  change q.completed = _ at hcomp'
  have hother : (if r.status = .pending then 1 else 0) < pendingCount p ↔
      0 < pendingCount q := by
    simp only [Refund.markFailed, reduceCtorEq, if_false] at hpend'
    omega
  have hcompleted : q.completed =
      p.completed - if r.status = .completed then r.amount.amountMinor else 0 := by
    rw [hcomp', hcomp]
    cases hst : r.status <;> simp [Refund.markFailed]
  simp only [StaysTruthful, hf, Except.ok.injEq, forall_eq', hother, ← hcompleted]
  rw [StatusTruthful]
  rw [hcap, hs]
  by_cases hz : pendingCount q = 0
  · by_cases hcl : p.status = .closed
    · simp [hcl]
    · simp [hz, hcl]
  · have hpos : 0 < pendingCount q := by omega
    simp [hz, hpos]

theorem statusTruthful_step (ho : OneCurrency p) (hp : StatusTruthful p) (op : Operation) :
    StatusTruthful (final op.run p) ↔ StaysTruthful p op := by
  have he := operation_effect p op
  have hoq := oneCurrency_step ho op
  generalize hq : final op.run p = q at he hoq
  cases he with
  | quiet hquiet _ hc hr hs => exact quiet_stays hp hquiet hc hr hs
  | charge _ hc hr hm hs => exact charge_stays hp hc hr hm hs
  | refund _ hc hr hl _ hle hst hs =>
    exact refund_stays ho hp (acceptsRefund_of hq.symm (by simp [hr])) hc hr hl hle hst hs
  | reserve _ hc hr hl =>
    have hpend : pendingCount q = pendingCount p + 1 := by simp [pendingCount_push hr]
    refine iff_of_true (fun hz => by omega) ?_
    simp [StaysTruthful, recordedCharge]
  | complete _ hc hf hsplit hr hs => exact complete_stays hoq hc hf hsplit hr hs
  | release _ hc hf hsplit hr hs => exact release_stays hc hf hsplit hr hs

theorem Created.statusTruthful (h : Created p) : StatusTruthful p := by
  obtain ⟨id, amount, provider, rfl | rfl⟩ := h <;>
    simp [StatusTruthful, Truthful, create, createIntent, captured, completed, refundTotal]

/-- Along any run the status tells the truth about the money if and only if every step stays
truthful. -/
theorem run_statusTruthful_iff {p : PaymentIntent} (hc : Created p) (hr : Run Step p tr) :
    Always StatusTruthful p tr ↔ EveryStep StaysTruthful p tr := by
  refine always_iff_everyStep (I := fun s => OneCurrency s ∧ StatusTruthful s)
    ?_ ?_ ?_ ⟨hc.oneCurrency, hc.statusTruthful⟩ hr
  · rintro s op u ⟨ho, hs⟩ rfl hg
    exact ⟨oneCurrency_step ho op, (statusTruthful_step ho hs op).mpr hg⟩
  · rintro s ⟨_, hs⟩
    exact hs
  · rintro s op u ⟨ho, hs⟩ rfl hg hu
    exact hg ((statusTruthful_step ho hs op).mp hu)

/-- The legacy refund keeps `captured` while something is left. -/
theorem statusTruthful_fails : ¬ ∀ p, Reachable Created Step p → StatusTruthful p := by
  intro h
  let ops : List Operation := [.capture sampleToken "charge-1", .refund (usd 15) "refund-1"]
  have hs := h (lastState sampleIntent (trace sampleIntent ops))
    (Run.reachable (.start ⟨_, _, _, Or.inl rfl⟩) (run_trace _ _))
  have ht := (hs (by decide) (by decide)).2
  exact absurd (ht.mpr (by decide)) (by decide)

theorem run_statusTruthful_iff_refunded :
    Always StatusTruthful sampleIntent (trace sampleIntent
      [.capture sampleToken "charge-1", .requestRefund (usd 100) "refund-1" none,
        .completeRefund "refund-1"]) := by
  refine (run_statusTruthful_iff ⟨_, _, _, Or.inl rfl⟩ (run_trace _ _)).mpr ⟨?_, ?_, ?_, trivial⟩
  · intro m _
    refine Or.inr (Or.inr (Or.inr ?_))
    rw [if_neg (by decide)]
    exact Or.inl (by decide)
  · intro m hm
    simp [recordedCharge] at hm
  · intro r hr
    cases hr
    exact Or.inr (Or.inl (by decide))

/-- The statuses that `prepareDirectCapture` goes through. -/
def walk : PaymentStatusValue → List PaymentStatusValue
  | .created => [.processing, .authorized, .captureRequested]
  | .processing => [.authorized, .captureRequested]
  | .authorized => [.captureRequested]
  | _ => []

def statusWrites (p : PaymentIntent) : Operation → List PaymentStatusValue
  | .prepareDirectCapture _ => walk p.status
  | op => [(final op.run p).status]

/-- Each status written follows the one before it in the table, or is the same. -/
def LegalChanges (p : PaymentIntent) (op : Operation) : Prop :=
  (p.status :: statusWrites p op).IsChain fun s t => t = s ∨ canTransitionPayment s t = true

/-- When the completion of a refund leads to a status that the table allows. -/
def RespectsTable (p : PaymentIntent) : Operation → Prop
  | .completeRefund refundId => ∀ r, p.findReservedRefund refundId = .ok r →
      p.captured < p.reserved + (if r.status = .failed then r.amount.amountMinor else 0) ∨
      p.status = .captured ∨ p.status = .partiallyRefunded ∨
      (p.status = .refunded ∧
        p.reserved + (if r.status = .failed then r.amount.amountMinor else 0) = p.captured)
  | _ => True

theorem legalChanges_iff (ho : OneCurrency p) (op : Operation) :
    LegalChanges p op ↔ RespectsTable p op := by
  by_cases hw : ∃ ref, op = .prepareDirectCapture ref
  · obtain ⟨ref, rfl⟩ := hw
    refine iff_of_true ?_ trivial
    change (p.status :: walk p.status).IsChain _
    cases p.status <;> decide
  · have hwrites : statusWrites p op = [(final op.run p).status] := by
      cases op <;> first | rfl | exact absurd ⟨_, rfl⟩ hw
    have he := operation_effect p op
    have hoq := oneCurrency_step ho op
    rw [LegalChanges, hwrites]
    generalize final op.run p = q at he hoq
    rw [List.isChain_pair]
    cases he with
    | quiet hquiet _ _ _ hs =>
      have hrespects : RespectsTable p op := by
        cases op <;> try exact trivial
        exact fun r hf => absurd hf (hquiet.settled r)
      refine iff_of_true ?_ hrespects
      cases ht : target p op with
      | none => exact Or.inl (by simpa [ht] using hs)
      | some t =>
        have hst : q.status = t := by simpa [ht] using hs
        rcases target_edge ht with he | ⟨_, rfl⟩
        · exact Or.inr (hst ▸ he)
        · cases op <;> simp [target] at ht
          · exact Or.inr (by rw [hst, ← ht.2]; exact ht.1)
          · exact absurd ⟨_, rfl⟩ hw
    | charge _ _ _ hm hs =>
      have hrespects : RespectsTable p op := by
        cases op <;> first | exact trivial | simp [recordedCharge] at hm
      refine iff_of_true ?_ hrespects
      rcases hs with hs | ⟨hc, hs⟩
      · exact Or.inl hs
      · exact Or.inr (hs ▸ hc)
    | refund _ _ _ _ _ _ hst hs =>
      refine iff_of_true ?_ trivial
      rw [hs, hst]
      split <;> decide
    | reserve _ _ _ _ _ _ hs | release _ _ _ _ _ hs => exact iff_of_true (Or.inl hs) trivial
    | @complete refundId r q before after _ hc hf hsplit hr hs =>
      have hres := refundTotal_split (· != .failed) hsplit
      have hres' := refundTotal_split (· != .failed) hr
      have hcap : q.captured = p.captured := captured_congr hc
      have hreserved : q.reserved = p.reserved +
          if r.status = .failed then r.amount.amountMinor else 0 := by
        rw [reserved]
        rw [hres', hres]
        cases r.status <;> simp [Refund.markCompleted]
      simp only [RespectsTable, hf, Except.ok.injEq, forall_eq', ← hreserved]
      rw [remaining_eq hoq, hcap] at hs
      rcases hs with ⟨⟨e, he⟩, hst⟩ | ⟨left, hl, hst⟩
      · have hlt : p.captured < q.reserved := by
          by_contra hn
          simp [hn] at he
        simp [hst, hlt]
      · have hle : ¬ p.captured < q.reserved := by
          intro hn
          simp [hn] at hl
        simp only [hle, if_false, Except.ok.injEq] at hl
        subst hl
        have hzero : p.captured - q.reserved = 0 ↔ q.reserved = p.captured := by omega
        by_cases hz : q.reserved = p.captured
        · cases hp : p.status <;>
            simp [hst, Money.isZero, hz, canTransitionPayment, PaymentStatusValue.transitions]
        · cases hp : p.status <;>
            simp [hst, Money.isZero, hzero, hz, hle, canTransitionPayment,
              PaymentStatusValue.transitions]

end PaymentsIntent
