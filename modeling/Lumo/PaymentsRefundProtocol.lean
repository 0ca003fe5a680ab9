import Lumo.PaymentsRefundCapacity
import Mathlib.Algebra.Order.BigOperators.Group.List
import Mathlib.Algebra.Order.Group.Nat
import Mathlib.Data.List.Nodup
import Mathlib.Data.List.Perm.Subperm

/-! # Concurrent refunds of one intent

`RefundPaymentLifecycle.execute` is a reserve transaction, a call of the provider and a settle
transaction. Calls that carry one idempotency key share one reservation, and so one provider
key, but each of them settles it by what happened to itself. -/
namespace PaymentsRefundProtocol

open SharedKernel PaymentsIntent PaymentsUseCases LabelledRuns OptimisticTransactions

structure RefundInput where
  amountMinor : ℚ
  currency : String
  idempotencyKey : Option String

inductive SettleOutcome where
  | succeeded
  | failed (reason : String)

def SettleOutcome.status : SettleOutcome → RefundStatus
  | .succeeded => .completed
  | .failed _ => .failed

/-- Where an `execute` call stands. `attempt` counts the tries of the current transaction. -/
inductive Point where
  | reserving (amount : Money) (input : RefundInput) (attempt : ℕ)
  | calling (refundId : String) (pspReference : String) (amount : Money)
  | settling (refundId : String) (outcome : SettleOutcome) (attempt : ℕ)
  | finished (answer : Answer)

def rethrown (outcome : SettleOutcome) (answer : Answer) : Answer :=
  match outcome with
  | .succeeded => answer
  | .failed reason => .threw reason

def execute (input : RefundInput) : Point :=
  match Money.create input.amountMinor input.currency with
  | .error e => .finished (.err e)
  | .ok amount => .reserving amount input 1

/-- What follows a reservation, from the intent and the refund that the transaction saw. -/
def afterReserve (capabilitiesOf : String → Option ProviderCapabilities) (amount : Money)
    (intent : PaymentIntent) (refund : Refund) : Point :=
  if refund.status = .completed then .finished (.ok intent.status)
  else
    let recordedOutsidePlatform :=
      (capabilitiesOf intent.provider).any isSettledByOperatorConfirmation
    match intent.providerTransactionRef.orElse fun _ => intent.pspReference.map (·.value) with
    | none => .settling refund.id.value .succeeded 1
    | some pspReference =>
      if recordedOutsidePlatform then .settling refund.id.value .succeeded 1
      else .calling refund.id.value pspReference amount

def reserve (capabilitiesOf : String → Option ProviderCapabilities) (ids : ℕ → String)
    (amount : Money) (input : RefundInput) (draw : ℕ) (intent : PaymentIntent) :
    Outcome PaymentIntent Point :=
  match PaymentIntent.requestRefund amount (ids draw) input.idempotencyKey intent with
  | .error e _ => .answer (.finished (.err e))
  | .ok outcome saved =>
    if outcome.isNew then .save saved (afterReserve capabilitiesOf amount saved outcome.refund)
    else .answer (afterReserve capabilitiesOf amount saved outcome.refund)

def alreadySettled (intent : PaymentIntent) (refundId : String) : Bool :=
  (intent.refunds.find? fun r => r.id.value == refundId).any (·.status != .pending)

def settle (refundId : String) (outcome : SettleOutcome) (intent : PaymentIntent) :
    Outcome PaymentIntent Point :=
  if alreadySettled intent refundId then
    .answer (.finished (rethrown outcome (.ok intent.status)))
  else
    let change := match outcome with
      | .succeeded => PaymentIntent.completeRefund refundId
      | .failed _ => PaymentIntent.failRefund refundId
    match change intent with
    | .error e _ => .answer (.finished (rethrown outcome (.err e)))
    | .ok _ saved => .save saved (.finished (rethrown outcome (.ok saved.status)))

/-- A refund that the provider has accepted, under the key it was asked with. -/
structure Accepted where
  key : String
  amountMinor : ℕ

def refundKey (intentId refundId : String) : String :=
  intentId ++ ":refund:" ++ refundId

/-- The provider is idempotent by key: an accepted key is answered again without moving money,
and is never rejected. -/
def callProvider (intentId refundId : String) (amount : Money) (move : ProviderMove)
    (accepted : List Accepted) : Option (Point × List Accepted) :=
  let key := refundKey intentId refundId
  match move with
  | .unavailable reason => some (.settling refundId (.failed reason) 1, accepted)
  | .rejects reason =>
    if accepted.any (·.key == key) then none
    else some (.settling refundId (.failed reason) 1, accepted)
  | .accepts =>
    some (.settling refundId .succeeded 1,
      if accepted.any (·.key == key) then accepted
      else accepted ++ [⟨key, amount.amountMinor⟩])

def protocol (capabilitiesOf : String → Option ProviderCapabilities) (ids : ℕ → String)
    (intentId : String) : Protocol PaymentIntent Point (List Accepted) ProviderMove where
  body
    | .reserving amount input _ =>
      some fun draw _ intent => reserve capabilitiesOf ids amount input draw intent
    | .settling refundId outcome _ => some fun _ _ intent => settle refundId outcome intent
    | .calling _ _ _ => none
    | .finished _ => none
  conflict
    | .reserving amount input attempt =>
      withConcurrencyRetry .finished attempt fun n => .reserving amount input n
    | .settling refundId outcome attempt =>
      withConcurrencyRetry .finished attempt fun n => .settling refundId outcome n
    | point => point
  act point move accepted :=
    match point with
    | .calling refundId _ amount => callProvider intentId refundId amount move accepted
    | _ => none

end PaymentsRefundProtocol

/-! ## Safety of concurrent refunds -/
namespace PaymentsRefundProtocol

open SharedKernel PaymentsIntent PaymentsUseCases LabelledRuns OptimisticTransactions PaymentIntent

variable {ι : Type} [DecidableEq ι] {capabilitiesOf : String → Option ProviderCapabilities}
  {ids : ℕ → String} {intentId : String}

/-- A reserving call saves a new reservation, a settling one the reservation it settled. -/
inductive Saved (ids : ℕ → String) (draw : ℕ) (intent saved : PaymentIntent) : Point → Prop where
  | push {amount : Money} {input : RefundInput} {attempt : ℕ} {r : Refund} {left : Money} :
      saved.amount = intent.amount → saved.authorizedAmount = intent.authorizedAmount →
      saved.charges = intent.charges → saved.refunds = intent.refunds ++ [r] →
      r.id.value = ids draw → r.status = .pending → intent.remaining = .ok left →
      r.amount.currency = left.currency → r.amount.amountMinor ≤ left.amountMinor →
      Saved ids draw intent saved (.reserving amount input attempt)
  | settle {refundId : String} {outcome : SettleOutcome} {attempt : ℕ} {r : Refund}
      {before after : List Refund} :
      saved.amount = intent.amount → saved.authorizedAmount = intent.authorizedAmount →
      saved.charges = intent.charges → intent.refunds = before ++ r :: after →
      r.id.value = refundId → r.status = .pending →
      saved.refunds = before ++ { r with status := outcome.status } :: after →
      Saved ids draw intent saved (.settling refundId outcome attempt)

def Asks (intent : PaymentIntent) (k : Point) : Prop :=
  ∀ refundId ref amount, k = .calling refundId ref amount →
    ∃ r ∈ intent.refunds, r.id.value = refundId ∧ r.amount = amount

theorem asks_finished (intent : PaymentIntent) (answer : Answer) :
    Asks intent (.finished answer) := by
  intro _ _ _ h
  cases h

theorem asks_settling (intent : PaymentIntent) (refundId : String) (outcome : SettleOutcome)
    (attempt : ℕ) : Asks intent (.settling refundId outcome attempt) := by
  intro _ _ _ h
  cases h

theorem asks_reserving (intent : PaymentIntent) (amount : Money) (input : RefundInput)
    (attempt : ℕ) : Asks intent (.reserving amount input attempt) := by
  intro _ _ _ h
  cases h

variable {amount : Money} {r : Refund} {refundId : String} {accepted : List Accepted}
  {b : ℕ → List Accepted → PaymentIntent → Outcome PaymentIntent Point}
  {v : View PaymentIntent Point (List Accepted) ι}

variable {intent : PaymentIntent} {attempt draw : ℕ} {input : RefundInput} {k' k : Point}
  {outcome : SettleOutcome} {e : Event ProviderMove ι}
  {w : View PaymentIntent Point (List Accepted) ι} {s : State PaymentIntent Point (List Accepted) ι}

theorem asks_afterReserve {saved : PaymentIntent} {refund : Refund} (hmem : refund ∈ intent.refunds)
    (ha : refund.amount = amount) :
    Asks intent (afterReserve capabilitiesOf amount saved refund) := by
  intro refundId ref a h
  rw [afterReserve] at h
  split at h
  · cases h
  · simp only at h
    split at h
    · cases h
    · split at h
      · cases h
      · cases h
        exact ⟨refund, hmem, rfl, ha⟩

theorem reserve_answer (h : reserve capabilitiesOf ids amount input draw intent = .answer k) :
    Asks intent k := by
  rw [reserve] at h
  rcases requestRefund_result intent amount (ids draw) input.idempotencyKey with
    ⟨e, he⟩ | ⟨existing, hk, ha, _, hok⟩ | ⟨_, id, left, _, _, _, _, hok⟩
  · rw [he] at h
    cases h
    exact asks_finished _ _
  · rw [hok] at h
    cases h
    refine asks_afterReserve ?_ ha
    cases hkey : input.idempotencyKey with
    | none => simp [findByKey, hkey] at hk
    | some key =>
      simp only [findByKey, hkey] at hk
      exact List.mem_of_find?_eq_some hk
  · rw [hok] at h
    cases h

theorem reserve_save {saved : PaymentIntent}
    (h : reserve capabilitiesOf ids amount input draw intent = .save saved k) :
    Saved ids draw intent saved (.reserving amount input attempt) ∧ Asks saved k := by
  rw [reserve] at h
  rcases requestRefund_result intent amount (ids draw) input.idempotencyKey with
    ⟨e, he⟩ | ⟨existing, _, _, _, hok⟩ | ⟨_, id, left, hid, hl, hcur, hle, hok⟩
  · rw [he] at h
    cases h
  · rw [hok] at h
    cases h
  · rw [hok] at h
    cases h
    exact ⟨.push rfl rfl rfl rfl hid rfl hl hcur hle, asks_afterReserve (by simp) rfl⟩

theorem pending_of_not_settled (h : alreadySettled intent refundId = false)
    (hf : intent.findReservedRefund refundId = .ok r) : r.status = .pending := by
  rw [findReservedRefund] at hf
  split at hf
  · cases hf
  · rename_i r' hr
    cases hf
    simpa [alreadySettled, hr] using h

theorem settle_answer (h : settle refundId outcome intent = .answer k) : Asks intent k := by
  unfold settle at h
  split at h
  · cases h
    exact asks_finished _ _
  · simp only at h
    split at h
    · cases h
      exact asks_finished _ _
    · cases h

theorem settle_save {saved : PaymentIntent} (h : settle refundId outcome intent = .save saved k) :
    Saved ids draw intent saved (.settling refundId outcome attempt) ∧ Asks saved k := by
  unfold settle at h
  split at h
  · cases h
  · rename_i hnot
    have hnot : alreadySettled intent refundId = false := by simpa using hnot
    cases outcome with
    | succeeded =>
      rcases completeRefund_result intent refundId with
        ⟨e, _, he⟩ | ⟨r, q, hf, hq, ⟨e, _, he⟩ | ⟨left, _, hok⟩⟩
      · simp [he] at h
      · simp [he] at h
      · obtain ⟨before, after, hsplit, hid, _, hu⟩ := updateRefund_eq Refund.markCompleted hf
        simp only [hok, Outcome.save.injEq] at h
        obtain ⟨rfl, rfl⟩ := h
        rw [hu] at hq
        subst hq
        exact ⟨.settle rfl rfl rfl hsplit hid (pending_of_not_settled hnot hf) rfl,
          asks_finished _ _⟩
    | failed reason =>
      rcases failRefund_result intent refundId with ⟨e, _, he⟩ | ⟨r, hf, hok⟩
      · simp [he] at h
      · obtain ⟨before, after, hsplit, hid, _, hu⟩ := updateRefund_eq Refund.markFailed hf
        simp only [hok, Outcome.save.injEq] at h
        obtain ⟨rfl, rfl⟩ := h
        rw [hu]
        exact ⟨.settle rfl rfl rfl hsplit hid (pending_of_not_settled hnot hf) rfl,
          asks_finished _ _⟩

theorem settle_failed (reason : String) (hnodup : (intent.refunds.map (·.id.value)).Nodup)
    (hmem : r ∈ intent.refunds) (hid : r.id.value = refundId) (hs : r.status = .pending) :
    ∃ saved answer, settle refundId (.failed reason) intent = .save saved (.finished answer) ∧
      r.markFailed ∈ saved.refunds := by
  have hfind : intent.refunds.find? (fun x => x.id.value == refundId) = some r := by
    obtain ⟨before, after, hsplit⟩ := List.append_of_mem hmem
    rw [List.find?_eq_some_iff_append]
    refine ⟨by simpa using hid, before, after, hsplit, fun b hb => ?_⟩
    rw [hsplit, List.map_append] at hnodup
    have hne := (List.nodup_append.mp hnodup).2.2 b.id.value
      (List.mem_map_of_mem (f := fun x : Refund => x.id.value) hb) r.id.value (by simp)
    simpa [hid] using hne
  have hf : intent.findReservedRefund refundId = .ok r := by
    simp [findReservedRefund, hfind]
  obtain ⟨before, after, hsplit, _, _, hu⟩ := updateRefund_eq Refund.markFailed hf
  rcases failRefund_result intent refundId with ⟨e, he, _⟩ | ⟨r', _, hok⟩
  · rw [hf] at he
    cases he
  · refine ⟨updateRefund refundId Refund.markFailed intent, .threw reason, ?_, ?_⟩
    · simp [settle, alreadySettled, hfind, hs, hok, rethrown]
    · rw [hu]
      simp

theorem body_answer (hb : (protocol capabilitiesOf ids intentId).body k = some b)
    (h : b draw accepted intent = .answer k') : Asks intent k' := by
  cases k with
  | reserving => cases hb; exact reserve_answer h
  | settling => cases hb; exact settle_answer h
  | calling | finished => cases hb

theorem body_save {saved : PaymentIntent}
    (hb : (protocol capabilitiesOf ids intentId).body k = some b)
    (h : b draw accepted intent = .save saved k') :
    Saved ids draw intent saved k ∧ Asks saved k' := by
  cases k with
  | reserving => cases hb; exact reserve_save h
  | settling => cases hb; exact settle_save h
  | calling | finished => cases hb

theorem conflict_asks (intent : PaymentIntent)
    (hb : (protocol capabilitiesOf ids intentId).body k = some b) :
    Asks intent ((protocol capabilitiesOf ids intentId).conflict k) := by
  cases k with
  | reserving amount input attempt =>
    rcases withConcurrencyRetry_cases Point.finished attempt fun n => .reserving amount input n
      with h | h <;> simp only [protocol, h]
    · exact asks_reserving _ _ _ _
    · exact asks_finished _ _
  | settling refundId outcome attempt =>
    rcases withConcurrencyRetry_cases Point.finished attempt fun n => .settling refundId outcome n
      with h | h <;> simp only [protocol, h]
    · exact asks_settling _ _ _ _
    · exact asks_finished _ _
  | calling | finished => cases hb

/-- What the provider accepted fits the captured amount, and none of it is stored as failed. -/
structure Safe (intentId : String) (intent : PaymentIntent) (accepted : List Accepted) : Prop where
  covered : (accepted.map (·.amountMinor)).sum ≤ intent.captured
  kept : ∀ a ∈ accepted, ∀ r ∈ intent.refunds, a.key = refundKey intentId r.id.value →
    r.status ≠ .failed

structure Invariant (ids : ℕ → String) (intentId : String)
    (v : View PaymentIntent Point (List Accepted) ι) : Prop where
  currency : OneCurrency v.value
  capacity : v.value.reserved ≤ v.value.captured
  distinctIds : (v.value.refunds.map (·.id.value)).Nodup
  drawn : ∀ r ∈ v.value.refunds, ∀ d, r.id.value = ids d → d ∈ v.spent
  distinctKeys : (v.env.map (·.key)).Nodup
  reserved : ∀ a ∈ v.env, ∃ r ∈ v.value.refunds, a.key = refundKey intentId r.id.value ∧
    a.amountMinor = r.amount.amountMinor ∧ r.status ≠ .failed
  asks : ∀ c k, v.points c = some k → Asks v.value k

theorem refund_unique (h : (intent.refunds.map (·.id.value)).Nodup) {r' : Refund}
    (hr : r ∈ intent.refunds) (hr' : r' ∈ intent.refunds) (he : r.id.value = r'.id.value) :
    r = r' :=
  List.inj_on_of_nodup_map h hr hr' he

omit [DecidableEq ι] in
theorem Invariant.safe (h : Invariant ids intentId v) : Safe intentId v.value v.env where
  kept a ha r hr hk := by
    obtain ⟨r', hr', hk', _, hs⟩ := h.reserved a ha
    have he := (String.append_right_inj _).mp (hk'.symm.trans hk)
    rw [← refund_unique h.distinctIds hr' hr he]
    exact hs
  covered := by
    -- the accepted refunds are, one for one, among the reservations that have not failed
    let asked : List Accepted := (v.value.refunds.filter fun r => r.status != .failed).map
      fun r => ⟨refundKey intentId r.id.value, r.amount.amountMinor⟩
    have hsub : v.env ⊆ asked := by
      intro a ha
      obtain ⟨r, hr, hk, hm, hs⟩ := h.reserved a ha
      refine List.mem_map.mpr ⟨r, List.mem_filter.mpr ⟨hr, by simpa using hs⟩, ?_⟩
      cases a
      simp_all
    obtain ⟨l, hperm, hl⟩ := List.subperm_of_subset (h.distinctKeys.of_map _) hsub
    have hle : (l.map (·.amountMinor)).sum ≤ (asked.map (·.amountMinor)).sum :=
      (hl.map _).sum_le_sum fun _ _ => Nat.zero_le _
    have hsum : (asked.map (·.amountMinor)).sum = v.value.reserved := by
      simp [asked, PaymentIntent.reserved, refundTotal, Function.comp_def]
    rw [← (hperm.map _).sum_eq]
    exact hle.trans (hsum ▸ h.capacity)

/-- The step settles as failed a pending reservation that was accepted, or has one accepted
that is stored as failed. -/
def LosesAccepted (intentId : String) (v : View PaymentIntent Point (List Accepted) ι) :
    Event ProviderMove ι → Prop
  | .save c => ∃ refundId reason attempt, ∃ r ∈ v.value.refunds,
      v.points c = some (.settling refundId (.failed reason) attempt) ∧ r.id.value = refundId ∧
      r.status = .pending ∧ ∃ a ∈ v.env, a.key = refundKey intentId refundId
  | .act c .accepts => ∃ refundId ref amount, ∃ r ∈ v.value.refunds,
      v.points c = some (.calling refundId ref amount) ∧ r.id.value = refundId ∧ r.status = .failed
  | _ => False

section Keeps

variable {draw : ℕ} {intent saved : PaymentIntent} {k : Point}

theorem Saved.captured (h : Saved ids draw intent saved k) : saved.captured = intent.captured := by
  cases h with
  | push _ _ hc | settle _ _ hc => exact captured_congr hc

theorem Saved.currency (h : Saved ids draw intent saved k) (ho : OneCurrency intent) :
    OneCurrency saved := by
  cases h with
  | @push _ _ _ r _ ha hm hc hr _ _ hl hcur =>
    refine (SameOrder.of_eq ha hm).oneCurrency ho (by rw [hc]; exact ho.charges) ?_
    intro x hx
    rw [hr] at hx
    rcases List.mem_append.mp hx with hx | hx
    · exact ho.refunds x hx
    · rw [List.mem_singleton.mp hx]
      exact hcur.trans (remaining_currency ho hl).1
  | @settle _ _ _ r before after ha hm hc hsplit _ _ hr =>
    refine (SameOrder.of_eq ha hm).oneCurrency ho (by rw [hc]; exact ho.charges) ?_
    have hold := ho.refunds
    rw [hsplit] at hold
    intro x hx
    rw [hr] at hx
    rcases List.mem_append.mp hx with hx | hx
    · exact hold x (List.mem_append_left _ hx)
    · rcases List.mem_cons.mp hx with rfl | hx
      · exact hold r (by simp)
      · exact hold x (List.mem_append_right _ (List.mem_cons_of_mem _ hx))

theorem Saved.capacity (h : Saved ids draw intent saved k) (ho : OneCurrency intent)
    (hcap : intent.reserved ≤ intent.captured) : saved.reserved ≤ saved.captured := by
  rw [h.captured]
  cases h with
  | push _ _ _ hr _ hs hl _ hle =>
    have hleft := (remaining_currency ho hl).2
    have hpush := refundTotal_push (· != .failed) hr
    simp only [hs, bne_iff_ne, ne_eq, reduceCtorEq, not_false_eq_true, if_true] at hpush
    change saved.reserved = intent.reserved + _ at hpush
    omega
  | @settle _ outcome _ r _ _ _ _ _ hsplit _ hs hr =>
    have hold := refundTotal_split (· != .failed) hsplit
    have hnew := refundTotal_split (· != .failed) hr
    change intent.reserved = _ at hold
    change saved.reserved = _ at hnew
    simp only [hs, bne_iff_ne, ne_eq, reduceCtorEq, not_false_eq_true, if_true] at hold
    have hle : saved.reserved ≤ intent.reserved := by
      rw [hnew, hold]
      split <;> simp
    omega

theorem Saved.ids_eq (h : Saved ids draw intent saved k) :
    saved.refunds.map (·.id.value) = intent.refunds.map (·.id.value) ∨
      saved.refunds.map (·.id.value) = intent.refunds.map (·.id.value) ++ [ids draw] := by
  cases h with
  | push _ _ _ hr hid => exact Or.inr (by simp [hr, hid])
  | settle _ _ _ hsplit _ _ hr => exact Or.inl (by simp [hr, hsplit])

theorem Saved.persists (h : Saved ids draw intent saved k) {r : Refund} (hr : r ∈ intent.refunds) :
    ∃ r' ∈ saved.refunds, r'.id = r.id ∧ r'.amount = r.amount ∧
      (r.status ≠ .failed → r'.status ≠ .failed ∨ ∃ refundId reason attempt,
        k = .settling refundId (.failed reason) attempt ∧ r.id.value = refundId ∧
        r.status = .pending) := by
  cases h with
  | push _ _ _ hnew =>
    exact ⟨r, by simp [hnew, hr], rfl, rfl, Or.inl⟩
  | @settle refundId outcome attempt r₀ before after _ _ _ hsplit hid hs hnew =>
    rw [hsplit] at hr
    rcases List.mem_append.mp hr with hr | hr
    · exact ⟨r, by simp [hnew, hr], rfl, rfl, Or.inl⟩
    · rcases List.mem_cons.mp hr with rfl | hr
      · refine ⟨{ r with status := outcome.status }, by simp [hnew], rfl, rfl, fun _ => ?_⟩
        cases outcome with
        | succeeded => exact Or.inl (by simp [SettleOutcome.status])
        | failed reason => exact Or.inr ⟨refundId, reason, attempt, rfl, hid, hs⟩
      · exact ⟨r, by simp [hnew, hr], rfl, rfl, Or.inl⟩

theorem Saved.asks (h : Saved ids draw intent saved k) {k' : Point} (ha : Asks intent k') :
    Asks saved k' := by
  intro refundId ref amount hk
  obtain ⟨r, hr, hid, hamount⟩ := ha refundId ref amount hk
  obtain ⟨r', hr', he, hm, _⟩ := h.persists hr
  exact ⟨r', hr', he ▸ hid, hm ▸ hamount⟩

end Keeps

omit [DecidableEq ι] in
theorem Invariant.unchanged {spent : Set ℕ} {points : ι → Option Point}
    (h : Invariant ids intentId v) (hs : v.spent ⊆ spent)
    (hp : ∀ c k, points c = some k → Asks v.value k) :
    Invariant ids intentId { v with spent := spent, points := points } where
  currency := h.currency
  capacity := h.capacity
  distinctIds := h.distinctIds
  drawn r hr d hd := hs (h.drawn r hr d hd)
  distinctKeys := h.distinctKeys
  reserved := h.reserved
  asks := hp

theorem Invariant.saved {v : View PaymentIntent Point (List Accepted) ι} {c : ι} {k k' : Point}
    {d : ℕ} {saved : PaymentIntent} {spent : Set ℕ} (hinj : Function.Injective ids)
    (h : Invariant ids intentId v) (hc : v.points c = some k) (hd : d ∉ v.spent)
    (hspent : insert d v.spent ⊆ spent) (hs : Saved ids d v.value saved k) (hk : Asks saved k')
    (hno : ¬ LosesAccepted intentId v (.save c)) :
    Invariant ids intentId { v with
      value := saved, spent := spent, points := Function.update v.points c (some k') } where
  currency := hs.currency h.currency
  capacity := hs.capacity h.currency h.capacity
  distinctIds := by
    rcases hs.ids_eq with he | he
    · exact he ▸ h.distinctIds
    · change (saved.refunds.map (·.id.value)).Nodup
      rw [he, List.nodup_append]
      refine ⟨h.distinctIds, by simp, fun a ha b hb => ?_⟩
      obtain ⟨r, hr, rfl⟩ := List.mem_map.mp ha
      rw [List.mem_singleton.mp hb]
      exact fun he => hd (h.drawn r hr d he)
  drawn r hr d' hd' := by
    have hmem : r.id.value ∈ saved.refunds.map (·.id.value) := List.mem_map_of_mem hr
    have hold : r.id.value ∈ v.value.refunds.map (·.id.value) → d' ∈ spent := by
      intro hm
      obtain ⟨r₀, hr₀, he⟩ := List.mem_map.mp hm
      exact hspent (Set.mem_insert_of_mem _ (h.drawn r₀ hr₀ d' (he.trans hd')))
    rcases hs.ids_eq with he | he
    · exact hold (he ▸ hmem)
    · rw [he] at hmem
      rcases List.mem_append.mp hmem with hm | hm
      · exact hold hm
      · have : d' = d := hinj (hd'.symm.trans (List.mem_singleton.mp hm))
        exact this ▸ hspent (Set.mem_insert _ _)
  distinctKeys := h.distinctKeys
  reserved a ha := by
    obtain ⟨r, hr, hkey, hm, hst⟩ := h.reserved a ha
    obtain ⟨r', hr', he, hm', hst'⟩ := hs.persists hr
    refine ⟨r', hr', he ▸ hkey, hm' ▸ hm, ?_⟩
    rcases hst' hst with hok | ⟨refundId, reason, attempt, rfl, hid, hpend⟩
    · exact hok
    · exact absurd ⟨refundId, reason, attempt, r, hr, hc, hid, hpend, a, ha, hid ▸ hkey⟩ hno
  asks := points_update (fun c k hk => hs.asks (h.asks c k hk)) (by rintro k ⟨⟩; exact hk)

theorem Invariant.asked {c : ι} {ref : String} {move : ProviderMove} (h : Invariant ids intentId v)
    (hc : v.points c = some (.calling refundId ref amount))
    (ha : callProvider intentId refundId amount move v.env = some (k, accepted))
    (hno : ¬ LosesAccepted intentId v (.act c move)) :
    Invariant ids intentId
      { v with env := accepted, points := Function.update v.points c (some k) } := by
  have hsettling : ∀ outcome, Invariant ids intentId { v with
      points := Function.update v.points c (some (.settling refundId outcome 1)) } := by
    intro outcome
    refine h.unchanged (Set.Subset.refl _) (points_update h.asks ?_)
    rintro k ⟨⟩
    exact asks_settling _ _ _ _
  cases move with
  | unavailable reason =>
    cases ha
    exact hsettling _
  | rejects reason =>
    simp only [callProvider] at ha
    split at ha
    · cases ha
    · cases ha
      exact hsettling _
  | accepts =>
    obtain ⟨r, hr, hid, hamount⟩ := h.asks c _ hc refundId ref amount rfl
    by_cases hknown : v.env.any (·.key == refundKey intentId refundId) = true
    · simp only [callProvider, hknown, if_true, Option.some.injEq, Prod.mk.injEq] at ha
      obtain ⟨rfl, rfl⟩ := ha
      exact hsettling _
    · simp only [callProvider, hknown, Option.some.injEq, Prod.mk.injEq] at ha
      obtain ⟨rfl, rfl⟩ := ha
      have hbase := hsettling .succeeded
      refine { hbase with distinctKeys := ?_, reserved := ?_ }
      · change (List.map Accepted.key
          (v.env ++ [⟨refundKey intentId refundId, amount.amountMinor⟩])).Nodup
        simp only [List.map_append, List.nodup_append]
        refine ⟨h.distinctKeys, by simp, fun x hx y hy => ?_⟩
        obtain ⟨a, ha, rfl⟩ := List.mem_map.mp hx
        simp only [List.map_cons, List.map_nil, List.mem_singleton] at hy
        intro he
        refine hknown (List.any_eq_true.mpr ⟨a, ha, ?_⟩)
        simp [he, hy]
      · intro a ha
        rcases List.mem_append.mp ha with ha | ha
        · exact h.reserved a ha
        · rw [List.mem_singleton.mp ha]
          refine ⟨r, hr, by rw [hid], by rw [hamount], fun hf => ?_⟩
          exact hno ⟨refundId, ref, amount, r, hr, hc, hid, hf⟩

theorem invariant_step (hinj : Function.Injective ids) (h : Invariant ids intentId v)
    (hst : AtomicStep (protocol capabilitiesOf ids intentId) v e w)
    (hno : ¬ LosesAccepted intentId v e) : Invariant ids intentId w := by
  cases hst with
  | answer hc hb _ ho hspent =>
    refine h.unchanged ((Set.subset_insert _ _).trans hspent) (points_update h.asks ?_)
    rintro k ⟨⟩
    exact body_answer hb ho
  | save hc hb hd ho hspent =>
    obtain ⟨hsaved, hasks⟩ := body_save hb ho
    exact h.saved hinj hc hd hspent hsaved hasks hno
  | conflict hc hb hspent =>
    refine h.unchanged hspent (points_update h.asks ?_)
    rintro k ⟨⟩
    exact conflict_asks _ hb
  | @act c k _ k' _ hc ha =>
    cases k with
    | calling refundId ref amount => exact h.asked hc ha hno
    | reserving | settling | finished => cases ha
  | crash hspent =>
    refine h.unchanged hspent (points_update h.asks ?_)
    rintro k ⟨⟩
  | idle => exact h

/-- A step that loses an accepted refund breaks the property at once. -/
theorem loses_breaks (h : Invariant ids intentId v)
    (hst : AtomicStep (protocol capabilitiesOf ids intentId) v e w)
    (hl : LosesAccepted intentId v e) : ¬ Safe intentId w.value w.env := by
  intro hsafe
  cases e with
  | save c =>
    obtain ⟨refundId, reason, attempt, r, hr, hc, hid, hs, a, ha, hkey⟩ := hl
    obtain ⟨saved, answer, hrun, hfailed⟩ :=
      settle_failed reason h.distinctIds hr hid hs
    cases hst with
    | save hc' hb _ ho =>
      cases hc.symm.trans hc'
      cases hb
      simp only [hrun] at ho
      cases ho
      exact hsafe.kept a ha r.markFailed hfailed (hid.symm ▸ hkey) rfl
  | act c move =>
    cases move with
    | accepts =>
      obtain ⟨refundId, ref, amount, r, hr, hc, hid, hs⟩ := hl
      cases hst with
      | act hc' ha =>
        cases hc.symm.trans hc'
        simp only [protocol, callProvider, Option.some.injEq, Prod.mk.injEq] at ha
        obtain ⟨_, rfl⟩ := ha
        by_cases hknown : v.env.any (·.key == refundKey intentId refundId) = true
        · obtain ⟨a, ha, hkey⟩ := List.any_eq_true.mp hknown
          have hkey : a.key = refundKey intentId r.id.value := by simpa [hid] using hkey
          exact hsafe.kept a (by simp [hknown, ha]) r hr hkey hs
        · exact hsafe.kept ⟨refundKey intentId refundId, amount.amountMinor⟩ (by simp [hknown])
            r hr (by rw [hid]) hs
    | unavailable | rejects => exact hl
  | answer | conflict | crash | idle => exact hl

/-- Any number of calls are about to begin on an intent whose refunds, if it has some, fit its
charges and do not carry an id that is still to be generated; the provider has accepted none. -/
structure Start (ids : ℕ → String) (s : State PaymentIntent Point (List Accepted) ι) : Prop where
  calls : ∀ c, ∃ input, s.calls c = .ready (execute input)
  accepted : s.env = []
  currency : OneCurrency s.row.value
  capacity : s.row.value.reserved ≤ s.row.value.captured
  distinctIds : (s.row.value.refunds.map (·.id.value)).Nodup
  fresh : ∀ r ∈ s.row.value.refunds, ∀ d, r.id.value ≠ ids d

omit [DecidableEq ι] in
theorem Start.quiet (h : Start ids s) : Quiet s := by
  intro c k d v new k' hc
  obtain ⟨input, hi⟩ := h.calls c
  rw [hi] at hc
  cases hc

omit [DecidableEq ι] in
theorem Start.invariant (h : Start ids s) :
    Invariant ids intentId (view s) where
  currency := h.currency
  capacity := h.capacity
  distinctIds := h.distinctIds
  drawn r hr d hd := absurd hd (h.fresh r hr d)
  distinctKeys := by
    change (s.env.map (·.key)).Nodup
    simp [h.accepted]
  reserved a ha := by
    have ha : a ∈ s.env := ha
    rw [h.accepted] at ha
    cases ha
  asks c k hk := by
    obtain ⟨input, hi⟩ := h.calls c
    rw [point_ready hi] at hk
    cases hk
    rw [execute]
    split
    · exact asks_finished _ _
    · exact asks_reserving _ _ _ _

/-- For every interleaving of refund calls, crashes and lost locks included: the accepted
refunds always fit the captured amount and are never stored as failed, if and only if no step
loses an accepted one. -/
theorem run_safe_iff (hinj : Function.Injective ids)
    {s : State PaymentIntent Point (List Accepted) ι}
    {tr : List (Label ProviderMove ι × State PaymentIntent Point (List Accepted) ι)}
    (hs : Start ids s)
    (hr : Run (OptimisticTransactions.Step (protocol capabilitiesOf ids intentId)) s tr) :
    Always (fun s => Safe intentId s.row.value s.env) s tr ↔
      EveryStep (fun s l => ¬ LosesAccepted intentId (view s)
        (event (protocol capabilitiesOf ids intentId) s l)) s tr := by
  refine always_view_iff (I := Invariant ids intentId)
    (Q := fun v => Safe intentId v.value v.env) (G := fun v e => ¬ LosesAccepted intentId v e)
    ?_ (fun v hv => hv.safe) ?_ hs.quiet hs.invariant hr
  · exact fun v e w hv hst hg => invariant_step hinj hv hst hg
  · exact fun v e w hv hst hg => loses_breaks hv hst (not_not.mp hg)

/-! Three calls on one captured hundred: the first two share a key. -/

def sampleIds (draw : ℕ) : String := String.ofList (List.replicate (draw + 1) 'r')

theorem sampleIds_injective : Function.Injective sampleIds := by
  intro a b h
  have hl := congrArg (fun s => s.toList.length) h
  simpa [sampleIds] using hl

def capturedIntent : PaymentIntent :=
  { sampleIntent with
    status := .captured
    charges := [⟨⟨"charge-1", by decide⟩, usd 100, sampleToken⟩]
    pspReference := some sampleReference }

def sampleInput : Fin 3 → RefundInput
  | 0 => ⟨100, "USD", some "return-1"⟩
  | 1 => ⟨100, "USD", some "return-1"⟩
  | 2 => ⟨100, "USD", some "return-2"⟩

def sampleProtocol : Protocol PaymentIntent Point (List Accepted) ProviderMove :=
  protocol (fun _ => some ⟨false, true⟩) sampleIds "pi-1"

def sampleState : State PaymentIntent Point (List Accepted) (Fin 3) where
  row := ⟨capturedIntent, 1⟩
  env := []
  draws := 0
  calls c := .ready (execute (sampleInput c))

theorem sampleState_start : Start sampleIds sampleState where
  calls c := ⟨sampleInput c, rfl⟩
  accepted := rfl
  currency := ⟨by decide, by decide, by rintro m ⟨⟩⟩
  capacity := by decide
  distinctIds := by decide
  fresh r hr := by cases hr

/-- The second call is accepted; the first one cannot resolve the provider, and settles their
common reservation as failed; the third is then given the same hundred. -/
def lostRefund : List (Label ProviderMove (Fin 3)) :=
  [.read 0, .write 0, .read 1, .act 1 .accepts, .act 0 (.unavailable "credentials"),
    .read 0, .write 0, .read 1, .read 2, .write 2, .act 2 .accepts]

theorem safe_fails : ¬ ∀ (s : State PaymentIntent Point (List Accepted) (Fin 3))
    (tr : List (Label ProviderMove (Fin 3) × State PaymentIntent Point (List Accepted) (Fin 3))),
    Start sampleIds s → Run (OptimisticTransactions.Step sampleProtocol) s tr →
      Always (fun s => Safe "pi-1" s.row.value s.env) s tr := by
  intro h
  have hlast := (h sampleState (play sampleProtocol sampleState lostRefund) sampleState_start
    (run_play _ _ _)).last
  exact absurd hlast.covered (by decide)

theorem run_safe_iff_single : Always (fun s => Safe "pi-1" s.row.value s.env) sampleState
    (play sampleProtocol sampleState [.read 0, .write 0, .act 0 .accepts, .read 0, .write 0]) := by
  refine (run_safe_iff sampleIds_injective sampleState_start (run_play _ _ _)).mpr
    ⟨id, ?_, ?_, id, ?_, trivial⟩
  · rintro ⟨_, _, _, _, _, h, _⟩
    cases h
  · rintro ⟨_, _, _, r, hr, _, _, hs⟩
    have hr : r ∈ [_] := hr
    rw [List.mem_singleton.mp hr] at hs
    cases hs
  · rintro ⟨_, _, _, _, _, h, _⟩
    cases h

end PaymentsRefundProtocol
