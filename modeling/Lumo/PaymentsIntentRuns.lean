import Lumo.OptimisticTransactions
import Lumo.PaymentsIntent

/-! # Runs of operations on one payment intent

Any operation may be called in any state, and one that throws leaves behind what it had
already changed. `Effect` says once what a step can do to the money and the status. -/
namespace PaymentsIntent

open SharedKernel LabelledRuns PaymentIntent

inductive Operation where
  | capture (pspToken : PspToken) (eventId : String)
  | fail
  | refund (amount : Money) (eventId : String)
  | transition (toStatus : PaymentStatusValue)
  | authorize (pspReference : PspReference) (paymentMethod : PaymentMethod)
      (authorizedAmountMinor : ℚ)
  | markCaptured (eventId : String)
  | recordProviderIntent (providerIntentId : String)
  | prepareDirectCapture (providerTransactionRef : Option String)
  | requestRefund (amount : Money) (eventId : String) (idempotencyKey : Option String)
  | completeRefund (refundId : String)
  | failRefund (refundId : String)

def Operation.run : Operation → Method Unit
  | .capture pspToken eventId => PaymentIntent.capture pspToken eventId
  | .fail => PaymentIntent.fail
  | .refund amount eventId => PaymentIntent.refund amount eventId
  | .transition toStatus => PaymentIntent.transition toStatus
  | .authorize ref method minor => PaymentIntent.authorize ref method minor
  | .markCaptured eventId => PaymentIntent.markCaptured eventId
  | .recordProviderIntent ref => PaymentIntent.recordProviderIntent ref
  | .prepareDirectCapture ref => PaymentIntent.prepareDirectCapture ref
  | .requestRefund amount eventId key => do
    let _ ← PaymentIntent.requestRefund amount eventId key
  | .completeRefund refundId => PaymentIntent.completeRefund refundId
  | .failRefund refundId => PaymentIntent.failRefund refundId

/-- The two constructors of the aggregate. -/
def Created (p : PaymentIntent) : Prop :=
  ∃ id amount provider, p = PaymentIntent.create id amount provider ∨
    p = PaymentIntent.createIntent id amount provider

def Step (p : PaymentIntent) (op : Operation) (q : PaymentIntent) : Prop :=
  q = final op.run p

/-- The run that a list of operations makes. -/
def trace (p : PaymentIntent) (ops : List Operation) : List (Operation × PaymentIntent) :=
  follow (fun p op => final op.run p) p ops

theorem run_trace (p : PaymentIntent) (ops : List Operation) : Run Step p (trace p ops) := by
  apply run_follow
  intro p op
  rfl

def sampleId : UniqueEntityId := ⟨"pi-1", by decide⟩

def sampleReference : PspReference := ⟨"psp-1", by decide⟩

/-- A small order in US dollars. -/
def usd (amountMinor : ℕ) : Money := ⟨amountMinor, "USD", by decide⟩

def sampleIntent : PaymentIntent :=
  create sampleId (usd 100) "stripe"

def sampleToken : PspToken := ⟨"tok", by decide⟩

/-- The charge that an operation records, whether or not it then succeeds. -/
def recordedCharge (p : PaymentIntent) : Operation → Option Money
  | .capture _ eventId =>
    if p.status = .requiresPayment ∧ isBlank eventId = false then some p.amount else none
  | .markCaptured eventId =>
    if isBlank eventId = false then some (p.authorizedAmount.getD p.amount) else none
  | _ => none

def RefundsAtOnce (p : PaymentIntent) : Operation → Prop
  | .refund amount eventId => AcceptsRefund p amount eventId
  | _ => False

def settledRefund (p : PaymentIntent) : Operation → Except DomainError Refund
  | .completeRefund refundId => p.findReservedRefund refundId
  | .failRefund refundId => p.findReservedRefund refundId
  | _ => .error (.businessRule "not a settlement")

/-- An operation that touches neither charges nor refunds. -/
structure Quiet (p : PaymentIntent) (op : Operation) : Prop where
  charge : recordedCharge p op = none
  refund : ¬ RefundsAtOnce p op
  settled : ∀ r, settledRefund p op ≠ .ok r

/-- Where such an operation moves the status, when it may. -/
def target (p : PaymentIntent) : Operation → Option PaymentStatusValue
  | .fail => if p.status = .requiresPayment then some .failed else none
  | .transition toStatus =>
    if canTransitionPayment p.status toStatus then some toStatus else none
  | .authorize _ _ _ =>
    if canTransitionPayment p.status .authorized then some .authorized else none
  | .prepareDirectCapture _ =>
    if walksToCaptureRequested p.status then some .captureRequested else none
  | _ => none

structure SameOrder (p q : PaymentIntent) : Prop where
  amount : q.amount = p.amount
  authorized : ∀ m, q.authorizedAmount = some m →
    p.authorizedAmount = some m ∨ m.currency = p.amount.currency

theorem SameOrder.of_eq {p q : PaymentIntent} (ha : q.amount = p.amount)
    (hm : q.authorizedAmount = p.authorizedAmount) : SameOrder p q :=
  ⟨ha, fun _ h => Or.inl (hm ▸ h)⟩

/-- What a step can do to the charges, the refunds and the status. -/
inductive Effect (p : PaymentIntent) : Operation → PaymentIntent → Prop where
  | quiet {op q} : Quiet p op → SameOrder p q → q.charges = p.charges → q.refunds = p.refunds →
      q.status = (target p op).getD p.status → Effect p op q
  | charge {op q c} : SameOrder p q → q.charges = p.charges ++ [c] → q.refunds = p.refunds →
      recordedCharge p op = some c.amount →
      (q.status = p.status ∨
        canTransitionPayment p.status .captured = true ∧ q.status = .captured) → Effect p op q
  | refund {amount eventId q id left} : SameOrder p q → q.charges = p.charges →
      q.refunds = p.refunds ++ [⟨id, amount, .completed, none⟩] → p.remaining = .ok left →
      amount.currency = left.currency → amount.amountMinor ≤ left.amountMinor →
      p.status = .captured →
      q.status = (if left.amountMinor = amount.amountMinor then .refunded else .captured) →
      Effect p (.refund amount eventId) q
  | reserve {amount eventId key q id left} : SameOrder p q → q.charges = p.charges →
      q.refunds = p.refunds ++ [⟨id, amount, .pending, key⟩] → p.remaining = .ok left →
      amount.currency = left.currency → amount.amountMinor ≤ left.amountMinor →
      q.status = p.status → Effect p (.requestRefund amount eventId key) q
  | complete {refundId r q before after} : SameOrder p q → q.charges = p.charges →
      p.findReservedRefund refundId = .ok r → p.refunds = before ++ r :: after →
      q.refunds = before ++ r.markCompleted :: after →
      ((∃ e, q.remaining = .error e) ∧ q.status = p.status ∨
        ∃ left, q.remaining = .ok left ∧
          q.status = if left.isZero then .refunded else .partiallyRefunded) →
      Effect p (.completeRefund refundId) q
  | release {refundId r q before after} : SameOrder p q → q.charges = p.charges →
      p.findReservedRefund refundId = .ok r → p.refunds = before ++ r :: after →
      q.refunds = before ++ r.markFailed :: after → q.status = p.status →
      Effect p (.failRefund refundId) q

theorem quiet_of (p : PaymentIntent) {op : Operation} (hc : recordedCharge p op = none)
    (hr : ∀ amount eventId, op ≠ .refund amount eventId)
    (hs : ∀ refundId, op ≠ .completeRefund refundId ∧ op ≠ .failRefund refundId) : Quiet p op where
  charge := hc
  refund h := by
    cases op <;> try exact h
    exact hr _ _ rfl
  settled r h := by
    cases op <;> try cases h
    · exact (hs _).1 rfl
    · exact (hs _).2 rfl

theorem Effect.same {p : PaymentIntent} {op : Operation} (hquiet : Quiet p op)
    (h : final op.run p = p) (htarget : (target p op).getD p.status = p.status) :
    Effect p op (final op.run p) := by
  rw [h]
  exact .quiet hquiet (.of_eq rfl rfl) rfl rfl htarget.symm

theorem operation_effect (p : PaymentIntent) (op : Operation) : Effect p op (final op.run p) := by
  cases op with
  | capture pspToken eventId =>
    rcases capture_result p pspToken eventId with ⟨hn, e, he⟩ | ⟨hs, id, hid, hok⟩
    · exact .same (quiet_of p (by simp [recordedCharge, hn]) (by simp) (by simp))
        (by simp [final, Operation.run, he]) rfl
    · have hblank : isBlank eventId = false := hid ▸ id.notEmpty
      simp only [final, Operation.run, hok]
      exact .charge (c := ⟨id, p.amount, pspToken⟩) (.of_eq rfl rfl) rfl rfl
        (by simp [recordedCharge, hs, hblank]) (Or.inr ⟨by simp [hs]; rfl, rfl⟩)
  | fail =>
    have hquiet : Quiet p .fail := quiet_of p rfl (by simp) (by simp)
    rcases fail_result p with ⟨hs, e, he⟩ | ⟨hs, hok⟩
    · exact .same hquiet (by simp [final, Operation.run, he]) (by simp [target, hs])
    · simp only [final, Operation.run, hok]
      exact .quiet hquiet (.of_eq rfl rfl) rfl rfl (by simp [target, hs])
  | refund amount eventId =>
    rcases refund_result p amount eventId with ⟨hn, e, he⟩ | ⟨hs, id, left, hid, hl, hcur, hle, hok⟩
    · exact .same ⟨rfl, hn, fun r h => by cases h⟩ (by simp [final, Operation.run, he]) rfl
    · simp only [final, Operation.run, hok]
      exact .refund (.of_eq rfl rfl) rfl rfl hl hcur hle hs rfl
  | transition toStatus =>
    have hquiet : Quiet p (.transition toStatus) := quiet_of p rfl (by simp) (by simp)
    rcases transition_result p toStatus with ⟨hc, e, he⟩ | ⟨hc, hok⟩
    · exact .same hquiet (by simp [final, Operation.run, he]) (by simp [target, hc])
    · simp only [final, Operation.run, hok]
      exact .quiet hquiet (.of_eq rfl rfl) rfl rfl (by simp [target, hc])
  | authorize ref method minor =>
    have hquiet : Quiet p (.authorize ref method minor) := quiet_of p rfl (by simp) (by simp)
    rcases authorize_result p ref method minor with ⟨hc, e, he⟩ | ⟨hc, e, he⟩ | ⟨hc, m, hcur, _, hok⟩
    · exact .same hquiet (by simp [final, Operation.run, he]) (by simp [target, hc])
    · simp only [final, Operation.run, he]
      exact .quiet hquiet (.of_eq rfl rfl) rfl rfl (by simp [target, hc])
    · simp only [final, Operation.run, hok]
      refine .quiet hquiet ⟨rfl, ?_⟩ rfl rfl (by simp [target, hc])
      rintro m' ⟨⟩
      exact Or.inr hcur
  | markCaptured eventId =>
    rcases markCaptured_result p eventId with
      ⟨hb, e, he⟩ | ⟨id, token, hid, ⟨_, e, he⟩ | ⟨hc, hok⟩⟩
    · exact .same (quiet_of p (by simp [recordedCharge, hb]) (by simp) (by simp))
        (by simp [final, Operation.run, he]) rfl
    · have hblank : isBlank eventId = false := hid ▸ id.notEmpty
      simp only [final, Operation.run, he]
      exact .charge (.of_eq rfl rfl) rfl rfl (by simp [recordedCharge, hblank]) (Or.inl rfl)
    · have hblank : isBlank eventId = false := hid ▸ id.notEmpty
      simp only [final, Operation.run, hok]
      exact .charge (.of_eq rfl rfl) rfl rfl (by simp [recordedCharge, hblank])
        (Or.inr ⟨hc, rfl⟩)
  | recordProviderIntent ref =>
    have hquiet : Quiet p (.recordProviderIntent ref) := quiet_of p rfl (by simp) (by simp)
    rcases recordProviderIntent_result p ref with ⟨e, he⟩ | hok | ⟨_, _, hok⟩
    · exact .same hquiet (by simp [final, Operation.run, he]) rfl
    · exact .same hquiet (by simp [final, Operation.run, hok]) rfl
    · simp only [final, Operation.run, hok]
      exact .quiet hquiet (.of_eq rfl rfl) rfl rfl rfl
  | prepareDirectCapture ref =>
    have hquiet : Quiet p (.prepareDirectCapture ref) := quiet_of p rfl (by simp) (by simp)
    obtain ⟨q, rfl, ⟨hs, hok⟩ | ⟨hw, hok⟩ | ⟨hw, _, _, e, he⟩⟩ := prepareDirectCapture_result p ref
    · have hw : walksToCaptureRequested p.status = false := by
        rcases hs with hs | hs <;> simp [hs, walksToCaptureRequested]
      simp only [final, Operation.run, hok]
      exact .quiet hquiet (.of_eq rfl rfl) rfl rfl (by simp [target, hw])
    · simp only [final, Operation.run, hok]
      exact .quiet hquiet (.of_eq rfl rfl) rfl rfl (by simp [target, hw])
    · simp only [final, Operation.run, he]
      exact .quiet hquiet (.of_eq rfl rfl) rfl rfl (by simp [target, hw])
  | requestRefund amount eventId key =>
    have hquiet : Quiet p (.requestRefund amount eventId key) := quiet_of p rfl (by simp) (by simp)
    rcases requestRefund_result p amount eventId key with
      ⟨e, he⟩ | ⟨_, _, _, _, hok⟩ | ⟨_, id, left, _, hl, hcur, hle, hok⟩
    · exact .same hquiet (by simp [final, Operation.run, Methods.run_bind, he]) rfl
    · exact .same hquiet (by simp [final, Operation.run, Methods.run_bind, hok]) rfl
    · simp only [final, Operation.run, Methods.run_bind, hok, Methods.run_pure]
      exact .reserve (.of_eq rfl rfl) rfl rfl hl hcur hle rfl
  | completeRefund refundId =>
    rcases completeRefund_result p refundId with
      ⟨e, hf, he⟩ | ⟨r, q, hf, hq, ⟨e, hl, he⟩ | ⟨left, hl, hok⟩⟩
    · exact .same ⟨rfl, id, fun r h => by simp [settledRefund, hf] at h⟩
        (by simp [final, Operation.run, he]) rfl
    · obtain ⟨before, after, hsplit, _, _, hu⟩ := updateRefund_eq Refund.markCompleted hf
      simp only [final, Operation.run, he]
      rw [hu] at hq
      subst hq
      exact .complete (.of_eq rfl rfl) rfl hf hsplit rfl (Or.inl ⟨⟨e, hl⟩, rfl⟩)
    · obtain ⟨before, after, hsplit, _, _, hu⟩ := updateRefund_eq Refund.markCompleted hf
      simp only [final, Operation.run, hok]
      rw [hu] at hq
      subst hq
      refine .complete (.of_eq rfl rfl) rfl hf hsplit rfl (Or.inr ⟨left, ?_, rfl⟩)
      exact hl
  | failRefund refundId =>
    rcases failRefund_result p refundId with ⟨e, hf, he⟩ | ⟨r, hf, hok⟩
    · exact .same ⟨rfl, id, fun r h => by simp [settledRefund, hf] at h⟩
        (by simp [final, Operation.run, he]) rfl
    · obtain ⟨before, after, hsplit, _, _, hu⟩ := updateRefund_eq Refund.markFailed hf
      simp only [final, Operation.run, hok]
      rw [hu]
      exact .release (.of_eq rfl rfl) rfl hf hsplit rfl rfl

/-! The keys of refunds. -/

/-- What stays of a refund whatever becomes of it. -/
def Refund.request (r : Refund) : UniqueEntityId × Money × Option String :=
  (r.id, r.amount, r.idempotencyKey)

/-- The refunds that were requested under a key. -/
def requestedAs (key : String) (p : PaymentIntent) : List (UniqueEntityId × Money × Option String) :=
  (p.refunds.filter fun r => r.idempotencyKey == some key).map Refund.request

theorem requestedAs_append {p q : PaymentIntent} {r : Refund} (key : String)
    (h : q.refunds = p.refunds ++ [r]) :
    requestedAs key q = requestedAs key p ++
      if r.idempotencyKey = some key then [r.request] else [] := by
  rw [requestedAs, h, List.filter_append, List.map_append]
  by_cases hk : r.idempotencyKey = some key
  · simp [requestedAs, hk]
  · simp [requestedAs, hk]

/-- A step leaves the refunds of a key as they are, or requests the first of them. -/
theorem requestedAs_step (key : String) (p : PaymentIntent) (op : Operation) :
    requestedAs key (final op.run p) = requestedAs key p ∨
      requestedAs key p = [] ∧ ∃ request, requestedAs key (final op.run p) = [request] := by
  have he := operation_effect p op
  generalize hq : final op.run p = q at he
  cases he with
  | quiet _ _ _ hr | charge _ _ hr => exact Or.inl (by rw [requestedAs, hr, requestedAs])
  | refund _ _ hr => exact Or.inl (by simp [requestedAs_append key hr])
  | complete _ _ _ hs hr | release _ _ _ hs hr =>
    refine Or.inl ?_
    simp [requestedAs, hs, hr, List.filter_cons, Refund.markCompleted, Refund.markFailed, apply_ite,
      Refund.request]
  | @reserve amount eventId name _ id left _ _ hr =>
    rw [requestedAs_append key hr]
    by_cases hk : name = some key
    · have hfresh : p.findByKey name = none := by
        rcases requestRefund_result p amount eventId name with
          ⟨e, he⟩ | ⟨_, _, _, _, hok⟩ | ⟨hfresh, _⟩
        · simp [← hq, final, Operation.run, Methods.run_bind, he] at hr
        · simp [← hq, final, Operation.run, Methods.run_bind, hok] at hr
        · exact hfresh
      have hnone : requestedAs key p = [] := by
        rw [hk, findByKey, List.find?_eq_none] at hfresh
        rw [requestedAs, List.filter_eq_nil_iff.mpr hfresh, List.map_nil]
      rw [hnone, if_pos hk]
      exact Or.inr ⟨rfl, _, rfl⟩
    · rw [if_neg hk, List.append_nil]
      exact Or.inl rfl

/-- A key that a refund has in `p` is that refund's alone in `q`, and asking again under it
changes nothing. -/
def AnswersAgain (p q : PaymentIntent) : Prop :=
  ∀ first ∈ p.refunds, ∀ key, first.idempotencyKey = some key →
    requestedAs key q = [first.request] ∧
      ∀ amount eventId, final (Operation.requestRefund amount eventId key).run q = q

theorem requestRefund_again {p : PaymentIntent} {key : String} (h : requestedAs key p ≠ [])
    (amount : Money) (eventId : String) :
    final (Operation.requestRefund amount eventId key).run p = p := by
  rcases requestRefund_result p amount eventId key with
    ⟨e, he⟩ | ⟨_, _, _, _, hok⟩ | ⟨hfresh, _⟩
  · simp [final, Operation.run, Methods.run_bind, he]
  · simp [final, Operation.run, Methods.run_bind, hok]
  · rw [findByKey, List.find?_eq_none] at hfresh
    rw [requestedAs, List.filter_eq_nil_iff.mpr hfresh] at h
    exact absurd rfl h

/-- A refund key is used once: whatever operations follow, in whatever order and failing or not,
its refund stays, no second one is requested under it, and a retry changes nothing. -/
theorem run_refundKeys {p : PaymentIntent} (hc : Created p) (ops later : List Operation) :
    let mid := lastState p (trace p ops)
    AnswersAgain mid (lastState mid (trace mid later)) := by
  intro mid first hfirst key hkey
  have hone : Always (fun u => (requestedAs key u).length ≤ 1) p (trace p ops) := by
    refine always_of_invariant ?_ ?_ (run_trace p ops)
    · rintro s op u hs rfl
      rcases requestedAs_step key s op with h | ⟨_, request, h⟩
      · rw [h]
        exact hs
      · rw [h]
        exact le_rfl
    · obtain ⟨id, amount, provider, rfl | rfl⟩ := hc
      · exact Nat.zero_le 1
      · exact Nat.zero_le 1
  have hmem : first.request ∈ requestedAs key mid :=
    List.mem_map_of_mem (List.mem_filter.mpr ⟨hfirst, by simp [hkey]⟩)
  obtain ⟨request, hrequest⟩ := List.length_eq_one_iff.mp
    (le_antisymm hone.last (List.length_pos_of_mem hmem))
  have hlater : Always (fun u => requestedAs key u = [request]) mid (trace mid later) := by
    refine always_of_invariant ?_ hrequest (run_trace mid later)
    rintro s op u hs rfl
    rcases requestedAs_step key s op with h | ⟨hnone, _⟩
    · exact h.trans hs
    · rw [hs] at hnone
      cases hnone
  rw [hrequest, List.mem_singleton] at hmem
  have hlast := hlater.last
  exact ⟨hmem ▸ hlast, requestRefund_again (by rw [hlast]; exact List.cons_ne_nil _ _)⟩

/-- The refund has failed in the meantime. -/
theorem run_refundKeys_failed :
    let mid := lastState sampleIntent (trace sampleIntent [.capture sampleToken "charge-1",
      .requestRefund (usd 40) "refund-1" (some "key-1")])
    AnswersAgain mid (lastState mid (trace mid [.failRefund "refund-1"])) :=
  run_refundKeys ⟨_, _, _, Or.inl rfl⟩ _ _

end PaymentsIntent

/-! ## What the payment use cases share

Provider capabilities, the answer of a call, and the bounded retry of a transaction that lost
its optimistic lock. -/
namespace PaymentsUseCases

open SharedKernel PaymentsIntent OptimisticTransactions

structure ProviderCapabilities where
  settlesAtPayTime : Bool
  deliversWebhooks : Bool

def isSettledByOperatorConfirmation (capabilities : ProviderCapabilities) : Bool :=
  capabilities.settlesAtPayTime && !capabilities.deliversWebhooks

inductive Answer where
  | ok (status : PaymentStatusValue)
  | err (error : DomainError)
  | threw (reason : String)

/-- What can happen at the provider step: its resolution throws, the provider rejects by
throwing, or it accepts. -/
inductive ProviderMove where
  | unavailable (reason : String)
  | rejects (reason : String)
  | accepts

def maxConcurrencyRetries : ℕ := 5

def concurrencyError : Answer := .threw "PaymentIntent was modified concurrently"

/-- `withConcurrencyRetry`: the transaction starts over, until the last attempt throws. -/
def withConcurrencyRetry {κ : Type} (finished : Answer → κ) (attempt : ℕ) (again : ℕ → κ) : κ :=
  if attempt < maxConcurrencyRetries then again (attempt + 1) else finished concurrencyError

theorem withConcurrencyRetry_cases {κ : Type} (finished : Answer → κ) (attempt : ℕ)
    (again : ℕ → κ) :
    withConcurrencyRetry finished attempt again = again (attempt + 1) ∨
      withConcurrencyRetry finished attempt again = finished concurrencyError := by
  rw [withConcurrencyRetry]
  split
  · exact Or.inl rfl
  · exact Or.inr rfl

end PaymentsUseCases
