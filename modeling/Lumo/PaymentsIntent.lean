import Lumo.Methods
import Lumo.SharedKernel
import Mathlib.Algebra.BigOperators.Group.List.Basic
import Mathlib.Algebra.GroupWithZero.Nat

/-! # The payment intent aggregate

Charges, refunds and status, with every method that reads or writes them. Event ids are kept
where they become entity ids; domain events, attempts and timestamps are not modelled. -/
namespace PaymentsIntent

open SharedKernel

inductive PaymentStatusValue where
  | requiresPayment
  | captured
  | failed
  | refunded
  | created
  | processing
  | authorized
  | captureRequested
  | cancelled
  | expired
  | partiallyRefunded
  | closed
  deriving DecidableEq

namespace PaymentStatusValue

def text : PaymentStatusValue → String
  | requiresPayment => "requires_payment"
  | captured => "captured"
  | failed => "failed"
  | refunded => "refunded"
  | created => "created"
  | processing => "processing"
  | authorized => "authorized"
  | captureRequested => "capture_requested"
  | cancelled => "cancelled"
  | expired => "expired"
  | partiallyRefunded => "partially_refunded"
  | closed => "closed"

def transitions : PaymentStatusValue → List PaymentStatusValue
  | requiresPayment => [captured, failed]
  | captured => [refunded, partiallyRefunded, closed]
  | failed => [processing]
  | refunded => [closed]
  | created => [processing, cancelled]
  | processing => [authorized, failed]
  | authorized => [captureRequested, cancelled, expired]
  | captureRequested => [captured, failed]
  | cancelled => [closed]
  | expired => [closed]
  | partiallyRefunded => [refunded, closed]
  | closed => []

end PaymentStatusValue

def canTransitionPayment (fromStatus toStatus : PaymentStatusValue) : Bool :=
  fromStatus.transitions.contains toStatus

@[ext] structure PspToken where
  value : String
  notEmpty : isBlank value = false

instance : DecidableEq PspToken := fun a b =>
  decidable_of_iff (a.value = b.value) PspToken.ext_iff.symm

def PspToken.create (value : String) : Except DomainError PspToken :=
  (Guard.againstEmpty value "pspToken").map fun v => ⟨v.1, v.notEmpty⟩

theorem PspToken.create_error {value : String} {e : DomainError}
    (h : PspToken.create value = .error e) : isBlank value = true := by
  cases hv : Guard.againstEmpty value "pspToken" with
  | error e => exact Guard.againstEmpty_error hv
  | ok v => simp [PspToken.create, hv, Except.map] at h

@[ext] structure PspReference where
  value : String
  notEmpty : isBlank value = false

instance : DecidableEq PspReference := fun a b =>
  decidable_of_iff (a.value = b.value) PspReference.ext_iff.symm

def PspReference.create (value : String) : Except DomainError PspReference :=
  (Guard.againstEmpty value "pspReference").map fun v => ⟨v.1, v.notEmpty⟩

@[ext] structure PaymentMethod where
  token : String
  brand : Option String
  notEmpty : isBlank token = false

instance : DecidableEq PaymentMethod := fun a b =>
  decidable_of_iff (a.token = b.token ∧ a.brand = b.brand) PaymentMethod.ext_iff.symm

def PaymentMethod.create (token : String) (brand : Option String) :
    Except DomainError PaymentMethod :=
  (Guard.againstEmpty token "paymentMethodToken").map fun v => ⟨v.1, brand, v.notEmpty⟩

structure Charge where
  id : UniqueEntityId
  amount : Money
  pspToken : PspToken

inductive RefundStatus where
  | pending
  | completed
  | failed
  deriving DecidableEq

structure Refund where
  id : UniqueEntityId
  amount : Money
  status : RefundStatus
  idempotencyKey : Option String

def Refund.markCompleted (refund : Refund) : Refund := { refund with status := .completed }

def Refund.markFailed (refund : Refund) : Refund := { refund with status := .failed }

structure PaymentIntent where
  id : UniqueEntityId
  amount : Money
  provider : String
  providerTransactionRef : Option String
  status : PaymentStatusValue
  charges : List Charge
  refunds : List Refund
  pspReference : Option PspReference
  paymentMethod : Option PaymentMethod
  authorizedAmount : Option Money

abbrev Method := EStateM DomainError PaymentIntent

namespace PaymentIntent

/-- The legacy constructor. -/
def create (id : UniqueEntityId) (amount : Money) (provider : String) : PaymentIntent where
  id := id
  amount := amount
  provider := provider
  providerTransactionRef := none
  status := .requiresPayment
  charges := []
  refunds := []
  pspReference := none
  paymentMethod := none
  authorizedAmount := none

/-- The constructor of the full lifecycle. -/
def createIntent (id : UniqueEntityId) (amount : Money) (provider : String) : PaymentIntent :=
  { create id amount provider with status := .created }

/-- Captured minus refunded or reserved; only failed refunds are left out. -/
def remaining (intent : PaymentIntent) : Except DomainError Money := do
  let captured ← intent.charges.foldlM (fun acc charge => acc.plus charge.amount)
    (← Money.zero intent.amount.currency)
  (intent.refunds.filter fun refund => refund.status != .failed).foldlM
    (fun acc refund => acc.minus refund.amount) captured

def capture (pspToken : PspToken) (eventId : String) : Method Unit := do
  let intent ← get
  if intent.status ≠ .requiresPayment then
    throw (.businessRule ("Cannot capture a payment that is " ++ intent.status.text))
  let id ← MonadExcept.ofExcept (UniqueEntityId.from eventId)
  modify fun p => { p with charges := p.charges ++ [⟨id, p.amount, pspToken⟩] }
  modify fun p => { p with status := .captured }

def fail : Method Unit := do
  let intent ← get
  if intent.status ≠ .requiresPayment then
    throw (.businessRule ("Cannot fail a payment that is " ++ intent.status.text))
  modify fun p => { p with status := .failed }

/-- The legacy refund: completed at once, and the status moves only when nothing is left. -/
def refund (amount : Money) (eventId : String) : Method Unit := do
  let intent ← get
  if intent.status ≠ .captured then
    throw (.businessRule ("Cannot refund a payment that is " ++ intent.status.text))
  if ← MonadExcept.ofExcept (do amount.isGreaterThan (← intent.remaining)) then
    throw (.businessRule "Refund exceeds the captured amount")
  let id ← MonadExcept.ofExcept (UniqueEntityId.from eventId)
  modify fun p => { p with refunds := p.refunds ++ [⟨id, amount, .completed, none⟩] }
  if (← MonadExcept.ofExcept (← get).remaining).isZero then
    modify fun p => { p with status := .refunded }

def transition (toStatus : PaymentStatusValue) : Method Unit := do
  let fromStatus := (← get).status
  if !canTransitionPayment fromStatus toStatus then
    throw (.businessRule ("Cannot transition payment from \"" ++ fromStatus.text ++ "\" to \"" ++
      toStatus.text ++ "\""))
  modify fun p => { p with status := toStatus }

def markProcessing : Method Unit := transition .processing

def authorize (pspReference : PspReference) (paymentMethod : PaymentMethod)
    (authorizedAmountMinor : ℚ) : Method Unit := do
  transition .authorized
  modify fun p => { p with pspReference := some pspReference, paymentMethod := some paymentMethod }
  match Money.create authorizedAmountMinor (← get).amount.currency with
  | .error _ => throw (.businessRule "Invalid authorized amount")
  | .ok authorizedAmount => modify fun p => { p with authorizedAmount := some authorizedAmount }

def requestCapture : Method Unit := transition .captureRequested

def markCaptured (eventId : String) : Method Unit := do
  let intent ← get
  let capturedAmount := intent.authorizedAmount.getD intent.amount
  let tokenValue := (intent.paymentMethod.map (·.token)).getD
    ((intent.pspReference.map (·.value)).getD eventId)
  match PspToken.create tokenValue with
  | .error _ => throw (.businessRule "Invalid PSP token derived at capture time")
  | .ok token =>
    let id ← MonadExcept.ofExcept (UniqueEntityId.from eventId)
    modify fun p => { p with charges := p.charges ++ [⟨id, capturedAmount, token⟩] }
    transition .captured

def recordProviderIntent (providerIntentId : String) : Method Unit := do
  match PspReference.create providerIntentId with
  | .error _ => throw (.businessRule "Provider returned an empty intent reference")
  | .ok reference =>
    match (← get).pspReference with
    | some known =>
      if known.value ≠ providerIntentId then
        throw (.businessRule "Payment intent already has a different provider reference")
    | none => modify fun p => { p with pspReference := some reference }

/-- Walks a direct-capture intent to `capture_requested`. -/
def prepareDirectCapture (providerTransactionRef : Option String) : Method Unit := do
  modify fun p => { p with
    providerTransactionRef := p.providerTransactionRef.orElse fun _ => providerTransactionRef }
  let status := (← get).status
  if status = .captureRequested ∨ status = .captured then return
  if status = .created then transition .processing
  if (← get).status = .processing then transition .authorized
  transition .captureRequested

def markFailed : Method Unit := transition .failed

def cancelAuthorization : Method Unit := transition .cancelled

def markExpired : Method Unit := transition .expired

def retry : Method Unit := transition .processing

def close : Method Unit := transition .closed

/-- What `requestRefund` answers: the reservation, and whether this call made it. -/
structure Requested where
  refund : Refund
  isNew : Bool

/-- The part of `requestRefund` that makes a new reservation. -/
def reserveRefund (amount : Money) (eventId : String) (idempotencyKey : Option String) :
    Method Requested := do
  let intent ← get
  if ← MonadExcept.ofExcept (do amount.isGreaterThan (← intent.remaining)) then
    throw (.businessRule "Refund exceeds the captured amount")
  let id ← MonadExcept.ofExcept (UniqueEntityId.from eventId)
  let refund : Refund := ⟨id, amount, .pending, idempotencyKey⟩
  modify fun p => { p with refunds := p.refunds ++ [refund] }
  return ⟨refund, true⟩

def findByKey (intent : PaymentIntent) : Option String → Option Refund
  | none => none
  | some key => intent.refunds.find? fun r => r.idempotencyKey == some key

def requestRefund (amount : Money) (eventId : String) (idempotencyKey : Option String) :
    Method Requested := do
  match (← get).findByKey idempotencyKey with
  | some existing =>
    if existing.amount ≠ amount then
      throw (.businessRule ("Refund idempotency key \"" ++ idempotencyKey.getD "" ++
        "\" was already used for a different amount"))
    if existing.status = .failed then
      throw (.businessRule ("Refund idempotency key \"" ++ idempotencyKey.getD "" ++
        "\" already failed — a new attempt requires a new key"))
    return ⟨existing, false⟩
  | none => reserveRefund amount eventId idempotencyKey

def findReservedRefund (intent : PaymentIntent) (refundId : String) : Except DomainError Refund :=
  match intent.refunds.find? fun r => r.id.value == refundId with
  | none => .error (.businessRule ("No reserved refund " ++ refundId ++ " on this payment intent"))
  | some refund => .ok refund

/-- The refund that `findReservedRefund` answers is changed in place. -/
def updateRefund (refundId : String) (change : Refund → Refund) (intent : PaymentIntent) :
    PaymentIntent :=
  { intent with refunds := intent.refunds.replaceF fun r =>
      if r.id.value == refundId then some (change r) else none }

def completeRefund (refundId : String) : Method Unit := do
  let _ ← MonadExcept.ofExcept ((← get).findReservedRefund refundId)
  modify (updateRefund refundId Refund.markCompleted)
  let left ← MonadExcept.ofExcept (← get).remaining
  modify fun p => { p with status := if left.isZero then .refunded else .partiallyRefunded }

def failRefund (refundId : String) : Method Unit := do
  let _ ← MonadExcept.ofExcept ((← get).findReservedRefund refundId)
  modify (updateRefund refundId Refund.markFailed)

end PaymentIntent

end PaymentsIntent

/-! ## What each method of the payment intent can end in

One theorem per method lists its results, with the state each leaves behind; the properties
of the aggregate are proved from these and never unfold a method. -/
namespace PaymentsIntent

open SharedKernel

/-- The state that a method leaves behind, thrown out of or not. -/
def final {α : Type} (m : Method α) (p : PaymentIntent) : PaymentIntent :=
  match m p with
  | .ok _ q => q
  | .error _ q => q

namespace PaymentIntent

def captured (p : PaymentIntent) : ℕ := (p.charges.map fun c => c.amount.amountMinor).sum

/-- What the refunds that `keep` selects add up to. -/
def refundTotal (keep : RefundStatus → Bool) (p : PaymentIntent) : ℕ :=
  ((p.refunds.filter fun r => keep r.status).map fun r => r.amount.amountMinor).sum

/-- Refunded or reserved: every refund that has not failed. -/
def reserved : PaymentIntent → ℕ := refundTotal (· != .failed)

def completed : PaymentIntent → ℕ := refundTotal (· == .completed)

structure OneCurrency (p : PaymentIntent) : Prop where
  charges : ∀ c ∈ p.charges, c.amount.currency = p.amount.currency
  refunds : ∀ r ∈ p.refunds, r.amount.currency = p.amount.currency
  authorized : ∀ m, p.authorizedAmount = some m → m.currency = p.amount.currency

private theorem charges_fold (cs : List Charge) (acc : Money)
    (h : ∀ c ∈ cs, c.amount.currency = acc.currency) :
    cs.foldlM (fun acc charge => acc.plus charge.amount) acc = (Except.ok { acc with
      amountMinor := acc.amountMinor + (cs.map fun c => c.amount.amountMinor).sum } :
        Except DomainError Money) := by
  induction cs generalizing acc with
  | nil => rfl
  | cons c cs ih =>
    have hc : c.amount.currency = acc.currency := h c (by simp)
    have hcs := ih { acc with amountMinor := acc.amountMinor + c.amount.amountMinor }
      fun c' hc' => h c' (by simp [hc'])
    rw [List.foldlM_cons, Money.plus_of_sameCurrency hc, ok_bind, hcs]
    simp [Nat.add_assoc]

private theorem refunds_fold (rs : List Refund) (acc : Money)
    (h : ∀ r ∈ rs, r.amount.currency = acc.currency) :
    rs.foldlM (fun acc refund => acc.minus refund.amount) acc =
      if acc.amountMinor < (rs.map fun r => r.amount.amountMinor).sum then
        (Except.error (.businessRule "Money cannot be negative") : Except DomainError Money)
      else .ok { acc with
        amountMinor := acc.amountMinor - (rs.map fun r => r.amount.amountMinor).sum } := by
  induction rs generalizing acc with
  | nil => rfl
  | cons r rs ih =>
    have hr : r.amount.currency = acc.currency := h r (by simp)
    have hrs := ih { acc with amountMinor := acc.amountMinor - r.amount.amountMinor }
      fun r' hr' => h r' (by simp [hr'])
    rw [List.foldlM_cons, Money.minus_of_sameCurrency hr]
    by_cases hlt : acc.amountMinor < r.amount.amountMinor
    · have hsum : acc.amountMinor < ((r :: rs).map fun r => r.amount.amountMinor).sum := by
        simp; omega
      rw [if_pos hlt, if_pos hsum]
      rfl
    · rw [if_neg hlt, ok_bind, hrs]
      have hiff : acc.amountMinor - r.amount.amountMinor <
          (rs.map fun r => r.amount.amountMinor).sum ↔
          acc.amountMinor < ((r :: rs).map fun r => r.amount.amountMinor).sum := by
        simp; omega
      simp only [hiff]
      simp [Nat.sub_add_eq]

theorem remaining_eq {p : PaymentIntent} (h : OneCurrency p) :
    p.remaining = if p.captured < p.reserved then
        .error (.businessRule "Money cannot be negative")
      else .ok { p.amount with amountMinor := p.captured - p.reserved } := by
  have hc := charges_fold p.charges { p.amount with amountMinor := 0 } h.charges
  have hr := refunds_fold (p.refunds.filter fun refund => refund.status != .failed)
    { p.amount with amountMinor := 0 + p.captured }
    fun r hr => h.refunds r (List.mem_of_mem_filter hr)
  simp only [Nat.zero_add] at hc hr
  simp only [remaining, Money.zero_currency, ok_bind, hc]
  exact hr

theorem remaining_push {p : PaymentIntent} {r : Refund} {left : Money}
    (h : p.remaining = .ok left) (hr : r.status ≠ .failed) :
    ({ p with refunds := p.refunds ++ [r] } : PaymentIntent).remaining = left.minus r.amount := by
  simp only [remaining, bind_eq_ok] at h
  obtain ⟨z, hz, c, hc, hleft⟩ := h
  simp [remaining, List.filter_append, hz, hc, hleft, hr]

theorem updateRefund_eq {p : PaymentIntent} {refundId : String} {r : Refund}
    (change : Refund → Refund) (h : p.findReservedRefund refundId = .ok r) :
    ∃ before after, p.refunds = before ++ r :: after ∧ r.id.value = refundId ∧
      (∀ b ∈ before, b.id.value ≠ refundId) ∧
      updateRefund refundId change p = { p with refunds := before ++ change r :: after } := by
  rw [findReservedRefund] at h
  split at h
  · cases h
  · rename_i r' hr
    cases h
    obtain ⟨hid, before, after, hsplit, hbefore⟩ := List.find?_eq_some_iff_append.mp hr
    have hid : r.id.value = refundId := by simpa using hid
    have hne : ∀ b ∈ before, b.id.value ≠ refundId := by
      intro b hb
      simpa using hbefore b hb
    refine ⟨before, after, hsplit, hid, hne, ?_⟩
    rw [updateRefund, hsplit]
    refine congrArg (fun refunds => { p with refunds }) (replaceF_split (fun b hb => ?_) ?_)
    · exact if_neg fun hsame => hne b hb (beq_iff_eq.mp hsame)
    · exact if_pos (beq_iff_eq.mpr hid)

variable (p : PaymentIntent)

theorem transition_result (toStatus : PaymentStatusValue) :
    (canTransitionPayment p.status toStatus = false ∧ ∃ e, transition toStatus p = .error e p) ∨
    (canTransitionPayment p.status toStatus = true ∧
      transition toStatus p = .ok () { p with status := toStatus }) := by
  cases hc : canTransitionPayment p.status toStatus with
  | false => exact Or.inl ⟨rfl, by simp [transition, hc]⟩
  | true => exact Or.inr ⟨rfl, by simp [transition, hc]⟩

theorem capture_result (pspToken : PspToken) (eventId : String) :
    (¬ (p.status = .requiresPayment ∧ isBlank eventId = false) ∧
      ∃ e, capture pspToken eventId p = .error e p) ∨
    (p.status = .requiresPayment ∧ ∃ id : UniqueEntityId, id.value = eventId ∧
      capture pspToken eventId p = .ok ()
        { p with charges := p.charges ++ [⟨id, p.amount, pspToken⟩], status := .captured }) := by
  by_cases hs : p.status = .requiresPayment
  · cases hid : UniqueEntityId.from eventId with
    | error e =>
      exact Or.inl ⟨by simp [UniqueEntityId.from_error hid], e, by simp [capture, hs, hid]⟩
    | ok id =>
      exact Or.inr ⟨hs, id, UniqueEntityId.from_ok hid, by simp [capture, hs, hid]⟩
  · exact Or.inl ⟨by simp [hs], by simp [capture, hs]⟩

theorem fail_result :
    (p.status ≠ .requiresPayment ∧ ∃ e, fail p = .error e p) ∨
    (p.status = .requiresPayment ∧ fail p = .ok () { p with status := .failed }) := by
  by_cases hs : p.status = .requiresPayment
  · exact Or.inr ⟨hs, by simp [fail, hs]⟩
  · exact Or.inl ⟨hs, by simp [fail, hs]⟩

def AcceptsRefund (amount : Money) (eventId : String) : Prop :=
  p.status = .captured ∧ isBlank eventId = false ∧ ∃ left, p.remaining = .ok left ∧
    amount.currency = left.currency ∧ amount.amountMinor ≤ left.amountMinor

theorem refund_result (amount : Money) (eventId : String) :
    (¬ AcceptsRefund p amount eventId ∧ ∃ e, refund amount eventId p = .error e p) ∨
    (p.status = .captured ∧ ∃ (id : UniqueEntityId) (left : Money), id.value = eventId ∧
      p.remaining = .ok left ∧ amount.currency = left.currency ∧
      amount.amountMinor ≤ left.amountMinor ∧
      refund amount eventId p = .ok ()
        { p with
          refunds := p.refunds ++ [⟨id, amount, .completed, none⟩]
          status := if left.amountMinor = amount.amountMinor then .refunded else .captured }) := by
  by_cases hs : p.status = .captured
  · cases hl : p.remaining with
    | error e => exact Or.inl ⟨by simp [AcceptsRefund, hl], e, by simp [refund, hs, hl]⟩
    | ok left =>
      cases hg : amount.isGreaterThan left with
      | error e =>
        have hcur : amount.currency ≠ left.currency := fun h =>
          absurd hg (by simp [Money.isGreaterThan, Money.assertSameCurrency, h, pure, Except.pure])
        exact Or.inl ⟨by simp [AcceptsRefund, hl, hcur], e, by simp [refund, hs, hl, hg]⟩
      | ok greater =>
        obtain ⟨hcur, hgr⟩ := Money.isGreaterThan_ok hg
        cases greater with
        | true =>
          have hlt : left.amountMinor < amount.amountMinor := by simpa using hgr
          exact Or.inl ⟨by simp [AcceptsRefund, hl, hlt], by simp [refund, hs, hl, hg]⟩
        | false =>
          have hle : amount.amountMinor ≤ left.amountMinor := by simpa using hgr
          cases hid : UniqueEntityId.from eventId with
          | error e =>
            exact Or.inl ⟨by simp [AcceptsRefund, UniqueEntityId.from_error hid], e,
              by simp [refund, hs, hl, hg, hid]⟩
          | ok id =>
            refine Or.inr ⟨hs, id, left, UniqueEntityId.from_ok hid, rfl, hcur.symm, hle, ?_⟩
            have hpush := remaining_push (r := ⟨id, amount, .completed, none⟩) hl (by simp)
            rw [Money.minus_of_sameCurrency hcur.symm, if_neg (by simpa using hle)] at hpush
            simp only [hs] at hpush
            have hzero : left.amountMinor - amount.amountMinor = 0 ↔
                left.amountMinor = amount.amountMinor := by omega
            by_cases he : left.amountMinor = amount.amountMinor
            · simp [refund, hs, hl, hg, hid, hpush, Money.isZero, he]
            · simp [refund, hs, hl, hg, hid, hpush, Money.isZero, hzero, he]
  · exact Or.inl ⟨by simp [AcceptsRefund, hs], by simp [refund, hs]⟩

theorem authorize_result (ref : PspReference) (method : PaymentMethod) (minor : ℚ) :
    (canTransitionPayment p.status .authorized = false ∧
      ∃ e, authorize ref method minor p = .error e p) ∨
    (canTransitionPayment p.status .authorized = true ∧
      (∃ e, authorize ref method minor p = .error e
        { p with status := .authorized, pspReference := some ref, paymentMethod := some method }) ∨
      (canTransitionPayment p.status .authorized = true ∧ ∃ m : Money,
        m.currency = p.amount.currency ∧ (m.amountMinor : ℤ) = minor.num ∧
        authorize ref method minor p = .ok ()
          { p with
            status := .authorized
            pspReference := some ref
            paymentMethod := some method
            authorizedAmount := some m })) := by
  rcases transition_result p .authorized with ⟨hc, e, ht⟩ | ⟨hc, ht⟩
  · exact Or.inl ⟨hc, e, by simp [authorize, ht]⟩
  · apply Or.inr
    cases hm : Money.create minor p.amount.currency with
    | error e => exact Or.inl ⟨hc, by simp [authorize, ht, hm]⟩
    | ok m =>
      obtain ⟨hcur, hnum⟩ := Money.create_ok hm
      exact Or.inr ⟨hc, m, hcur, hnum, by simp [authorize, ht, hm]⟩

/-- The charge stays when the transition is refused. -/
theorem markCaptured_result (eventId : String) :
    (isBlank eventId = true ∧ ∃ e, markCaptured eventId p = .error e p) ∨
    (∃ (id : UniqueEntityId) (token : PspToken), id.value = eventId ∧
      ((canTransitionPayment p.status .captured = false ∧
        ∃ e, markCaptured eventId p = .error e
          { p with charges := p.charges ++ [⟨id, p.authorizedAmount.getD p.amount, token⟩] }) ∨
      (canTransitionPayment p.status .captured = true ∧
        markCaptured eventId p = .ok ()
          { p with
            charges := p.charges ++ [⟨id, p.authorizedAmount.getD p.amount, token⟩]
            status := .captured }))) := by
  cases ht : PspToken.create ((p.paymentMethod.map (·.token)).getD
      ((p.pspReference.map (·.value)).getD eventId)) with
  | error e =>
    -- a known token or reference is never blank, so the fallback was used
    have hblank := PspToken.create_error ht
    cases hm : p.paymentMethod with
    | some m => simp [hm, m.notEmpty] at hblank
    | none =>
      cases hr : p.pspReference with
      | some ref => simp [hm, hr, ref.notEmpty] at hblank
      | none => exact Or.inl ⟨by simpa [hm, hr] using hblank, by simp [markCaptured, ht]⟩
  | ok token =>
    cases hid : UniqueEntityId.from eventId with
    | error e => exact Or.inl ⟨UniqueEntityId.from_error hid, e, by simp [markCaptured, ht, hid]⟩
    | ok id =>
      refine Or.inr ⟨id, token, UniqueEntityId.from_ok hid, ?_⟩
      have hrun := transition_result
        { p with charges := p.charges ++ [⟨id, p.authorizedAmount.getD p.amount, token⟩] } .captured
      rcases hrun with ⟨hc, e, hr⟩ | ⟨hc, hr⟩
      · exact Or.inl ⟨hc, e, by simp [markCaptured, ht, hid, hr]⟩
      · exact Or.inr ⟨hc, by simp [markCaptured, ht, hid, hr]⟩

theorem recordProviderIntent_result (providerIntentId : String) :
    (∃ e, recordProviderIntent providerIntentId p = .error e p) ∨
    recordProviderIntent providerIntentId p = .ok () p ∨
    ∃ ref, p.pspReference = none ∧
      recordProviderIntent providerIntentId p = .ok () { p with pspReference := some ref } := by
  cases hr : PspReference.create providerIntentId with
  | error e => exact Or.inl (by simp [recordProviderIntent, hr])
  | ok ref =>
    cases hk : p.pspReference with
    | none => exact Or.inr (Or.inr ⟨ref, rfl, by simp [recordProviderIntent, hr, hk]⟩)
    | some known =>
      by_cases hv : known.value = providerIntentId
      · exact Or.inr (Or.inl (by simp [recordProviderIntent, hr, hk, hv]))
      · exact Or.inl (by simp [recordProviderIntent, hr, hk, hv])

/-- The statuses from which the walk to `capture_requested` is legal. -/
def walksToCaptureRequested (status : PaymentStatusValue) : Bool :=
  status = .created || status = .processing || status = .authorized

theorem prepareDirectCapture_result (ref : Option String) :
    ∃ q : PaymentIntent,
      q = { p with providerTransactionRef := p.providerTransactionRef.orElse fun _ => ref } ∧
      (((p.status = .captureRequested ∨ p.status = .captured) ∧
          prepareDirectCapture ref p = .ok () q) ∨
        (walksToCaptureRequested p.status = true ∧
          prepareDirectCapture ref p = .ok () { q with status := .captureRequested }) ∨
        (walksToCaptureRequested p.status = false ∧ p.status ≠ .captureRequested ∧
          p.status ≠ .captured ∧ ∃ e, prepareDirectCapture ref p = .error e q)) := by
  refine ⟨_, rfl, ?_⟩
  cases hs : p.status <;>
    simp [prepareDirectCapture, hs, transition, canTransitionPayment,
      PaymentStatusValue.transitions, walksToCaptureRequested]

theorem reserveRefund_result (amount : Money) (eventId : String) (key : Option String) :
    (∃ e, reserveRefund amount eventId key p = .error e p) ∨
    (∃ (id : UniqueEntityId) (left : Money), id.value = eventId ∧
      p.remaining = .ok left ∧ amount.currency = left.currency ∧
      amount.amountMinor ≤ left.amountMinor ∧
      reserveRefund amount eventId key p = .ok ⟨⟨id, amount, .pending, key⟩, true⟩
        { p with refunds := p.refunds ++ [⟨id, amount, .pending, key⟩] }) := by
  cases hl : p.remaining with
  | error e => exact Or.inl ⟨e, by simp [reserveRefund, hl]⟩
  | ok left =>
    cases hg : amount.isGreaterThan left with
    | error e => exact Or.inl ⟨e, by simp [reserveRefund, hl, hg]⟩
    | ok greater =>
      obtain ⟨hcur, hgr⟩ := Money.isGreaterThan_ok hg
      cases greater with
      | true => exact Or.inl (by simp [reserveRefund, hl, hg])
      | false =>
        have hle : amount.amountMinor ≤ left.amountMinor := by simpa using hgr
        cases hid : UniqueEntityId.from eventId with
        | error e => exact Or.inl ⟨e, by simp [reserveRefund, hl, hg, hid]⟩
        | ok id =>
          exact Or.inr ⟨id, left, UniqueEntityId.from_ok hid, rfl, hcur.symm, hle,
            by simp [reserveRefund, hl, hg, hid]⟩

theorem requestRefund_result (amount : Money) (eventId : String) (key : Option String) :
    (∃ e, requestRefund amount eventId key p = .error e p) ∨
    (∃ existing, p.findByKey key = some existing ∧ existing.amount = amount ∧
      existing.status ≠ .failed ∧ requestRefund amount eventId key p = .ok ⟨existing, false⟩ p) ∨
    (p.findByKey key = none ∧ ∃ (id : UniqueEntityId) (left : Money), id.value = eventId ∧
      p.remaining = .ok left ∧ amount.currency = left.currency ∧
      amount.amountMinor ≤ left.amountMinor ∧
      requestRefund amount eventId key p = .ok ⟨⟨id, amount, .pending, key⟩, true⟩
        { p with refunds := p.refunds ++ [⟨id, amount, .pending, key⟩] }) := by
  cases hk : p.findByKey key with
  | some existing =>
    by_cases ha : existing.amount = amount
    · by_cases hf : existing.status = .failed
      · exact Or.inl (by simp [requestRefund, hk, ha, hf])
      · exact Or.inr (Or.inl ⟨existing, rfl, ha, hf, by simp [requestRefund, hk, ha, hf]⟩)
    · exact Or.inl (by simp [requestRefund, hk, ha])
  | none =>
    have hrun : requestRefund amount eventId key p = reserveRefund amount eventId key p := by
      simp [requestRefund, hk]
    rw [hrun]
    rcases reserveRefund_result p amount eventId key with he | hok
    · exact Or.inl he
    · exact Or.inr (Or.inr ⟨rfl, hok⟩)

theorem completeRefund_result (refundId : String) :
    (∃ e, p.findReservedRefund refundId = .error e ∧ completeRefund refundId p = .error e p) ∨
    ∃ r q, p.findReservedRefund refundId = .ok r ∧
      q = updateRefund refundId Refund.markCompleted p ∧
      ((∃ e, q.remaining = .error e ∧ completeRefund refundId p = .error e q) ∨
      ∃ left, q.remaining = .ok left ∧ completeRefund refundId p = .ok ()
        { q with status := if left.isZero then .refunded else .partiallyRefunded }) := by
  cases hf : p.findReservedRefund refundId with
  | error e => exact Or.inl ⟨e, rfl, by simp [completeRefund, hf]⟩
  | ok r =>
    refine Or.inr ⟨r, _, rfl, rfl, ?_⟩
    cases hl : (updateRefund refundId Refund.markCompleted p).remaining with
    | error e => exact Or.inl ⟨e, rfl, by simp [completeRefund, hf, hl]⟩
    | ok left => exact Or.inr ⟨left, rfl, by simp [completeRefund, hf, hl]⟩

theorem failRefund_result (refundId : String) :
    (∃ e, p.findReservedRefund refundId = .error e ∧ failRefund refundId p = .error e p) ∨
    ∃ r, p.findReservedRefund refundId = .ok r ∧
      failRefund refundId p = .ok () (updateRefund refundId Refund.markFailed p) := by
  cases hf : p.findReservedRefund refundId with
  | error e => exact Or.inl ⟨e, rfl, by simp [failRefund, hf]⟩
  | ok r => exact Or.inr ⟨r, rfl, by simp [failRefund, hf]⟩

end PaymentIntent

end PaymentsIntent
