import Lumo.Builtins

/-! # Invoices, subscriptions and the dunning policy

The aggregates of the licensing service that collection and dunning work on, with the version
under which each is stored. Events, and the fields that neither reads, are not modelled. -/
namespace Licensing

open SharedKernel Builtins

inductive InvoiceStatus where
  | draft
  | issued
  | paid
  | failed
  | voided
  deriving DecidableEq

namespace InvoiceStatus

def text : InvoiceStatus → String
  | draft => "draft"
  | issued => "issued"
  | paid => "paid"
  | failed => "failed"
  | voided => "voided"

def transitions : InvoiceStatus → List InvoiceStatus
  | draft => [issued, voided]
  | issued => [paid, failed, voided]
  | paid => []
  | failed => [issued, voided]
  | voided => []

end InvoiceStatus

structure InvoiceLineItem where
  description : String
  amountMinor : ℚ
  deriving DecidableEq

structure InvoiceDiscount where
  couponRef : String
  amountMinor : ℚ
  deriving DecidableEq

structure Invoice where
  id : String
  tenantRef : String
  currency : String
  lineItems : List InvoiceLineItem
  status : InvoiceStatus
  paymentReference : Option String
  discount : Option InvoiceDiscount
  version : ℕ
  deriving DecidableEq

/-- `Number.isSafeInteger`, of a sum of amounts. -/
def isSafeInteger (amountMinor : ℕ) : Bool := amountMinor ≤ 9007199254740991

namespace Invoice

def sum (currency : String) (lineItems : List InvoiceLineItem) : Except DomainError Money := do
  lineItems.foldlM (fun total item =>
    match Money.create item.amountMinor currency with
    | .error _ => throw (.businessRule ("Invoice line \"" ++ item.description ++
        "\": amountMinor must be a non-negative integer of minor units"))
    | .ok line => do
      let total ← total.plus line
      if ¬ isSafeInteger total.amountMinor then
        throw (.businessRule "Invoice total exceeds the exactly-representable range")
      return total) (← Money.zero currency)

def subtotal (invoice : Invoice) : Except DomainError Money :=
  sum invoice.currency invoice.lineItems

def total (invoice : Invoice) : Except DomainError Money :=
  match invoice.discount with
  | none => invoice.subtotal
  | some discount => do
    match Money.create discount.amountMinor invoice.currency with
    | .error _ =>
      throw (.businessRule "Invoice discount amountMinor must be a non-negative integer")
    | .ok amount => (← invoice.subtotal).minus amount

def applyDiscount (couponRef : String) (amount : Money) (invoice : Invoice) :
    Except DomainError Invoice := do
  if invoice.status ≠ .draft then
    throw (.businessRule ("A discount can only be applied to a draft invoice, not one that is " ++
      invoice.status.text))
  if invoice.discount.isSome then
    throw (.businessRule "Invoice already has a discount")
  let _ ← (← invoice.subtotal).minus amount
  return { invoice with discount := some ⟨couponRef, amount.amountMinor⟩ }

def transition (toStatus : InvoiceStatus) (invoice : Invoice) : Except DomainError Invoice :=
  if invoice.status.transitions.contains toStatus then .ok { invoice with status := toStatus }
  else .error (.businessRule
    ("Cannot transition invoice from " ++ invoice.status.text ++ " to " ++ toStatus.text))

def issue (invoice : Invoice) : Except DomainError Invoice := invoice.transition .issued

def markPaid (paymentReference : String) (invoice : Invoice) : Except DomainError Invoice :=
  { invoice with paymentReference := some paymentReference }.transition .paid

def markFailed (invoice : Invoice) : Except DomainError Invoice := invoice.transition .failed

variable {invoice new : Invoice}

theorem transition_ok {toStatus : InvoiceStatus} (h : invoice.transition toStatus = .ok new) :
    toStatus ∈ invoice.status.transitions ∧ new = { invoice with status := toStatus } := by
  rw [transition] at h
  split at h
  · rename_i hto
    cases h
    exact ⟨List.contains_iff_mem.mp hto, rfl⟩
  · cases h

theorem issue_ok (h : invoice.issue = .ok new) :
    (invoice.status = .draft ∨ invoice.status = .failed) ∧
      new = { invoice with status := .issued } := by
  obtain ⟨hto, hnew⟩ := transition_ok h
  refine ⟨?_, hnew⟩
  revert hto
  cases invoice.status <;> decide

theorem markPaid_ok {reference : String} (h : invoice.markPaid reference = .ok new) :
    invoice.status = .issued ∧
      new = { invoice with status := .paid, paymentReference := some reference } := by
  obtain ⟨hto, hnew⟩ := transition_ok h
  refine ⟨?_, hnew⟩
  revert hto
  change InvoiceStatus.paid ∈ invoice.status.transitions → _
  cases invoice.status <;> decide

theorem markPaid_issued (h : invoice.status = .issued) (reference : String) :
    invoice.markPaid reference =
      .ok { invoice with status := .paid, paymentReference := some reference } := by
  rw [markPaid, transition, h]
  rfl

theorem markFailed_ok (h : invoice.markFailed = .ok new) :
    invoice.status = .issued ∧ new = { invoice with status := .failed } := by
  obtain ⟨hto, hnew⟩ := transition_ok h
  refine ⟨?_, hnew⟩
  revert hto
  cases invoice.status <;> decide

theorem applyDiscount_draft {couponRef : String} {amount : Money}
    (h : invoice.applyDiscount couponRef amount = .ok new) : invoice.status = .draft := by
  by_contra hstatus
  rw [applyDiscount, if_pos hstatus] at h
  cases h

end Invoice

inductive SubscriptionStatus where
  | trial
  | active
  | grace
  | expired
  | suspended
  | cancelled
  deriving DecidableEq

namespace SubscriptionStatus

def text : SubscriptionStatus → String
  | trial => "trial"
  | active => "active"
  | grace => "grace"
  | expired => "expired"
  | suspended => "suspended"
  | cancelled => "cancelled"

def transitions : SubscriptionStatus → List SubscriptionStatus
  | trial => [active, cancelled, expired]
  | active => [grace, suspended, cancelled]
  | grace => [active, expired, cancelled]
  | expired => [active, cancelled]
  | suspended => [active, cancelled]
  | cancelled => []

end SubscriptionStatus

structure RetryPolicy where
  maxAttempts : ℚ
  attempt : ℕ
  nextRetryAt : Option ℚ
  invoiceRef : Option String
  deriving DecidableEq

structure Subscription where
  id : String
  status : SubscriptionStatus
  gracePeriodDays : Option ℚ
  retryPolicy : Option RetryPolicy
  version : ℕ
  deriving DecidableEq

namespace Subscription

def transition (toStatus : SubscriptionStatus) (subscription : Subscription) :
    Except DomainError Subscription :=
  if subscription.status.transitions.contains toStatus then .ok { subscription with status := toStatus }
  else .error (.businessRule
    ("Cannot transition subscription from " ++ subscription.status.text ++ " to " ++ toStatus.text))

def enterGrace (gracePeriodDays : ℚ) (subscription : Subscription) :
    Except DomainError Subscription :=
  { subscription with gracePeriodDays := some gracePeriodDays }.transition .grace

def recoverFromGrace (subscription : Subscription) : Except DomainError Subscription :=
  subscription.transition .active

def exhaustDunning (subscription : Subscription) : Except DomainError Subscription :=
  subscription.transition .expired

def setRetryPolicy (policy : Option RetryPolicy) (subscription : Subscription) : Subscription :=
  { subscription with retryPolicy := policy }

end Subscription

structure DunningPolicy where
  maxAttempts : ℚ
  retryIntervalsDays : List ℚ
  gracePeriodDays : ℚ
  deriving DecidableEq

def defaultDunningPolicy : DunningPolicy where
  maxAttempts := 3
  retryIntervalsDays := [1, 3, 7]
  gracePeriodDays := 11

inductive PolicyError where
  | entries (maxAttempts : ℚ) (got : ℕ)
  | gracePeriod (gracePeriodDays untilExhaustion : ℚ)
  deriving DecidableEq

def buildPolicy (policy : Option DunningPolicy) : Except PolicyError DunningPolicy := do
  let resolved := policy.getD defaultDunningPolicy
  if (resolved.retryIntervalsDays.length : ℚ) ≠ resolved.maxAttempts then
    throw (.entries resolved.maxAttempts resolved.retryIntervalsDays.length)
  let untilExhaustion := resolved.retryIntervalsDays.foldl (fun sum days => sum + days) 0
  if resolved.gracePeriodDays < untilExhaustion then
    throw (.gracePeriod resolved.gracePeriodDays untilExhaustion)
  return resolved

theorem buildPolicy_length {given : Option DunningPolicy} {policy : DunningPolicy}
    (h : buildPolicy given = .ok policy) :
    (policy.retryIntervalsDays.length : ℚ) = policy.maxAttempts := by
  rw [buildPolicy] at h
  dsimp only at h
  split at h
  · cases h
  rename_i hlength
  split at h
  · cases h
  injection h with h
  rw [← h]
  exact not_not.mp hlength

theorem buildPolicy_default : buildPolicy none = .ok defaultDunningPolicy := by
  decide +kernel

def dayMs : ℚ := 24 * 60 * 60 * 1000

inductive Thrown where
  | provider (reason : String)
  | domain (e : DomainError)
  | error (message : String)
  deriving DecidableEq

def retryIntervalDays (policy : DunningPolicy) (index : ℕ) : Except Thrown ℚ :=
  match policy.retryIntervalsDays[index]? with
  | none => .error (.error
      ("DunningPolicy.retryIntervalsDays has no entry at index " ++ toString index))
  | some days => .ok days

theorem retryIntervalDays_ok {policy : DunningPolicy} {index : ℕ}
    (h : index < policy.retryIntervalsDays.length) :
    retryIntervalDays policy index = .ok policy.retryIntervalsDays[index] := by
  rw [retryIntervalDays, List.getElem?_eq_getElem h]

end Licensing
