import Lumo.Interleavings
import Lumo.LicensingBilling

/-! # The saved cards that renewals are charged to

The payment method, the table it is stored in, and `BeginCardEnrolment`, `RecordCardToken` and
`RevokeBillingPaymentMethod` turn by turn: every read is a turn, and so is a transaction's saving,
whose rows are locked until it ends. The one tenant scope and the times are not modelled. -/
namespace LicensingCards

open SharedKernel Licensing Interleavings

def billingProvider : String := "paymob"

inductive BillingPaymentMethodStatus where
  | pending
  | active
  | revoked
  deriving DecidableEq

def BillingPaymentMethodStatus.text : BillingPaymentMethodStatus → String
  | pending => "pending"
  | active => "active"
  | revoked => "revoked"

structure BillingPaymentMethod where
  id : String
  tenantRef : String
  provider : String
  providerOrderId : String
  invoiceRef : Option String
  status : BillingPaymentMethodStatus
  tokenId : Option String
  sealedToken : Option String
  maskedPan : Option String
  cardSubtype : Option String
  version : ℕ
  deriving DecidableEq

structure VerifiedCardToken where
  providerOrderId : String
  tokenId : String
  token : String
  maskedPan : String
  cardSubtype : String
  deriving DecidableEq

namespace BillingPaymentMethod

def begin (id tenantRef provider providerOrderId invoiceRef : String) :
    BillingPaymentMethod where
  id := id
  tenantRef := tenantRef
  provider := provider
  providerOrderId := providerOrderId
  invoiceRef := some invoiceRef
  status := .pending
  tokenId := none
  sealedToken := none
  maskedPan := none
  cardSubtype := none
  version := 0

def activate (card : VerifiedCardToken) (sealedToken : String) (method : BillingPaymentMethod) :
    Except DomainError BillingPaymentMethod :=
  if method.status ≠ .pending then
    .error (.businessRule ("Cannot activate a " ++ method.status.text ++ " payment method"))
  else .ok { method with
    status := .active
    tokenId := some card.tokenId
    sealedToken := some sealedToken
    maskedPan := some card.maskedPan
    cardSubtype := some card.cardSubtype }

def revoke (method : BillingPaymentMethod) : BillingPaymentMethod :=
  if method.status = .revoked then method else { method with status := .revoked }

end BillingPaymentMethod

/-! `PrismaBillingPaymentMethodRepository`. -/

abbrev Methods := List BillingPaymentMethod

def uniqueViolation : Thrown := .error "Unique constraint failed"

def methodConflict (method : BillingPaymentMethod) : Thrown :=
  .domain (.concurrency ("BillingPaymentMethod " ++ method.id ++ " was modified concurrently"))

def clashes (method row : BillingPaymentMethod) : Bool :=
  (row.provider == method.provider && row.providerOrderId == method.providerOrderId) ||
    (method.status == .active && row.status == .active && row.tenantRef == method.tenantRef)

/-- Version 0 stands for a method that is not stored yet. -/
def save (method : BillingPaymentMethod) (rows : Methods) : Except Thrown Methods :=
  if method.version = 0 then
    if rows.any fun row => row.id == method.id || clashes method row then .error uniqueViolation
    else .ok (rows ++ [method])
  else if rows.any fun row => row.id == method.id && row.version == method.version then
    if rows.any fun row => row.id != method.id && clashes method row then .error uniqueViolation
    else .ok (rows.map fun row =>
      if row.id = method.id ∧ row.version = method.version then
        { method with version := method.version + 1 }
      else row)
  else .error (methodConflict method)

def findByProviderOrder (provider providerOrderId : String) (rows : Methods) :
    Option BillingPaymentMethod :=
  rows.find? fun row => row.provider == provider && row.providerOrderId == providerOrderId

def findActiveByTenantRef (tenantRef : String) (rows : Methods) : Option BillingPaymentMethod :=
  rows.find? fun row => row.tenantRef == tenantRef && row.status == .active

inductive Output where
  | enrolled (paymentMethodId providerOrderId checkoutUrl : String)
  | active (paymentMethodId : String)
  | revoked (revoked : Bool)
  deriving DecidableEq

inductive Answer where
  | ok (output : Output)
  | err (e : DomainError)
  | unauthenticated (message : String)
  | threw (t : Thrown)
  deriving DecidableEq

def unitOfWork (work : Methods → Except Thrown (Methods × Except DomainError Output))
    (rows : Methods) : Answer × Methods :=
  match work rows with
  | .error t => (.threw t, rows)
  | .ok (rows, .error e) => (.err e, rows)
  | .ok (rows, .ok output) => (.ok output, rows)

/-- Where a call stands: before a read, before a call of another system, or before its saves. -/
inductive Point where
  | enrolling (invoiceId : String)
  | startingCheckout (invoiceId tenantRef : String)
  | savingMethod (method : BillingPaymentMethod) (checkoutUrl : String)
  | receiving
  | sealing (card : VerifiedCardToken) (tenantRef : String)
  | findingMethod (card : VerifiedCardToken) (sealedToken : String)
  | findingPrevious (card : VerifiedCardToken) (sealedToken : String)
      (method : BillingPaymentMethod)
  | savingToken (card : VerifiedCardToken) (sealedToken : String)
      (method : BillingPaymentMethod) (previous : Option BillingPaymentMethod)
  | revoking (tenantRef : String)
  | savingRevoked (method : BillingPaymentMethod)
  | finished (answer : Answer)
  deriving DecidableEq

/-- What the environment decides in a turn: nothing, what another system answers, or that it
fails. The invoice is the one that was asked for, the id the one drawn for the method. -/
inductive Choice where
  | proceeds
  | invoice (found : Option Invoice)
  | checkout (id providerOrderId checkoutUrl : String)
  | callback (verified : Option VerifiedCardToken)
  | sealed (sealedToken : String)
  | fails (reason : String)

def enrol (invoiceId : String) : Option Invoice → Point
  | none => .finished (.err (.notFound "Invoice not found"))
  | some invoice =>
    if invoice.status ≠ .issued then
      .finished (.err (.businessRule
        ("Cannot start a payment for a " ++ invoice.status.text ++ " invoice")))
    else match invoice.total with
      | .error e => .finished (.threw (.domain e))
      | .ok total =>
        if total.amountMinor = 0 then
          .finished (.err (.businessRule
            "Cannot start a card payment for an invoice with a zero total"))
        else .startingCheckout invoiceId invoice.tenantRef

def saveMethod (method : BillingPaymentMethod) (checkoutUrl : String) (rows : Methods) :
    Answer × Methods :=
  unitOfWork (fun rows => do
    let rows ← save method rows
    return (rows, .ok (.enrolled method.id method.providerOrderId checkoutUrl))) rows

def noEnrolment : Answer := .err (.notFound "No card enrolment is waiting on this order")

def receive (verified : Option VerifiedCardToken) (rows : Methods) : Point :=
  match verified with
  | none =>
    .finished (.unauthenticated "Card-token callback signature verification failed")
  | some card =>
    match findByProviderOrder billingProvider card.providerOrderId rows with
    | none => .finished noEnrolment
    | some pending => .sealing card pending.tenantRef

def findMethod (card : VerifiedCardToken) (sealedToken : String) (rows : Methods) : Point :=
  match findByProviderOrder billingProvider card.providerOrderId rows with
  | none => .finished noEnrolment
  | some method =>
    if method.status = .active ∧ method.tokenId = some card.tokenId then
      .finished (.ok (.active method.id))
    else .findingPrevious card sealedToken method

def caught (rows : Methods) : Thrown → Except Thrown (Methods × Except DomainError Output)
  | .domain e => .ok (rows, .error e)
  | t => .error t

def revokePrevious (method : BillingPaymentMethod) (previous : Option BillingPaymentMethod)
    (rows : Methods) : Except Thrown Methods :=
  match previous with
  | none => .ok rows
  | some previous => if previous.id = method.id then .ok rows else save previous.revoke rows

def activateMethod (card : VerifiedCardToken) (sealedToken : String)
    (method : BillingPaymentMethod) (rows : Methods) :
    Except Thrown (Methods × Except DomainError Output) :=
  match method.activate card sealedToken with
  | .error e => .ok (rows, .error e)
  | .ok method =>
    match save method rows with
    | .error t => caught rows t
    | .ok rows => .ok (rows, .ok (.active method.id))

def recordToken (card : VerifiedCardToken) (sealedToken : String) (method : BillingPaymentMethod)
    (previous : Option BillingPaymentMethod) (rows : Methods) :
    Except Thrown (Methods × Except DomainError Output) :=
  match revokePrevious method previous rows with
  | .error t => caught rows t
  | .ok rows => activateMethod card sealedToken method rows

def saveToken (card : VerifiedCardToken) (sealedToken : String) (method : BillingPaymentMethod)
    (previous : Option BillingPaymentMethod) (rows : Methods) : Answer × Methods :=
  unitOfWork (recordToken card sealedToken method previous) rows

def findActive (tenantRef : String) (rows : Methods) : Point :=
  match findActiveByTenantRef tenantRef rows with
  | none => .finished (.ok (.revoked false))
  | some method => .savingRevoked method.revoke

def saveRevoked (method : BillingPaymentMethod) (rows : Methods) : Answer × Methods :=
  unitOfWork (fun rows => do
    let rows ← save method rows
    return (rows, .ok (.revoked true))) rows

def ended : Answer × Methods → Point × Methods
  | (answer, rows) => (.finished answer, rows)

/-- The turn of a call that stands at a point. -/
def turn : Program Methods Point Choice
  | .enrolling invoiceId, .invoice found, rows => some (enrol invoiceId found, rows)
  | .startingCheckout invoiceId tenantRef, .checkout id providerOrderId checkoutUrl, rows =>
    some (.savingMethod (.begin id tenantRef billingProvider providerOrderId invoiceId)
      checkoutUrl, rows)
  | .startingCheckout _ _, .fails reason, rows => some (.finished (.threw (.provider reason)), rows)
  | .savingMethod method checkoutUrl, .proceeds, rows =>
    some (ended (saveMethod method checkoutUrl rows))
  | .receiving, .callback verified, rows => some (receive verified rows, rows)
  | .sealing card _, .sealed sealedToken, rows => some (.findingMethod card sealedToken, rows)
  | .sealing _ _, .fails reason, rows => some (.finished (.threw (.error reason)), rows)
  | .findingMethod card sealedToken, .proceeds, rows =>
    some (findMethod card sealedToken rows, rows)
  | .findingPrevious card sealedToken method, .proceeds, rows =>
    some (.savingToken card sealedToken method (findActiveByTenantRef method.tenantRef rows), rows)
  | .savingToken card sealedToken method previous, .proceeds, rows =>
    some (ended (saveToken card sealedToken method previous rows))
  | .revoking tenantRef, .proceeds, rows => some (findActive tenantRef rows, rows)
  | .savingRevoked method, .proceeds, rows => some (ended (saveRevoked method rows))
  | _, _, _ => none

end LicensingCards
