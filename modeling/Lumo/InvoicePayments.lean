import Lumo.LicensingCards
import Lumo.LicensingCollection

/-! # The two channels by which an invoice is paid

`BeginCardEnrolment`, `IssueInvoice` and `RecordInvoiceTransaction`, turn by turn, beside
`CollectInvoice` and the dunning retries, all on one invoice. The provider charges once under a
collection key, and lets a customer settle each of its checkout orders once. -/
namespace InvoicePayments

open SharedKernel Licensing Interleavings
open LicensingCards (BillingPaymentMethod Methods billingProvider findByProviderOrder)

structure Payment where
  transactionId : String
  amountMinor : ℚ
  currency : String
  deriving DecidableEq

structure CheckoutOrder where
  id : String
  key : String
  tenantRef : String
  amount : Money
  payment : Option Payment

structure VerifiedInvoiceTransaction where
  transactionId : String
  providerOrderId : String
  amountMinor : ℚ
  currency : String
  success : Bool
  pending : Bool
  isAuth : Bool
  isCapture : Bool
  isVoided : Bool
  isRefunded : Bool
  errorOccured : Bool
  deriving DecidableEq

namespace VerifiedInvoiceTransaction

def isSettlement (verified : VerifiedInvoiceTransaction) : Bool :=
  verified.success && !verified.pending && !verified.errorOccured && !verified.isVoided &&
    !verified.isRefunded && !(verified.isAuth && !verified.isCapture)

def payment (verified : VerifiedInvoiceTransaction) : Payment :=
  ⟨verified.transactionId, verified.amountMinor, verified.currency⟩

end VerifiedInvoiceTransaction

structure Delivery where
  verified : VerifiedInvoiceTransaction
  invoiceRef : String
  tenantRef : String
  deriving DecidableEq

/-- The invoice with what has been charged and posted for it, the methods that are stored, and the
orders that the provider has opened. -/
structure Channels extends Shared where
  methods : Methods
  orders : List CheckoutOrder

inductive RecordInvoiceTransactionOutcome where
  | paid
  | already_paid
  | ignored
  | no_enrolment
  | amount_mismatch
  | currency_mismatch
  deriving DecidableEq

inductive Answer where
  | enrolled (paymentMethodId providerOrderId checkoutUrl : String)
  | issued (invoiceId : String)
  | recorded (outcome : RecordInvoiceTransactionOutcome)
  | err (e : DomainError)
  | unauthenticated (message : String)
  | threw (t : Thrown)
  deriving DecidableEq

/-- Where a call stands. A customer is one who may pay the orders. The answer to a delivery is kept
with it. -/
inductive Point where
  | enrolling (invoiceId : String)
  | startingCheckout (invoiceId tenantRef key : String) (total : Money)
  | savingMethod (method : BillingPaymentMethod) (checkoutUrl : String)
  | issuing (invoiceId : String)
  | savingIssued (read new : Invoice)
  | receiving
  | settling (delivery : Delivery) (attempt : ℕ)
  | savingPaid (delivery : Delivery) (settlement : Settlement) (attempt : ℕ) (read new : Invoice)
  | posting (delivery : Delivery) (settlement : Settlement)
  | collecting (point : Licensing.Point)
  | customer
  | answered (delivery : Option Delivery) (answer : Answer)
  deriving DecidableEq

/-- What the environment decides in a turn: nothing, or what the provider, the customer or the
ledger does. The id is the one drawn for a method. -/
inductive Choice where
  | proceeds
  | checkout (id providerOrderId checkoutUrl : String)
  | pays (providerOrderId : String) (payment : Payment)
  | callback (verified : Option VerifiedInvoiceTransaction)
  | collects (choice : Licensing.Choice)
  | fails (reason : String)
  deriving DecidableEq

def notFound : Point := .answered none (.err (.notFound "Invoice not found"))

/-! `BeginCardEnrolment`. No other invoice is stored. -/

def enrolKey (invoiceId : String) (version : ℕ) : String :=
  invoiceId ++ ":" ++ toString version ++ ":enrol"

def enrol (invoiceId : String) (invoice : Invoice) : Point :=
  if invoice.id ≠ invoiceId then notFound
  else if invoice.status ≠ .issued then
    .answered none (.err (.businessRule
      ("Cannot start a payment for a " ++ invoice.status.text ++ " invoice")))
  else
    match invoice.total with
    | .error e => .answered none (.threw (.domain e))
    | .ok total =>
      if total.amountMinor = 0 then
        .answered none (.err (.businessRule
          "Cannot start a card payment for an invoice with a zero total"))
      else .startingCheckout invoiceId invoice.tenantRef (enrolKey invoiceId invoice.version) total

def startCheckout (tenantRef key : String) (total : Money) (providerOrderId : String)
    (orders : List CheckoutOrder) : Option (List CheckoutOrder) :=
  match orders.find? fun order => order.id == providerOrderId with
  | none => some (orders ++ [⟨providerOrderId, key, tenantRef, total, none⟩])
  | some order => if order.key = key then some orders else none

def saveMethod (method : BillingPaymentMethod) (checkoutUrl : String) (s : Channels) :
    Point × Channels :=
  match LicensingCards.save method s.methods with
  | .error t => (.answered none (.threw t), s)
  | .ok methods =>
    (.answered none (.enrolled method.id method.providerOrderId checkoutUrl),
      { s with methods := methods })

/-! `IssueInvoice`. -/

def issue (invoiceId : String) (invoice : Invoice) : Point :=
  if invoice.id ≠ invoiceId then notFound
  else
    match invoice.issue with
    | .error e => .answered none (.err e)
    | .ok new => .savingIssued invoice new

def save (read new : Invoice) (s : Channels) : Option Channels :=
  (saveInvoice read new s.toShared).map fun shared => { s with toShared := shared }

def saveIssued (read new : Invoice) (s : Channels) : Point × Channels :=
  match save read new s with
  | some s' => (.answered none (.issued read.id), s')
  | none => (.answered none (.threw (invoiceConflict read)), s)

/-! `RecordInvoiceTransaction`. -/

/-- What is signed of an order of this invoice has been paid on it, when it is a settlement. -/
def genuine (orders : List CheckoutOrder) (verified : VerifiedInvoiceTransaction) : Bool :=
  !verified.isSettlement || orders.all fun order =>
    order.id != verified.providerOrderId || order.payment == some verified.payment

/-- The order that is signed, and not the reference that is not, leads to the invoice. -/
def receive (verified : VerifiedInvoiceTransaction) (methods : Methods) : Point :=
  match findByProviderOrder billingProvider verified.providerOrderId methods with
  | none => .answered none (.recorded .no_enrolment)
  | some method =>
    match method.invoiceRef with
    | none => .answered none (.recorded .no_enrolment)
    | some invoiceRef =>
      if verified.isSettlement then .settling ⟨verified, invoiceRef, method.tenantRef⟩ 1
      else .answered none (.recorded .ignored)

/-- A paid invoice is taken for one that this callback has paid before: the references are not
compared. What will be posted is the signed amount, which is the total. -/
def settle (delivery : Delivery) (attempt : ℕ) (invoice : Invoice) : Point :=
  if invoice.id ≠ delivery.invoiceRef then .answered (some delivery) (.recorded .no_enrolment)
  else if invoice.status = .paid then .answered (some delivery) (.recorded .already_paid)
  else if invoice.status ≠ .issued then .answered (some delivery) (.recorded .ignored)
  else
    match invoice.total with
    | .error e => .answered (some delivery) (.threw (.domain e))
    | .ok total =>
      if delivery.verified.amountMinor ≠ total.amountMinor then
        .answered (some delivery) (.recorded .amount_mismatch)
      else if delivery.verified.currency ≠ invoice.currency then
        .answered (some delivery) (.recorded .currency_mismatch)
      else
        match invoice.markPaid delivery.verified.transactionId with
        | .error e => .answered (some delivery) (.err e)
        | .ok new =>
          .savingPaid delivery ⟨delivery.tenantRef, total, delivery.verified.transactionId⟩ attempt
            invoice new

def savePaid (delivery : Delivery) (settlement : Settlement) (attempt : ℕ) (read new : Invoice)
    (s : Channels) : Point × Channels :=
  match save read new s with
  | some s' => (.posting delivery settlement, s')
  | none =>
    if attempt < maxConcurrencyRetries then (.settling delivery (attempt + 1), s)
    else (.answered (some delivery) (.threw (invoiceConflict read)), s)

def pay (providerOrderId : String) (payment : Payment) (orders : List CheckoutOrder) :
    Option (List CheckoutOrder) :=
  if orders.any fun order => order.id == providerOrderId && order.payment == none then
    some (orders.map fun order =>
      if order.id = providerOrderId ∧ order.payment = none then
        { order with payment := some payment }
      else order)
  else none

/-- The references of the payments that the provider has accepted, by either channel. -/
def accepted (s : Channels) : List String :=
  s.charges.map Charge.reference ++
    s.orders.filterMap fun order => order.payment.map Payment.transactionId

/-- The turn of a call that stands at a point. -/
def turn (policy : DunningPolicy) : Program Channels Point Choice
  | .enrolling invoiceId, .proceeds, s => some (enrol invoiceId s.invoice, s)
  | .startingCheckout invoiceId tenantRef key total, .checkout id providerOrderId checkoutUrl, s =>
    (startCheckout tenantRef key total providerOrderId s.orders).map fun orders =>
      (.savingMethod (.begin id tenantRef billingProvider providerOrderId invoiceId) checkoutUrl,
        { s with orders := orders })
  | .startingCheckout _ _ _ _, .fails reason, s =>
    some (.answered none (.threw (.provider reason)), s)
  | .savingMethod method checkoutUrl, .proceeds, s => some (saveMethod method checkoutUrl s)
  | .issuing invoiceId, .proceeds, s => some (issue invoiceId s.invoice, s)
  | .savingIssued read new, .proceeds, s => some (saveIssued read new s)
  | .receiving, .callback none, s =>
    some (.answered none (.unauthenticated
      "Billing transaction callback signature verification failed"), s)
  | .receiving, .callback (some verified), s =>
    if genuine s.orders verified then some (receive verified s.methods, s) else none
  | .settling delivery attempt, .proceeds, s => some (settle delivery attempt s.invoice, s)
  | .savingPaid delivery settlement attempt read new, .proceeds, s =>
    some (savePaid delivery settlement attempt read new s)
  | .posting delivery settlement, .proceeds, s =>
    some (.answered (some delivery) (.recorded .paid),
      { s with ledger := s.ledger ++ [settlement] })
  | .posting delivery _, .fails _, s => some (.answered (some delivery) (.recorded .paid), s)
  | .collecting point, .collects choice, s =>
    (Licensing.turn policy point choice s.toShared).map fun (point, shared) =>
      (.collecting point, { s with toShared := shared })
  | .customer, .pays providerOrderId payment, s =>
    (pay providerOrderId payment s.orders).map fun orders => (.customer, { s with orders := orders })
  | _, _, _ => none

end InvoicePayments
