import Lumo.Builtins
import Lumo.Methods
import Lumo.OptimisticTransactions
import Mathlib.Data.List.Chain

/-! # The order aggregate

A placed order, whose status is derived from an append-only history. -/
namespace Orders

open SharedKernel Builtins

inductive OrderEventType where
  | placed
  | paid
  | refunded
  | created
  | confirmed
  | cancelled
  | held
  | resumed
  | awaitingPayment
  | paymentRequested
  | paymentReceived
  | paymentFailed
  | readyForFulfillment
  | fulfillmentRequested
  | fulfilled
  | partiallyFulfilled
  | delivered
  | returnRequested
  | returned
  | refundRequested
  | closed
  deriving DecidableEq

open OrderEventType

def OrderEventType.name : OrderEventType → String
  | placed => "placed"
  | paid => "paid"
  | refunded => "refunded"
  | created => "created"
  | confirmed => "confirmed"
  | cancelled => "cancelled"
  | held => "held"
  | resumed => "resumed"
  | awaitingPayment => "awaiting_payment"
  | paymentRequested => "payment_requested"
  | paymentReceived => "payment_received"
  | paymentFailed => "payment_failed"
  | readyForFulfillment => "ready_for_fulfillment"
  | fulfillmentRequested => "fulfillment_requested"
  | fulfilled => "fulfilled"
  | partiallyFulfilled => "partially_fulfilled"
  | delivered => "delivered"
  | returnRequested => "return_requested"
  | returned => "returned"
  | refundRequested => "refund_requested"
  | closed => "closed"

/-- The lifecycle's transition table. -/
def TRANSITIONS : OrderEventType → List OrderEventType
  | placed => [paid, cancelled]
  | paid => [refunded]
  | refunded => []
  | created => [confirmed, cancelled]
  | confirmed => [awaitingPayment, held, cancelled]
  | held => [resumed, cancelled]
  | resumed => [awaitingPayment]
  | awaitingPayment => [paymentRequested, cancelled]
  | paymentRequested => [paymentReceived, paymentFailed, cancelled]
  | paymentFailed => [paymentRequested, cancelled]
  | paymentReceived => [readyForFulfillment]
  | readyForFulfillment => [fulfillmentRequested]
  | fulfillmentRequested => [fulfilled, partiallyFulfilled]
  | partiallyFulfilled => [fulfilled]
  | fulfilled => [delivered]
  | delivered => [returnRequested, closed]
  | returnRequested => [returned]
  | returned => [refundRequested, closed]
  | refundRequested => [closed]
  | cancelled => [closed]
  | closed => []

def canTransition (fromStatus toStatus : OrderEventType) : Bool :=
  (TRANSITIONS fromStatus).contains toStatus

/-- The statuses of `RefundPolicy`: `paid`, and what the checkout lifecycle reaches after the
payment was received. -/
def canRefund (status : OrderEventType) : Bool :=
  [paid, paymentReceived, readyForFulfillment, fulfillmentRequested, partiallyFulfilled, fulfilled,
    delivered, returned].contains status

inductive OrderPaymentStatus where
  | pending
  | paid
  | refunded
  | voided

def isPaidEvent (type : OrderEventType) : Bool := [paid, paymentReceived].contains type

def isRefundedEvent (type : OrderEventType) : Bool := [refunded, refundRequested].contains type

def derivePaymentStatus (types : List OrderEventType) : OrderPaymentStatus :=
  if types.any isRefundedEvent then .refunded
  else if types.any isPaidEvent then .paid
  else if types.contains cancelled then .voided
  else .pending

structure OrderEvent where
  id : UniqueEntityId
  type : OrderEventType
  occurredAt : ℤ
  deriving DecidableEq

structure OrderItem where
  unitPrice : Money
  quantity : ℕ

structure OrderTotalsSnapshot where
  totalMinor : ℚ
  currency : String

/-- An integration event that the aggregate raises, with its payload. -/
inductive OrderDomainEvent where
  | orderPlaced (orderNumber customerRef currency : String) (totalAmountMinor lineCount : ℕ)
  | orderPaid (orderNumber customerRef paymentRef currency : String) (totalAmountMinor : ℕ)
  | orderRefunded (orderNumber customerRef currency : String) (totalAmountMinor : ℕ)
  | orderTransitioned (orderNumber customerRef : String) (fromStatus toStatus : OrderEventType)

structure Order where
  orderNumber : String
  customerRef : String
  currency : String
  items : List OrderItem
  history : List OrderEvent
  totals : Option OrderTotalsSnapshot
  checkoutRef : Option String
  paymentRef : Option String
  fulfillmentRef : Option String
  domainEvents : List OrderDomainEvent

abbrev Method := EStateM DomainError Order Unit

namespace Order

def types (order : Order) : List OrderEventType := order.history.map (·.type)

def status (order : Order) : Except DomainError OrderEventType :=
  match order.history.getLast? with
  | none => .error (.businessRule "Order has no history")
  | some latest => .ok latest.type

/-- `item.lineTotal`: the quantity of an item is a positive integer. -/
def lineTotal (item : OrderItem) : Money :=
  { item.unitPrice with amountMinor := item.unitPrice.amountMinor * item.quantity }

def totalAmount (order : Order) : Except DomainError Money :=
  match order.totals with
  | some totals =>
    match Money.create totals.totalMinor totals.currency with
    | .ok money => .ok money
    | .error _ => .error (.businessRule "Corrupt order totals snapshot")
  | none => do
    order.items.foldlM (fun total item => total.plus (lineTotal item)) (← Money.zero order.currency)

def record (type : OrderEventType) (eventId : String) (occurredAt : ℤ) : Method := do
  let id ← MonadExcept.ofExcept (UniqueEntityId.from eventId)
  modify fun order => { order with history := order.history ++ [⟨id, type, occurredAt⟩] }

def addDomainEvent (event : OrderDomainEvent) : Method :=
  modify fun order => { order with domainEvents := order.domainEvents ++ [event] }

/-- The checks that the two ways of opening an order share, and the order without its history. -/
def opened (orderNumber customerRef currency : String) (items : List OrderItem) :
    Except DomainError Order := do
  if items.isEmpty then throw (.businessRule "An order needs at least one item")
  if !isValidCurrencyCode currency then
    throw (.businessRule ("Invalid order currency \"" ++ currency ++ "\""))
  return ⟨orderNumber, customerRef, currency, items, [], none, none, none, none, []⟩

def built (order : Order) (method : Method) : Except DomainError Order :=
  match method order with
  | .ok _ order => .ok order
  | .error e _ => .error e

def place (orderNumber customerRef currency : String) (items : List OrderItem) (eventId : String)
    (occurredAt : ℤ) : Except DomainError Order := do
  let order ← opened orderNumber customerRef currency items
  built order do
    record .placed eventId occurredAt
    let total ← MonadExcept.ofExcept (← get).totalAmount
    addDomainEvent
      (.orderPlaced orderNumber customerRef currency total.amountMinor items.length)

def createFromCheckout (orderNumber customerRef currency : String) (items : List OrderItem)
    (totals : OrderTotalsSnapshot) (checkoutRef eventId : String) (occurredAt : ℤ) :
    Except DomainError Order := do
  let order ← opened orderNumber customerRef currency items
  built { order with totals := some totals, checkoutRef := some checkoutRef } do
    record .created eventId occurredAt
    addDomainEvent (.orderTransitioned orderNumber customerRef .created .created)

def cannotBePaid (status : OrderEventType) : DomainError :=
  .businessRule ("Order cannot be paid from status \"" ++ status.name ++ "\"")

def markPaid (paymentRef eventId : String) (occurredAt : ℤ) : Method := do
  let status ← MonadExcept.ofExcept (← get).status
  if status ≠ .placed then throw (cannotBePaid status)
  record .paid eventId occurredAt
  let order ← get
  let total ← MonadExcept.ofExcept order.totalAmount
  addDomainEvent (.orderPaid order.orderNumber order.customerRef paymentRef order.currency
    total.amountMinor)

def cannotTransition (fromStatus toStatus : OrderEventType) : DomainError :=
  .businessRule ("Cannot transition order from \"" ++ fromStatus.name ++ "\" to \"" ++
    toStatus.name ++ "\"")

def transition (toStatus : OrderEventType) (eventId : String) (occurredAt : ℤ) : Method := do
  let fromStatus ← MonadExcept.ofExcept (← get).status
  if !canTransition fromStatus toStatus then throw (cannotTransition fromStatus toStatus)
  record toStatus eventId occurredAt
  let order ← get
  addDomainEvent (.orderTransitioned order.orderNumber order.customerRef fromStatus toStatus)

def completePayment (paymentRef eventId : String) (occurredAt : ℤ) : Method := do
  let status ← MonadExcept.ofExcept (← get).status
  if status = .placed then markPaid paymentRef eventId occurredAt
  else if canTransition status .paymentReceived then
    transition .paymentReceived eventId occurredAt
    modify fun order => { order with paymentRef := some paymentRef }
  else throw (cannotBePaid status)

def refund (eventId : String) (occurredAt : ℤ) : Method := do
  let status ← MonadExcept.ofExcept (← get).status
  if !canRefund status then
    throw (.businessRule ("Order is not refundable from status \"" ++ status.name ++ "\""))
  record .refunded eventId occurredAt
  let order ← get
  let total ← MonadExcept.ofExcept order.totalAmount
  addDomainEvent
    (.orderRefunded order.orderNumber order.customerRef order.currency total.amountMinor)

def requestPayment (paymentRef eventId : String) (occurredAt : ℤ) : Method := do
  transition .paymentRequested eventId occurredAt
  modify fun order => { order with paymentRef := some paymentRef }

def requestFulfillment (fulfillmentRef eventId : String) (occurredAt : ℤ) : Method := do
  transition .fulfillmentRequested eventId occurredAt
  modify fun order => { order with fulfillmentRef := some fulfillmentRef }

def confirm : String → ℤ → Method := transition .confirmed

def cancel : String → ℤ → Method := transition .cancelled

def hold : String → ℤ → Method := transition .held

def resume : String → ℤ → Method := transition .resumed

def markAwaitingPayment : String → ℤ → Method := transition .awaitingPayment

def markPaymentReceived : String → ℤ → Method := transition .paymentReceived

def markPaymentFailed : String → ℤ → Method := transition .paymentFailed

def markReadyForFulfillment : String → ℤ → Method := transition .readyForFulfillment

def markFulfilled : String → ℤ → Method := transition .fulfilled

def markPartiallyFulfilled : String → ℤ → Method := transition .partiallyFulfilled

def markDelivered : String → ℤ → Method := transition .delivered

def requestReturn : String → ℤ → Method := transition .returnRequested

def markReturned : String → ℤ → Method := transition .returned

def requestRefund : String → ℤ → Method := transition .refundRequested

def close : String → ℤ → Method := transition .closed

end Order

end Orders

/-! ## The lifecycle use cases of an order

`AdvanceOrder`, `MarkOrderPaid`, `RefundOrder`, `RecordCheckoutPayment`, `RequestPaymentCapture`
and `RequestFulfillment` on one order, as transactions of one interleaved system. The cleanups
after a cancellation and the notifications, which cannot fail a call, are not modelled. -/
namespace Orders

open SharedKernel Builtins OptimisticTransactions

/-- How the services are wired, and where a transaction takes its ids and its time from. -/
structure Config where
  paymentVerification : Bool
  ids : ℕ → ℕ → String
  clock : ℕ → ℤ

inductive Answer where
  | ok (status : OrderEventType)
  | err (error : DomainError)
  | threw (reason : String)

inductive Point where
  | advancing (toStatus : OrderEventType)
  | verifyingPayment (paymentRef : String)
  | markingPaid (paymentRef : String)
  | refunding
  | recordingPayment (paymentRef : String) (attempt : ℕ)
  | requestingCapture
  | capturing (amountMinor : ℕ) (currency : String)
  | settlingCapture (paymentRef : String) (attempt : ℕ)
  | requestingFulfillment
  | shipping
  | settlingFulfillment (fulfillmentRef : String) (attempt : ℕ)
  | finished (answer : Answer)

inductive PortMove where
  | throws (reason : String)
  | verified (found : Bool)
  | captured (paymentRef : String)
  | shipped (reservationRef shipmentRef : String)

def maxConcurrencyRetries : ℕ := 5

def concurrencyError : Answer := .threw "Order was modified concurrently"

/-- `withConcurrencyRetry`: the transaction starts over, until the last attempt throws. -/
def withConcurrencyRetry (attempt : ℕ) (again : ℕ → Point) : Point :=
  if attempt < maxConcurrencyRetries then again (attempt + 1) else .finished concurrencyError

def answerStatus (order : Order) : Outcome Order Point :=
  match order.status with
  | .ok status => .answer (.finished (.ok status))
  | .error e => .answer (.finished (.threw e.message))

def refuse (e : DomainError) : Outcome Order Point := .answer (.finished (.err e))

/-- The method runs on the order that was read, which is saved unless it throws; the events go
to the outbox. -/
def saveAfter (method : Method) (order : Order) : Outcome Order Point :=
  match method order with
  | .error e _ => refuse e
  | .ok _ saved =>
    match saved.status with
    | .ok status => .save { saved with domainEvents := [] } (.finished (.ok status))
    | .error e => .answer (.finished (.threw e.message))

section UseCases

variable (cfg : Config)

def advance (toStatus : OrderEventType) (draw : ℕ) (order : Order) : Outcome Order Point :=
  saveAfter (Order.transition toStatus (cfg.ids draw 0) (cfg.clock draw)) order

def executeMarkPaid (paymentRef : String) : Point :=
  match Guard.againstEmpty paymentRef "paymentRef" with
  | .error e => .finished (.err e)
  | .ok _ => if cfg.paymentVerification then .verifyingPayment paymentRef else .markingPaid paymentRef

def notVerified : DomainError :=
  .validation "No captured payment found for this reference on this order"
    [⟨"paymentRef", "could not be verified against Payments"⟩]

def markOrderPaid (paymentRef : String) (draw : ℕ) (order : Order) : Outcome Order Point :=
  saveAfter (Order.completePayment paymentRef (cfg.ids draw 0) (cfg.clock draw)) order

def refundOrder (draw : ℕ) (order : Order) : Outcome Order Point :=
  saveAfter (Order.refund (cfg.ids draw 0) (cfg.clock draw)) order

/-- `created → confirmed → awaiting_payment → payment_requested`, in one save. -/
def recordCheckoutPayment (paymentRef : String) (draw : ℕ) (order : Order) :
    Outcome Order Point :=
  match order.paymentRef with
  | some recorded =>
    if recorded = paymentRef then answerStatus order
    else refuse (.businessRule "Order is already linked to a different payment")
  | none =>
    match order.status with
    | .error e => .answer (.finished (.threw e.message))
    | .ok status =>
      if status ≠ .created then
        refuse (.businessRule ("Cannot record a payment for an order in status \"" ++
          status.name ++ "\""))
      else
        saveAfter (do
          Order.confirm (cfg.ids draw 0) (cfg.clock draw)
          Order.markAwaitingPayment (cfg.ids draw 1) (cfg.clock draw)
          Order.requestPayment paymentRef (cfg.ids draw 2) (cfg.clock draw)) order

/-- `precheck` of `RequestPaymentCapture`: the order is only read. -/
def requestCapture (order : Order) : Outcome Order Point :=
  match order.status, order.totalAmount with
  | .ok status, .ok total =>
    if order.paymentRef.isSome then .answer (.finished (.ok status))
    else if !canTransition status .paymentRequested then
      refuse (Order.cannotTransition status .paymentRequested)
    else .answer (.capturing total.amountMinor order.currency)
  | .error e, _ => .answer (.finished (.threw e.message))
  | _, .error e => .answer (.finished (.threw e.message))

def settleCapture (paymentRef : String) (draw : ℕ) (order : Order) : Outcome Order Point :=
  if order.paymentRef.isSome then answerStatus order
  else saveAfter (Order.requestPayment paymentRef (cfg.ids draw 0) (cfg.clock draw)) order

/-- `precheck` of `RequestFulfillment`. -/
def requestFulfillment (order : Order) : Outcome Order Point :=
  match order.status with
  | .error e => .answer (.finished (.threw e.message))
  | .ok status =>
    if order.fulfillmentRef.isSome then .answer (.finished (.ok status))
    else if !canTransition status .fulfillmentRequested then
      refuse (Order.cannotTransition status .fulfillmentRequested)
    else .answer .shipping

def settleFulfillment (fulfillmentRef : String) (draw : ℕ) (order : Order) : Outcome Order Point :=
  if order.fulfillmentRef.isSome then answerStatus order
  else saveAfter (Order.requestFulfillment fulfillmentRef (cfg.ids draw 0) (cfg.clock draw)) order

/-- The call of a use case. -/
inductive Request where
  | advanceOrder (toStatus : OrderEventType)
  | markOrderPaid (paymentRef : String)
  | refundOrder
  | recordCheckoutPayment (paymentRef : String)
  | requestPaymentCapture
  | requestFulfillment

def execute : Request → Point
  | .advanceOrder toStatus => .advancing toStatus
  | .markOrderPaid paymentRef => executeMarkPaid cfg paymentRef
  | .refundOrder => .refunding
  | .recordCheckoutPayment paymentRef => .recordingPayment paymentRef 1
  | .requestPaymentCapture => .requestingCapture
  | .requestFulfillment => .requestingFulfillment

/-- The calls of the ports, outside every transaction. -/
def callPort : Point → PortMove → Option Point
  | .verifyingPayment paymentRef, .verified true => some (.markingPaid paymentRef)
  | .verifyingPayment _, .verified false => some (.finished (.err notVerified))
  | .capturing _ _, .captured paymentRef => some (.settlingCapture paymentRef 1)
  | .shipping, .shipped reservationRef shipmentRef =>
    some (.settlingFulfillment (reservationRef ++ "|" ++ shipmentRef) 1)
  | .verifyingPayment _, .throws reason => some (.finished (.threw reason))
  | .capturing _ _, .throws reason => some (.finished (.threw reason))
  | .shipping, .throws reason => some (.finished (.threw reason))
  | _, _ => none

/-- The use cases as calls on one stored order. -/
def protocol : Protocol Order Point Unit PortMove where
  body
    | .advancing toStatus => some fun draw _ => advance cfg toStatus draw
    | .markingPaid paymentRef => some fun draw _ => markOrderPaid cfg paymentRef draw
    | .refunding => some fun draw _ => refundOrder cfg draw
    | .recordingPayment paymentRef _ => some fun draw _ => recordCheckoutPayment cfg paymentRef draw
    | .requestingCapture => some fun _ _ => requestCapture
    | .settlingCapture paymentRef _ => some fun draw _ => settleCapture cfg paymentRef draw
    | .requestingFulfillment => some fun _ _ => requestFulfillment
    | .settlingFulfillment fulfillmentRef _ =>
      some fun draw _ => settleFulfillment cfg fulfillmentRef draw
    | .verifyingPayment _ | .capturing _ _ | .shipping | .finished _ => none
  conflict
    | .recordingPayment paymentRef attempt =>
      withConcurrencyRetry attempt (.recordingPayment paymentRef)
    | .settlingCapture paymentRef attempt =>
      withConcurrencyRetry attempt (.settlingCapture paymentRef)
    | .settlingFulfillment fulfillmentRef attempt =>
      withConcurrencyRetry attempt (.settlingFulfillment fulfillmentRef)
    | _ => .finished concurrencyError
  act point move env := (callPort point move).map fun next => (next, env)

end UseCases

end Orders
