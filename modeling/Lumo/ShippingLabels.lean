import Lumo.Interleavings
import Lumo.SharedKernel

/-! # The shipment aggregate

A shipment records the label that its carrier issued, and moves through a lifecycle that a
transition table validates. -/
namespace Shipping

open SharedKernel

inductive ShipmentStatusValue where
  | created
  | labelCreated
  | voided
  | carrierAccepted
  | rejected
  | inTransit
  | outForDelivery
  | delivered
  | deliveryFailed
  | returned
  | exception
  | cancelled
  | closed
  deriving DecidableEq

namespace ShipmentStatusValue

def text : ShipmentStatusValue → String
  | created => "created"
  | labelCreated => "label_created"
  | voided => "voided"
  | carrierAccepted => "carrier_accepted"
  | rejected => "rejected"
  | inTransit => "in_transit"
  | outForDelivery => "out_for_delivery"
  | delivered => "delivered"
  | deliveryFailed => "delivery_failed"
  | returned => "returned"
  | exception => "exception"
  | cancelled => "cancelled"
  | closed => "closed"

def transitions : ShipmentStatusValue → List ShipmentStatusValue
  | created => [labelCreated, voided, cancelled]
  | labelCreated => [carrierAccepted, rejected, voided, cancelled]
  | voided => [created, closed]
  | carrierAccepted => [inTransit, cancelled]
  | rejected => [created, cancelled]
  | inTransit => [outForDelivery, exception]
  | outForDelivery => [delivered, deliveryFailed]
  | delivered => [returned, closed]
  | deliveryFailed => [inTransit, exception, closed]
  | returned => [closed]
  | exception => [created, closed]
  | cancelled => [closed]
  | closed => []

def retryTargetByStatus : ShipmentStatusValue → Option ShipmentStatusValue
  | rejected => some created
  | deliveryFailed => some inTransit
  | exception => some created
  | _ => none

def eventTypeByStatus : ShipmentStatusValue → String
  | created => "shipping.shipment.created"
  | labelCreated => "shipping.label.created"
  | voided => "shipping.label.voided"
  | carrierAccepted => "shipping.carrier.accepted"
  | rejected => "shipping.carrier.rejected"
  | inTransit => "shipping.shipment.in_transit"
  | outForDelivery => "shipping.shipment.out_for_delivery"
  | delivered => "shipping.shipment.delivered"
  | deliveryFailed => "shipping.shipment.delivery_failed"
  | returned => "shipping.shipment.returned"
  | exception => "shipping.shipment.exception"
  | cancelled => "shipping.shipment.cancelled"
  | closed => "shipping.shipment.closed"

end ShipmentStatusValue

open ShipmentStatusValue

def canTransitionShipment (source target : ShipmentStatusValue) : Bool :=
  source.transitions.contains target

structure ShippingLabel where
  labelId : NonBlank
  trackingNumber : NonBlank

def ShippingLabel.create (labelId trackingNumber : String) :
    Except DomainError ShippingLabel := do
  let labelId ← Guard.againstEmpty labelId "labelId"
  let trackingNumber ← Guard.againstEmpty trackingNumber "trackingNumber"
  return ⟨labelId, trackingNumber⟩

abbrev Carrier := NonBlank

def Carrier.create (value : String) : Except DomainError Carrier :=
  Guard.againstEmpty value "carrier"

abbrev CarrierService := NonBlank

def CarrierService.create (value : String) : Except DomainError CarrierService :=
  Guard.againstEmpty value "carrierService"

abbrev TrackingNumber := NonBlank

def TrackingNumber.create (value : String) : Except DomainError TrackingNumber :=
  Guard.againstEmpty value "trackingNumber"

inductive ShippingAttemptKind where
  | label
  | carrier
  | retry
  | carrierWebhook

inductive ShippingAttemptOutcome where
  | succeeded
  | failed

structure ShippingAttempt where
  id : String
  kind : ShippingAttemptKind
  outcome : ShippingAttemptOutcome
  occurredAt : ℤ
  reference : Option String

/-- The identity and the time that a method is given for the event it raises. -/
structure Occurrence where
  eventId : String
  occurredAt : ℤ

structure ShipmentTransitioned where
  occurrence : Occurrence
  shipmentRef : String
  type : String
  fromStatus : ShipmentStatusValue
  toStatus : ShipmentStatusValue

structure Shipment where
  id : UniqueEntityId
  version : ℕ
  fulfillmentRef : String
  status : ShipmentStatusValue
  attempts : List ShippingAttempt
  carrier : Option Carrier
  carrierService : Option CarrierService
  label : Option ShippingLabel
  trackingNumber : Option TrackingNumber
  domainEvents : List ShipmentTransitioned

namespace Shipment

/-- A new shipment, as it is once stored. -/
def create (id : UniqueEntityId) (fulfillmentRef : String) : Shipment :=
  { id
    version := 1
    fulfillmentRef
    status := .created
    attempts := []
    carrier := none
    carrierService := none
    label := none
    trackingNumber := none
    domainEvents := [] }

def transition (shipment : Shipment) (toStatus : ShipmentStatusValue) (occurrence : Occurrence) :
    Except DomainError Shipment :=
  if !canTransitionShipment shipment.status toStatus then
    .error (.businessRule ("Cannot transition shipment from \"" ++ shipment.status.text ++
      "\" to \"" ++ toStatus.text ++ "\""))
  else
    .ok { shipment with
      status := toStatus
      domainEvents := shipment.domainEvents ++ [⟨occurrence, shipment.id.value,
        toStatus.eventTypeByStatus, shipment.status, toStatus⟩] }

def recordAttempt (shipment : Shipment) (kind : ShippingAttemptKind)
    (outcome : ShippingAttemptOutcome) (occurredAt : ℤ) (reference : Option String) : Shipment :=
  { shipment with
    attempts := shipment.attempts ++
      [⟨shipment.id.value ++ toString shipment.attempts.length, kind, outcome, occurredAt,
        reference⟩] }

def createLabel (shipment : Shipment) (label : ShippingLabel) (carrier : Carrier)
    (carrierService : CarrierService) (trackingNumber : TrackingNumber)
    (occurrence : Occurrence) : Except DomainError Shipment := do
  let shipment := { shipment with
    label := some label
    carrier := some carrier
    carrierService := some carrierService
    trackingNumber := some trackingNumber }
  let shipment ← shipment.transition .labelCreated occurrence
  return shipment.recordAttempt .label .succeeded occurrence.occurredAt none

def voidLabel (shipment : Shipment) (occurrence : Occurrence) : Except DomainError Shipment := do
  let shipment ← shipment.transition .voided occurrence
  return shipment.recordAttempt .label .succeeded occurrence.occurredAt (some "voided")

def retry (shipment : Shipment) (occurrence : Occurrence) : Except DomainError Shipment :=
  match shipment.status.retryTargetByStatus with
  | none =>
    .error (.businessRule ("Cannot retry a shipment that is " ++ shipment.status.text))
  | some target => do
    let shipment ← shipment.transition target occurrence
    return shipment.recordAttempt .retry .succeeded occurrence.occurredAt none

section Methods

variable {shipment shipment' : Shipment} {toStatus : ShipmentStatusValue}
  {occurrence : Occurrence}

structure Moved (shipment shipment' : Shipment) : Prop where
  id : shipment'.id = shipment.id
  version : shipment'.version = shipment.version
  allowed : canTransitionShipment shipment.status shipment'.status = true

theorem transition_ok (h : shipment.transition toStatus occurrence = .ok shipment') :
    Moved shipment shipment' ∧ shipment'.status = toStatus ∧
      shipment'.label = shipment.label := by
  rw [transition] at h
  split at h
  · cases h
  · rename_i hallowed
    cases h
    exact ⟨⟨rfl, rfl, by simpa using hallowed⟩, rfl, rfl⟩

theorem createLabel_ok {label : ShippingLabel} {carrier : Carrier}
    {carrierService : CarrierService} {trackingNumber : TrackingNumber}
    (h : shipment.createLabel label carrier carrierService trackingNumber occurrence =
      .ok shipment') :
    Moved shipment shipment' ∧ shipment'.status = .labelCreated ∧
      shipment'.label = some label := by
  obtain ⟨moved, hmoved, hattempt⟩ := bind_eq_ok.mp h
  cases hattempt
  obtain ⟨hm, hstatus, hlabel⟩ := transition_ok hmoved
  exact ⟨⟨hm.id, hm.version, hm.allowed⟩, hstatus, hlabel⟩

theorem voidLabel_ok (h : shipment.voidLabel occurrence = .ok shipment') :
    Moved shipment shipment' ∧ shipment'.status = .voided ∧
      shipment'.label = shipment.label := by
  obtain ⟨moved, hmoved, hattempt⟩ := bind_eq_ok.mp h
  cases hattempt
  obtain ⟨hm, hstatus, hlabel⟩ := transition_ok hmoved
  exact ⟨⟨hm.id, hm.version, hm.allowed⟩, hstatus, hlabel⟩

theorem retry_ok (h : shipment.retry occurrence = .ok shipment') :
    Moved shipment shipment' ∧ shipment.status.retryTargetByStatus = some shipment'.status ∧
      shipment'.label = shipment.label := by
  rw [retry] at h
  split at h
  · cases h
  · rename_i target htarget
    obtain ⟨moved, hmoved, hattempt⟩ := bind_eq_ok.mp h
    cases hattempt
    obtain ⟨hm, hstatus, hlabel⟩ := transition_ok hmoved
    refine ⟨⟨hm.id, hm.version, hm.allowed⟩, ?_, hlabel⟩
    rw [htarget]
    exact congrArg some hstatus.symm

end Methods

end Shipment

end Shipping

/-! ## Labels and the carrier that issues them

The use cases on one shipment. Each call of the carrier stands between two transactions, under a
key that is fixed for the shipment; a transaction saves under the version that it read. -/
namespace Shipping

open SharedKernel Interleavings

structure ProviderLabel where
  carrier : String
  carrierService : String
  labelId : String
  trackingNumber : String

/-- What the carrier has done for the shipment: the labels issued and the ones voided, each under
the key that asked for it. -/
structure CarrierBooks where
  issued : List (String × ProviderLabel)
  voided : List (String × String)

namespace CarrierBooks

def createLabel (books : CarrierBooks) (idempotencyKey : String) (label : ProviderLabel) :
    ProviderLabel × CarrierBooks :=
  match books.issued.find? fun entry => entry.1 == idempotencyKey with
  | some entry => (entry.2, books)
  | none => (label, { books with issued := books.issued ++ [(idempotencyKey, label)] })

def voidLabel (books : CarrierBooks) (idempotencyKey labelId : String) : CarrierBooks :=
  if books.voided.any fun entry => entry.1 == idempotencyKey then books
  else { books with voided := books.voided ++ [(idempotencyKey, labelId)] }

def Issued (books : CarrierBooks) (labelId : String) : Prop :=
  ∃ entry ∈ books.issued, entry.2.labelId = labelId

def Voided (books : CarrierBooks) (labelId : String) : Prop :=
  ∃ entry ∈ books.voided, entry.2 = labelId

def Live (books : CarrierBooks) (labelId : String) : Prop :=
  books.Issued labelId ∧ ¬ books.Voided labelId

end CarrierBooks

def labelKey (shipmentId : UniqueEntityId) : String := shipmentId.value ++ ":label"

def voidKey (shipmentId : UniqueEntityId) : String := shipmentId.value ++ ":void"

/-- The stored shipment, the outbox written with it, and the books of the carrier. -/
structure Shared where
  shipment : Shipment
  outbox : List ShipmentTransitioned
  books : CarrierBooks

/-- The stored shipment is replaced if it has not moved on. -/
def save (s : Shared) (shipment : Shipment) : Option Shared :=
  if shipment.version = s.shipment.version then
    some { s with
      shipment := { shipment with version := shipment.version + 1, domainEvents := [] }
      outbox := s.outbox ++ shipment.domainEvents }
  else none

inductive Request where
  | advance (toStatus : ShipmentStatusValue)
  | createLabel
  | voidLabel
  | retry

structure ShipmentStatusOutput where
  shipmentId : String
  status : ShipmentStatusValue

def outputOf (shipment : Shipment) : ShipmentStatusOutput :=
  ⟨shipment.id.value, shipment.status⟩

structure LabelRecord where
  label : ShippingLabel
  carrier : Carrier
  carrierService : CarrierService
  trackingNumber : TrackingNumber

inductive Saver where
  | once
  | label (record : LabelRecord) (attempt : ℕ)
  | void (attempt : ℕ)

inductive Thrown where
  | concurrency
  | carrier (message : String)

/-- Where a call stands: before a transaction, before a call of the carrier, or between the
reading and the saving of a transaction. -/
inductive Point where
  | requested (request : Request)
  | requesting (fulfillmentRef : String)
  | settlingLabel (record : LabelRecord) (attempt : ℕ)
  | voiding (labelId : String)
  | settlingVoid (attempt : ℕ)
  | saving (saver : Saver) (read new : Shipment)
  | answered (result : Except DomainError ShipmentStatusOutput)
  | thrown (error : Thrown)

inductive Choice where
  | proceeds (occurrence : Occurrence)
  | issues (label : ProviderLabel)
  | fails (message : String)

/-- A change that is refused is answered, one that is not is saved. -/
def Saver.attempts (saver : Saver) (read : Shipment) : Except DomainError Shipment → Point
  | .error e => .answered (.error e)
  | .ok new => .saving saver read new

def AdvanceShipment.execute (toStatus : ShipmentStatusValue) (shipment : Shipment)
    (occurrence : Occurrence) : Point :=
  Saver.once.attempts shipment (shipment.transition toStatus occurrence)

def RetryShipment.execute (shipment : Shipment) (occurrence : Occurrence) : Point :=
  Saver.once.attempts shipment (shipment.retry occurrence)

def cannotTransition (source target : ShipmentStatusValue) : DomainError :=
  .businessRule ("Cannot transition shipment from \"" ++ source.text ++ "\" to \"" ++
    target.text ++ "\"")

def maxConcurrencyRetries : ℕ := 5

namespace CreateLabel

def precheck (shipment : Shipment) : Point :=
  if shipment.status = .labelCreated then .answered (.ok (outputOf shipment))
  else if !canTransitionShipment shipment.status .labelCreated then
    .answered (.error (cannotTransition shipment.status .labelCreated))
  else .requesting shipment.fulfillmentRef

def recordOf (label : ProviderLabel) : Except DomainError LabelRecord := do
  let carrier ← Carrier.create label.carrier
  let carrierService ← CarrierService.create label.carrierService
  let shippingLabel ← ShippingLabel.create label.labelId label.trackingNumber
  let trackingNumber ← TrackingNumber.create label.trackingNumber
  return ⟨shippingLabel, carrier, carrierService, trackingNumber⟩

def accept (label : ProviderLabel) : Point :=
  match recordOf label with
  | .error e => .answered (.error e)
  | .ok record => .settlingLabel record 1

def settle (record : LabelRecord) (attempt : ℕ) (shipment : Shipment) (occurrence : Occurrence) :
    Point :=
  if shipment.status = .labelCreated then .answered (.ok (outputOf shipment))
  else (Saver.label record attempt).attempts shipment
    (shipment.createLabel record.label record.carrier record.carrierService record.trackingNumber
      occurrence)

end CreateLabel

namespace VoidLabel

def precheck (shipment : Shipment) : Point :=
  match shipment.label with
  | none => .answered (.error (.validation "Cannot void a label before one is created" []))
  | some label =>
    if shipment.status = .voided then .answered (.ok (outputOf shipment))
    else if !canTransitionShipment shipment.status .voided then
      .answered (.error (cannotTransition shipment.status .voided))
    else .voiding label.labelId.1

def settle (attempt : ℕ) (shipment : Shipment) (occurrence : Occurrence) : Point :=
  if shipment.status = .voided then .answered (.ok (outputOf shipment))
  else (Saver.void attempt).attempts shipment (shipment.voidLabel occurrence)

end VoidLabel

def Saver.conflict : Saver → Point
  | once => .thrown .concurrency
  | label record attempt =>
    if attempt = maxConcurrencyRetries then .thrown .concurrency
    else .settlingLabel record (attempt + 1)
  | void attempt =>
    if attempt = maxConcurrencyRetries then .thrown .concurrency
    else .settlingVoid (attempt + 1)

def settled (saver : Saver) (new : Shipment) (s : Shared) : Point × Shared :=
  match save s new with
  | none => (saver.conflict, s)
  | some s' => (.answered (.ok (outputOf new)), s')

def program : Program Shared Point Choice := fun point choice s =>
  match point, choice with
  | .requested (.advance toStatus), .proceeds occurrence =>
    some (AdvanceShipment.execute toStatus s.shipment occurrence, s)
  | .requested .retry, .proceeds occurrence =>
    some (RetryShipment.execute s.shipment occurrence, s)
  | .requested .createLabel, .proceeds _ => some (CreateLabel.precheck s.shipment, s)
  | .requested .voidLabel, .proceeds _ => some (VoidLabel.precheck s.shipment, s)
  | .requesting _, .issues label =>
    let (answer, books) := s.books.createLabel (labelKey s.shipment.id) label
    some (CreateLabel.accept answer, { s with books := books })
  | .requesting _, .fails message => some (.thrown (.carrier message), s)
  | .settlingLabel record attempt, .proceeds occurrence =>
    some (CreateLabel.settle record attempt s.shipment occurrence, s)
  | .voiding labelId, .proceeds _ =>
    some (.settlingVoid 1, { s with books := s.books.voidLabel (voidKey s.shipment.id) labelId })
  | .voiding _, .fails message => some (.thrown (.carrier message), s)
  | .settlingVoid attempt, .proceeds occurrence =>
    some (VoidLabel.settle attempt s.shipment occurrence, s)
  | .saving saver _ new, .proceeds _ => some (settled saver new s)
  | _, _ => none

/-- The shipment has just been created, and every call is still to be made. -/
def initial {ι : Type} (id : UniqueEntityId) (fulfillmentRef : String) (requests : ι → Request) :
    State Shared Point ι :=
  ⟨⟨Shipment.create id fulfillmentRef, [], ⟨[], []⟩⟩, fun c => .live (.requested (requests c))⟩

end Shipping
