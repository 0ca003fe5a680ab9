import Lumo.OptimisticTransactions
import Lumo.SharedKernel

/-! # The fulfillment order and the transactions on it

The aggregate, and what each transaction of `RequestReservation`, `CreateShipment`,
`AdvanceFulfillment` and `RecordCarrierWebhook` does with the order it reads. Packages and
notifications, which no transaction reads, are not modelled. -/
namespace Fulfillment

open SharedKernel OptimisticTransactions

inductive FulfillmentStatus where
  | created
  | reservationRequested
  | confirmed
  | failed
  | pickingStarted
  | pickingCompleted
  | packingStarted
  | packingCompleted
  | shipmentCreated
  | trackingAssigned
  | shipmentDispatched
  | inTransit
  | outForDelivery
  | delivered
  | deliveryFailed
  | returned
  | cancelled
  | closed
  deriving DecidableEq

namespace FulfillmentStatus

def text : FulfillmentStatus → String
  | created => "created"
  | reservationRequested => "reservation_requested"
  | confirmed => "confirmed"
  | failed => "failed"
  | pickingStarted => "picking_started"
  | pickingCompleted => "picking_completed"
  | packingStarted => "packing_started"
  | packingCompleted => "packing_completed"
  | shipmentCreated => "shipment_created"
  | trackingAssigned => "tracking_assigned"
  | shipmentDispatched => "shipment_dispatched"
  | inTransit => "in_transit"
  | outForDelivery => "out_for_delivery"
  | delivered => "delivered"
  | deliveryFailed => "delivery_failed"
  | returned => "returned"
  | cancelled => "cancelled"
  | closed => "closed"

def transitions : FulfillmentStatus → List FulfillmentStatus
  | created => [reservationRequested, cancelled]
  | reservationRequested => [confirmed, failed]
  | confirmed => [pickingStarted, cancelled]
  | failed => [reservationRequested, cancelled]
  | pickingStarted => [pickingCompleted]
  | pickingCompleted => [packingStarted]
  | packingStarted => [packingCompleted]
  | packingCompleted => [shipmentCreated]
  | shipmentCreated => [trackingAssigned]
  | trackingAssigned => [shipmentDispatched]
  | shipmentDispatched => [inTransit]
  | inTransit => [outForDelivery, deliveryFailed]
  | outForDelivery => [delivered, deliveryFailed]
  | delivered => [returned, closed]
  | deliveryFailed => [inTransit, returned, closed]
  | returned => [closed]
  | cancelled => [closed]
  | closed => []

end FulfillmentStatus

open FulfillmentStatus

def canTransitionFulfillment (source target : FulfillmentStatus) : Bool :=
  source.transitions.contains target

structure FulfillmentItem where
  productRef : NonBlank
  quantity : ℕ
  positive : 0 < quantity

structure CarrierReference where
  carrier : NonBlank
  carrierShipmentId : NonBlank

def CarrierReference.create (carrier carrierShipmentId : String) :
    Except DomainError CarrierReference := do
  let carrier ← Guard.againstEmpty carrier "carrier"
  let carrierShipmentId ← Guard.againstEmpty carrierShipmentId "carrierShipmentId"
  return ⟨carrier, carrierShipmentId⟩

abbrev TrackingNumber := NonBlank

def TrackingNumber.create (value : String) : Except DomainError TrackingNumber :=
  Guard.againstEmpty value "trackingNumber"

inductive FulfillmentAttemptKind where
  | transition
  | reservation
  | shipment
  | carrierWebhook
  deriving DecidableEq

inductive FulfillmentAttemptOutcome where
  | succeeded
  | failed
  deriving DecidableEq

structure FulfillmentAttempt where
  id : String
  kind : FulfillmentAttemptKind
  outcome : FulfillmentAttemptOutcome
  occurredAt : ℤ
  reference : Option String

/-- `FulfillmentTransitioned`, less its ids and its time. -/
structure FulfillmentTransitioned where
  fromStatus : FulfillmentStatus
  toStatus : FulfillmentStatus

/-- `events` are the ones it has raised since it was created: a save writes the new ones to the
outbox, in its own transaction. -/
structure FulfillmentOrder where
  id : UniqueEntityId
  orderRef : String
  items : List FulfillmentItem
  status : FulfillmentStatus
  attempts : List FulfillmentAttempt
  carrierReference : Option CarrierReference
  trackingNumber : Option TrackingNumber
  deliveredAt : Option ℤ
  events : List FulfillmentTransitioned

namespace FulfillmentOrder

def create (id : UniqueEntityId) (orderRef : String) (items : List FulfillmentItem) :
    FulfillmentOrder where
  id := id
  orderRef := orderRef
  items := items
  status := .created
  attempts := []
  carrierReference := none
  trackingNumber := none
  deliveredAt := none
  events := []

/-- The statuses that the order has been in, in order. -/
def path (order : FulfillmentOrder) : List FulfillmentStatus :=
  .created :: order.events.map (·.toStatus)

def cannotTransition (source : FulfillmentStatus) (target : String) : DomainError :=
  .businessRule ("Cannot transition fulfillment from \"" ++ source.text ++ "\" to \"" ++ target ++
    "\"")

/-- The order after a transition, with the event it raised. -/
def moved (toStatus : FulfillmentStatus) (order : FulfillmentOrder) : FulfillmentOrder :=
  { order with status := toStatus, events := order.events ++ [⟨order.status, toStatus⟩] }

def transition (toStatus : FulfillmentStatus) (order : FulfillmentOrder) :
    Except DomainError FulfillmentOrder :=
  if canTransitionFulfillment order.status toStatus then .ok (order.moved toStatus)
  else .error (cannotTransition order.status toStatus.text)

def recordAttempt (kind : FulfillmentAttemptKind) (outcome : FulfillmentAttemptOutcome)
    (occurredAt : ℤ) (reference : Option String) (order : FulfillmentOrder) :
    FulfillmentOrder :=
  { order with
    attempts := order.attempts ++
      [⟨order.id.value ++ toString order.attempts.length, kind, outcome, occurredAt,
        reference⟩] }

def requestReservation (occurredAt : ℤ) (order : FulfillmentOrder) :
    Except DomainError FulfillmentOrder := do
  let order ← order.transition .reservationRequested
  return order.recordAttempt .reservation .succeeded occurredAt none

def confirmReservation (order : FulfillmentOrder) : Except DomainError FulfillmentOrder :=
  order.transition .confirmed

def failReservation (reason : String) (occurredAt : ℤ) (order : FulfillmentOrder) :
    Except DomainError FulfillmentOrder := do
  let order ← order.transition .failed
  return order.recordAttempt .reservation .failed occurredAt (some reason)

def createShipment (carrierReference : CarrierReference) (occurredAt : ℤ)
    (order : FulfillmentOrder) : Except DomainError FulfillmentOrder := do
  let order ← { order with carrierReference := some carrierReference }.transition
    .shipmentCreated
  return order.recordAttempt .shipment .succeeded occurredAt none

def assignTracking (trackingNumber : TrackingNumber) (order : FulfillmentOrder) :
    Except DomainError FulfillmentOrder :=
  { order with trackingNumber := some trackingNumber }.transition .trackingAssigned

def markDelivered (occurredAt : ℤ) (order : FulfillmentOrder) :
    Except DomainError FulfillmentOrder := do
  let order ← order.transition .delivered
  return { order with deliveredAt := some occurredAt }

def recordCarrierWebhook (kind : String) (occurredAt : ℤ) (order : FulfillmentOrder) :
    FulfillmentOrder :=
  order.recordAttempt .carrierWebhook .succeeded occurredAt (some kind)

variable {order new : FulfillmentOrder} {toStatus : FulfillmentStatus} {now : ℤ}

theorem transition_legal (h : toStatus ∈ order.status.transitions) :
    order.transition toStatus = .ok (order.moved toStatus) := by
  have hto : canTransitionFulfillment order.status toStatus = true :=
    List.contains_iff_mem.mpr h
  rw [transition, if_pos hto]

theorem transition_illegal (h : toStatus ∉ order.status.transitions) : order.transition toStatus =
      .error (cannotTransition order.status toStatus.text) := by
  have hto : ¬ canTransitionFulfillment order.status toStatus = true :=
    fun hto => h (List.contains_iff_mem.mp hto)
  rw [transition, if_neg hto]

theorem transition_ok (h : order.transition toStatus = .ok new) :
    toStatus ∈ order.status.transitions ∧ new = order.moved toStatus := by
  by_cases hto : toStatus ∈ order.status.transitions
  · rw [transition_legal hto] at h
    cases h
    exact ⟨hto, rfl⟩
  · rw [transition_illegal hto] at h
    cases h

theorem requestReservation_ok (h : order.requestReservation now = .ok new) :
    .reservationRequested ∈ order.status.transitions ∧
      new = (order.moved .reservationRequested).recordAttempt .reservation .succeeded now none := by
  obtain ⟨moved, hmoved, hnew⟩ := bind_eq_ok.mp h
  obtain ⟨hto, rfl⟩ := transition_ok hmoved
  cases hnew
  exact ⟨hto, rfl⟩

theorem failReservation_ok {reason : String} (h : order.failReservation reason now = .ok new) :
    .failed ∈ order.status.transitions ∧
      new = (order.moved .failed).recordAttempt .reservation .failed now (some reason) := by
  obtain ⟨moved, hmoved, hnew⟩ := bind_eq_ok.mp h
  obtain ⟨hto, rfl⟩ := transition_ok hmoved
  cases hnew
  exact ⟨hto, rfl⟩

theorem createShipment_ok {reference : CarrierReference}
    (h : order.createShipment reference now = .ok new) :
    .shipmentCreated ∈ order.status.transitions ∧
      new = ({ order with carrierReference := some reference }.moved
        .shipmentCreated).recordAttempt .shipment .succeeded now none := by
  obtain ⟨moved, hmoved, hnew⟩ := bind_eq_ok.mp h
  obtain ⟨hto, rfl⟩ := transition_ok hmoved
  cases hnew
  exact ⟨hto, rfl⟩

theorem assignTracking_ok {trackingNumber : TrackingNumber}
    (h : order.assignTracking trackingNumber = .ok new) :
    .trackingAssigned ∈ order.status.transitions ∧
      new = { order with trackingNumber := some trackingNumber }.moved .trackingAssigned :=
  transition_ok h

@[simp] theorem path_moved (order : FulfillmentOrder) (toStatus : FulfillmentStatus) :
    (order.moved toStatus).path = order.path ++ [toStatus] := by
  simp [path, moved]

@[simp] theorem status_moved (order : FulfillmentOrder) (toStatus : FulfillmentStatus) :
    (order.moved toStatus).status = toStatus := rfl

theorem mem_path_of_moved {status toStatus : FulfillmentStatus} (hne : status ≠ toStatus)
    (h : status ∈ (order.moved toStatus).path) : status ∈ order.path := by
  rw [path_moved] at h
  exact (List.mem_append.mp h).resolve_right fun hlast => hne (List.mem_singleton.mp hlast)

end FulfillmentOrder

structure ReservationResult where
  confirmed : Bool
  reason : Option String
  deriving DecidableEq

structure ProviderShipment where
  carrier : String
  carrierShipmentId : String
  trackingNumber : Option String
  deriving DecidableEq

inductive Thrown where
  | concurrency
  | port
  deriving DecidableEq

inductive Answer where
  | ok (status : FulfillmentStatus)
  | err (e : DomainError)
  | threw (t : Thrown)
  deriving DecidableEq

/-- Where a call stands: before a transaction, with the attempt it is at, or before it asks
Inventory or the carrier. -/
inductive Point where
  | reserving (attempt : ℕ)
  | askingInventory
  | settlingReservation (result : ReservationResult) (attempt : ℕ)
  | prechecking
  | askingCarrier
  | settlingShipment (shipment : ProviderShipment) (attempt : ℕ)
  | advancing (toStatus : FulfillmentStatus)
  | finished (answer : Answer)
  deriving DecidableEq

def saveOr (result : Except DomainError FulfillmentOrder) (next : FulfillmentOrder → Point) :
    Outcome FulfillmentOrder Point :=
  match result with
  | .error e => .answer (.finished (.err e))
  | .ok order => .save order (next order)

variable {new : FulfillmentOrder}

variable {result : Except DomainError FulfillmentOrder} {k : Point}
  {next : FulfillmentOrder → Point} {now : ℤ} {order : FulfillmentOrder} {kind : String}

theorem saveOr_save (h : saveOr result next = .save new k) : result = .ok new ∧ k = next new := by
  cases result with
  | error e => cases h
  | ok order =>
    cases h
    exact ⟨rfl, rfl⟩

theorem saveOr_answer (h : saveOr result next = .answer k) :
    ∃ e, result = .error e ∧ k = .finished (.err e) := by
  cases result with
  | error e =>
    cases h
    exact ⟨e, rfl, rfl⟩
  | ok order => cases h

def answerStatus (order : FulfillmentOrder) : Point := .finished (.ok order.status)

/-- `RequestReservation.reserve`. -/
def reserve (attempt : ℕ) (now : ℤ) (order : FulfillmentOrder) :
    Outcome FulfillmentOrder Point :=
  if order.status = .reservationRequested then
    .answer (if attempt = 1 then .askingInventory else answerStatus order)
  else if order.status = .confirmed then .answer (answerStatus order)
  else saveOr (order.requestReservation now) fun _ => .askingInventory

/-- `RequestReservation.settle`. -/
def settleReservation (result : ReservationResult) (now : ℤ) (order : FulfillmentOrder) :
    Outcome FulfillmentOrder Point :=
  if order.status ≠ .reservationRequested then .answer (answerStatus order)
  else saveOr (if result.confirmed then order.confirmReservation
    else order.failReservation (result.reason.getD "reservation_failed") now) answerStatus

/-- `CreateShipment.precheck`. -/
def precheck (order : FulfillmentOrder) : Outcome FulfillmentOrder Point :=
  if order.status = .shipmentCreated then .answer (answerStatus order)
  else if order.status ≠ .packingCompleted then
    .answer (.finished (.err (FulfillmentOrder.cannotTransition order.status "shipment_created")))
  else .answer .askingCarrier

def applyShipment (shipment : ProviderShipment) (now : ℤ) (order : FulfillmentOrder) :
    Except DomainError FulfillmentOrder := do
  let carrierReference ← CarrierReference.create shipment.carrier shipment.carrierShipmentId
  let order ← order.createShipment carrierReference now
  match shipment.trackingNumber with
  | none => return order
  | some trackingNumber => order.assignTracking (← TrackingNumber.create trackingNumber)

/-- `CreateShipment.settle`. -/
def settleShipment (shipment : ProviderShipment) (now : ℤ) (order : FulfillmentOrder) :
    Outcome FulfillmentOrder Point :=
  saveOr (applyShipment shipment now order) answerStatus

/-- `AdvanceFulfillment.execute`. -/
def advance (toStatus : FulfillmentStatus) (order : FulfillmentOrder) :
    Outcome FulfillmentOrder Point :=
  saveOr (order.transition toStatus) answerStatus

theorem precheck_answers (order : FulfillmentOrder) : ∃ k, precheck order = .answer k := by
  rw [precheck]
  split_ifs
  · exact ⟨_, rfl⟩
  · exact ⟨_, rfl⟩
  · exact ⟨_, rfl⟩

theorem applyShipment_ok {shipment : ProviderShipment}
    (h : applyShipment shipment now order = .ok new) : ∃ reference created,
      CarrierReference.create shipment.carrier shipment.carrierShipmentId = .ok reference ∧
      order.createShipment reference now = .ok created ∧
      (shipment.trackingNumber = none ∧ new = created ∨
        ∃ trackingNumber, created.assignTracking trackingNumber = .ok new) := by
  obtain ⟨reference, hreference, h⟩ := bind_eq_ok.mp h
  obtain ⟨created, hcreated, h⟩ := bind_eq_ok.mp h
  refine ⟨reference, created, hreference, hcreated, ?_⟩
  split at h
  · rename_i hnone
    cases h
    exact Or.inl ⟨hnone, rfl⟩
  · obtain ⟨trackingNumber, -, h⟩ := bind_eq_ok.mp h
    exact Or.inr ⟨trackingNumber, h⟩

/-! `RecordCarrierWebhook`. -/

/-- What `KIND_TO_STATUS` has under a kind: a status, nothing, or what every object inherits,
which is no status and is printed as it stands here. -/
inductive KindEntry (σ : Type) where
  | status (value : σ)
  | inherited (text : String)
  | missing
  deriving DecidableEq

def inheritedMethods : List String :=
  ["toString", "toLocaleString", "valueOf", "hasOwnProperty", "isPrototypeOf",
    "propertyIsEnumerable", "__defineGetter__", "__defineSetter__", "__lookupGetter__",
    "__lookupSetter__"]

def inheritedText (kind : String) : Option String :=
  if kind = "__proto__" then some "[object Object]"
  else if kind = "constructor" then some "function Object() { [native code] }"
  else if inheritedMethods.contains kind then some ("function " ++ kind ++ "() { [native code] }")
  else none

def kindToStatus (kind : String) : KindEntry FulfillmentStatus :=
  if kind = "dispatched" then .status .shipmentDispatched
  else if kind = "in_transit" then .status .inTransit
  else if kind = "out_for_delivery" then .status .outForDelivery
  else if kind = "delivered" then .status .delivered
  else if kind = "delivery_failed" then .status .deliveryFailed
  else if kind = "returned" then .status .returned
  else match inheritedText kind with
    | some text => .inherited text
    | none => .missing

structure WebhookInput where
  carrier : String
  eventId : String
  kind : String

/-- The checks before the transaction. -/
def WebhookInput.check (input : WebhookInput) : Except DomainError Unit := do
  let _ ← Guard.againstEmpty input.carrier "carrier"
  let _ ← Guard.againstEmpty input.eventId "eventId"

def applyWebhook (kind : String) (now : ℤ) (order : FulfillmentOrder) :
    Except DomainError FulfillmentOrder :=
  let recorded := order.recordCarrierWebhook kind now
  match kindToStatus kind with
  | .missing => .ok recorded
  | .status toStatus => recorded.transition toStatus
  | .inherited text => .error (FulfillmentOrder.cannotTransition recorded.status text)

theorem kindToStatus_status {toStatus : FulfillmentStatus}
    (h : kindToStatus kind = .status toStatus) :
    (toStatus = .delivered ∧ kind = "delivered") ∨ toStatus ∈ [shipmentDispatched, inTransit,
      outForDelivery, deliveryFailed, returned] := by
  unfold kindToStatus at h
  split_ifs at h with h₁ h₂ h₃ h₄ h₅ h₆
  · cases h
    simp
  · cases h
    simp
  · cases h
    simp
  · cases h
    exact Or.inl ⟨rfl, h₄⟩
  · cases h
    simp
  · cases h
    simp
  · split at h <;> cases h

theorem applyWebhook_ok (h : applyWebhook kind now order = .ok new) :
    new = order.recordCarrierWebhook kind now ∨ ∃ toStatus,
      kindToStatus kind = .status toStatus ∧ toStatus ∈ order.status.transitions ∧
        new = (order.recordCarrierWebhook kind now).moved toStatus := by
  rw [applyWebhook] at h
  split at h
  · cases h
    exact Or.inl rfl
  · rename_i toStatus hkind
    obtain ⟨hto, rfl⟩ := FulfillmentOrder.transition_ok h
    exact Or.inr ⟨toStatus, hkind, hto, rfl⟩
  · cases h

end Fulfillment
