import Lumo.FulfillmentOrder
import Lumo.MarkedDeliveries
import Lumo.ShippingLabels

/-! # `RecordCarrierWebhook` of Fulfillment and of Shipping

The two use cases differ in the aggregate and in the map of the kinds. `ProcessedCarrierWebhookStore`
is a set in memory, under the carrier and the event of one tenant, and takes no transaction. -/
namespace Shipping

open SharedKernel Fulfillment

def kindToStatus (kind : String) : KindEntry ShipmentStatusValue :=
  if kind = "accepted" then .status .carrierAccepted
  else if kind = "rejected" then .status .rejected
  else if kind = "in_transit" then .status .inTransit
  else if kind = "out_for_delivery" then .status .outForDelivery
  else if kind = "delivered" then .status .delivered
  else if kind = "delivery_failed" then .status .deliveryFailed
  else if kind = "returned" then .status .returned
  else if kind = "exception" then .status .exception
  else match inheritedText kind with
    | some text => .inherited text
    | none => .missing

namespace Shipment

def recordCarrierWebhook (shipment : Shipment) (kind : String) (occurredAt : ℤ) : Shipment :=
  shipment.recordAttempt .carrierWebhook .succeeded occurredAt (some kind)

def applyWebhook (shipment : Shipment) (kind : String) (now : ℤ) (occurrence : Occurrence) :
    Except DomainError Shipment :=
  let recorded := shipment.recordCarrierWebhook kind now
  match Shipping.kindToStatus kind with
  | .missing => .ok recorded
  | .status toStatus => recorded.transition toStatus occurrence
  | .inherited text =>
    .error (.businessRule ("Cannot transition shipment from \"" ++ recorded.status.text ++
      "\" to \"" ++ text ++ "\""))

end Shipment

end Shipping

namespace CarrierWebhooks

open SharedKernel Fulfillment MarkedDeliveries LabelledRuns

/-- One delivery of a carrier event. `now` is the time of the attempt; `occurrence` is what the
transition is given. -/
structure Delivery where
  input : WebhookInput
  now : ℤ
  occurrence : Shipping.Occurrence

/-- The tenant and the aggregate's id are the same throughout. -/
def Delivery.key (d : Delivery) : String × String := (d.input.carrier, d.input.eventId)

inductive Service where
  | fulfillment
  | shipping

abbrev Service.Aggregate : Service → Type
  | fulfillment => FulfillmentOrder
  | shipping => Shipping.Shipment

def Service.applyWebhook : (service : Service) → Delivery → service.Aggregate →
    Except DomainError service.Aggregate
  | fulfillment => fun d order => Fulfillment.applyWebhook d.input.kind d.now order
  | shipping => fun d shipment => shipment.applyWebhook d.input.kind d.now d.occurrence

/-- Both use cases make the same two checks before their transaction. -/
def Service.recordCarrierWebhook (service : Service) :
    Handler service.Aggregate Delivery (String × String) DomainError where
  key := Delivery.key
  check := fun d => d.input.check
  apply := service.applyWebhook

section Deliveries

variable {service : Service} {ι : Type} [DecidableEq ι]

abbrev Deliveries (service : Service) (ι : Type) :=
  State service.Aggregate Delivery (String × String) DomainError ι

/-- Nothing is marked yet, and every delivery is still to come. -/
structure Start (s : Deliveries service ι) : Prop where
  marks : s.marks = []
  applied : s.applied = []
  received : ∀ c, ∃ d, s.points c = .received d

/-- No event is applied twice, a duplicate has been applied, and a redelivery of what has been
applied is not refused. -/
def AppliedOnce (s : Deliveries service ι)
    (tr : List (Label service.Aggregate ι × Deliveries service ι)) : Prop :=
  Always (fun s => s.applied.Nodup) s tr ∧ EveryStep (Lawful service.recordCarrierWebhook) s tr

theorem applied_once {s : Deliveries service ι}
    {tr : List (Label service.Aggregate ι × Deliveries service ι)} (hs : Start s)
    (hr : Run (Step service.recordCarrierWebhook) s tr)
    (ha : EveryStep (Uninterrupted service.recordCarrierWebhook) s tr) : AppliedOnce s tr :=
  lawful_run (start_sound hs.marks hs.applied hs.received) hr ha

end Deliveries

/-! An order whose tracking number is known, and the carrier's event that it was dispatched. -/

def dispatched : Delivery := ⟨⟨"ups", "evt-1", "dispatched"⟩, 0, ⟨"e-1", 0⟩⟩

def tracked : FulfillmentOrder :=
  { FulfillmentOrder.create ⟨"fo-1", by decide⟩ "order-1" [] with status := .trackingAssigned }

/-- The same event is delivered twice. -/
def twice : Deliveries .fulfillment Bool where
  value := tracked
  version := 1
  marks := []
  applied := []
  lock := none
  points := fun _ => .received dispatched

def attempted (labels : List (Label FulfillmentOrder Bool)) :
    List (Label FulfillmentOrder Bool × Deliveries .fulfillment Bool) :=
  attempt (next Service.fulfillment.recordCarrierWebhook) twice labels

theorem twice_start : Start twice := ⟨rfl, rfl, fun _ => ⟨dispatched, rfl⟩⟩

/-- The first transaction rolls back after its mark. -/
theorem rolled_back_unapplied :
    Start twice ∧
    Run (Step Service.fulfillment.recordCarrierWebhook) twice (attempted
      [.begin false, .look false, .save false, .mark false, .fail false, .begin true,
        .look true]) ∧
    ¬ AppliedOnce twice (attempted
      [.begin false, .look false, .save false, .mark false, .fail false, .begin true,
        .look true]) := by
  refine ⟨twice_start, run_attempt _ _ _, fun h => ?_⟩
  have hlook := h.2.2.2.2.2.2.2.1
  have happlied := (hlook _ rfl).duplicate true dispatched tracked rfl rfl
  cases happlied

theorem redelivered_once :
    AppliedOnce twice (attempted
      [.begin false, .look false, .save false, .mark false, .commit false, .begin true,
        .look true]) := by
  refine applied_once twice_start (run_attempt _ _ _) ?_
  refine ⟨trivial, ?_, trivial, trivial, trivial, trivial, ?_, trivial⟩
  · intro d version value _ c' d' new hc'
    cases c' <;> cases hc'
  · intro d version value _ c' d' new hc'
    cases c' <;> cases hc'

end CarrierWebhooks
