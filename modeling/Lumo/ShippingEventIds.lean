import Lumo.ShippingLabels
import Std.Data.String.ToInt
import Mathlib.Data.List.Dedup

/-! # Identities of shipment events

A transition is given a generated identity for the event it raises. A scan or an estimate raises an
event too, and its identity is put together from what the shipment holds at that time. -/
namespace Shipping

open SharedKernel LabelledRuns

structure TrackingEvent where
  id : String
  description : String
  location : Option String
  occurredAt : ℤ

/-- The window does not end before it starts. -/
structure DeliveryEstimate where
  windowStart : ℤ
  windowEnd : ℤ
  ordered : windowStart ≤ windowEnd

/-- The shipment with what its carrier reports about the way. -/
structure TrackedShipment extends Shipment where
  trackingEvents : List TrackingEvent
  deliveryEstimate : Option DeliveryEstimate
  deliveredAt : Option ℤ

/-- What a transition records besides, where it records an attempt. -/
structure AttemptNote where
  kind : ShippingAttemptKind
  outcome : ShippingAttemptOutcome
  reference : Option String

namespace Shipment

def move (shipment : Shipment) (toStatus : ShipmentStatusValue) (note : Option AttemptNote)
    (occurrence : Occurrence) : Except DomainError Shipment := do
  let shipment ← shipment.transition toStatus occurrence
  return match note with
    | none => shipment
    | some note => shipment.recordAttempt note.kind note.outcome occurrence.occurredAt note.reference

def acceptByCarrier (shipment : Shipment) :=
  shipment.move .carrierAccepted (some ⟨.carrier, .succeeded, none⟩)

def rejectByCarrier (shipment : Shipment) (reason : String) :=
  shipment.move .rejected (some ⟨.carrier, .failed, some reason⟩)

def markInTransit (shipment : Shipment) := shipment.move .inTransit none

def markOutForDelivery (shipment : Shipment) := shipment.move .outForDelivery none

def markDelivered (shipment : Shipment) := shipment.move .delivered none

def markDeliveryFailed (shipment : Shipment) (reason : String) :=
  shipment.move .deliveryFailed (some ⟨.carrier, .failed, some reason⟩)

def markReturned (shipment : Shipment) := shipment.move .returned none

def raiseException (shipment : Shipment) (reason : String) :=
  shipment.move .exception (some ⟨.carrier, .failed, some reason⟩)

def cancel (shipment : Shipment) := shipment.move .cancelled none

def close (shipment : Shipment) := shipment.move .closed none

def nonTransitionId (shipment : Shipment) (type : String) (occurredAt : ℤ) : String :=
  shipment.id.value ++ ":" ++ type ++ ":" ++ toString shipment.domainEvents.length ++ ":" ++
    occurredAt.repr

def raiseNonTransitionEvent (shipment : Shipment) (type : String) (occurredAt : ℤ) : Shipment :=
  { shipment with
    domainEvents := shipment.domainEvents ++
      [⟨⟨shipment.nonTransitionId type occurredAt, occurredAt⟩, shipment.id.value, type,
        shipment.status, shipment.status⟩] }

end Shipment

namespace TrackedShipment

def trackingUpdated : String := "shipping.tracking.updated"

def estimateSet : String := "shipping.tracking.estimate_set"

def addTrackingEvent (shipment : TrackedShipment) (description : String) (occurredAt : ℤ)
    (location : Option String) : TrackedShipment :=
  { shipment with
    toShipment := shipment.raiseNonTransitionEvent trackingUpdated occurredAt
    trackingEvents := shipment.trackingEvents ++
      [⟨shipment.id.value ++ toString shipment.trackingEvents.length, description, location,
        occurredAt⟩] }

def setDeliveryEstimate (shipment : TrackedShipment) (estimate : DeliveryEstimate)
    (occurredAt : ℤ) : TrackedShipment :=
  { shipment with
    toShipment := shipment.raiseNonTransitionEvent estimateSet occurredAt
    deliveryEstimate := some estimate }

end TrackedShipment

/-- The methods that move the shipment on. -/
inductive Transition where
  | createLabel (label : ShippingLabel) (carrier : Carrier) (carrierService : CarrierService)
      (trackingNumber : TrackingNumber)
  | voidLabel
  | acceptByCarrier
  | rejectByCarrier (reason : String)
  | markInTransit
  | markOutForDelivery
  | markDelivered
  | markDeliveryFailed (reason : String)
  | markReturned
  | raiseException (reason : String)
  | cancel
  | close
  | retry

namespace Transition

def execute (shipment : Shipment) (occurrence : Occurrence) :
    Transition → Except DomainError Shipment
  | createLabel label carrier carrierService trackingNumber =>
    shipment.createLabel label carrier carrierService trackingNumber occurrence
  | voidLabel => shipment.voidLabel occurrence
  | acceptByCarrier => shipment.acceptByCarrier occurrence
  | rejectByCarrier reason => shipment.rejectByCarrier reason occurrence
  | markInTransit => shipment.markInTransit occurrence
  | markOutForDelivery => shipment.markOutForDelivery occurrence
  | markDelivered => shipment.markDelivered occurrence
  | markDeliveryFailed reason => shipment.markDeliveryFailed reason occurrence
  | markReturned => shipment.markReturned occurrence
  | raiseException reason => shipment.raiseException reason occurrence
  | cancel => shipment.cancel occurrence
  | close => shipment.close occurrence
  | retry => shipment.retry occurrence

/-- Only a delivery is dated. -/
def deliveredAt (occurrence : Occurrence) : Transition → Option ℤ
  | markDelivered => some occurrence.occurredAt
  | _ => none

end Transition

inductive Operation where
  | transition (method : Transition) (eventId : String)
  | updateTracking (description : String) (location : Option String)
  | setDeliveryEstimate (estimate : DeliveryEstimate)

namespace Operation

def execute (shipment : TrackedShipment) (now : ℤ) : Operation → Except DomainError TrackedShipment
  | .transition method eventId => do
    let moved ← method.execute shipment.toShipment ⟨eventId, now⟩
    return { shipment with
      toShipment := moved
      deliveredAt := (method.deliveredAt ⟨eventId, now⟩).or shipment.deliveredAt }
  | updateTracking description location => do
    let _ ← Guard.againstEmpty description "description"
    return shipment.addTrackingEvent description now location
  | setDeliveryEstimate estimate => .ok (shipment.setDeliveryEstimate estimate now)

/-- The kind of event that a call raises beside the lifecycle. -/
def nonTransitionType : Operation → Option String
  | .transition _ _ => none
  | updateTracking description _ =>
    if (Guard.againstEmpty description "description").isOk then
      some TrackedShipment.trackingUpdated
    else none
  | setDeliveryEstimate _ => some TrackedShipment.estimateSet

end Operation

/-- The stored shipment, the clock, and every event that was published for the shipment. -/
structure ShipmentLog where
  shipment : TrackedShipment
  clock : ℤ
  published : List ShipmentTransitioned

structure TimedOperation where
  operation : Operation
  now : ℤ

namespace ShipmentLog

def eventIds (log : ShipmentLog) : List String := log.published.map fun e => e.occurrence.eventId

/-- A transaction loads the shipment without events, and publishes those it raised when it saves. -/
def next (log : ShipmentLog) (call : TimedOperation) : ShipmentLog :=
  let loaded := { log.shipment with domainEvents := [] }
  match call.operation.execute loaded call.now with
  | .error _ => { log with clock := call.now }
  | .ok shipment =>
    { shipment := { shipment with version := log.shipment.version + 1, domainEvents := [] }
      clock := call.now
      published := log.published ++ shipment.domainEvents }

/-- A generated identity is new and, as a UUID, holds no colon. -/
def Fresh (log : ShipmentLog) : Operation → Prop
  | .transition _ eventId => eventId ∉ log.eventIds ∧ ':' ∉ eventId.toList
  | _ => True

def Step (log : ShipmentLog) (call : TimedOperation) (log' : ShipmentLog) : Prop :=
  log.clock ≤ call.now ∧ log.Fresh call.operation ∧ log' = log.next call

/-- A consumer passes over a delivery whose identity it has seen. -/
def handled (seen : List String) : List ShipmentTransitioned → List ShipmentTransitioned
  | [] => []
  | e :: deliveries =>
    if e.occurrence.eventId ∈ seen then handled seen deliveries
    else e :: handled (e.occurrence.eventId :: seen) deliveries

/-- No two events share an identity, and a consumer that gets each of them handles as many. -/
structure Unique (log : ShipmentLog) : Prop where
  ids : log.eventIds.Nodup
  consumed : ∀ deliveries, (∀ e, e ∈ deliveries ↔ e ∈ log.published) →
    (handled [] deliveries).length = log.published.length

/-- No event of the kind that the call raises has this reading of the clock. -/
def Apart (log : ShipmentLog) (call : TimedOperation) : Prop :=
  ∀ e ∈ log.published, call.operation.nonTransitionType = some e.type →
    e.occurrence.occurredAt ≠ call.now

instance (log : ShipmentLog) (call : TimedOperation) : Decidable (Apart log call) :=
  inferInstanceAs (Decidable (∀ e ∈ log.published, _ = some e.type → _ ≠ _))

end ShipmentLog

/-- The shipment went through a transition that raised its event. -/
def Raised (occurrence : Occurrence) (shipment shipment' : Shipment) : Prop :=
  shipment'.id = shipment.id ∧ ∃ source target : ShipmentStatusValue,
    shipment'.domainEvents = shipment.domainEvents ++
      [⟨occurrence, shipment.id.value, target.eventTypeByStatus, source, target⟩]

section Methods

variable {shipment shipment' : Shipment} {occurrence : Occurrence}

theorem transition_raised {toStatus : ShipmentStatusValue}
    (h : shipment.transition toStatus occurrence = .ok shipment') :
    Raised occurrence shipment shipment' := by
  rw [Shipment.transition] at h
  split at h
  · cases h
  · cases h
    exact ⟨rfl, _, _, rfl⟩

theorem move_raised {toStatus : ShipmentStatusValue} {note : Option AttemptNote}
    (h : shipment.move toStatus note occurrence = .ok shipment') :
    Raised occurrence shipment shipment' := by
  obtain ⟨moved, hmoved, hnote⟩ := bind_eq_ok.mp h
  obtain ⟨hid, source, target, hevents⟩ := transition_raised hmoved
  cases note <;> cases hnote <;> exact ⟨hid, source, target, hevents⟩

theorem createLabel_raised {label : ShippingLabel} {carrier : Carrier}
    {carrierService : CarrierService} {trackingNumber : TrackingNumber}
    (h : shipment.createLabel label carrier carrierService trackingNumber occurrence =
      .ok shipment') : Raised occurrence shipment shipment' := by
  obtain ⟨moved, hmoved, hattempt⟩ := bind_eq_ok.mp h
  cases hattempt
  obtain ⟨hid, source, target, hevents⟩ := transition_raised hmoved
  exact ⟨hid, source, target, hevents⟩

theorem voidLabel_raised (h : shipment.voidLabel occurrence = .ok shipment') :
    Raised occurrence shipment shipment' := by
  obtain ⟨moved, hmoved, hattempt⟩ := bind_eq_ok.mp h
  cases hattempt
  obtain ⟨hid, source, target, hevents⟩ := transition_raised hmoved
  exact ⟨hid, source, target, hevents⟩

theorem retry_raised (h : shipment.retry occurrence = .ok shipment') :
    Raised occurrence shipment shipment' := by
  rw [Shipment.retry] at h
  split at h
  · cases h
  · obtain ⟨moved, hmoved, hattempt⟩ := bind_eq_ok.mp h
    cases hattempt
    obtain ⟨hid, source, target, hevents⟩ := transition_raised hmoved
    exact ⟨hid, source, target, hevents⟩

theorem Transition.execute_raised {method : Transition}
    (h : method.execute shipment occurrence = .ok shipment') :
    Raised occurrence shipment shipment' := by
  cases method with
  | createLabel => exact createLabel_raised h
  | voidLabel => exact voidLabel_raised h
  | retry => exact retry_raised h
  | acceptByCarrier | rejectByCarrier | markInTransit | markOutForDelivery | markDelivered
  | markDeliveryFailed | markReturned | raiseException | cancel | close =>
    rw [execute] at h
    exact move_raised h

end Methods

/-- The identity of an event that is raised beside the lifecycle, by a shipment just loaded. -/
def loadedId (id : UniqueEntityId) (type : String) (occurredAt : ℤ) : String :=
  id.value ++ ":" ++ type ++ ":" ++ toString 0 ++ ":" ++ occurredAt.repr

theorem nonTransitionType_eq {operation : Operation} {type : String}
    (h : operation.nonTransitionType = some type) :
    type = TrackedShipment.trackingUpdated ∨ type = TrackedShipment.estimateSet := by
  cases operation with
  | transition => cases h
  | setDeliveryEstimate => exact .inr (Option.some.inj h).symm
  | updateTracking description location =>
    rw [Operation.nonTransitionType] at h
    split at h
    · exact .inl (Option.some.inj h).symm
    · cases h

theorem eventTypeByStatus_ne {operation : Operation} (target : ShipmentStatusValue) :
    operation.nonTransitionType ≠ some target.eventTypeByStatus := by
  intro h
  have := nonTransitionType_eq h
  revert this
  cases target <;> decide

/-- Both kinds are of the same text up to the letter after the last dot. -/
theorem loadedId_inj {id : UniqueEntityId} {operation operation' : Operation} {type type' : String}
    {now now' : ℤ} (h : operation.nonTransitionType = some type)
    (h' : operation'.nonTransitionType = some type')
    (heq : loadedId id type now = loadedId id type' now') : type = type' ∧ now = now' := by
  have hlist := congrArg String.toList heq
  simp only [loadedId, String.toList_append, List.append_assoc, List.append_cancel_left_eq] at hlist
  rcases nonTransitionType_eq h with rfl | rfl <;> rcases nonTransitionType_eq h' with rfl | rfl
  · refine ⟨rfl, Int.repr_injective (String.toList_inj.mp ?_)⟩
    simpa using hlist
  · simp [TrackedShipment.trackingUpdated, TrackedShipment.estimateSet] at hlist
  · simp [TrackedShipment.trackingUpdated, TrackedShipment.estimateSet] at hlist
  · refine ⟨rfl, Int.repr_injective (String.toList_inj.mp ?_)⟩
    simpa using hlist

namespace ShipmentLog

variable {log log' : ShipmentLog} {call : TimedOperation} {e : ShipmentTransitioned}

theorem nonTransitionType_of_ok {shipment shipment' : TrackedShipment} {now : ℤ}
    {description : String} {location : Option String}
    (h : (Operation.updateTracking description location).execute shipment now = .ok shipment') :
    (Operation.updateTracking description location).nonTransitionType =
        some TrackedShipment.trackingUpdated ∧
      shipment' = shipment.addTrackingEvent description now location := by
  obtain ⟨text, htext, hadded⟩ := bind_eq_ok.mp h
  cases hadded
  simp [Operation.nonTransitionType, htext, Except.isOk, Except.toBool]

/-- What the log gains by a call that raises an event. -/
structure Gains (log : ShipmentLog) (call : TimedOperation) (e : ShipmentTransitioned) : Prop where
  id : (log.next call).shipment.id = log.shipment.id
  published : (log.next call).published = log.published ++ [e]
  time : e.occurrence.occurredAt = call.now
  origin :
    (∃ method target, call.operation = .transition method e.occurrence.eventId ∧
      e.type = ShipmentStatusValue.eventTypeByStatus target) ∨
    (call.operation.nonTransitionType = some e.type ∧
      e.occurrence.eventId = loadedId log.shipment.id e.type call.now)

theorem next_cases (log : ShipmentLog) (call : TimedOperation) :
    ((log.next call).shipment = log.shipment ∧ (log.next call).published = log.published ∧
      call.operation.nonTransitionType = none) ∨ ∃ e, Gains log call e := by
  obtain ⟨operation, now⟩ := call
  rcases hexec : operation.execute { log.shipment with domainEvents := [] } now with
    error | shipment
  · refine .inl ⟨by simp [next, hexec], by simp [next, hexec], ?_⟩
    cases operation with
    | transition => rfl
    | setDeliveryEstimate => cases hexec
    | updateTracking description location =>
      rcases hguard : Guard.againstEmpty description "description" with error' | text
      · simp [Operation.nonTransitionType, hguard, Except.isOk, Except.toBool]
      · rw [Operation.execute, hguard] at hexec
        cases hexec
  · right
    cases operation with
    | transition method eventId =>
      obtain ⟨moved, hmoved, hdone⟩ := bind_eq_ok.mp hexec
      cases hdone
      obtain ⟨hid, source, target, hevents⟩ := Transition.execute_raised hmoved
      exact ⟨_, by simp [next, hexec, hid], by simp only [next, hexec, hevents]; rfl, rfl,
        .inl ⟨method, target, rfl, rfl⟩⟩
    | updateTracking description location =>
      obtain ⟨htype, rfl⟩ := nonTransitionType_of_ok hexec
      exact ⟨_, by simp only [next, hexec]; rfl, by simp only [next, hexec]; rfl, rfl,
        .inr ⟨htype, rfl⟩⟩
    | setDeliveryEstimate estimate =>
      cases hexec
      exact ⟨_, rfl, rfl, rfl, .inr ⟨rfl, rfl⟩⟩

theorem mem_handled {seen : List String} {deliveries : List ShipmentTransitioned} {id : String} :
    id ∈ (handled seen deliveries).map (fun e => e.occurrence.eventId) ↔
      id ∉ seen ∧ id ∈ deliveries.map (fun e => e.occurrence.eventId) := by
  induction deliveries generalizing seen with
  | nil => simp [handled]
  | cons e deliveries ih =>
    rw [handled]
    split
    · rename_i hseen
      rw [ih, List.map_cons, List.mem_cons]
      grind
    · rename_i hseen
      rw [List.map_cons, List.mem_cons, ih, List.map_cons, List.mem_cons, List.mem_cons]
      grind

theorem handled_nodup (seen : List String) (deliveries : List ShipmentTransitioned) :
    ((handled seen deliveries).map fun e => e.occurrence.eventId).Nodup := by
  induction deliveries generalizing seen with
  | nil => exact List.nodup_nil
  | cons e deliveries ih =>
    rw [handled]
    split
    · exact ih seen
    · rw [List.map_cons, List.nodup_cons, mem_handled]
      exact ⟨fun h => h.1 List.mem_cons_self, ih _⟩

theorem unique_of_ids (h : log.eventIds.Nodup) : Unique log := by
  refine ⟨h, fun deliveries hsame => ?_⟩
  have hperm := (List.perm_ext_iff_of_nodup (handled_nodup [] deliveries) h).mpr fun id => by
    simp [mem_handled, eventIds, hsame]
  simpa [eventIds] using hperm.length_eq

/-- The identities stay apart exactly when the new one was not there. -/
theorem eventIds_next (he : Gains log call e) :
    (log.next call).eventIds.Nodup ↔
      e.occurrence.eventId ∉ log.eventIds ∧ log.eventIds.Nodup := by
  rw [eventIds, he.published, List.map_append, List.map_singleton,
    (List.perm_append_singleton _ _).nodup_iff, List.nodup_cons, eventIds]

/-- What is known of the identities that were published. -/
structure Known (log : ShipmentLog) : Prop where
  ids : log.eventIds.Nodup
  origin : ∀ e ∈ log.published,
    (':' ∉ e.occurrence.eventId.toList ∧
      ∃ target, e.type = ShipmentStatusValue.eventTypeByStatus target) ∨
    ((∃ operation : Operation, operation.nonTransitionType = some e.type) ∧
      e.occurrence.eventId = loadedId log.shipment.id e.type e.occurrence.occurredAt)

theorem Known.next (h : Known log) (hstep : Step log call log') (hapart : Apart log call) :
    Known log' := by
  obtain ⟨-, hfresh, rfl⟩ := hstep
  rcases next_cases log call with ⟨hshipment, hpublished, -⟩ | ⟨e, he⟩
  · exact ⟨by simpa [eventIds, hpublished] using h.ids, by rw [hshipment, hpublished]; exact h.origin⟩
  have hnew : e.occurrence.eventId ∉ log.eventIds := by
    rcases he.origin with ⟨method, target, hop, htype⟩ | ⟨htype, hid⟩
    · rw [hop] at hfresh
      exact hfresh.1
    · intro hmem
      obtain ⟨e', he', hsame⟩ := List.mem_map.mp hmem
      rcases h.origin e' he' with ⟨hcolon, -⟩ | ⟨⟨operation, hop⟩, hid'⟩
      · rw [hsame, hid] at hcolon
        exact hcolon (by simp [loadedId])
      · obtain ⟨htypes, htimes⟩ := loadedId_inj hop htype (by rw [← hid', hsame, hid])
        exact hapart e' he' (htypes ▸ htype) htimes
  constructor
  · exact (eventIds_next he).mpr ⟨hnew, h.ids⟩
  · intro e' he'
    rw [he.published] at he'
    rw [he.id]
    rcases List.mem_append.mp he' with hold | hlast
    · exact h.origin e' hold
    · obtain rfl := List.mem_singleton.mp hlast
      rcases he.origin with ⟨method, target, hop, htype⟩ | ⟨htype, hid⟩
      · rw [hop] at hfresh
        exact .inl ⟨hfresh.2, target, htype⟩
      · exact .inr ⟨⟨_, htype⟩, by rw [hid, he.time]⟩

theorem Known.clash (h : Known log) (hstep : Step log call log') (hapart : ¬ Apart log call) :
    ¬ Unique log' := by
  obtain ⟨-, -, rfl⟩ := hstep
  simp only [Apart, not_forall, not_not] at hapart
  obtain ⟨e, he, htype, htime⟩ := hapart
  rcases next_cases log call with ⟨-, -, hnone⟩ | ⟨e', he'⟩
  · simp [hnone] at htype
  intro hunique
  refine ((eventIds_next he').mp hunique.ids).1 (List.mem_map.mpr ⟨e, he, ?_⟩)
  rcases h.origin e he with ⟨-, target, htarget⟩ | ⟨-, hid⟩
  · exact absurd (htarget ▸ htype) (eventTypeByStatus_ne target)
  rcases he'.origin with ⟨method, target, hop, -⟩ | ⟨htype', hid'⟩
  · rw [hop] at htype
    cases htype
  · have htypes : e.type = e'.type := Option.some.inj (htype.symm.trans htype')
    rw [hid, hid', htime, htypes]

def Opened (log : ShipmentLog) : Prop := log.published = []

end ShipmentLog

open ShipmentLog

/-- Events keep their own identities for as long as no scan, and no estimate, has the reading of the
clock that one before it had. -/
theorem run_unique_iff {log : ShipmentLog} {tr : List (TimedOperation × ShipmentLog)}
    (hopened : Opened log) (hrun : Run ShipmentLog.Step log tr) :
    Always Unique log tr ↔ EveryStep Apart log tr := by
  have hknown : Known log := by
    rw [Opened] at hopened
    exact ⟨by simp [eventIds, hopened], by simp [hopened]⟩
  exact always_iff_everyStep (fun _ _ _ => Known.next) (fun _ h => unique_of_ids h.ids)
    (fun _ _ _ => Known.clash) hknown hrun

private def stored : TrackedShipment :=
  ⟨Shipment.create ⟨"shipment", by decide⟩ "fulfillment", [], none, none⟩

private def unpublished : ShipmentLog := ⟨stored, 0, []⟩

private theorem unpublished_opened : Opened unpublished := rfl

private def scan (now : ℤ) : TimedOperation := ⟨.updateTracking "Left the depot" none, now⟩

private def scans (second : ℤ) : List (TimedOperation × ShipmentLog) :=
  follow ShipmentLog.next unpublished [scan 5, scan second]

private theorem run_scans {second : ℤ} (h : 5 ≤ second) :
    Run ShipmentLog.Step unpublished (scans second) :=
  ⟨⟨by decide, trivial, rfl⟩, ⟨h, trivial, rfl⟩, trivial⟩

/-- The second scan comes a millisecond after the first. -/
theorem run_unique_scans : Always Unique unpublished (scans 6) :=
  (run_unique_iff unpublished_opened (run_scans (by decide))).mpr (by decide)

/-- Two scans at one reading of the clock. -/
theorem unique_fails : ¬ ∀ (log : ShipmentLog) (tr : List (TimedOperation × ShipmentLog)),
    Opened log → Run ShipmentLog.Step log tr → Always Unique log tr := by
  intro h
  have hlast := (h _ _ unpublished_opened (run_scans le_rfl)).last.ids
  revert hlast
  decide

end Shipping
