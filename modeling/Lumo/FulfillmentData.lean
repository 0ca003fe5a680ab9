import Lumo.FulfillmentOrder

/-! # What a fulfillment status says about the data of the order

The calls on one order, one after another. The methods that record what a status stands for are
three, and the generic transition reaches the same statuses without them. -/
namespace Fulfillment

open SharedKernel OptimisticTransactions LabelledRuns FulfillmentStatus

/-- The stored order, whether Inventory ever confirmed a reservation for it, and the carrier
events that are marked as processed. -/
structure Records where
  order : FulfillmentOrder
  inventoryConfirmed : Bool
  processed : List (String × String)

def transact (body : FulfillmentOrder → Outcome FulfillmentOrder Point) (s : Records) :
    Records × Point :=
  match body s.order with
  | .answer k => (s, k)
  | .save order k => ({ s with order := order }, k)

/-- `result` is what Inventory answers, when it is asked. -/
def requestReservation (result : ReservationResult) (now : ℤ) (s : Records) : Records × Point :=
  match transact (reserve 1 now) s with
  | (s, .askingInventory) => transact (settleReservation result now)
      { s with inventoryConfirmed := s.inventoryConfirmed || result.confirmed }
  | ended => ended

/-- `shipment` is what the carrier answers, when it is asked. -/
def createShipment (shipment : ProviderShipment) (now : ℤ) (s : Records) : Records × Point :=
  match transact precheck s with
  | (s, .askingCarrier) => transact (settleShipment shipment now) s
  | ended => ended

def advanceFulfillment (toStatus : FulfillmentStatus) (s : Records) : Records × Point :=
  transact (advance toStatus) s

def recordCarrierWebhook (input : WebhookInput) (now : ℤ) (s : Records) : Records :=
  match input.check with
  | .error _ => s
  | .ok () =>
    if s.processed.contains (input.carrier, input.eventId) then s
    else match applyWebhook input.kind now s.order with
      | .error _ => s
      | .ok order =>
        { s with order := order, processed := s.processed ++ [(input.carrier, input.eventId)] }

inductive Call where
  | requestReservation (result : ReservationResult) (now : ℤ)
  | createShipment (shipment : ProviderShipment) (now : ℤ)
  | advanceFulfillment (toStatus : FulfillmentStatus)
  | recordCarrierWebhook (input : WebhookInput) (now : ℤ)

def Records.next (s : Records) : Call → Records
  | .requestReservation result now => (requestReservation result now s).1
  | .createShipment shipment now => (createShipment shipment now s).1
  | .advanceFulfillment toStatus => (advanceFulfillment toStatus s).1
  | .recordCarrierWebhook input now => Fulfillment.recordCarrierWebhook input now s

def shippingPath : List FulfillmentStatus :=
  [shipmentCreated, trackingAssigned, shipmentDispatched, inTransit, outForDelivery, delivered,
    deliveryFailed, returned]

/-- The status implies the data. -/
structure Truthful (s : Records) : Prop where
  carrier : s.order.status ∈ shippingPath → s.order.carrierReference.isSome
  tracking : s.order.status ∈ shippingPath.tail → s.order.trackingNumber.isSome
  delivered_at : s.order.deliveredAt.isSome ↔ delivered ∈ s.order.path
  reserved : confirmed ∈ s.order.path → s.inventoryConfirmed = true

/-- The statuses that stand for data which the generic transition does not record. -/
def recorded : List FulfillmentStatus := [confirmed, shipmentCreated, trackingAssigned, delivered]

def WebhookInput.Applies (input : WebhookInput) (s : Records) : Prop :=
  input.check = .ok () ∧ (input.carrier, input.eventId) ∉ s.processed

/-- No generic transition is accepted to a status that stands for data, and no carrier event of the
kind "delivered" is. -/
def Allowed (s : Records) : Call → Prop
  | .advanceFulfillment toStatus =>
    toStatus ∈ s.order.status.transitions → toStatus ∉ recorded
  | .recordCarrierWebhook input _ =>
    input.kind = "delivered" → input.Applies s → s.order.status ≠ outForDelivery
  | _ => True

def beforeShipping : List FulfillmentStatus :=
  [created, reservationRequested, confirmed, failed, pickingStarted, pickingCompleted,
    packingStarted, packingCompleted]

def beforeConfirmation : List FulfillmentStatus := [created, reservationRequested, failed]

/-- Besides, what the order does not have yet. -/
structure Kept (order : FulfillmentOrder) (inventoryConfirmed : Bool) : Prop where
  undelivered : order.deliveredAt = none
  not_delivered : delivered ∉ order.path
  unshipped : order.status ∈ beforeShipping → order.carrierReference = none
  untracked : order.status ∈ beforeShipping ∨ order.status = shipmentCreated →
    order.trackingNumber = none
  carrier : order.status ∈ shippingPath → order.carrierReference.isSome
  tracking : order.status ∈ shippingPath.tail → order.trackingNumber.isSome
  unconfirmed : order.status ∈ beforeConfirmation → inventoryConfirmed = false
  reserved : confirmed ∈ order.path → inventoryConfirmed = true

variable {s : Records} {order new : FulfillmentOrder} {now : ℤ}

theorem Kept.truthful (hk : Kept s.order s.inventoryConfirmed) : Truthful s where
  carrier := hk.carrier
  tracking := hk.tracking
  delivered_at := by
    rw [hk.undelivered]
    exact ⟨fun h => (by cases h), fun h => absurd h hk.not_delivered⟩
  reserved := hk.reserved

theorem kept_create (id : UniqueEntityId) (orderRef : String) (items : List FulfillmentItem) :
    Kept (.create id orderRef items) false := by
  constructor <;> simp [FulfillmentOrder.create, FulfillmentOrder.path, shippingPath]

theorem transitions_plain {source target : FulfillmentStatus} (h : target ∈ source.transitions)
    (hplain : target ∉ recorded) :
    (target ∈ beforeShipping → source ∈ beforeShipping) ∧ target ≠ shipmentCreated ∧
      (target ∈ shippingPath → source ∈ shippingPath.tail) ∧
      (target ∈ beforeConfirmation → source ∈ beforeConfirmation) ∧
      target ≠ delivered ∧ target ≠ confirmed := by
  revert h hplain
  cases source <;> cases target <;> decide

theorem Kept.plain {confirmed : Bool} (hk : Kept order confirmed) {toStatus : FulfillmentStatus}
    (hto : toStatus ∈ order.status.transitions) (hplain : toStatus ∉ recorded) :
    Kept (order.moved toStatus) confirmed := by
  obtain ⟨hbefore, hcreated, hshipping, hearly, hdelivered, hconfirmed⟩ :=
    transitions_plain hto hplain
  constructor
  · exact hk.undelivered
  · exact fun h => hk.not_delivered (FulfillmentOrder.mem_path_of_moved hdelivered.symm h)
  · exact fun h => hk.unshipped (hbefore h)
  · rintro (h | h)
    · exact hk.untracked (Or.inl (hbefore h))
    · exact absurd h hcreated
  · exact fun h => hk.carrier (List.mem_of_mem_tail (hshipping h))
  · exact fun h => hk.tracking (hshipping (List.mem_of_mem_tail h))
  · exact fun h => hk.unconfirmed (hearly h)
  · exact fun h => hk.reserved (FulfillmentOrder.mem_path_of_moved hconfirmed.symm h)

theorem Kept.attempt {confirmed : Bool} (hk : Kept order confirmed) (kind : FulfillmentAttemptKind)
    (outcome : FulfillmentAttemptOutcome) (now : ℤ) (reference : Option String) :
    Kept (order.recordAttempt kind outcome now reference) confirmed :=
  ⟨hk.undelivered, hk.not_delivered, hk.unshipped, hk.untracked, hk.carrier, hk.tracking,
    hk.unconfirmed, hk.reserved⟩

theorem Kept.webhook {confirmed : Bool} (hk : Kept order confirmed) {kind : String}
    (h : applyWebhook kind now order = .ok new)
    (ha : kind = "delivered" → order.status ≠ outForDelivery) : Kept new confirmed := by
  have hattempt := hk.attempt .carrierWebhook .succeeded now (some kind)
  rcases applyWebhook_ok h with rfl | ⟨toStatus, hkind, hto, rfl⟩
  · exact hattempt
  · refine hattempt.plain hto ?_
    rcases kindToStatus_status hkind with ⟨rfl, hdelivered⟩ | hother
    · exfalso
      -- the table reaches `delivered` from one status only
      have hsource : order.status = outForDelivery := by
        revert hto
        cases order.status <;> decide
      exact ha hdelivered hsource
    · revert hother
      cases toStatus <;> decide

theorem Kept.requested {confirmed : Bool} (hk : Kept order confirmed)
    (h : order.requestReservation now = .ok new) :
    Kept new confirmed ∧ new.status = reservationRequested := by
  obtain ⟨hto, rfl⟩ := FulfillmentOrder.requestReservation_ok h
  exact ⟨(hk.plain hto (by decide)).attempt _ _ _ _, rfl⟩

theorem Kept.confirm {confirmed : Bool} (hk : Kept order confirmed)
    (hs : order.status = reservationRequested) : Kept (order.moved .confirmed) true := by
  constructor
  · exact hk.undelivered
  · exact fun h => hk.not_delivered (FulfillmentOrder.mem_path_of_moved (by decide) h)
  · exact fun _ => hk.unshipped (by rw [hs]; decide)
  · exact fun _ => hk.untracked (Or.inl (by rw [hs]; decide))
  · rw [FulfillmentOrder.status_moved]
    exact fun h => absurd h (by decide)
  · rw [FulfillmentOrder.status_moved]
    exact fun h => absurd h (by decide)
  · rw [FulfillmentOrder.status_moved]
    exact fun h => absurd h (by decide)
  · exact fun _ => rfl

theorem Kept.settled {confirmed : Bool} (hk : Kept order confirmed) {result : ReservationResult}
    {k : Point} (hs : order.status = reservationRequested)
    (h : settleReservation result now order = .save new k) :
    Kept new (confirmed || result.confirmed) := by
  rw [settleReservation, if_neg (not_not_intro hs)] at h
  obtain ⟨hnew, -⟩ := saveOr_save h
  cases hresult : result.confirmed with
  | true =>
    rw [hresult, if_pos rfl] at hnew
    obtain ⟨-, rfl⟩ := FulfillmentOrder.transition_ok hnew
    rw [Bool.or_true]
    exact hk.confirm hs
  | false =>
    rw [hresult, if_neg Bool.false_ne_true] at hnew
    obtain ⟨hto, rfl⟩ := FulfillmentOrder.failReservation_ok hnew
    rw [Bool.or_false]
    exact (hk.plain hto (by decide)).attempt _ _ _ _

/-- A shipment brings the carrier's reference, and its tracking number if it has one. -/
theorem Kept.shipped {confirmed : Bool} (hk : Kept order confirmed) {shipment : ProviderShipment}
    (h : applyShipment shipment now order = .ok new) : Kept new confirmed := by
  obtain ⟨reference, created, -, hcreated, hnew⟩ := applyShipment_ok h
  obtain ⟨hto, rfl⟩ := FulfillmentOrder.createShipment_ok hcreated
  have hsource : order.status = packingCompleted := by
    revert hto
    cases order.status <;> decide
  have hcreated : Kept (FulfillmentOrder.moved .shipmentCreated
      { order with carrierReference := some reference }) confirmed := by
    constructor
    · exact hk.undelivered
    · exact fun h => hk.not_delivered (FulfillmentOrder.mem_path_of_moved (by decide) h)
    · rw [FulfillmentOrder.status_moved]
      exact fun h => absurd h (by decide)
    · exact fun _ => hk.untracked (Or.inl (by rw [hsource]; decide))
    · exact fun _ => rfl
    · rw [FulfillmentOrder.status_moved]
      exact fun h => absurd h (by decide)
    · rw [FulfillmentOrder.status_moved]
      exact fun h => absurd h (by decide)
    · exact fun h => hk.reserved (FulfillmentOrder.mem_path_of_moved (by decide) h)
  have hattempt := hcreated.attempt .shipment .succeeded now none
  rcases hnew with ⟨-, rfl⟩ | ⟨trackingNumber, hnew⟩
  · exact hattempt
  · obtain ⟨-, rfl⟩ := FulfillmentOrder.assignTracking_ok hnew
    constructor
    · exact hattempt.undelivered
    · exact fun h => hattempt.not_delivered (FulfillmentOrder.mem_path_of_moved (by decide) h)
    · rw [FulfillmentOrder.status_moved]
      exact fun h => absurd h (by decide)
    · rw [FulfillmentOrder.status_moved]
      exact fun h => absurd h (by decide)
    · exact fun _ => rfl
    · exact fun _ => rfl
    · rw [FulfillmentOrder.status_moved]
      exact fun h => absurd h (by decide)
    · exact fun h => hattempt.reserved (FulfillmentOrder.mem_path_of_moved (by decide) h)

theorem settle_saves (hs : order.status = reservationRequested) (result : ReservationResult)
    (now : ℤ) : ∃ new k, settleReservation result now order = .save new k := by
  rw [settleReservation, if_neg (not_not_intro hs)]
  cases result.confirmed with
  | true =>
    rw [if_pos rfl, FulfillmentOrder.confirmReservation,
      FulfillmentOrder.transition_legal (by rw [hs]; decide)]
    exact ⟨_, _, rfl⟩
  | false =>
    rw [if_neg Bool.false_ne_true, FulfillmentOrder.failReservation,
      FulfillmentOrder.transition_legal (by rw [hs]; decide)]
    exact ⟨_, _, rfl⟩

theorem reserve_save {attempt : ℕ} {k : Point} (h : reserve attempt now order = .save new k) :
    order.requestReservation now = .ok new ∧ k = .askingInventory := by
  rw [reserve] at h
  split_ifs at h
  exact saveOr_save h

section Kept

variable (hk : Kept s.order s.inventoryConfirmed)

include hk

theorem kept_transact {b : FulfillmentOrder → Outcome FulfillmentOrder Point}
    (hbody : ∀ new k, b s.order = .save new k → Kept new s.inventoryConfirmed) :
    Kept (transact b s).1.order (transact b s).1.inventoryConfirmed := by
  rw [transact]
  split
  · exact hk
  · rename_i new k hsave
    exact hbody new k hsave

theorem reserve_asks {u : Records}
    (h : transact (reserve 1 now) s = (u, .askingInventory)) :
    Kept u.order u.inventoryConfirmed ∧ u.order.status = reservationRequested := by
  rw [transact, reserve] at h
  by_cases hrequested : s.order.status = reservationRequested
  · rw [if_pos hrequested, if_pos rfl] at h
    cases h
    exact ⟨hk, hrequested⟩
  rw [if_neg hrequested] at h
  by_cases hconfirmed : s.order.status = confirmed
  · rw [if_pos hconfirmed] at h
    cases h
  rw [if_neg hconfirmed] at h
  cases hnew : s.order.requestReservation now with
  | error e =>
    rw [hnew] at h
    cases h
  | ok new =>
    rw [hnew] at h
    cases h
    exact hk.requested hnew

theorem kept_requestReservation
    (result : ReservationResult) (now : ℤ) :
    Kept (requestReservation result now s).1.order
      (requestReservation result now s).1.inventoryConfirmed := by
  have hfirst := kept_transact (s := s) (b := reserve 1 now) hk
    fun new k h => (hk.requested (reserve_save h).1).1
  rw [requestReservation]
  split
  · rename_i u hask
    obtain ⟨hu, hs⟩ := reserve_asks hk hask
    rw [transact]
    split
    · rename_i k hanswer
      obtain ⟨new, k', hsave⟩ := settle_saves hs result now
      rw [hsave] at hanswer
      cases hanswer
    · rename_i new k hsave
      exact hu.settled hs hsave
  · exact hfirst

theorem kept_createShipment (shipment : ProviderShipment)
    (now : ℤ) : Kept (createShipment shipment now s).1.order
      (createShipment shipment now s).1.inventoryConfirmed := by
  obtain ⟨k, hanswer⟩ := precheck_answers s.order
  have hfirst : transact precheck s = (s, k) := by
    rw [transact, hanswer]
  rw [createShipment, hfirst]
  split
  · rename_i u hask
    cases hask
    exact kept_transact (s := s) hk fun new k h => hk.shipped (saveOr_save h).1
  · exact hk

theorem kept_webhook {input : WebhookInput}
    (ha : Allowed s (.recordCarrierWebhook input now)) :
    Kept (recordCarrierWebhook input now s).order
      (recordCarrierWebhook input now s).inventoryConfirmed := by
  rw [recordCarrierWebhook]
  split
  · exact hk
  · rename_i hcheck
    split
    · exact hk
    · rename_i hfresh
      split
      · exact hk
      · rename_i order happly
        refine hk.webhook happly fun hkind => ha hkind ⟨hcheck, fun hmem => hfresh ?_⟩
        exact List.contains_iff_mem.mpr hmem

end Kept

theorem kept_step (s : Records) (c : Call) (u : Records) (hk : Kept s.order s.inventoryConfirmed)
    (hst : s.next c = u) (ha : Allowed s c) : Kept u.order u.inventoryConfirmed := by
  subst hst
  cases c with
  | requestReservation result now => exact kept_requestReservation hk result now
  | createShipment shipment now => exact kept_createShipment hk shipment now
  | advanceFulfillment toStatus =>
    refine kept_transact (s := s) hk fun new k h => ?_
    obtain ⟨hto, rfl⟩ := FulfillmentOrder.transition_ok (saveOr_save h).1
    exact hk.plain hto (ha hto)
  | recordCarrierWebhook input now => exact kept_webhook hk ha

/-- A transition that is not allowed leaves an order whose status promises what it has not. -/
theorem broken_moved (hk : Kept s.order s.inventoryConfirmed) {toStatus : FulfillmentStatus}
    (hto : toStatus ∈ s.order.status.transitions) (hrecorded : toStatus ∈ recorded) {u : Records}
    (hu : u.order = s.order.moved toStatus)
    (hconfirmed : u.inventoryConfirmed = s.inventoryConfirmed) : ¬ Truthful u := by
  intro htruthful
  have hcases : toStatus = confirmed ∧ s.order.status ∈ beforeConfirmation ∨
      toStatus = shipmentCreated ∧ s.order.status ∈ beforeShipping ∨
      toStatus = trackingAssigned ∧ s.order.status = shipmentCreated ∨
      toStatus = delivered := by
    revert hto hrecorded
    cases s.order.status <;> cases toStatus <;> decide
  rcases hcases with ⟨rfl, hsource⟩ | ⟨rfl, hsource⟩ | ⟨rfl, hsource⟩ | rfl
  · have hyes := htruthful.reserved (by simp [hu])
    rw [hconfirmed, hk.unconfirmed hsource] at hyes
    cases hyes
  · have hyes := htruthful.carrier (by rw [hu, FulfillmentOrder.status_moved]; decide)
    rw [hu] at hyes
    have hno : (s.order.moved shipmentCreated).carrierReference = none := hk.unshipped hsource
    rw [hno] at hyes
    cases hyes
  · have hyes := htruthful.tracking (by rw [hu, FulfillmentOrder.status_moved]; decide)
    rw [hu] at hyes
    have hno : (s.order.moved trackingAssigned).trackingNumber = none :=
      hk.untracked (Or.inr hsource)
    rw [hno] at hyes
    cases hyes
  · have hyes := htruthful.delivered_at.mpr (by simp [hu])
    rw [hu] at hyes
    have hno : (s.order.moved delivered).deliveredAt = none := hk.undelivered
    rw [hno] at hyes
    cases hyes

theorem broken_step (s : Records) (c : Call) (u : Records) (hk : Kept s.order s.inventoryConfirmed)
    (hst : s.next c = u) (ha : ¬ Allowed s c) : ¬ Truthful u := by
  subst hst
  cases c with
  | requestReservation result now | createShipment shipment now => exact absurd trivial ha
  | advanceFulfillment toStatus =>
    simp only [Allowed, Classical.not_imp, not_not] at ha
    have hbody : advance toStatus s.order = .save (s.order.moved toStatus)
        (answerStatus (s.order.moved toStatus)) := by
      rw [advance, FulfillmentOrder.transition_legal ha.1]
      rfl
    apply broken_moved hk ha.1 ha.2
    · rw [Records.next, advanceFulfillment, transact, hbody]
    · rw [Records.next, advanceFulfillment, transact, hbody]
  | recordCarrierWebhook input now =>
    simp only [Allowed, Classical.not_imp, ne_eq, not_not] at ha
    obtain ⟨hkind, ⟨hcheck, hfresh⟩, hsource⟩ := ha
    have hto : delivered ∈ s.order.status.transitions := by
      rw [hsource]
      decide
    have happly : applyWebhook input.kind now s.order =
        .ok ((s.order.recordCarrierWebhook input.kind now).moved delivered) := by
      have hstatus : kindToStatus input.kind = .status delivered := by
        rw [hkind]
        decide
      rw [applyWebhook, hstatus]
      exact FulfillmentOrder.transition_legal hto
    have hnew : ¬ (s.processed.contains (input.carrier, input.eventId)) = true :=
      fun h => hfresh (List.contains_iff_mem.mp h)
    have hattempt := hk.attempt .carrierWebhook .succeeded now (some input.kind)
    apply broken_moved (s := { s with order := s.order.recordCarrierWebhook input.kind now })
      hattempt hto (by decide)
    · rw [Records.next, recordCarrierWebhook, hcheck]
      simp only [hnew, happly]
      rfl
    · rw [Records.next, recordCarrierWebhook, hcheck]
      simp only [hnew, happly]
      rfl

/-- From the order's creation on, its status implies its data exactly as long as every accepted
call that reaches a status standing for data is the one that records it. -/
theorem truthful_iff (id : UniqueEntityId) (orderRef : String) (items : List FulfillmentItem)
    (calls : List Call) :
    let start : Records := ⟨.create id orderRef items, false, []⟩
    let run := follow Records.next start calls
    Always Truthful start run ↔ EveryStep Allowed start run :=
  always_iff_everyStep (I := fun s => Kept s.order s.inventoryConfirmed) kept_step
    (fun _ hk => hk.truthful) broken_step (kept_create id orderRef items)
    (run_follow (fun _ _ => rfl) _ calls)

def firstOrder : Records where
  order := .create ⟨"fulfillment-1", by decide⟩ "order-1" []
  inventoryConfirmed := false
  processed := []

/-- A delivery as it should be: reserved, packed, shipped with a tracking number, and reported by
the carrier. -/
def delivery : List Call :=
  [.requestReservation ⟨true, none⟩ 0, .advanceFulfillment pickingStarted,
    .advanceFulfillment pickingCompleted, .advanceFulfillment packingStarted,
    .advanceFulfillment packingCompleted, .createShipment ⟨"ups", "1Z-1", some "1Z999"⟩ 0,
    .recordCarrierWebhook ⟨"ups", "event-1", "dispatched"⟩ 0,
    .recordCarrierWebhook ⟨"ups", "event-2", "in_transit"⟩ 0,
    .recordCarrierWebhook ⟨"ups", "event-3", "out_for_delivery"⟩ 0,
    .recordCarrierWebhook ⟨"ups", "event-4", "delivered"⟩ 1000]

/-- The delivered order has no `deliveredAt`. -/
theorem delivery_untruthful :
    ¬ Always Truthful firstOrder (follow Records.next firstOrder delivery) := by
  intro h
  have hdelivered := h.last.delivered_at.mpr (by decide +kernel)
  revert hdelivered
  decide +kernel

end Fulfillment
