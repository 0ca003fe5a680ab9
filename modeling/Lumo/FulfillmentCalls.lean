import Lumo.FulfillmentOrder

/-! # Reservations and shipments on one order

`RequestReservation`, `CreateShipment` and `AdvanceFulfillment` in any interleaving. Inventory and
the carrier are asked outside every transaction. -/
namespace Fulfillment

open SharedKernel LabelledRuns OptimisticTransactions FulfillmentStatus

/-- `asked` has an entry for each time that Inventory was asked: what it decided, if it did.
`shipment` is what the carrier holds under the key of the order. -/
structure Ports where
  asked : List (Option ReservationResult)
  shipment : Option ProviderShipment

/-- What a port does when it is asked. The answer to what it did may be lost. -/
inductive Reply where
  | decides (result : ReservationResult) (arrives : Bool)
  | ships (shipment : ProviderShipment) (arrives : Bool)
  | fails

def maxConcurrencyRetries : ℕ := 5

def portThrew : Point := .finished (.threw .port)

def lostRace : Point := .finished (.threw .concurrency)

/-- The transaction of a point. `now` is the time of each. -/
def transaction (now : ℕ → ℤ) :
    Point → Option (ℕ → Ports → FulfillmentOrder → Outcome FulfillmentOrder Point)
  | .reserving attempt => some fun draw _ order => reserve attempt (now draw) order
  | .settlingReservation result _ =>
    some fun draw _ order => settleReservation result (now draw) order
  | .prechecking => some fun _ _ order => precheck order
  | .settlingShipment shipment _ =>
    some fun draw _ order => settleShipment shipment (now draw) order
  | .advancing toStatus => some fun _ _ order => advance toStatus order
  | _ => none

/-- `AdvanceFulfillment` is not retried. -/
def retried : Point → Point
  | .reserving attempt =>
    if attempt < maxConcurrencyRetries then .reserving (attempt + 1) else lostRace
  | .settlingReservation result attempt =>
    if attempt < maxConcurrencyRetries then .settlingReservation result (attempt + 1) else lostRace
  | .settlingShipment shipment attempt =>
    if attempt < maxConcurrencyRetries then .settlingShipment shipment (attempt + 1) else lostRace
  | _ => lostRace

/-- The carrier answers a key that it knows with the shipment it holds under it. -/
def askPort : Point → Reply → Ports → Option (Point × Ports)
  | .askingInventory, .decides result arrives, ports =>
    some (if arrives then .settlingReservation result 1 else portThrew,
      { ports with asked := ports.asked ++ [some result] })
  | .askingInventory, .fails, ports =>
    some (portThrew, { ports with asked := ports.asked ++ [none] })
  | .askingCarrier, .ships shipment arrives, ports =>
    let held := ports.shipment.getD shipment
    some (if arrives then .settlingShipment held 1 else portThrew,
      { ports with shipment := some held })
  | .askingCarrier, .fails, ports => some (portThrew, ports)
  | _, _, _ => none

def calls (now : ℕ → ℤ) : Protocol FulfillmentOrder Point Ports Reply where
  body := transaction now
  conflict := retried
  act := askPort

/-- How often `RequestReservation` has taken the order to `reservation_requested`. -/
def FulfillmentOrder.requests (order : FulfillmentOrder) : ℕ :=
  order.attempts.countP fun attempt => attempt.kind == .reservation && attempt.outcome == .succeeded

@[simp] theorem requests_moved (order : FulfillmentOrder) (toStatus : FulfillmentStatus) :
    (order.moved toStatus).requests = order.requests := rfl

@[simp] theorem requests_recordAttempt (order : FulfillmentOrder) (kind : FulfillmentAttemptKind)
    (outcome : FulfillmentAttemptOutcome) (now : ℤ) (reference : Option String) :
    (order.recordAttempt kind outcome now reference).requests =
      order.requests + if kind = .reservation ∧ outcome = .succeeded then 1 else 0 := by
  simp [FulfillmentOrder.requests, FulfillmentOrder.recordAttempt, List.countP_append]

/-- Every save, with the point that it was made at and the one it leads to. -/
inductive Saved (order : FulfillmentOrder) : Point → FulfillmentOrder → Point → Prop where
  | requested {attempt now} : reservationRequested ∈ order.status.transitions →
      Saved order (.reserving attempt)
        ((order.moved reservationRequested).recordAttempt .reservation .succeeded now none)
        .askingInventory
  | confirmed {result attempt answer} : order.status = reservationRequested →
      result.confirmed = true → Saved order (.settlingReservation result attempt)
        (order.moved confirmed) (.finished answer)
  | refused {result attempt now reason answer} : order.status = reservationRequested →
      result.confirmed = false → Saved order (.settlingReservation result attempt)
        ((order.moved failed).recordAttempt .reservation .failed now reason) (.finished answer)
  | shipped {shipment attempt reference new answer} : order.status = packingCompleted →
      CarrierReference.create shipment.carrier shipment.carrierShipmentId = .ok reference →
      new.carrierReference = some reference → new.status ∈ [shipmentCreated, trackingAssigned] →
      new.requests = order.requests →
      Saved order (.settlingShipment shipment attempt) new (.finished answer)
  | advanced {toStatus answer} : toStatus ∈ order.status.transitions →
      Saved order (.advancing toStatus) (order.moved toStatus) (.finished answer)

inductive Answered (order : FulfillmentOrder) : Point → Point → Prop where
  | resumed : order.status = reservationRequested → Answered order (.reserving 1) .askingInventory
  | prechecked : order.status = packingCompleted → Answered order .prechecking .askingCarrier
  | finished {k answer} : Answered order k (.finished answer)

/-- Every reply of a port. -/
inductive Asked (ports : Ports) : Point → Point → Ports → Prop where
  | decided {result} : Asked ports .askingInventory (.settlingReservation result 1)
      { ports with asked := ports.asked ++ [some result] }
  | undecided {entry answer} : Asked ports .askingInventory (.finished answer)
      { ports with asked := ports.asked ++ [entry] }
  | shipped {shipment} : Asked ports .askingCarrier
      (.settlingShipment (ports.shipment.getD shipment) 1)
      { ports with shipment := some (ports.shipment.getD shipment) }
  | unanswered {shipment answer} : Asked ports .askingCarrier (.finished answer)
      { ports with shipment := some (ports.shipment.getD shipment) }
  | failed {answer} : Asked ports .askingCarrier (.finished answer) ports

variable {k' k : Point} {ports : Ports} {attempt : ℕ} {order new : FulfillmentOrder}
  {b : ℕ → Ports → FulfillmentOrder → Outcome FulfillmentOrder Point}

theorem asked_of_askPort {reply : Reply} {ports' : Ports}
    (h : askPort k reply ports = some (k', ports')) : Asked ports k k' ports' := by
  cases k with
  | askingInventory =>
    cases reply with
    | decides result arrives =>
      cases arrives
      · cases h
        exact .undecided
      · cases h
        exact .decided
    | ships => cases h
    | fails =>
      cases h
      exact .undecided
  | askingCarrier =>
    cases reply with
    | decides => cases h
    | ships shipment arrives =>
      cases arrives
      · cases h
        exact .unanswered
      · cases h
        exact .shipped
    | fails =>
      cases h
      exact .failed
  | _ => cases reply <;> cases h

theorem reserve_answered {now : ℤ} (h : reserve attempt now order = .answer k) :
    Answered order (.reserving attempt) k := by
  unfold reserve at h
  split at h
  · rename_i hstatus
    by_cases hattempt : attempt = 1
    · rw [if_pos hattempt] at h
      cases h
      rw [hattempt]
      exact .resumed hstatus
    · rw [if_neg hattempt] at h
      cases h
      exact .finished
  · split at h
    · cases h
      exact .finished
    · obtain ⟨e, _, rfl⟩ := saveOr_answer h
      exact .finished

theorem reserve_saved {now : ℤ} (h : reserve attempt now order = .save new k) :
    Saved order (.reserving attempt) new k := by
  unfold reserve at h
  split at h
  · cases h
  · split at h
    · cases h
    · obtain ⟨hnew, rfl⟩ := saveOr_save h
      obtain ⟨hto, rfl⟩ := FulfillmentOrder.requestReservation_ok hnew
      exact .requested hto

variable {result : ReservationResult} {d : ℕ} {now : ℕ → ℤ}

theorem settleReservation_answered {now : ℤ} (h : settleReservation result now order = .answer k) :
    Answered order (.settlingReservation result attempt) k := by
  unfold settleReservation at h
  split at h
  · cases h
    exact .finished
  · obtain ⟨e, _, rfl⟩ := saveOr_answer h
    exact .finished

theorem settleReservation_saved {now : ℤ} (h : settleReservation result now order = .save new k) :
    Saved order (.settlingReservation result attempt) new k := by
  unfold settleReservation at h
  split at h
  · cases h
  · rename_i hstatus
    have hstatus := not_not.mp hstatus
    obtain ⟨hnew, rfl⟩ := saveOr_save h
    cases hconfirmed : result.confirmed with
    | true =>
      rw [hconfirmed, if_pos rfl] at hnew
      obtain ⟨-, rfl⟩ := FulfillmentOrder.transition_ok hnew
      exact .confirmed hstatus hconfirmed
    | false =>
      rw [hconfirmed, if_neg Bool.false_ne_true] at hnew
      obtain ⟨-, rfl⟩ := FulfillmentOrder.failReservation_ok hnew
      exact .refused hstatus hconfirmed

theorem precheck_answered (h : precheck order = .answer k) : Answered order .prechecking k := by
  unfold precheck at h
  split at h
  · cases h
    exact .finished
  · split at h
    · cases h
      exact .finished
    · rename_i hstatus
      cases h
      exact .prechecked (not_not.mp hstatus)

theorem packed_of_shipmentCreated {status : FulfillmentStatus}
    (h : shipmentCreated ∈ status.transitions) : status = packingCompleted := by
  revert h
  cases status <;> decide

theorem settleShipment_saved {shipment : ProviderShipment} {now : ℤ}
    (h : settleShipment shipment now order = .save new k) :
    Saved order (.settlingShipment shipment attempt) new k := by
  obtain ⟨hnew, rfl⟩ := saveOr_save h
  obtain ⟨reference, created, hreference, hcreated, htracked⟩ := applyShipment_ok hnew
  obtain ⟨hto, rfl⟩ := FulfillmentOrder.createShipment_ok hcreated
  have hstatus := packed_of_shipmentCreated hto
  have hrequests : (({ order with carrierReference := some reference }.moved
      shipmentCreated).recordAttempt .shipment .succeeded now none).requests = order.requests := by
    rw [requests_recordAttempt]
    rfl
  rcases htracked with ⟨-, rfl⟩ | ⟨trackingNumber, htracking⟩
  · exact .shipped hstatus hreference rfl (by simp [FulfillmentOrder.recordAttempt]) hrequests
  · obtain ⟨-, rfl⟩ := FulfillmentOrder.assignTracking_ok htracking
    exact .shipped hstatus hreference rfl (by simp) hrequests

theorem answered_of_transaction (hb : transaction now k = some b)
    (ho : b d ports order = .answer k') : Answered order k k' := by
  cases k with
  | reserving attempt =>
    cases hb
    exact reserve_answered ho
  | settlingReservation result attempt =>
    cases hb
    exact settleReservation_answered ho
  | prechecking =>
    cases hb
    exact precheck_answered ho
  | settlingShipment shipment attempt | advancing toStatus =>
    cases hb
    obtain ⟨e, _, rfl⟩ := saveOr_answer ho
    exact .finished
  | askingInventory | askingCarrier | finished answer => cases hb

theorem saved_of_transaction (hb : transaction now k = some b)
    (ho : b d ports order = .save new k') :
    Saved order k new k' := by
  cases k with
  | reserving attempt =>
    cases hb
    exact reserve_saved ho
  | settlingReservation result attempt =>
    cases hb
    exact settleReservation_saved ho
  | prechecking =>
    cases hb
    obtain ⟨answered, hanswered⟩ := precheck_answers order
    cases hanswered.symm.trans ho
  | settlingShipment shipment attempt =>
    cases hb
    exact settleShipment_saved ho
  | advancing toStatus =>
    cases hb
    obtain ⟨hnew, rfl⟩ := saveOr_save ho
    obtain ⟨hto, rfl⟩ := FulfillmentOrder.transition_ok hnew
    exact .advanced hto
  | askingInventory | askingCarrier | finished answer => cases hb

abbrev Calls (ι : Type) := State FulfillmentOrder Point Ports ι

abbrev CallsView (ι : Type) := View FulfillmentOrder Point Ports ι

theorem transaction_point (h : transaction now k = some b) :
    k ≠ .askingInventory ∧ k ≠ .askingCarrier := by
  constructor <;> rintro rfl <;> cases h

theorem retried_cases (k : Point) : retried k = lostRace ∨
    (∃ attempt, k = .reserving attempt ∧ retried k = .reserving (attempt + 1)) ∨
    (∃ result attempt, k = .settlingReservation result attempt ∧
      retried k = .settlingReservation result (attempt + 1)) ∨
    ∃ shipment attempt, k = .settlingShipment shipment attempt ∧
      retried k = .settlingShipment shipment (attempt + 1) := by
  cases k with
  | reserving attempt =>
    by_cases h : attempt < maxConcurrencyRetries
    · exact Or.inr (Or.inl ⟨attempt, rfl, if_pos h⟩)
    · exact Or.inl (if_neg h)
  | settlingReservation result attempt =>
    by_cases h : attempt < maxConcurrencyRetries
    · exact Or.inr (Or.inr (Or.inl ⟨result, attempt, rfl, if_pos h⟩))
    · exact Or.inl (if_neg h)
  | settlingShipment shipment attempt =>
    by_cases h : attempt < maxConcurrencyRetries
    · exact Or.inr (Or.inr (Or.inr ⟨shipment, attempt, rfl, if_pos h⟩))
    · exact Or.inl (if_neg h)
  | _ => exact Or.inl rfl

theorem retried_point (k : Point) : retried k ≠ .askingInventory ∧ retried k ≠ .askingCarrier := by
  rcases retried_cases k with h | ⟨_, _, h⟩ | ⟨_, _, _, h⟩ | ⟨_, _, _, h⟩ <;> rw [h] <;>
    exact ⟨(by intro h; cases h), (by intro h; cases h)⟩

end Fulfillment

/-! ## What Inventory was asked and confirmed

Inventory is asked once for each request of `RequestReservation`, and what it confirmed is neither
failed nor cancelled, as long as no call is late and no generic transition withdraws it. -/
namespace Fulfillment

open SharedKernel LabelledRuns OptimisticTransactions FulfillmentStatus

variable {ι : Type} [DecidableEq ι] {now : ℕ → ℤ}

/-- No `RequestReservation` finds the order requested when it first reads it. -/
def ReadsBefore (v : CallsView ι) : Event Reply ι → Prop
  | .answer c => v.points c = some (.reserving 1) → v.value.status ≠ reservationRequested
  | _ => True

instance (v : CallsView ι) (e : Event Reply ι) : Decidable (ReadsBefore v e) := by
  cases e <;> simp only [ReadsBefore] <;> infer_instance

/-- Inventory has been asked for every request, but for those whose call is about to ask, or
crashed then. -/
def Counted (v : CallsView ι) : Prop :=
  ∃ pending, Waiting .askingInventory v.points pending ∧
    v.env.asked.length + pending.length = v.value.requests

theorem counted_step (v : CallsView ι) (e : Event Reply ι) (w : CallsView ι) (h : Counted v)
    (hstep : AtomicStep (calls now) v e w) (hreads : ReadsBefore v e) : Counted w := by
  obtain ⟨pending, hwaiting, hcount⟩ := h
  cases hstep with
  | @answer c k b d env k' spent hc hb hd ho hspent =>
    have hk := (transaction_point hb).1
    refine ⟨pending, hwaiting.move hc hk ?_, hcount⟩
    cases answered_of_transaction hb ho with
    | resumed hstatus => exact absurd hstatus (hreads hc)
    | prechecked | finished => exact fun h => (by cases h)
  | @save c k b d env new k' spent hc hb hd ho hspent =>
    have hk := (transaction_point hb).1
    cases saved_of_transaction hb ho with
    | requested =>
      refine ⟨c :: pending, hwaiting.enter hc hk, ?_⟩
      rw [List.length_cons, requests_recordAttempt, requests_moved, if_pos ⟨rfl, rfl⟩]
      change v.env.asked.length + (pending.length + 1) = v.value.requests + 1
      omega
    | confirmed => exact ⟨pending, hwaiting.move hc hk (fun h => (by cases h)), hcount⟩
    | refused =>
      refine ⟨pending, hwaiting.move hc hk (fun h => (by cases h)), ?_⟩
      rw [requests_recordAttempt]
      exact hcount
    | shipped _ _ _ _ hrequests =>
      exact ⟨pending, hwaiting.move hc hk (fun h => (by cases h)), hcount.trans hrequests.symm⟩
    | advanced => exact ⟨pending, hwaiting.move hc hk (fun h => (by cases h)), hcount⟩
  | @conflict c k b spent hc hb hspent =>
    refine ⟨pending, hwaiting.move hc (transaction_point hb).1 ?_, hcount⟩
    exact fun hx => (retried_point k).1 (Option.some.inj hx)
  | @act c k reply k' ports hc ha =>
    have hasked : k = .askingInventory → ∀ entry,
        (v.env.asked ++ [entry]).length + (pending.erase c).length = v.value.requests := by
      rintro rfl entry
      have hmem := hwaiting.waiting c hc
      have hpos := List.length_pos_of_mem hmem
      rw [List.length_append, List.length_singleton, List.length_erase_of_mem hmem]
      omega
    cases asked_of_askPort ha with
    | decided | undecided =>
      exact ⟨pending.erase c, hwaiting.leave (fun h => (by cases h)), hasked rfl _⟩
    | _ =>
      exact ⟨pending, hwaiting.move hc (fun h => (by cases h)) (fun h => (by cases h)), hcount⟩
  | @crash c spent hspent => exact ⟨pending, hwaiting.crash c, hcount⟩
  | idle => exact ⟨pending, hwaiting, hcount⟩

/-- The call is about to ask Inventory, or to settle what it answered. -/
def Point.pending : Point → Bool
  | askingInventory | settlingReservation _ _ => true
  | _ => false

def Point.confirms : Point → Bool
  | settlingReservation result _ => result.confirmed
  | _ => false

def Ports.confirmed (ports : Ports) : Prop :=
  ∃ result, some result ∈ ports.asked ∧ result.confirmed = true

def Withdrawal (source target : FulfillmentStatus) : Prop :=
  (source = reservationRequested ∧ target = failed) ∨ (source = confirmed ∧ target = cancelled)

instance (source target : FulfillmentStatus) : Decidable (Withdrawal source target) :=
  inferInstanceAs (Decidable (_ ∧ _ ∨ _ ∧ _))

/-- No `AdvanceFulfillment` fails a reservation that is requested, or cancels a confirmed one. -/
def NotWithdrawn (v : CallsView ι) : Event Reply ι → Prop
  | .save c =>
    match v.points c with
    | some (.advancing toStatus) => ¬ Withdrawal v.value.status toStatus
    | _ => True
  | _ => True

instance (v : CallsView ι) (e : Event Reply ι) : Decidable (NotWithdrawn v e) := by
  cases e with
  | save c =>
    cases hc : v.points c with
    | none => exact isTrue (by rw [NotWithdrawn, hc]; trivial)
    | some k => cases k <;> simp only [NotWithdrawn, hc] <;> infer_instance
  | _ => exact isTrue trivial

/-- Before a reservation is requested, and after it is refused, no call is at Inventory. While it is
requested there is at most one, and once Inventory has confirmed, it is about to confirm. -/
structure Unsettled (v : CallsView ι) : Prop where
  idle : v.value.status ∈ [created, failed, cancelled] → ¬ v.env.confirmed ∧
    ∀ c k, v.points c = some k → k.pending = false
  alone : v.value.status = reservationRequested → ∀ c c' k k', v.points c = some k →
    v.points c' = some k' → k.pending = true → k'.pending = true → c = c'
  confirms : v.value.status = reservationRequested → v.env.confirmed → ∀ c k,
    v.points c = some k → k.pending = true → k.confirms = true

variable {v : CallsView ι} {c : ι} {order : FulfillmentOrder}

omit [DecidableEq ι] in
theorem Unsettled.beyond (hs : v.value.status ∉ [created, failed, cancelled, reservationRequested]) :
    Unsettled v := by
  refine ⟨fun h => absurd ?_ hs, fun h => absurd ?_ hs, fun h => absurd ?_ hs⟩
  · exact List.mem_append_left [reservationRequested] h
  · simp [h]
  · simp [h]

variable {env : Ports} {k' : Point} {source : FulfillmentStatus}

/-- A call goes on, or leaves Inventory. -/
theorem Unsettled.move (h : Unsettled v) {k : Point} {x : Option Point} (hc : v.points c = some k)
    (hx : ∀ k', x = some k' → k'.pending = true →
      k.pending = true ∧ (k.confirms = true → k'.confirms = true)) (spent : Set ℕ)
    (hstatus : order.status = v.value.status) (hasked : env.asked = v.env.asked) :
    Unsettled ⟨order, env, spent, Function.update v.points c x⟩ := by
  have hback : ∀ c' k', Function.update v.points c x c' = some k' → k'.pending = true →
      ∃ k₀, v.points c' = some k₀ ∧ k₀.pending = true ∧
        (k₀.confirms = true → k'.confirms = true) := by
    intro c' k' hc' hpending
    by_cases heq : c' = c
    · rw [heq, Function.update_self] at hc'
      obtain ⟨hold, hconfirms⟩ := hx k' hc' hpending
      exact ⟨k, heq ▸ hc, hold, hconfirms⟩
    · rw [Function.update_of_ne heq] at hc'
      exact ⟨k', hc', hpending, id⟩
  have hconfirmed : env.confirmed ↔ v.env.confirmed := by
    rw [Ports.confirmed, Ports.confirmed, hasked]
  constructor
  · intro hidle
    obtain ⟨hnone, hquiet⟩ := h.idle (hstatus ▸ hidle)
    refine ⟨fun hnew => hnone (hconfirmed.mp hnew), fun c' k' hc' => ?_⟩
    by_contra hpending
    obtain ⟨k₀, hk₀, hold, -⟩ := hback c' k' hc' (Bool.eq_true_of_not_eq_false hpending)
    rw [hquiet c' k₀ hk₀] at hold
    cases hold
  · intro hrequested c₁ c₂ k₁ k₂ hc₁ hc₂ hk₁ hk₂
    obtain ⟨k₁', hc₁', hk₁', -⟩ := hback c₁ k₁ hc₁ hk₁
    obtain ⟨k₂', hc₂', hk₂', -⟩ := hback c₂ k₂ hc₂ hk₂
    exact h.alone (hstatus ▸ hrequested) c₁ c₂ k₁' k₂' hc₁' hc₂' hk₁' hk₂'
  · intro hrequested hnew c' k' hc' hpending
    obtain ⟨k₀, hk₀, hold, hconfirms⟩ := hback c' k' hc' hpending
    exact hconfirms (h.confirms (hstatus ▸ hrequested) (hconfirmed.mp hnew) c' k₀ hk₀ hold)

theorem Unsettled.request (h : Unsettled v) (hidle : v.value.status ∈ [created, failed, cancelled])
    (spent : Set ℕ) (hstatus : order.status = reservationRequested) :
    Unsettled ⟨order, v.env, spent, Function.update v.points c (some k')⟩ := by
  obtain ⟨hnone, hquiet⟩ := h.idle hidle
  have honly : ∀ c' k, Function.update v.points c (some k') c' = some k → k.pending = true →
      c' = c := by
    intro c' k hc' hpending
    by_contra hne
    rw [Function.update_of_ne hne] at hc'
    rw [hquiet c' k hc'] at hpending
    cases hpending
  refine ⟨fun hnot => ?_, fun _ c₁ c₂ k₁ k₂ hc₁ hc₂ hk₁ hk₂ => ?_, fun _ hnew => absurd hnew hnone⟩
  · change order.status ∈ _ at hnot
    rw [hstatus] at hnot
    exact absurd hnot (by decide)
  · exact (honly c₁ k₁ hc₁ hk₁).trans (honly c₂ k₂ hc₂ hk₂).symm

theorem Unsettled.refuse (h : Unsettled v) {result : ReservationResult} {attempt : ℕ}
    (hc : v.points c = some (.settlingReservation result attempt))
    (hrequested : v.value.status = reservationRequested) (hrefused : result.confirmed = false)
    (answer : Answer) (spent : Set ℕ) (hstatus : order.status = failed) :
    Unsettled ⟨order, v.env, spent, Function.update v.points c (some (.finished answer))⟩ := by
  have hquiet : ∀ c' k', Function.update v.points c (some (.finished answer)) c' = some k' →
      k'.pending = false := by
    intro c' k' hc'
    by_cases heq : c' = c
    · rw [heq, Function.update_self] at hc'
      cases hc'
      rfl
    · rw [Function.update_of_ne heq] at hc'
      by_contra hpending
      exact heq (h.alone hrequested c' c k' _ hc' hc (Bool.eq_true_of_not_eq_false hpending) rfl)
  constructor
  · refine fun _ => ⟨fun hnew => ?_, hquiet⟩
    cases hrefused.symm.trans (h.confirms hrequested hnew c _ hc rfl)
  · intro hnot
    cases hstatus.symm.trans hnot
  · intro hnot
    cases hstatus.symm.trans hnot

theorem Unsettled.ask (h : Unsettled v) (hc : v.points c = some .askingInventory)
    {entry : Option ReservationResult}
    (hk' : k'.pending = true → ∀ result, entry = some result → result.confirmed = true →
      k'.confirms = true) (hasked : env.asked = v.env.asked ++ [entry]) :
    Unsettled { v with env := env, points := Function.update v.points c (some k') } := by
  have honly : v.value.status = reservationRequested → ∀ c' k,
      Function.update v.points c (some k') c' = some k → k.pending = true → c' = c := by
    intro hrequested c' k hk hpending
    by_contra hne
    rw [Function.update_of_ne hne] at hk
    exact hne (h.alone hrequested c' c k _ hk hc hpending rfl)
  constructor
  · intro hidle
    have hquiet := (h.idle hidle).2 c _ hc
    cases hquiet
  · intro hrequested c₁ c₂ k₁ k₂ hc₁ hc₂ hk₁ hk₂
    exact (honly hrequested c₁ k₁ hc₁ hk₁).trans (honly hrequested c₂ k₂ hc₂ hk₂).symm
  · rintro hrequested ⟨result, hmem, hconfirmed⟩ c' k hk hpending
    have heq := honly hrequested c' k hk hpending
    change Function.update v.points c (some k') c' = some k at hk
    rw [heq, Function.update_self] at hk
    cases hk
    rw [hasked] at hmem
    rcases List.mem_append.mp hmem with hold | hentry
    · have hconfirms := h.confirms hrequested ⟨result, hold, hconfirmed⟩ c _ hc rfl
      cases hconfirms
    · exact hk' hpending result (List.mem_singleton.mp hentry).symm hconfirmed

theorem transitions_requested (h : reservationRequested ∈ source.transitions) :
    source ∈ [created, failed, cancelled] := by
  revert h
  cases source <;> decide

theorem transitions_unsettled {target : FulfillmentStatus} (h : target ∈ source.transitions)
    (hw : ¬ Withdrawal source target) :
    target ∉ [created, failed, cancelled, reservationRequested] ∨
      (source ∈ [created, failed, cancelled] ∧
        (target = cancelled ∨ target = reservationRequested)) := by
  revert h hw
  unfold Withdrawal
  cases source <;> cases target <;> decide

theorem unsettled_step (v : CallsView ι) (e : Event Reply ι) (w : CallsView ι) (h : Unsettled v)
    (hstep : AtomicStep (calls now) v e w) (hg : ReadsBefore v e ∧ NotWithdrawn v e) :
    Unsettled w := by
  cases hstep with
  | @answer c k b d env k' spent hc hb hd ho hspent =>
    cases answered_of_transaction hb ho with
    | resumed hstatus => exact absurd hstatus (hg.1 hc)
    | prechecked | finished =>
      refine h.move hc ?_ spent rfl rfl
      rintro k' hk' hpending
      cases hk'
      cases hpending
  | @save c k b d env new k' spent hc hb hd ho hspent =>
    cases saved_of_transaction hb ho with
    | requested hto => exact h.request (transitions_requested hto) spent rfl
    | confirmed =>
      have hbeyond : confirmed ∉ [created, failed, cancelled, reservationRequested] := by decide
      exact .beyond hbeyond
    | refused hrequested hrefused => exact h.refuse hc hrequested hrefused _ spent rfl
    | shipped _ _ _ hstatus =>
      refine .beyond fun hnot => ?_
      change new.status ∈ _ at hnot
      rcases List.mem_cons.mp hstatus with heq | heq
      · rw [heq] at hnot
        exact absurd hnot (by decide)
      · rw [List.mem_singleton.mp heq] at hnot
        exact absurd hnot (by decide)
    | @advanced toStatus answer hto =>
      have hkept : ¬ Withdrawal v.value.status toStatus := by
        have hkept := hg.2
        rwa [NotWithdrawn, hc] at hkept
      rcases transitions_unsettled hto hkept with hbeyond | ⟨hidle, rfl | rfl⟩
      · exact .beyond hbeyond
      · refine ⟨fun _ => ?_, fun hnot => (by cases hnot), fun hnot => (by cases hnot)⟩
        obtain ⟨hnone, hquiet⟩ := h.idle hidle
        refine ⟨hnone, points_update hquiet ?_⟩
        rintro k hk
        cases hk
        rfl
      · exact h.request hidle spent rfl
  | @conflict c k b spent hc hb hspent =>
    refine h.move hc ?_ spent rfl rfl
    intro k' hk' hpending
    cases hk'
    change (retried k).pending = true at hpending
    change k.pending = true ∧ (k.confirms = true → (retried k).confirms = true)
    rcases retried_cases k with hnew | ⟨_, _, hnew⟩ | ⟨_, _, rfl, hnew⟩ | ⟨_, _, _, hnew⟩
    · rw [hnew] at hpending
      cases hpending
    · rw [hnew] at hpending
      cases hpending
    · rw [hnew]
      exact ⟨rfl, id⟩
    · rw [hnew] at hpending
      cases hpending
  | @act c k reply k' ports hc ha =>
    have hcarrier : ∀ k' ports, k'.pending = false → ports.asked = v.env.asked →
        Unsettled { v with env := ports, points := Function.update v.points c (some k') } := by
      intro k' ports hnot hasked
      refine h.move hc ?_ v.spent rfl hasked
      rintro k hk hpending
      cases hk
      cases hnot.symm.trans hpending
    cases asked_of_askPort ha with
    | @decided result =>
      refine h.ask hc ?_ rfl
      rintro _ _ heq hconfirmed
      cases heq
      exact hconfirmed
    | undecided => exact h.ask hc (fun hpending => (by cases hpending)) rfl
    | shipped | unanswered | failed => exact hcarrier _ _ rfl rfl
  | @crash c spent hspent =>
    cases hc : v.points c with
    | none =>
      have hsame : Function.update v.points c none = v.points := by
        rw [← hc, Function.update_eq_self]
      rw [hsame]
      exact ⟨h.idle, h.alone, h.confirms⟩
    | some k => exact h.move hc (fun k' hk' => (by cases hk')) spent rfl rfl
  | idle => exact h

end Fulfillment
