import Lumo.FulfillmentCalls
import Lumo.FulfillmentData

/-! # What the carrier accepted

Its reference is on the order once the order is shipped, and until then a retry records it, as long
as no generic transition marks the order as shipped. -/
namespace Fulfillment

open SharedKernel LabelledRuns OptimisticTransactions FulfillmentStatus

variable {ι : Type} [DecidableEq ι] {now : ℕ → ℤ}

/-- No `AdvanceFulfillment` marks the order as shipped. -/
def NotMarked (v : CallsView ι) : Event Reply ι → Prop
  | .save c => v.points c ≠ some (.advancing shipmentCreated)
  | _ => True

instance (v : CallsView ι) : (e : Event Reply ι) → Decidable (NotMarked v e)
  | .save c => inferInstanceAs (Decidable (v.points c ≠ some (.advancing shipmentCreated)))
  | .answer _ | .conflict _ | .act _ _ | .crash _ | .idle => inferInstanceAs (Decidable True)

/-- From `packing_completed` on, an order that is shipped or closed. -/
def packedPath : List FulfillmentStatus := packingCompleted :: closed :: shippingPath

def Point.atCarrier : Point → Bool
  | askingCarrier | settlingShipment _ _ => true
  | _ => false

def ProviderShipment.RecordedOn (shipment : ProviderShipment) (order : FulfillmentOrder) : Prop :=
  ∃ reference, CarrierReference.create shipment.carrier shipment.carrierShipmentId = .ok reference ∧
    order.carrierReference = some reference

/-- `held` says that a call settles the shipment that the carrier holds. -/
structure Packed (v : CallsView ι) : Prop where
  held : ∀ c k, v.points c = some k → ∀ shipment attempt, k = .settlingShipment shipment attempt →
    v.env.shipment = some shipment
  asking : ∀ c k, v.points c = some k → k = .askingCarrier → v.value.status ∈ packedPath
  accepted : v.env.shipment.isSome = true → v.value.status ∈ packedPath
  recorded : v.value.status ∈ shippingPath → ∃ shipment, v.env.shipment = some shipment ∧
    shipment.RecordedOn v.value

theorem transitions_packed {source target : FulfillmentStatus} (h : target ∈ source.transitions) :
    (source ∈ packedPath → target ∈ packedPath) ∧
      (target ∈ shippingPath → source ∈ shippingPath ∨ target = shipmentCreated) := by
  revert h
  cases source <;> cases target <;> decide

theorem not_packed {status : FulfillmentStatus} (h : reservationRequested ∈ status.transitions) :
    status ∉ packedPath := by
  revert h
  cases status <;> decide

variable {c : ι} {env : Ports} {v : CallsView ι} {k' : Point} {order : FulfillmentOrder}

theorem Packed.move (h : Packed v) {x : Option Point}
    (hheld : ∀ k', x = some k' → ∀ shipment attempt, k' = .settlingShipment shipment attempt →
      v.env.shipment = some shipment)
    (hasking : ∀ k', x = some k' → k' = .askingCarrier → v.value.status ∈ packedPath)
    (spent : Set ℕ) (henv : env.shipment = v.env.shipment) :
    Packed ⟨v.value, env, spent, Function.update v.points c x⟩ := by
  refine ⟨fun c' k' hk' shipment attempt heq => ?_, points_update h.asking hasking, ?_, ?_⟩
  · rw [henv]
    exact points_update h.held hheld c' k' hk' shipment attempt heq
  · exact fun hsome => h.accepted (henv ▸ hsome)
  · rw [henv]
    exact h.recorded

theorem Packed.save (h : Packed v) (hk' : k'.atCarrier = false) (spent : Set ℕ)
    (henv : env.shipment = v.env.shipment)
    (hpacked : v.value.status ∈ packedPath → order.status ∈ packedPath)
    (hrecorded : order.status ∈ shippingPath → ∃ shipment, v.env.shipment = some shipment ∧
      shipment.RecordedOn order) :
    Packed ⟨order, env, spent, Function.update v.points c (some k')⟩ := by
  refine ⟨?_, ?_, fun hsome => hpacked (h.accepted (henv ▸ hsome)), henv ▸ hrecorded⟩
  · rw [henv]
    refine points_update h.held ?_
    rintro k hk shipment attempt rfl
    cases hk
    cases hk'
  · refine points_update (fun c k hc hk => hpacked (h.asking c k hc hk)) ?_
    rintro k hk rfl
    cases hk
    cases hk'

theorem Packed.leave (h : Packed v) (hk' : k'.atCarrier = false) (spent : Set ℕ)
    (henv : env.shipment = v.env.shipment) :
    Packed ⟨v.value, env, spent, Function.update v.points c (some k')⟩ :=
  h.save hk' spent henv id h.recorded

theorem Packed.early (h : Packed v) (hk' : k'.atCarrier = false) (spent : Set ℕ)
    (hearly : v.value.status ∉ packedPath) (status : FulfillmentStatus)
    (hstatus : order.status = status) (hnew : status ∉ shippingPath) :
    Packed ⟨order, v.env, spent, Function.update v.points c (some k')⟩ :=
  h.save hk' spent rfl (fun hpacked => absurd hpacked hearly)
    (fun hshipping => absurd (hstatus ▸ hshipping) hnew)

theorem Packed.ship (h : Packed v) (hc : v.points c = some .askingCarrier)
    (shipment : ProviderShipment) (hk' : k' ≠ .askingCarrier)
    (hheld : ∀ held attempt, k' = .settlingShipment held attempt →
      held = v.env.shipment.getD shipment)
    (henv : env.shipment = some (v.env.shipment.getD shipment)) :
    Packed { v with env := env, points := Function.update v.points c (some k') } := by
  have hsame : ∀ held, v.env.shipment = some held → env.shipment = some held := by
    intro held hsome
    rw [henv, hsome, Option.getD_some]
  constructor
  · refine points_update
      (fun c k hc held attempt hk => hsame held (h.held c k hc held attempt hk)) ?_
    rintro k hk held attempt rfl
    change env.shipment = some held
    rw [henv, hheld held attempt (Option.some.inj hk)]
  · refine points_update h.asking ?_
    rintro k hk rfl
    exact absurd (Option.some.inj hk) hk'
  · exact fun _ => h.asking c _ hc rfl
  · intro hshipping
    obtain ⟨held, hsome, hrecorded⟩ := h.recorded hshipping
    exact ⟨held, hsame held hsome, hrecorded⟩

theorem packed_step (v : CallsView ι) (e : Event Reply ι) (w : CallsView ι) (h : Packed v)
    (hstep : AtomicStep (calls now) v e w) (hg : NotMarked v e) : Packed w := by
  cases hstep with
  | @answer c k b d env k' spent hc hb hd ho hspent =>
    cases answered_of_transaction hb ho with
    | resumed => exact h.leave rfl spent rfl
    | prechecked hstatus =>
      refine h.move ?_ ?_ spent rfl
      · rintro k hk shipment attempt rfl
        cases hk
      · intro _ _ _
        rw [hstatus]
        decide
    | finished => exact h.leave rfl spent rfl
  | @save c k b d env new k' spent hc hb hd ho hspent =>
    have hrequested : reservationRequested ∉ packedPath := by decide
    cases saved_of_transaction hb ho with
    | requested hto => exact h.early rfl spent (not_packed hto) reservationRequested rfl (by decide)
    | confirmed hstatus =>
      exact h.early rfl spent (hstatus ▸ hrequested) confirmed rfl (by decide)
    | refused hstatus =>
      exact h.early rfl spent (hstatus ▸ hrequested) failed rfl (by decide)
    | @shipped shipment attempt reference _ _ hpacking hreference hrecorded hstatus =>
      refine h.save rfl spent rfl (fun _ => ?_) (fun _ => ?_)
      · rcases List.mem_cons.mp hstatus with heq | heq
        · rw [heq]
          decide
        · rw [List.mem_singleton.mp heq]
          decide
      · exact ⟨shipment, h.held c _ hc shipment attempt rfl, reference, hreference, hrecorded⟩
    | @advanced toStatus _ hto =>
      obtain ⟨hpacked, hshipping⟩ := transitions_packed hto
      refine h.save rfl spent rfl hpacked fun hnew => ?_
      rcases hshipping hnew with hold | rfl
      · exact h.recorded hold
      · exact absurd hc hg
  | @conflict c k b spent hc hb hspent =>
    rcases retried_cases k with hnew | ⟨_, _, hnew⟩ | ⟨_, _, _, hnew⟩ | ⟨held, n, rfl, hnew⟩
    · exact h.leave (congrArg Point.atCarrier hnew) spent rfl
    · exact h.leave (congrArg Point.atCarrier hnew) spent rfl
    · exact h.leave (congrArg Point.atCarrier hnew) spent rfl
    · refine h.move ?_ ?_ spent rfl
      · rintro k hk shipment attempt rfl
        cases hnew.symm.trans (Option.some.inj hk)
        exact h.held c _ hc _ n rfl
      · rintro k hk rfl
        cases hnew.symm.trans (Option.some.inj hk)
  | @act c k reply k' ports hc ha =>
    cases asked_of_askPort ha with
    | decided | undecided => exact h.leave rfl v.spent rfl
    | @shipped shipment =>
      refine h.ship hc shipment (by intro h; cases h) ?_ rfl
      rintro held attempt heq
      cases heq
      rfl
    | @unanswered shipment =>
      exact h.ship hc shipment (by intro h; cases h) (by intro _ _ h; cases h) rfl
    | failed => exact h.leave rfl v.spent rfl
  | @crash c spent hspent =>
    exact h.move (fun _ hk => (by cases hk)) (fun _ hk => (by cases hk)) spent rfl
  | idle => exact h

/-! A retry of `CreateShipment`. -/

structure ProviderShipment.Complete (shipment : ProviderShipment) : Prop where
  carrier : isBlank shipment.carrier = false
  carrierShipmentId : isBlank shipment.carrierShipmentId = false
  trackingNumber : ∀ trackingNumber, shipment.trackingNumber = some trackingNumber →
    isBlank trackingNumber = false

theorem createShipment_packed (reference : CarrierReference) (now : ℤ)
    (h : order.status = packingCompleted) : order.createShipment reference now =
      .ok (({ order with carrierReference := some reference }.moved
        shipmentCreated).recordAttempt .shipment .succeeded now none) := by
  have hto : shipmentCreated ∈
      FulfillmentStatus.transitions { order with carrierReference := some reference }.status := by
    rw [h]
    decide
  rw [FulfillmentOrder.createShipment, FulfillmentOrder.transition_legal hto]
  rfl

theorem ProviderShipment.Complete.applied {shipment : ProviderShipment} (h : shipment.Complete)
    (hstatus : order.status = packingCompleted) (now : ℤ) :
    ∃ new, applyShipment shipment now order = .ok new ∧ shipment.RecordedOn new := by
  have hguard : ∀ value field, (hvalue : isBlank value = false) →
      Guard.againstEmpty value field = .ok ⟨value, hvalue⟩ :=
    fun value field hvalue => dif_pos hvalue
  obtain ⟨reference, hreference⟩ : ∃ reference,
      CarrierReference.create shipment.carrier shipment.carrierShipmentId = .ok reference := by
    rw [CarrierReference.create, hguard _ _ h.carrier, hguard _ _ h.carrierShipmentId]
    exact ⟨_, rfl⟩
  have hcreated := createShipment_packed reference now hstatus
  cases htracking : shipment.trackingNumber with
  | none =>
    refine ⟨({ order with carrierReference := some reference }.moved
      shipmentCreated).recordAttempt .shipment .succeeded now none, ?_, reference, hreference, rfl⟩
    rw [applyShipment, hreference, htracking]
    change (order.createShipment reference now >>= pure) = _
    rw [hcreated]
    rfl
  | some trackingNumber =>
    have hnumber := hguard trackingNumber "trackingNumber" (h.trackingNumber _ htracking)
    generalize hnew : ({ order with carrierReference := some reference }.moved
      shipmentCreated).recordAttempt .shipment .succeeded now none = created at hcreated
    have hshipped : created.status = shipmentCreated := by
      rw [← hnew]
      rfl
    have hto : trackingAssigned ∈ created.status.transitions := by
      rw [hshipped]
      decide
    obtain ⟨new, hassigned, hsame⟩ : ∃ new,
        created.assignTracking ⟨trackingNumber, h.trackingNumber _ htracking⟩ = .ok new ∧
          new.carrierReference = created.carrierReference :=
      ⟨_, FulfillmentOrder.transition_legal hto, rfl⟩
    refine ⟨new, ?_, reference, hreference, ?_⟩
    · rw [applyShipment, hreference, htracking]
      change (order.createShipment reference now >>= _) = _
      rw [hcreated]
      change (TrackingNumber.create trackingNumber >>= created.assignTracking) = _
      rw [TrackingNumber.create, hnumber]
      exact hassigned
    · rw [hsame, ← hnew]
      rfl

/-- A new call, alone, of which the carrier answers the request. `reply` is what it would ship if it
held nothing under the key. -/
def retry (now : ℕ → ℤ) (s : Calls ι) (c : ι) (reply : ProviderShipment) : Calls ι :=
  let t := s.setCall c (.ready .prechecking)
  lastState t (play (calls now) t [.read c, .act c (.ships reply true), .read c, .write c])

def RetrySucceeds (now : ℕ → ℤ) (s : Calls ι) : Prop :=
  ∀ c reply shipment, s.env.shipment = some shipment → shipment.Complete →
    s.row.value.status = packingCompleted ∨ s.row.value.status = shipmentCreated →
    (∃ status, (retry now s c reply).calls c = .ready (.finished (.ok status))) ∧
      shipment.RecordedOn (retry now s c reply).row.value

theorem Packed.retry {s : Calls ι} (h : Packed (view s)) : RetrySucceeds now s := by
  intro c reply shipment hheld hcomplete hstatus
  rcases hstatus with hstatus | hstatus
  · obtain ⟨new, hnew, hrecorded⟩ := hcomplete.applied hstatus (now (s.draws + 1))
    have hprecheck : precheck s.row.value = .answer .askingCarrier := by
      rw [precheck, if_neg (by rw [hstatus]; decide), if_neg (not_not_intro hstatus)]
    have hsettle : settleShipment shipment (now (s.draws + 1)) s.row.value =
        .save new (answerStatus new) := by
      rw [settleShipment, hnew]
      rfl
    have hretry : (Fulfillment.retry now s c reply).calls c = .ready (answerStatus new) ∧
        (Fulfillment.retry now s c reply).row.value = new := by
      simp [Fulfillment.retry, play, next, calls, transaction, askPort, lastState, hprecheck,
        hheld, hsettle]
    exact ⟨⟨new.status, hretry.1⟩, hretry.2 ▸ hrecorded⟩
  · have hprecheck : precheck s.row.value = .answer (answerStatus s.row.value) := by
      rw [precheck, if_pos hstatus]
    have hretry : (Fulfillment.retry now s c reply).calls c = .ready (answerStatus s.row.value) ∧
        (Fulfillment.retry now s c reply).row.value = s.row.value := by
      simp [Fulfillment.retry, play, next, calls, transaction, askPort, lastState, hprecheck,
        answerStatus]
    have hshipping : s.row.value.status ∈ shippingPath := by
      rw [hstatus]
      decide
    obtain ⟨held, hsome, hrecorded⟩ := h.recorded hshipping
    cases hheld.symm.trans hsome
    exact ⟨⟨s.row.value.status, hretry.1⟩, hretry.2 ▸ hrecorded⟩

end Fulfillment

/-! ## No reservation or shipment is lost

The calls on a new order, in any interleaving and with crashes anywhere. -/
namespace Fulfillment

open SharedKernel LabelledRuns OptimisticTransactions FulfillmentStatus

section Runs

variable {ι : Type} [DecidableEq ι] {now : ℕ → ℤ}

def Point.isEntry : Point → Bool
  | reserving 1 | prechecking | advancing _ => true
  | _ => false

/-- A new order, with every call still to begin. -/
structure Start (s : Calls ι) : Prop where
  created : ∃ id orderRef items, s.row.value = FulfillmentOrder.create id orderRef items
  ports : s.env = ⟨[], none⟩
  entries : ∀ c, ∃ k, s.calls c = .ready k ∧ k.isEntry = true

variable {s : Calls ι}

omit [DecidableEq ι] in
theorem Start.points (h : Start s) {c : ι} {k : Point} (hc : (view s).points c = some k) :
    k.isEntry = true := by
  obtain ⟨k₀, hk₀, hentry⟩ := h.entries c
  rw [point_ready hk₀] at hc
  cases hc
  exact hentry

omit [DecidableEq ι] in
theorem Start.counted (h : Start s) : Counted (view s) := by
  obtain ⟨id, orderRef, items, hcreated⟩ := h.created
  refine ⟨[], ⟨List.nodup_nil, fun c hc => ?_, fun c hc => (by cases hc)⟩, ?_⟩
  · cases h.points hc
  · change s.env.asked.length + 0 = s.row.value.requests
    rw [h.ports, hcreated]
    rfl

omit [DecidableEq ι] in
theorem Start.unsettled (h : Start s) : Unsettled (view s) := by
  have hnot : ∀ c k, (view s).points c = some k → k.pending = false := by
    intro c k hc
    have hentry := h.points hc
    cases k with
    | askingInventory | settlingReservation => cases hentry
    | _ => rfl
  refine ⟨fun _ => ⟨?_, hnot⟩, fun _ c c' k k' hc _ hk _ => ?_, fun _ _ c k hc hk => ?_⟩
  · rintro ⟨result, hmem, -⟩
    change some result ∈ s.env.asked at hmem
    rw [h.ports] at hmem
    cases hmem
  · rw [hnot c k hc] at hk
    cases hk
  · rw [hnot c k hc] at hk
    cases hk

omit [DecidableEq ι] in
theorem Start.packed (h : Start s) : Packed (view s) := by
  obtain ⟨id, orderRef, items, hcreated⟩ := h.created
  refine ⟨?_, ?_, fun hsome => ?_, fun hshipping => ?_⟩
  · rintro c k hc shipment attempt rfl
    cases h.points hc
  · rintro c k hc rfl
    cases h.points hc
  · change s.env.shipment.isSome = true at hsome
    rw [h.ports] at hsome
    cases hsome
  · change s.row.value.status ∈ shippingPath at hshipping
    rw [hcreated] at hshipping
    have hearly : FulfillmentStatus.created ∉ shippingPath := by decide
    exact absurd hshipping hearly

/-- Inventory has been asked at most once for each request of `RequestReservation`, and once for
each where no call is about to ask and none has crashed. -/
structure AskedOnce (s : Calls ι) : Prop where
  atMost : s.env.asked.length ≤ s.row.value.requests
  once : (∀ c, (s.calls c).point ≠ none ∧ (s.calls c).point ≠ some .askingInventory) →
    s.env.asked.length = s.row.value.requests

omit [DecidableEq ι] in
theorem Counted.askedOnce (h : Counted (view s)) : AskedOnce s := by
  obtain ⟨pending, hwaiting, hcount⟩ := h
  change s.env.asked.length + pending.length = s.row.value.requests at hcount
  refine ⟨by omega, fun hnone => ?_⟩
  have hnil : pending = [] := by
    refine List.eq_nil_iff_forall_not_mem.mpr fun c hc => ?_
    rcases hwaiting.only c hc with hasking | hcrashed
    · exact (hnone c).2 hasking
    · exact (hnone c).1 hcrashed
  rw [hnil] at hcount
  exact hcount

omit [DecidableEq ι] in
theorem Unsettled.kept (h : Unsettled (view s)) (hconfirmed : s.env.confirmed) :
    s.row.value.status ≠ failed ∧ s.row.value.status ≠ cancelled := by
  constructor <;> intro hstatus
  · exact (h.idle (by rw [show (view s).value.status = failed from hstatus]; decide)).1
      hconfirmed
  · exact (h.idle (by rw [show (view s).value.status = cancelled from hstatus]; decide)).1
      hconfirmed

theorem results_kept {s : Calls ι} {tr : List (Label Reply ι × Calls ι)} (hs : Start s)
    (hr : Run (Step (calls now)) s tr) :
    (EveryStep (fun s l => ReadsBefore (view s) (event (calls now) s l)) s tr →
      Always AskedOnce s tr) ∧
    (EveryStep (fun s l => ReadsBefore (view s) (event (calls now) s l) ∧
        NotWithdrawn (view s) (event (calls now) s l)) s tr →
      Always (fun s => s.env.confirmed →
        s.row.value.status ≠ failed ∧ s.row.value.status ≠ cancelled) s tr) ∧
    (EveryStep (fun s l => NotMarked (view s) (event (calls now) s l)) s tr →
      Always (RetrySucceeds now) s tr) := by
  have hquiet : Quiet s := by
    intro c k d v new k' hc
    obtain ⟨k₀, hk₀, -⟩ := hs.entries c
    rw [hk₀] at hc
    cases hc
  refine ⟨fun hg => ?_, fun hg => ?_, fun hg => ?_⟩
  · exact (always_view_of_step counted_step hquiet hs.counted hr hg).mono fun _ h => h.askedOnce
  · exact (always_view_of_step unsettled_step hquiet hs.unsettled hr hg).mono fun _ h => h.kept
  · exact (always_view_of_step packed_step hquiet hs.packed hr hg).mono fun _ h => h.retry

end Runs

def begun (points : List Point) : Calls ℕ where
  row := ⟨.create ⟨"fo-42", by decide⟩ "order-42" [], 1⟩
  env := ⟨[], none⟩
  draws := 0
  calls n := .ready (points.getD n .prechecking)

theorem begun_start (points : List Point) (h : ∀ k ∈ points, k.isEntry = true) :
    Start (begun points) := by
  refine ⟨⟨_, _, _, rfl⟩, rfl, fun n => ⟨points.getD n .prechecking, rfl, ?_⟩⟩
  rw [List.getD_eq_getElem?_getD]
  cases hn : points[n]? with
  | none => rfl
  | some k => exact h k (List.mem_of_getElem? hn)

def played (points : List Point) (labels : List (Label Reply ℕ)) :
    List (Label Reply ℕ × Calls ℕ) :=
  play (calls fun _ => 0) (begun points) labels

/-- The transactions of calls that need one each. -/
def each (callers : List ℕ) : List (Label Reply ℕ) :=
  callers.flatMap fun c => [.read c, .write c]

def packing : List Point :=
  [.advancing pickingStarted, .advancing pickingCompleted, .advancing packingStarted,
    .advancing packingCompleted]

/-- Inventory confirms, the order is packed, and the call that asked the carrier crashes. -/
def shippedPoints : List Point := .reserving 1 :: packing

def ups : ProviderShipment := ⟨"ups", "1Z-1", none⟩

def confirmedLabels : List (Label Reply ℕ) :=
  [.read 0, .write 0, .act 0 (.decides ⟨true, none⟩ true), .read 0, .write 0]

def shippedLabels : List (Label Reply ℕ) :=
  confirmedLabels ++ each [1, 2, 3, 4] ++ [.read 5, .act 5 (.ships ups true), .crash 5]

theorem shipped_kept :
    Always AskedOnce (begun shippedPoints) (played shippedPoints shippedLabels) ∧
    Always (fun s => s.env.confirmed →
      s.row.value.status ≠ failed ∧ s.row.value.status ≠ cancelled) (begun shippedPoints)
      (played shippedPoints shippedLabels) ∧
    Always (RetrySucceeds fun _ => 0) (begun shippedPoints)
      (played shippedPoints shippedLabels) := by
  obtain ⟨hasked, hkept, hretry⟩ := results_kept (begun_start shippedPoints (by decide))
    (run_play (calls fun _ => 0) _ shippedLabels)
  exact ⟨hasked (by decide +kernel), hkept (by decide +kernel), hretry (by decide +kernel)⟩

/-- Inventory has been asked as often as the order was taken to `reservation_requested`. -/
def AskedPerTransition (s : Calls ℕ) : Prop :=
  (∀ c, (s.calls c).point ≠ none ∧ (s.calls c).point ≠ some .askingInventory) →
    s.env.asked.length = s.row.value.path.count reservationRequested

def advancedPoints : List Point := [.advancing reservationRequested]

theorem advanced_unasked : ¬ AskedPerTransition
    (lastState (begun advancedPoints) (played advancedPoints (each [0]))) := by
  intro h
  have hcount := h fun c => by
    cases c with
    | zero | succ n => exact ⟨(by intro h; cases h), (by intro h; cases h)⟩
  revert hcount
  decide +kernel

/-- The first call has its answer when the second reads the order for the first time. -/
def lateLabels : List (Label Reply ℕ) :=
  [.read 0, .write 0, .act 0 (.decides ⟨true, none⟩ true), .read 1,
    .act 1 (.decides ⟨false, none⟩ true), .read 1, .write 1, .read 0]

def latePoints : List Point := [.reserving 1, .reserving 1]

def cancelledPoints : List Point := [.reserving 1, .advancing cancelled]

def markedPoints : List Point :=
  [.advancing reservationRequested, .advancing confirmed] ++ packing ++
    [.prechecking, .advancing shipmentCreated]

/-- The order is marked as shipped after the call that asked the carrier crashed. -/
def markedLabels : List (Label Reply ℕ) :=
  each [0, 1, 2, 3, 4, 5] ++ [.read 6, .act 6 (.ships ups true), .crash 6] ++ each [7]

theorem marked_unrecorded : ¬ RetrySucceeds (fun _ => 0)
    (lastState (begun markedPoints) (played markedPoints markedLabels)) := by
  intro h
  obtain ⟨-, reference, -, hrecorded⟩ := h 8 ups ups (by decide +kernel)
    ⟨by decide, by decide, fun _ h => (by cases h)⟩ (by decide +kernel)
  have hnone : (retry (fun _ => 0) (lastState (begun markedPoints)
      (played markedPoints markedLabels)) 8 ups).row.value.carrierReference = none := by
    decide +kernel
  cases hnone.symm.trans hrecorded

/-- Two retries, after the call that asked the carrier crashed. -/
def racingLabels : List (Label Reply ℕ) :=
  each [0, 1, 2, 3, 4, 5] ++ [.read 6, .act 6 (.ships ups true), .crash 6, .read 8, .read 9,
    .act 8 (.ships ups true), .act 9 (.ships ups true)] ++ each [8] ++ [.read 9]

/-- A generic transition asks nothing of Inventory, cancels what is confirmed and records no
reference; a late reader has a confirmed reservation refused; and of two retries one is refused. -/
theorem results_lost :
    (Start (begun advancedPoints) ∧
      Run (Step (calls fun _ => 0)) (begun advancedPoints) (played advancedPoints (each [0])) ∧
      ¬ Always AskedPerTransition (begun advancedPoints) (played advancedPoints (each [0]))) ∧
    (Start (begun cancelledPoints) ∧
      Run (Step (calls fun _ => 0)) (begun cancelledPoints)
        (played cancelledPoints (confirmedLabels ++ each [1])) ∧
      ¬ Always (fun s => s.env.confirmed → s.row.value.status ≠ cancelled) (begun cancelledPoints)
        (played cancelledPoints (confirmedLabels ++ each [1]))) ∧
    (Start (begun latePoints) ∧
      Run (Step (calls fun _ => 0)) (begun latePoints) (played latePoints lateLabels) ∧
      ¬ Always (fun s => s.env.confirmed → s.row.value.status ≠ failed) (begun latePoints)
        (played latePoints lateLabels)) ∧
    (Start (begun markedPoints) ∧
      Run (Step (calls fun _ => 0)) (begun markedPoints) (played markedPoints markedLabels) ∧
      ¬ Always (RetrySucceeds fun _ => 0) (begun markedPoints)
        (played markedPoints markedLabels)) ∧
    ((lastState (begun markedPoints) (played markedPoints racingLabels)).calls 9).point =
      some (.finished (.err (FulfillmentOrder.cannotTransition shipmentCreated
        "shipment_created"))) := by
  refine ⟨⟨begun_start _ (by decide), run_play _ _ _, fun h => advanced_unasked h.last⟩,
    ⟨begun_start _ (by decide), run_play _ _ _, fun h => ?_⟩,
    ⟨begun_start _ (by decide), run_play _ _ _, fun h => ?_⟩,
    ⟨begun_start _ (by decide), run_play _ _ _, fun h => marked_unrecorded h.last⟩,
    by decide +kernel⟩
  · exact h.last ⟨⟨true, none⟩, by decide +kernel, rfl⟩ (by decide +kernel)
  · exact h.last ⟨⟨true, none⟩, by decide +kernel, rfl⟩ (by decide +kernel)

end Fulfillment
