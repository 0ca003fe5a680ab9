import Lumo.OrdersOrder

/-! # The history of an order

What is recorded is a path: every entry is allowed by the one before it, by the table or by the
refund policy. What the entries say about payment and cancellation follows from the path. -/
namespace Orders

open SharedKernel Builtins Methods LabelledRuns

/-- An entry may follow the other: the table allows it, or it is a refund that the policy
allows. -/
def Allowed (fromStatus toStatus : OrderEventType) : Prop :=
  canTransition fromStatus toStatus = true ∨ canRefund fromStatus = true ∧ toStatus = .refunded

instance (fromStatus toStatus : OrderEventType) : Decidable (Allowed fromStatus toStatus) :=
  inferInstanceAs (Decidable (_ ∨ _))

inductive Written : List OrderEventType → Prop where
  | placed : Written [.placed]
  | created : Written [.created]
  | append {before : List OrderEventType} {last next : OrderEventType} :
      Written (before ++ [last]) → Allowed last next → Written (before ++ [last] ++ [next])

/-- What the last entry says about the payment: none yet, received, ruled out, or no longer
asked. -/
inductive Phase where
  | unpaid
  | paid
  | cancelled
  | closed
  deriving DecidableEq

def phase : OrderEventType → Phase
  | .placed | .created | .confirmed | .held | .resumed | .awaitingPayment | .paymentRequested
  | .paymentFailed => .unpaid
  | .cancelled => .cancelled
  | .closed => .closed
  | .paid | .refunded | .paymentReceived | .readyForFulfillment | .fulfillmentRequested
  | .fulfilled | .partiallyFulfilled | .delivered | .returnRequested | .returned
  | .refundRequested => .paid

/-- What may follow an entry of a phase. -/
def follows (before : Phase) (next : OrderEventType) : Bool :=
  match before with
  | .unpaid => phase next == .unpaid || isPaidEvent next || next == .cancelled
  | .paid => phase next == .paid || next == .closed
  | .cancelled => next == .closed
  | .closed => false

variable {next : OrderEventType} {types : List OrderEventType} {point : Point} {saved : Order}

variable {last type : OrderEventType} {before : List OrderEventType} {order : Order}

theorem allowed_follows (h : Allowed last next) : follows (phase last) next = true := by
  revert h
  cases last <;> cases next <;> decide

theorem phase_unpaid (h : phase type = .unpaid) : isPaidEvent type = false ∧ type ≠ .cancelled := by
  revert h
  cases type <;> decide

theorem phase_paid (h : isPaidEvent type = true) : phase type = .paid := by
  revert h
  cases type <;> decide

theorem paid_ne_cancelled (h : phase type = .paid) : type ≠ .cancelled := by
  revert h
  cases type <;> decide

theorem allowed_refunded (h : Allowed last next) (hr : isRefundedEvent next = true) :
    phase last = .paid := by
  revert h hr
  cases last <;> cases next <;> decide

theorem terminal_last (h : TRANSITIONS last = []) : ¬ Allowed last next := by
  revert h
  cases last <;> cases next <;> decide

def Told (types : List OrderEventType) : Phase → Prop
  | .unpaid => types.any isPaidEvent = false ∧ .cancelled ∉ types
  | .paid => types.any isPaidEvent = true ∧ .cancelled ∉ types
  | .cancelled => types.any isPaidEvent = false
  | .closed => types.any isPaidEvent = true → .cancelled ∉ types

theorem told_append (h : Told types (phase last)) (hnext : Allowed last next) :
    Told (types ++ [next]) (phase next) := by
  have hany : (types ++ [next]).any isPaidEvent = (types.any isPaidEvent || isPaidEvent next) := by
    rw [List.any_append]
    simp
  have hmem : next ≠ .cancelled → .cancelled ∉ types → .cancelled ∉ types ++ [next] := by
    intro hne hno hin
    rcases List.mem_append.mp hin with hin | hin
    · exact hno hin
    · exact hne (List.mem_singleton.mp hin).symm
  have hf := allowed_follows hnext
  cases hphase : phase last with
  | unpaid =>
    rw [hphase] at h hf
    obtain ⟨hpaid, hcancelled⟩ := h
    simp only [follows, Bool.or_eq_true, beq_iff_eq] at hf
    rcases hf with (hun | hp) | rfl
    · obtain ⟨hno, hne⟩ := phase_unpaid hun
      rw [hun]
      refine ⟨?_, hmem hne hcancelled⟩
      rw [hany, hpaid, hno]
      rfl
    · rw [phase_paid hp]
      refine ⟨?_, hmem (paid_ne_cancelled (phase_paid hp)) hcancelled⟩
      rw [hany, hp, Bool.or_true]
    · change (types ++ [_]).any isPaidEvent = false
      rw [hany, hpaid]
      rfl
  | paid =>
    rw [hphase] at h hf
    obtain ⟨hpaid, hcancelled⟩ := h
    simp only [follows, Bool.or_eq_true, beq_iff_eq] at hf
    rcases hf with hp | rfl
    · rw [hp]
      refine ⟨?_, hmem (paid_ne_cancelled hp) hcancelled⟩
      rw [hany, hpaid, Bool.true_or]
    · intro _
      exact hmem (by decide) hcancelled
  | cancelled =>
    rw [hphase] at h hf
    rw [follows, beq_iff_eq] at hf
    subst hf
    intro hpaid
    rw [hany, show types.any isPaidEvent = false from h] at hpaid
    cases hpaid
  | closed =>
    rw [hphase] at hf
    cases hf

theorem written_told (h : Written types) :
    ∃ before last, types = before ++ [last] ∧ Told types (phase last) := by
  induction h with
  | placed => exact ⟨[], .placed, rfl, by decide, by decide⟩
  | created => exact ⟨[], .created, rfl, by decide, by decide⟩
  | @append before last next hw hnext ih =>
    obtain ⟨before', last', hsplit, htold⟩ := ih
    obtain ⟨_, hlast⟩ := List.append_inj' hsplit rfl
    cases hlast
    exact ⟨_, next, rfl, told_append htold hnext⟩

theorem Written.notBoth (h : Written types) :
    ¬ (.cancelled ∈ types ∧ types.any isPaidEvent = true) := by
  rintro ⟨hcancelled, hpaid⟩
  obtain ⟨before, last, rfl, htold⟩ := written_told h
  cases hphase : phase last with
  | unpaid | paid =>
    rw [hphase] at htold
    exact htold.2 hcancelled
  | cancelled =>
    rw [hphase] at htold
    exact absurd (hpaid.symm.trans htold) (by decide)
  | closed =>
    rw [hphase] at htold
    exact htold hpaid hcancelled

theorem Written.paidFirst {after : List OrderEventType} (h : Written types)
    (hsplit : types = before ++ type :: after) (hr : isRefundedEvent type = true) :
    before.any isPaidEvent = true := by
  induction h generalizing after with
  | placed | created =>
    cases before with
    | nil =>
      cases hsplit
      cases hr
    | cons _ rest => simp at hsplit
  | @append front last next hw hnext ih =>
    rcases List.eq_nil_or_concat after with rfl | ⟨middle, final, rfl⟩
    · obtain ⟨hfront, hlast⟩ := List.append_inj' hsplit rfl
      cases hlast
      obtain ⟨front', last', hw', htold⟩ := written_told hw
      obtain ⟨_, hlast⟩ := List.append_inj' hw' rfl
      cases hlast
      rw [allowed_refunded hnext hr] at htold
      rw [← hfront]
      exact htold.1
    · rw [List.concat_eq_append, ← List.cons_append, ← List.append_assoc] at hsplit
      exact ih (List.append_inj' hsplit rfl).1

theorem Written.isChain (h : Written types) : types.IsChain Allowed := by
  induction h with
  | placed | created => exact List.isChain_singleton _
  | append _ hnext ih =>
    apply List.IsChain.append ih (List.isChain_singleton _)
    intro last hlast next hfirst
    simp only [List.getLast?_append, List.getLast?_singleton, Option.some_or,
      Option.mem_some_iff, List.head?_cons] at hlast hfirst
    subst hlast hfirst
    exact hnext

theorem Written.terminal {after : List OrderEventType} (h : Written types)
    (hsplit : types = before ++ type :: after) (hterminal : TRANSITIONS type = []) :
    after = [] := by
  cases after with
  | nil => rfl
  | cons next rest =>
    have hchain := h.isChain
    rw [hsplit, List.isChain_append_cons_cons] at hchain
    exact absurd hchain.2.1 (terminal_last hterminal)

def WellWritten (order : Order) : Prop := Written order.types

section Methods

variable {order : Order} {before : List OrderEventType} {last type : OrderEventType}
  {eventId : String} {occurredAt : ℤ} {rest : Method}

theorem status_of_types (h : order.types = before ++ [last]) : order.status = .ok last := by
  rw [Order.types, List.map_eq_append_iff] at h
  obtain ⟨front, back, hsplit, _, hback⟩ := h
  rw [List.map_eq_singleton_iff] at hback
  obtain ⟨event, rfl, rfl⟩ := hback
  simp [Order.status, hsplit]

theorem keeps_status {f : OrderEventType → Method}
    (hf : ∀ order before last, WellWritten order → order.types = before ++ [last] →
      WellWritten (after (f last) order)) :
    Keeps WellWritten (do f (← MonadExcept.ofExcept (← get).status)) := by
  intro order hw
  obtain ⟨before, last, htypes, _⟩ := written_told hw
  have hrun : after (do f (← MonadExcept.ofExcept (← get).status)) order = after (f last) order := by
    simp [after, status_of_types htypes]
  rw [hrun]
  exact hf order before last hw htypes

theorem record_written (hw : WellWritten order) (htypes : order.types = before ++ [last])
    (hnext : Allowed last type) (hrest : Keeps WellWritten rest) :
    WellWritten (after (do Order.record type eventId occurredAt; rest) order) := by
  cases hid : UniqueEntityId.from eventId with
  | error e =>
    have hrun : after (do Order.record type eventId occurredAt; rest) order = order := by
      simp [after, Order.record, hid]
    rw [hrun]
    exact hw
  | ok id =>
    have hrun : after (do Order.record type eventId occurredAt; rest) order =
        after rest { order with history := order.history ++ [⟨id, type, occurredAt⟩] } := by
      simp [after, Order.record, hid]
    rw [hrun]
    apply hrest
    have happend : Order.types { order with
        history := order.history ++ [⟨id, type, occurredAt⟩] } = order.types ++ [type] := by
      simp [Order.types]
    rw [WellWritten, happend, htypes]
    apply Written.append _ hnext
    rw [← htypes]
    exact hw

theorem addDomainEvent_keeps (event : OrderDomainEvent) :
    Keeps WellWritten (Order.addDomainEvent event) :=
  Keeps.modify fun _ h => h

theorem transition_keeps (toStatus : OrderEventType) (eventId : String) (occurredAt : ℤ) :
    Keeps WellWritten (Order.transition toStatus eventId occurredAt) := by
  apply keeps_status
  intro order before last hw htypes
  by_cases hcan : canTransition last toStatus = true
  · simp only [hcan, Bool.not_true, Bool.false_eq_true, if_false]
    apply record_written hw htypes (.inl hcan)
    exact Keeps.get.bind fun _ => addDomainEvent_keeps _
  · simp only [hcan, Bool.not_false, if_true]
    exact Keeps.throw _ order hw

theorem markPaid_keeps (paymentRef eventId : String) (occurredAt : ℤ) :
    Keeps WellWritten (Order.markPaid paymentRef eventId occurredAt) := by
  apply keeps_status
  intro order before last hw htypes
  by_cases hplaced : last = .placed
  · subst hplaced
    simp only [ne_eq, not_true_eq_false, if_false]
    apply record_written hw htypes (.inl (by decide))
    exact Keeps.get.bind fun _ => (Keeps.ofExcept _).bind fun _ => addDomainEvent_keeps _
  · simp only [ne_eq, hplaced, not_false_eq_true, if_true]
    exact Keeps.throw _ order hw

theorem refund_keeps (eventId : String) (occurredAt : ℤ) :
    Keeps WellWritten (Order.refund eventId occurredAt) := by
  apply keeps_status
  intro order before last hw htypes
  by_cases hcan : canRefund last = true
  · simp only [hcan, Bool.not_true, Bool.false_eq_true, if_false]
    apply record_written hw htypes (.inr ⟨hcan, rfl⟩)
    exact Keeps.get.bind fun _ => (Keeps.ofExcept _).bind fun _ => addDomainEvent_keeps _
  · simp only [hcan, Bool.not_false, if_true]
    exact Keeps.throw _ order hw

theorem completePayment_keeps (paymentRef eventId : String) (occurredAt : ℤ) :
    Keeps WellWritten (Order.completePayment paymentRef eventId occurredAt) := by
  apply keeps_status
  intro order before last hw htypes
  by_cases hplaced : last = .placed
  · simp only [hplaced, if_true]
    exact markPaid_keeps paymentRef eventId occurredAt order hw
  · by_cases hcan : canTransition last .paymentReceived = true
    · simp only [hplaced, hcan, if_false, if_true]
      have hreceived : Keeps WellWritten (do
          Order.transition .paymentReceived eventId occurredAt
          modify fun order => { order with paymentRef := some paymentRef }) :=
        (transition_keeps _ _ _).bind fun _ => Keeps.modify fun _ h => h
      exact hreceived order hw
    · simp only [hplaced, hcan, Bool.false_eq_true, if_false]
      exact Keeps.throw _ order hw

theorem requestPayment_keeps (paymentRef eventId : String) (occurredAt : ℤ) :
    Keeps WellWritten (Order.requestPayment paymentRef eventId occurredAt) :=
  (transition_keeps _ _ _).bind fun _ => Keeps.modify fun _ h => h

theorem requestFulfillment_keeps (fulfillmentRef eventId : String) (occurredAt : ℤ) :
    Keeps WellWritten (Order.requestFulfillment fulfillmentRef eventId occurredAt) :=
  (transition_keeps _ _ _).bind fun _ => Keeps.modify fun _ h => h

end Methods

/-- The order has just been placed, or created from a checkout. -/
def Opened (order : Order) : Prop :=
  (∃ orderNumber customerRef currency items eventId occurredAt,
    Order.place orderNumber customerRef currency items eventId occurredAt = .ok order) ∨
  ∃ orderNumber customerRef currency items totals checkoutRef eventId occurredAt,
    Order.createFromCheckout orderNumber customerRef currency items totals checkoutRef eventId
      occurredAt = .ok order

theorem opened_history {orderNumber customerRef currency : String} {items : List OrderItem}
    (h : Order.opened orderNumber customerRef currency items = .ok order) : order.history = [] := by
  simp only [Order.opened] at h
  split at h
  · cases h
  · split at h
    · cases h
    · cases h
      rfl

theorem built_written {order' : Order} {eventId : String} {occurredAt : ℤ} {rest : Method}
    (hempty : order.history = []) (hw : Written [type]) (hrest : Keeps WellWritten rest)
    (h : Order.built order (do Order.record type eventId occurredAt; rest) = .ok order') :
    WellWritten order' := by
  simp only [Order.built, Order.record, run_bind, run_ofExcept] at h
  cases hid : UniqueEntityId.from eventId with
  | error e => simp [hid] at h
  | ok id =>
    simp only [hid, run_modify, hempty, List.nil_append] at h
    split at h
    · rename_i built hrun
      cases h
      have hkept := hrest { order with history := [⟨id, type, occurredAt⟩] } hw
      rwa [after_ok hrun] at hkept
    · cases h

theorem Opened.wellWritten (h : Opened order) : WellWritten order := by
  rcases h with ⟨orderNumber, customerRef, currency, items, eventId, occurredAt, h⟩ |
    ⟨orderNumber, customerRef, currency, items, totals, checkoutRef, eventId, occurredAt, h⟩
  · obtain ⟨bare, hopened, h⟩ := bind_eq_ok.mp h
    refine built_written (opened_history hopened) .placed ?_ h
    exact Keeps.get.bind fun _ => (Keeps.ofExcept _).bind fun _ => addDomainEvent_keeps _
  · obtain ⟨bare, hopened, h⟩ := bind_eq_ok.mp h
    let order : Order := { bare with totals := some totals, checkoutRef := some checkoutRef }
    have hbare := opened_history hopened
    have hempty : order.history = [] := hbare
    exact built_written hempty .created (addDomainEvent_keeps _) h

/-- What can be done to an order. -/
inductive Operation where
  | transition (toStatus : OrderEventType)
  | markPaid (paymentRef : String)
  | completePayment (paymentRef : String)
  | refund
  | requestPayment (paymentRef : String)
  | requestFulfillment (fulfillmentRef : String)
  | confirm
  | cancel
  | hold
  | resume
  | markAwaitingPayment
  | markPaymentReceived
  | markPaymentFailed
  | markReadyForFulfillment
  | markFulfilled
  | markPartiallyFulfilled
  | markDelivered
  | requestReturn
  | markReturned
  | requestRefund
  | close

def Operation.method : Operation → String → ℤ → Method
  | transition toStatus => Order.transition toStatus
  | markPaid paymentRef => Order.markPaid paymentRef
  | completePayment paymentRef => Order.completePayment paymentRef
  | refund => Order.refund
  | requestPayment paymentRef => Order.requestPayment paymentRef
  | requestFulfillment fulfillmentRef => Order.requestFulfillment fulfillmentRef
  | confirm => Order.confirm
  | cancel => Order.cancel
  | hold => Order.hold
  | resume => Order.resume
  | markAwaitingPayment => Order.markAwaitingPayment
  | markPaymentReceived => Order.markPaymentReceived
  | markPaymentFailed => Order.markPaymentFailed
  | markReadyForFulfillment => Order.markReadyForFulfillment
  | markFulfilled => Order.markFulfilled
  | markPartiallyFulfilled => Order.markPartiallyFulfilled
  | markDelivered => Order.markDelivered
  | requestReturn => Order.requestReturn
  | markReturned => Order.markReturned
  | requestRefund => Order.requestRefund
  | close => Order.close

/-- An operation with the event id and the time it is given; one that throws leaves the order
as far as it has changed it. -/
structure Act where
  operation : Operation
  eventId : String
  occurredAt : ℤ

def perform (order : Order) (act : Act) : Order :=
  after (act.operation.method act.eventId act.occurredAt) order

def Performs (order : Order) (act : Act) (order' : Order) : Prop := order' = perform order act

theorem operation_keeps (operation : Operation) (eventId : String) (occurredAt : ℤ) :
    Keeps WellWritten (operation.method eventId occurredAt) := by
  cases operation with
  | markPaid paymentRef => exact markPaid_keeps paymentRef eventId occurredAt
  | completePayment paymentRef => exact completePayment_keeps paymentRef eventId occurredAt
  | refund => exact refund_keeps eventId occurredAt
  | requestPayment paymentRef => exact requestPayment_keeps paymentRef eventId occurredAt
  | requestFulfillment fulfillmentRef =>
    exact requestFulfillment_keeps fulfillmentRef eventId occurredAt
  | _ => exact transition_keeps _ eventId occurredAt

theorem saveAfter_keeps {method : Method} (hkeeps : Keeps WellWritten method)
    (hw : WellWritten order) (h : saveAfter method order = .save saved point) :
    WellWritten saved := by
  have hafter := hkeeps order hw
  rw [saveAfter] at h
  split at h
  · cases h
  · rename_i built hrun
    rw [after_ok hrun] at hafter
    split at h
    · cases h
      exact hafter
    · cases h

theorem answerStatus_ne_save : answerStatus order ≠ .save saved point := by
  rw [answerStatus]
  split <;> simp

open OptimisticTransactions in
theorem body_keeps {cfg : Config} {next : Point} {draw : ℕ}
    {body : ℕ → Unit → Order → Outcome Order Point} (hb : (protocol cfg).body point = some body)
    (hw : WellWritten order) (h : body draw ⟨⟩ order = .save saved next) : WellWritten saved := by
  cases point with
  | advancing toStatus =>
    cases hb
    exact saveAfter_keeps (transition_keeps _ _ _) hw h
  | markingPaid paymentRef =>
    cases hb
    exact saveAfter_keeps (completePayment_keeps _ _ _) hw h
  | refunding =>
    cases hb
    exact saveAfter_keeps (refund_keeps _ _) hw h
  | recordingPayment paymentRef attempt =>
    cases hb
    simp only [recordCheckoutPayment] at h
    split at h
    · split at h
      · exact absurd h answerStatus_ne_save
      · cases h
    · split at h
      · cases h
      · split at h
        · cases h
        · refine saveAfter_keeps ?_ hw h
          exact (transition_keeps _ _ _).bind fun _ =>
            (transition_keeps _ _ _).bind fun _ => requestPayment_keeps _ _ _
  | requestingCapture =>
    cases hb
    simp only [requestCapture] at h
    split at h
    · split at h
      · cases h
      · split at h <;> cases h
    · cases h
    · cases h
  | settlingCapture paymentRef attempt =>
    cases hb
    simp only [settleCapture] at h
    split at h
    · exact absurd h answerStatus_ne_save
    · exact saveAfter_keeps (requestPayment_keeps _ _ _) hw h
  | requestingFulfillment =>
    cases hb
    simp only [requestFulfillment] at h
    split at h
    · cases h
    · split at h
      · cases h
      · split at h <;> cases h
  | settlingFulfillment fulfillmentRef attempt =>
    cases hb
    simp only [settleFulfillment] at h
    split at h
    · exact absurd h answerStatus_ne_save
    · exact saveAfter_keeps (requestFulfillment_keeps _ _ _) hw h
  | verifyingPayment | capturing | shipping | finished => cases hb

/-- The history is a path, by the table and the refund policy, from which the status is read; a
refunded order was paid before that, none is cancelled and paid, and nothing comes after a
terminal entry. -/
structure HistorySound (order : Order) : Prop where
  path : order.types.IsChain Allowed
  latest : ∃ before last, order.types = before ++ [last] ∧ order.status = .ok last
  paidFirst : derivePaymentStatus order.types = .refunded →
    ∃ before type after, order.types = before ++ type :: after ∧ isRefundedEvent type = true ∧
      before.any isPaidEvent = true
  notBoth : ¬ (.cancelled ∈ order.types ∧ order.types.any isPaidEvent = true)
  terminal : ∀ before type after, order.types = before ++ type :: after →
    TRANSITIONS type = [] → after = []

theorem WellWritten.sound (h : WellWritten order) : HistorySound order := by
  refine ⟨h.isChain, ?_, ?_, h.notBoth, fun _ _ _ => h.terminal⟩
  · obtain ⟨before, last, htypes, _⟩ := written_told h
    exact ⟨before, last, htypes, status_of_types htypes⟩
  · intro hrefunded
    have hany : order.types.any isRefundedEvent = true := by
      by_contra hno
      simp only [derivePaymentStatus, hno, if_false] at hrefunded
      split at hrefunded
      · cases hrefunded
      · split at hrefunded <;> cases hrefunded
    obtain ⟨type, hmem, htype⟩ := List.any_eq_true.mp hany
    obtain ⟨before, after, hsplit⟩ := List.append_of_mem hmem
    exact ⟨before, type, after, hsplit, htype, h.paidFirst hsplit htype⟩

open OptimisticTransactions in
/-- The stored order has just been opened, and each call is about to begin. -/
def Start {ι : Type} (cfg : Config) (s : State Order Point Unit ι) : Prop :=
  Opened s.row.value ∧ ∀ c, ∃ request, s.calls c = .ready (execute cfg request)

open OptimisticTransactions in
theorem order_historySound {ι : Type} [DecidableEq ι] (cfg : Config) :
    (∀ order, Reachable Opened Performs order → HistorySound order) ∧
    ∀ s : State Order Point Unit ι,
      Reachable (Start cfg) (Step (protocol cfg)) s → HistorySound s.row.value := by
  constructor
  · intro order h
    apply WellWritten.sound
    refine reachable_invariant (fun order h => h.wellWritten) ?_ h
    rintro order act order' hw rfl
    exact operation_keeps act.operation act.eventId act.occurredAt order hw
  · intro s h
    apply WellWritten.sound
    have hview := reachable_view (I := fun v : View Order Point Unit ι => WellWritten v.value)
      ?_ (fun s hs => hs.1.wellWritten) ?_ h
    · exact hview.2
    · rintro s ⟨_, hs⟩ c k d v new k' hc
      obtain ⟨request, hrequest⟩ := hs c
      rw [hrequest] at hc
      cases hc
    · intro v e w hw hst
      cases hst with
      | save _ hb _ ho _ => exact body_keeps hb hw ho
      | _ => exact hw

/-! A checkout order is refunded once its payment has been received. -/

theorem usd_valid : isValidCurrencyCode "USD" = true := by decide

def checkoutOrder : Order where
  orderNumber := "1001"
  customerRef := "customer-1"
  currency := "USD"
  items := [⟨⟨100, "USD", usd_valid⟩, 1⟩]
  history := [⟨⟨"event-1", by decide⟩, .created, 0⟩]
  totals := some ⟨100, "USD"⟩
  checkoutRef := some "checkout-1"
  paymentRef := none
  fulfillmentRef := none
  domainEvents := [.orderTransitioned "1001" "customer-1" .created .created]

theorem checkoutOrder_opened : Opened checkoutOrder :=
  .inr ⟨"1001", "customer-1", "USD", [⟨⟨100, "USD", usd_valid⟩, 1⟩], ⟨100, "USD"⟩, "checkout-1",
    "event-1", 0, rfl⟩

def refundedRun : List (Act × Order) :=
  follow perform checkoutOrder [⟨.confirm, "event-2", 1⟩, ⟨.markAwaitingPayment, "event-3", 1⟩,
    ⟨.requestPayment "payment-1", "event-4", 1⟩, ⟨.completePayment "payment-1", "event-5", 2⟩,
    ⟨.refund, "event-6", 3⟩]

theorem refundedRun_reachable :
    Reachable Opened Performs (lastState checkoutOrder refundedRun) := by
  have hperforms (order : Order) (act : Act) : Performs order act (perform order act) := rfl
  exact Run.reachable (.start checkoutOrder_opened) (run_follow hperforms _ _)

theorem historyInTable_fails :
    ¬ ∀ order, Reachable Opened Performs order →
      order.types.IsChain fun fromStatus toStatus => canTransition fromStatus toStatus = true := by
  intro h
  exact absurd (h _ refundedRun_reachable) (by decide +kernel)

theorem order_historySound_refunded :
    HistorySound (lastState checkoutOrder refundedRun) ∧
      HistorySound (OptimisticTransactions.State.row
        (⟨⟨checkoutOrder, 1⟩, ⟨⟩, 0, fun _ : ℕ => .ready .refunding⟩ :
          OptimisticTransactions.State Order Point Unit ℕ)).value := by
  have h := order_historySound (ι := ℕ) ⟨false, fun _ _ => "event", fun _ => 0⟩
  refine ⟨h.1 _ refundedRun_reachable, h.2 _ (.start ⟨checkoutOrder_opened, ?_⟩)⟩
  intro c
  exact ⟨.refundOrder, rfl⟩

end Orders
