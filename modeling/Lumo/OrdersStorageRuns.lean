import Lumo.OrdersStorage

/-! # An order survives storage

An order is read, changed and saved over and over. What is read back is what was saved, as long as
no two entries of its history bear the same time. -/
namespace OrdersStorage

open SharedKernel Builtins FallibleFolds Methods LabelledRuns Orders OrderMapper PrismaOrderRepository

section Mapping

variable {currency : String}

theorem must_ok {α : Type} (what : String) (value : α) : must what (.ok value) = .ok value := rfl

theorem idFrom_value (id : UniqueEntityId) : idFrom id.value = .ok id := by
  simp [idFrom, UniqueEntityId.from, Guard.againstEmpty, id.notEmpty, Except.map]

theorem toAddress_toAddressRow (what : String) (address : AddressSnapshot) :
    toAddress what (toAddressRow address) = .ok address := by
  simp [toAddress, toAddressRow, toExtra, AddressSnapshot.create, address.filled, must_ok]

theorem toBilling_map (address : Option AddressSnapshot) :
    toBilling (address.map toAddressRow) = .ok address := by
  cases address with
  | none => rfl
  | some address =>
    rw [Option.map_some, toBilling, toAddress_toAddressRow]
    rfl

def inOrderCurrency (currency : String) (hc : isValidCurrencyCode currency = true)
    (line : OrderLine) : OrderLine :=
  { line with snapshot := { line.snapshot with
      unitPrice := ⟨line.snapshot.unitPrice.amountMinor, currency, hc⟩ } }

theorem inOrderCurrency_self {hc : isValidCurrencyCode currency = true} {line : OrderLine}
    (h : line.snapshot.unitPrice.currency = currency) : inOrderCurrency currency hc line = line := by
  subst h
  rfl

theorem toItem_toItemRow (hc : isValidCurrencyCode currency = true) (line : OrderLine) :
    toItem currency (toItemRow line) = .ok (inOrderCurrency currency hc line) := by
  have hvariant : (line.snapshot.variant.map (·.variantRef)).map (fun variantRef =>
      (⟨variantRef, (line.snapshot.variant.map (·.sku)).getD "",
        line.snapshot.variant.bind (·.variantTitle)⟩ : ProductSnapshotVariant)) =
      line.snapshot.variant := by
    cases line.snapshot.variant <;> rfl
  have hprice : Money.create line.snapshot.unitPrice.amountMinor currency =
      .ok ⟨line.snapshot.unitPrice.amountMinor, currency, hc⟩ := by
    simp [Money.create, hc]
  simp only [toItem, toItemRow, idFrom_value, ok_bind, hprice, must_ok, hvariant,
    ProductSnapshot.create, line.snapshot.filled, and_self, dif_pos]
  rfl

theorem toEvent_toEventRow (event : OrderEvent) : toEvent (toEventRow event) = .ok event := by
  rw [toEvent, toEventRow, idFrom_value]
  rfl

theorem shown_toTotals (totals : TotalsProps) :
    (toTotals (toTotalsJson totals)).shown = totals.shown := by
  simp only [toTotals, toTotalsJson, TotalsProps.shown, Option.getD_some, ShownTotals.mk.injEq,
    true_and]
  constructor
  · split
    · rename_i hzero
      exact hzero.symm
    · rfl
  · split
    · rename_i hnone
      exact hnone.symm
    · rfl

end Mapping

/-- The order is the one that was saved, up to the order of its items. -/
structure SameOrder (order saved : OrderAggregate) : Prop where
  id : order.id = saved.id
  orderNumber : order.orderNumber = saved.orderNumber
  customerRef : order.customerRef = saved.customerRef
  currency : order.currency = saved.currency
  history : order.history = saved.history
  status : order.order.status = saved.order.status
  paymentStatus : derivePaymentStatus order.order.types = derivePaymentStatus saved.order.types
  shippingAddress : order.shippingAddress = saved.shippingAddress
  billingAddress : order.billingAddress = saved.billingAddress
  totals : order.totals.map TotalsProps.shown = saved.totals.map TotalsProps.shown
  checkoutRef : order.checkoutRef = saved.checkoutRef
  paymentRef : order.paymentRef = saved.paymentRef
  fulfillmentRef : order.fulfillmentRef = saved.fulfillmentRef
  items : order.items.Perm saved.items

/-- The rows of an order, the order that was last saved and the time of the last call. -/
structure World where
  rows : Rows
  saved : OrderAggregate
  clock : ℤ

/-- Whatever `findById` answers is the order that was saved. -/
def Survives (w : World) : Prop :=
  ∀ answer, Finds w.rows answer → ∃ order, answer = .ok order ∧ SameOrder order w.saved

/-- A call of an operation: the order as the database answers it, and the event ids that other
orders use. -/
structure Call where
  loaded : OrderAggregate
  act : Act
  elsewhere : List String

/-- The order is read, the operation performed, and the order saved unless it threw; the clock does
not go back. -/
def Step (w : World) (call : Call) (w' : World) : Prop :=
  Finds w.rows (.ok call.loaded) ∧ w.clock ≤ call.act.occurredAt ∧
    match call.loaded.perform call.act with
    | .error _ => w' = { w with clock := call.act.occurredAt }
    | .ok order => ∃ rows, saved call.elsewhere order w.rows = some rows ∧
        w' = ⟨rows, order, call.act.occurredAt⟩

/-- An operation that comes through comes later than all that is recorded, under an id that no
event has. -/
def Timely (w : World) (call : Call) : Prop :=
  (∃ order, call.loaded.perform call.act = .ok order) →
    (∀ row ∈ w.rows.events, row.occurredAt < call.act.occurredAt) ∧
      call.act.eventId ∉ w.rows.events.map (·.id) ∧ call.act.eventId ∉ call.elsewhere

/-- The items are priced in the currency of the order. -/
def InOneCurrency (order : OrderAggregate) : Prop :=
  ∀ line ∈ order.items, line.snapshot.unitPrice.currency = order.currency

section Operations

variable {order order' : Order} {eventId : String} {occurredAt : ℤ}

/-- Nothing but the references of payment and fulfillment and the events to be raised changes. -/
structure Quiet (order order' : Order) : Prop where
  history : order'.history = order.history
  orderNumber : order'.orderNumber = order.orderNumber
  customerRef : order'.customerRef = order.customerRef
  currency : order'.currency = order.currency
  items : order'.items = order.items
  totals : order'.totals = order.totals
  checkoutRef : order'.checkoutRef = order.checkoutRef

structure Appends (eventId : String) (occurredAt : ℤ) (order order' : Order) : Prop where
  history : ∃ id type, id.value = eventId ∧
    order'.history = order.history ++ [⟨id, type, occurredAt⟩]
  rest : Quiet { order with history := [] } { order' with history := [] }

theorem Quiet.trans (s t u : Order) (h : Quiet s t) (h' : Quiet t u) : Quiet s u :=
  ⟨h'.history.trans h.history, h'.orderNumber.trans h.orderNumber,
    h'.customerRef.trans h.customerRef, h'.currency.trans h.currency, h'.items.trans h.items,
    h'.totals.trans h.totals, h'.checkoutRef.trans h.checkoutRef⟩

theorem Quiet.rest {s t : Order} (h : Quiet s t) :
    Quiet { s with history := [] } { t with history := [] } :=
  ⟨rfl, h.orderNumber, h.customerRef, h.currency, h.items, h.totals, h.checkoutRef⟩

theorem Appends.then (s t u : Order) (h : Appends eventId occurredAt s t) (h' : Quiet t u) :
    Appends eventId occurredAt s u := by
  obtain ⟨id, type, hid, hhistory⟩ := h.history
  exact ⟨⟨id, type, hid, by rw [h'.history, hhistory]⟩, Quiet.trans _ _ _ h.rest h'.rest⟩

theorem record_appends (type : OrderEventType) :
    Relates (Appends eventId occurredAt) (Order.record type eventId occurredAt) := by
  intro order u order' h
  simp only [Order.record, run_bind, run_ofExcept, run_modify] at h
  cases hid : UniqueEntityId.from eventId with
  | error e => simp [hid] at h
  | ok id =>
    simp only [hid, EStateM.Result.ok.injEq, true_and] at h
    subst h
    exact ⟨⟨id, type, UniqueEntityId.from_ok hid, rfl⟩, ⟨rfl, rfl, rfl, rfl, rfl, rfl, rfl⟩⟩

theorem addDomainEvent_quiet (event : OrderDomainEvent) :
    Relates Quiet (Order.addDomainEvent event) :=
  .modify fun _ => ⟨rfl, rfl, rfl, rfl, rfl, rfl, rfl⟩

variable (eventId occurredAt)

theorem appends_of_status {f : OrderEventType → Method}
    (hf : ∀ status, Relates (Appends eventId occurredAt) (f status)) :
    Relates (Appends eventId occurredAt)
      (do f (← MonadExcept.ofExcept (← get).status) : Method) := by
  refine .eq_bind (.get fun _ => rfl) fun order => ?_
  exact .eq_bind (.ofExcept (fun _ => rfl) _) hf

theorem quiet_of_get {f : Order → Method} (hf : ∀ order, Relates Quiet (f order)) :
    Relates Quiet (do f (← get) : Method) :=
  .eq_bind (.get fun _ => rfl) hf

theorem quiet_of_total {f : Order → Money → Method}
    (hf : ∀ order total, Relates Quiet (f order total)) :
    Relates Quiet (do
      let order ← get
      let total ← MonadExcept.ofExcept order.totalAmount
      f order total : Method) :=
  quiet_of_get fun order => .eq_bind (.ofExcept (fun _ => rfl) _) (hf order)

theorem transition_appends (toStatus : OrderEventType) :
    Relates (Appends eventId occurredAt) (Order.transition toStatus eventId occurredAt) := by
  refine appends_of_status eventId occurredAt fun fromStatus => ?_
  split
  · exact .throw_bind _ _
  · refine .bind (record_appends _) (fun _ => ?_) Appends.then
    exact quiet_of_get fun order => addDomainEvent_quiet _

theorem markPaid_appends (paymentRef : String) :
    Relates (Appends eventId occurredAt) (Order.markPaid paymentRef eventId occurredAt) := by
  refine appends_of_status eventId occurredAt fun status => ?_
  split
  · exact .throw_bind _ _
  · refine .bind (record_appends _) (fun _ => ?_) Appends.then
    exact quiet_of_total fun order total => addDomainEvent_quiet _

theorem refund_appends :
    Relates (Appends eventId occurredAt) (Order.refund eventId occurredAt) := by
  refine appends_of_status eventId occurredAt fun status => ?_
  split
  · exact .throw_bind _ _
  · refine .bind (record_appends _) (fun _ => ?_) Appends.then
    exact quiet_of_total fun order total => addDomainEvent_quiet _

theorem setPaymentRef_quiet (paymentRef : String) :
    Relates Quiet (modify fun order => { order with paymentRef := some paymentRef } : Method) :=
  .modify fun _ => ⟨rfl, rfl, rfl, rfl, rfl, rfl, rfl⟩

theorem completePayment_appends (paymentRef : String) :
    Relates (Appends eventId occurredAt)
      (Order.completePayment paymentRef eventId occurredAt) := by
  refine appends_of_status eventId occurredAt fun status => ?_
  split
  · exact markPaid_appends eventId occurredAt paymentRef
  · split
    · exact .bind (transition_appends eventId occurredAt _) (fun _ => setPaymentRef_quiet _)
        Appends.then
    · exact .throw _

theorem operation_appends (operation : Operation) :
    Relates (Appends eventId occurredAt) (operation.method eventId occurredAt) := by
  cases operation with
  | markPaid paymentRef => exact markPaid_appends eventId occurredAt paymentRef
  | completePayment paymentRef => exact completePayment_appends eventId occurredAt paymentRef
  | refund => exact refund_appends eventId occurredAt
  | requestPayment paymentRef =>
    exact .bind (transition_appends eventId occurredAt _) (fun _ => setPaymentRef_quiet _)
      Appends.then
  | requestFulfillment fulfillmentRef =>
    exact .bind (transition_appends eventId occurredAt _)
      (fun _ => .modify fun _ => ⟨rfl, rfl, rfl, rfl, rfl, rfl, rfl⟩) Appends.then
  | _ => exact transition_appends eventId occurredAt _

end Operations

theorem perform_ok {aggregate aggregate' : OrderAggregate} {act : Act}
    (h : aggregate.perform act = .ok aggregate') : ∃ id type order, id.value = act.eventId ∧
      aggregate'.history = aggregate.history ++ [⟨id, type, act.occurredAt⟩] ∧
      aggregate' = aggregate.withOrder order ∧
      aggregate'.order = { order with domainEvents := [] } := by
  rw [OrderAggregate.perform] at h
  cases hrun : act.operation.method act.eventId act.occurredAt aggregate.order with
  | error e order => simp [hrun] at h
  | ok u order =>
    simp only [hrun, Except.ok.injEq] at h
    subst h
    have ha := operation_appends act.eventId act.occurredAt act.operation _ _ _ hrun
    obtain ⟨id, type, hid, hhistory⟩ := ha.history
    refine ⟨id, type, order, hid, hhistory, rfl, ?_⟩
    obtain ⟨_, hnumber, hcustomer, hcurrency, hitems, htotals, hcheckout⟩ := ha.rest
    simp only at hnumber hcustomer hcurrency hitems htotals hcheckout
    cases order
    simp only at hnumber hcustomer hcurrency hitems htotals hcheckout
    subst hnumber hcustomer hcurrency hitems htotals hcheckout
    rfl

section Rows

variable {order : OrderAggregate} {w : World}

theorem exists_of_perm_map {α β : Type} {f : α → β} {m : List β} {l : List α}
    (h : m.Perm (l.map f)) : ∃ l' : List α, l'.Perm l ∧ l'.map f = m := by
  obtain ⟨l', hmap, hperm⟩ := (congrFun₂ (List.eq_map_comp_perm f) m l).mpr h
  exact ⟨l', hperm, hmap.symm⟩

/-- The row of the order, its items and its address; the version aside. -/
structure Recorded (rows : Rows) (order : OrderAggregate) : Prop where
  row : { rows.order with version := 1 } = toOrderRow order
  items : rows.items.Perm (order.items.map toItemRow)
  address : rows.address = toAddressRow order.shippingAddress

/-- What is read of an order that is recorded. -/
def readBack (hc : isValidCurrencyCode order.currency = true) (version : ℕ)
    (items : List OrderLine) (history : List OrderEvent) : OrderAggregate :=
  { order with
    version := version
    items := items.map (inOrderCurrency order.currency hc)
    history := history
    totals := order.totals.map fun totals => toTotals (toTotalsJson totals) }

variable {history : List OrderEvent} {call : Call} {w' : World}

theorem toDomain_recorded {rows : Rows} (h : Recorded rows order)
    (hc : isValidCurrencyCode order.currency = true) {items : List OrderLine} (hne : history ≠ []) :
    toDomain rows.order (items.map toItemRow) (history.map toEventRow) rows.address =
      .ok (readBack hc rows.order.version items history) := by
  obtain ⟨row, hrow⟩ : ∃ row : OrderRow, row = rows.order := ⟨_, rfl⟩
  have hfields := h.row
  rw [← hrow] at hfields ⊢
  cases row
  simp only [toOrderRow, OrderRow.mk.injEq] at hfields
  obtain ⟨rfl, rfl, rfl, rfl, rfl, rfl, rfl, rfl, rfl, -⟩ := hfields
  have hnumber : OrderNumber.create order.orderNumber.value = .ok order.orderNumber := by
    simp [OrderNumber.create, Guard.againstEmpty, order.orderNumber.notEmpty, Except.map]
  have hnonempty : history.isEmpty = false := by simpa using hne
  simp only [toDomain, mapM_written fun item _ => toItem_toItemRow hc item, ok_bind,
    mapM_written fun event _ => toEvent_toEventRow event,
    List.map_id', idFrom_value, hnumber, must_ok, h.address, toAddress_toAddressRow, toBilling_map,
    hnonempty, Bool.false_eq_true, if_false, Option.map_map]
  rfl

theorem finds_recorded {rows : Rows} (h : Recorded rows order)
    (hc : isValidCurrencyCode order.currency = true)
    (hevents : rows.events = history.map toEventRow) (hne : history ≠ [])
    {answer : Except String OrderAggregate} : Finds rows answer ↔
      ∃ items history', items.Perm order.items ∧ history'.Perm history ∧
        history'.Pairwise (fun a b => a.occurredAt ≤ b.occurredAt) ∧
        answer = .ok (readBack hc rows.order.version items history') := by
  constructor
  · rintro ⟨itemRows, eventRows, hitems, hrows, hsorted, rfl⟩
    obtain ⟨items, hperm, rfl⟩ := exists_of_perm_map (hitems.trans h.items)
    rw [hevents] at hrows
    obtain ⟨history', hperm', rfl⟩ := exists_of_perm_map hrows
    have hne' : history' ≠ [] := by
      rintro rfl
      exact hne hperm'.symm.eq_nil
    refine ⟨items, history', hperm, hperm', ?_, toDomain_recorded h hc hne'⟩
    rw [List.pairwise_map] at hsorted
    exact hsorted
  · rintro ⟨items, history', hperm, hperm', hsorted, rfl⟩
    have hne' : history' ≠ [] := by
      rintro rfl
      exact hne hperm'.symm.eq_nil
    refine ⟨items.map toItemRow, history'.map toEventRow, (hperm.map _).trans h.items.symm, ?_, ?_,
      (toDomain_recorded h hc hne').symm⟩
    · rw [hevents]
      exact hperm'.map _
    · rw [List.pairwise_map]
      exact hsorted

theorem readBack_same (hc : isValidCurrencyCode order.currency = true) {version : ℕ}
    {items : List OrderLine} (hitems : items.Perm order.items) (hone : InOneCurrency order) :
    SameOrder (readBack hc version items order.history) order where
  id := rfl
  orderNumber := rfl
  customerRef := rfl
  currency := rfl
  history := rfl
  status := rfl
  paymentStatus := rfl
  shippingAddress := rfl
  billingAddress := rfl
  totals := by
    simp only [readBack, Option.map_map]
    exact Option.map_congr fun totals _ => shown_toTotals totals
  checkoutRef := rfl
  paymentRef := rfl
  fulfillmentRef := rfl
  items := by
    have hsame : order.items.map (inOrderCurrency order.currency hc) = order.items :=
      (List.map_congr_left fun line hline => inOrderCurrency_self (hone line hline)).trans
        (List.map_id' _)
    have hperm := hitems.map (inOrderCurrency order.currency hc)
    rw [hsame] at hperm
    exact hperm

/-- What holds of the rows as long as all goes well. -/
structure Kept (w : World) : Prop where
  currency : isValidCurrencyCode w.saved.currency = true
  one : InOneCurrency w.saved
  recorded : Recorded w.rows w.saved
  events : w.rows.events = w.saved.history.map toEventRow
  nonempty : w.saved.history ≠ []
  increasing : w.saved.history.Pairwise fun a b => a.occurredAt < b.occurredAt
  clock : ∀ event ∈ w.saved.history, event.occurredAt ≤ w.clock

theorem eq_of_increasing {history' : List OrderEvent} (hperm : history'.Perm history)
    (hincreasing : history.Pairwise fun a b => a.occurredAt < b.occurredAt)
    (hsorted : history'.Pairwise fun a b => a.occurredAt ≤ b.occurredAt) : history' = history := by
  have hnodup : (history.map (·.occurredAt)).Nodup := by
    rw [List.Nodup, List.pairwise_map]
    exact hincreasing.imp fun h => h.ne
  refine List.Perm.eq_of_pairwise ?_ hsorted (hincreasing.imp fun h => h.le) hperm
  intro a b ha hb hab hba
  exact List.inj_on_of_nodup_map hnodup (hperm.mem_iff.mp ha) hb (le_antisymm hab hba)

theorem Kept.survives (h : Kept w) : Survives w := by
  intro answer hanswer
  obtain ⟨items, history, hitems, hperm, hsorted, rfl⟩ :=
    (finds_recorded h.recorded h.currency h.events h.nonempty).mp hanswer
  rw [eq_of_increasing hperm h.increasing hsorted]
  exact ⟨_, rfl, readBack_same h.currency hitems h.one⟩

theorem Kept.loaded (h : Kept w) {loaded : OrderAggregate} (hf : Finds w.rows (.ok loaded)) :
    ∃ items, items.Perm w.saved.items ∧
      loaded = readBack h.currency w.rows.order.version items w.saved.history := by
  obtain ⟨items, history, hitems, hperm, hsorted, hloaded⟩ :=
    (finds_recorded h.recorded h.currency h.events h.nonempty).mp hf
  rw [eq_of_increasing hperm h.increasing hsorted] at hloaded
  exact ⟨items, hitems, Except.ok.inj hloaded⟩

theorem insertEvents_present {elsewhere : List String} {table rows rest : List OrderEventRow}
    (h : ∀ row ∈ rows, row.id ∈ table.map (·.id)) :
    insertEvents elsewhere table (rows ++ rest) = insertEvents elsewhere table rest := by
  induction rows with
  | nil => rfl
  | cons row rows ih =>
    rw [List.cons_append, insertEvents, if_pos (.inl (h row List.mem_cons_self))]
    exact ih fun row hrow => h row (List.mem_cons_of_mem _ hrow)

theorem insertEvents_append (elsewhere : List String) (history : List OrderEvent)
    (event : OrderEvent) : insertEvents elsewhere (history.map toEventRow)
      ((history ++ [event]).map toEventRow) =
        if event.id.value ∈ (history.map toEventRow).map (·.id) ∨ event.id.value ∈ elsewhere then
          history.map toEventRow
        else (history ++ [event]).map toEventRow := by
  rw [List.map_append, insertEvents_present fun row hrow => List.mem_map.mpr ⟨row, hrow, rfl⟩]
  simp only [List.map_cons, List.map_nil, insertEvents, toEventRow]

/-- What a call that comes through leaves. -/
theorem Kept.next (h : Kept w) (hs : Step w call w') {order : OrderAggregate}
    (hp : call.loaded.perform call.act = .ok order) :
    ∃ id type, id.value = call.act.eventId ∧ w'.saved = order ∧
      w'.clock = call.act.occurredAt ∧
      order.history = w.saved.history ++ [⟨id, type, call.act.occurredAt⟩] ∧
      isValidCurrencyCode order.currency = true ∧ InOneCurrency order ∧
      Recorded w'.rows order ∧ w'.rows.events = insertEvents call.elsewhere
        (w.saved.history.map toEventRow) (order.history.map toEventRow) := by
  obtain ⟨hfinds, _, hs⟩ := hs
  rw [hp] at hs
  obtain ⟨rows, hsaved, rfl⟩ := hs
  obtain ⟨items, hitems, hloaded⟩ := h.loaded hfinds
  obtain ⟨id, type, changed, hid, hhistory, rfl, _⟩ := perform_ok hp
  rw [hloaded] at hhistory hsaved hp ⊢
  have hlines : (items.map (inOrderCurrency w.saved.currency h.currency)) = items :=
    (List.map_congr_left fun line hline =>
      inOrderCurrency_self (h.one line (hitems.mem_iff.mp hline))).trans (List.map_id' _)
  rw [saved] at hsaved
  split at hsaved
  · cases hsaved
    refine ⟨id, type, hid, rfl, rfl, hhistory, h.currency, ?_, ⟨?_, ?_, h.recorded.address⟩, ?_⟩
    · intro line hline
      change line ∈ items.map _ at hline
      rw [hlines] at hline
      exact h.one line (hitems.mem_iff.mp hline)
    · have hrow := h.recorded.row
      generalize w.rows.order = row at hrow ⊢
      cases row
      simp only [toOrderRow, OrderRow.mk.injEq] at hrow
      obtain ⟨rfl, rfl, rfl, rfl, rfl, rfl, rfl, rfl, rfl, -⟩ := hrow
      rfl
    · change w.rows.items.Perm ((items.map _).map toItemRow)
      rw [hlines]
      exact h.recorded.items.trans (hitems.symm.map _)
    · simp only [h.events]
  · cases hsaved

theorem kept_step (h : Kept w) (hs : Step w call w') (ht : Timely w call) : Kept w' := by
  cases hp : call.loaded.perform call.act with
  | error e =>
    obtain ⟨_, hclock, hs⟩ := hs
    rw [hp] at hs
    subst hs
    exact ⟨h.currency, h.one, h.recorded, h.events, h.nonempty, h.increasing,
      fun event hevent => (h.clock event hevent).trans hclock⟩
  | ok order =>
    obtain ⟨hlater, hnew, helsewhere⟩ := ht ⟨order, hp⟩
    obtain ⟨id, type, hid, rfl, hclock, hhistory, hc, hone, hrecorded, hevents⟩ := h.next hs hp
    rw [h.events] at hlater hnew
    have hfresh : ¬ (id.value ∈ (w.saved.history.map toEventRow).map (·.id) ∨
        id.value ∈ call.elsewhere) := by
      rw [hid, not_or]
      exact ⟨hnew, helsewhere⟩
    rw [hhistory, insertEvents_append, if_neg hfresh] at hevents
    have hbefore : ∀ event ∈ w.saved.history, event.occurredAt < call.act.occurredAt :=
      fun event hevent => hlater _ (List.mem_map.mpr ⟨event, hevent, rfl⟩)
    refine ⟨hc, hone, hrecorded, by rw [hevents, hhistory], by simp [hhistory], ?_, ?_⟩
    · rw [hhistory, List.pairwise_append]
      refine ⟨h.increasing, List.pairwise_singleton _ _, ?_⟩
      intro a ha b hb
      rw [List.mem_singleton.mp hb]
      exact hbefore a ha
    · intro event hevent
      rw [hhistory] at hevent
      rw [hclock]
      rcases List.mem_append.mp hevent with hold | hlast
      · exact (hbefore event hold).le
      · rw [List.mem_singleton.mp hlast]

/-- Any other loses the last entry or lets the database answer it too early. -/
theorem broken_step (h : Kept w) (hs : Step w call w') (ht : ¬ Timely w call) : ¬ Survives w' := by
  intro hsurvives
  rw [Timely, Classical.not_imp] at ht
  obtain ⟨⟨order, hp⟩, ht⟩ := ht
  obtain ⟨id, type, hid, rfl, hclock, hhistory, hc, hone, hrecorded, hevents⟩ := h.next hs hp
  rw [hhistory, insertEvents_append] at hevents
  by_cases htaken : id.value ∈ (w.saved.history.map toEventRow).map (·.id) ∨
      id.value ∈ call.elsewhere
  · -- the new entry was not inserted
    rw [if_pos htaken] at hevents
    obtain ⟨found, hfound, hsame⟩ := hsurvives _ ((finds_recorded hrecorded hc hevents
      h.nonempty).mpr ⟨_, _, List.Perm.refl _, List.Perm.refl _, h.increasing.imp fun h => h.le,
        rfl⟩)
    cases hfound
    have hlength := congrArg List.length (hsame.history.trans hhistory)
    simp [readBack] at hlength
  · -- some entry bears the same time
    rw [if_neg htaken] at hevents
    rw [← hid] at ht
    rw [h.events] at ht
    have htie : ¬ ∀ row ∈ w.saved.history.map toEventRow, row.occurredAt < call.act.occurredAt :=
      fun hall => ht ⟨hall, not_or.mp htaken⟩
    obtain ⟨front, last, hlast⟩ : ∃ front last, w.saved.history = front ++ [last] :=
      ⟨_, _, (List.dropLast_append_getLast h.nonempty).symm⟩
    have hincreasing := h.increasing
    rw [hlast, List.pairwise_append] at hincreasing
    have hsametime : last.occurredAt = call.act.occurredAt := by
      apply le_antisymm
      · exact (h.clock last (by simp [hlast])).trans hs.2.1
      · by_contra hlt
        apply htie
        intro row hrow
        obtain ⟨event, hevent, rfl⟩ := List.mem_map.mp hrow
        rw [hlast] at hevent
        have hle : event.occurredAt ≤ last.occurredAt := by
          rcases List.mem_append.mp hevent with hfront | hend
          · exact (hincreasing.2.2 event hfront last List.mem_cons_self).le
          · rw [List.mem_singleton.mp hend]
        exact lt_of_le_of_lt hle (lt_of_not_ge hlt)
    let event : OrderEvent := ⟨id, type, call.act.occurredAt⟩
    have hswapped : (front ++ [event, last]).Perm (w.saved.history ++ [event]) := by
      rw [hlast, List.append_assoc]
      exact (List.Perm.swap last event []).append_left front
    have hsorted : (front ++ [event, last]).Pairwise fun a b => a.occurredAt ≤ b.occurredAt := by
      rw [List.pairwise_append]
      refine ⟨hincreasing.1.imp fun h => h.le, ?_, ?_⟩
      · exact List.pairwise_pair.mpr hsametime.ge
      · intro a ha b hb
        have hbefore := (hincreasing.2.2 a ha last List.mem_cons_self).le
        rcases List.mem_cons.mp hb with rfl | hb
        · exact hbefore.trans hsametime.le
        · rw [List.mem_singleton.mp hb]
          exact hbefore
    obtain ⟨found, hfound, hsame⟩ := hsurvives _ ((finds_recorded hrecorded hc hevents
      (by simp)).mpr ⟨_, _, List.Perm.refl _, hswapped, hsorted, rfl⟩)
    cases hfound
    have hlists := hsame.history.trans hhistory
    simp only [readBack, hlast, List.append_assoc, List.append_cancel_left_eq, List.cons_append,
      List.nil_append, List.cons.injEq, and_true] at hlists
    -- the two entries differ in their ids
    apply htaken
    refine .inl (List.mem_map.mpr ⟨toEventRow last, List.mem_map.mpr ⟨last, ?_, rfl⟩, ?_⟩)
    · rw [hlast]
      exact List.mem_append_right _ List.mem_cons_self
    · rw [← hlists.1]
      rfl

end Rows

/-- The order is new, placed or created from a checkout. -/
def Opens (order : OrderAggregate) (occurredAt : ℤ) : Prop :=
  (∃ new eventId, place new eventId occurredAt = .ok order) ∨
    ∃ new checkout eventId, createFromCheckout new checkout eventId occurredAt = .ok order

/-- The world after a new order was saved. -/
def opened (order : OrderAggregate) (occurredAt : ℤ) : World :=
  ⟨created order, order, occurredAt⟩

section Runs

variable {order : OrderAggregate} {occurredAt : ℤ}

theorem built_history {start built : Order} {type : OrderEventType} {eventId : String}
    {rest : Unit → Method} (hempty : start.history = []) (hrest : ∀ u, Relates Quiet (rest u))
    (h : Order.built start (Order.record type eventId occurredAt >>= rest) = .ok built) :
    ∃ id type, built.history = [⟨id, type, occurredAt⟩] ∧ built.currency = start.currency := by
  have ha : Relates (Appends eventId occurredAt)
      (Order.record type eventId occurredAt >>= rest) :=
    .bind (record_appends type) hrest Appends.then
  rw [Order.built] at h
  cases hrun : (Order.record type eventId occurredAt >>= rest) start with
  | error e t =>
    rw [hrun] at h
    cases h
  | ok u t =>
    rw [hrun] at h
    cases h
    obtain ⟨⟨id, type, _, hhistory⟩, hquiet⟩ := ha _ _ _ hrun
    exact ⟨id, type, by rw [hhistory, hempty, List.nil_append], hquiet.currency⟩

theorem opened_ok {orderNumber customerRef currency : String} {items : List OrderItem}
    {start : Order} (h : Order.opened orderNumber customerRef currency items = .ok start) :
    isValidCurrencyCode start.currency = true ∧ start.currency = currency ∧
      start.history = [] := by
  simp only [Order.opened] at h
  split at h
  · cases h
  split at h
  · cases h
  rename_i hvalid
  cases h
  exact ⟨by simpa using hvalid, rfl, rfl⟩

theorem Opens.spec (h : Opens order occurredAt) : isValidCurrencyCode order.currency = true ∧
    ∃ id type, order.history = [⟨id, type, occurredAt⟩] := by
  rcases h with ⟨new, eventId, h⟩ | ⟨new, checkout, eventId, h⟩
  · obtain ⟨built, hbuilt, rfl⟩ := map_eq_ok.mp h
    obtain ⟨start, hstart, hbuilt⟩ := bind_eq_ok.mp hbuilt
    obtain ⟨hvalid, hcurrency, hempty⟩ := opened_ok hstart
    obtain ⟨id, type, hhistory, _⟩ := built_history hempty
      (fun _ => quiet_of_total fun order total => addDomainEvent_quiet _) hbuilt
    rw [hcurrency] at hvalid
    exact ⟨hvalid, id, type, hhistory⟩
  · obtain ⟨built, hbuilt, rfl⟩ := map_eq_ok.mp h
    obtain ⟨start, hstart, hbuilt⟩ := bind_eq_ok.mp hbuilt
    obtain ⟨hvalid, hcurrency, hempty⟩ := opened_ok hstart
    have hdraft : ({ start with
        totals := some ⟨checkout.totals.totalMinor, checkout.totals.currency⟩
        checkoutRef := some checkout.checkoutRef } : Order).history = [] := hempty
    obtain ⟨id, type, hhistory, _⟩ := built_history hdraft (fun _ => addDomainEvent_quiet _) hbuilt
    rw [hcurrency] at hvalid
    exact ⟨hvalid, id, type, hhistory⟩

theorem created_recorded (order : OrderAggregate) : Recorded (created order) order :=
  ⟨rfl, List.Perm.refl _, rfl⟩

theorem opened_kept (h : Opens order occurredAt) (hone : InOneCurrency order) :
    Kept (opened order occurredAt) := by
  obtain ⟨hc, id, type, hhistory⟩ := h.spec
  refine ⟨hc, hone, created_recorded order, rfl, by simp [opened, hhistory], ?_, ?_⟩
  · rw [opened, hhistory]
    exact List.pairwise_singleton _ _
  · intro event hevent
    rw [opened, hhistory] at hevent
    rw [List.mem_singleton.mp hevent]
    exact le_rfl

theorem opened_survives (h : Opens order occurredAt) :
    Survives (opened order occurredAt) ↔ InOneCurrency order := by
  obtain ⟨hc, id, type, hhistory⟩ := h.spec
  have hne : order.history ≠ [] := by simp [hhistory]
  constructor
  · intro hs line hline
    have hsorted : order.history.Pairwise fun a b => a.occurredAt ≤ b.occurredAt := by
      rw [hhistory]
      exact List.pairwise_singleton _ _
    obtain ⟨found, hfound, hsame⟩ := hs _ ((finds_recorded (created_recorded order) hc rfl hne).mpr
      ⟨_, _, List.Perm.refl _, List.Perm.refl _, hsorted, rfl⟩)
    cases hfound
    obtain ⟨stored, _, hstored⟩ := List.mem_map.mp (hsame.items.mem_iff.mpr hline)
    rw [← hstored]
    rfl
  · exact fun hone => (opened_kept h hone).survives

/-- An order survives storage, from its creation on and whatever is done to it, exactly when its
items are priced in its currency and every operation that comes through is timely. -/
theorem run_survives (h : Opens order occurredAt) {tr : List (Call × World)}
    (hr : Run Step (opened order occurredAt) tr) :
    Always Survives (opened order occurredAt) tr ↔
      InOneCurrency order ∧ EveryStep Timely (opened order occurredAt) tr := by
  constructor
  · intro ha
    have hone := (opened_survives h).mp ha.head
    refine ⟨hone, (always_iff_everyStep (I := Kept) ?_ ?_ ?_ (opened_kept h hone) hr).mp ha⟩
    · exact fun w call w' hk hs ht => kept_step hk hs ht
    · exact fun w hk => hk.survives
    · exact fun w call w' hk hs ht => broken_step hk hs ht
  · rintro ⟨hone, hsteps⟩
    have hk : Always Kept (opened order occurredAt) tr := by
      refine always_of_everyStep ?_ (opened_kept h hone) hr hsteps
      exact fun w call w' hk hs ht => kept_step hk hs ht
    exact hk.mono fun w hk => hk.survives

end Runs

/-! An order that is placed and then paid. -/

theorem one_named : isBlank "1001" = false := by decide

theorem placing_named : isBlank "placing" = false := by decide

theorem paying_named : isBlank "paying" = false := by decide

theorem street_filled : isBlank "1 Main Street" = false ∧ isBlank "Paris" = false ∧
    isBlank "FR" = false := by decide

theorem tea_filled : isBlank "leaf" = false ∧ isBlank "Tea" = false := by decide

def sampleAddress : AddressSnapshot :=
  ⟨"1 Main Street", "Paris", "75001", "FR", ⟨none, none, none, none⟩, street_filled⟩

def sampleNew : NewOrder where
  id := ⟨"1001", one_named⟩
  orderNumber := ⟨"1001", one_named⟩
  customerRef := "customer"
  currency := "USD"
  items := [⟨⟨"1001", one_named⟩, ⟨"leaf", "Tea", ⟨500, "USD", usd_valid⟩, none, tea_filled⟩, 1⟩]
  shippingAddress := sampleAddress

def placedEvent : OrderEvent := ⟨⟨"placing", placing_named⟩, .placed, 0⟩

def paidEvent (occurredAt : ℤ) : OrderEvent := ⟨⟨"paying", paying_named⟩, .paid, occurredAt⟩

/-- The order in memory, or as it is read at a version. -/
def sampleOrder (version : ℕ) (history : List OrderEvent) : OrderAggregate where
  id := ⟨"1001", one_named⟩
  version := version
  orderNumber := ⟨"1001", one_named⟩
  customerRef := "customer"
  currency := "USD"
  items := sampleNew.items
  shippingAddress := sampleAddress
  history := history
  billingAddress := none
  totals := none
  checkoutRef := none
  paymentRef := none
  fulfillmentRef := none

theorem sample_opens : Opens (sampleOrder 0 [placedEvent]) 0 :=
  .inl ⟨sampleNew, "placing", by decide +kernel⟩

/-- The payment is recorded at a time of its own, or at that of the placement. -/
def payingCall (occurredAt : ℤ) : Call :=
  ⟨sampleOrder 1 [placedEvent], ⟨.markPaid "payment", "paying", occurredAt⟩, []⟩

def paidWorld (occurredAt : ℤ) : World where
  rows := { created (sampleOrder 0 [placedEvent, paidEvent occurredAt]) with
    order := { toOrderRow (sampleOrder 0 [placedEvent]) with version := 2 } }
  saved := sampleOrder 1 [placedEvent, paidEvent occurredAt]
  clock := occurredAt

theorem sample_found : Finds (created (sampleOrder 0 [placedEvent]))
    (.ok (sampleOrder 1 [placedEvent])) :=
  ⟨_, _, List.Perm.refl _, List.Perm.refl _, List.pairwise_singleton _ _, by decide +kernel⟩

theorem paying_performed : ∀ occurredAt ∈ [0, 1],
    (sampleOrder 1 [placedEvent]).perform ⟨.markPaid "payment", "paying", occurredAt⟩ =
      .ok (sampleOrder 1 [placedEvent, paidEvent occurredAt]) := by
  decide +kernel

theorem paying_saved : ∀ occurredAt ∈ [0, 1],
    saved [] (sampleOrder 1 [placedEvent, paidEvent occurredAt])
      (created (sampleOrder 0 [placedEvent])) = some (paidWorld occurredAt).rows := by
  decide +kernel

theorem paying_step (occurredAt : ℤ) (h : occurredAt ∈ [0, 1]) :
    Step (opened (sampleOrder 0 [placedEvent]) 0) (payingCall occurredAt)
      (paidWorld occurredAt) := by
  have hclock : 0 ≤ occurredAt := by
    rcases List.mem_cons.mp h with rfl | h
    · exact le_rfl
    · rw [List.mem_singleton.mp h]
      exact zero_le_one
  refine ⟨sample_found, hclock, ?_⟩
  rw [payingCall, paying_performed occurredAt h]
  exact ⟨_, paying_saved occurredAt h, rfl⟩

theorem sample_inOneCurrency : InOneCurrency (sampleOrder 0 [placedEvent]) := by
  intro line hline
  rw [List.mem_singleton.mp hline]
  rfl

theorem run_survives_paid : Always Survives (opened (sampleOrder 0 [placedEvent]) 0)
    [(payingCall 1, paidWorld 1)] := by
  have hrun : Run Step (opened (sampleOrder 0 [placedEvent]) 0) [(payingCall 1, paidWorld 1)] :=
    ⟨paying_step 1 (by decide), trivial⟩
  refine (run_survives sample_opens hrun).mpr ⟨sample_inOneCurrency, ?_, trivial⟩
  exact fun _ => by decide +kernel

theorem survival_fails : ¬ ∀ (order : OrderAggregate) (occurredAt : ℤ), Opens order occurredAt →
    ∀ tr, Run Step (opened order occurredAt) tr → Always Survives (opened order occurredAt) tr := by
  intro h
  have hstep := paying_step 0 (by decide)
  have hlast := (h _ _ sample_opens [(payingCall 0, paidWorld 0)] ⟨hstep, trivial⟩).2
  refine broken_step (opened_kept sample_opens sample_inOneCurrency) hstep ?_ hlast
  intro htimely
  obtain ⟨hlater, _⟩ := htimely ⟨_, paying_performed 0 (by decide)⟩
  exact absurd (hlater _ List.mem_cons_self) (by decide +kernel)

end OrdersStorage
