import Lumo.CheckoutFigures
import Lumo.LabelledRuns

/-! # What an order is charged

Calls are made on one stored session, one after the other. Besides the row, the state remembers
which tax calculation the session stores, and which session the last stored tax and the last
totals were made for. -/
namespace Checkout

open SharedKernel Builtins LabelledRuns CheckoutSessionMapper

structure CheckoutConfig where
  text : TextOps
  regions : Regions

inductive Operation where
  | loadItems (items : List LoadItemInput)
  | setBillingAddress (input : CheckoutAddressInput)
  | setShippingAddress (input : CheckoutAddressInput)
  | setContactEmail (email : String)
  | selectShipping (port : ShippingCalculationPort) (method : String)
  | selectPayment (enabledMethods : List String) (paymentMethodRef provider : String)
  | addDiscountCode (code : String) (now : ℤ) (promotionValidation : PromotionValidationPort)
      (taxCalculation : Option TaxCalculationPort)
  | removeDiscountCode (code : String) (promotionValidation : PromotionValidationPort)
      (taxCalculation : Option TaxCalculationPort)
  | requestTaxCalculation (taxCalculation : TaxCalculationPort)
      (promotionValidation : Option PromotionValidationPort)
  | recalculateTotals (promotionValidation : Option PromotionValidationPort)
      (taxCalculation : Option TaxCalculationPort)
  | validatePromotion (promotionValidation : PromotionValidationPort)
      (promotionRef : Option String)
  | lock
  | expireCheckout
  | failCheckout (reason : String)
  | completeCheckout (deps : CompleteCheckoutDeps) (idempotencyKey : String)
  | initiatePayment (paymentInitiation : PaymentInitiationPort)

def Outcome.effects {α : Type} (out : Outcome α) : Outcome Unit :=
  ⟨out.answer.map fun _ => (), out.saved, out.placed, out.initiated⟩

def Operation.perform (config : CheckoutConfig) (session : CheckoutSession) :
    Operation → Outcome Unit
  | .loadItems items => (Checkout.loadItems items session).effects
  | .setBillingAddress input =>
    (Checkout.setBillingAddress config.regions input session).effects
  | .setShippingAddress input =>
    (Checkout.setShippingAddress config.regions input session).effects
  | .setContactEmail email => (Checkout.setContactEmail config.text email session).effects
  | .selectShipping port method => (Checkout.selectShipping port method session).effects
  | .selectPayment enabledMethods paymentMethodRef provider =>
    (Checkout.selectPayment enabledMethods paymentMethodRef provider session).effects
  | .addDiscountCode code now promotionValidation taxCalculation =>
    (Checkout.addDiscountCode config.text code now promotionValidation taxCalculation
      session).effects
  | .removeDiscountCode code promotionValidation taxCalculation =>
    (Checkout.removeDiscountCode config.text code promotionValidation taxCalculation
      session).effects
  | .requestTaxCalculation taxCalculation promotionValidation =>
    (Checkout.requestTaxCalculation taxCalculation promotionValidation session).effects
  | .recalculateTotals promotionValidation taxCalculation =>
    (Checkout.recalculateTotals promotionValidation taxCalculation session).effects
  | .validatePromotion promotionValidation promotionRef =>
    (Checkout.validatePromotion promotionValidation promotionRef session).effects
  | .lock => (Checkout.lock session).effects
  | .expireCheckout => (Checkout.expireCheckout session).effects
  | .failCheckout reason => (Checkout.failCheckout reason session).effects
  | .completeCheckout deps idempotencyKey =>
    (Checkout.completeCheckout deps idempotencyKey session).effects
  | .initiatePayment paymentInitiation =>
    (Checkout.initiatePayment paymentInitiation session).effects

/-- A call may lose what it would save to a concurrent one; what it asked of others stays. -/
structure Call where
  operation : Operation
  committed : Bool

structure Sale where
  order : PlacedOrder
  tax : Option TaxCalculation

structure Till where
  row : CheckoutSessionRow
  /-- The tax calculations whose answers were stored, the last one last. -/
  calculations : List TaxCalculation
  /-- The session as the last call that stored a tax left it. -/
  taxedAt : Option CheckoutSession
  /-- The session as the last call that assembled its totals left it. -/
  assembledAt : Option CheckoutSession
  sales : List Sale
  payments : List PaymentInitiation

namespace Till

def store (w : Till) (work : Work) : Till :=
  { w with
    row := toRow work.session
    calculations := w.calculations ++ work.calculations
    taxedAt := if work.calculations = [] then w.taxedAt else some work.session
    assembledAt := if work.session.recalculated = [] then w.assembledAt else some work.session }

/-- Orders and payments that were asked for stay so, whatever becomes of the session. -/
def record (w : Till) (out : Outcome Unit) : Till :=
  { w with
    sales := w.sales ++ (out.placed.map fun order => ⟨order, w.calculations.getLast?⟩).toList
    payments := w.payments ++ out.initiated.toList }

def settle (w : Till) (committed : Bool) (out : Outcome Unit) : Till :=
  match committed, out.saved with
  | true, some work => (w.record out).store work
  | _, _ => w.record out

end Till

section Runs

variable (config : CheckoutConfig)

def next (w : Till) (call : Call) : Till :=
  match toDomain config.text w.row with
  | .error _ => w
  | .ok session => w.settle call.committed (call.operation.perform config session)

def Step (w : Till) (call : Call) (w' : Till) : Prop := w' = next config w call

/-- A session that has just been started. -/
def Started (w : Till) : Prop :=
  ∃ cartRef customerRef currency, w =
    ⟨toRow (CheckoutSession.start cartRef customerRef currency), [], none, none, [], []⟩

def trace (w : Till) (calls : List Call) : List (Call × Till) := follow (next config) w calls

theorem run_trace (w : Till) (calls : List Call) : Run (Step config) w (trace config w calls) := by
  apply run_follow
  intro w call
  rfl

end Runs

/-- The order is charged with the totals of the session it was drafted from, and with a tax that
was worked out for exactly the items, the destination, the shipping and the discounts of it. -/
def Sale.RightlyCharged (sale : Sale) : Prop :=
  ∃ tax, sale.tax = some tax ∧ sale.order.session.taxRequest = some tax.request ∧
    sale.order.draft.totals =
      sale.order.session.totalsWith tax.result.taxMinor tax.result.included

instance (sale : Sale) : Decidable sale.RightlyCharged :=
  decidable_of_iff (sale.tax.any fun tax =>
      decide (sale.order.session.taxRequest = some tax.request ∧ sale.order.draft.totals =
        sale.order.session.totalsWith tax.result.taxMinor tax.result.included))
    (by simp only [Option.any_eq_true, decide_eq_true_eq, Sale.RightlyCharged])

def Sale.Charges (sale : Sale) (orderRef : String) (amountMinor : ℤ) (currency : String) : Prop :=
  sale.order.orderRef = orderRef ∧ sale.order.draft.totals.totalMinor = amountMinor ∧
    sale.order.draft.totals.currency = currency

/-- Orders and payment requests say what their session shows. -/
structure ChargesWhatItShows (config : CheckoutConfig) (w : Till) : Prop where
  orders : ∀ sale ∈ w.sales, sale.RightlyCharged
  payments : ∀ request ∈ w.payments, ∃ sale ∈ w.sales,
    sale.Charges request.orderRef request.amountMinor request.currency
  requests : ∀ session orderRef request, toDomain config.text w.row = .ok session →
    session.orderRef = some orderRef → session.generatePaymentIntentRequest = .ok request →
    ∃ sale ∈ w.sales, sale.Charges orderRef request.amountMinor request.currency

structure CopiedFigures where
  shippingMinor : ℤ
  shippingName : Option String
  discountMinor : ℤ
  shippingDiscountMinor : ℤ
  deriving DecidableEq

def CheckoutTotals.copied (totals : CheckoutTotals) : CopiedFigures :=
  ⟨totals.shippingMinor, totals.shippingName, totals.discountMinor, totals.shippingDiscountMinor⟩

def CheckoutSession.copied (session : CheckoutSession) : CopiedFigures :=
  ⟨session.shippingMinor, session.shippingName, session.orderDiscount,
    cappedShippingDiscount session.shippingDiscount session.shippingMinor⟩

/-- The last tax was stored for what the session holds, and the totals were last assembled with
its shipping and its discounts. -/
def UpToDate (w : Till) (session : CheckoutSession) : Prop :=
  (∃ past, w.taxedAt = some past ∧ past.taxRequest = session.taxRequest) ∧
    ∃ past, w.assembledAt = some past ∧ past.copied = session.copied

instance (w : Till) (session : CheckoutSession) : Decidable (UpToDate w session) :=
  decidable_of_iff ((w.taxedAt.any fun past => decide (past.taxRequest = session.taxRequest)) ∧
      w.assembledAt.any fun past => decide (past.copied = session.copied))
    (by simp only [Option.any_eq_true, decide_eq_true_eq, UpToDate])

/-- The call creates an order from a session that is not up to date. -/
def OrdersOutdated (config : CheckoutConfig) (w : Till) (call : Call) : Prop :=
  ∃ session, toDomain config.text w.row = .ok session ∧
    (call.operation.perform config session).placed.isSome = true ∧ ¬ UpToDate w session

theorem Sound.effects {α : Type} {loaded : CheckoutSession} {out : Outcome α}
    (h : Sound loaded out) : Sound loaded out.effects := ⟨h.saved, h.placed, h.initiated⟩

theorem Plain.effects {α : Type} {loaded : CheckoutSession} {out : Outcome α}
    (h : Plain loaded out) : Plain loaded out.effects := ⟨h.toSound.effects, h.keepsEntry⟩

/-- Discount codes are entered or taken off. -/
def Operation.editsCodes : Operation → Bool
  | .addDiscountCode .. | .removeDiscountCode .. => true
  | _ => false

theorem Operation.perform_plain (config : CheckoutConfig) {loaded : CheckoutSession}
    (hloaded : loaded.recalculated = []) (operation : Operation)
    (h : operation.editsCodes = false) : Plain loaded (operation.perform config loaded) := by
  cases operation with
  | loadItems items => exact (loadItems_plain hloaded items).effects
  | setBillingAddress input => exact (setBillingAddress_plain hloaded input).effects
  | setShippingAddress input => exact (setShippingAddress_plain hloaded input).effects
  | setContactEmail email => exact (setContactEmail_plain hloaded email).effects
  | selectShipping port method => exact (selectShipping_plain hloaded port method).effects
  | selectPayment enabledMethods paymentMethodRef provider =>
    exact (selectPayment_plain hloaded enabledMethods paymentMethodRef provider).effects
  | addDiscountCode code now promotionValidation taxCalculation => cases h
  | removeDiscountCode code promotionValidation taxCalculation => cases h
  | requestTaxCalculation taxCalculation promotionValidation =>
    exact (requestTaxCalculation_plain hloaded taxCalculation promotionValidation).effects
  | recalculateTotals promotionValidation taxCalculation =>
    exact (recalculateTotals_plain promotionValidation taxCalculation).effects
  | validatePromotion promotionValidation promotionRef =>
    exact (validatePromotion_plain hloaded promotionValidation promotionRef).effects
  | lock => exact (lock_plain hloaded).effects
  | expireCheckout => exact (expireCheckout_plain hloaded).effects
  | failCheckout reason => exact (failCheckout_plain hloaded reason).effects
  | completeCheckout deps idempotencyKey =>
    exact (completeCheckout_plain hloaded deps idempotencyKey).effects
  | initiatePayment paymentInitiation =>
    exact (initiatePayment_plain hloaded paymentInitiation).effects

theorem Operation.perform_sound (config : CheckoutConfig) {loaded : CheckoutSession}
    (hloaded : loaded.recalculated = []) (operation : Operation) :
    Sound loaded (operation.perform config loaded) := by
  cases operation with
  | addDiscountCode code now promotionValidation taxCalculation =>
    exact (addDiscountCode_sound hloaded code now promotionValidation taxCalculation).effects
  | removeDiscountCode code promotionValidation taxCalculation =>
    exact (removeDiscountCode_sound hloaded code promotionValidation taxCalculation).effects
  | _ => exact (Operation.perform_plain config hloaded _ rfl).toSound

structure Tracks (w : Till) (session : CheckoutSession) : Prop where
  /-- The stored tax answers the last calculation; once there were items, so do the totals. -/
  tax : (w.calculations = [] ∧ w.taxedAt = none) ∨ ∃ calculation past,
    w.calculations.getLast? = some calculation ∧ w.taxedAt = some past ∧
    past.taxRequest = some calculation.request ∧
    session.taxMinor = some calculation.result.taxMinor ∧
    (past.items ≠ [] → ∃ totals, session.totals = some totals ∧
      totals.taxMinor = calculation.result.taxMinor ∧
      totals.taxIncluded = calculation.result.included)
  assembled : ∀ totals, session.totals = some totals → totals.currency = session.currency ∧
    ∃ past, w.assembledAt = some past ∧ totals.copied = past.copied
  /-- A session that belongs to an order is closed, and its totals are those of the order. -/
  ordered : ∀ orderRef, session.orderRef = some orderRef → session.state.isOpen = false ∧
    ∃ sale ∈ w.sales, sale.order.orderRef = orderRef ∧
      session.totals.map (·.reassemble session.items) = some sale.order.draft.totals

structure Rebuilt (session : CheckoutSession) : Prop where
  recalculated : session.recalculated = []
  taxIncluded : session.taxIncluded = session.totals.map (·.taxIncluded)
  totals : session.totals.map (·.reassemble session.items) = session.totals

theorem rebuilt_readBack (session : CheckoutSession) (contactEmail : Option ContactEmail) :
    Rebuilt (readBack session contactEmail) := by
  refine ⟨rfl, ?_, ?_⟩
  · cases h : session.totals with
    | none => simp [readBack, h]
    | some totals => simp [readBack, h, CheckoutTotals.reassemble, CheckoutTotals.assemble]
  · cases h : session.totals with
    | none | some totals => simp [readBack, h]

variable {session : CheckoutSession} {totals : CheckoutTotals} {w : Till} {work : Work}

theorem copied_reassemble {items : List CheckoutItem} (h : totals.copied = session.copied) :
    (totals.reassemble items).copied = session.copied := by
  simp only [CheckoutTotals.copied, CheckoutSession.copied, CopiedFigures.mk.injEq] at h ⊢
  obtain ⟨hshipping, hname, hdiscount, hcapped⟩ := h
  refine ⟨hshipping, hname, hdiscount, ?_⟩
  change cappedShippingDiscount totals.shippingDiscountMinor totals.shippingMinor = _
  rw [hcapped, hshipping, CheckoutTotals.cappedShippingDiscount_idem]

theorem Tracks.readBack {w : Till} {session : CheckoutSession} (ht : Tracks w session)
    (contactEmail : Option ContactEmail) : Tracks w (readBack session contactEmail) := by
  constructor
  · rcases ht.tax with hnone | ⟨calculation, past, hlast, hpast, hrequest, htax, htotals⟩
    · exact Or.inl hnone
    · refine Or.inr ⟨calculation, past, hlast, hpast, hrequest, htax, ?_⟩
      intro hitems
      obtain ⟨totals, hsome, htaxMinor, hincluded⟩ := htotals hitems
      refine ⟨totals.reassemble session.items, ?_, htaxMinor, hincluded⟩
      change session.totals.map _ = _
      rw [hsome, Option.map_some]
  · intro totals htotals
    obtain ⟨before, hbefore, rfl⟩ := Option.map_eq_some_iff.mp htotals
    obtain ⟨hcurrency, past, hpast, hcopied⟩ := ht.assembled before hbefore
    exact ⟨hcurrency, past, hpast, copied_reassemble hcopied⟩
  · intro orderRef horder
    obtain ⟨hclosed, sale, hsale, href, htotals⟩ := ht.ordered orderRef horder
    refine ⟨hclosed, sale, hsale, href, ?_⟩
    change (session.totals.map _).map _ = _
    rw [← htotals]
    cases session.totals with
    | none => rfl
    | some totals =>
      simp only [Option.map_some, CheckoutSessionMapper.readBack,
        CheckoutTotals.reassemble_reassemble]

theorem Tracks.record (ht : Tracks w session) (out : Outcome Unit) :
    Tracks (w.record out) session := by
  refine ⟨ht.tax, ht.assembled, ?_⟩
  intro orderRef horder
  obtain ⟨hclosed, sale, hsale, href, htotals⟩ := ht.ordered orderRef horder
  exact ⟨hclosed, sale, List.mem_append_left _ hsale, href, htotals⟩

/-- What is saved keeps the tax together with the calculation it answers. -/
theorem Tracks.store_tax {loaded : CheckoutSession} (ht : Tracks w loaded) (hr : Rebuilt loaded)
    (hf : Follows loaded work) :
    ((w.store work).calculations = [] ∧ (w.store work).taxedAt = none) ∨ ∃ calculation past,
      (w.store work).calculations.getLast? = some calculation ∧
      (w.store work).taxedAt = some past ∧ past.taxRequest = some calculation.request ∧
      work.session.taxMinor = some calculation.result.taxMinor ∧
      (past.items ≠ [] → ∃ totals, work.session.totals = some totals ∧
        totals.taxMinor = calculation.result.taxMinor ∧
        totals.taxIncluded = calculation.result.included) := by
  rcases hf.tax with ⟨hnone, htax, hincluded⟩ | ⟨calculation, hlast, hholds⟩
  · have hcalculations : (w.store work).calculations = w.calculations := by
      rw [Till.store, hnone, List.append_nil]
    have htaxedAt : (w.store work).taxedAt = w.taxedAt := if_pos hnone
    rw [hcalculations, htaxedAt]
    rcases ht.tax with hnothing | ⟨calculation, past, hlast, hpast, hrequest, hold, htotals⟩
    · exact Or.inl hnothing
    · refine Or.inr ⟨calculation, past, hlast, hpast, hrequest, htax.trans hold, ?_⟩
      intro hitems
      obtain ⟨totals, hsome, htaxMinor, htaxIncluded⟩ := htotals hitems
      rcases hf.totals with ⟨_, hsame⟩ | ⟨_, hnew⟩
      · exact ⟨totals, hsame.trans hsome, htaxMinor, htaxIncluded⟩
      · rw [htax, hold, hincluded, hr.taxIncluded, hsome] at hnew
        exact ⟨_, hnew, rfl, htaxIncluded⟩
  · have hne : work.calculations ≠ [] := by
      intro hnone
      rw [hnone] at hlast
      cases hlast
    refine Or.inr ⟨calculation, work.session, ?_, if_neg hne, hholds.request, hholds.taxMinor, ?_⟩
    · rw [Till.store, List.getLast?_append, hlast]
      rfl
    · intro hitems
      rcases hf.totals with ⟨hold, _⟩ | ⟨_, hnew⟩
      · exact absurd hold (hf.assembled hne hitems)
      · rw [hholds.taxMinor, hholds.taxIncluded] at hnew
        exact ⟨_, hnew, rfl, rfl⟩

theorem Tracks.store_assembled {loaded : CheckoutSession} (ht : Tracks w loaded)
    (hf : Follows loaded work) (h : work.session.totals = some totals) :
    totals.currency = work.session.currency ∧
      ∃ past, (w.store work).assembledAt = some past ∧ totals.copied = past.copied := by
  rcases hf.totals with ⟨hold, hsame⟩ | ⟨hrecalculated, hnew⟩
  · rw [hsame] at h
    have hassembledAt : (w.store work).assembledAt = w.assembledAt := if_pos hold
    rw [hassembledAt, hf.currency]
    exact ht.assembled totals h
  · rw [hnew] at h
    cases h
    exact ⟨rfl, work.session, if_neg hrecalculated, rfl⟩

theorem Tracks.store_ordered {loaded : CheckoutSession} {placed : Option PlacedOrder}
    (ht : Tracks w loaded) (hr : Rebuilt loaded) (hk : OrderKept loaded placed work)
    (hsold : ∀ order, placed = some order → loaded.totals = some order.draft.totals ∧
      ∃ sale ∈ w.sales, sale.order = order) {orderRef : String}
    (h : work.session.orderRef = some orderRef) :
    work.session.state.isOpen = false ∧ ∃ sale ∈ w.sales, sale.order.orderRef = orderRef ∧
      work.session.totals.map (·.reassemble work.session.items) =
        some sale.order.draft.totals := by
  rcases hk with ⟨hopen, hsame⟩ | ⟨order, hplaced, hordered, hclosed, hitems, htotals⟩ |
    ⟨hsame, hstate, hitems, htotals⟩
  · -- an open session belongs to no order
    rw [hsame] at h
    rw [(ht.ordered orderRef h).1] at hopen
    cases hopen
  · obtain ⟨hloaded, sale, hsale, rfl⟩ := hsold order hplaced
    rw [h, Option.some.injEq] at hordered
    refine ⟨hclosed, sale, hsale, hordered.symm, ?_⟩
    rw [hitems, htotals, ← hloaded]
    exact hr.totals
  · rw [hsame] at h
    rw [hstate, hitems, htotals]
    exact ht.ordered orderRef h

theorem items_of_taxRequest {session' : CheckoutSession}
    (h : session.taxRequest = session'.taxRequest) (haddress : session'.taxRequest ≠ none) :
    session.items = session'.items := by
  obtain ⟨request, hrequest⟩ := Option.ne_none_iff_exists'.mp haddress
  rw [hrequest] at h
  obtain ⟨_, _, rfl⟩ := Option.map_eq_some_iff.mp h
  obtain ⟨_, _, heq⟩ := Option.map_eq_some_iff.mp hrequest
  exact (congrArg TaxRequest.items heq).symm

theorem eq_totalsWith_iff (hrebuilt : totals.reassemble session.items = totals)
    (hcurrency : totals.currency = session.currency) (taxMinor : ℤ) (included : Bool) :
    totals = session.totalsWith taxMinor included ↔
      totals.taxMinor = taxMinor ∧ totals.taxIncluded = included ∧
        totals.copied = session.copied := by
  constructor
  · intro h
    rw [h]
    exact ⟨rfl, rfl, rfl⟩
  · rintro ⟨htax, hincluded, hcopied⟩
    simp only [CheckoutTotals.copied, CheckoutSession.copied, CopiedFigures.mk.injEq] at hcopied
    obtain ⟨hshipping, hname, hdiscount, hcapped⟩ := hcopied
    rw [← hrebuilt, CheckoutTotals.reassemble, htax, hincluded, hshipping, hname, hdiscount,
      hcapped, hcurrency]
    exact CheckoutTotals.assemble_capped session.items taxMinor session.shippingMinor
      session.orderDiscount session.currency included session.shippingName
      session.shippingDiscount

/-- A new order is charged rightly if and only if its session was up to date. -/
theorem rightlyCharged_iff {loaded : CheckoutSession} {order : PlacedOrder} (ht : Tracks w loaded)
    (hr : Rebuilt loaded) (hd : DraftedFrom loaded order) :
    (⟨order, w.calculations.getLast?⟩ : Sale).RightlyCharged ↔ UpToDate w loaded := by
  obtain ⟨hcurrency, assembled, hassembled, hcopied⟩ := ht.assembled _ hd.totals
  have hrebuilt : order.draft.totals.reassemble loaded.items = order.draft.totals := by
    have h := hr.totals
    rw [hd.totals, Option.map_some, Option.some.injEq] at h
    exact h
  constructor
  · rintro ⟨calculation, hlast, hrequest, htotals⟩
    rw [hd.totalsWith, eq_totalsWith_iff hrebuilt hcurrency] at htotals
    rw [hd.taxRequest] at hrequest
    refine ⟨?_, assembled, hassembled, hcopied.symm.trans htotals.2.2⟩
    rcases ht.tax with ⟨hnone, _⟩ | ⟨last, past, hlast', hpast, hpastRequest, _⟩
    · change w.calculations.getLast? = some calculation at hlast
      rw [hnone] at hlast
      cases hlast
    · rw [Option.some.inj (hlast'.symm.trans hlast)] at hpastRequest
      exact ⟨past, hpast, hpastRequest.trans hrequest.symm⟩
  · rintro ⟨⟨past, hpast, hsame⟩, assembled', hassembled', hcopied'⟩
    cases hassembled.symm.trans hassembled'
    rcases ht.tax with ⟨_, hnone⟩ | ⟨calculation, past', hlast, hpast', hrequest, _, htaxed⟩
    · rw [hnone] at hpast
      cases hpast
    · cases hpast.symm.trans hpast'
      have hitems : past.items ≠ [] := by
        rw [items_of_taxRequest hsame hd.address]
        exact hd.items
      obtain ⟨totals, htotals, htax, hincluded⟩ := htaxed hitems
      cases hd.totals.symm.trans htotals
      refine ⟨calculation, hlast, ?_, ?_⟩
      · rw [hd.taxRequest, ← hsame]
        exact hrequest
      · rw [hd.totalsWith, eq_totalsWith_iff hrebuilt hcurrency]
        exact ⟨htax, hincluded, hcopied.trans hcopied'⟩

structure Balanced (w : Till) : Prop where
  tracked : ∃ session, w.row = toRow session ∧ Tracks w session
  payments : ∀ request ∈ w.payments, ∃ sale ∈ w.sales,
    sale.Charges request.orderRef request.amountMinor request.currency

theorem Balanced.loaded {text : TextOps} (hb : Balanced w) (h : toDomain text w.row = .ok session) :
    Tracks w session ∧ Rebuilt session := by
  obtain ⟨stored, hrow, ht⟩ := hb.tracked
  rw [hrow, toDomain_toRow] at h
  cases hemail : mustIfSet "contact email" (ContactEmail.create text)
      (stored.contactEmail.map (·.1)) with
  | error e =>
    rw [hemail] at h
    cases h
  | ok contactEmail =>
    rw [hemail] at h
    cases h
    exact ⟨ht.readBack contactEmail, rebuilt_readBack stored contactEmail⟩

theorem Tracks.charges (ht : Tracks w session) (hr : Rebuilt session) {orderRef : String}
    (horder : session.orderRef = some orderRef) (htotals : session.totals = some totals) :
    ∃ sale ∈ w.sales, sale.Charges orderRef totals.totalMinor totals.currency := by
  obtain ⟨_, sale, hsale, href, hsold⟩ := ht.ordered orderRef horder
  rw [hr.totals, htotals, Option.some.injEq] at hsold
  rw [hsold]
  exact ⟨sale, hsale, href, rfl, rfl⟩

theorem Balanced.record {loaded : CheckoutSession} {out : Outcome Unit} (hb : Balanced w)
    (ht : Tracks w loaded) (hr : Rebuilt loaded) (hs : Sound loaded out) :
    Balanced (w.record out) := by
  obtain ⟨stored, hrow, hstored⟩ := hb.tracked
  refine ⟨⟨stored, hrow, hstored.record out⟩, ?_⟩
  intro request hrequest
  rcases List.mem_append.mp hrequest with hold | hnew
  · obtain ⟨sale, hsale, hcharges⟩ := hb.payments request hold
    exact ⟨sale, List.mem_append_left _ hsale, hcharges⟩
  · obtain ⟨horder, totals, htotals, hamount, hcurrency⟩ :=
      hs.initiated request (Option.mem_toList.mp hnew)
    obtain ⟨sale, hsale, hcharges⟩ := ht.charges hr horder htotals
    rw [hamount, hcurrency]
    exact ⟨sale, List.mem_append_left _ hsale, hcharges⟩

theorem Balanced.settle {loaded : CheckoutSession} {out : Outcome Unit} (hb : Balanced w)
    (ht : Tracks w loaded) (hr : Rebuilt loaded) (hs : Sound loaded out) (committed : Bool) :
    Balanced (w.settle committed out) := by
  have hrecord := hb.record ht hr hs
  unfold Till.settle
  split
  · rename_i work hsaved
    obtain ⟨hfollows, hkept⟩ := hs.saved work hsaved
    have hrecorded := ht.record out
    have hsold : ∀ order, out.placed = some order → loaded.totals = some order.draft.totals ∧
        ∃ sale ∈ (w.record out).sales, sale.order = order := by
      intro order hplaced
      refine ⟨(hs.placed order hplaced).totals, ⟨order, w.calculations.getLast?⟩, ?_, rfl⟩
      apply List.mem_append_right
      rw [hplaced]
      exact List.mem_singleton_self _
    refine ⟨⟨work.session, rfl, ?_⟩, hrecord.payments⟩
    constructor
    · exact hrecorded.store_tax hr hfollows
    · intro totals htotals
      exact hrecorded.store_assembled hfollows htotals
    · intro orderRef horder
      exact hrecorded.store_ordered hr hkept hsold horder
  · exact hrecord

variable {config : CheckoutConfig}

theorem balanced_step (hb : Balanced w) (call : Call) : Balanced (next config w call) := by
  rw [next]
  split
  · exact hb
  · rename_i session hloaded
    obtain ⟨ht, hr⟩ := hb.loaded hloaded
    exact hb.settle ht hr (call.operation.perform_sound config hr.recalculated) call.committed

theorem sales_settle (w : Till) (committed : Bool) (out : Outcome Unit) :
    (w.settle committed out).sales = (w.record out).sales := by
  unfold Till.settle
  split
  · rfl
  · rfl

/-- A call keeps every order charged rightly exactly when it does not create one from a session
that is not up to date. -/
theorem charged_step (hb : Balanced w) (h : ∀ sale ∈ w.sales, sale.RightlyCharged) (call : Call) :
    (∀ sale ∈ (next config w call).sales, sale.RightlyCharged) ↔
      ¬ OrdersOutdated config w call := by
  rw [next]
  split
  · rename_i hfailed
    apply iff_of_true h
    rintro ⟨session, hloaded, _⟩
    rw [hloaded] at hfailed
    cases hfailed
  · rename_i session hloaded
    obtain ⟨ht, hr⟩ := hb.loaded hloaded
    have hs := call.operation.perform_sound config hr.recalculated
    rw [sales_settle]
    cases hplaced : (call.operation.perform config session).placed with
    | none =>
      have hsales : (w.record (call.operation.perform config session)).sales = w.sales := by
        rw [Till.record, hplaced]
        exact List.append_nil _
      rw [hsales]
      apply iff_of_true h
      rintro ⟨other, hother, hsome, _⟩
      cases hloaded.symm.trans hother
      rw [hplaced] at hsome
      cases hsome
    | some order =>
      have hsales : (w.record (call.operation.perform config session)).sales =
          w.sales ++ [⟨order, w.calculations.getLast?⟩] := by
        rw [Till.record, hplaced]
        rfl
      have hiff := rightlyCharged_iff ht hr (hs.placed order hplaced)
      rw [hsales]
      constructor
      · rintro hall ⟨other, hother, _, hnot⟩
        cases hloaded.symm.trans hother
        exact hnot (hiff.mp (hall _ (List.mem_append_right _ (List.mem_singleton_self _))))
      · intro hnot sale hsale
        rcases List.mem_append.mp hsale with hold | hnew
        · exact h sale hold
        · rw [List.mem_singleton.mp hnew, hiff]
          by_contra houtdated
          exact hnot ⟨session, hloaded, by rw [hplaced]; rfl, houtdated⟩

theorem chargesWhatItShows_iff (hb : Balanced w) :
    ChargesWhatItShows config w ↔ ∀ sale ∈ w.sales, sale.RightlyCharged := by
  constructor
  · intro h
    exact h.orders
  · intro h
    refine ⟨h, hb.payments, ?_⟩
    intro session orderRef request hloaded horder hrequest
    obtain ⟨ht, hr⟩ := hb.loaded hloaded
    rw [CheckoutSession.generatePaymentIntentRequest] at hrequest
    split at hrequest
    · cases hrequest
    · cases hrequest
    · rename_i selection totals _ htotals
      cases hrequest
      exact ht.charges hr horder htotals

theorem Started.balanced (h : Started w) : Balanced w ∧ w.sales = [] := by
  obtain ⟨cartRef, customerRef, currency, rfl⟩ := h
  refine ⟨⟨⟨CheckoutSession.start cartRef customerRef currency, rfl, ?_⟩, ?_⟩, rfl⟩
  · refine ⟨Or.inl ⟨rfl, rfl⟩, ?_, ?_⟩
    · intro totals htotals
      cases htotals
    · intro orderRef horder
      cases horder
  · intro request hrequest
    cases hrequest

/-- Along any run of calls on a checkout, every order and every payment request is for what the
session shows if and only if no order is created from a session that is not up to date. -/
theorem run_chargesWhatItShows_iff {w : Till} {tr : List (Call × Till)} (hs : Started w)
    (hr : Run (Step config) w tr) :
    Always (ChargesWhatItShows config) w tr ↔
      EveryStep (fun w call => ¬ OrdersOutdated config w call) w tr := by
  obtain ⟨hb, hsales⟩ := hs.balanced
  refine always_iff_everyStep
    (I := fun w => Balanced w ∧ ∀ sale ∈ w.sales, sale.RightlyCharged) ?_ ?_ ?_ ⟨hb, ?_⟩ hr
  · rintro w call w' ⟨hb, hcharged⟩ rfl hnot
    exact ⟨balanced_step hb call, (charged_step hb hcharged call).mpr hnot⟩
  · rintro w ⟨hb, hcharged⟩
    exact (chargesWhatItShows_iff hb).mpr hcharged
  · rintro w call w' ⟨hb, hcharged⟩ rfl houtdated hcharges
    exact houtdated ((charged_step hb hcharged call).mp hcharges.orders)
  · intro sale hsale
    rw [hsales] at hsale
    cases hsale

/-- Every payment asked for is the price of an order of this checkout, and a stored session that
belongs to an order is closed and still shows the totals that order was placed with. -/
structure PaysItsOrder (config : CheckoutConfig) (w : Till) : Prop where
  payments : ∀ request ∈ w.payments, ∃ sale ∈ w.sales,
    sale.Charges request.orderRef request.amountMinor request.currency
  stored : ∀ session orderRef, toDomain config.text w.row = .ok session →
    session.orderRef = some orderRef → session.state.isOpen = false ∧
      ∃ sale ∈ w.sales, sale.order.orderRef = orderRef ∧
        session.totals = some sale.order.draft.totals

/-- It holds along every run of calls, out of date or not, whatever the ports answer and whichever
calls lose their save. -/
theorem run_paysItsOrder (config : CheckoutConfig) (cartRef : String)
    (customerRef : Option String) (currency : String) (calls : List Call) :
    let w : Till := ⟨toRow (CheckoutSession.start cartRef customerRef currency), [], none, none,
      [], []⟩
    Always (PaysItsOrder config) w (trace config w calls) := by
  intro w
  have hstarted : Started w := ⟨cartRef, customerRef, currency, rfl⟩
  have hbalanced : Always Balanced w (trace config w calls) := by
    refine always_of_invariant ?_ hstarted.balanced.1 (run_trace config w calls)
    rintro w call w' hb rfl
    exact balanced_step hb call
  apply hbalanced.mono
  intro w hb
  constructor
  · exact hb.payments
  · intro session orderRef hloaded horder
    obtain ⟨ht, hr⟩ := hb.loaded hloaded
    obtain ⟨hclosed, sale, hsale, href, htotals⟩ := ht.ordered orderRef horder
    rw [hr.totals] at htotals
    exact ⟨hclosed, sale, hsale, href, htotals⟩

/-! A shop that quotes two methods and adds a tenth of the price as tax. -/

def sampleConfig : CheckoutConfig where
  text := ⟨toUpperCase, id, fun _ _ => 0⟩
  regions := ⟨fun _ => false, fun _ _ => false⟩

def sampleTax : TaxCalculationPort := fun request =>
  .ok ⟨((request.items.map CheckoutItem.lineTotalMinor).sum + request.shippingMinor) / 10, false⟩

def samplePromotions : PromotionValidationPort where
  validate _ := .ok ⟨false, 0⟩
  evaluate _ := .ok ⟨[], 0, 0, [], []⟩

def sampleQuotes : ShippingCalculationPort := fun _ _ _ =>
  .ok [⟨"standard", "Standard", 500, none⟩, ⟨"express", "Express", 1500, none⟩]

def sampleDeps : CompleteCheckoutDeps where
  orderCreation _ := .ok "order-1"
  inventoryValidation := none
  stockReservation := none
  promotionValidation := some samplePromotions
  taxCalculation := some sampleTax

def sampleAddress : CheckoutAddressInput :=
  ⟨none, none, "1 Main Street", none, "Paris", "75001", "FR", none⟩

def newCheckout : Till :=
  ⟨toRow (CheckoutSession.start "cart-1" none "EUR"), [], none, none, [], []⟩

def saved (operation : Operation) : Call := ⟨operation, true⟩

/-- Everything up to the tax, for a shopper who chose the standard method. -/
def preparedCheckout : List Call :=
  [saved (.loadItems [⟨"tea", 2, 1000, "EUR", none, none, none, none⟩]),
    saved (.setBillingAddress sampleAddress), saved (.setShippingAddress sampleAddress),
    saved (.selectShipping sampleQuotes "standard"),
    saved (.selectPayment ["card"] "card-1" "card"),
    saved (.requestTaxCalculation sampleTax (some samplePromotions))]

instance (config : CheckoutConfig) (w : Till) (call : Call) :
    Decidable (OrdersOutdated config w call) :=
  match h : toDomain config.text w.row with
  | .error _ => isFalse (by rintro ⟨session, hsession, _⟩; rw [h] at hsession; cases hsession)
  | .ok session =>
    decidable_of_iff ((call.operation.perform config session).placed.isSome = true ∧
        ¬ UpToDate w session) (by
      constructor
      · intro hout
        exact ⟨session, h, hout⟩
      · rintro ⟨other, hother, hout⟩
        cases h.symm.trans hother
        exact hout)

theorem run_chargesWhatItShows_iff_express : Always (ChargesWhatItShows sampleConfig) newCheckout
    (trace sampleConfig newCheckout (preparedCheckout ++
      [saved (.selectShipping sampleQuotes "express"),
        saved (.requestTaxCalculation sampleTax (some samplePromotions)),
        saved (.completeCheckout sampleDeps "key-1"),
        saved (.initiatePayment fun _ => .ok ⟨"intent-1", "created", "card", none⟩)])) := by
  refine (run_chargesWhatItShows_iff ⟨_, _, _, rfl⟩ (run_trace sampleConfig _ _)).mpr ?_
  refine ⟨?_, ?_, ?_, ?_, ?_, ?_, ?_, ?_, ?_, ?_, trivial⟩
  all_goals decide +kernel

theorem chargesWhatItShows_fails : ¬ ∀ (w : Till) (tr : List (Call × Till)),
    Started w → Run (Step sampleConfig) w tr → Always (ChargesWhatItShows sampleConfig) w tr := by
  intro h
  have hlast := (h newCheckout (trace sampleConfig newCheckout (preparedCheckout ++
      [saved (.selectShipping sampleQuotes "express"),
        saved (.completeCheckout sampleDeps "key-1")]))
    ⟨_, _, _, rfl⟩ (run_trace _ _ _)).last
  exact absurd hlast.orders (by decide +kernel)

end Checkout
