import Lumo.LicensingStorage

/-! # Invoices and coupons as rows, and what storage keeps

An invoice is refused when its row does not make money; none that can be reached is. -/
namespace LicensingStorage

open SharedKernel Builtins Licensing LicensingRenewal LabelledRuns

structure StoredInvoice extends toBilled : Licensing.Invoice where
  subscriptionRef : String

inductive InvoiceCall where
  | issue
  | applyDiscount (couponRef : String) (amount : Money)
  | markPaid (paymentReference : String)
  | markFailed
  | voidInvoice

/-- What is left of an invoice by a call that may throw. -/
def settled (before : Invoice) : Except DomainError Invoice → Invoice
  | .ok invoice => invoice
  | .error _ => before

/-- The reference of a payment is kept even where the invoice cannot be paid. -/
def InvoiceCall.after : InvoiceCall → Invoice → Invoice
  | issue, invoice => settled invoice invoice.issue
  | applyDiscount couponRef amount, invoice =>
    settled invoice (invoice.applyDiscount couponRef amount)
  | markPaid paymentReference, invoice =>
    settled { invoice with paymentReference := some paymentReference }
      (invoice.markPaid paymentReference)
  | markFailed, invoice => settled invoice invoice.markFailed
  | voidInvoice, invoice => settled invoice (invoice.transition .voided)

/-- `Invoice.createDraft`. -/
def Drafted (invoice : StoredInvoice) : Prop :=
  ∃ (id : UniqueEntityId) (tenantRef currency : String) (lineItems : List InvoiceLineItem),
    createDraft id.value tenantRef currency lineItems = .ok invoice.toBilled

abbrev ReachedInvoice : StoredInvoice → Prop :=
  Reachable Drafted fun invoice (call : InvoiceCall) next =>
    { invoice with toBilled := call.after invoice.toBilled } = next

structure InvoiceRow where
  id : String
  tenantId : String
  tenantRef : String
  subscriptionRef : String
  currency : String
  lineItems : List InvoiceLineItem
  status : InvoiceStatus
  paymentReference : Option String
  discountMinor : Option ℚ
  discountCouponRef : Option String
  version : ℕ

/-- `Number.isSafeInteger`. -/
def isSafeNumber (value : ℚ) : Bool := isInteger value && decide (|value| ≤ 9007199254740991)

namespace InvoiceMapper

def assertMinorUnitLines (invoiceId : String) (lineItems : List InvoiceLineItem) :
    Except Unread (List InvoiceLineItem) :=
  if lineItems.all fun item => isSafeNumber item.amountMinor then .ok lineItems
  else .error (.error ("Invoice " ++ invoiceId ++ " has a line without an integer amountMinor " ++
    "(pre-WP-14 row?); refusing to read it as money"))

def discountOf (row : InvoiceRow) : Except Unread (Option InvoiceDiscount) :=
  let refused := .error (.error ("Invoice " ++ row.id ++
    " has a half-recorded or non-integer discount; refusing to read it as money"))
  match row.discountMinor, row.discountCouponRef with
  | none, none => .ok none
  | some discountMinor, some discountCouponRef =>
    if isSafeNumber discountMinor then .ok (some ⟨discountCouponRef, discountMinor⟩) else refused
  | _, _ => refused

def assertDiscountConsistent (invoice : Invoice) : Except DomainError Unit :=
  match invoice.discount with
  | none => .ok ()
  | some _ => do
    let total ← invoice.total
    if ¬ isSafeInteger total.amountMinor then
      throw (.businessRule "Invoice total exceeds the exactly-representable range")

def toDomain (row : InvoiceRow) : Except Unread StoredInvoice := do
  let id ← entityId row.id
  let lineItems ← assertMinorUnitLines row.id row.lineItems
  let discount ← discountOf row
  let invoice : StoredInvoice := {
    id := id
    tenantRef := row.tenantRef
    currency := row.currency
    lineItems := lineItems
    status := row.status
    paymentReference := row.paymentReference
    discount := discount
    version := row.version
    subscriptionRef := row.subscriptionRef }
  (assertDiscountConsistent invoice.toBilled).mapError .domain
  return invoice

def toRow (invoice : StoredInvoice) (tenantId : String) : InvoiceRow where
  id := invoice.id
  tenantId := tenantId
  tenantRef := invoice.tenantRef
  subscriptionRef := invoice.subscriptionRef
  currency := invoice.currency
  lineItems := invoice.lineItems
  status := invoice.status
  paymentReference := invoice.paymentReference
  discountMinor := invoice.discount.map (·.amountMinor)
  discountCouponRef := invoice.discount.map (·.couponRef)
  version := 1

/-- No line has a date, so that JSON leaves the row as it is. -/
def reload (tenantId : String) (version : ℕ) (invoice : StoredInvoice) :
    Except Unread StoredInvoice :=
  toDomain { toRow invoice tenantId with version := version }

end InvoiceMapper

theorem isSafeNumber_natCast {n : ℕ} (h : n ≤ 9007199254740991) : isSafeNumber n = true := by
  have habs : |(n : ℚ)| = n := abs_of_nonneg (Nat.cast_nonneg n)
  have hle : (n : ℚ) ≤ 9007199254740991 := by exact_mod_cast h
  rw [isSafeNumber, habs, decide_eq_true hle, Bool.and_true]
  rfl

/-- What holds of an invoice from when it is drafted. -/
structure Sound (invoice : Invoice) : Prop where
  entity : isBlank invoice.id = false
  reckoned : Reckoned invoice
  discount : ∀ discount, invoice.discount = some discount → ∃ n : ℕ, discount.amountMinor = n

theorem Sound.transition {invoice : Invoice} (h : Sound invoice) (toStatus : InvoiceStatus) :
    Sound (settled invoice (invoice.transition toStatus)) := by
  cases hmoved : invoice.transition toStatus with
  | error e => exact h
  | ok new =>
    obtain ⟨-, rfl⟩ := Invoice.transition_ok hmoved
    exact ⟨h.entity, h.reckoned.congr rfl rfl rfl, h.discount⟩

theorem Sound.after {invoice : Invoice} (h : Sound invoice) (call : InvoiceCall) :
    Sound (call.after invoice) := by
  cases call with
  | issue => exact h.transition _
  | applyDiscount couponRef amount =>
    rw [InvoiceCall.after]
    cases hnew : invoice.applyDiscount couponRef amount with
    | error e => exact h
    | ok new =>
      obtain ⟨-, -, rfl, hreckoned⟩ := applyDiscount_ok hnew
      refine ⟨h.entity, hreckoned, ?_⟩
      rintro _ ⟨⟩
      exact ⟨amount.amountMinor, rfl⟩
  | markPaid paymentReference =>
    have hnoted : Sound { invoice with paymentReference := some paymentReference } :=
      ⟨h.entity, h.reckoned.congr rfl rfl rfl, h.discount⟩
    exact hnoted.transition _
  | markFailed | voidInvoice => exact h.transition _

theorem reachedInvoice_sound {invoice : StoredInvoice} (h : ReachedInvoice invoice) :
    Sound invoice.toBilled := by
  refine reachable_invariant (I := fun invoice => Sound invoice.toBilled) ?_ ?_ h
  · rintro new ⟨id, tenantRef, currency, lineItems, hdraft⟩
    obtain ⟨-, hnone, hreckoned⟩ := createDraft_ok hdraft
    refine ⟨?_, hreckoned, ?_⟩
    · rw [createDraft_id hdraft]
      exact id.notEmpty
    · intro discount hdiscount
      rw [hnone] at hdiscount
      cases hdiscount
  · rintro s call _ hs rfl
    exact hs.after call

theorem discount_consistent {invoice : Invoice} (h : Sound invoice) :
    InvoiceMapper.assertDiscountConsistent invoice = .ok () := by
  rw [InvoiceMapper.assertDiscountConsistent]
  split
  · rfl
  · rename_i discount hdiscount
    obtain ⟨subtotal, total, hsubtotal, htotal, hless⟩ := h.reckoned
    obtain ⟨n, hn⟩ := h.discount discount hdiscount
    rw [hdiscount, Option.map_some, Option.getD_some, hn] at hless
    have hle : total.amountMinor ≤ subtotal.amountMinor := by
      have hnonneg : (0 : ℚ) ≤ n := Nat.cast_nonneg _
      have hcast : (total.amountMinor : ℚ) ≤ subtotal.amountMinor := by linarith
      exact_mod_cast hcast
    have hsafe : isSafeInteger total.amountMinor = true :=
      decide_eq_true (hle.trans (sum_ok hsubtotal).2.1)
    rw [htotal, ok_bind, hsafe]
    rfl

section

variable {invoice : StoredInvoice} (h : Sound invoice.toBilled)
include h

theorem lineItems_read :
    InvoiceMapper.assertMinorUnitLines invoice.id invoice.lineItems = .ok invoice.lineItems := by
  obtain ⟨subtotal, total, hsubtotal, -, -⟩ := h.reckoned
  obtain ⟨-, hsafe, hlines⟩ := sum_ok hsubtotal
  apply if_pos
  rw [List.all_eq_true]
  intro item hitem
  obtain ⟨n, hn, hle⟩ := hlines item hitem
  rw [hn]
  exact isSafeNumber_natCast (hle.trans hsafe)

theorem discount_read (tenantId : String) (version : ℕ) :
    InvoiceMapper.discountOf { InvoiceMapper.toRow invoice tenantId with version := version } =
      .ok invoice.discount := by
  cases hdiscount : invoice.discount with
  | none => simp [InvoiceMapper.discountOf, InvoiceMapper.toRow, hdiscount]
  | some discount =>
    obtain ⟨subtotal, total, hsubtotal, -, hless⟩ := h.reckoned
    obtain ⟨n, hn⟩ := h.discount discount hdiscount
    rw [hdiscount, Option.map_some, Option.getD_some, hn] at hless
    have hle : n ≤ subtotal.amountMinor := by
      have hnonneg : (0 : ℚ) ≤ total.amountMinor := Nat.cast_nonneg _
      have hcast : (n : ℚ) ≤ subtotal.amountMinor := by linarith
      exact_mod_cast hcast
    have hsafe := isSafeNumber_natCast (hle.trans (sum_ok hsubtotal).2.1)
    rw [← hn] at hsafe
    simp [InvoiceMapper.discountOf, InvoiceMapper.toRow, hdiscount, hsafe]

theorem invoice_reload (tenantId : String) (version : ℕ) :
    InvoiceMapper.reload tenantId version invoice = .ok { invoice with version := version } := by
  have hlines := lineItems_read h
  have hdiscount := discount_read h tenantId version
  have hversioned : Sound { invoice.toBilled with version := version } :=
    ⟨h.entity, h.reckoned.congr rfl rfl rfl, h.discount⟩
  have hconsistent := discount_consistent hversioned
  simp only [InvoiceMapper.reload, InvoiceMapper.toDomain, hdiscount, ok_bind]
  simp only [InvoiceMapper.toRow, entityId_of_notEmpty h.entity, hlines, ok_bind]
  simp only [hconsistent, Except.mapError, ok_bind]
  rfl

end

structure CouponRow where
  id : String
  tenantId : String
  tenantRef : Option String
  code : String
  kind : String
  percentBasisPoints : Option ℕ
  amountMinor : Option ℕ
  currency : Option String
  expiresAt : ℚ
  status : CouponStatus
  redeemedInvoiceRef : Option String
  redeemedAt : Option ℚ
  revokedReason : Option String
  version : ℕ

namespace CouponMapper

def valueOf (row : CouponRow) : Except Unread CouponValue :=
  let refused := .error (.error ("Coupon " ++ row.id ++
    " has an inconsistent kind/value shape; refusing to read it"))
  if row.kind = "percentage" then
    match row.percentBasisPoints with
    | some basisPoints => .ok (.percentage basisPoints)
    | none => refused
  else if row.kind = "fixed" then
    match row.amountMinor, row.currency with
    | some amountMinor, some currency => .ok (.fixed amountMinor currency)
    | _, _ => refused
  else refused

def redemptionOf (row : CouponRow) : Option CouponRedemption := do
  let invoiceRef ← row.redeemedInvoiceRef
  let redeemedAt ← row.redeemedAt
  return ⟨invoiceRef, redeemedAt⟩

def toDomain (row : CouponRow) : Except Unread Coupon := do
  let id ← entityId row.id
  let value ← valueOf row
  return {
    id := id
    code := row.code
    value := value
    expiresAt := row.expiresAt
    merchantRef := row.tenantRef
    status := row.status
    redemption := redemptionOf row
    revokedReason := row.revokedReason
    version := row.version }

def kind : CouponValue → String
  | .percentage _ => "percentage"
  | .fixed _ _ => "fixed"

def percentBasisPoints : CouponValue → Option ℕ
  | .percentage basisPoints => some basisPoints
  | .fixed _ _ => none

def amountMinor : CouponValue → Option ℕ
  | .percentage _ => none
  | .fixed amountMinor _ => some amountMinor

def currency : CouponValue → Option String
  | .percentage _ => none
  | .fixed _ currency => some currency

def toRow (coupon : Coupon) (tenantId : String) : CouponRow where
  id := coupon.id
  tenantId := tenantId
  tenantRef := coupon.merchantRef
  code := coupon.code
  kind := kind coupon.value
  percentBasisPoints := percentBasisPoints coupon.value
  amountMinor := amountMinor coupon.value
  currency := currency coupon.value
  expiresAt := coupon.expiresAt
  status := coupon.status
  redeemedInvoiceRef := coupon.redemption.map (·.invoiceRef)
  redeemedAt := coupon.redemption.map (·.redeemedAt)
  revokedReason := coupon.revokedReason
  version := 1

/-- The row has no column of JSON: its dates are read as dates. -/
def reload (tenantId : String) (version : ℕ) (coupon : Coupon) : Except Unread Coupon :=
  toDomain { toRow coupon tenantId with version := version }

end CouponMapper

theorem coupon_reload {coupon : Coupon} (h : isBlank coupon.id = false) (tenantId : String)
    (version : ℕ) :
    CouponMapper.reload tenantId version coupon = .ok { coupon with version := version } := by
  have hvalue : CouponMapper.valueOf
      { CouponMapper.toRow coupon tenantId with version := version } = .ok coupon.value := by
    cases hkind : coupon.value <;>
      simp [CouponMapper.valueOf, CouponMapper.toRow, hkind, CouponMapper.kind,
        CouponMapper.percentBasisPoints, CouponMapper.amountMinor, CouponMapper.currency]
  have hredemption : CouponMapper.redemptionOf
      { CouponMapper.toRow coupon tenantId with version := version } = coupon.redemption := by
    cases hheld : coupon.redemption <;>
      simp [CouponMapper.redemptionOf, CouponMapper.toRow, hheld]
  simp only [CouponMapper.reload, CouponMapper.toDomain, hvalue, hredemption, ok_bind]
  simp only [CouponMapper.toRow, entityId_of_notEmpty h, ok_bind]
  rfl

/-- Plans, subscriptions, invoices and coupons come back as they were, under the version that they
are stored with. What a merchant's capabilities answer is the same where no date is read, and only
there. -/
theorem survives_iff (tenantId : String) (version : ℕ) :
    (∀ plan, ReachedPlan plan → PlanMapper.reload plan = .ok plan) ∧
      (∀ s, ReachedSubscription s →
        SubscriptionMapper.reload tenantId version s = .ok { s with version := version }) ∧
      (∀ invoice, ReachedInvoice invoice →
        InvoiceMapper.reload tenantId version invoice = .ok { invoice with version := version }) ∧
      (∀ (id : UniqueEntityId) (coupon : Coupon), coupon.id = id.value →
        CouponMapper.reload tenantId version coupon = .ok { coupon with version := version }) ∧
      ∀ capabilities, ReachedCapabilities capabilities → ∃ read,
        MerchantCapabilitiesMapper.reload tenantId version capabilities = .ok read ∧
          ∀ query : CapabilityQuery,
            query.answer read = query.answer capabilities ↔ query.Dateless capabilities := by
  refine ⟨?plans, ?subscriptions, ?invoices, ?coupons, ?capabilities⟩
  case plans =>
    intro plan hplan
    exact plan_reload (reachedPlan_storable hplan)
  case subscriptions =>
    intro s hs
    exact subscription_reload (reachedSubscription_timely hs) tenantId version
  case invoices =>
    intro invoice hinvoice
    exact invoice_reload (reachedInvoice_sound hinvoice) tenantId version
  case coupons =>
    intro id coupon hid
    have hentity : isBlank coupon.id = false := by
      rw [hid]
      exact id.notEmpty
    exact coupon_reload hentity tenantId version
  case capabilities =>
    intro capabilities hcapabilities
    have hdated := reached_dated hcapabilities
    exact ⟨_, reload_eq hdated tenantId version, answer_unrevived_iff hdated version⟩

/-- A grant for good, and one until the first of January 2026. -/
def granted (expiresAt : Option ℚ) : MerchantCapabilities :=
  (CapabilityCall.grant "ai_studio" true .beta expiresAt none none "event-1" 1764547200000).run
    (.create ⟨"capabilities-1", by decide⟩ "merchant-1")

theorem reached_granted (expiresAt : Option ℚ) : ReachedCapabilities (granted expiresAt) :=
  .step (.start ⟨_, _, rfl⟩) rfl

theorem survives_for_good : ∃ read,
    MerchantCapabilitiesMapper.reload "tenant-1" 1 (granted none) = .ok read ∧
      read.resolve "ai_studio" 1764547200000 =
        (granted none).resolve "ai_studio" 1764547200000 := by
  obtain ⟨read, hread, hsame⟩ :=
    (survives_iff "tenant-1" 1).2.2.2.2 (granted none) (reached_granted none)
  refine ⟨read, hread, ?_⟩
  have hresolve := (hsame (.resolve "ai_studio" 1764547200000)).mpr (by
    rintro held ⟨⟩
    rfl)
  exact CapabilityAnswer.resolved.inj hresolve

/-- A month before the grant expires it is resolved, but not from what is read back. -/
theorem survives_fails : ReachedCapabilities (granted (some 1767225600000)) ∧
    (granted (some 1767225600000)).resolve "ai_studio" 1764547200000 = .ok (some
      ⟨"ai_studio", true, .beta, some (.date 1767225600000), none, none⟩) ∧
    ∃ read, MerchantCapabilitiesMapper.reload "tenant-1" 1 (granted (some 1767225600000)) =
        .ok read ∧
      read.resolve "ai_studio" 1764547200000 =
        .error "grant.expiresAt.getTime is not a function" := by
  have hdated := reached_dated (reached_granted (some 1767225600000))
  exact ⟨reached_granted _, by decide +kernel, _, reload_eq hdated _ _, rfl⟩

end LicensingStorage
