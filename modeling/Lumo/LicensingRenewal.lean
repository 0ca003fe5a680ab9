import Lumo.LicensingCollection
import Lumo.LicensingPlan

/-! # Renewals and coupons

The subscription of one merchant is stored, with its invoices and coupons. -/
namespace LicensingRenewal

open SharedKernel Licensing

inductive CouponStatus where
  | issued
  | redeemed
  | expired
  | revoked
  deriving DecidableEq

inductive CouponValue where
  | percentage (basisPoints : ℕ)
  | fixed (amountMinor : ℕ) (currency : String)

structure CouponRedemption where
  invoiceRef : String
  redeemedAt : ℚ

/-- A coupon that is addressed to no merchant is one that any may present. -/
structure Coupon where
  id : String
  code : String
  value : CouponValue
  expiresAt : ℚ
  merchantRef : Option String
  status : CouponStatus
  redemption : Option CouponRedemption
  revokedReason : Option String
  version : ℕ

def createDraft (id tenantRef currency : String) (lineItems : List InvoiceLineItem) :
    Except DomainError Invoice := do
  if ¬ isValidCurrencyCode currency then
    throw (.businessRule ("Invalid invoice currency \"" ++ currency ++
      "\" (ISO-4217, 3 capitals)"))
  let _ ← Invoice.sum currency lineItems
  return ⟨id, tenantRef, currency, lineItems, .draft, none, none, 0⟩

structure RenewalSchedule where
  cycleDays : ℚ
  nextRenewalAt : ℚ
  deriving DecidableEq

structure Subscription extends Licensing.Subscription where
  tenantRef : String
  planVersionRef : String
  renewalSchedule : Option RenewalSchedule
  deriving DecidableEq

end LicensingRenewal

/-! ## What an invoice comes to -/
namespace LicensingRenewal

open SharedKernel Licensing

def Reckoned (invoice : Invoice) : Prop :=
  ∃ subtotal total, invoice.subtotal = .ok subtotal ∧ invoice.total = .ok total ∧
    (total.amountMinor : ℚ) =
      subtotal.amountMinor - (invoice.discount.map (·.amountMinor)).getD 0

variable {currency : String} {lineItems : List InvoiceLineItem} {invoice : Invoice}

theorem create_amount (money : Money) :
    Money.create (money.amountMinor : ℚ) money.currency = .ok money := by
  have hwhole : ((money.amountMinor : ℚ).den = 1 ∧ 0 ≤ (money.amountMinor : ℚ).num) ∧
      isValidCurrencyCode money.currency = true :=
    ⟨⟨rfl, Int.natCast_nonneg _⟩, money.validCurrency⟩
  rw [Money.create, dif_pos hwhole]
  rfl

variable {amountMinor : ℚ} {money subtotal amount : Money} {invoice' draft : Invoice}
  {id couponRef tenantRef : String}

theorem create_value (h : Money.create amountMinor currency = .ok money) :
    amountMinor = money.amountMinor := by
  rw [Money.create] at h
  split at h
  · rename_i hvalid
    cases h
    obtain ⟨⟨hden, hnum⟩, -⟩ := hvalid
    have hcast : ((amountMinor.num.toNat : ℤ) : ℚ) = amountMinor.num := by
      rw [Int.toNat_of_nonneg hnum]
    calc amountMinor = amountMinor.num := ((Rat.den_eq_one_iff amountMinor).mp hden).symm
      _ = ((amountMinor.num.toNat : ℤ) : ℚ) := hcast.symm
      _ = (amountMinor.num.toNat : ℚ) := Int.cast_natCast _
  · cases h

/-- A sum that can be worked out is exact, and so is every line of it. -/
theorem sum_ok {total : Money} (h : Invoice.sum currency lineItems = .ok total) :
    total.currency = currency ∧ total.amountMinor ≤ 9007199254740991 ∧
      ∀ item ∈ lineItems, ∃ n : ℕ, item.amountMinor = n ∧ n ≤ total.amountMinor := by
  obtain ⟨zero, hzero, hfold⟩ := bind_eq_ok.mp h
  obtain ⟨hsafe, hcurrency⟩ : zero.amountMinor ≤ 9007199254740991 ∧ zero.currency = currency := by
    rw [Money.zero] at hzero
    split at hzero
    · cases hzero
      exact ⟨Nat.zero_le _, rfl⟩
    · cases hzero
  suffices hrun : zero.amountMinor ≤ total.amountMinor ∧ total.currency = currency ∧
      total.amountMinor ≤ 9007199254740991 ∧
      ∀ item ∈ lineItems, ∃ n : ℕ, item.amountMinor = n ∧ n ≤ total.amountMinor from hrun.2
  clear hzero h
  induction lineItems generalizing zero with
  | nil =>
    cases hfold
    exact ⟨le_rfl, hcurrency, hsafe, by simp⟩
  | cons item items ih =>
    rw [List.foldlM_cons] at hfold
    obtain ⟨next, hnext, hrest⟩ := bind_eq_ok.mp hfold
    split at hnext
    · cases hnext
    · rename_i line hline
      obtain ⟨sum, hsum, hchecked⟩ := bind_eq_ok.mp hnext
      have hsame : line.currency = zero.currency := by
        rw [(Money.create_ok hline).1, hcurrency]
      rw [Money.plus_of_sameCurrency hsame] at hsum
      cases hsum
      split at hchecked
      · cases hchecked
      · rename_i hnextSafe
        cases hchecked
        have hle : zero.amountMinor + line.amountMinor ≤ 9007199254740991 := by
          simpa [isSafeInteger] using hnextSafe
        obtain ⟨hgrows, hkept, htotal, hitems⟩ := ih _ hrest hle hcurrency
        simp only at hgrows
        refine ⟨by omega, hkept, htotal, ?_⟩
        intro other hother
        rcases List.mem_cons.mp hother with rfl | hlater
        · exact ⟨line.amountMinor, create_value hline, by omega⟩
        · exact hitems other hlater

theorem minus_ok {other difference : Money} (h : money.minus other = .ok difference) :
    other.currency = money.currency ∧ other.amountMinor ≤ money.amountMinor ∧
      difference.amountMinor = money.amountMinor - other.amountMinor := by
  by_cases hcurrency : other.currency = money.currency
  · rw [Money.minus_of_sameCurrency hcurrency] at h
    split at h
    · cases h
    · cases h
      exact ⟨hcurrency, by omega, rfl⟩
  · simp [Money.minus, Money.assertSameCurrency, hcurrency] at h

theorem reckoned_of_undiscounted (hdiscount : invoice.discount = none)
    (h : invoice.subtotal = .ok subtotal) : Reckoned invoice := by
  refine ⟨subtotal, subtotal, h, ?_, ?_⟩
  · rw [Invoice.total, hdiscount]
    exact h
  · rw [hdiscount]
    simp

theorem Reckoned.congr (h : Reckoned invoice) (hcurrency : invoice'.currency = invoice.currency)
    (hlineItems : invoice'.lineItems = invoice.lineItems)
    (hdiscount : invoice'.discount = invoice.discount) : Reckoned invoice' := by
  obtain ⟨subtotal, total, hsubtotal, htotal, heq⟩ := h
  refine ⟨subtotal, total, ?_, ?_, ?_⟩
  · rw [Invoice.subtotal, hcurrency, hlineItems]
    exact hsubtotal
  · rw [Invoice.total, Invoice.subtotal, hdiscount, hcurrency, hlineItems]
    exact htotal
  · rw [hdiscount]
    exact heq

theorem createDraft_ok (h : createDraft id tenantRef currency lineItems = .ok draft) :
    draft.status = .draft ∧ draft.discount = none ∧ Reckoned draft := by
  rw [createDraft] at h
  split at h
  · cases h
  · obtain ⟨subtotal, hsum, h⟩ := bind_eq_ok.mp h
    cases h
    exact ⟨rfl, rfl, reckoned_of_undiscounted rfl hsum⟩

theorem createDraft_id (h : createDraft id tenantRef currency lineItems = .ok draft) :
    draft.id = id := by
  rw [createDraft] at h
  split at h
  · cases h
  · obtain ⟨subtotal, -, h⟩ := bind_eq_ok.mp h
    cases h
    rfl

theorem total_discounted (invoice : Invoice) (hd : invoice.discount = some ⟨couponRef, amountMinor⟩)
    (ha : Money.create amountMinor invoice.currency = .ok amount)
    (hs : invoice.subtotal = .ok subtotal) : invoice.total = subtotal.minus amount := by
  rw [Invoice.total, hd]
  simp only [ha, hs]
  rfl

theorem applyDiscount_ok {new : Invoice} (h : invoice.applyDiscount couponRef amount = .ok new) :
    invoice.status = .draft ∧ invoice.discount = none ∧
      new = { invoice with discount := some ⟨couponRef, amount.amountMinor⟩ } ∧ Reckoned new := by
  have hdraft := Invoice.applyDiscount_draft h
  rw [Invoice.applyDiscount, if_neg (not_not_intro hdraft)] at h
  have hnone : invoice.discount = none := by
    by_contra hsome
    rw [if_pos (Option.isSome_iff_ne_none.mpr hsome)] at h
    cases h
  rw [hnone] at h
  obtain ⟨subtotal, hsubtotal, h⟩ := bind_eq_ok.mp h
  obtain ⟨difference, hminus, h⟩ := bind_eq_ok.mp h
  cases h
  obtain ⟨hcurrency, hle, hdifference⟩ := minus_ok hminus
  refine ⟨hdraft, hnone, rfl, subtotal, difference, hsubtotal, ?_, ?_⟩
  · have hinvoice : amount.currency = invoice.currency :=
      hcurrency.trans (sum_ok hsubtotal).1
    have hcreate : Money.create amount.amountMinor invoice.currency = .ok amount := by
      rw [← hinvoice, create_amount]
    have htotal := total_discounted
      { invoice with discount := some ⟨couponRef, amount.amountMinor⟩ } rfl hcreate hsubtotal
    exact htotal.trans hminus
  · change (difference.amountMinor : ℚ) = subtotal.amountMinor - amount.amountMinor
    rw [hdifference]
    push_cast [hle]
    ring

end LicensingRenewal
