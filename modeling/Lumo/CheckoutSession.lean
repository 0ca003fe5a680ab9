import Lumo.CheckoutDetails
import Lumo.FallibleFolds

/-! # The checkout session

It keeps snapshots of what other contexts answered and assembles totals from them. Times are the
milliseconds that `getTime` answers. -/
namespace Checkout

open SharedKernel Builtins

inductive DiscountClassValue where
  | product
  | order
  | shipping
  deriving DecidableEq

structure AppliedDiscountSnapshot where
  promotionId : String
  couponId : Option String
  code : Option String
  title : String
  discountClass : DiscountClassValue
  amountMinor : ℤ
  deriving DecidableEq

structure DiscountCodeStatusSnapshot where
  code : String
  applicable : Bool
  reason : Option String
  deriving DecidableEq

structure LineAllocationSnapshot where
  lineRef : String
  amountMinor : ℤ
  deriving DecidableEq

structure DiscountSnapshot where
  applied : List AppliedDiscountSnapshot
  orderDiscountMinor : ℤ
  shippingDiscountMinor : ℤ
  codeStatuses : List DiscountCodeStatusSnapshot
  lineAllocations : List LineAllocationSnapshot
  deriving DecidableEq

def MAX_DISCOUNT_CODES : ℕ := 5

def DISCOUNT_ATTEMPT_LIMIT : ℕ := 10

def DISCOUNT_ATTEMPT_WINDOW_MS : ℤ := 15 * 60 * 1000

def normalizeDiscountCode (text : TextOps) (code : String) : String := text.toUpperCase (trim code)

structure CheckoutTotals where
  subtotalMinor : ℤ
  taxMinor : ℤ
  shippingMinor : ℤ
  discountMinor : ℤ
  totalMinor : ℤ
  currency : String
  taxIncluded : Bool
  shippingName : Option String
  shippingDiscountMinor : ℤ
  deriving DecidableEq

structure CheckoutTotals.Extra where
  taxIncluded : Bool
  shippingName : Option String
  shippingDiscountMinor : ℤ

def cappedShippingDiscount (shippingDiscountMinor shippingMinor : ℤ) : ℤ :=
  min (max 0 shippingDiscountMinor) shippingMinor

namespace CheckoutTotals

def assemble (items : List CheckoutItem) (taxMinor shippingMinor discountMinor : ℤ)
    (currency : String) (extra : Extra) : CheckoutTotals :=
  let subtotalMinor := (items.map CheckoutItem.lineTotalMinor).sum
  let shippingDiscountMinor := cappedShippingDiscount extra.shippingDiscountMinor shippingMinor
  { subtotalMinor, taxMinor, shippingMinor, discountMinor
    totalMinor := max 0 (subtotalMinor + shippingMinor - shippingDiscountMinor - discountMinor +
      (if extra.taxIncluded then 0 else taxMinor))
    currency
    taxIncluded := extra.taxIncluded
    shippingName := extra.shippingName
    shippingDiscountMinor }

def reassemble (items : List CheckoutItem) (totals : CheckoutTotals) : CheckoutTotals :=
  assemble items totals.taxMinor totals.shippingMinor totals.discountMinor totals.currency
    ⟨totals.taxIncluded, totals.shippingName, totals.shippingDiscountMinor⟩

theorem cappedShippingDiscount_idem (shippingDiscountMinor shippingMinor : ℤ) :
    cappedShippingDiscount (cappedShippingDiscount shippingDiscountMinor shippingMinor)
      shippingMinor = cappedShippingDiscount shippingDiscountMinor shippingMinor := by
  simp only [cappedShippingDiscount]
  omega

theorem assemble_capped (items : List CheckoutItem) (taxMinor shippingMinor discountMinor : ℤ)
    (currency : String) (taxIncluded : Bool) (shippingName : Option String)
    (shippingDiscountMinor : ℤ) :
    assemble items taxMinor shippingMinor discountMinor currency ⟨taxIncluded, shippingName,
        cappedShippingDiscount shippingDiscountMinor shippingMinor⟩ =
      assemble items taxMinor shippingMinor discountMinor currency
        ⟨taxIncluded, shippingName, shippingDiscountMinor⟩ := by
  have hcap := cappedShippingDiscount_idem shippingDiscountMinor shippingMinor
  unfold assemble
  dsimp only
  rw [hcap]

@[simp] theorem reassemble_reassemble (items : List CheckoutItem) (totals : CheckoutTotals) :
    reassemble items (reassemble items totals) = reassemble items totals :=
  assemble_capped items _ _ _ _ _ _ _

end CheckoutTotals

inductive CheckoutState where
  | started
  | locked
  | completed
  | failed
  | expired
  deriving DecidableEq

namespace CheckoutState

def value : CheckoutState → String
  | started => "started"
  | locked => "locked"
  | completed => "completed"
  | failed => "failed"
  | expired => "expired"

def isStarted (state : CheckoutState) : Bool := state == started

def isOpen (state : CheckoutState) : Bool := state == started || state == locked

end CheckoutState

/-- The `checkout_session.recalculated` event. -/
structure CheckoutRecalculated where
  cartRef : String
  subtotalMinor : ℤ
  taxMinor : ℤ
  shippingMinor : ℤ
  discountMinor : ℤ
  totalMinor : ℤ
  currency : String

structure CheckoutSession where
  cartRef : String
  customerRef : Option String
  currency : String
  state : CheckoutState
  orderRef : Option String
  items : List CheckoutItem
  billingAddress : Option CheckoutAddress
  shippingAddress : Option CheckoutAddress
  contactEmail : Option ContactEmail
  shippingSelection : Option ShippingSelection
  paymentSelection : Option PaymentSelection
  paymentIntentRef : Option String
  taxMinor : Option ℤ
  taxIncluded : Option Bool
  discountMinor : Option ℤ
  totals : Option CheckoutTotals
  discountCodes : List String
  discountSnapshot : Option DiscountSnapshot
  rejectedCodeAttempts : ℕ
  codeAttemptsWindowStartedAt : Option ℤ
  /-- The events of this kind that wait to be published. -/
  recalculated : List CheckoutRecalculated

structure OrderDraft where
  cartRef : String
  customerRef : Option String
  contactEmail : Option String
  items : List CheckoutItem
  billingAddress : CheckoutAddress
  shippingAddress : CheckoutAddress
  totals : CheckoutTotals
  shippingMethod : Option String
  discounts : List AppliedDiscountSnapshot

structure PaymentIntentRequest where
  customerRef : Option String
  paymentMethodRef : String
  provider : String
  amountMinor : ℤ
  currency : String

namespace CheckoutSession

def start (cartRef : String) (customerRef : Option String) (currency : String) :
    CheckoutSession where
  cartRef
  customerRef
  currency
  state := .started
  orderRef := none
  items := []
  billingAddress := none
  shippingAddress := none
  contactEmail := none
  shippingSelection := none
  paymentSelection := none
  paymentIntentRef := none
  taxMinor := none
  taxIncluded := none
  discountMinor := none
  totals := none
  discountCodes := []
  discountSnapshot := none
  rejectedCodeAttempts := 0
  codeAttemptsWindowStartedAt := none
  recalculated := []

def notOpen (session : CheckoutSession) : DomainError :=
  .businessRule ("Checkout session is " ++ session.state.value ++ " and can no longer be modified")

/-- Every change but the payment intent starts with `ensureOpen`. -/
def whenOpen (session : CheckoutSession) (change : CheckoutSession) :
    Except DomainError CheckoutSession :=
  if session.state.isOpen then .ok change else .error session.notOpen

def loadItems (items : List CheckoutItem) (session : CheckoutSession) :
    Except DomainError CheckoutSession :=
  session.whenOpen { session with items }

def setBillingAddress (address : CheckoutAddress) (session : CheckoutSession) :
    Except DomainError CheckoutSession :=
  session.whenOpen { session with billingAddress := some address }

def setShippingAddress (address : CheckoutAddress) (session : CheckoutSession) :
    Except DomainError CheckoutSession :=
  session.whenOpen { session with shippingAddress := some address }

def setContactEmail (email : ContactEmail) (session : CheckoutSession) :
    Except DomainError CheckoutSession :=
  session.whenOpen { session with contactEmail := some email }

def selectShipping (selection : ShippingSelection) (session : CheckoutSession) :
    Except DomainError CheckoutSession :=
  session.whenOpen { session with shippingSelection := some selection }

def selectPayment (selection : PaymentSelection) (session : CheckoutSession) :
    Except DomainError CheckoutSession :=
  session.whenOpen { session with paymentSelection := some selection }

/-- Not gated by `ensureOpen`: the payment is initiated after the order exists. -/
def attachPaymentIntent (paymentIntentRef : String) (session : CheckoutSession) :
    Except DomainError CheckoutSession :=
  if session.orderRef = none then
    .error (.businessRule "Payment can only be initiated for a completed checkout")
  else if session.paymentSelection = none then
    .error (.businessRule "Payment cannot be initiated before a payment method is selected")
  else if session.paymentIntentRef.any (· != paymentIntentRef) then
    .error (.businessRule "This checkout already has a payment intent")
  else .ok { session with paymentIntentRef := some paymentIntentRef }

def applyTaxSnapshot (taxMinor : ℤ) (included : Bool) (session : CheckoutSession) :
    Except DomainError CheckoutSession :=
  session.whenOpen { session with taxMinor := some taxMinor, taxIncluded := some included }

def applyPromotionSnapshot (discountMinor : ℤ) (session : CheckoutSession) :
    Except DomainError CheckoutSession :=
  session.whenOpen { session with discountMinor := some discountMinor }

def tooManyCodes : DomainError :=
  .businessRule ("TOO_MANY_CODES: at most " ++ toString MAX_DISCOUNT_CODES ++ " discount codes")

def enterDiscountCode (text : TextOps) (code : String) (session : CheckoutSession) :
    Except DomainError CheckoutSession :=
  let normalized := normalizeDiscountCode text code
  if ¬ session.state.isOpen then .error session.notOpen
  else if session.discountCodes.contains normalized then .ok session
  else if MAX_DISCOUNT_CODES ≤ session.discountCodes.length then .error tooManyCodes
  else .ok { session with discountCodes := session.discountCodes ++ [normalized] }

def removeDiscountCode (text : TextOps) (code : String) (session : CheckoutSession) :
    Except DomainError CheckoutSession :=
  let normalized := normalizeDiscountCode text code
  session.whenOpen
    { session with discountCodes := session.discountCodes.filter (· != normalized) }

def applyDiscountSnapshot (snapshot : DiscountSnapshot) (session : CheckoutSession) :
    Except DomainError CheckoutSession :=
  session.whenOpen { session with
    discountSnapshot := some snapshot
    discountMinor := some snapshot.orderDiscountMinor }

def recordRejectedDiscountCode (now : ℤ) (session : CheckoutSession) :
    Except DomainError CheckoutSession :=
  session.whenOpen
    (if session.codeAttemptsWindowStartedAt.all fun start =>
        decide (DISCOUNT_ATTEMPT_WINDOW_MS ≤ now - start) then
      { session with codeAttemptsWindowStartedAt := some now, rejectedCodeAttempts := 1 }
    else { session with rejectedCodeAttempts := session.rejectedCodeAttempts + 1 })

def isDiscountCodeEntryLocked (now : ℤ) (session : CheckoutSession) : Bool :=
  (session.codeAttemptsWindowStartedAt.any fun start =>
    decide (now - start < DISCOUNT_ATTEMPT_WINDOW_MS)) &&
    decide (DISCOUNT_ATTEMPT_LIMIT ≤ session.rejectedCodeAttempts)

def hasDiscountState (session : CheckoutSession) : Bool :=
  decide (0 < session.discountCodes.length) || session.discountSnapshot.isSome

def shippingMinor (session : CheckoutSession) : ℤ :=
  (session.shippingSelection.map fun selection => (selection.rateAmountMinor : ℤ)).getD 0

def shippingName (session : CheckoutSession) : Option String :=
  session.shippingSelection.bind (·.name)

def orderDiscount (session : CheckoutSession) : ℤ := session.discountMinor.getD 0

def shippingDiscount (session : CheckoutSession) : ℤ :=
  (session.discountSnapshot.map (·.shippingDiscountMinor)).getD 0

def totalsWith (taxMinor : ℤ) (included : Bool) (session : CheckoutSession) : CheckoutTotals :=
  CheckoutTotals.assemble session.items taxMinor session.shippingMinor session.orderDiscount
    session.currency ⟨included, session.shippingName, session.shippingDiscount⟩

def recalculateTotals (session : CheckoutSession) : Except DomainError CheckoutSession :=
  if ¬ session.state.isOpen then .error session.notOpen
  else if session.items = [] then
    .error (.businessRule "Cannot recalculate totals for an empty checkout")
  else
    let totals := session.totalsWith (session.taxMinor.getD 0) (session.taxIncluded.getD false)
    .ok { session with
      totals := some totals
      recalculated := session.recalculated ++ [⟨session.cartRef, totals.subtotalMinor,
        totals.taxMinor, totals.shippingMinor, totals.discountMinor, totals.totalMinor,
        totals.currency⟩] }

def lock (session : CheckoutSession) : Except DomainError CheckoutSession :=
  if session.state.isStarted then .ok { session with state := .locked }
  else .error (.businessRule
    ("Checkout session is " ++ session.state.value ++ " and cannot be locked"))

def expire (session : CheckoutSession) : Except DomainError CheckoutSession :=
  session.whenOpen { session with state := .expired }

def complete (orderRef : String) (session : CheckoutSession) :
    Except DomainError CheckoutSession :=
  session.whenOpen { session with state := .completed, orderRef := some orderRef }

def fail (session : CheckoutSession) : Except DomainError CheckoutSession :=
  session.whenOpen { session with state := .failed }

def generateOrderDraft (session : CheckoutSession) : Except DomainError OrderDraft :=
  if session.items = [] then
    .error (.businessRule "Cannot generate an order draft with no items")
  else match session.billingAddress, session.shippingAddress with
    | some billingAddress, some shippingAddress =>
      match session.totals with
      | none =>
        .error (.businessRule "Cannot generate an order draft before totals are calculated")
      | some totals =>
        .ok {
          cartRef := session.cartRef
          customerRef := session.customerRef
          contactEmail := session.contactEmail.map (·.1)
          items := session.items
          billingAddress
          shippingAddress
          totals
          shippingMethod := session.shippingSelection.map (·.method.1)
          discounts := (session.discountSnapshot.map (·.applied)).getD [] }
    | _, _ => .error (.businessRule "Cannot generate an order draft without both addresses")

def generatePaymentIntentRequest (session : CheckoutSession) :
    Except DomainError PaymentIntentRequest :=
  match session.paymentSelection, session.totals with
  | none, _ =>
    .error (.businessRule "Cannot generate a payment intent request without a payment selection")
  | some _, none =>
    .error (.businessRule
      "Cannot generate a payment intent request before totals are calculated")
  | some selection, some totals =>
    .ok ⟨session.customerRef, selection.paymentMethodRef.1, selection.provider.1,
      totals.totalMinor, totals.currency⟩

end CheckoutSession

end Checkout

/-! ## The stored form of a checkout session

A column that is `{}` or null is `none`. The totals are stored with their sums, but rebuilt from
their snapshots over the stored lines. -/
namespace Checkout

open SharedKernel Builtins

structure CheckoutItemJson where
  productRef : String
  quantity : ℚ
  unitPriceAmountMinor : ℚ
  currency : String
  variantRef : Option String
  sku : Option String
  title : Option String
  variantTitle : Option String

structure ShippingSelectionJson where
  method : String
  rateAmountMinor : ℚ
  currency : String
  name : Option String
  description : Option String

structure PaymentSelectionJson where
  paymentMethodRef : String
  provider : String
  paymentIntentRef : Option String

structure DiscountsJson where
  codes : Option (List String)
  snapshot : Option DiscountSnapshot
  rejectedAttempts : Option ℕ
  attemptsWindowStartedAt : Option ℤ

structure CheckoutTotalsJson where
  subtotalMinor : ℤ
  taxMinor : ℤ
  shippingMinor : ℤ
  discountMinor : ℤ
  totalMinor : ℤ
  currency : String
  taxIncluded : Option Bool
  shippingName : Option String
  shippingDiscountMinor : Option ℤ

structure CheckoutSessionRow where
  cartRef : String
  customerRef : Option String
  contactEmail : Option String
  currency : String
  state : CheckoutState
  orderRef : Option String
  items : List CheckoutItemJson
  billingAddress : Option CheckoutAddressInput
  shippingAddress : Option CheckoutAddressInput
  shippingSelection : Option ShippingSelectionJson
  paymentSelection : Option PaymentSelectionJson
  taxMinor : Option ℤ
  discountMinor : Option ℤ
  totals : Option CheckoutTotalsJson
  discounts : Option DiscountsJson

/-- A row that does not pass the checks is an unexpected error, given by its message. -/
def must {α : Type} (what : String) : Except DomainError α → Except String α
  | .ok value => .ok value
  | .error e =>
    .error ("Corrupt checkout session row: invalid " ++ what ++ " (" ++ e.message ++ ")")

def mustIfSet {α β : Type} (what : String) (create : β → Except DomainError α) :
    Option β → Except String (Option α)
  | none => .ok none
  | some value => (must what (create value)).map some

def CheckoutItemJson.toItem (item : CheckoutItemJson) : Except DomainError CheckoutItem :=
  CheckoutItem.create item.productRef item.quantity item.unitPriceAmountMinor item.currency
    (item.variantRef.map fun variantRef =>
      ⟨variantRef, item.sku.getD "", item.title.getD "", item.variantTitle⟩)

def ShippingSelectionJson.toSelection (selection : ShippingSelectionJson) :
    Except DomainError ShippingSelection :=
  ShippingSelection.create selection.method selection.rateAmountMinor selection.currency
    selection.name selection.description

def PaymentSelectionJson.toSelection (selection : PaymentSelectionJson) :
    Except DomainError PaymentSelection :=
  PaymentSelection.create selection.paymentMethodRef selection.provider

def CheckoutTotalsJson.toTotals (items : List CheckoutItem) (totals : CheckoutTotalsJson) :
    CheckoutTotals :=
  CheckoutTotals.assemble items totals.taxMinor totals.shippingMinor totals.discountMinor
    totals.currency ⟨totals.taxIncluded.getD false, totals.shippingName,
      totals.shippingDiscountMinor.getD 0⟩

namespace CheckoutSessionMapper

def toDomain (text : TextOps) (row : CheckoutSessionRow) : Except String CheckoutSession := do
  let items ← row.items.mapM fun item => must "checkout item" item.toItem
  let billingAddress ← mustIfSet "billing address" CheckoutAddress.create row.billingAddress
  let contactEmail ← mustIfSet "contact email" (ContactEmail.create text) row.contactEmail
  let shippingAddress ← mustIfSet "shipping address" CheckoutAddress.create row.shippingAddress
  let shippingSelection ←
    mustIfSet "shipping selection" ShippingSelectionJson.toSelection row.shippingSelection
  let paymentSelection ←
    mustIfSet "payment selection" PaymentSelectionJson.toSelection row.paymentSelection
  return {
    cartRef := row.cartRef
    customerRef := row.customerRef
    currency := row.currency
    state := row.state
    orderRef := row.orderRef
    items
    billingAddress
    shippingAddress
    contactEmail
    shippingSelection
    paymentSelection
    paymentIntentRef := row.paymentSelection.bind (·.paymentIntentRef)
    taxMinor := row.taxMinor
    taxIncluded := row.totals.map (·.taxIncluded.getD false)
    discountMinor := row.discountMinor
    totals := row.totals.map (·.toTotals items)
    discountCodes := (row.discounts.bind (·.codes)).getD []
    discountSnapshot := row.discounts.bind (·.snapshot)
    rejectedCodeAttempts := (row.discounts.bind (·.rejectedAttempts)).getD 0
    codeAttemptsWindowStartedAt := row.discounts.bind (·.attemptsWindowStartedAt)
    recalculated := [] }

def toItemJson (item : CheckoutItem) : CheckoutItemJson where
  productRef := item.productRef.1
  quantity := (item.quantity : ℕ)
  unitPriceAmountMinor := item.unitPriceAmountMinor
  currency := item.currency
  variantRef := item.merchandise.map (·.variantRef)
  sku := item.merchandise.map (·.sku)
  title := item.merchandise.map (·.title)
  variantTitle := item.merchandise.bind (·.variantTitle)

def toTotalsJson (totals : CheckoutTotals) : CheckoutTotalsJson where
  subtotalMinor := totals.subtotalMinor
  taxMinor := totals.taxMinor
  shippingMinor := totals.shippingMinor
  discountMinor := totals.discountMinor
  totalMinor := totals.totalMinor
  currency := totals.currency
  taxIncluded := some totals.taxIncluded
  shippingName := totals.shippingName
  shippingDiscountMinor := some totals.shippingDiscountMinor

/-- The session has something to keep in its `discounts` column. -/
def keepsDiscounts (session : CheckoutSession) : Bool :=
  session.hasDiscountState || decide (0 < session.rejectedCodeAttempts)

def toRow (session : CheckoutSession) : CheckoutSessionRow where
  cartRef := session.cartRef
  customerRef := session.customerRef
  contactEmail := session.contactEmail.map (·.1)
  currency := session.currency
  state := session.state
  orderRef := session.orderRef
  items := session.items.map toItemJson
  billingAddress := session.billingAddress.map (·.1)
  shippingAddress := session.shippingAddress.map (·.1)
  shippingSelection := session.shippingSelection.map fun selection =>
    ⟨selection.method.1, selection.rateAmountMinor, selection.currency, selection.name,
      selection.description⟩
  paymentSelection := session.paymentSelection.map fun selection =>
    ⟨selection.paymentMethodRef.1, selection.provider.1, session.paymentIntentRef⟩
  taxMinor := session.taxMinor
  discountMinor := session.discountMinor
  totals := session.totals.map toTotalsJson
  discounts :=
    if keepsDiscounts session then
      some ⟨some session.discountCodes, session.discountSnapshot,
        some session.rejectedCodeAttempts, session.codeAttemptsWindowStartedAt⟩
    else none

theorem toDomain_keeps {text : TextOps} {row : CheckoutSessionRow} {session : CheckoutSession}
    (h : toDomain text row = .ok session) : session.state = row.state ∧
      session.orderRef = row.orderRef ∧ session.recalculated = [] := by
  obtain ⟨_, _, h⟩ := bind_eq_ok.mp h
  obtain ⟨_, _, h⟩ := bind_eq_ok.mp h
  obtain ⟨_, _, h⟩ := bind_eq_ok.mp h
  obtain ⟨_, _, h⟩ := bind_eq_ok.mp h
  obtain ⟨_, _, h⟩ := bind_eq_ok.mp h
  obtain ⟨_, _, h⟩ := bind_eq_ok.mp h
  cases h
  exact ⟨rfl, rfl, rfl⟩

/-- The session as it is read back, with its email address as that reads back. -/
def readBack (session : CheckoutSession) (contactEmail : Option ContactEmail) :
    CheckoutSession :=
  { session with
    contactEmail
    paymentIntentRef := session.paymentSelection.bind fun _ => session.paymentIntentRef
    taxIncluded := session.totals.map (·.taxIncluded)
    totals := session.totals.map (·.reassemble session.items)
    codeAttemptsWindowStartedAt :=
      if keepsDiscounts session then session.codeAttemptsWindowStartedAt else none
    recalculated := [] }

theorem toItem_toItemJson (item : CheckoutItem) : (toItemJson item).toItem = .ok item := by
  have hmerchandise : ((toItemJson item).variantRef.map fun variantRef =>
      (⟨variantRef, (toItemJson item).sku.getD "", (toItemJson item).title.getD "",
        (toItemJson item).variantTitle⟩ : CheckoutItemMerchandise)) = item.merchandise := by
    cases hm : item.merchandise with
    | none | some merchandise => simp [toItemJson, hm]
  rw [CheckoutItemJson.toItem]
  rw [hmerchandise]
  exact item.create_self

theorem mapM_toItem (items : List CheckoutItem) :
    (items.map toItemJson).mapM (fun item => must "checkout item" item.toItem) = .ok items := by
  refine (FallibleFolds.mapM_written fun item _ => ?_).trans (congrArg _ items.map_id)
  rw [toItem_toItemJson]
  rfl

theorem mustIfSet_map {α β : Type} (what : String) (create : β → Except DomainError α)
    (store : α → β) (h : ∀ a, create (store a) = .ok a) (value : Option α) :
    mustIfSet what create (value.map store) = .ok value := by
  cases value with
  | none => rfl
  | some a =>
    rw [Option.map_some, mustIfSet, h]
    rfl

theorem of_not_keepsDiscounts {session : CheckoutSession} (h : ¬ keepsDiscounts session = true) :
    session.discountCodes = [] ∧ session.discountSnapshot = none ∧
      session.rejectedCodeAttempts = 0 := by
  simp only [keepsDiscounts, CheckoutSession.hasDiscountState, Bool.or_eq_true,
    decide_eq_true_eq, not_or, Option.not_isSome_iff_eq_none, ne_eq, not_not,
    Nat.pos_iff_ne_zero] at h
  obtain ⟨⟨hcodes, hsnapshot⟩, hrejected⟩ := h
  exact ⟨List.length_eq_zero_iff.mp hcodes, hsnapshot, hrejected⟩

/-- A stored session reads back as it was, but for its events, for what is kept inside the
totals, and for its email address, which is normalised once more. -/
theorem toDomain_toRow (text : TextOps) (session : CheckoutSession) :
    toDomain text (toRow session) =
      (mustIfSet "contact email" (ContactEmail.create text)
        (session.contactEmail.map (·.1))).map (readBack session) := by
  have hbilling := mustIfSet_map "billing address" CheckoutAddress.create (fun a => a.1)
    CheckoutAddress.create_self session.billingAddress
  have hshipping := mustIfSet_map "shipping address" CheckoutAddress.create (fun a => a.1)
    CheckoutAddress.create_self session.shippingAddress
  have hselection := mustIfSet_map "shipping selection" ShippingSelectionJson.toSelection
    (fun selection => ⟨selection.method.1, selection.rateAmountMinor, selection.currency,
      selection.name, selection.description⟩)
    ShippingSelection.create_self session.shippingSelection
  have hpayment := mustIfSet_map "payment selection" PaymentSelectionJson.toSelection
    (fun selection => ⟨selection.paymentMethodRef.1, selection.provider.1,
      session.paymentIntentRef⟩)
    PaymentSelection.create_self session.paymentSelection
  rw [toDomain]
  simp only [toRow, mapM_toItem, hbilling, hshipping, hselection, hpayment, ok_bind]
  cases mustIfSet "contact email" (ContactEmail.create text) (session.contactEmail.map (·.1)) with
  | error e => rfl
  | ok contactEmail =>
    apply congrArg Except.ok
    rw [readBack]
    congr 1
    · cases session.paymentSelection with
      | none | some selection => rfl
    · rw [Option.map_map]
      rfl
    · rw [Option.map_map]
      rfl
    · by_cases hk : keepsDiscounts session = true
      · rw [if_pos hk]
        rfl
      · rw [if_neg hk]
        exact (of_not_keepsDiscounts hk).1.symm
    · by_cases hk : keepsDiscounts session = true
      · rw [if_pos hk]
        rfl
      · rw [if_neg hk]
        exact (of_not_keepsDiscounts hk).2.1.symm
    · by_cases hk : keepsDiscounts session = true
      · rw [if_pos hk]
        rfl
      · rw [if_neg hk]
        exact (of_not_keepsDiscounts hk).2.2.symm
    · by_cases hk : keepsDiscounts session = true
      · rw [if_pos hk, if_pos hk]
        rfl
      · rw [if_neg hk, if_neg hk]
        rfl

end CheckoutSessionMapper

end Checkout
