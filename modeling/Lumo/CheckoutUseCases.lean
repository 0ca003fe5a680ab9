import Lumo.CheckoutSession

/-! # The use cases of a checkout

What other contexts answer is a parameter of each call. A port that fails ends the call with its
error. -/
namespace Checkout

open SharedKernel Builtins

structure TaxDestination where
  country : String
  province : Option String
  deriving DecidableEq

structure TaxRequest where
  items : List CheckoutItem
  destination : TaxDestination
  shippingMinor : ℤ
  currency : String
  orderDiscountMinor : ℤ
  shippingDiscountMinor : ℤ
  deriving DecidableEq

structure TaxCalculationResult where
  taxMinor : ℤ
  included : Bool

abbrev TaxCalculationPort := TaxRequest → Except DomainError TaxCalculationResult

structure TaxCalculation where
  request : TaxRequest
  result : TaxCalculationResult

structure DestinationRate where
  countryCode : String
  rateMinor : ℕ

structure DiscountEvaluationInput where
  items : List CheckoutItem
  shipping : Option DestinationRate
  customerRef : Option String
  email : Option String
  codes : List String

structure PromotionValidationInput where
  items : List CheckoutItem
  customerRef : Option String
  promotionRef : Option String
  currency : String

structure PromotionValidationResult where
  valid : Bool
  discountMinor : ℤ

structure PromotionValidationPort where
  validate : PromotionValidationInput → Except DomainError PromotionValidationResult
  evaluate : DiscountEvaluationInput → Except DomainError DiscountSnapshot

structure ShippingQuote where
  method : String
  name : String
  rateAmountMinor : ℚ
  description : Option String

abbrev ShippingCalculationPort :=
  CheckoutAddress → List CheckoutItem → String → Except DomainError (List ShippingQuote)

structure InventoryValidationResult where
  valid : Bool
  reason : Option String

abbrev InventoryValidationPort := List CheckoutItem → Except DomainError InventoryValidationResult

abbrev StockReservationResult := Except String Unit

abbrev OrderStockReservationPort :=
  String → List CheckoutItem → Except DomainError StockReservationResult

structure OrderRequest where
  draft : OrderDraft
  currency : String
  idempotencyKey : String

abbrev OrderCreationPort := OrderRequest → Except DomainError String

structure PaymentInitiation where
  orderRef : String
  provider : String
  amountMinor : ℤ
  currency : String

structure OpenedPayment where
  paymentIntentId : String
  status : String
  provider : String
  clientHandle : Option String

abbrev PaymentInitiationPort := PaymentInitiation → Except DomainError OpenedPayment

/-- The session a call works on, and the tax calculations made for it so far. -/
structure Work where
  session : CheckoutSession
  calculations : List TaxCalculation

/-- An order that was created, with the session it was drafted from. It is undone when its stock
could not be reserved. -/
structure PlacedOrder where
  orderRef : String
  draft : OrderDraft
  session : CheckoutSession
  undone : Bool

structure Outcome (α : Type) where
  answer : Except DomainError α
  saved : Option Work
  placed : Option PlacedOrder
  initiated : Option PaymentInitiation

namespace Outcome

variable {α : Type}

/-- Nothing is saved. -/
def unsaved (answer : Except DomainError α) : Outcome α := ⟨answer, none, none, none⟩

def ofWork : Except DomainError (Work × α) → Outcome α
  | .ok (work, answer) => ⟨.ok answer, some work, none, none⟩
  | .error e => unsaved (.error e)

/-- `withSession`. -/
def ofSession (mutated : Except DomainError CheckoutSession) : Outcome Unit :=
  ofWork (mutated.map fun session => (⟨session, []⟩, ()))

end Outcome

namespace CheckoutSession

def evaluationInput (session : CheckoutSession) : DiscountEvaluationInput where
  items := session.items
  shipping := session.shippingAddress.bind fun address =>
    session.shippingSelection.map fun selection => ⟨address.1.country, selection.rateAmountMinor⟩
  customerRef := session.customerRef
  email := session.contactEmail.map (·.1)
  codes := session.discountCodes

def taxRequest (session : CheckoutSession) : Option TaxRequest :=
  session.shippingAddress.map fun address =>
    ⟨session.items, ⟨address.1.country, address.1.province⟩, session.shippingMinor,
      session.currency, session.orderDiscount, session.shippingDiscount⟩

end CheckoutSession

def refreshDiscounts (port : PromotionValidationPort) (session : CheckoutSession) :
    Except DomainError CheckoutSession := do
  let snapshot ← port.evaluate session.evaluationInput
  if 0 < snapshot.applied.length ∨ session.hasDiscountState = true then
    session.applyDiscountSnapshot snapshot
  else .ok session

def calculateAndStoreTax (port : TaxCalculationPort) (work : Work) :
    Except DomainError (Work × TaxCalculationResult) :=
  match work.session.taxRequest with
  | none => .error (.businessRule
      "Cannot request tax calculation before a shipping address is set")
  | some request => do
    let result ← port request
    let session ← work.session.applyTaxSnapshot result.taxMinor result.included
    return (⟨session, work.calculations ++ [⟨request, result⟩]⟩, result)

def retax (taxCalculation : Option TaxCalculationPort) (discountsChanged : Bool) (work : Work) :
    Except DomainError Work :=
  match taxCalculation with
  | none => .ok work
  | some port =>
    if discountsChanged = true ∧ work.session.shippingAddress.isSome = true ∧
        work.session.taxMinor.isSome = true then
      (calculateAndStoreTax port work).map (·.1)
    else .ok work

def refreshDiscountsAndTax (promotionValidation : PromotionValidationPort)
    (taxCalculation : Option TaxCalculationPort) (work : Work) :
    Except DomainError (Work × Bool) := do
  let session ← refreshDiscounts promotionValidation work.session
  let discountsChanged := decide (work.session.orderDiscount ≠ session.orderDiscount ∨
    work.session.shippingDiscount ≠ session.shippingDiscount)
  let retaxed ← retax taxCalculation discountsChanged { work with session }
  return (retaxed, discountsChanged)

def recalculateIfPossible (work : Work) : Except DomainError Work :=
  if 0 < work.session.items.length then
    work.session.recalculateTotals.map fun session => { work with session }
  else .ok work

structure LoadItemInput where
  productId : String
  quantity : ℚ
  unitPriceAmountMinor : ℚ
  currency : String
  variantId : Option String
  sku : Option String
  title : Option String
  variantTitle : Option String

def LoadItemInput.toItem (raw : LoadItemInput) : Except DomainError CheckoutItem := do
  let product ← Guard.againstEmpty raw.productId "productId"
  CheckoutItem.create product.1 raw.quantity raw.unitPriceAmountMinor raw.currency
    (raw.variantId.map fun variantId =>
      ⟨variantId, raw.sku.getD "", raw.title.getD "", raw.variantTitle⟩)

def loadItems (items : List LoadItemInput) (session : CheckoutSession) : Outcome Unit :=
  .ofSession do
    let items ← items.mapM LoadItemInput.toItem
    session.loadItems items

def checkedAddress (regions : Regions) (input : CheckoutAddressInput) :
    Except DomainError CheckoutAddress := do
  let address ← CheckoutAddress.create input
  match provinceProblem regions input.country input.province with
  | some problem => .error problem
  | none => .ok address

def setBillingAddress (regions : Regions) (input : CheckoutAddressInput)
    (session : CheckoutSession) : Outcome Unit :=
  .ofSession do
    let address ← checkedAddress regions input
    session.setBillingAddress address

def setShippingAddress (regions : Regions) (input : CheckoutAddressInput)
    (session : CheckoutSession) : Outcome Unit :=
  .ofSession do
    let address ← checkedAddress regions input
    session.setShippingAddress address

def setContactEmail (text : TextOps) (email : String) (session : CheckoutSession) :
    Outcome Unit :=
  .ofSession do
    let email ← ContactEmail.create text email
    session.setContactEmail email

/-- The rate is the one quoted now for the chosen method. -/
def selectShipping (shippingCalculation : ShippingCalculationPort) (method : String)
    (session : CheckoutSession) : Outcome Unit :=
  .ofSession
    (match session.shippingAddress with
      | none => .error (.businessRule
          "Cannot select shipping before a shipping address is set")
      | some address => do
        let quotes ← shippingCalculation address session.items session.currency
        match quotes.find? (·.method == method) with
        | none => .error (.validation "Unknown or unavailable shipping method"
            [⟨"method", "does not match any current shipping quote"⟩])
        | some matched =>
          let selection ← ShippingSelection.create matched.method matched.rateAmountMinor
            session.currency (some matched.name) matched.description
          session.selectShipping selection)

def selectPayment (enabledMethods : List String) (paymentMethodRef provider : String)
    (session : CheckoutSession) : Outcome Unit :=
  .ofSession do
    let selection ← PaymentSelection.create paymentMethodRef provider
    if enabledMethods.contains provider then session.selectPayment selection
    else .error (.validation "Payment method is not available"
      [⟨"provider", "is not offered by this merchant"⟩])

structure DiscountCodeOutput where
  state : CheckoutState
  code : String
  applicable : Bool
  reason : Option String

def rejectDiscountCode (text : TextOps) (code : String) (now : ℤ)
    (promotionValidation : PromotionValidationPort) (taxCalculation : Option TaxCalculationPort)
    (work : Work) : Except DomainError Work := do
  let removed ← work.session.removeDiscountCode text code
  let counted ← removed.recordRejectedDiscountCode now
  let refreshed ← refreshDiscountsAndTax promotionValidation taxCalculation
    { work with session := counted }
  return refreshed.1

def tryDiscountCode (text : TextOps) (code : String) (now : ℤ)
    (promotionValidation : PromotionValidationPort) (taxCalculation : Option TaxCalculationPort)
    (entered : CheckoutSession) : Except DomainError (Work × DiscountCodeOutput) := do
  let refreshed ← refreshDiscountsAndTax promotionValidation taxCalculation ⟨entered, []⟩
  let status := refreshed.1.session.discountSnapshot.bind fun snapshot =>
    snapshot.codeStatuses.find? (·.code == code)
  let applicable := status.any (·.applicable)
  let kept ← (if applicable then .ok refreshed.1
    else rejectDiscountCode text code now promotionValidation taxCalculation refreshed.1)
  let work ← recalculateIfPossible kept
  return (work, ⟨work.session.state, code, applicable,
    if applicable then none else some ((status.bind (·.reason)).getD "not_found")⟩)

def addDiscountCode (text : TextOps) (code : String) (now : ℤ)
    (promotionValidation : PromotionValidationPort) (taxCalculation : Option TaxCalculationPort)
    (session : CheckoutSession) : Outcome DiscountCodeOutput :=
  let code := normalizeDiscountCode text code
  if code = "" then
    .unsaved (.error (.validation "Invalid discount code" [⟨"code", "required"⟩]))
  else if session.isDiscountCodeEntryLocked now then
    .unsaved (.ok ⟨session.state, code, false, some "too_many_attempts"⟩)
  else match session.enterDiscountCode text code with
    | .error e =>
      if "TOO_MANY_CODES".toList.isPrefixOf e.message.toList then
        .unsaved (.ok ⟨session.state, code, false, some "too_many_codes"⟩)
      else .unsaved (.error e)
    | .ok entered =>
      .ofWork (tryDiscountCode text code now promotionValidation taxCalculation entered)

def removeDiscountCode (text : TextOps) (code : String)
    (promotionValidation : PromotionValidationPort) (taxCalculation : Option TaxCalculationPort)
    (session : CheckoutSession) : Outcome CheckoutState :=
  .ofWork do
    let removed ← session.removeDiscountCode text code
    let refreshed ← refreshDiscountsAndTax promotionValidation taxCalculation ⟨removed, []⟩
    let work ← recalculateIfPossible refreshed.1
    return (work, work.session.state)

structure RequestTaxCalculationOutput where
  state : CheckoutState
  taxMinor : ℤ

def requestTaxCalculation (taxCalculation : TaxCalculationPort)
    (promotionValidation : Option PromotionValidationPort) (session : CheckoutSession) :
    Outcome RequestTaxCalculationOutput :=
  if session.shippingAddress = none then
    .unsaved (.error (.businessRule
      "Cannot request tax calculation before a shipping address is set"))
  else .ofWork do
    let refreshed ← (match promotionValidation with
      | none => .ok session
      | some port => refreshDiscounts port session)
    let taxed ← calculateAndStoreTax taxCalculation ⟨refreshed, []⟩
    -- whether the tax is inside the prices is only stored with the totals
    let work ← recalculateIfPossible taxed.1
    return (work, ⟨work.session.state, taxed.2.taxMinor⟩)

def recalculateTotals (promotionValidation : Option PromotionValidationPort)
    (taxCalculation : Option TaxCalculationPort) (session : CheckoutSession) :
    Outcome CheckoutState :=
  .ofWork do
    let refreshed ← (match promotionValidation with
      | none => .ok (⟨session, []⟩, false)
      | some port => refreshDiscountsAndTax port taxCalculation ⟨session, []⟩)
    let recalculated ← refreshed.1.session.recalculateTotals
    return ({ refreshed.1 with session := recalculated }, recalculated.state)

structure ValidatePromotionOutput where
  state : CheckoutState
  valid : Bool
  discountMinor : ℤ

def validatePromotion (promotionValidation : PromotionValidationPort)
    (promotionRef : Option String) (session : CheckoutSession) :
    Outcome ValidatePromotionOutput :=
  match promotionValidation.validate
      ⟨session.items, session.customerRef, promotionRef, session.currency⟩ with
  | .error e => .unsaved (.error e)
  | .ok result =>
    if result.valid then
      .ofWork do
        let applied ← session.applyPromotionSnapshot result.discountMinor
        return (⟨applied, []⟩, ⟨applied.state, true, result.discountMinor⟩)
    else .unsaved (.ok ⟨session.state, false, 0⟩)

def lock (session : CheckoutSession) : Outcome Unit := .ofSession session.lock

def expireCheckout (session : CheckoutSession) : Outcome Unit := .ofSession session.expire

def failCheckout (reason : String) (session : CheckoutSession) : Outcome Unit :=
  .ofSession do
    let _ ← Guard.againstEmpty reason "reason"
    session.fail

structure CompleteCheckoutDeps where
  orderCreation : OrderCreationPort
  inventoryValidation : Option InventoryValidationPort
  stockReservation : Option OrderStockReservationPort
  promotionValidation : Option PromotionValidationPort
  taxCalculation : Option TaxCalculationPort

structure CompleteCheckoutOutput where
  state : CheckoutState
  orderRef : String

def outOfStock (reason : String) : DomainError := .businessRule ("OUT_OF_STOCK: " ++ reason)

def validateStock (port : Option InventoryValidationPort) (items : List CheckoutItem) :
    Except DomainError Unit :=
  match port with
  | none => .ok ()
  | some validate => do
    let stock ← validate items
    if stock.valid then .ok ()
    else .error (outOfStock (stock.reason.getD "insufficient stock"))

def reserveStock (port : Option OrderStockReservationPort) (orderRef : String)
    (items : List CheckoutItem) : StockReservationResult :=
  match port with
  | none => .ok ()
  | some reserve =>
    match reserve orderRef items with
    | .ok reserved => reserved
    | .error _ => .error "insufficient stock"

/-- The end of `CompleteCheckout`, from the order draft on. -/
def placeOrder (deps : CompleteCheckoutDeps) (idempotencyKey : String) (work : Work) :
    Outcome CompleteCheckoutOutput :=
  let created : Except DomainError (OrderDraft × String) := do
    let draft ← work.session.generateOrderDraft
    validateStock deps.inventoryValidation work.session.items
    let orderRef ← deps.orderCreation ⟨draft, work.session.currency, idempotencyKey⟩
    return (draft, orderRef)
  match created with
  | .error e => .unsaved (.error e)
  | .ok (draft, orderRef) =>
    match reserveStock deps.stockReservation orderRef work.session.items with
    | .error reason =>
      ⟨.error (outOfStock reason), none, some ⟨orderRef, draft, work.session, true⟩, none⟩
    | .ok () =>
      let placed := some ⟨orderRef, draft, work.session, false⟩
      match work.session.complete orderRef with
      | .error e => ⟨.error e, none, placed, none⟩
      | .ok session =>
        ⟨.ok ⟨session.state, orderRef⟩, some { work with session }, placed, none⟩

def reviewDiscounts (work : Work) : Outcome CompleteCheckoutOutput :=
  match work.session.recalculateTotals with
  | .error e => .unsaved (.error e)
  | .ok session =>
    ⟨.error (.businessRule "DISCOUNTS_CHANGED: the discounts changed; review the new total"),
      some { work with session }, none, none⟩

def completeCheckout (deps : CompleteCheckoutDeps) (idempotencyKey : String)
    (session : CheckoutSession) : Outcome CompleteCheckoutOutput :=
  match Guard.againstEmpty idempotencyKey "idempotencyKey", session.orderRef with
  | .error e, _ => .unsaved (.error e)
  | .ok _, some orderRef => .unsaved (.ok ⟨session.state, orderRef⟩)
  | .ok _, none =>
    if ¬ session.state.isOpen then .unsaved (.error session.notOpen)
    else match deps.promotionValidation with
      | none => placeOrder deps idempotencyKey ⟨session, []⟩
      | some port =>
        match refreshDiscountsAndTax port deps.taxCalculation ⟨session, []⟩ with
        | .error e => .unsaved (.error e)
        | .ok (work, discountsChanged) =>
          if discountsChanged = true ∨ work.session.taxMinor ≠ session.taxMinor then
            reviewDiscounts work
          else placeOrder deps idempotencyKey work

structure InitiatePaymentOutput where
  provider : String
  paymentIntentId : String
  status : String
  clientHandle : Option String

def initiatePayment (paymentInitiation : PaymentInitiationPort) (session : CheckoutSession) :
    Outcome InitiatePaymentOutput :=
  match session.orderRef, session.paymentSelection, session.totals with
  | none, _, _ => .unsaved (.error (.businessRule
      "Payment can only be initiated for a completed checkout"))
  | some _, none, _ => .unsaved (.error (.businessRule
      "Payment cannot be initiated before a payment method is selected"))
  | some _, some _, none => .unsaved (.error (.businessRule
      "Payment cannot be initiated before totals are calculated"))
  | some orderRef, some selection, some totals =>
    match session.paymentIntentRef with
    | some paymentIntentRef =>
      .unsaved (.ok ⟨selection.provider.1, paymentIntentRef, "existing", none⟩)
    | none =>
      let request : PaymentInitiation :=
        ⟨orderRef, selection.provider.1, totals.totalMinor, totals.currency⟩
      match paymentInitiation request with
      | .error e => ⟨.error e, none, none, some request⟩
      | .ok opened =>
        match session.attachPaymentIntent opened.paymentIntentId with
        | .error e => ⟨.error e, none, none, some request⟩
        | .ok attached =>
          ⟨.ok ⟨opened.provider, opened.paymentIntentId, opened.status, opened.clientHandle⟩,
            some ⟨attached, []⟩, none, some request⟩

end Checkout
