import Lumo.FallibleFolds
import Lumo.OrdersHistory

/-! # The order in the database

The aggregate with all that it stores, its rows, and the mapping between them. A row of JSON is the
value that it stands for. -/
namespace OrdersStorage

open SharedKernel Builtins Orders

structure AddressSnapshotExtra where
  recipientName : Option String
  phone : Option String
  line2 : Option String
  province : Option String
  deriving DecidableEq

structure AddressSnapshot where
  line1 : String
  city : String
  postalCode : String
  country : String
  extra : AddressSnapshotExtra
  filled : isBlank line1 = false ∧ isBlank city = false ∧ isBlank country = false
  deriving DecidableEq

def AddressSnapshot.create (line1 city postalCode country : String)
    (extra : AddressSnapshotExtra) : Except DomainError AddressSnapshot :=
  if filled : isBlank line1 = false ∧ isBlank city = false ∧ isBlank country = false then
    .ok ⟨line1, city, postalCode, country, extra, filled⟩
  else .error (.validation "Invalid address"
    (([("line1", line1), ("city", city), ("country", country)].filter fun field =>
      isBlank field.2).map fun field => ⟨field.1, "must not be empty"⟩))

structure ProductSnapshotVariant where
  variantRef : String
  sku : String
  variantTitle : Option String
  deriving DecidableEq

structure ProductSnapshot where
  productId : String
  name : String
  unitPrice : Money
  variant : Option ProductSnapshotVariant
  filled : isBlank productId = false ∧ isBlank name = false
  deriving DecidableEq

def ProductSnapshot.create (productId name : String) (unitPrice : Money)
    (variant : Option ProductSnapshotVariant) : Except DomainError ProductSnapshot :=
  if filled : isBlank productId = false ∧ isBlank name = false then
    .ok ⟨productId, name, unitPrice, variant, filled⟩
  else .error (.validation "Invalid product snapshot"
    (([("productId", productId), ("name", name)].filter fun field => isBlank field.2).map
      fun field => ⟨field.1, "must not be empty"⟩))

structure OrderLine where
  id : UniqueEntityId
  snapshot : ProductSnapshot
  quantity : ℕ
  deriving DecidableEq

@[ext]
structure OrderNumber where
  value : String
  notEmpty : isBlank value = false

instance : DecidableEq OrderNumber := fun a b =>
  decidable_of_iff (a.value = b.value) OrderNumber.ext_iff.symm

def OrderNumber.create (value : String) : Except DomainError OrderNumber :=
  (Guard.againstEmpty value "orderNumber").map fun v => ⟨v.1, v.notEmpty⟩

structure OrderDiscountLine where
  title : String
  code : Option String
  discountClass : String
  amountMinor : ℚ
  deriving DecidableEq

/-- The totals as checkout assembled them; the last three may be absent. -/
structure TotalsProps where
  subtotalMinor : ℚ
  taxMinor : ℚ
  shippingMinor : ℚ
  discountMinor : ℚ
  totalMinor : ℚ
  currency : String
  shippingMethod : Option String
  shippingName : Option String
  taxIncluded : Option Bool
  shippingDiscountMinor : Option ℚ
  discounts : Option (List OrderDiscountLine)
  deriving DecidableEq

structure ShownTotals where
  subtotalMinor : ℚ
  taxMinor : ℚ
  shippingMinor : ℚ
  discountMinor : ℚ
  totalMinor : ℚ
  currency : String
  shippingMethod : Option String
  shippingName : Option String
  taxIncluded : Bool
  shippingDiscountMinor : ℚ
  discounts : List OrderDiscountLine

def TotalsProps.shown (totals : TotalsProps) : ShownTotals where
  subtotalMinor := totals.subtotalMinor
  taxMinor := totals.taxMinor
  shippingMinor := totals.shippingMinor
  discountMinor := totals.discountMinor
  totalMinor := totals.totalMinor
  currency := totals.currency
  shippingMethod := totals.shippingMethod
  shippingName := totals.shippingName
  taxIncluded := totals.taxIncluded.getD false
  shippingDiscountMinor := totals.shippingDiscountMinor.getD 0
  discounts := totals.discounts.getD []

structure OrderAggregate where
  id : UniqueEntityId
  version : ℕ
  orderNumber : OrderNumber
  customerRef : String
  currency : String
  items : List OrderLine
  shippingAddress : AddressSnapshot
  history : List OrderEvent
  billingAddress : Option AddressSnapshot
  totals : Option TotalsProps
  checkoutRef : Option String
  paymentRef : Option String
  fulfillmentRef : Option String
  deriving DecidableEq

def OrderLine.item (line : OrderLine) : OrderItem := ⟨line.snapshot.unitPrice, line.quantity⟩

namespace OrderAggregate

/-- The part of the aggregate that its methods read and change. -/
def order (aggregate : OrderAggregate) : Order where
  orderNumber := aggregate.orderNumber.value
  customerRef := aggregate.customerRef
  currency := aggregate.currency
  items := aggregate.items.map OrderLine.item
  history := aggregate.history
  totals := aggregate.totals.map fun totals => ⟨totals.totalMinor, totals.currency⟩
  checkoutRef := aggregate.checkoutRef
  paymentRef := aggregate.paymentRef
  fulfillmentRef := aggregate.fulfillmentRef
  domainEvents := []

/-- The aggregate after a method, of which the history and two references may have changed; the
events go to the outbox. -/
def withOrder (aggregate : OrderAggregate) (order : Order) : OrderAggregate :=
  { aggregate with
    history := order.history
    paymentRef := order.paymentRef
    fulfillmentRef := order.fulfillmentRef }

/-- The aggregate after an operation that does not throw. -/
def perform (aggregate : OrderAggregate) (act : Act) : Except DomainError OrderAggregate :=
  match act.operation.method act.eventId act.occurredAt aggregate.order with
  | .ok _ order => .ok (aggregate.withOrder order)
  | .error e _ => .error e

end OrderAggregate

structure NewOrder where
  id : UniqueEntityId
  orderNumber : OrderNumber
  customerRef : String
  currency : String
  items : List OrderLine
  shippingAddress : AddressSnapshot

structure FromCheckout where
  billingAddress : AddressSnapshot
  totals : TotalsProps
  checkoutRef : String

def NewOrder.aggregate (new : NewOrder) (checkout : Option FromCheckout) (order : Order) :
    OrderAggregate where
  id := new.id
  version := 0
  orderNumber := new.orderNumber
  customerRef := new.customerRef
  currency := new.currency
  items := new.items
  shippingAddress := new.shippingAddress
  history := order.history
  billingAddress := checkout.map (·.billingAddress)
  totals := checkout.map (·.totals)
  checkoutRef := checkout.map (·.checkoutRef)
  paymentRef := order.paymentRef
  fulfillmentRef := order.fulfillmentRef

def place (new : NewOrder) (eventId : String) (occurredAt : ℤ) :
    Except DomainError OrderAggregate :=
  (Order.place new.orderNumber.value new.customerRef new.currency
    (new.items.map OrderLine.item) eventId occurredAt).map (new.aggregate none)

def createFromCheckout (new : NewOrder) (checkout : FromCheckout) (eventId : String)
    (occurredAt : ℤ) : Except DomainError OrderAggregate :=
  (Order.createFromCheckout new.orderNumber.value new.customerRef new.currency
    (new.items.map OrderLine.item) ⟨checkout.totals.totalMinor, checkout.totals.currency⟩
    checkout.checkoutRef eventId occurredAt).map (new.aggregate (some checkout))

structure AddressRow where
  line1 : String
  city : String
  postalCode : String
  country : String
  recipientName : Option String
  phone : Option String
  line2 : Option String
  province : Option String
  deriving DecidableEq

structure OrderRow where
  id : String
  orderNumber : String
  customerRef : String
  currency : String
  checkoutRef : Option String
  paymentRef : Option String
  fulfillmentRef : Option String
  billingAddress : Option AddressRow
  totals : Option TotalsProps
  version : ℕ
  deriving DecidableEq

structure OrderItemRow where
  id : String
  productRef : String
  name : String
  unitPriceAmountMinor : ℕ
  quantity : ℕ
  variantRef : Option String
  sku : Option String
  variantTitle : Option String
  deriving DecidableEq

structure OrderEventRow where
  id : String
  type : OrderEventType
  occurredAt : ℤ
  deriving DecidableEq

structure Rows where
  order : OrderRow
  items : List OrderItemRow
  events : List OrderEventRow
  address : AddressRow
  deriving DecidableEq

namespace OrderMapper

def must {α : Type} (what : String) : Except DomainError α → Except String α
  | .ok value => .ok value
  | .error e => .error ("Corrupt orders row: invalid " ++ what ++ " (" ++ e.message ++ ")")

/-- `UniqueEntityId.from`, which throws. -/
def idFrom (value : String) : Except String UniqueEntityId :=
  match UniqueEntityId.from value with
  | .ok id => .ok id
  | .error e => .error e.message

def toExtra (row : AddressRow) : AddressSnapshotExtra :=
  ⟨row.recipientName, row.phone, row.line2, row.province⟩

def toAddress (what : String) (row : AddressRow) : Except String AddressSnapshot :=
  must what (AddressSnapshot.create row.line1 row.city row.postalCode row.country (toExtra row))

def toItem (currency : String) (row : OrderItemRow) : Except String OrderLine := do
  let id ← idFrom row.id
  let unitPrice ← must "item unit price" (Money.create row.unitPriceAmountMinor currency)
  let snapshot ← must "product snapshot" (ProductSnapshot.create row.productRef row.name unitPrice
    (row.variantRef.map fun variantRef => ⟨variantRef, row.sku.getD "", row.variantTitle⟩))
  return ⟨id, snapshot, row.quantity⟩

def toEvent (row : OrderEventRow) : Except String OrderEvent := do
  let id ← idFrom row.id
  return ⟨id, row.type, row.occurredAt⟩

def toBilling : Option AddressRow → Except String (Option AddressSnapshot)
  | none => .ok none
  | some row => (toAddress "billing address" row).map some

def toTotals (totals : TotalsProps) : TotalsProps :=
  { totals with taxIncluded := some (totals.taxIncluded.getD false) }

/-- The rows of items and events come in the order in which the database answers them. -/
def toDomain (row : OrderRow) (items : List OrderItemRow) (events : List OrderEventRow)
    (address : AddressRow) : Except String OrderAggregate := do
  let items ← items.mapM (toItem row.currency)
  let history ← events.mapM toEvent
  let id ← idFrom row.id
  let orderNumber ← must "order number" (OrderNumber.create row.orderNumber)
  let shippingAddress ← toAddress "shipping address" address
  let billingAddress ← toBilling row.billingAddress
  if history.isEmpty then
    throw "A persisted order must have at least one history entry"
  return {
    id
    version := row.version
    orderNumber
    customerRef := row.customerRef
    currency := row.currency
    items
    shippingAddress
    history
    billingAddress
    totals := row.totals.map toTotals
    checkoutRef := row.checkoutRef
    paymentRef := row.paymentRef
    fulfillmentRef := row.fulfillmentRef }

def toAddressRow (address : AddressSnapshot) : AddressRow where
  line1 := address.line1
  city := address.city
  postalCode := address.postalCode
  country := address.country
  recipientName := address.extra.recipientName
  phone := address.extra.phone
  line2 := address.extra.line2
  province := address.extra.province

def toTotalsJson (totals : TotalsProps) : TotalsProps :=
  { totals with
    shippingDiscountMinor :=
      if totals.shippingDiscountMinor.getD 0 = 0 then none else totals.shippingDiscountMinor
    discounts := if totals.discounts.getD [] = [] then none else totals.discounts
    taxIncluded := some (totals.taxIncluded.getD false) }

def toOrderRow (order : OrderAggregate) : OrderRow where
  id := order.id.value
  orderNumber := order.orderNumber.value
  customerRef := order.customerRef
  currency := order.currency
  checkoutRef := order.checkoutRef
  paymentRef := order.paymentRef
  fulfillmentRef := order.fulfillmentRef
  billingAddress := order.billingAddress.map toAddressRow
  totals := order.totals.map toTotalsJson
  version := 1

def toItemRow (line : OrderLine) : OrderItemRow where
  id := line.id.value
  productRef := line.snapshot.productId
  name := line.snapshot.name
  unitPriceAmountMinor := line.snapshot.unitPrice.amountMinor
  quantity := line.quantity
  variantRef := line.snapshot.variant.map (·.variantRef)
  sku := line.snapshot.variant.map (·.sku)
  variantTitle := line.snapshot.variant.bind (·.variantTitle)

def toEventRow (event : OrderEvent) : OrderEventRow := ⟨event.id.value, event.type, event.occurredAt⟩

end OrderMapper

namespace PrismaOrderRepository

open OrderMapper

/-- The rows of a new order. -/
def created (order : OrderAggregate) : Rows where
  order := toOrderRow order
  items := order.items.map toItemRow
  events := order.history.map toEventRow
  address := toAddressRow order.shippingAddress

/-- `createMany` with `skipDuplicates`: the id is the key of the table, in which other orders have
events too. -/
def insertEvents (elsewhere : List String) : List OrderEventRow → List OrderEventRow →
    List OrderEventRow
  | table, [] => table
  | table, row :: rest =>
    if row.id ∈ table.map (·.id) ∨ row.id ∈ elsewhere then insertEvents elsewhere table rest
    else insertEvents elsewhere (table ++ [row]) rest

/-- The rows after an order is saved that was read from them; a stale one is refused. -/
def saved (elsewhere : List String) (order : OrderAggregate) (rows : Rows) : Option Rows :=
  if order.version = rows.order.version then
    some { rows with
      order := { rows.order with
        checkoutRef := order.checkoutRef
        paymentRef := order.paymentRef
        fulfillmentRef := order.fulfillmentRef
        billingAddress := (toOrderRow order).billingAddress
        totals := (toOrderRow order).totals
        version := rows.order.version + 1 }
      events := insertEvents elsewhere rows.events (order.history.map toEventRow) }
  else none

/-- The answers of `findById`: items come in any order, events sorted by their time, those of one
time in any order. -/
def Finds (rows : Rows) (answer : Except String OrderAggregate) : Prop :=
  ∃ items events, items.Perm rows.items ∧ events.Perm rows.events ∧
    events.Pairwise (fun a b => a.occurredAt ≤ b.occurredAt) ∧
    answer = toDomain rows.order items events rows.address

end PrismaOrderRepository

end OrdersStorage
