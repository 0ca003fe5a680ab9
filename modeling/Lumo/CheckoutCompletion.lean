import Lumo.CheckoutFigures
import Lumo.OrdersHistory
import Lumo.OrdersStockRelease

/-! # Completing a checkout across its contexts

`CompleteCheckout` with the ports it is composed with: the order is created by Orders, its stock is
reserved and given back by Inventory, and it is cancelled by Orders again. Each of them commits on
its own, before the session is saved. What goes wrong in a call is given with the call. -/
namespace CheckoutCompletion

open SharedKernel Builtins Checkout CheckoutSessionMapper OrdersInventory Methods LabelledRuns

/-- What the composed services share: the id of the session, the numbers of the reservations,
and the event ids and the clock of Orders. -/
structure Config where
  text : TextOps
  checkoutSessionId : String
  ids : ℕ → String
  orders : Orders.Config

structure NewOrder where
  id : UniqueEntityId
  orderNumber : String
  customerRef : String
  eventId : String
  occurredAt : ℤ

def orderLine (item : CheckoutItem) : OrderLine where
  productId := item.productRef.1
  variantRef := item.merchandise.map (·.variantRef)
  quantity := item.quantity
  named := item.productRef.2
  positive := item.quantity.pos

/-- `CreateOrderFromCheckout`, as far as its checks concern what is kept of the order. -/
def createFromCheckout (checkoutRef : String) (new : NewOrder) (request : OrderRequest) :
    Except DomainError Orders.Order := do
  let _ ← Guard.againstEmpty checkoutRef "checkoutRef"
  let _ ← Guard.againstEmpty new.customerRef "customerRef"
  let items ← request.draft.items.mapM fun item => do
    let unitPrice ← Money.create item.unitPriceAmountMinor request.currency
    return (⟨unitPrice, item.quantity⟩ : Orders.OrderItem)
  Orders.Order.createFromCheckout new.orderNumber new.customerRef request.currency items
    ⟨request.draft.totals.totalMinor, request.currency⟩ checkoutRef new.eventId new.occurredAt

/-- `AdvanceOrder` to `cancelled`: what it saves, if it is not refused. -/
def cancelled? (orders : Orders.Config) (draw : ℕ) (order : Orders.Order) : Option Orders.Order :=
  match Orders.advance orders .cancelled draw order with
  | .save saved _ => some saved
  | .answer _ => none

structure Placement where
  id : String
  order : Orders.Order

def Placement.isCancelled (placement : Placement) : Bool :=
  match placement.order.status with
  | .ok .cancelled => true
  | _ => false

structure ReleaseAttempt where
  unreadOrder : Option ℕ
  mishaps : Mishaps

/-- The answer of `getOrder`, which is the lines of the order unless it fails. -/
def orderAnswer (unreadOrder : Option ℕ) (lines : List OrderLine) : Except ℕ (List OrderLine) :=
  match unreadOrder with
  | none => .ok lines
  | some status => .error status

def ReleaseAttempt.releasing (attempt : ReleaseAttempt) (lines : List OrderLine) : Releasing :=
  ⟨orderAnswer attempt.unreadOrder lines, attempt.mishaps⟩

structure Call where
  idempotencyKey : String
  inventoryValidation : Option InventoryValidationPort
  promotionValidation : Option PromotionValidationPort
  taxCalculation : Option TaxCalculationPort
  /-- The order is not created, or with these ids. -/
  creation : Except DomainError NewOrder
  /-- The order is created, but its answer does not arrive. -/
  answerLost : Option DomainError
  unreadOrder : Option ℕ
  getProduct : String → Except ℕ Product
  warehouses : List Warehouse
  release : ReleaseAttempt
  /-- The cancellation is committed. -/
  cancels : Bool
  cancelDraw : ℕ
  /-- The release that follows the cancellation. -/
  cleanup : ReleaseAttempt
  /-- The session is saved, if the call comes to that. -/
  committed : Bool

def Call.shop (call : Call) (lines : List OrderLine) : Shop where
  getOrder _ := orderAnswer call.unreadOrder lines
  getProduct := call.getProduct
  warehouses := call.warehouses

section Calls

variable (config : Config) (room : Stockroom) (call : Call)

def Call.deps : CompleteCheckoutDeps where
  orderCreation request := do
    let new ← call.creation
    let _ ← createFromCheckout config.checkoutSessionId new request
    return new.id.value
  inventoryValidation := call.inventoryValidation
  -- the lines that are reserved are those of the order, which are the items of the session
  stockReservation := some fun orderRef items =>
    match requestReservation (call.shop (items.map orderLine)) orderRef config.ids room with
    | .ok _ _ => .ok (.ok ())
    | .error _ _ => .ok (.error "insufficient stock")
  promotionValidation := call.promotionValidation
  taxCalculation := call.taxCalculation

/-- A lost answer ends the call where the order was created. -/
def Call.outcome (session : CheckoutSession) : Outcome CompleteCheckoutOutput :=
  let out := completeCheckout (call.deps config room) call.idempotencyKey session
  match call.answerLost, out.placed with
  | some error, some order => ⟨.error error, none, some { order with undone := false }, none⟩
  | _, _ => out

def Call.created? (order : PlacedOrder) : Option Orders.Order :=
  match call.creation with
  | .error _ => none
  | .ok new => (createFromCheckout config.checkoutSessionId new
      ⟨order.draft, order.session.currency, call.idempotencyKey⟩).toOption

/-- What becomes of the order and of the stock, from the reservation on. -/
def Call.settle (placed : PlacedOrder) (order : Orders.Order) : Placement × Stockroom :=
  let lines := placed.draft.items.map orderLine
  let reserved :=
    after (requestReservation (call.shop lines) placed.orderRef config.ids) room
  if call.answerLost.isSome then (⟨placed.orderRef, order⟩, room)
  else if placed.undone then
    let released :=
      releaseOrderStock config.ids (call.release.releasing lines) placed.orderRef reserved
    match (if call.cancels then cancelled? config.orders call.cancelDraw order else none) with
    | none => (⟨placed.orderRef, order⟩, released)
    | some cancelled => (⟨placed.orderRef, cancelled⟩,
        releaseOrderStock config.ids (call.cleanup.releasing lines) placed.orderRef released)
  else (⟨placed.orderRef, order⟩, reserved)

end Calls

structure World where
  row : CheckoutSessionRow
  /-- The orders that were created for the session. -/
  placements : List Placement
  room : Stockroom

/-- The session is saved under the version it was read with, or not at all. -/
def World.save (w : World) (call : Call) (out : Outcome CompleteCheckoutOutput) : World :=
  match call.committed, out.saved with
  | true, some work => { w with row := toRow work.session }
  | _, _ => w

def World.place (w : World) (placed : Option (Placement × Stockroom)) : World :=
  match placed with
  | none => w
  | some (placement, room) => { w with placements := w.placements ++ [placement], room }

section Runs

variable (config : Config)

def Call.placed? (w : World) (call : Call) (out : Outcome CompleteCheckoutOutput) :
    Option (Placement × Stockroom) :=
  out.placed.bind fun placed =>
    (call.created? config placed).map (call.settle config w.room placed)

def next (w : World) (call : Call) : World :=
  match toDomain config.text w.row with
  | .error _ => w
  | .ok session =>
    let out := call.outcome config w.room session
    (w.save call out).place (call.placed? config w out)

/-- A call, or what others do to the stock. -/
inductive Event where
  | complete (call : Call)
  | moved (room : Stockroom)

/-- The id of a new order is one that neither an order nor a reservation refers to. -/
def Fresh (w : World) (call : Call) : Prop :=
  ∀ new, call.creation = .ok new → (∀ placement ∈ w.placements, placement.id ≠ new.id.value) ∧
    ∀ row ∈ w.room.store.table, holds new.id.value row = false

def Step (w : World) (event : Event) (w' : World) : Prop :=
  match event with
  | .complete call => Fresh w call ∧ w' = next config w call
  | .moved room => Kept room.store ∧ Unused config.ids room ∧ w' = { w with room }

/-- A session that no order was created for. -/
structure New (w : World) : Prop where
  incomplete : w.row.state ≠ .completed
  unordered : w.row.orderRef = none
  placements : w.placements = []
  kept : Kept w.room.store
  unused : Unused config.ids w.room

/-- The ids are never blank, and a reservation's is never drawn twice. -/
structure Proper : Prop where
  injective : Function.Injective config.ids
  named : ∀ draw, isBlank (config.ids draw) = false
  events : ∀ draw n, isBlank (config.orders.ids draw n) = false

end Runs

def World.live (w : World) : List Placement := w.placements.filter fun p => !p.isCancelled

/-- The session is completed exactly when it records an order, which is live. -/
structure World.Recorded (w : World) : Prop where
  completed : w.row.state = .completed ↔ w.row.orderRef.isSome = true
  live : ∀ orderRef, w.row.orderRef = some orderRef → ∃ p ∈ w.live, p.id = orderRef

def refused? (config : Config) (w : World) (call : Call) : Option String :=
  match toDomain config.text w.row with
  | .error _ => none
  | .ok session =>
    ((call.outcome config w.room session).placed.filter (·.undone)).map (·.orderRef)

def World.Cancelled (w : World) (orderRef : String) : Prop :=
  ∃ p ∈ w.placements, p.id = orderRef ∧ p.isCancelled = true

/-- Nothing is reserved under the order. -/
def World.Free (w : World) (orderRef : String) : Prop :=
  ∀ row ∈ w.room.store.table, holds orderRef row = false

def Undone (config : Config) (w : World) : Event → Prop
  | .moved _ => True
  | .complete call => ∀ orderRef, refused? config w call = some orderRef →
    (next config w call).Cancelled orderRef ∧ (next config w call).Free orderRef

/-- At most one order is live, and what is refused is undone. -/
structure OneLiveOrder (config : Config) (w : World) (tr : List (Event × World)) : Prop where
  atMostOne : Always (fun w => w.live.length ≤ 1) w tr
  recorded : Always World.Recorded w tr
  undone : EveryStep (Undone config) w tr

/-- The call created an order that it neither cancelled nor recorded: the answer was lost, or the
cancellation of a refused order was, or the save of the session. -/
def Call.leaves (call : Call) (out : Outcome CompleteCheckoutOutput) : Bool :=
  out.placed.any fun placed =>
    call.answerLost.isSome || if placed.undone then !call.cancels else !call.committed

def leavesBehind (config : Config) (w : World) (call : Call) : Bool :=
  match toDomain config.text w.row with
  | .error _ => false
  | .ok session => call.leaves (call.outcome config w.room session)

/-- How many orders the calls of a run have left behind. -/
def leftBehind (config : Config) : World → List (Event × World) → ℕ
  | _, [] => 0
  | _, (.moved _, w') :: rest => leftBehind config w' rest
  | w, (.complete call, w') :: rest =>
    (leavesBehind config w call).toNat + leftBehind config w' rest

structure ReleaseAttempt.Succeeds (attempt : ReleaseAttempt) : Prop where
  read : attempt.unreadOrder = none
  smooth : Smooth attempt.mishaps

/-- What is refused is cancelled if the cancellation goes through, and its stock is given back if
one of the releases does. -/
def UndoneIfPossible (config : Config) (w : World) : Event → Prop
  | .moved _ => True
  | .complete call => ∀ orderRef, refused? config w call = some orderRef →
    (call.cancels = true → (next config w call).Cancelled orderRef) ∧
    (call.release.Succeeds ∨ call.cancels = true ∧ call.cleanup.Succeeds →
      (next config w call).Free orderRef)

end CheckoutCompletion
